import KNames.SearchSpace

set_option autoImplicit false

namespace KNames.Lookup

def hasCandidate (candidates : Candidates) (kind : DeclKind) (n : Node) : Bool :=
  (n.kind.declared? kind).any candidates.matchesAny

def firstInSubtree (source : Source) (node : NodeId) (candidates : Candidates) (kind : DeclKind) :
    Option Declaration :=
  ((source.tree.walk node).find? (hasCandidate candidates kind)).bind
    (Declaration.ofNode? source.id kind)

/-- The first match in a list of files. A file without a live tree is reported and passed over;
files after the match are not looked at. -/
def firstInFiles (index : FileIndex) (candidates : Candidates) (kind : DeclKind) :
    List FileId → Traced (Option Declaration)
  | [] => .silent none
  | file :: files =>
    match index.source? file with
    | none => .after (.staleSkipped file) (firstInFiles index candidates kind files)
    | some source =>
      match firstInSubtree source Tree.root candidates kind with
      | some found => .silent (some found)
      | none => firstInFiles index candidates kind files

/-- The first match in a space. Without candidates no tree is looked at. -/
def firstMatch (index : FileIndex) (space : SearchSpace) (candidates : Candidates)
    (kind : DeclKind) : Traced (Option Declaration) :=
  if candidates.isEmpty then .silent none
  else
    match space with
    | .empty => .silent none
    | .ruleBody source body => .silent (firstInSubtree source body candidates kind)
    | .file source => .silent (firstInSubtree source Tree.root candidates kind)
    | .moduleFiles _ files => firstInFiles index candidates kind files

def variablesNamed (source : Source) (node : NodeId) (name : String) : List Declaration :=
  match source.tree.enclosingBody? node with
  | none => []
  | some body => (Declaration.inSubtree source body .var).filter (·.declares name)

def variableDeclarations (index : FileIndex) (file : FileId) (node : NodeId) (name : String) :
    List Declaration :=
  match index.source? file with
  | none => []
  | some source => variablesNamed source node name

def isProduction (name : Option String) (n : Node) : Bool :=
  (n.kind.declared? .production).any fun names => name.all names.contains

/-- Every production of the project, or every one that declares the name. A stale file has none. -/
def productions (index : FileIndex) (name : Option String) : List Declaration :=
  index.sources.flatMap fun source =>
    ((source.tree.walk Tree.root).filter (isProduction name)).filterMap
      (Declaration.ofNode? source.id .production)

end KNames.Lookup
