import KNames.Event
import KNames.Index.Basic
import KNames.RequirePath

set_option autoImplicit false

/-!
# Search spaces

Where a reference may find its declaration. A variable is looked for in the body of its rule.
Anything else is looked for in its own file, or in the whole module if the file requires others;
under the wider policy also if another file of the module requires it.
-/
namespace KNames

inductive SearchSpace where
  | empty
  | ruleBody (source : Source) (body : NodeId)
  | file (source : Source)
  | moduleFiles (group : ModuleId) (files : List FileId)
deriving DecidableEq, Repr

namespace SearchSpace

def isEmpty : SearchSpace → Bool
  | empty => true
  | moduleFiles _ files => files.isEmpty
  | _ => false

def label : SearchSpace → String
  | empty => "empty"
  | ruleBody .. => "rule"
  | file _ => "file"
  | moduleFiles .. => "module"

def ofRule (source : Source) (node : NodeId) : Traced SearchSpace :=
  match source.tree.enclosingBody? node with
  | some body => .silent (ruleBody source body)
  | none => .reporting (.noEnclosingRule source.id node) empty

/-- Does another live file of the module require this one? -/
def isRequired (index : FileIndex) (source : Source) : Bool :=
  match index.moduleOf? source.id with
  | none => false
  | some group =>
    let others := (index.filesIn (index.scopeOf group)).filter (· ≠ source.id)
    (others.filterMap index.source?).any fun other =>
      other.requires.any (RequirePath.designates · source.uri)

/-- Does a declaration reference from this file look beyond it? -/
def isWide (index : FileIndex) (settings : Settings) (source : Source) : Bool :=
  source.hasRequires ||
    (settings.importScope == .moduleWhenRequiredBy && isRequired index source)

/-- The space of a production, label or sort referred to from a file; the place of the reference
in the file does not matter. -/
def ofDeclarations (index : FileIndex) (settings : Settings) (source : Source) :
    Traced SearchSpace :=
  if isWide index settings source then
    match index.moduleOf? source.id with
    | some group =>
      let files := index.filesIn (index.scopeOf group)
      .reporting (.moduleScope source.id group files.length) (moduleFiles group files)
    | none => .reporting (.noModule source.id) (file source)
  else .reporting (.fileScope source.id) (file source)

def ofReference (index : FileIndex) (settings : Settings) (source : Source) (node : NodeId) :
    Reference → Traced SearchSpace
  | .var _ => ofRule source node
  | _ => ofDeclarations index settings source

end SearchSpace

end KNames
