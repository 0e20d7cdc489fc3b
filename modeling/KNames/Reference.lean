import KNames.Candidates
import KNames.Settings.Basic
import KNames.Tree.Basic

set_option autoImplicit false

namespace KNames

/-- How a node is read as a declaration; a production can be meant by a name or by a label. -/
inductive DeclKind where
  | var
  | production
  | label
  | sort
deriving DecidableEq, Repr, Inhabited

inductive Reference where
  | var (name : String)
  | function (name : String)
  | label (raw : String)
  | sort (name : String)
deriving DecidableEq, Repr, Inhabited

namespace Reference

def raw : Reference → String
  | var name | function name | label name | sort name => name

def kindName : Reference → String
  | var _ => "variable"
  | function _ => "function"
  | label _ => "label"
  | sort _ => "sort"

def target : Reference → DeclKind
  | var _ => .var
  | function _ => .production
  | label _ => .label
  | sort _ => .sort

def candidates (settings : Settings) : Reference → Candidates
  | label raw => .label raw settings.labelSeparator
  | reference => .single reference.raw

def text (reference : Reference) : String :=
  reference.kindName ++ " `" ++ reference.raw ++ "`"

end Reference

structure Occurrence where
  file : FileId
  node : NodeId
  reference : Reference
deriving DecidableEq, Repr, Inhabited

/-- The names a node declares when it is read as `kind`; nothing if it declares nothing so. -/
def Kind.declared? (kind : DeclKind) : Kind → Option (List String)
  | varDecl name _ => match kind with
    | .var => name.map fun ident => [ident.name]
    | _ => none
  | production labels => match kind with
    | .production | .label => some (labels.map (·.name))
    | _ => none
  | sortDecl sort => match kind with
    | .sort => some [sort.name]
    | _ => none
  | _ => none

structure Declaration where
  file : FileId
  node : NodeId
  kind : DeclKind
  span : Span
  /-- All names of the node, not only the one that was looked for. -/
  names : List String
deriving DecidableEq, Repr, Inhabited

namespace Declaration

def ofNode? (file : FileId) (kind : DeclKind) (n : Node) : Option Declaration :=
  (n.kind.declared? kind).map fun names => ⟨file, n.id, kind, n.span, names⟩

def at? (source : Source) (node : NodeId) (kind : DeclKind) : Option Declaration :=
  (source.tree.node? node).bind (ofNode? source.id kind)

def declares (d : Declaration) (name : String) : Bool := d.names.contains name

def inSubtree (source : Source) (node : NodeId) (kind : DeclKind) : List Declaration :=
  (source.tree.walk node).filterMap (ofNode? source.id kind)

theorem declares_iff (d : Declaration) (name : String) :
    d.declares name = true ↔ name ∈ d.names := by
  simp [declares]

end Declaration

end KNames
