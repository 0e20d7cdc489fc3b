import KNames.Tree.Forest

set_option autoImplicit false

namespace KNames

structure Tree where
  extent : Span
  top : Forest
deriving DecidableEq, Repr

namespace Tree

def whole (t : Tree) : Forest := .cons .file t.extent t.top .nil

def size (t : Tree) : Nat := t.whole.size

def root : NodeId := 0

/-- All nodes; the one at place `i` has the number `i`. -/
def nodes (t : Tree) : List Node := t.whole.nodes none root

def path (t : Tree) (i : NodeId) : List Node := t.whole.path none root i

def node? (t : Tree) (i : NodeId) : Option Node := (t.path i).head?

def kind? (t : Tree) (i : NodeId) : Option Kind := (t.node? i).map (·.kind)

def span? (t : Tree) (i : NodeId) : Option Span := (t.node? i).map (·.span)

def parent? (t : Tree) (i : NodeId) : Option NodeId := (t.node? i).bind (·.parent)

def children (t : Tree) (i : NodeId) : List NodeId := ((t.node? i).map (·.children)).getD []

def ancestors (t : Tree) (i : NodeId) : List NodeId := (t.path i).map (·.id)

def walk (t : Tree) (i : NodeId) : List Node := ((t.node? i).map (·.subtree)).getD []

def descendants (t : Tree) (i : NodeId) : List NodeId := (t.walk i).map (·.id)

/-- The `require` statements right under the root, in document order. -/
def requires (t : Tree) : List (NodeId × String) :=
  (t.top.tops (some root) 1).filterMap fun n => n.kind.requirePath?.map (n.id, ·)

def ruleBody? (t : Tree) (i : NodeId) : Option NodeId :=
  ((t.node? i).bind (·.body?)).map (·.id)

/-- The innermost rule around `i`, `i` included; a module or file boundary hides those further
out. -/
def enclosingRule? (t : Tree) (i : NodeId) : Option NodeId :=
  (((t.path i).find? (·.kind.isBoundary)).filter (·.kind.isRule)).map (·.id)

def enclosingBody? (t : Tree) (i : NodeId) : Option NodeId :=
  (t.enclosingRule? i).bind t.ruleBody?

/-- The node reached by descending through the first child whose span has the offset. -/
def nodeAt? (t : Tree) (offset : Nat) : Option NodeId := t.whole.innermost root offset

end Tree

structure Source where
  id : FileId
  uri : String
  tree : Tree
deriving DecidableEq, Repr

namespace Source

def requires (s : Source) : List String := s.tree.requires.map (·.2)

def hasRequires (s : Source) : Bool := !s.tree.requires.isEmpty

end Source

end KNames
