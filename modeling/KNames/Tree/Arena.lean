import KNames.Tree.Script

set_option autoImplicit false

/-!
# Arenas

A tree as the list of its nodes, with links: each node knows the numbers of its parent and of its
children. An arena is such a list while it grows. A new node is pushed at the end and linked to the
innermost open node, and closing a node changes its span in place.
-/
namespace KNames

structure Link where
  kind : Kind
  span : Span
  parent : Option NodeId
  children : List NodeId
deriving DecidableEq, Repr

namespace Link

def adopt (child : NodeId) (l : Link) : Link := { l with children := l.children ++ [child] }

def stopAt (stop : Nat) (l : Link) : Link := { l with span := ⟨l.span.start, stop⟩ }

/-- A span never stops before its start. -/
def closeAt (stop : Nat) (l : Link) : Link := l.stopAt (max stop l.span.start)

end Link

def Node.link (n : Node) : Link := ⟨n.kind, n.span, n.parent, n.children⟩

def Tree.links (t : Tree) : List Link := t.nodes.map (·.link)

structure Arena where
  cursor : Nat
  opened : List NodeId
  links : List Link
deriving DecidableEq, Repr

namespace Arena

def empty : Arena := ⟨0, [], [⟨.file, ⟨0, 0⟩, none, []⟩]⟩

def innermost (a : Arena) : NodeId := a.opened.headD Tree.root

def push (kind : Kind) (span : Span) (a : Arena) : Arena :=
  { a with
    links := a.links.modify a.innermost (·.adopt a.links.length) ++
      [⟨kind, span, some a.innermost, []⟩] }

def openNode (kind : Kind) (start : Nat) (a : Arena) : Arena :=
  { a.push kind ⟨start, start⟩ with opened := a.links.length :: a.opened }

def leaf (kind : Kind) (span : Span) (a : Arena) : Arena :=
  { a.push kind span with cursor := max a.cursor span.stop }

def close (stop : Nat) (a : Arena) : Arena :=
  match a.opened with
  | [] => a
  | i :: outer => ⟨max a.cursor stop, outer, a.links.modify i (·.closeAt stop)⟩

def act (a : Arena) : Action → Arena
  | .moveTo position => { a with cursor := position }
  | .openNode kind start => a.openNode kind start
  | .leaf kind span => a.leaf kind span
  | .close stop => a.close stop

def builder : Builder Arena := ⟨cursor, act⟩

def finish (a : Arena) : List Link :=
  (a.opened.foldl (fun b _ => b.close a.cursor) a).links.modify Tree.root (·.stopAt a.cursor)

end Arena

def Script.links (s : Script) : List Link := (Arena.builder.run s .empty).finish

end KNames
