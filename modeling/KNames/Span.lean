set_option autoImplicit false

namespace KNames

/-- The place of a node in the document order of its tree; the root is `0`. -/
abbrev NodeId := Nat

abbrev FileId := Nat

abbrev ModuleId := Nat

def NodeId.text (node : NodeId) : String := "NodeId(" ++ toString node ++ ")"

def FileId.text (file : FileId) : String := "FileId(" ++ toString file ++ ")"

def ModuleId.text (group : ModuleId) : String := "ModuleId(" ++ toString group ++ ")"

/-- From the byte `start` up to, and without, the byte `stop`. -/
structure Span where
  start : Nat
  stop : Nat
deriving DecidableEq, Repr, Inhabited

namespace Span

def merge (a b : Span) : Span := ⟨min a.start b.start, max a.stop b.stop⟩

/-- An inverted span has length zero. -/
def length (s : Span) : Nat := s.stop - s.start

/-- Only a span that stops where it starts is empty; an inverted one is not. -/
def isEmpty (s : Span) : Bool := s.start == s.stop

def contains (s : Span) (offset : Nat) : Bool := s.start ≤ offset && offset < s.stop

def order (a b : Span) : Ordering := (compare a.start b.start).then (compare a.stop b.stop)

def text (s : Span) : String := toString s.start ++ ".." ++ toString s.stop

theorem contains_iff (s : Span) (offset : Nat) :
    s.contains offset = true ↔ s.start ≤ offset ∧ offset < s.stop := by
  simp [contains]

end Span

end KNames
