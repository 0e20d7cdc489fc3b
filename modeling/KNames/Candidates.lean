set_option autoImplicit false

/-!
# Candidate names

The names that a token at a reference may stand for. A label is written behind a quote character
and may carry a suffix after a separator, so it stands for itself, for itself without the quote,
and for the part between quote and separator. Empty strings are never candidates.
-/
namespace KNames

structure Candidates where
  names : List String
deriving DecidableEq, Repr, Inhabited

namespace Candidates

def empty : Candidates := ⟨[]⟩

def ofNames (names : List String) : Candidates := ⟨names.filter (· ≠ "")⟩

def single (name : String) : Candidates := ofNames [name]

/-- The part of a token before the first separator, if it has one. -/
def short? (separator : Char) (token : List Char) : Option (List Char) :=
  if separator ∈ token then some (token.takeWhile (· ≠ separator)) else none

/-- The forms of a label token; its first character counts as the quote, whatever it is. -/
def label (raw : String) (separator : Char) : Candidates :=
  let unquoted := raw.toList.tail
  ofNames (raw :: String.ofList unquoted :: ((short? separator unquoted).map String.ofList).toList)

def contains (c : Candidates) (name : String) : Bool := c.names.contains name

def matchesAny (c : Candidates) (declared : List String) : Bool := declared.any c.contains

def size (c : Candidates) : Nat := c.names.length

def isEmpty (c : Candidates) : Bool := c.names.isEmpty

theorem contains_iff (c : Candidates) (name : String) :
    c.contains name = true ↔ name ∈ c.names := by
  simp [contains]

theorem matchesAny_iff (c : Candidates) (declared : List String) :
    c.matchesAny declared = true ↔ ∃ name ∈ declared, name ∈ c.names := by
  simp [matchesAny, contains_iff]

end Candidates

end KNames
