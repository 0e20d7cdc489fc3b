import KNames.Decoding.Fault

set_option autoImplicit false

namespace KNames.Decoding

/-- How to read an `α` from values of a format `V`, with faults `ε`. -/
structure Record (V ε α : Type) where
  size : Nat
  fault? : String → V → Option ε
  ofMembers : List (String × V) → Except ε α
  /-- Reads from the values at the given place and after it. -/
  ofItems : Nat → List V → Except ε α

namespace Record

variable {V ε α β : Type}

def fault (result : Except ε α) : Option ε :=
  match result with
  | .ok _ => none
  | .error e => some e

/-- A field of the given name; `noMember` and `noItem` stand for a missing one. -/
def field (name : String) (read : V → Except ε α) (noMember : Except ε α)
    (noItem : Nat → Except ε α) : Record V ε α where
  size := 1
  fault? other value := if other = name then fault (read value) else none
  ofMembers members := ((members.lookup name).map read).getD noMember
  ofItems i items := (items[i]?.map read).getD (noItem i)

def both (a : Record V ε α) (b : Record V ε β) : Record V ε (α × β) where
  size := a.size + b.size
  fault? name value := (a.fault? name value).or (b.fault? name value)
  ofMembers members := do
    let x ← a.ofMembers members
    let y ← b.ofMembers members
    .ok (x, y)
  ofItems i items := do
    let x ← a.ofItems i items
    let y ← b.ofItems (i + a.size) items
    .ok (x, y)

def map (f : α → β) (a : Record V ε α) : Record V ε β where
  size := a.size
  fault? := a.fault?
  ofMembers members := (a.ofMembers members).map f
  ofItems i items := (a.ofItems i items).map f

/-- The first fault in the order of the members; of several with one name the first counts. -/
def firstFault? (a : Record V ε α) (members : List (String × V)) : Option ε :=
  (members.map (·.1)).findSome? fun name => (members.lookup name).bind (a.fault? name)

def readMembers (a : Record V ε α) (members : List (String × V)) : Except ε α :=
  match a.firstFault? members with
  | some e => .error e
  | none => a.ofMembers members

end Record

end KNames.Decoding
