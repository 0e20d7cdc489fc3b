import KNames.Toml.Statement

set_option autoImplicit false

/-!
# Documents

The statements of a text are put together into one table. What is refused here is a key or a table
that is defined twice, or that is added to after it was finished.
-/
namespace KNames.Toml

/-- The table of a document so far, and the table under the last header, which is put in its place
when the next header comes or the text ends. -/
structure Assembly where
  root : Entries
  target : Option (List String × String)
  isElement : Bool
  body : Entries

namespace Assembly

def empty : Assembly := ⟨[], none, false, []⟩

/-- Puts the open table under a key, in place of one that was only implied. -/
def placeTable (key : String) (body : Entries) : Entries.Edit Unit := fun _ entries =>
  match entries.lookup key with
  | none => some ((), entries ++ [(key, .table .defined body)])
  | some (.table .implied _) | some (.table .dotted _) =>
    some ((), entries.set key (.table .defined body))
  | some _ => none

def placeElement (key : String) (body : Entries) : Entries.Edit Unit := fun _ entries =>
  match entries.lookup key with
  | none => some ((), entries ++ [(key, .tables [body])])
  | some (.tables elements) => some ((), entries.set key (.tables (elements ++ [body])))
  | some _ => none

def close (a : Assembly) : Option Entries :=
  match a.target with
  | none => some a.body
  | some (path, key) =>
    let place := if a.isElement then placeElement key a.body else placeTable key a.body
    (Entries.alter .header place path .defined a.root).map (·.2)

def reopen (key : String) : Entries.Edit Entries := fun _ entries =>
  match entries.lookup key with
  | none => some ([], entries)
  | some (.table .implied body) => some (body, entries.remove key)
  | some _ => none

def reserve (key : String) : Entries.Edit Unit := fun _ entries =>
  match entries.lookup key with
  | none => some ((), entries ++ [(key, .tables [])])
  | some (.tables _) => some ((), entries)
  | some _ => none

def step (a : Assembly) : Statement → Option Assembly
  | .header path key => do
    let root ← a.close
    let (body, root) ← Entries.alter .header (reopen key) path .defined root
    some ⟨root, some (path, key), false, body⟩
  | .element path key => do
    let root ← a.close
    let (_, root) ← Entries.alter .header (reserve key) path .defined root
    some ⟨root, some (path, key), true, []⟩
  | .assign path key item => do
    let (_, body) ← Entries.assign .key path key item .defined a.body
    some { a with body := body }

end Assembly

def assemble (statements : List Statement) : Option Entries := do
  (← statements.foldlM Assembly.step .empty).close

def dropMark : List Char → List Char
  | c :: rest => if c.toNat = 0xFEFF then rest else c :: rest
  | [] => []

def parse? (text : String) : Option Entries := do
  let chars := dropMark text.toList
  assemble (← statements? (chars.length + 1) chars)

end KNames.Toml
