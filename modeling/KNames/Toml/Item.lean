import KNames.Number.Binary64

set_option autoImplicit false

/-!
# TOML items

The value of a key: a scalar, an array, a table, or an array of tables. A table remembers how it
came to be, because that decides who may still add to it: `defined` by a header of its own,
`implied` by the header of a table inside it, `dotted` by a dotted key, and the last two also for
tables written inline. Entries stay in the order in which they were made.

`alter` goes down a path of tables, making those that are missing, and edits the table at its end.
-/
namespace KNames.Toml

open Number

inductive FloatValue where
  | finite (value : Binary64)
  | infinite (negative : Bool)
  | nan
deriving Repr, Inhabited

inductive TableForm where
  | defined
  | implied
  | dotted
  | inline
  | inlineDotted
deriving DecidableEq, Repr

inductive Item where
  | string (value : String)
  | integer (value : Int)
  | real (value : FloatValue)
  | bool (value : Bool)
  | dateTime
  | array (items : List Item)
  | table (form : TableForm) (entries : List (String × Item))
  | tables (elements : List (List (String × Item)))
deriving Repr, Inhabited

abbrev Entries := List (String × Item)

namespace TableForm

/-- Tables that exist only on the way to others. -/
def isDotted : TableForm → Bool
  | dotted | inlineDotted => true
  | _ => false

end TableForm

inductive Descent where
  | header
  | key
  | inlineKey
deriving DecidableEq, Repr

namespace Descent

def made : Descent → TableForm
  | header => .implied
  | key => .dotted
  | inlineKey => .inlineDotted

/-- May the path go through a table of this form? A dotted key may not reopen a defined table, and
nothing may reopen a finished inline table. -/
def enters : Descent → TableForm → Bool
  | header, .defined | header, .implied | header, .dotted => true
  | key, .implied | key, .dotted => true
  | inlineKey, .inlineDotted => true
  | _, _ => false

def entersTables : Descent → Bool
  | inlineKey => false
  | _ => true

end Descent

namespace Entries

def set (key : String) (item : Item) : Entries → Entries
  | [] => [(key, item)]
  | (other, old) :: rest =>
    if other = key then (key, item) :: rest else (other, old) :: set key item rest

def remove (key : String) (entries : Entries) : Entries := entries.filter (·.1 ≠ key)

abbrev Edit (α : Type) := TableForm → Entries → Option (α × Entries)

def alter {α : Type} (descent : Descent) (edit : Edit α) : List String → Edit α
  | [], form, entries => edit form entries
  | key :: path, _, entries =>
    match entries.lookup key with
    | none => do
      let (result, inner) ← alter descent edit path descent.made []
      some (result, entries.set key (.table descent.made inner))
    | some (.table form inner) =>
      if descent.enters form then do
        let (result, inner) ← alter descent edit path form inner
        some (result, entries.set key (.table form inner))
      else none
    | some (.tables elements) =>
      match descent.entersTables, elements.getLast? with
      | true, some inner => do
        let (result, inner) ← alter descent edit path .defined inner
        some (result, entries.set key (.tables (elements.dropLast ++ [inner])))
      | _, _ => none
    | some _ => none

/-- Adds a key under a dotted prefix. The table at the end of the prefix must be one that dotted
keys made, or the starting table itself when there is no prefix, and must not have the key yet. -/
def assign (descent : Descent) (path : List String) (key : String) (item : Item) : Edit Unit :=
  alter descent
    (fun form entries =>
      if form.isDotted = path.isEmpty ∨ (entries.lookup key).isSome then none
      else some ((), entries ++ [(key, item)]))
    path

end Entries

end KNames.Toml
