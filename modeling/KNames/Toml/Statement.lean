import KNames.Toml.Calendar
import KNames.Toml.Key
import KNames.Toml.Numeral

set_option autoImplicit false

namespace KNames.Toml

def plain? (text : List Char) : Option (Item × List Char) :=
  match text with
  | '"' :: _ | '\'' :: _ => (string? text).map fun r => (.string r.1, r.2)
  | 't' :: 'r' :: 'u' :: 'e' :: rest => some (.bool true, rest)
  | 'f' :: 'a' :: 'l' :: 's' :: 'e' :: rest => some (.bool false, rest)
  | _ =>
    match dateTime? text with
    | some rest => some (.dateTime, rest)
    | none => number? text

def arrayBody? (value? : Reader Item) : Nat → Reader (List Item)
  | 0, _ => none
  | bound + 1, text =>
    match skipSpace false text with
    | ']' :: rest => some ([], rest)
    | text => do
      let (item, rest) ← value? text
      match skipSpace false rest with
      | ',' :: rest =>
        let (items, rest) ← arrayBody? value? bound rest
        some (item :: items, rest)
      | ']' :: rest => some ([item], rest)
      | _ => none

def assignment? (value? : Reader Item) (text : List Char) :
    Option ((List String × String × Item) × List Char) := do
  let ((path, key), rest) ← dottedKey? text
  let rest ← expect? '=' rest
  let (item, rest) ← value? (skipBlank rest)
  some ((path, key, item), rest)

def inlineBody? (value? : Reader Item) : Nat → Entries → Reader Entries
  | 0, _, _ => none
  | bound + 1, entries, text => do
    let ((path, key, item), rest) ← assignment? value? text
    let (_, entries) ← Entries.assign .inlineKey path key item .inline entries
    match skipBlank rest with
    | ',' :: rest => inlineBody? value? bound entries rest
    | '\x7d' :: rest => some (entries, rest)
    | _ => none

def inlineTable? (value? : Reader Item) (text : List Char) : Option (Entries × List Char) :=
  match skipBlank text with
  | '\x7d' :: rest => some ([], rest)
  | text => inlineBody? value? text.length [] text

/-- A value with at most the given number of arrays and inline tables around one another. -/
def value? : Nat → Reader Item
  | 0, text => plain? text
  | depth + 1, text =>
    match text with
    | '[' :: rest => (arrayBody? (value? depth) (rest.length + 1) rest).map fun r => (.array r.1, r.2)
    | '\x7b' :: rest => (inlineTable? (value? depth) rest).map fun r => (.table .inline r.1, r.2)
    | text => plain? text

inductive Statement where
  | header (path : List String) (key : String)
  | element (path : List String) (key : String)
  | assign (path : List String) (key : String) (item : Item)
deriving Repr

def statement? : Reader Statement
  | '[' :: '[' :: rest => do
    let ((path, key), rest) ← dottedKey? rest
    let rest ← lineEnd? (← expect? ']' (← expect? ']' rest))
    some (.element path key, rest)
  | '[' :: rest => do
    let ((path, key), rest) ← dottedKey? rest
    let rest ← lineEnd? (← expect? ']' rest)
    some (.header path key, rest)
  | text => do
    let ((path, key, item), rest) ← assignment? (value? (depthLimit - 1)) text
    some (.assign path key item, ← lineEnd? rest)

def statements? : Nat → List Char → Option (List Statement)
  | 0, _ => none
  | bound + 1, text =>
    match skipBlank text with
    | [] => some []
    | text =>
      match lineEnd? text with
      | some rest => statements? bound rest
      | none => do
        let (statement, rest) ← statement? text
        let later ← statements? bound rest
        some (statement :: later)

end KNames.Toml
