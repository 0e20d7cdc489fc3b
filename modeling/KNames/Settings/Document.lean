import KNames.Settings.Fields
import KNames.Toml.Document

set_option autoImplicit false

/-!
# Settings in a TOML document

The settings stand under the key `resolve`, as a table or as an array of the two fields in order.
All other keys of the document and of the table are ignored, and what is missing keeps its
default.
-/
namespace KNames.Settings

open Decoding Number Toml

inductive Refusal where
  | fault (cause : Fault)
  /-- A policy is a string, or a table with its name as the only key. -/
  | neitherStringNorTable
  | noKey
  | manyKeys
  | tableNotEmpty
  | arrayNotEmpty
  | notATable (type : String)
deriving DecidableEq, Repr

def Refusal.message : Refusal → String
  | fault cause => cause.message
  | neitherStringNorTable => "wanted string or table"
  | noKey => "wanted exactly 1 element, found 0 elements"
  | manyKeys => "wanted exactly 1 element, more than 1 element"
  | tableNotEmpty => "expected empty table"
  | arrayNotEmpty => "expected empty array"
  | notATable type => "expected table, found " ++ type

/-- A number has a decimal point and never an exponent; of two equally near texts the one farther
from zero is taken. -/
def floatFormat : Number.Binary64.TextFormat := ⟨.away, none⟩

def floatText : FloatValue → String
  | .finite value => value.text floatFormat
  | .infinite true => "-inf"
  | .infinite false => "inf"
  | .nan => "NaN"

/-- A date or time counts as a table without known keys. -/
def found : Item → Found
  | .string value => .string value
  | .integer value => .integer value
  | .real value => .real (floatText value)
  | .bool value => .bool value
  | .dateTime | .table .. => .map
  | .array _ | .tables _ => .sequence

def wrongType {α : Type} (expected : String) (item : Item) : Except Refusal α :=
  .error (.fault (.invalidType (found item) expected))

def checkPayload : Item → Except Refusal Unit
  | .table _ [] | .array [] | .tables [] => .ok ()
  | .table _ _ | .array _ => .error .tableNotEmpty
  | .tables _ => .error .arrayNotEmpty
  | .string _ => .error (.notATable "string")
  | .integer _ => .error (.notATable "integer")
  | .real _ => .error (.notATable "float")
  | .bool _ => .error (.notATable "boolean")
  | .dateTime => .error (.notATable "datetime")

def readName (name : String) : Except Refusal ImportScope :=
  match ImportScope.ofName? name with
  | some scope => .ok scope
  | none => .error (.fault (.unknownVariant name ImportScope.names))

def readScope : Item → Except Refusal ImportScope
  | .string name => readName name
  | .table _ [] => .error .noKey
  | .table _ [(name, item)] => do
    let scope ← readName name
    checkPayload item
    .ok scope
  | .table _ _ => .error .manyKeys
  | _ => .error .neitherStringNorTable

def readSeparator : Item → Except Refusal Char
  | .string text => (readChar text).mapError .fault
  | item => wrongType "a character" item

def itemFields : Record Item Refusal Settings := fields readScope readSeparator

/-- Settings from what stands under the key; values of an array beyond the fields are ignored. -/
def ofItem : Item → Except Refusal Settings
  | .table _ entries => itemFields.readMembers entries
  | .dateTime => itemFields.readMembers []
  | .array items => itemFields.ofItems 0 items
  | .tables elements => itemFields.ofItems 0 (elements.map (.table .defined))
  | item => wrongType ("struct " ++ recordName) item

def tableKey : String := "resolve"

def ofEntries (document : Entries) : Except Refusal Settings :=
  match document.lookup tableKey with
  | none => .ok {}
  | some item => ofItem item

inductive ReadError where
  | malformed
  | refused (cause : Refusal)
deriving DecidableEq, Repr

def parse (text : String) : Except ReadError Settings :=
  match Toml.parse? text with
  | none => .error .malformed
  | some document => (ofEntries document).mapError .refused

end KNames.Settings
