import KNames.Decoding.Record
import KNames.Json.Writer

set_option autoImplicit false

/-!
# Decoding JSON

Numbers of 32 bits, strings, lists, records and variants. A record may be an object or an array of
its fields in order; a variant is a string, or an object with the name of the variant as its only
member.
-/
namespace KNames.Wire

open Decoding

abbrev Decoder (α : Type) := Json → Except Fault α

def found : Json → Found
  | .null => .null
  | .bool value => .bool value
  | .integer value => .integer value
  | .real value => .real (value.text Json.realFormat)
  | .string value => .string value
  | .array _ => .sequence
  | .object _ => .map

def wrongType {α : Type} (expected : String) (j : Json) : Except Fault α :=
  .error (.invalidType (found j) expected)

def number : Decoder Nat
  | .integer value =>
    if 0 ≤ value ∧ value < Number.twoTo 32 then .ok value.toNat
    else .error (.invalidValue (.integer value) "u32")
  | j => wrongType "u32" j

def string : Decoder String
  | .string value => .ok value
  | j => wrongType "a string" j

def character : Decoder Char
  | .string value => readChar value
  | j => wrongType "a character" j

def list {α : Type} (item : Decoder α) : Decoder (List α)
  | .array items => items.mapM item
  | j => wrongType "a sequence" j

def optional {α : Type} (some? : Decoder α) : Decoder (Option α)
  | .null => .ok none
  | j => (some? j).map some

def recordShape (name : String) (size : Nat) : String :=
  "struct " ++ name ++ " with " ++ toString size ++ (if size = 1 then " element" else " elements")

def required {α : Type} (record : String) (size : Nat) (name : String) (read : Decoder α) :
    Record Json Fault α :=
  .field name read (.error (.missingField name))
    fun i => .error (.invalidLength i (recordShape record size))

def record {α : Type} (name : String) (fields : Record Json Fault α) : Decoder α
  | .object members => fields.readMembers (Json.sorted members)
  | .array items => do
    let value ← fields.ofItems 0 items
    if fields.size < items.length then
      .error (.invalidLength items.length "fewer elements in array")
    else .ok value
  | j => wrongType ("struct " ++ name) j

def variant : Decoder (String × Option Json)
  | .string name => .ok (name, none)
  | .object members =>
    match Json.sorted members with
    | [(name, value)] => .ok (name, some value)
    | _ => .error (.invalidValue .map "map with a single key")
  | j => wrongType "string or map" j

/-- A variant without a value may be given `null`. -/
def noPayload : Option Json → Except Fault Unit
  | none | some .null => .ok ()
  | some j => wrongType "unit" j

def payload {α : Type} (read : Decoder α) : Option Json → Except Fault α
  | none => .error (.invalidType .unitVariant "newtype variant")
  | some j => read j

def plainVariant {α : Type} (names : List String) (ofName? : String → Option α) : Decoder α :=
  fun j => do
    let (name, value) ← variant j
    match ofName? name with
    | none => .error (.unknownVariant name names)
    | some a => (noPayload value).map fun _ => a

end KNames.Wire
