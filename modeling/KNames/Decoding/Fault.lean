import KNames.Text.Quoted

set_option autoImplicit false

namespace KNames.Decoding

inductive Found where
  | null
  | bool (value : Bool)
  | integer (value : Int)
  | real (shown : String)
  | string (value : String)
  | sequence
  | map
  | unitVariant
deriving DecidableEq, Repr

def Found.text : Found → String
  | null => "null"
  | bool value => "boolean `" ++ toString value ++ "`"
  | integer value => "integer `" ++ toString value ++ "`"
  | real shown => "floating point `" ++ shown ++ "`"
  | string value => "string " ++ Text.quoted value
  | sequence => "sequence"
  | map => "map"
  | unitVariant => "unit variant"

inductive Fault where
  | invalidType (found : Found) (expected : String)
  | invalidValue (found : Found) (expected : String)
  | invalidLength (length : Nat) (expected : String)
  | missingField (name : String)
  | unknownVariant (name : String) (known : List String)
deriving DecidableEq, Repr

def alternatives : List String → String
  | [a, b] => "`" ++ a ++ "` or `" ++ b ++ "`"
  | [a] => "`" ++ a ++ "`"
  | names => "one of " ++ ", ".intercalate (names.map fun name => "`" ++ name ++ "`")

def Fault.message : Fault → String
  | invalidType found expected => "invalid type: " ++ found.text ++ ", expected " ++ expected
  | invalidValue found expected => "invalid value: " ++ found.text ++ ", expected " ++ expected
  | invalidLength length expected =>
    "invalid length " ++ toString length ++ ", expected " ++ expected
  | missingField name => "missing field `" ++ name ++ "`"
  | unknownVariant name known =>
    "unknown variant `" ++ name ++ "`, expected " ++ alternatives known

def readChar (text : String) : Except Fault Char :=
  match text.toList with
  | [c] => .ok c
  | _ => .error (.invalidValue (.string text) "a character")

theorem readChar_ofList (c : Char) : readChar (String.ofList [c]) = .ok c := by
  rw [readChar, String.toList_ofList]

end KNames.Decoding
