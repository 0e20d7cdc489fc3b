import KNames.Number.Binary64

set_option autoImplicit false

/-!
# JSON values

A number written without fraction and exponent is an integer if it fits in 64 bits, signed or
unsigned; every other number is a double. Objects keep their members as written; `member?` and
`sorted` see the last of several members with one name.
-/
namespace KNames

open Number

inductive Json where
  | null
  | bool (value : Bool)
  | integer (value : Int)
  | real (value : Binary64)
  | string (value : String)
  | array (items : List Json)
  | object (members : List (String × Json))
deriving Repr, Inhabited

namespace Json

/-- Puts a member at its place in the order of names, in place of one of the same name. -/
def insertMember (name : String) (value : Json) : List (String × Json) → List (String × Json)
  | [] => [(name, value)]
  | (other, old) :: rest =>
    if name = other then (name, value) :: rest
    else if name < other then (name, value) :: (other, old) :: rest
    else (other, old) :: insertMember name value rest

def sorted (members : List (String × Json)) : List (String × Json) :=
  members.foldl (fun found m => insertMember m.1 m.2 found) []

def member? (name : String) : Json → Option Json
  | object members => members.reverse.lookup name
  | _ => none

end Json

end KNames
