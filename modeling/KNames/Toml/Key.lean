import KNames.Toml.Quoted

set_option autoImplicit false

namespace KNames.Toml

def isBareChar (c : Char) : Bool := c.isAlphanum || c == '-' || c == '_'

def simpleKey? (text : List Char) : Option (String × List Char) :=
  match lineString? text with
  | some found => some found
  | none =>
    let key := text.takeWhile isBareChar
    if key.isEmpty then none else some (String.ofList key, text.dropWhile isBareChar)

def keys? : Nat → Reader (List String)
  | 0, _ => none
  | bound + 1, text => do
    let (key, rest) ← simpleKey? (skipBlank text)
    match skipBlank rest with
    | '.' :: rest =>
      let (keys, rest) ← keys? bound rest
      some (key :: keys, rest)
    | rest => some ([key], rest)

/-- A dotted key has fewer parts than this, and arrays and inline tables nest less deeply. -/
def depthLimit : Nat := 80

def dottedKey? (text : List Char) : Option ((List String × String) × List Char) := do
  let (keys, rest) ← keys? (depthLimit - 1) text
  let last ← keys.getLast?
  some ((keys.dropLast, last), rest)

end KNames.Toml
