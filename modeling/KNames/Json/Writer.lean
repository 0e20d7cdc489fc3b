import KNames.Json.Value
import KNames.Text.Quoted

set_option autoImplicit false

/-!
# Compact JSON text

No blanks; members in the order of the value. In strings the quote, the backslash and the control
characters below the blank are escaped, by a letter where JSON has one and else by number; all
else stands for itself.
-/
namespace KNames.Json

open Number

def stringChar (c : Char) : List Char :=
  if c = '"' then ['\\', '"']
  else if c = '\\' then ['\\', '\\']
  else if c = '\x08' then ['\\', 'b']
  else if c = '\t' then ['\\', 't']
  else if c = '\n' then ['\\', 'n']
  else if c = '\x0c' then ['\\', 'f']
  else if c = '\r' then ['\\', 'r']
  else if c.toNat < 0x20 then
    ['\\', 'u', '0', '0', Text.hexDigit (c.toNat / 16), Text.hexDigit c.toNat]
  else [c]

def stringText (text : String) : List Char :=
  '"' :: text.toList.flatMap stringChar ++ ['"']

def integerText : Int → List Char
  | .ofNat n => Nat.toDigits 10 n
  | .negSucc n => '-' :: Nat.toDigits 10 (n + 1)

/-- Doubles from `1e-5` up to, and without, `1e16` are written without an exponent; of two equally
near texts the one with an even last digit is taken. -/
def realFormat : Binary64.TextFormat := ⟨.toEven, some ⟨-4, 16⟩⟩

mutual

def chars : Json → List Char
  | null => ['n', 'u', 'l', 'l']
  | bool true => ['t', 'r', 'u', 'e']
  | bool false => ['f', 'a', 'l', 's', 'e']
  | integer value => integerText value
  | real value => (value.text realFormat).toList
  | string value => stringText value
  | array items => '[' :: itemChars items ++ [']']
  | object members => '\x7b' :: memberChars members ++ ['\x7d']

def itemChars : List Json → List Char
  | [] => []
  | [item] => item.chars
  | item :: items => item.chars ++ ',' :: itemChars items

def memberChars : List (String × Json) → List Char
  | [] => []
  | [(name, value)] => stringText name ++ ':' :: value.chars
  | (name, value) :: members => stringText name ++ ':' :: value.chars ++ ',' :: memberChars members

end

def text (value : Json) : String := String.ofList value.chars

end KNames.Json
