import KNames.Text.Hex
import KNames.Toml.Item
import KNames.Toml.Space

set_option autoImplicit false

namespace KNames.Toml

open Number

/-- The digits after the first; an underscore stands between two digits only. -/
def moreDigits? (isDigit : Char → Bool) : Reader (List Char)
  | '_' :: c :: rest =>
    if isDigit c then (moreDigits? isDigit rest).map fun r => (c :: r.1, r.2) else none
  | ['_'] => none
  | c :: rest =>
    if isDigit c then (moreDigits? isDigit rest).map fun r => (c :: r.1, r.2)
    else some ([], c :: rest)
  | [] => some ([], [])

def digits? (isDigit : Char → Bool) : Reader (List Char)
  | c :: rest =>
    if isDigit c then (moreDigits? isDigit rest).map fun r => (c :: r.1, r.2) else none
  | [] => none

def sign : List Char → Bool × List Char
  | '+' :: rest => (false, rest)
  | '-' :: rest => (true, rest)
  | text => (false, text)

def wholeDigits? : Reader (List Char)
  | '0' :: rest => some (['0'], rest)
  | text => digits? Char.isDigit text

def fraction? : Reader (List Char)
  | '.' :: rest => digits? Char.isDigit rest
  | text => some ([], text)

def exponent? : Reader Int
  | c :: rest =>
    if c = 'e' ∨ c = 'E' then do
      let (negative, rest) := sign rest
      let (digits, rest) ← digits? Char.isDigit rest
      let value : Int := Nat.ofDigitChars 10 digits 0
      some (if negative then -value else value, rest)
    else some (0, c :: rest)
  | [] => some (0, [])

/-- Too large a number is no value, but below the least one it is the negative infinity. -/
def real? (negative : Bool) (significand : Nat) (power : Int) : Option FloatValue :=
  match Binary64.ofDecimal negative significand power with
  | some value => some (.finite value)
  | none => if negative then some (.infinite true) else none

def integer? (value : Int) : Option Item :=
  if -(twoTo 63 : Int) ≤ value ∧ value < twoTo 63 then some (.integer value) else none

def decimal? (text : List Char) : Option (Item × List Char) := do
  let (negative, rest) := sign text
  let (whole, rest) ← wholeDigits? rest
  match rest with
  | '.' :: _ | 'e' :: _ | 'E' :: _ =>
    let (fraction, rest) ← fraction? rest
    let (power, rest) ← exponent? rest
    let value ← real? negative (Nat.ofDigitChars 10 (whole ++ fraction) 0)
      (power - fraction.length)
    some (.real value, rest)
  | rest =>
    let value : Int := Nat.ofDigitChars 10 whole 0
    let item ← integer? (if negative then -value else value)
    some (item, rest)

def isHexDigit (c : Char) : Bool := (Text.hexValue? c).isSome

def isOctalDigit (c : Char) : Bool := '0' ≤ c && c ≤ '7'

def isBinaryDigit (c : Char) : Bool := c == '0' || c == '1'

def based? (base : Nat) (isDigit : Char → Bool) (text : List Char) : Option (Item × List Char) := do
  let (digits, rest) ← digits? isDigit text
  let values ← digits.mapM Text.hexValue?
  let item ← integer? (values.foldl (fun value digit => value * base + digit) 0 : Nat)
  some (item, rest)

def number? : Reader Item
  | '0' :: 'x' :: rest => based? 16 isHexDigit rest
  | '0' :: 'o' :: rest => based? 8 isOctalDigit rest
  | '0' :: 'b' :: rest => based? 2 isBinaryDigit rest
  | text =>
    match sign text with
    | (negative, 'i' :: 'n' :: 'f' :: rest) => some (.real (.infinite negative), rest)
    | (_, 'n' :: 'a' :: 'n' :: rest) => some (.real .nan, rest)
    | _ => decimal? text

end KNames.Toml
