import KNames.Json.Value
import KNames.Text.Hex

set_option autoImplicit false

namespace KNames.Json

open Number

def isBlank (c : Char) : Bool := c == ' ' || c == '\t' || c == '\n' || c == '\r'

def skipBlank (text : List Char) : List Char := text.dropWhile isBlank

def unit? : List Char → Option (Nat × List Char)
  | a :: b :: c :: d :: rest => do
    let a ← Text.hexValue? a
    let b ← Text.hexValue? b
    let c ← Text.hexValue? c
    let d ← Text.hexValue? d
    some (((a * 16 + b) * 16 + c) * 16 + d, rest)
  | _ => none

/-- A scalar value after a backslash and `u`: one unit, or a pair of surrogates. -/
def unicodeEscape? (text : List Char) : Option (Char × List Char) := do
  let (high, rest) ← unit? text
  if 0xD800 ≤ high ∧ high ≤ 0xDBFF then
    match rest with
    | '\\' :: 'u' :: rest =>
      let (low, rest) ← unit? rest
      if 0xDC00 ≤ low ∧ low ≤ 0xDFFF then
        some (Char.ofNat (0x10000 + (high - 0xD800) * 0x400 + (low - 0xDC00)), rest)
      else none
    | _ => none
  else if 0xDC00 ≤ high ∧ high ≤ 0xDFFF then none
  else some (Char.ofNat high, rest)

def escape? : List Char → Option (Char × List Char)
  | '"' :: rest => some ('"', rest)
  | '\\' :: rest => some ('\\', rest)
  | '/' :: rest => some ('/', rest)
  | 'b' :: rest => some ('\x08', rest)
  | 'f' :: rest => some ('\x0c', rest)
  | 'n' :: rest => some ('\n', rest)
  | 'r' :: rest => some ('\r', rest)
  | 't' :: rest => some ('\t', rest)
  | 'u' :: rest => unicodeEscape? rest
  | _ => none

def stringBody? : Nat → List Char → Option (List Char × List Char)
  | 0, _ => none
  | _, [] => none
  | bound + 1, c :: rest =>
    if c = '"' then some ([], rest)
    else if c = '\\' then do
      let (c, rest) ← escape? rest
      let (cs, rest) ← stringBody? bound rest
      some (c :: cs, rest)
    else if c.toNat < 0x20 then none
    else do
      let (cs, rest) ← stringBody? bound rest
      some (c :: cs, rest)

def string? (bound : Nat) (text : List Char) : Option (String × List Char) := do
  let (cs, rest) ← stringBody? bound text
  some (String.ofList cs, rest)

def splitDigits (text : List Char) : List Char × List Char :=
  (text.takeWhile Char.isDigit, text.dropWhile Char.isDigit)

/-- Takes digits into a significand as long as it stays below `2 ^ 64`; gives the significand,
the digits taken and the digits left out. -/
def takeDigits : List Char → Nat → Nat × Nat × Nat
  | [], significand => (significand, 0, 0)
  | c :: cs, significand =>
    let next := significand * 10 + (c.toNat - '0'.toNat)
    if next < twoTo 64 then
      let (s, taken, dropped) := takeDigits cs next
      (s, taken + 1, dropped)
    else (significand, 0, cs.length + 1)

/-- Steps of `10 ^ 308` toward zero, then one product or quotient. -/
def scaleDown (x : Binary64) (power : Int) : Nat → Option Binary64
  | 0 => x.timesTen power
  | steps + 1 =>
    if power < -308 then
      if x.isZero then some x
      else (x.timesTen (-308)).bind fun y => scaleDown y (power + 308) steps
    else x.timesTen power

/-- The significand is rounded to a double first and scaled afterwards. -/
def scale? (negative : Bool) (significand : Nat) (power : Int) : Option Binary64 := do
  let x ← Binary64.nearest negative significand 1
  if x.isZero then some x
  else if 308 < power then none
  else scaleDown x power 8

def exponent? : List Char → Option (Option Int × List Char)
  | c :: rest =>
    if c = 'e' ∨ c = 'E' then
      let (negative, rest) := match rest with
        | '+' :: rest => (false, rest)
        | '-' :: rest => (true, rest)
        | rest => (false, rest)
      let (digits, rest) := splitDigits rest
      if digits.isEmpty then none
      else
        let value : Int := Nat.ofDigitChars 10 digits 0
        some (some (if negative then -value else value), rest)
    else some (none, c :: rest)
  | [] => some (none, [])

def fraction? : List Char → Option (Option (List Char) × List Char)
  | '.' :: rest =>
    let (digits, rest) := splitDigits rest
    if digits.isEmpty then none else some (some digits, rest)
  | rest => some (none, rest)

def numberOf (negative : Bool) (whole : List Char) (fraction : Option (List Char))
    (exponent : Option Int) : Option Json :=
  let (significand, _, dropped) := takeDigits whole 0
  match fraction, exponent with
  | none, none =>
    if dropped = 0 ∧ ¬ negative then some (integer significand)
    else if dropped = 0 ∧ 0 < significand ∧ significand ≤ twoTo 63 then
      some (integer (-(significand : Int)))
    else (scale? negative significand dropped).map real
  | fraction, exponent =>
    let (significand, taken, _) := takeDigits (fraction.getD []) significand
    (scale? negative significand (dropped - taken + exponent.getD 0)).map real

def number? (text : List Char) : Option (Json × List Char) := do
  let (negative, text) := match text with
    | '-' :: rest => (true, rest)
    | text => (false, text)
  let (whole, rest) := splitDigits text
  if whole.isEmpty ∨ (whole.head? = some '0' ∧ 1 < whole.length) then none
  else
    let (fraction, rest) ← fraction? rest
    let (exponent, rest) ← exponent? rest
    let value ← numberOf negative whole fraction exponent
    some (value, rest)

mutual

def value? : Nat → List Char → Option (Json × List Char)
  | 0, _ => none
  | bound + 1, text =>
    match skipBlank text with
    | 'n' :: 'u' :: 'l' :: 'l' :: rest => some (null, rest)
    | 't' :: 'r' :: 'u' :: 'e' :: rest => some (bool true, rest)
    | 'f' :: 'a' :: 'l' :: 's' :: 'e' :: rest => some (bool false, rest)
    | '"' :: rest => (string? bound rest).map fun r => (string r.1, r.2)
    | '[' :: rest =>
      match skipBlank rest with
      | ']' :: rest => some (array [], rest)
      | rest => (items? bound rest).map fun r => (array r.1, r.2)
    | '\x7b' :: rest =>
      match skipBlank rest with
      | '\x7d' :: rest => some (object [], rest)
      | rest => (members? bound rest).map fun r => (object r.1, r.2)
    | text => number? text

def items? : Nat → List Char → Option (List Json × List Char)
  | 0, _ => none
  | bound + 1, text => do
    let (item, rest) ← value? bound text
    match skipBlank rest with
    | ',' :: rest =>
      let (items, rest) ← items? bound rest
      some (item :: items, rest)
    | ']' :: rest => some ([item], rest)
    | _ => none

def members? : Nat → List Char → Option (List (String × Json) × List Char)
  | 0, _ => none
  | bound + 1, text =>
    match skipBlank text with
    | '"' :: rest => do
      let (name, rest) ← string? bound rest
      match skipBlank rest with
      | ':' :: rest =>
        let (value, rest) ← value? bound rest
        match skipBlank rest with
        | ',' :: rest =>
          let (members, rest) ← members? bound rest
          some ((name, value) :: members, rest)
        | '\x7d' :: rest => some ([(name, value)], rest)
        | _ => none
      | _ => none
    | _ => none

end

def read? (text : String) : Option Json := do
  let (value, rest) ← value? (2 * text.toList.length + 1) text.toList
  if (skipBlank rest).isEmpty then some value else none

end KNames.Json
