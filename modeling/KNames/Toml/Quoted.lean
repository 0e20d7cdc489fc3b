import KNames.Text.Hex
import KNames.Toml.Space

set_option autoImplicit false

namespace KNames.Toml

def isBasicChar (c : Char) : Bool :=
  c == '\t' || (0x20 ≤ c.toNat && c.toNat ≤ 0x7E && c != '"' && c != '\\') || isNonAscii c

def isLiteralChar (c : Char) : Bool :=
  c == '\t' || (0x20 ≤ c.toNat && c.toNat ≤ 0x7E && c != '\'') || isNonAscii c

def hexDigits? (value : Nat) : Nat → Reader Nat
  | 0, text => some (value, text)
  | count + 1, c :: rest => do
    let digit ← Text.hexValue? c
    hexDigits? (value * 16 + digit) count rest
  | _ + 1, [] => none

def scalar? (count : Nat) (text : List Char) : Option (Char × List Char) := do
  let (value, rest) ← hexDigits? 0 count text
  if value.isValidChar then some (Char.ofNat value, rest) else none

def escape? : Reader Char
  | 'b' :: rest => some ('\x08', rest)
  | 'f' :: rest => some ('\x0c', rest)
  | 'n' :: rest => some ('\n', rest)
  | 'r' :: rest => some ('\r', rest)
  | 't' :: rest => some ('\t', rest)
  | '\\' :: rest => some ('\\', rest)
  | '"' :: rest => some ('"', rest)
  | 'u' :: rest => scalar? 4 rest
  | 'U' :: rest => scalar? 8 rest
  | _ => none

def basicBody? : Nat → Reader (List Char)
  | 0, _ => none
  | _ + 1, [] => none
  | bound + 1, c :: rest =>
    if c = '"' then some ([], rest)
    else if c = '\\' then do
      let (c, rest) ← escape? rest
      let (cs, rest) ← basicBody? bound rest
      some (c :: cs, rest)
    else if isBasicChar c then do
      let (cs, rest) ← basicBody? bound rest
      some (c :: cs, rest)
    else none

def literalBody? (text : List Char) : Option (List Char × List Char) :=
  match text.dropWhile isLiteralChar with
  | '\'' :: rest => some (text.takeWhile isLiteralChar, rest)
  | _ => none

/-- A string over several lines after its opening quotes. Up to two quotes in a row belong to the
text, also right before the closing three. -/
def blockBody? (quote : Char) (isPlain : Char → Bool) (escapes : Bool) : Nat → Reader (List Char)
  | 0, _ => none
  | _ + 1, [] => none
  | bound + 1, c :: rest =>
    let next := blockBody? quote isPlain escapes bound
    if c = quote then
      let run := rest.takeWhile (· == quote)
      let after := rest.dropWhile (· == quote)
      if run.length < 2 then (next after).map fun r => (c :: run ++ r.1, r.2)
      else if run.length ≤ 4 then some (run.drop 2, after)
      else none
    else if escapes && c == '\\' then
      match newline? (skipBlank rest) with
      | some after => next (skipLines after)
      | none => do
        let (c, rest) ← escape? rest
        (next rest).map fun r => (c :: r.1, r.2)
    else
      match newline? (c :: rest) with
      | some after => (next after).map fun r => ('\n' :: r.1, r.2)
      | none => if isPlain c then (next rest).map fun r => (c :: r.1, r.2) else none
where
  skipLines : List Char → List Char
    | '\r' :: '\n' :: rest => skipLines rest
    | c :: rest => if isBlank c || c == '\n' then skipLines rest else c :: rest
    | [] => []

def dropFirstNewline (text : List Char) : List Char := (newline? text).getD text

def lineString? : Reader String
  | '"' :: rest => (basicBody? rest.length rest).map fun r => (String.ofList r.1, r.2)
  | '\'' :: rest => (literalBody? rest).map fun r => (String.ofList r.1, r.2)
  | _ => none

def string? : Reader String
  | '"' :: '"' :: '"' :: rest =>
    let text := dropFirstNewline rest
    (blockBody? '"' isBasicChar true text.length text).map fun r => (String.ofList r.1, r.2)
  | '\'' :: '\'' :: '\'' :: rest =>
    let text := dropFirstNewline rest
    (blockBody? '\'' isLiteralChar false text.length text).map fun r => (String.ofList r.1, r.2)
  | text => lineString? text

end KNames.Toml
