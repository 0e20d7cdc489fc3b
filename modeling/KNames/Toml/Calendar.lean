import KNames.Toml.Space

set_option autoImplicit false

namespace KNames.Toml

def fixedDigits? (count : Nat) (text : List Char) : Option (Nat × List Char) :=
  let digits := text.take count
  if digits.length = count ∧ digits.all Char.isDigit then
    some (Nat.ofDigitChars 10 digits 0, text.drop count)
  else none

def isLeapYear (year : Nat) : Bool := year % 4 == 0 && (year % 100 != 0 || year % 400 == 0)

def daysIn (year month : Nat) : Nat :=
  if month = 2 then (if isLeapYear year then 29 else 28)
  else if month = 4 ∨ month = 6 ∨ month = 9 ∨ month = 11 then 30
  else 31

def date? (text : List Char) : Option (List Char) := do
  let (year, rest) ← fixedDigits? 4 text
  let (month, rest) ← fixedDigits? 2 (← expect? '-' rest)
  let (day, rest) ← fixedDigits? 2 (← expect? '-' rest)
  if 1 ≤ month ∧ month ≤ 12 ∧ 1 ≤ day ∧ day ≤ daysIn year month then some rest else none

def clock? (text : List Char) : Option (List Char) := do
  let (hour, rest) ← fixedDigits? 2 text
  let (minute, rest) ← fixedDigits? 2 (← expect? ':' rest)
  if hour ≤ 23 ∧ minute ≤ 59 then some rest else none

def skipFraction : List Char → List Char
  | '.' :: c :: rest => if c.isDigit then rest.dropWhile Char.isDigit else '.' :: c :: rest
  | text => text

/-- A time of the day; a minute may have a leap second. -/
def time? (text : List Char) : Option (List Char) := do
  let rest ← expect? ':' (← clock? text)
  let (second, rest) ← fixedDigits? 2 rest
  if second ≤ 60 then some (skipFraction rest) else none

def skipOffset : List Char → List Char
  | 'Z' :: rest | 'z' :: rest => rest
  | '+' :: rest => (clock? rest).getD ('+' :: rest)
  | '-' :: rest => (clock? rest).getD ('-' :: rest)
  | text => text

def dateTime? (text : List Char) : Option (List Char) :=
  match date? text with
  | none => time? text
  | some [] => some []
  | some (c :: rest) =>
    if c = 'T' ∨ c = 't' ∨ c = ' ' then
      match time? rest with
      | some rest => some (skipOffset rest)
      | none => some (c :: rest)
    else some (c :: rest)

end KNames.Toml
