set_option autoImplicit false

namespace KNames.Text

def hexDigit (n : Nat) : Char := Nat.digitChar (n % 16)

def hex (n : Nat) : List Char := Nat.toDigits 16 n

def hexValue? (c : Char) : Option Nat :=
  if '0' ≤ c ∧ c ≤ '9' then some (c.toNat - '0'.toNat)
  else if 'a' ≤ c ∧ c ≤ 'f' then some (c.toNat - 'a'.toNat + 10)
  else if 'A' ≤ c ∧ c ≤ 'F' then some (c.toNat - 'A'.toNat + 10)
  else none

theorem hexValue?_hexDigit (n : Nat) : hexValue? (hexDigit n) = some (n % 16) := by
  have all : ∀ d < 16, hexValue? (Nat.digitChar d) = some d := by decide
  exact all (n % 16) (Nat.mod_lt n (by decide))

end KNames.Text
