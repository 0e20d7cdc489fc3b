import KNames.Json.Reader
import KNames.Json.Writer
import KNames.Proofs.Text
import Mathlib.Tactic.SplitIfs

set_option autoImplicit false

namespace KNames.Json

open Number

variable {c : Char} {cs digits text rest : List Char} {n bound : Nat} {value : Json}

/-- No number goes on at the start of this text. -/
def Stops (rest : List Char) : Prop :=
  ∀ c ∈ rest.head?, c.isDigit = false ∧ c ≠ '.' ∧ c ≠ 'e' ∧ c ≠ 'E'

theorem splitDigits_append (hdigits : ∀ c ∈ digits, c.isDigit = true) (h : Stops rest) :
    splitDigits (digits ++ rest) = (digits, rest) := by
  have hstop : ∀ c ∈ rest.head?, c.isDigit = false := fun c hc => (h c hc).1
  rw [splitDigits, Text.takeWhile_append_stop hdigits hstop,
    Text.dropWhile_append_stop hdigits hstop]

theorem fraction?_stops (h : Stops rest) : fraction? rest = some (none, rest) := by
  cases rest with
  | nil => rfl
  | cons c rest =>
    rw [fraction?.eq_2]
    rintro more ⟨⟩
    exact (h '.' rfl).2.1 rfl

theorem exponent?_stops (h : Stops rest) : exponent? rest = some (none, rest) := by
  cases rest with
  | nil => rfl
  | cons c rest =>
    have hc := (h c rfl).2.2
    have hexponent : ¬(c = 'e' ∨ c = 'E') := not_or.mpr hc
    unfold exponent?
    exact if_neg hexponent

theorem le_ofDigitChars (cs : List Char) (n : Nat) : n ≤ Nat.ofDigitChars 10 cs n := by
  induction cs generalizing n with
  | nil => exact Nat.le_refl n
  | cons c cs ih =>
    rw [Nat.ofDigitChars_cons]
    have hlater := ih (10 * n + (c.toNat - '0'.toNat))
    omega

theorem takeDigits_of_fits (h : Nat.ofDigitChars 10 cs n < twoTo 64) :
    takeDigits cs n = (Nat.ofDigitChars 10 cs n, cs.length, 0) := by
  induction cs generalizing n with
  | nil => rfl
  | cons c cs ih =>
    rw [Nat.ofDigitChars_cons, Nat.mul_comm] at h
    -- Later digits only make the significand larger, so it fits after this one already.
    have hnext := Nat.lt_of_le_of_lt (le_ofDigitChars cs _) h
    rw [takeDigits, if_pos hnext, ih h, Nat.ofDigitChars_cons, Nat.mul_comm 10 n]
    rfl

theorem exists_digit_toDigits (n : Nat) :
    ∃ c cs, Nat.toDigits 10 n = c :: cs ∧ c.isDigit = true := by
  obtain ⟨c, cs, hcs⟩ := List.exists_cons_of_ne_nil (Nat.toDigits_ne_nil (n := n) (b := 10))
  have hc := Nat.isDigit_of_mem_toDigits (by decide) (by decide) (hcs ▸ List.mem_cons_self)
  exact ⟨c, cs, hcs, hc⟩

theorem head?_toDigits_of_pos (h : 0 < n) : (Nat.toDigits 10 n).head? ≠ some '0' := by
  induction n using Nat.strongRecOn with
  | ind n ih =>
    by_cases hsmall : n < 10
    · have all : ∀ d < 10, 0 < d → Nat.digitChar d ≠ '0' := by decide
      rw [Nat.toDigits_of_lt_base hsmall, List.head?_cons, ne_eq, Option.some.injEq]
      exact all n hsmall h
    · have hbase : 10 ≤ n := Nat.le_of_not_lt hsmall
      have hfirst := ih (n / 10) (by omega) (by omega)
      rw [Nat.toDigits_of_base_le (by decide) hbase]
      obtain ⟨d, ds, hdigits, _⟩ := exists_digit_toDigits (n / 10)
      rw [hdigits] at hfirst ⊢
      exact hfirst

theorem not_leading_zero (n : Nat) : ¬((Nat.toDigits 10 n).isEmpty = true ∨
    ((Nat.toDigits 10 n).head? = some '0' ∧ 1 < (Nat.toDigits 10 n).length)) := by
  rintro (hempty | ⟨hhead, hlength⟩)
  · exact Nat.toDigits_ne_nil (List.isEmpty_iff.mp hempty)
  · cases n with
    | zero => exact absurd hlength (by decide)
    | succ n => exact head?_toDigits_of_pos (Nat.succ_pos n) hhead

def unsigned? (negative : Bool) (text : List Char) : Option (Json × List Char) := do
  let (whole, rest) := splitDigits text
  if whole.isEmpty ∨ (whole.head? = some '0' ∧ 1 < whole.length) then none
  else
    let (fraction, rest) ← fraction? rest
    let (exponent, rest) ← exponent? rest
    let value ← numberOf negative whole fraction exponent
    some (value, rest)

theorem number?_minus (text : List Char) : number? ('-' :: text) = unsigned? true text := rfl

theorem number?_of_ne_minus (hc : c ≠ '-') (text : List Char) :
    number? (c :: text) = unsigned? false (c :: text) := by
  simp [number?, unsigned?, hc]

theorem unsigned?_digits {negative : Bool} (h : Stops rest)
    (hvalue : numberOf negative (Nat.toDigits 10 n) none none = some value) :
    unsigned? negative (Nat.toDigits 10 n ++ rest) = some (value, rest) := by
  have hsplit : splitDigits (Nat.toDigits 10 n ++ rest) = (Nat.toDigits 10 n, rest) :=
    splitDigits_append (fun c hc => Nat.isDigit_of_mem_toDigits (by decide) (by decide) hc) h
  have hexponent : (exponent? rest).bind (fun e =>
      (numberOf negative (Nat.toDigits 10 n) none e.1).bind fun v => some (v, e.2)) =
        some (value, rest) := by
    rw [exponent?_stops h, Option.bind_some, hvalue, Option.bind_some]
  rw [unsigned?, hsplit]
  refine (if_neg (not_leading_zero n)).trans ?_
  rw [fraction?_stops h]
  exact hexponent

theorem numberOf_natural (h : n < twoTo 64) :
    numberOf false (Nat.toDigits 10 n) none none = some (.integer n) := by
  have hvalue : Nat.ofDigitChars 10 (Nat.toDigits 10 n) 0 = n :=
    Nat.ofDigitChars_toDigits (by decide) (by decide)
  rw [numberOf, takeDigits_of_fits (hvalue.symm ▸ h), hvalue]
  rfl

theorem numberOf_negative (hpos : 0 < n) (h : n ≤ twoTo 63) :
    numberOf true (Nat.toDigits 10 n) none none = some (.integer (-(n : Int))) := by
  have hvalue : Nat.ofDigitChars 10 (Nat.toDigits 10 n) 0 = n :=
    Nat.ofDigitChars_toDigits (by decide) (by decide)
  have hfits : n < twoTo 64 := Nat.lt_of_le_of_lt h (by decide)
  rw [numberOf, takeDigits_of_fits (hvalue.symm ▸ hfits), hvalue]
  simp [hpos, h]

theorem number?_integerText {v : Int} (hlow : -(twoTo 63 : Int) ≤ v) (hhigh : v < twoTo 64)
    (h : Stops rest) : number? (integerText v ++ rest) = some (.integer v, rest) := by
  cases v with
  | ofNat n =>
    have hread := unsigned?_digits h (numberOf_natural (Int.ofNat_lt.mp hhigh))
    obtain ⟨c, cs, hcs, hc⟩ := exists_digit_toDigits n
    have hminus : c ≠ '-' := by
      rintro rfl
      cases hc
    change number? (Nat.toDigits 10 n ++ rest) = _
    rw [hcs, List.cons_append] at hread ⊢
    rw [number?_of_ne_minus hminus, hread]
    rfl
  | negSucc n =>
    have hn : n + 1 ≤ twoTo 63 := by omega
    change number? ('-' :: (Nat.toDigits 10 (n + 1) ++ rest)) = _
    rw [number?_minus]
    exact unsigned?_digits h (numberOf_negative (Nat.succ_pos n) hn)

theorem stringBody?_escape {d : Char} (hc : c = d) (h : escape? text = some (d, rest)) :
    stringBody? (bound + 1) ('\\' :: text) =
      (stringBody? bound rest).map fun r => (c :: r.1, r.2) := by
  rw [stringBody?, if_neg (by decide), if_pos rfl, h, hc, Option.map_eq_bind]
  rfl

theorem escape?_control (h : c.toNat < 0x20) :
    escape? ('u' :: '0' :: '0' :: Text.hexDigit (c.toNat / 16) :: Text.hexDigit c.toNat :: rest) =
      some (c, rest) := by
  have hunit : unit?
      ('0' :: '0' :: Text.hexDigit (c.toNat / 16) :: Text.hexDigit c.toNat :: rest) =
        some (c.toNat, rest) := by
    have hzero : Text.hexValue? '0' = some 0 := rfl
    have hsum : c.toNat / 16 % 16 * 16 + c.toNat % 16 = c.toNat := by omega
    simp [unit?, hzero, Text.hexValue?_hexDigit, hsum]
  change unicodeEscape? _ = _
  rw [unicodeEscape?, hunit]
  change (if _ then _ else if _ then _ else _) = _
  rw [if_neg (by omega), if_neg (by omega), Char.ofNat_toNat]

theorem stringBody?_stringChar (c : Char) (bound : Nat) (rest : List Char) :
    stringBody? (bound + 1) (stringChar c ++ rest) =
      (stringBody? bound rest).map fun r => (c :: r.1, r.2) := by
  unfold stringChar
  split_ifs with hquote hslash hback htab hline hfeed hreturn hcontrol
  · exact stringBody?_escape hquote rfl
  · exact stringBody?_escape hslash rfl
  · exact stringBody?_escape hback rfl
  · exact stringBody?_escape htab rfl
  · exact stringBody?_escape hline rfl
  · exact stringBody?_escape hfeed rfl
  · exact stringBody?_escape hreturn rfl
  · exact stringBody?_escape rfl (escape?_control hcontrol)
  · change stringBody? (bound + 1) (c :: rest) = _
    rw [stringBody?, if_neg hquote, if_neg hslash, if_neg hcontrol, Option.map_eq_bind]
    rfl

theorem stringBody?_chars (hbound : cs.length < bound) :
    stringBody? bound (cs.flatMap stringChar ++ '"' :: rest) = some (cs, rest) := by
  induction cs generalizing bound with
  | nil =>
    obtain ⟨less, rfl, _⟩ := Text.exists_bound hbound
    rfl
  | cons c cs ih =>
    obtain ⟨less, rfl, hless⟩ := Text.exists_bound hbound
    rw [List.flatMap_cons, List.append_assoc, stringBody?_stringChar, ih hless]
    rfl

theorem stringChar_ne_nil (c : Char) : stringChar c ≠ [] := by
  unfold stringChar
  split_ifs <;> exact List.cons_ne_nil _ _

theorem length_le_stringText (s : String) : s.toList.length + 2 ≤ (stringText s).length := by
  have hlength : s.toList.length ≤ (s.toList.flatMap stringChar).length :=
    Text.length_le_flatMap fun c _ => stringChar_ne_nil c
  rw [stringText, List.cons_append, List.length_cons, List.length_append, List.length_singleton]
  omega

theorem string?_text (s : String) (hbound : s.toList.length < bound) :
    string? bound (s.toList.flatMap stringChar ++ '"' :: rest) = some (s, rest) := by
  rw [string?, stringBody?_chars hbound]
  exact congrArg (fun text => some (text, rest)) String.ofList_toList

end KNames.Json
