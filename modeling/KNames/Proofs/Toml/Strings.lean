import KNames.Proofs.Text
import KNames.Settings.Render
import KNames.Toml.Statement
import Mathlib.Tactic.SplitIfs

set_option autoImplicit false

namespace KNames.Toml

open Settings

variable {c : Char} {cs text value rest : List Char} {bound : Nat}

theorem hexValue?_upperHexDigit (n : Nat) : Text.hexValue? (upperHexDigit n) = some (n % 16) := by
  have all : ∀ d < 16, Text.hexValue? (Nat.digitChar d).toUpper = some d := by decide
  exact all (n % 16) (Nat.mod_lt n (by decide))

def IsLineChar (c : Char) : Prop := c ≠ '"' ∧ c ≠ '\\' ∧ c ≠ '\n'

theorem scalar?_digits (h : c.toNat < 0x100) :
    scalar? 4 ('0' :: '0' :: upperHexDigit (c.toNat / 16) :: upperHexDigit c.toNat :: rest) =
      some (c, rest) := by
  have hvalue : hexDigits? 0 4
      ('0' :: '0' :: upperHexDigit (c.toNat / 16) :: upperHexDigit c.toNat :: rest) =
        some (c.toNat, rest) := by
    have hzero : Text.hexValue? '0' = some 0 := rfl
    have hsum : c.toNat / 16 % 16 * 16 + c.toNat % 16 = c.toNat := by omega
    simp [hexDigits?, hzero, hexValue?_upperHexDigit, hsum]
  have hvalid : c.toNat.isValidChar := c.valid
  simp [scalar?, hvalue, hvalid, Char.ofNat_toNat]

theorem isBasicChar_of_printable (hc : IsLineChar c) (h : ¬(c.toNat < 0x20 ∨ c.toNat = 0x7F)) :
    isBasicChar c = true := by
  have hrange : (0x20 ≤ c.toNat ∧ c.toNat ≤ 0x7E) ∨ 0x80 ≤ c.toNat := by omega
  simp [isBasicChar, isNonAscii, hc.1, hc.2.1, or_assoc, hrange]

theorem basicBody?_escape {d : Char} (hc : c = d) (h : escape? text = some (d, rest)) :
    basicBody? (bound + 1) ('\\' :: text) =
      (basicBody? bound rest).map fun r => (c :: r.1, r.2) := by
  rw [basicBody?, if_neg (by decide), if_pos rfl, h, hc, Option.map_eq_bind]
  rfl

theorem basicBody?_plain (hc : IsLineChar c) (h : isBasicChar c = true) :
    basicBody? (bound + 1) (c :: rest) = (basicBody? bound rest).map fun r => (c :: r.1, r.2) := by
  rw [basicBody?, if_neg hc.1, if_neg hc.2.1, if_pos h, Option.map_eq_bind]
  rfl

theorem basicBody?_escapedChar (hc : IsLineChar c) (bound : Nat) (rest : List Char) :
    basicBody? (bound + 1) (escapedChar c ++ rest) =
      (basicBody? bound rest).map fun r => (c :: r.1, r.2) := by
  unfold escapedChar
  split_ifs with htab hreturn hback hfeed hcontrol
  · exact basicBody?_escape htab rfl
  · exact basicBody?_escape hreturn rfl
  · exact basicBody?_escape hback rfl
  · exact basicBody?_escape hfeed rfl
  · exact basicBody?_escape rfl (scalar?_digits (by omega))
  · exact basicBody?_plain hc (isBasicChar_of_printable hc hcontrol)

theorem basicBody?_escaped (hcs : ∀ c ∈ cs, IsLineChar c) (hbound : cs.length < bound) :
    basicBody? bound (cs.flatMap escapedChar ++ '"' :: rest) = some (cs, rest) := by
  induction cs generalizing bound with
  | nil =>
    obtain ⟨less, rfl, _⟩ := Text.exists_bound hbound
    rfl
  | cons c cs ih =>
    obtain ⟨less, rfl, hless⟩ := Text.exists_bound hbound
    have hrest := ih (fun d hd => hcs d (List.mem_cons_of_mem _ hd)) hless
    rw [List.flatMap_cons, List.append_assoc, basicBody?_escapedChar (hcs c List.mem_cons_self),
      hrest]
    rfl

theorem escapedChar_eq_cons (hc : IsLineChar c) : ∃ d ds, escapedChar c = d :: ds ∧ d ≠ '"' := by
  unfold escapedChar
  split_ifs
  · exact ⟨'\\', ['t'], rfl, by decide⟩
  · exact ⟨'\\', ['r'], rfl, by decide⟩
  · exact ⟨'\\', ['b'], rfl, by decide⟩
  · exact ⟨'\\', ['f'], rfl, by decide⟩
  · exact ⟨'\\', _, rfl, by decide⟩
  · exact ⟨c, [], rfl, hc.1⟩

theorem escapedChar_ne_nil (hc : IsLineChar c) : escapedChar c ≠ [] := by
  obtain ⟨d, ds, hd, _⟩ := escapedChar_eq_cons hc
  rw [hd]
  exact List.cons_ne_nil d ds

theorem string?_escaped (hne : cs ≠ []) (hcs : ∀ c ∈ cs, IsLineChar c) (rest : List Char) :
    string? ('"' :: (cs.flatMap escapedChar ++ '"' :: rest)) = some (String.ofList cs, rest) := by
  have hbody : lineString? ('"' :: (cs.flatMap escapedChar ++ '"' :: rest)) =
      some (String.ofList cs, rest) := by
    rw [lineString?, basicBody?_escaped hcs ?_]
    · rfl
    · have hlength : cs.length ≤ (cs.flatMap escapedChar).length :=
        Text.length_le_flatMap fun c hc => escapedChar_ne_nil (hcs c hc)
      rw [List.length_append, List.length_cons]
      omega
  obtain ⟨c, later, rfl⟩ := List.exists_cons_of_ne_nil hne
  obtain ⟨d, ds, hd, hquote⟩ := escapedChar_eq_cons (hcs c List.mem_cons_self)
  rw [string?.eq_3, hbody]
  · intro more hthree
    rw [List.flatMap_cons, hd] at hthree
    simp only [List.cons_append, List.cons.injEq, true_and] at hthree
    exact hquote hthree.1
  · intro more hthree
    cases hthree

theorem string?_separatorText (c : Char) (rest : List Char) :
    string? (separatorText c ++ '\n' :: rest) = some (String.ofList [c], '\n' :: rest) := by
  unfold separatorText
  split_ifs with hquote hline
  · rcases hquote with rfl | rfl <;> rfl
  · subst hline
    rfl
  · have hc : IsLineChar c := ⟨fun h => hquote (.inl h), fun h => hquote (.inr h), hline⟩
    have hread := string?_escaped (List.cons_ne_nil c []) (List.forall_mem_singleton.mpr hc)
      ('\n' :: rest)
    simpa using hread

end KNames.Toml
