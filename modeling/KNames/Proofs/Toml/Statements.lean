import KNames.Proofs.Text
import KNames.Toml.Document

set_option autoImplicit false

namespace KNames.Toml

variable {key : String} {text rest : List Char} {statement : Statement} {bound : Nat}

structure IsBare (key : String) : Prop where
  nonempty : key.toList ≠ []
  chars : key.toList.all isBareChar = true

theorem isBareChar_ne {c d : Char} (hc : isBareChar c = true) (hd : isBareChar d = false) :
    c ≠ d := by
  rintro rfl
  rw [hc] at hd
  cases hd

theorem IsBare.exists_cons (h : IsBare key) :
    ∃ c cs, key.toList = c :: cs ∧ isBareChar c = true := by
  obtain ⟨c, cs, hkey⟩ := List.exists_cons_of_ne_nil h.nonempty
  exact ⟨c, cs, hkey, List.all_eq_true.mp h.chars c (hkey ▸ List.mem_cons_self)⟩

theorem simpleKey?_bare (h : IsBare key) (hstop : ∀ c ∈ rest.head?, isBareChar c = false) :
    simpleKey? (key.toList ++ rest) = some (key, rest) := by
  obtain ⟨c, cs, hkey, hc⟩ := h.exists_cons
  have hquote : lineString? (key.toList ++ rest) = none := by
    rw [hkey, List.cons_append, lineString?.eq_3]
    · rintro more heq
      exact isBareChar_ne hc (by decide) (List.cons.inj heq).1
    · rintro more heq
      exact isBareChar_ne hc (by decide) (List.cons.inj heq).1
  have htake : (key.toList ++ rest).takeWhile isBareChar = key.toList :=
    Text.takeWhile_append_stop (List.all_eq_true.mp h.chars) hstop
  have hdrop : (key.toList ++ rest).dropWhile isBareChar = rest :=
    Text.dropWhile_append_stop (List.all_eq_true.mp h.chars) hstop
  rw [simpleKey?, hquote]
  simp [htake, hdrop, h.nonempty]

theorem skipBlank_bare (h : IsBare key) (rest : List Char) :
    skipBlank (key.toList ++ rest) = key.toList ++ rest := by
  obtain ⟨c, cs, hkey, hc⟩ := h.exists_cons
  have hblank : isBlank c = false := by
    simp [isBlank, isBareChar_ne hc (show isBareChar ' ' = false by decide),
      isBareChar_ne hc (show isBareChar '\t' = false by decide)]
  rw [hkey, List.cons_append]
  exact List.dropWhile_cons_of_neg (by simp [hblank])

theorem keys?_bare (h : IsBare key) (hstop : ∀ c ∈ rest.head?, isBareChar c = false)
    (hdot : ∀ more, skipBlank rest ≠ '.' :: more) :
    keys? (bound + 1) (key.toList ++ rest) = some ([key], skipBlank rest) := by
  rw [keys?, skipBlank_bare h, simpleKey?_bare h hstop]
  -- The case of a dot is excluded by `hdot`.
  simp only [Option.bind_eq_bind, Option.bind_some]

theorem dottedKey?_bare (h : IsBare key) (hstop : ∀ c ∈ rest.head?, isBareChar c = false)
    (hdot : ∀ more, skipBlank rest ≠ '.' :: more) :
    dottedKey? (key.toList ++ rest) = some (([], key), skipBlank rest) := by
  have hkeys : keys? (depthLimit - 1) (key.toList ++ rest) = some ([key], skipBlank rest) :=
    keys?_bare h hstop hdot
  rw [dottedKey?, hkeys]
  rfl

theorem IsBare.ne_bracket (h : IsBare key) (more : List Char) :
    key.toList ++ rest ≠ '[' :: more := by
  obtain ⟨c, cs, hkey, hc⟩ := h.exists_cons
  intro heq
  rw [hkey, List.cons_append] at heq
  exact isBareChar_ne hc (by decide) (List.cons.inj heq).1

theorem value?_of_quote {quote : Char} (h : quote = '"' ∨ quote = '\'') (depth : Nat)
    (text : List Char) : value? depth (quote :: text) =
      (string? (quote :: text)).map fun r => (.string r.1, r.2) := by
  rcases h with rfl | rfl
  · cases depth <;> rfl
  · cases depth <;> rfl

theorem statement?_header (h : IsBare key) (rest : List Char) :
    statement? ('[' :: (key.toList ++ ']' :: '\n' :: rest)) = some (.header [] key, rest) := by
  have hkey : dottedKey? (key.toList ++ ']' :: '\n' :: rest) =
      some (([], key), ']' :: '\n' :: rest) := by
    refine dottedKey?_bare h ?_ ?_
    · rintro _ ⟨⟩
      rfl
    · rintro more ⟨⟩
  rw [statement?.eq_2, hkey]
  · rfl
  · exact h.ne_bracket

theorem statement?_string {quote : Char} {value : String} (h : IsBare key)
    (hquote : quote = '"' ∨ quote = '\'')
    (hvalue : string? (quote :: text) = some (value, '\n' :: rest)) :
    statement? (key.toList ++ ' ' :: '=' :: ' ' :: quote :: text) =
      some (.assign [] key (.string value), rest) := by
  have hkey : dottedKey? (key.toList ++ ' ' :: '=' :: ' ' :: quote :: text) =
      some (([], key), '=' :: ' ' :: quote :: text) := by
    refine dottedKey?_bare h ?_ ?_
    · rintro _ ⟨⟩
      rfl
    · rintro more ⟨⟩
  have hskip : skipBlank (' ' :: quote :: text) = quote :: text := by
    rcases hquote with rfl | rfl <;> rfl
  have hitem : value? (depthLimit - 1) (skipBlank (' ' :: quote :: text)) =
      some (.string value, '\n' :: rest) := by
    rw [hskip, value?_of_quote hquote, hvalue]
    rfl
  have hassign : assignment? (value? (depthLimit - 1))
      (key.toList ++ ' ' :: '=' :: ' ' :: quote :: text) =
        some (([], key, .string value), '\n' :: rest) := by
    rw [assignment?, hkey]
    change (value? (depthLimit - 1) (skipBlank (' ' :: quote :: text))).bind _ = _
    rw [hitem]
    rfl
  rw [statement?.eq_3, hassign]
  · rfl
  · exact fun more => h.ne_bracket ('[' :: more)
  · exact h.ne_bracket

theorem statements?_cons (hblank : skipBlank text = text) (hend : lineEnd? text = none)
    (h : statement? text = some (statement, rest)) :
    statements? (bound + 1) text = (statements? bound rest).map (statement :: ·) := by
  cases text with
  | nil => cases hend
  | cons c more =>
    simp only [statements?, hblank, hend, h]
    rw [Option.map_eq_bind]
    rfl

end KNames.Toml
