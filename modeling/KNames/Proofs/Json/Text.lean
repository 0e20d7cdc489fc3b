import KNames.Proofs.Json.Scalars

set_option autoImplicit false

namespace KNames.Json

open Number

variable {j item value : Json} {items : List Json} {members : List (String × Json)} {name : String}
  {c : Char} {cs text rest : List Char} {bound : Nat}

/-- Values that their text keeps: no doubles, and integers of 64 bits only. -/
inductive IsExact : Json → Prop where
  | null : IsExact .null
  | bool (value : Bool) : IsExact (.bool value)
  | integer {value : Int} (low : -(twoTo 63 : Int) ≤ value) (high : value < twoTo 64) :
    IsExact (.integer value)
  | string (value : String) : IsExact (.string value)
  | array {items : List Json} (all : ∀ item ∈ items, IsExact item) : IsExact (.array items)
  | object {members : List (String × Json)} (all : ∀ m ∈ members, IsExact m.2) :
    IsExact (.object members)

structure ReadsBack (j : Json) : Prop where
  opens : ∃ c cs, j.chars = c :: cs ∧ isBlank c = false ∧ c ≠ ']'
  reads : ∀ bound rest, j.chars.length ≤ bound → Stops rest →
    value? bound (j.chars ++ rest) = some (j, rest)

theorem skipBlank_cons (h : isBlank c = false) (cs : List Char) : skipBlank (c :: cs) = c :: cs :=
  List.dropWhile_cons_of_neg (by simp [h])

theorem stops_cons (h : c.isDigit = false ∧ c ≠ '.' ∧ c ≠ 'e' ∧ c ≠ 'E') (rest : List Char) :
    Stops (c :: rest) := by
  rintro d ⟨⟩
  exact h

theorem ne_of_digit_or_minus {d : Char} (h : c.isDigit = true ∨ c = '-')
    (hdigit : d.isDigit = false) (hminus : d ≠ '-') : c ≠ d := by
  rintro rfl
  rcases h with h | h
  · rw [hdigit] at h
    cases h
  · exact hminus h

theorem opens_of_digit_or_minus (h : c.isDigit = true ∨ c = '-') : isBlank c = false ∧ c ≠ ']' := by
  refine ⟨?_, ne_of_digit_or_minus h rfl (by decide)⟩
  simp [isBlank, ne_of_digit_or_minus h]

theorem value?_number (h : c.isDigit = true ∨ c = '-') (text : List Char) :
    value? (bound + 1) (c :: text) = number? (c :: text) := by
  simp [value?, skipBlank_cons (opens_of_digit_or_minus h).1, ne_of_digit_or_minus h]

theorem readsBack_of_opening (hopens : isBlank c = false ∧ c ≠ ']') (hchars : j.chars = c :: cs)
    (h : ∀ bound rest, cs.length ≤ bound → Stops rest →
      value? (bound + 1) (c :: cs ++ rest) = some (j, rest)) : j.ReadsBack := by
  refine ⟨⟨c, cs, hchars, hopens⟩, ?_⟩
  intro bound rest hbound hrest
  rw [hchars] at hbound ⊢
  obtain ⟨less, rfl, hless⟩ := Text.exists_bound hbound
  exact h less rest hless hrest

theorem readsBack_integer {v : Int} (hlow : -(twoTo 63 : Int) ≤ v) (hhigh : v < twoTo 64) :
    (integer v).ReadsBack := by
  obtain ⟨c, cs, hchars, hc⟩ : ∃ c cs, integerText v = c :: cs ∧ (c.isDigit = true ∨ c = '-') := by
    cases v with
    | ofNat n =>
      obtain ⟨c, cs, hcs, hc⟩ := exists_digit_toDigits n
      exact ⟨c, cs, hcs, .inl hc⟩
    | negSucc n => exact ⟨'-', _, rfl, .inr rfl⟩
  refine readsBack_of_opening (opens_of_digit_or_minus hc) hchars ?_
  intro bound rest _ hrest
  have hread := number?_integerText hlow hhigh hrest
  rw [hchars, List.cons_append] at hread
  rw [List.cons_append, value?_number hc, hread]

theorem readsBack_string (s : String) : (string s).ReadsBack := by
  have hchars : (string s).chars = '"' :: (s.toList.flatMap stringChar ++ ['"']) := rfl
  refine readsBack_of_opening (by decide) hchars ?_
  intro bound rest hbound _
  have hlength := length_le_stringText s
  have hbody : string? bound (s.toList.flatMap stringChar ++ '"' :: rest) = some (s, rest) :=
    string?_text s (Nat.lt_of_lt_of_le (Nat.lt_of_succ_le (Nat.le_of_succ_le_succ hlength)) hbound)
  rw [List.cons_append, List.append_assoc]
  change (string? bound (s.toList.flatMap stringChar ++ '"' :: rest)).map _ = _
  rw [hbody]
  rfl

theorem items?_last (h : value? bound text = some (item, ']' :: rest)) :
    items? (bound + 1) text = some ([item], rest) := by
  rw [items?, h]
  rfl

theorem items?_more (h : value? bound text = some (item, ',' :: rest)) :
    items? (bound + 1) text = (items? bound rest).map fun r => (item :: r.1, r.2) := by
  rw [items?, h, Option.map_eq_bind]
  rfl

theorem itemChars_cons_cons (item next : Json) (later : List Json) :
    itemChars (item :: next :: later) = item.chars ++ ',' :: itemChars (next :: later) := by
  rw [itemChars]
  rintro ⟨⟩

theorem items?_itemChars (rest : List Char) (hne : items ≠ [])
    (hitems : ∀ item ∈ items, item.ReadsBack) (hbound : (itemChars items).length < bound) :
    items? bound (itemChars items ++ ']' :: rest) = some (items, rest) := by
  induction items generalizing bound with
  | nil => exact absurd rfl hne
  | cons item items ih =>
    have hitem := hitems item List.mem_cons_self
    obtain ⟨less, rfl, hless⟩ := Text.exists_bound hbound
    cases items with
    | nil => exact items?_last (hitem.reads less _ hless (stops_cons (by decide) rest))
    | cons next later =>
      rw [itemChars_cons_cons, List.length_append, List.length_cons] at hless
      have hfirst := hitem.reads less (',' :: (itemChars (next :: later) ++ ']' :: rest)) (by omega)
        (stops_cons (by decide) _)
      -- The first item and its comma pay for the one step of the bound that they use.
      have hlength : (itemChars (next :: later)).length < less := by omega
      have hlater := ih (List.cons_ne_nil next later)
        (fun other hother => hitems other (List.mem_cons_of_mem item hother)) hlength
      rw [itemChars_cons_cons, List.append_assoc, List.cons_append, items?_more hfirst, hlater]
      rfl

theorem exists_itemChars_cons (h : item.ReadsBack) (later : List Json) :
    ∃ c cs, itemChars (item :: later) = c :: cs ∧ isBlank c = false ∧ c ≠ ']' := by
  obtain ⟨c, cs, hchars, hc⟩ := h.opens
  cases later with
  | nil => exact ⟨c, cs, hchars, hc⟩
  | cons next later =>
    rw [itemChars_cons_cons, hchars]
    exact ⟨c, _, rfl, hc⟩

theorem value?_items (hopens : isBlank c = false ∧ c ≠ ']') (text : List Char) :
    value? (bound + 1) ('[' :: c :: text) =
      (items? bound (c :: text)).map fun r => (array r.1, r.2) := by
  have hbracket : isBlank '[' = false := rfl
  simp [value?, skipBlank_cons hbracket, skipBlank_cons hopens.1, hopens.2]

theorem readsBack_array (hitems : ∀ item ∈ items, item.ReadsBack) : (array items).ReadsBack := by
  have hchars : (array items).chars = '[' :: (itemChars items ++ [']']) := rfl
  refine readsBack_of_opening (by decide) hchars ?_
  intro bound rest hbound _
  rw [List.length_append, List.length_singleton] at hbound
  rw [List.cons_append, List.append_assoc, List.singleton_append]
  cases items with
  | nil => rfl
  | cons item later =>
    have hread := items?_itemChars rest (List.cons_ne_nil item later) hitems hbound
    obtain ⟨c, cs, hopens, hc⟩ := exists_itemChars_cons (hitems item List.mem_cons_self) later
    rw [hopens, List.cons_append] at hread ⊢
    rw [value?_items hc, hread]
    rfl

theorem members?_last (hname : string? bound text = some (name, ':' :: cs))
    (h : value? bound cs = some (value, '\x7d' :: rest)) :
    members? (bound + 1) ('"' :: text) = some ([(name, value)], rest) := by
  rw [members?]
  change (string? bound text).bind _ = _
  rw [hname]
  change (value? bound cs).bind _ = _
  rw [h]
  rfl

theorem members?_more (hname : string? bound text = some (name, ':' :: cs))
    (h : value? bound cs = some (value, ',' :: rest)) :
    members? (bound + 1) ('"' :: text) =
      (members? bound rest).map fun r => ((name, value) :: r.1, r.2) := by
  rw [members?, Option.map_eq_bind]
  change (string? bound text).bind _ = _
  rw [hname]
  change (value? bound cs).bind _ = _
  rw [h]
  rfl

theorem memberChars_singleton (m : String × Json) :
    memberChars [m] = stringText m.1 ++ ':' :: m.2.chars := rfl

theorem memberChars_cons_cons (m next : String × Json) (later : List (String × Json)) :
    memberChars (m :: next :: later) =
      stringText m.1 ++ ':' :: m.2.chars ++ ',' :: memberChars (next :: later) := by
  rw [memberChars]
  rintro ⟨⟩

theorem stringText_append (s : String) (rest : List Char) :
    stringText s ++ rest = '"' :: (s.toList.flatMap stringChar ++ '"' :: rest) := by
  rw [stringText, List.cons_append, List.cons_append, List.append_assoc, List.singleton_append]

theorem members?_memberChars (rest : List Char) (hne : members ≠ [])
    (hmembers : ∀ m ∈ members, m.2.ReadsBack) (hbound : (memberChars members).length < bound) :
    members? bound (memberChars members ++ '\x7d' :: rest) = some (members, rest) := by
  induction members generalizing bound with
  | nil => exact absurd rfl hne
  | cons m members ih =>
    have hvalue := hmembers m List.mem_cons_self
    obtain ⟨less, rfl, hless⟩ := Text.exists_bound hbound
    have hname := length_le_stringText m.1
    cases members with
    | nil =>
      rw [memberChars_singleton, List.length_append, List.length_cons] at hless
      have hread := hvalue.reads less ('\x7d' :: rest) (by omega) (stops_cons (by decide) rest)
      rw [memberChars_singleton, List.append_assoc, stringText_append]
      exact members?_last (string?_text m.1 (by omega)) hread
    | cons next later =>
      rw [memberChars_cons_cons, List.length_append, List.length_append, List.length_cons,
        List.length_cons] at hless
      have hread := hvalue.reads less (',' :: (memberChars (next :: later) ++ '\x7d' :: rest))
        (by omega) (stops_cons (by decide) _)
      have hlength : (memberChars (next :: later)).length < less := by omega
      have hlater := ih (List.cons_ne_nil next later)
        (fun other hother => hmembers other (List.mem_cons_of_mem m hother)) hlength
      rw [memberChars_cons_cons, List.append_assoc, List.append_assoc, stringText_append,
        List.cons_append, List.cons_append, members?_more (string?_text m.1 (by omega)) hread,
        hlater]
      rfl

theorem exists_memberChars_cons (m : String × Json) (later : List (String × Json)) :
    ∃ cs, memberChars (m :: later) = '"' :: cs := by
  cases later with
  | nil => exact ⟨_, rfl⟩
  | cons next later => exact ⟨_, rfl⟩

theorem readsBack_object (hmembers : ∀ m ∈ members, m.2.ReadsBack) :
    (object members).ReadsBack := by
  have hchars : (object members).chars = '\x7b' :: (memberChars members ++ ['\x7d']) := rfl
  refine readsBack_of_opening (by decide) hchars ?_
  intro bound rest hbound _
  rw [List.length_append, List.length_singleton] at hbound
  rw [List.cons_append, List.append_assoc, List.singleton_append]
  cases members with
  | nil => rfl
  | cons m later =>
    have hread := members?_memberChars rest (List.cons_ne_nil m later) hmembers hbound
    obtain ⟨cs, hquote⟩ := exists_memberChars_cons m later
    rw [hquote, List.cons_append] at hread ⊢
    change (members? bound ('"' :: (cs ++ '\x7d' :: rest))).map _ = _
    rw [hread]
    rfl

theorem IsExact.readsBack (h : j.IsExact) : j.ReadsBack := by
  induction h with
  | null => exact readsBack_of_opening (by decide) rfl fun _ _ _ _ => rfl
  | bool value =>
    cases value with
    | false => exact readsBack_of_opening (by decide) rfl fun _ _ _ _ => rfl
    | true => exact readsBack_of_opening (by decide) rfl fun _ _ _ _ => rfl
  | integer low high => exact readsBack_integer low high
  | string value => exact readsBack_string value
  | array _ ih => exact readsBack_array ih
  | object _ ih => exact readsBack_object ih

theorem read?_text (h : j.IsExact) : read? j.text = some j := by
  have hread := h.readsBack.reads (2 * j.chars.length + 1) [] (by omega) (by rintro c ⟨⟩)
  rw [List.append_nil] at hread
  rw [read?, text, String.toList_ofList, hread]
  rfl

end KNames.Json
