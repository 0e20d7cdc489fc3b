import KNames.Proofs.Decoding.Record
import KNames.Proofs.Json.Members
import KNames.Proofs.Json.Text
import KNames.Wire.Primitive

set_option autoImplicit false

namespace KNames.Wire

open Decoding Record Outcome Number

variable {α β : Type} {valid : α → Prop} {encode : α → Json} {decode : Decoder α}

structure Lossless (valid : α → Prop) (encode : α → Json) (decode : Decoder α) : Prop where
  exact : ∀ a, valid a → (encode a).IsExact
  back : ∀ a, valid a → decode (encode a) = .ok a
  sound : ∀ j a, decode j = .ok a → valid a

def InRange (n : Nat) : Prop := n < twoTo 32

theorem number_lossless : Lossless InRange (fun n => .integer n) number := by
  refine ⟨?_, ?_, ?_⟩
  · intro n h
    have hlow : -(twoTo 63 : Int) ≤ n := by omega
    have hhigh : (n : Int) < twoTo 64 := Int.ofNat_lt.mpr (Nat.lt_trans h (by decide))
    exact .integer hlow hhigh
  · intro n h
    rw [number, if_pos ⟨Int.natCast_nonneg n, Int.ofNat_lt.mpr h⟩, Int.toNat_natCast]
  · intro j n h
    cases j with
    | integer value =>
      rw [number] at h
      by_cases hrange : 0 ≤ value ∧ value < twoTo 32
      · rw [if_pos hrange] at h
        cases h
        exact (Int.toNat_lt hrange.1).mpr hrange.2
      · rw [if_neg hrange] at h
        cases h
    | _ => cases h

theorem string_lossless : Lossless (fun _ => True) .string string := by
  refine ⟨?_, ?_, ?_⟩
  · intro s _
    exact .string s
  · intro s _
    rfl
  · intro _ _ _
    trivial

theorem character_lossless :
    Lossless (fun _ => True) (fun c => .string (String.ofList [c])) character := by
  refine ⟨?_, ?_, ?_⟩
  · intro c _
    exact .string _
  · intro c _
    exact readChar_ofList c
  · intro _ _ _
    trivial

theorem Lossless.mapM_encode (h : Lossless valid encode decode) {l : List α}
    (hl : ∀ a ∈ l, valid a) : (l.map encode).mapM decode = .ok l := by
  induction l with
  | nil => rfl
  | cons a l ih =>
    have hlater := ih fun b hb => hl b (List.mem_cons_of_mem a hb)
    rw [List.map_cons, List.mapM_cons, h.back a (hl a List.mem_cons_self), hlater]
    rfl

theorem Lossless.valid_of_mapM (h : Lossless valid encode decode) {items : List Json} {l : List α}
    (hl : items.mapM decode = .ok l) : ∀ a ∈ l, valid a := by
  induction items generalizing l with
  | nil =>
    cases hl
    exact List.forall_mem_nil valid
  | cons item items ih =>
    rw [List.mapM_cons] at hl
    obtain ⟨a, ha, hl⟩ := bind_eq_ok_iff.mp hl
    obtain ⟨later, hlater, hl⟩ := bind_eq_ok_iff.mp hl
    cases hl
    exact List.forall_mem_cons.mpr ⟨h.sound item a ha, ih hlater⟩

theorem Lossless.ofList (h : Lossless valid encode decode) :
    Lossless (fun l => ∀ a ∈ l, valid a) (fun l => .array (l.map encode)) (list decode) := by
  refine ⟨?_, ?_, ?_⟩
  · intro l hl
    refine .array ?_
    rintro _ hitem
    obtain ⟨a, ha, rfl⟩ := List.mem_map.mp hitem
    exact h.exact a (hl a ha)
  · intro l hl
    exact h.mapM_encode hl
  · intro j l hl
    cases j with
    | array items => exact h.valid_of_mapM hl
    | _ => cases hl

theorem Lossless.ofOptional (h : Lossless valid encode decode) (hnull : ∀ a, encode a ≠ .null) :
    Lossless (fun o => ∀ a ∈ o, valid a) (fun o => (o.map encode).getD .null)
      (optional decode) := by
  have hsome : ∀ j, j ≠ .null → optional decode j = (decode j).map some := by
    intro j hj
    cases j with
    | null => exact absurd rfl hj
    | _ => rfl
  refine ⟨?_, ?_, ?_⟩
  · intro o ho
    cases o with
    | none => exact .null
    | some a => exact h.exact a (ho a rfl)
  · intro o ho
    cases o with
    | none => rfl
    | some a => exact (hsome _ (hnull a)).trans (map_eq_ok_iff.mpr ⟨a, h.back a (ho a rfl), rfl⟩)
  · intro j o ho
    by_cases hj : j = .null
    · rw [hj] at ho
      cases ho
      rintro a ⟨⟩
    · rw [hsome j hj] at ho
      obtain ⟨a, ha, rfl⟩ := map_eq_ok_iff.mp ho
      rintro _ ⟨⟩
      exact h.sound j a ha

theorem plainVariant_lossless {name : α → String} {names : List String}
    {ofName? : String → Option α} (h : ∀ a, ofName? (name a) = some a) :
    Lossless (fun _ => True) (fun a => .string (name a)) (plainVariant names ofName?) := by
  refine ⟨?_, ?_, ?_⟩
  · intro a _
    exact .string _
  · intro a _
    refine bind_eq_ok_iff.mpr ⟨(name a, none), rfl, ?_⟩
    simp only [h a]
    rfl
  · intro _ _ _
    trivial

/-- The fields are read from any members among which those are that they are written as. -/
structure Carries (valid : α → Prop) (write : α → List (String × Json))
    (fields : Record Json Fault α) : Prop where
  exact : ∀ a, valid a → ∀ m ∈ write a, m.2.IsExact
  gives : ∀ a members, valid a → (∀ m ∈ write a, members.lookup m.1 = some m.2) →
    fields.Gives members a
  ensures : fields.Ensures valid

theorem Lossless.carries (h : Lossless valid encode decode) (name : String)
    {noMember : Except Fault α} {noItem : Nat → Except Fault α}
    (hmember : ∀ a, noMember = .ok a → valid a) (hitem : ∀ i a, noItem i = .ok a → valid a) :
    Carries valid (fun a => [(name, encode a)]) (.field name decode noMember noItem) := by
  refine ⟨?_, ?_, field_ensures h.sound hmember hitem⟩
  · intro a ha
    exact List.forall_mem_singleton.mpr (h.exact a ha)
  · intro a members ha hwritten
    have hfound := hwritten (name, encode a) (List.mem_singleton_self _)
    exact field_gives_iff.mpr (.inl ⟨encode a, hfound, h.back a ha⟩)

theorem Lossless.required (h : Lossless valid encode decode) (record name : String) (size : Nat) :
    Carries valid (fun a => [(name, encode a)]) (required record size name decode) := by
  refine h.carries name ?_ ?_
  · rintro _ ⟨⟩
  · rintro _ _ ⟨⟩

theorem Carries.both {p : α → Prop} {q : β → Prop} {write : α → List (String × Json)}
    {write' : β → List (String × Json)} {fields : Record Json Fault α}
    {fields' : Record Json Fault β} (h : Carries p write fields) (h' : Carries q write' fields') :
    Carries (fun x => p x.1 ∧ q x.2) (fun x => write x.1 ++ write' x.2) (fields.both fields') := by
  refine ⟨?_, ?_, both_ensures h.ensures h'.ensures⟩
  · intro x hx m hm
    rcases List.mem_append.mp hm with hm | hm
    · exact h.exact x.1 hx.1 m hm
    · exact h'.exact x.2 hx.2 m hm
  · intro x members hx hwritten
    obtain ⟨hleft, hright⟩ := List.forall_mem_append.mp hwritten
    exact both_gives_iff.mpr ⟨h.gives x.1 members hx.1 hleft, h'.gives x.2 members hx.2 hright⟩

theorem Carries.map {p : α → Prop} {q : β → Prop} {write : α → List (String × Json)}
    {fields : Record Json Fault α} {make : α → β} (h : Carries p write fields) (parts : β → α)
    (hmake : ∀ b, make (parts b) = b) (hparts : ∀ b, q b → p (parts b))
    (hvalid : ∀ a, p a → q (make a)) :
    Carries q (fun b => write (parts b)) (fields.map make) := by
  refine ⟨?_, ?_, map_ensures h.ensures hvalid⟩
  · intro b hb
    exact h.exact (parts b) (hparts b hb)
  · intro b members hb hwritten
    exact map_gives_iff.mpr ⟨parts b, h.gives (parts b) members (hparts b hb) hwritten, hmake b⟩

theorem Carries.record {write : α → List (String × Json)} {fields : Record Json Fault α}
    (h : Carries valid write fields) (name : String)
    (hnames : ∀ a, ((write a).map (·.1)).Nodup) :
    Lossless valid (fun a => .object (write a)) (record name fields) := by
  refine ⟨?_, ?_, ?_⟩
  · intro a ha
    exact .object (h.exact a ha)
  · intro a ha
    refine readMembers_eq_ok_iff.mpr (h.gives a _ ha ?_)
    intro m hm
    -- The decoder looks among the sorted members, and sorting keeps what stands under a name.
    rw [Json.lookup_sorted]
    exact Json.member?_of_mem (hnames a) hm
  · intro j a hj
    cases j with
    | object members => exact h.ensures.members _ a (readMembers_eq_ok_iff.mp hj).value
    | array items =>
      obtain ⟨found, hfound, hj⟩ := bind_eq_ok_iff.mp hj
      split at hj
      · cases hj
      · cases hj
        exact h.ensures.items 0 items a hfound
    | _ => cases hj

/-- The type survives a text: what is written is read and decoded as itself, values with one text
are the same, and a value decoded from any JSON value is the one that its own encoding decodes to. -/
structure RoundTrip (valid : α → Prop) (encode : α → Json) (decode : Decoder α) : Prop where
  text : ∀ a, valid a → (Json.read? (encode a).text).map decode = some (.ok a)
  injective : ∀ a b, valid a → valid b → (encode a).text = (encode b).text → a = b
  settles : ∀ j a, decode j = .ok a → valid a ∧ decode (encode a) = .ok a

theorem Lossless.roundTrip (h : Lossless valid encode decode) : RoundTrip valid encode decode := by
  have htext : ∀ a, valid a → (Json.read? (encode a).text).map decode = some (.ok a) := by
    intro a ha
    rw [Json.read?_text (h.exact a ha), Option.map_some, h.back a ha]
  refine ⟨htext, ?_, ?_⟩
  · intro a b ha hb hsame
    have hread := htext a ha
    rw [hsame, htext b hb, Option.some.injEq, Except.ok.injEq] at hread
    exact hread.symm
  · intro j a hj
    have ha := h.sound j a hj
    exact ⟨ha, h.back a ha⟩

end KNames.Wire
