import KNames.Decoding.Record
import KNames.Proofs.Outcome

set_option autoImplicit false

namespace KNames.Decoding.Record

open Outcome

variable {V ε α β : Type} {a : Record V ε α} {b : Record V ε β} {members : List (String × V)}
  {name : String} {read : V → Except ε α} {noMember : Except ε α} {noItem : Nat → Except ε α}

/-- The record is read as `x` from these members. -/
structure Gives (a : Record V ε α) (members : List (String × V)) (x : α) : Prop where
  sound : ∀ name value, members.lookup name = some value → a.fault? name value = none
  value : a.ofMembers members = .ok x

theorem mem_keys_of_lookup {value : V} (h : members.lookup name = some value) :
    name ∈ members.map (·.1) := by
  obtain ⟨before, later, rfl, _⟩ := List.lookup_eq_some_iff.mp h
  simp

theorem readMembers_eq_ok_iff {x : α} : a.readMembers members = .ok x ↔ a.Gives members x := by
  have hsound : a.firstFault? members = none ↔
      ∀ name value, members.lookup name = some value → a.fault? name value = none := by
    unfold firstFault?
    rw [List.findSome?_eq_none_iff]
    constructor
    · intro h name value hvalue
      have hnone := h name (mem_keys_of_lookup hvalue)
      rwa [hvalue, Option.bind_some] at hnone
    · intro h name _
      rw [Option.bind_eq_none_iff]
      exact h name
  unfold readMembers
  constructor
  · intro h
    split at h
    · cases h
    · rename_i hnone
      exact ⟨hsound.mp hnone, h⟩
  · intro h
    rw [hsound.mpr h.sound]
    exact h.value

theorem fault_eq_none_iff {result : Except ε α} : fault result = none ↔ ∃ x, result = .ok x := by
  cases result <;> simp [fault]

theorem field_ofMembers : (field name read noMember noItem).ofMembers members =
    ((members.lookup name).map read).getD noMember :=
  rfl

theorem field_sound (h : ∀ value, members.lookup name = some value → ∃ x, read value = .ok x)
    (other : String) (value : V) (hvalue : members.lookup other = some value) :
    (field name read noMember noItem).fault? other value = none := by
  change (if other = name then fault (read value) else none) = none
  split
  · rename_i hother
    rw [hother] at hvalue
    exact fault_eq_none_iff.mpr (h value hvalue)
  · rfl

theorem field_gives_iff {x : α} : (field name read noMember noItem).Gives members x ↔
    (∃ value, members.lookup name = some value ∧ read value = .ok x) ∨
      (members.lookup name = none ∧ noMember = .ok x) := by
  constructor
  · rintro ⟨_, h⟩
    rw [field_ofMembers] at h
    cases hvalue : members.lookup name with
    | none =>
      rw [hvalue] at h
      exact .inr ⟨rfl, h⟩
    | some value =>
      rw [hvalue] at h
      exact .inl ⟨value, rfl, h⟩
  · rintro (⟨value, hvalue, hread⟩ | ⟨hnone, hmissing⟩)
    · refine ⟨field_sound ?_, ?_⟩
      · intro found hfound
        rw [hvalue] at hfound
        cases hfound
        exact ⟨x, hread⟩
      · rw [field_ofMembers, hvalue]
        exact hread
    · refine ⟨field_sound ?_, ?_⟩
      · intro found hfound
        rw [hnone] at hfound
        cases hfound
      · rw [field_ofMembers, hnone]
        exact hmissing

theorem both_gives_iff {x : α} {y : β} :
    (a.both b).Gives members (x, y) ↔ a.Gives members x ∧ b.Gives members y := by
  constructor
  · rintro ⟨hsound, h⟩
    obtain ⟨x', hx, h⟩ := bind_eq_ok_iff.mp h
    obtain ⟨y', hy, h⟩ := bind_eq_ok_iff.mp h
    cases h
    have hboth : ∀ name value, members.lookup name = some value →
        a.fault? name value = none ∧ b.fault? name value = none :=
      fun name value hvalue => Option.or_eq_none_iff.mp (hsound name value hvalue)
    exact ⟨⟨fun name value hvalue => (hboth name value hvalue).1, hx⟩,
      ⟨fun name value hvalue => (hboth name value hvalue).2, hy⟩⟩
  · rintro ⟨ha, hb⟩
    refine ⟨?_, ?_⟩
    · intro name value hvalue
      exact Option.or_eq_none_iff.mpr ⟨ha.sound name value hvalue, hb.sound name value hvalue⟩
    · exact bind_eq_ok_iff.mpr ⟨x, ha.value, bind_eq_ok_iff.mpr ⟨y, hb.value, rfl⟩⟩

theorem map_gives_iff {f : α → β} {y : β} :
    (a.map f).Gives members y ↔ ∃ x, a.Gives members x ∧ f x = y := by
  constructor
  · rintro ⟨hsound, h⟩
    obtain ⟨x, hx, hf⟩ := map_eq_ok_iff.mp h
    exact ⟨x, ⟨hsound, hx⟩, hf⟩
  · rintro ⟨x, ⟨hsound, hx⟩, hf⟩
    exact ⟨hsound, map_eq_ok_iff.mpr ⟨x, hx, hf⟩⟩

structure Ensures (a : Record V ε α) (p : α → Prop) : Prop where
  members : ∀ members x, a.ofMembers members = .ok x → p x
  items : ∀ i items x, a.ofItems i items = .ok x → p x

theorem field_ensures {p : α → Prop} (hread : ∀ value x, read value = .ok x → p x)
    (hmember : ∀ x, noMember = .ok x → p x) (hitem : ∀ i x, noItem i = .ok x → p x) :
    (field name read noMember noItem).Ensures p := by
  refine ⟨?_, ?_⟩
  · intro members x h
    rw [field_ofMembers] at h
    cases hvalue : members.lookup name with
    | none =>
      rw [hvalue] at h
      exact hmember x h
    | some value =>
      rw [hvalue] at h
      exact hread value x h
  · intro i items x h
    change ((items[i]?.map read).getD (noItem i)) = .ok x at h
    cases hvalue : items[i]? with
    | none =>
      rw [hvalue] at h
      exact hitem i x h
    | some value =>
      rw [hvalue] at h
      exact hread value x h

theorem both_ensures {p : α → Prop} {q : β → Prop} (ha : a.Ensures p) (hb : b.Ensures q) :
    (a.both b).Ensures fun x => p x.1 ∧ q x.2 := by
  refine ⟨?_, ?_⟩
  · intro members x h
    obtain ⟨y, hy, h⟩ := bind_eq_ok_iff.mp h
    obtain ⟨z, hz, h⟩ := bind_eq_ok_iff.mp h
    cases h
    exact ⟨ha.members members y hy, hb.members members z hz⟩
  · intro i items x h
    obtain ⟨y, hy, h⟩ := bind_eq_ok_iff.mp h
    obtain ⟨z, hz, h⟩ := bind_eq_ok_iff.mp h
    cases h
    exact ⟨ha.items i items y hy, hb.items (i + a.size) items z hz⟩

theorem map_ensures {p : α → Prop} {q : β → Prop} {f : α → β} (ha : a.Ensures p)
    (hf : ∀ x, p x → q (f x)) : (a.map f).Ensures q := by
  refine ⟨?_, ?_⟩
  · intro members y h
    obtain ⟨x, hx, rfl⟩ := map_eq_ok_iff.mp h
    exact hf x (ha.members members x hx)
  · intro i items y h
    obtain ⟨x, hx, rfl⟩ := map_eq_ok_iff.mp h
    exact hf x (ha.items i items x hx)

end KNames.Decoding.Record
