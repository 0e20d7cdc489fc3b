import KNames.Json.Value
import Mathlib.Data.List.Induction
import Mathlib.Data.List.Nodup
import Mathlib.Tactic.SplitIfs

set_option autoImplicit false

namespace KNames.Json

variable {name other : String} {value : Json} {members : List (String × Json)}

theorem lookup_cons_ite (m : String × Json) (members : List (String × Json)) (name : String) :
    (m :: members).lookup name = if name = m.1 then some m.2 else members.lookup name := by
  rw [List.lookup_cons]
  by_cases h : name = m.1
  · rw [if_pos h, beq_iff_eq.mpr h]
  · rw [if_neg h, beq_eq_false_iff_ne.mpr h]

theorem lookup_insertMember : (insertMember name value members).lookup other =
    if other = name then some value else members.lookup other := by
  induction members with
  | nil => exact lookup_cons_ite (name, value) [] other
  | cons m members ih =>
    rw [insertMember]
    by_cases hsame : name = m.1
    · rw [if_pos hsame, lookup_cons_ite, lookup_cons_ite, ← hsame]
      split_ifs <;> rfl
    · by_cases hless : name < m.1
      · rw [if_neg hsame, if_pos hless]
        exact lookup_cons_ite (name, value) (m :: members) other
      · rw [if_neg hsame, if_neg hless, lookup_cons_ite, lookup_cons_ite, ih]
        split_ifs with hfirst hname
        · exact absurd (hname.symm.trans hfirst) hsame
        · rfl
        · rfl
        · rfl

theorem lookup_sorted (members : List (String × Json)) (name : String) :
    (sorted members).lookup name = (object members).member? name := by
  induction members using List.reverseRecOn with
  | nil => rfl
  | append_singleton members m ih =>
    have hsorted : sorted (members ++ [m]) = insertMember m.1 m.2 (sorted members) := by
      rw [sorted, List.foldl_append]
      rfl
    have hmember : (object (members ++ [m])).member? name =
        if name = m.1 then some m.2 else (object members).member? name := by
      rw [member?, List.reverse_append]
      exact lookup_cons_ite m members.reverse name
    rw [hsorted, lookup_insertMember, ih, hmember]

theorem member?_of_mem {m : String × Json} (hnames : (members.map (·.1)).Nodup) (hm : m ∈ members) :
    (object members).member? m.1 = some m.2 := by
  have hlookup : ∀ found : List (String × Json), (found.map (·.1)).Nodup → m ∈ found →
      found.lookup m.1 = some m.2 := by
    intro found hfound hmem
    induction found with
    | nil => cases hmem
    | cons first found ih =>
      obtain ⟨hfirst, hlater⟩ := List.nodup_cons.mp hfound
      rw [lookup_cons_ite]
      rcases List.mem_cons.mp hmem with rfl | hmem
      · exact if_pos rfl
      · have hne : m.1 ≠ first.1 := by
          intro hsame
          exact hfirst (List.mem_map.mpr ⟨m, hmem, hsame⟩)
        rw [if_neg hne, ih hlater hmem]
  refine hlookup members.reverse ?_ (List.mem_reverse.mpr hm)
  rw [List.map_reverse]
  exact List.nodup_reverse.mpr hnames

end KNames.Json
