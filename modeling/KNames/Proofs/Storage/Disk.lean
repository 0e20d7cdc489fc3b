import KNames.Proofs.Outcome
import KNames.Storage.Disk

set_option autoImplicit false

namespace KNames.Storage.Disk

open Outcome

variable {d d' : Disk} {place parent start : Place} {path : Path} {content : ByteArray}

theorem lookup_filter_ne {other : Place} (h : other ≠ place) (entries : List (Place × Stored)) :
    (entries.filter (·.1 ≠ place)).lookup other = entries.lookup other := by
  induction entries with
  | nil => rfl
  | cons entry entries ih =>
    obtain ⟨key, stored⟩ := entry
    by_cases hkey : key = place
    · have hother : (other == key) = false := by simpa [hkey] using h
      rw [List.filter_cons_of_neg (by simpa using hkey), ih, List.lookup_cons, hother]
    · rw [List.filter_cons_of_pos (by simpa using hkey), List.lookup_cons, List.lookup_cons, ih]

theorem at?_put_self (h : place ≠ []) (d : Disk) (stored : Stored) :
    (d.put place stored).at? place = some stored := by
  cases place with
  | nil => exact absurd rfl h
  | cons name names => exact List.lookup_cons_self

theorem at?_put_of_ne {other : Place} (h : other ≠ place) (d : Disk) (stored : Stored) :
    (d.put place stored).at? other = d.at? other := by
  cases other with
  | nil => rfl
  | cons name names =>
    have hkey : ((name :: names) == place) = false := by simpa using h
    change List.lookup (name :: names) ((place, stored) :: d.entries.filter (·.1 ≠ place)) = _
    rw [List.lookup_cons, hkey]
    exact lookup_filter_ne h d.entries

theorem follow_cons (d : Disk) (start : Place) (name : String) (names : List String) :
    d.follow start (name :: names) = .ok parent ↔ ∃ next, enter start name = .ok next ∧
      d.at? next = some .directory ∧ d.follow next names = .ok parent := by
  rw [follow, bind_eq_ok_iff]
  refine exists_congr fun next => and_congr_right fun _ => ?_
  cases d.at? next with
  | none => simp
  | some stored => cases stored <;> simp

/-- Only directories lie on the way, so a new file is in nobody's way. -/
theorem follow_put {names : List String} (h : d.at? place ≠ some .directory)
    (hfollow : d.follow start names = .ok parent) :
    (d.put place (.file content)).follow start names = .ok parent := by
  induction names generalizing start with
  | nil => exact hfollow
  | cons name names ih =>
    obtain ⟨next, hnext, hdirectory, hrest⟩ := (follow_cons d start name names).mp hfollow
    have hne : next ≠ place := by
      rintro rfl
      exact h hdirectory
    refine (follow_cons _ start name names).mpr ⟨next, hnext, ?_, ih hrest⟩
    rw [at?_put_of_ne hne, hdirectory]

theorem exists_place_of_write (h : d.write path content = .ok d') : path.slashed = false ∧
    ∃ place, d.place path = .ok place ∧ d.at? place ≠ some .directory ∧
      d' = d.put place (.file content) := by
  obtain ⟨parent, hparent, h⟩ := bind_eq_ok_iff.mp h
  cases hslash : path.slashed with
  | true =>
    rw [hslash] at h
    cases h
  | false =>
    rw [hslash] at h
    obtain ⟨place, henter, h⟩ := bind_eq_ok_iff.mp h
    refine ⟨rfl, place, bind_eq_ok_iff.mpr ⟨parent, hparent, henter⟩, ?_⟩
    split at h
    · cases h
    · rename_i hfree
      cases h
      refine ⟨?_, rfl⟩
      intro hdirectory
      rw [hdirectory] at hfree
      exact hfree rfl

theorem place_put (h : d.at? place ≠ some .directory) (hplace : d.place path = .ok place) :
    (d.put place (.file content)).place path = .ok place := by
  obtain ⟨parent, hparent, henter⟩ := bind_eq_ok_iff.mp hplace
  exact bind_eq_ok_iff.mpr ⟨parent, follow_put h hparent, henter⟩

theorem read_of_write (h : d.write path content = .ok d') : d'.read path = .ok content := by
  obtain ⟨hslash, place, hplace, hfree, rfl⟩ := exists_place_of_write h
  have hne : place ≠ [] := by
    rintro rfl
    exact hfree rfl
  refine bind_eq_ok_iff.mpr ⟨place, place_put hfree hplace, ?_⟩
  rw [at?_put_self hne]
  simp [hslash]

theorem keeps (d : Disk) (text : String) : system.Keeps d text := by
  intro content later h
  obtain ⟨path, hpath, hwrite⟩ := bind_eq_ok_iff.mp h
  exact bind_eq_ok_iff.mpr ⟨path, hpath, read_of_write hwrite⟩

end KNames.Storage.Disk
