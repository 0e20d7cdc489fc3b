import KNames.Proofs.History

set_option autoImplicit false

namespace KNames

/-- The file that a change is about; a new file has the first free handle. -/
def Change.subject? (count : Nat) : Change → Option FileId
  | addModule _ => none
  | addFile .. => some count
  | replaceTree file _ | invalidate file => some file

namespace FileTable

variable {s t : FileTable} {c : Change} {f g : FileId} {group : ModuleId}

theorem source?_congr (h : s.files[f]? = t.files[f]?) : s.source? f = t.source? f := by
  unfold source?
  rw [h]

theorem registered_congr (h : s.files[f]? = t.files[f]?) (group : ModuleId) :
    s.Registered f group ↔ t.Registered f group := by
  unfold Registered
  rw [h]

theorem getElem?_apply (h : c.subject? t.files.length ≠ some f) :
    (t.apply c).2.files[f]? = t.files[f]? := by
  cases c with
  | addModule name => rfl
  | addFile uri group tree =>
    have hne : t.files.length ≠ f := fun heq => h (congrArg some heq)
    exact (getElem?_addFile t uri group tree f).trans (if_neg hne.symm)
  | replaceTree file tree =>
    have hne : file ≠ f := fun heq => h (congrArg some heq)
    exact (getElem?_setTree t file f (some tree)).trans (if_neg hne)
  | invalidate file =>
    have hne : file ≠ f := fun heq => h (congrArg some heq)
    exact (getElem?_setTree t file f none).trans (if_neg hne)

theorem registered_setTree (tree : Option Tree) :
    (t.setTree f tree).2.Registered g group ↔ t.Registered g group := by
  rw [← moduleOf?_eq_some_iff, ← moduleOf?_eq_some_iff, moduleOf?_setTree]

theorem Registered.apply (h : t.Registered f group) (c : Change) :
    (t.apply c).2.Registered f group := by
  have hlt : f < (t.files.map Entry.registration).length := by
    rw [List.length_map]
    exact h.lt_size
  rw [← moduleOf?_eq_some_iff, moduleOf?_eq, registrations_apply, List.getElem?_append_left hlt,
    ← moduleOf?_eq, moduleOf?_eq_some_iff]
  exact h

end FileTable

end KNames
