import KNames.Index.Registry
import KNames.Tree.Script

set_option autoImplicit false

namespace KNames

namespace FileTable

variable {t : FileTable} {f g : FileId} {group : ModuleId} {source : Source}

/-- The file has an entry with this module, whether or not it has a tree. -/
def Registered (t : FileTable) (file : FileId) (group : ModuleId) : Prop :=
  ∃ entry, t.files[file]? = some entry ∧ entry.group = some group

theorem moduleOf?_eq_some_iff : t.moduleOf? f = some group ↔ t.Registered f group :=
  Option.bind_eq_some_iff

theorem Registered.lt_size (h : t.Registered f group) : f < t.files.length := by
  obtain ⟨entry, he, _⟩ := h
  exact (List.getElem?_eq_some_iff.mp he).1

theorem Registered.unique {other : ModuleId} (h : t.Registered f group)
    (ho : t.Registered f other) : group = other := by
  have hg := moduleOf?_eq_some_iff.mpr h
  rw [moduleOf?_eq_some_iff.mpr ho] at hg
  exact (Option.some.inj hg).symm

theorem lt_length_of_source? (h : t.source? f = some source) : f < t.files.length := by
  obtain ⟨entry, hentry, _⟩ := Option.bind_eq_some_iff.mp h
  exact (List.getElem?_eq_some_iff.mp hentry).1

theorem mem_filesIn : g ∈ t.filesIn (.ofModule group) ↔ t.Registered g group := by
  unfold filesIn
  rw [List.mem_filter, List.mem_range, beq_iff_eq, moduleOf?_eq_some_iff]
  constructor
  · rintro ⟨_, hg⟩
    exact hg
  · intro hg
    exact ⟨hg.lt_size, hg⟩

theorem filesIn_pairwise (t : FileTable) (scope : ContentScope) :
    (t.filesIn scope).Pairwise (· < ·) := by
  cases scope with
  | ofModule group => exact List.pairwise_lt_range.filter _
  | project => exact List.pairwise_lt_range

end FileTable

namespace Registry

theorem id_of_source? {r : Registry} {f : FileId} {source : Source}
    (h : r.source? f = some source) : source.id = f := by
  obtain ⟨entry, hentry, hsource⟩ := Option.bind_eq_some_iff.mp h
  exact (r.sound f entry source hentry hsource).1

def duoFirst : Source := ⟨0, "m/a.k", (Script.step (.require "b.k") .done).build⟩

def duoSecond : Source :=
  let body : Script := .step (.varDecl "X" none) (.step (.reference "X") .done)
  ⟨1, "m/b.k", (Script.step (.production ["seq"]) (.block .rule body .done)).build⟩

def duo : Registry :=
  let listed := (empty.addModule "m").2
  ((listed.addFile duoFirst.uri (some 0) duoFirst.tree).2.addFile
    duoSecond.uri (some 0) duoSecond.tree).2

/-- The module of `duo` beside a file of no module that declares the same name before it. -/
def crowd : Registry :=
  let apart := ((empty.addModule "m").2.addFile "lib/c.k" none duoSecond.tree).2
  ((apart.addFile duoFirst.uri (some 0) duoFirst.tree).2.addFile
    duoSecond.uri (some 0) duoSecond.tree).2

def crowdFirst : Source := ⟨1, duoFirst.uri, duoFirst.tree⟩

end Registry

end KNames
