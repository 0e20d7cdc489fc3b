import KNames.Proofs.Registry
import Mathlib.Data.List.Basic
import Mathlib.Data.List.Induction

set_option autoImplicit false

/-!
# A file table and its history

A file table is a summary of the changes that made it. What a file was registered with never changes
and is found under its place in the order of registrations; its tree is the one that the last change
of this file gave it. Each answer of a table is therefore read off the history alone.
-/
namespace KNames

structure Registration where
  uri : String
  group : Option ModuleId
deriving DecidableEq, Repr

namespace Entry

def registration (e : Entry) : Registration := ⟨e.uri, e.group⟩

def tree? (e : Entry) : Option Tree := e.source.map (·.tree)

theorem tree?_withTree (e : Entry) (file : FileId) (tree : Option Tree) :
    (e.withTree file tree).tree? = tree := by
  cases tree <;> rfl

theorem withTree_of_source {e : Entry} {source : Source} (h : e.source = some source)
    (huri : source.uri = e.uri) : e.withTree source.id (some source.tree) = e := by
  obtain ⟨uri, group, stored⟩ := e
  cases h
  cases huri
  rfl

end Entry

namespace Change

def registration? : Change → Option Registration
  | addFile uri group _ => some ⟨uri, group⟩
  | _ => none

def moduleName? : Change → Option String
  | addModule name => some name
  | _ => none

/-- The file that gets a tree or loses it, when `count` files are registered, and what it has then.
A change of a file that is not registered sets nothing. -/
def sets? (count : Nat) : Change → Option (FileId × Option Tree)
  | addModule _ => none
  | addFile _ _ tree => some (count, some tree)
  | replaceTree file tree => if file < count then some (file, some tree) else none
  | invalidate file => if file < count then some (file, none) else none

end Change

namespace History

def files (h : History) : List Registration := h.filterMap (·.registration?)

def modules (h : History) : List String := h.filterMap (·.moduleName?)

/-- The last of the changes that set the tree of the file set it to this. -/
def LastSets (h : History) (file : FileId) (tree : Option Tree) : Prop :=
  ∃ before change later, h = before ++ change :: later ∧
    change.sets? (files before).length = some (file, tree) ∧
    ∀ between other rest, later = between ++ other :: rest →
      ∀ next, other.sets? (files (before ++ change :: between)).length ≠ some (file, next)

end History

namespace FileTable

variable {t : FileTable} {h : History} {f g : FileId} {c d : Change} {tree : Option Tree}
  {source : Source}

/-- Everything that a table can be asked for, as its history has it. -/
structure Shows (t : FileTable) (h : History) : Prop where
  size : t.size = (h.files).length
  moduleName : ∀ group, t.moduleName? group = h.modules[group]?
  uri : ∀ f, t.uri? f = h.files[f]?.map (·.uri)
  moduleOf : ∀ f, t.moduleOf? f = h.files[f]?.bind (·.group)
  source : ∀ f source, t.source? f = some source ↔
    source.id = f ∧ t.uri? f = some source.uri ∧ h.LastSets f (some source.tree)
  noSource : ∀ f, t.source? f = none ↔ h.files.length ≤ f ∨ h.LastSets f none
  ofModule : ∀ group, (t.filesIn (.ofModule group)).Pairwise (· < ·) ∧ ∀ f,
    f ∈ t.filesIn (.ofModule group) ↔ ∃ entry, h.files[f]? = some entry ∧ entry.group = some group
  project : t.filesIn .project = List.range h.files.length

/-- How a table with this history answers to one more change, and what the change leaves alone. -/
structure Responds (t : FileTable) (h : History) : Prop where
  addModule : ∀ name, (t.apply (.addModule name)).1 = .group h.modules.length
  addFile : ∀ uri group tree, (t.apply (.addFile uri group tree)).1 = .file h.files.length
  known : ∀ c f, c.target? = some f → (t.apply c).1 = .known (decide (f < h.files.length))
  unknown : ∀ c f, c.target? = some f → h.files.length ≤ f → (t.apply c).2 = t
  /-- What was registered stays so, whatever changes follow. -/
  kept : ∀ later f, f < h.files.length →
    (after (h ++ later)).uri? f = t.uri? f ∧ (after (h ++ later)).moduleOf? f = t.moduleOf? f
  listed : ∀ c f scope, c.target? = some f → (t.apply c).2.filesIn scope = t.filesIn scope
  /-- Changes of different files can be made in either order, with the same answers. -/
  commute : ∀ c d f g, c.target? = some f → d.target? = some g → f ≠ g →
    ((t.apply c).2.apply d).2 = ((t.apply d).2.apply c).2 ∧
      ((t.apply c).2.apply d).1 = (t.apply d).1 ∧ ((t.apply d).2.apply c).1 = (t.apply c).1

theorem apply_of_target? (h : c.target? = some f) : ∃ tree, ∀ t : FileTable,
    t.apply c = (.known (decide (f < t.files.length)), (t.setTree f tree).2) := by
  cases c with
  | replaceTree file tree =>
    cases h
    exact ⟨some tree, fun _ => rfl⟩
  | invalidate file =>
    cases h
    exact ⟨none, fun _ => rfl⟩
  | addModule name => cases h
  | addFile uri group tree => cases h

theorem setTree_length (t : FileTable) (f : FileId) (tree : Option Tree) :
    (t.setTree f tree).2.files.length = t.files.length :=
  List.length_modify _ _ _

theorem setTree_of_length_le (h : t.files.length ≤ f) : (t.setTree f tree).2 = t := by
  unfold setTree
  rw [List.modify_eq_self h]

theorem setTree_comm (t : FileTable) (first second : Option Tree) (hne : f ≠ g) :
    ((t.setTree f first).2.setTree g second).2 = ((t.setTree g second).2.setTree f first).2 := by
  unfold setTree
  rw [List.modify_modify_ne _ _ _ hne]

theorem setTree_setTree (t : FileTable) (f : FileId) (first second : Option Tree) :
    ((t.setTree f first).2.setTree f second).2 = (t.setTree f second).2 := by
  unfold setTree
  rw [List.modify_modify_eq]
  rfl

theorem Sound.setTree_of_source? (hsound : t.Sound) (hlive : t.source? f = some source) :
    (t.setTree f (some source.tree)).2 = t := by
  obtain ⟨entry, hentry, hsource⟩ := Option.bind_eq_some_iff.mp hlive
  obtain ⟨rfl, huri⟩ := hsound f entry source hentry hsource
  have hfiles : (t.setTree source.id (some source.tree)).2.files = t.files := by
    apply List.ext_getElem?
    intro g
    rw [getElem?_setTree]
    split
    · rename_i hg
      rw [← hg, hentry, Option.map_some, Entry.withTree_of_source hsource huri]
    · rfl
  exact congrArg (fun files => { t with files := files }) hfiles

theorem registrations_setTree (t : FileTable) (f : FileId) (tree : Option Tree) :
    (t.setTree f tree).2.files.map Entry.registration = t.files.map Entry.registration := by
  apply List.ext_getElem?
  intro g
  rw [List.getElem?_map, List.getElem?_map, getElem?_setTree]
  split
  · rw [Option.map_map]
    rfl
  · rfl

theorem registrations_apply (t : FileTable) (c : Change) :
    (t.apply c).2.files.map Entry.registration =
      t.files.map Entry.registration ++ c.registration?.toList := by
  cases c with
  | addModule name => exact (List.append_nil _).symm
  | addFile uri group tree => exact List.map_append
  | replaceTree file tree =>
    exact (registrations_setTree t file tree).trans (List.append_nil _).symm
  | invalidate file => exact (registrations_setTree t file none).trans (List.append_nil _).symm

theorem modules_apply (t : FileTable) (c : Change) :
    (t.apply c).2.modules = t.modules ++ c.moduleName?.toList := by
  cases c with
  | addModule name => rfl
  | _ => exact (List.append_nil _).symm

/-- What is known of the tree of a file: nothing before it is registered. -/
def tree? (t : FileTable) (f : FileId) : Option (Option Tree) := t.files[f]?.map (·.tree?)

theorem tree?_setTree (t : FileTable) (f g : FileId) (tree : Option Tree) :
    (t.setTree f tree).2.tree? g =
      if g = f ∧ g < t.files.length then some tree else t.tree? g := by
  unfold tree?
  rw [getElem?_setTree]
  by_cases hg : f = g
  · subst hg
    rw [if_pos rfl]
    cases hf : t.files[f]? with
    | none =>
      have hsize : t.files.length ≤ f := List.getElem?_eq_none_iff.mp hf
      rw [if_neg fun h => Nat.not_lt.mpr hsize h.2]
      rfl
    | some entry =>
      have hsize : f < t.files.length := (List.getElem?_eq_some_iff.mp hf).1
      rw [if_pos ⟨rfl, hsize⟩]
      exact congrArg some (entry.tree?_withTree f tree)
  · rw [if_neg hg, if_neg (fun h => hg h.1.symm)]

theorem tree?_addFile (t : FileTable) (uri : String) (group : Option ModuleId) (tree : Tree)
    (f : FileId) : (t.addFile uri group tree).2.tree? f =
      if f = t.files.length then some (some tree) else t.tree? f := by
  unfold tree?
  rw [getElem?_addFile]
  split
  · rfl
  · rfl

/-- The tree of a file after a change is what the change sets, or else what it was. -/
theorem tree?_apply (t : FileTable) (c : Change) (f : FileId) (tree : Option Tree) :
    (t.apply c).2.tree? f = some tree ↔ c.sets? t.files.length = some (f, tree) ∨
      ((∀ next, c.sets? t.files.length ≠ some (f, next)) ∧ t.tree? f = some tree) := by
  have hset : ∀ target new, (t.setTree target new).2.tree? f = some tree ↔
      (if target < t.files.length then some (target, new) else none) = some (f, tree) ∨
        ((∀ next, (if target < t.files.length then some (target, new) else none) ≠ some (f, next)) ∧
          t.tree? f = some tree) := by
    intro target new
    rw [tree?_setTree]
    by_cases hf : f = target
    · subst hf
      by_cases hlt : f < t.files.length
      · simp [hlt]
      · simp [hlt]
    · by_cases hlt : target < t.files.length
      · simp [hf, hlt, Ne.symm hf]
      · simp [hf, hlt]
  cases c with
  | addModule name =>
    constructor
    · intro h
      exact .inr ⟨fun next => nofun, h⟩
    · rintro (h | ⟨_, h⟩)
      · cases h
      · exact h
  | addFile uri group first =>
    change (t.addFile uri group first).2.tree? f = some tree ↔
      some (t.files.length, some first) = some (f, tree) ∨
        ((∀ next, some (t.files.length, some first) ≠ some (f, next)) ∧ t.tree? f = some tree)
    rw [tree?_addFile]
    by_cases hf : f = t.files.length
    · simp [hf]
    · simp [hf, Ne.symm hf]
  | replaceTree file new => exact hset file (some new)
  | invalidate file => exact hset file none

end FileTable

namespace History

variable {h : History} {c : Change} {f : FileId} {tree : Option Tree}

theorem concat_eq_split_iff {before later : History} {change : Change} :
    h ++ [c] = before ++ change :: later ↔ (later = [] ∧ h = before ∧ c = change) ∨
      ∃ rest, later = rest ++ [c] ∧ h = before ++ change :: rest := by
  constructor
  · intro hsplit
    rcases List.eq_nil_or_concat' later with rfl | ⟨rest, last, rfl⟩
    · obtain ⟨hh, hc⟩ := List.append_inj' hsplit rfl
      exact .inl ⟨rfl, hh, List.head_eq_of_cons_eq hc⟩
    · rw [← List.cons_append, ← List.append_assoc] at hsplit
      obtain ⟨hh, hc⟩ := List.append_inj' hsplit rfl
      cases hc
      exact .inr ⟨rest, rfl, hh⟩
  · rintro (⟨rfl, rfl, rfl⟩ | ⟨rest, rfl, rfl⟩)
    · rfl
    · rw [List.append_assoc, List.cons_append]

theorem lastSets_concat : LastSets (h ++ [c]) f tree ↔ c.sets? (files h).length = some (f, tree) ∨
    ((∀ next, c.sets? (files h).length ≠ some (f, next)) ∧ h.LastSets f tree) := by
  constructor
  · rintro ⟨before, change, later, hsplit, hset, hlast⟩
    rcases concat_eq_split_iff.mp hsplit with ⟨_, rfl, rfl⟩ | ⟨rest, rfl, rfl⟩
    · exact .inl hset
    · refine .inr ⟨hlast rest c [] rfl, before, change, rest, rfl, hset, ?_⟩
      rintro between other rest rfl
      exact hlast between other (rest ++ [c]) (List.append_assoc _ _ _)
  · rintro (hset | ⟨hkeep, before, change, later, rfl, hset, hlast⟩)
    · refine ⟨h, c, [], rfl, hset, ?_⟩
      intro between other rest hnil
      exact absurd hnil (by simp)
    · refine ⟨before, change, later ++ [c], by simp, hset, ?_⟩
      intro between other rest hsplit
      rcases concat_eq_split_iff.mp hsplit with ⟨_, rfl, rfl⟩ | ⟨rest, _, rfl⟩
      · exact hkeep
      · exact hlast between other rest rfl

theorem files_concat (h : History) (c : Change) :
    files (h ++ [c]) = h.files ++ c.registration?.toList := by
  unfold files
  rw [List.filterMap_append]
  cases c <;> rfl

theorem modules_concat (h : History) (c : Change) :
    modules (h ++ [c]) = h.modules ++ c.moduleName?.toList := by
  unfold modules
  rw [List.filterMap_append]
  cases c <;> rfl

end History

namespace FileTable

variable {t : FileTable} {h : History} {c : Change} {f g : FileId} {source : Source}

theorem registrations_after (h : History) : (after h).files.map Entry.registration = h.files := by
  induction h using List.reverseRecOn with
  | nil => rfl
  | append_singleton h c ih => rw [after_concat, registrations_apply, ih, History.files_concat]

theorem modules_after (h : History) : (after h).modules = h.modules := by
  induction h using List.reverseRecOn with
  | nil => rfl
  | append_singleton h c ih => rw [after_concat, modules_apply, ih, History.modules_concat]

theorem length_after (h : History) : (after h).files.length = h.files.length := by
  rw [← registrations_after, List.length_map]

theorem tree?_after (h : History) (f : FileId) (tree : Option Tree) :
    (after h).tree? f = some tree ↔ h.LastSets f tree := by
  induction h using List.reverseRecOn with
  | nil =>
    constructor
    · intro hnone
      cases hnone
    · rintro ⟨before, change, later, hnil, _⟩
      exact absurd hnil (by simp)
  | append_singleton h c ih =>
    rw [after_concat, tree?_apply, length_after, ih, History.lastSets_concat]

theorem uri?_eq (t : FileTable) (f : FileId) :
    t.uri? f = (t.files.map Entry.registration)[f]?.map (·.uri) := by
  rw [List.getElem?_map, Option.map_map]
  rfl

theorem moduleOf?_eq (t : FileTable) (f : FileId) :
    t.moduleOf? f = (t.files.map Entry.registration)[f]?.bind (·.group) := by
  rw [List.getElem?_map, Option.bind_map]
  rfl

/-- A snapshot is known by its tree, for its handle and its uri are those of the entry. -/
theorem Sound.source?_eq_some_iff (hsound : t.Sound) : t.source? f = some source ↔
    source.id = f ∧ t.uri? f = some source.uri ∧ t.tree? f = some (some source.tree) := by
  unfold source? uri? tree?
  cases hentry : t.files[f]? with
  | none => simp
  | some entry =>
    cases hstored : entry.source with
    | none => simp [Entry.tree?, hstored]
    | some stored =>
      obtain ⟨hid, huri⟩ := hsound f entry stored hentry hstored
      obtain ⟨id, uri, tree⟩ := source
      obtain ⟨_, _, _⟩ := stored
      cases hid
      cases huri
      simp [Entry.tree?, hstored, eq_comm]

theorem source?_eq_none_iff : t.source? f = none ↔ t.files.length ≤ f ∨ t.tree? f = some none := by
  unfold source? tree?
  rw [← List.getElem?_eq_none_iff]
  cases t.files[f]? with
  | none => simp
  | some entry => simp [Entry.tree?]

theorem after_shows (h : History) : (after h).Shows h where
  size := length_after h
  moduleName group := by rw [moduleName?, modules_after]
  uri f := by rw [uri?_eq, registrations_after]
  moduleOf f := by rw [moduleOf?_eq, registrations_after]
  source f source := by rw [(sound_after h).source?_eq_some_iff, tree?_after]
  noSource f := by rw [source?_eq_none_iff, tree?_after, length_after]
  ofModule group := by
    refine ⟨filesIn_pairwise _ _, ?_⟩
    intro f
    rw [mem_filesIn, ← moduleOf?_eq_some_iff, moduleOf?_eq, registrations_after,
      Option.bind_eq_some_iff]
  project := by rw [filesIn, length_after]

theorem moduleOf?_setTree (t : FileTable) (f : FileId) (tree : Option Tree) :
    (t.setTree f tree).2.moduleOf? = t.moduleOf? := by
  funext g
  rw [moduleOf?_eq, moduleOf?_eq, registrations_setTree]

theorem filesIn_setTree (t : FileTable) (f : FileId) (tree : Option Tree) (scope : ContentScope) :
    (t.setTree f tree).2.filesIn scope = t.filesIn scope := by
  have hmodule := moduleOf?_setTree t f tree
  cases scope with
  | ofModule group => rw [filesIn, filesIn, hmodule, setTree_length]
  | project => rw [filesIn, filesIn, setTree_length]

theorem after_responds (h : History) : (after h).Responds h where
  addModule name := by
    change Change.Answer.group (after h).modules.length = _
    rw [modules_after]
  addFile uri group tree := by
    change Change.Answer.file (after h).files.length = _
    rw [length_after]
  known c f hc := by
    obtain ⟨tree, happly⟩ := apply_of_target? hc
    rw [happly, length_after]
  unknown c f hc hf := by
    obtain ⟨tree, happly⟩ := apply_of_target? hc
    rw [← length_after] at hf
    rw [happly, setTree_of_length_le hf]
  kept later f hf := by
    have hfiles : (History.files (h ++ later))[f]? = h.files[f]? := by
      unfold History.files at hf ⊢
      rw [List.filterMap_append, List.getElem?_append_left hf]
    rw [uri?_eq, uri?_eq, moduleOf?_eq, moduleOf?_eq, registrations_after, registrations_after,
      hfiles]
    exact ⟨rfl, rfl⟩
  listed c f scope hc := by
    obtain ⟨tree, happly⟩ := apply_of_target? hc
    rw [happly, filesIn_setTree]
  commute c d f g hc hd hne := by
    obtain ⟨first, hfirst⟩ := apply_of_target? hc
    obtain ⟨second, hsecond⟩ := apply_of_target? hd
    simp only [hfirst, hsecond, setTree_length, and_true]
    exact setTree_comm _ first second hne

/-- Every table that changes can lead to shows what its history says, and answers by it. -/
theorem after_follows_history (h : History) : (after h).Shows h ∧ (after h).Responds h :=
  ⟨after_shows h, after_responds h⟩

end FileTable

end KNames
