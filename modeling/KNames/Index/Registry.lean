import KNames.Index.Change

set_option autoImplicit false

/-!
# Registries

A registry is a file table in which each snapshot carries the handle and the uri of the entry that
keeps it. Every change keeps it so, and so every history leads to a registry.
-/
namespace KNames

namespace FileTable

variable {t : FileTable}

def Sound (t : FileTable) : Prop :=
  ∀ (f : FileId) (entry : Entry) (source : Source), t.files[f]? = some entry →
    entry.source = some source → source.id = f ∧ source.uri = entry.uri

theorem sound_empty : empty.Sound := nofun

theorem Sound.addModule (h : t.Sound) (name : String) : (t.addModule name).2.Sound := h

theorem Sound.addFile (h : t.Sound) (uri : String) (group : Option ModuleId) (tree : Tree) :
    (t.addFile uri group tree).2.Sound := by
  intro f entry source hentry hsource
  rw [getElem?_addFile] at hentry
  split at hentry
  · cases hentry
    cases hsource
    exact ⟨rfl, rfl⟩
  · exact h f entry source hentry hsource

theorem Sound.setTree (h : t.Sound) (file : FileId) (tree : Option Tree) :
    (t.setTree file tree).2.Sound := by
  intro f entry source hentry hsource
  rw [getElem?_setTree] at hentry
  split at hentry
  · obtain ⟨old, _, rfl⟩ := Option.map_eq_some_iff.mp hentry
    obtain ⟨tree, _, rfl⟩ := Option.map_eq_some_iff.mp hsource
    exact ⟨rfl, rfl⟩
  · exact h f entry source hentry hsource

theorem Sound.apply (h : t.Sound) (c : Change) : (t.apply c).2.Sound := by
  cases c with
  | addModule name => exact h.addModule name
  | addFile uri group tree => exact h.addFile uri group tree
  | replaceTree file tree => exact h.setTree file (some tree)
  | invalidate file => exact h.setTree file none

theorem Sound.run (h : t.Sound) (changes : List Change) : (t.run changes).Sound := by
  induction changes generalizing t with
  | nil => exact h
  | cons c changes ih => exact ih (h.apply c)

theorem sound_after (h : History) : (after h).Sound := sound_empty.run h

end FileTable

structure Registry extends FileTable where
  sound : toFileTable.Sound

namespace Registry

theorem eq_of_toFileTable {r s : Registry} (h : r.toFileTable = s.toFileTable) : r = s := by
  cases r
  cases s
  cases h
  rfl

def empty : Registry := ⟨.empty, FileTable.sound_empty⟩

def addModule (r : Registry) (name : String) : ModuleId × Registry :=
  ((r.toFileTable.addModule name).1,
    ⟨(r.toFileTable.addModule name).2, r.sound.addModule name⟩)

def addFile (r : Registry) (uri : String) (group : Option ModuleId) (tree : Tree) :
    FileId × Registry :=
  ((r.toFileTable.addFile uri group tree).1,
    ⟨(r.toFileTable.addFile uri group tree).2, r.sound.addFile uri group tree⟩)

def setTree (r : Registry) (file : FileId) (tree : Option Tree) : Bool × Registry :=
  ((r.toFileTable.setTree file tree).1,
    ⟨(r.toFileTable.setTree file tree).2, r.sound.setTree file tree⟩)

def replaceTree (r : Registry) (file : FileId) (tree : Tree) : Bool × Registry :=
  r.setTree file (some tree)

def invalidate (r : Registry) (file : FileId) : Bool × Registry := r.setTree file none

def apply (r : Registry) (c : Change) : Change.Answer × Registry :=
  ((r.toFileTable.apply c).1, ⟨(r.toFileTable.apply c).2, r.sound.apply c⟩)

def after (history : History) : Registry := ⟨FileTable.after history, FileTable.sound_after history⟩

theorem after_concat (h : History) (c : Change) : after (h ++ [c]) = ((after h).apply c).2 :=
  eq_of_toFileTable (FileTable.after_concat h c)

end Registry

end KNames
