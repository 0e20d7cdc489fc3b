import KNames.Index.Basic

set_option autoImplicit false

/-!
# The table of files and modules

Files and modules are numbered as they come and are never removed. A file whose tree has been
dropped stays listed, without a snapshot, until it gets a new tree.
-/
namespace KNames

structure Entry where
  uri : String
  group : Option ModuleId
  /-- Missing while the file is stale. -/
  source : Option Source
deriving DecidableEq, Repr

def Entry.withTree (entry : Entry) (file : FileId) (tree : Option Tree) : Entry :=
  { entry with source := tree.map fun tree => ⟨file, entry.uri, tree⟩ }

structure FileTable where
  files : List Entry
  modules : List String
deriving DecidableEq, Repr

namespace FileTable

def empty : FileTable := ⟨[], []⟩

def addModule (t : FileTable) (name : String) : ModuleId × FileTable :=
  (t.modules.length, { t with modules := t.modules ++ [name] })

/-- The module need not be registered. -/
def addFile (t : FileTable) (uri : String) (group : Option ModuleId) (tree : Tree) :
    FileId × FileTable :=
  let file := t.files.length
  (file, { t with files := t.files ++ [⟨uri, group, some ⟨file, uri, tree⟩⟩] })

/-- Sets the tree of a registered file; says whether there is such a file. -/
def setTree (t : FileTable) (file : FileId) (tree : Option Tree) : Bool × FileTable :=
  (decide (file < t.files.length),
    { t with files := t.files.modify file fun entry => entry.withTree file tree })

def replaceTree (t : FileTable) (file : FileId) (tree : Tree) : Bool × FileTable :=
  t.setTree file (some tree)

def invalidate (t : FileTable) (file : FileId) : Bool × FileTable := t.setTree file none

def moduleName? (t : FileTable) (group : ModuleId) : Option String := t.modules[group]?

def uri? (t : FileTable) (file : FileId) : Option String := t.files[file]?.map (·.uri)

def size (t : FileTable) : Nat := t.files.length

def isEmpty (t : FileTable) : Bool := t.files.isEmpty

def source? (t : FileTable) (file : FileId) : Option Source := t.files[file]?.bind (·.source)

def moduleOf? (t : FileTable) (file : FileId) : Option ModuleId := t.files[file]?.bind (·.group)

/-- Stale files are listed too. -/
def filesIn (t : FileTable) : ContentScope → List FileId
  | .ofModule group => (List.range t.files.length).filter fun file => t.moduleOf? file == some group
  | .project => List.range t.files.length

def index (t : FileTable) : FileIndex := ⟨t.source?, t.filesIn, t.moduleOf?, .ofModule⟩

theorem getElem?_addFile (t : FileTable) (uri : String) (group : Option ModuleId) (tree : Tree)
    (g : FileId) : (t.addFile uri group tree).2.files[g]? =
      if g = t.files.length then some ⟨uri, group, some ⟨g, uri, tree⟩⟩ else t.files[g]? := by
  change (t.files ++ [⟨uri, group, some ⟨t.files.length, uri, tree⟩⟩])[g]? = _
  split
  · rename_i hg
    rw [hg, List.getElem?_concat_length]
  · rename_i hg
    rcases Nat.lt_or_gt_of_ne hg with hlt | hgt
    · exact List.getElem?_append_left hlt
    · rw [List.getElem?_eq_none (Nat.le_of_lt hgt), List.getElem?_eq_none]
      rwa [List.length_append]

theorem getElem?_setTree (t : FileTable) (f g : FileId) (tree : Option Tree) :
    (t.setTree f tree).2.files[g]? =
      if f = g then t.files[g]?.map (·.withTree g tree) else t.files[g]? := by
  unfold setTree
  rw [List.getElem?_modify]
  split
  · rename_i hf
    rw [hf]
    rfl
  · exact Option.map_id' 

end FileTable

end KNames
