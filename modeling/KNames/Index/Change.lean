import KNames.Index.Table

set_option autoImplicit false

namespace KNames

inductive Change where
  | addModule (name : String)
  | addFile (uri : String) (group : Option ModuleId) (tree : Tree)
  | replaceTree (file : FileId) (tree : Tree)
  | invalidate (file : FileId)
deriving DecidableEq, Repr

namespace Change

inductive Answer where
  | group (id : ModuleId)
  | file (id : FileId)
  | known (registered : Bool)
deriving DecidableEq, Repr

/-- The file that must be registered already. -/
def target? : Change → Option FileId
  | replaceTree file _ | invalidate file => some file
  | addModule _ | addFile .. => none

end Change

abbrev History := List Change

namespace FileTable

def apply (t : FileTable) : Change → Change.Answer × FileTable
  | .addModule name => ((.group (t.addModule name).1), (t.addModule name).2)
  | .addFile uri group tree => (.file (t.addFile uri group tree).1, (t.addFile uri group tree).2)
  | .replaceTree file tree => (.known (t.replaceTree file tree).1, (t.replaceTree file tree).2)
  | .invalidate file => (.known (t.invalidate file).1, (t.invalidate file).2)

def run (t : FileTable) (changes : List Change) : FileTable :=
  changes.foldl (fun t change => (t.apply change).2) t

def after (history : History) : FileTable := empty.run history

theorem after_concat (h : History) (c : Change) : after (h ++ [c]) = ((after h).apply c).2 :=
  List.foldl_append

end FileTable

end KNames
