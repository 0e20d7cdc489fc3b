set_option autoImplicit false

namespace KNames

inductive ImportScope where
  /-- A file without `require` is searched alone, even when other files require it. -/
  | fileWhenNoRequires
  /-- As above, except that a file required by another of its module is searched module-wide. -/
  | moduleWhenRequiredBy
deriving DecidableEq, Repr, Inhabited

namespace ImportScope

def name : ImportScope → String
  | fileWhenNoRequires => "file-when-no-requires"
  | moduleWhenRequiredBy => "module-when-required-by"

def names : List String := [fileWhenNoRequires.name, moduleWhenRequiredBy.name]

def ofName? (name : String) : Option ImportScope :=
  if name = fileWhenNoRequires.name then some fileWhenNoRequires
  else if name = moduleWhenRequiredBy.name then some moduleWhenRequiredBy
  else none

theorem ofName?_name (s : ImportScope) : ofName? s.name = some s := by
  cases s
  · exact if_pos rfl
  · exact (if_neg (by decide)).trans (if_pos rfl)

end ImportScope

structure Settings where
  importScope : ImportScope := .fileWhenNoRequires
  labelSeparator : Char := '\x60'
deriving DecidableEq, Repr, Inhabited

end KNames
