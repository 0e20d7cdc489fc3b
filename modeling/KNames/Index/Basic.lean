import KNames.Tree.Basic

set_option autoImplicit false

namespace KNames

inductive ContentScope where
  | ofModule (group : ModuleId)
  | project
deriving DecidableEq, Repr

structure FileIndex where
  /-- Nothing for a handle without a live tree. -/
  source? : FileId → Option Source
  filesIn : ContentScope → List FileId
  moduleOf? : FileId → Option ModuleId
  scopeOf : ModuleId → ContentScope

namespace FileIndex

def sources (index : FileIndex) : List Source := (index.filesIn .project).filterMap index.source?

end FileIndex

end KNames
