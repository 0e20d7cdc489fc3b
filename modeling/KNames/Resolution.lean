import KNames.Lookup

set_option autoImplicit false

namespace KNames

structure Resolution where
  declaration : Option Declaration
deriving DecidableEq, Repr, Inhabited

namespace Resolution

def unresolved : Resolution := ⟨none⟩

def resolved (d : Declaration) : Resolution := ⟨some d⟩

def isResolved (r : Resolution) : Bool := r.declaration.isSome

def size (r : Resolution) : Nat := if r.isResolved then 1 else 0

def isEmpty (r : Resolution) : Bool := !r.isResolved

end Resolution

structure Resolver where
  index : FileIndex
  settings : Settings := {}

namespace Resolver

def miss (o : Occurrence) (reason : Miss) : Traced Resolution :=
  .reporting (.unresolved o.reference o.file o.node reason) .unresolved

def conclude (o : Occurrence) (space : SearchSpace) : Option Declaration → Traced Resolution
  | some d => .reporting (.resolved o.reference space.label d.file d.node) (.resolved d)
  | none => miss o .noMatch

def searchIn (r : Resolver) (o : Occurrence) (space : SearchSpace) : Traced Resolution :=
  if space.isEmpty then miss o .noScope
  else
    (Lookup.firstMatch r.index space (o.reference.candidates r.settings) o.reference.target).andThen
      (conclude o space)

def resolve (r : Resolver) (o : Occurrence) : Traced Resolution :=
  match r.index.source? o.file with
  | none => miss o .staleHandle
  | some source =>
    (SearchSpace.ofReference r.index r.settings source o.node o.reference).andThen (r.searchIn o)

def resolveMany (r : Resolver) : List Occurrence → Traced (List Resolution)
  | [] => .silent []
  | o :: os =>
    (r.resolve o).andThen fun first =>
      (r.resolveMany os).andThen fun others => .silent (first :: others)

def searchSpace? (r : Resolver) (o : Occurrence) : Traced (Option SearchSpace) :=
  match r.index.source? o.file with
  | none => .silent none
  | some source =>
    (SearchSpace.ofReference r.index r.settings source o.node o.reference).andThen
      fun space => .silent (some space)

end Resolver

end KNames
