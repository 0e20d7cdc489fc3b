import KNames.Tree.Kind

set_option autoImplicit false

namespace KNames.Layout

def past (start length : Nat) : Nat := start + length + 1

def pastName (start : Nat) (name : String) : Nat := past start name.utf8ByteSize

def pastNames (start : Nat) (names : List String) : Nat := names.foldl pastName start

def identAt (name : String) (start : Nat) : Ident := ⟨name, ⟨start, start + name.utf8ByteSize⟩⟩

def idents : Nat → List String → List Ident
  | _, [] => []
  | start, name :: names => identAt name start :: idents (pastName start name) names

end KNames.Layout
