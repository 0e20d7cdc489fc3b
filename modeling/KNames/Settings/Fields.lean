import KNames.Decoding.Record
import KNames.Settings.Basic

set_option autoImplicit false

namespace KNames.Settings

open Decoding

def importScopeKey : String := "import-scope"

def labelSeparatorKey : String := "label-separator"

def recordName : String := "ResolverConfig"

def defaulted {V ε α : Type} (name : String) (read : V → Except ε α) (default : α) :
    Record V ε α :=
  .field name read (.ok default) fun _ => .ok default

def fields {V ε : Type} (scope : V → Except ε ImportScope) (separator : V → Except ε Char) :
    Record V ε Settings :=
  let unset : Settings := {}
  ((defaulted importScopeKey scope unset.importScope).both
    (defaulted labelSeparatorKey separator unset.labelSeparator)).map fun f => ⟨f.1, f.2⟩

end KNames.Settings
