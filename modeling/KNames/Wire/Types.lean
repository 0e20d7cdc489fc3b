import KNames.Resolution
import KNames.Settings.Fields
import KNames.Wire.Primitive

set_option autoImplicit false

namespace KNames

open Decoding Wire

namespace Span

def encode (s : Span) : Json := .object [("start", .integer s.start), ("end", .integer s.stop)]

def fields : Record Json Fault Span :=
  ((required "Span" 2 "start" number).both (required "Span" 2 "end" number)).map
    fun f => ⟨f.1, f.2⟩

def decode : Decoder Span := Wire.record "Span" fields

end Span

namespace DeclKind

def name : DeclKind → String
  | var => "Variable"
  | production => "Production"
  | label => "Label"
  | sort => "Sort"

def all : List DeclKind := [var, production, label, sort]

def ofName? (name : String) : Option DeclKind := all.find? (·.name == name)

def encode (kind : DeclKind) : Json := .string kind.name

def decode : Decoder DeclKind := plainVariant (all.map name) ofName?

end DeclKind

namespace Declaration

def encode (d : Declaration) : Json :=
  .object [("file", .integer d.file), ("node", .integer d.node), ("kind", d.kind.encode),
    ("span", d.span.encode), ("names", .array (d.names.map .string))]

def fields : Record Json Fault Declaration :=
  ((required "Declaration" 5 "file" number).both
    ((required "Declaration" 5 "node" number).both
      ((required "Declaration" 5 "kind" DeclKind.decode).both
        ((required "Declaration" 5 "span" Span.decode).both
          (required "Declaration" 5 "names" (list string)))))).map
    fun f => ⟨f.1, f.2.1, f.2.2.1, f.2.2.2.1, f.2.2.2.2⟩

def decode : Decoder Declaration := Wire.record "Declaration" fields

end Declaration

namespace Reference

def tag : Reference → String
  | var _ => "Variable"
  | function _ => "AuxFunction"
  | label _ => "Label"
  | sort _ => "SortSyntax"

def variants : List (String × (String → Reference)) :=
  [((var "").tag, var), ((function "").tag, function), ((label "").tag, label),
    ((sort "").tag, sort)]

def encode (r : Reference) : Json := .object [(r.tag, .string r.raw)]

def decode : Decoder Reference := fun j => do
  let (tag, value) ← variant j
  match variants.lookup tag with
  | none => .error (.unknownVariant tag (variants.map (·.1)))
  | some make => (payload string value).map make

end Reference

namespace Occurrence

def encode (o : Occurrence) : Json :=
  .object [("file", .integer o.file), ("node", .integer o.node),
    ("reference", o.reference.encode)]

def fields : Record Json Fault Occurrence :=
  ((required "ReferenceOccurrence" 3 "file" number).both
    ((required "ReferenceOccurrence" 3 "node" number).both
      (required "ReferenceOccurrence" 3 "reference" Reference.decode))).map
    fun f => ⟨f.1, f.2.1, f.2.2⟩

def decode : Decoder Occurrence := Wire.record "ReferenceOccurrence" fields

end Occurrence

namespace ImportScope

def encode (scope : ImportScope) : Json := .string scope.name

def decode : Decoder ImportScope := plainVariant names ofName?

end ImportScope

namespace Settings

def encode (s : Settings) : Json :=
  .object [(importScopeKey, s.importScope.encode),
    (labelSeparatorKey, .string (String.ofList [s.labelSeparator]))]

def decode : Decoder Settings := Wire.record recordName (fields ImportScope.decode character)

end Settings

namespace Resolution

def encode (r : Resolution) : Json :=
  .object [("declaration", (r.declaration.map (·.encode)).getD .null)]

/-- In an object the declaration may be missing, in an array it may not. -/
def fields : Record Json Fault Resolution :=
  (Record.field "declaration" (optional Declaration.decode) (.ok none)
    fun i => .error (.invalidLength i (recordShape "ResolutionResult" 1))).map (⟨·⟩)

def decode : Decoder Resolution := Wire.record "ResolutionResult" fields

end Resolution

end KNames
