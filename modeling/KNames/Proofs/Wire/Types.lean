import KNames.Proofs.Wire.Primitive
import KNames.Wire.Types

set_option autoImplicit false

namespace KNames

open Wire

structure Span.InRange (s : Span) : Prop where
  start : Wire.InRange s.start
  stop : Wire.InRange s.stop

structure Declaration.InRange (d : Declaration) : Prop where
  file : Wire.InRange d.file
  node : Wire.InRange d.node
  span : d.span.InRange

structure Occurrence.InRange (o : Occurrence) : Prop where
  file : Wire.InRange o.file
  node : Wire.InRange o.node

def Resolution.InRange (r : Resolution) : Prop := ∀ d ∈ r.declaration, d.InRange

theorem Span.lossless : Lossless Span.InRange Span.encode Span.decode := by
  have hparts := (number_lossless.required "Span" "start" 2).both
    (number_lossless.required "Span" "end" 2)
  have hfields : Carries Span.InRange _ Span.fields :=
    hparts.map (fun s : Span => (s.start, s.stop)) (fun _ => rfl)
      (fun _ h => ⟨h.start, h.stop⟩) (fun _ h => ⟨h.1, h.2⟩)
  refine hfields.record "Span" fun s => ?_
  change ["start", "end"].Nodup
  decide

theorem DeclKind.ofName?_name (kind : DeclKind) : ofName? kind.name = some kind := by
  cases kind <;> rfl

theorem DeclKind.lossless : Lossless (fun _ => True) DeclKind.encode DeclKind.decode :=
  plainVariant_lossless DeclKind.ofName?_name

theorem Declaration.lossless :
    Lossless Declaration.InRange Declaration.encode Declaration.decode := by
  have hparts := (number_lossless.required "Declaration" "file" 5).both
    ((number_lossless.required "Declaration" "node" 5).both
      ((DeclKind.lossless.required "Declaration" "kind" 5).both
        ((Span.lossless.required "Declaration" "span" 5).both
          (string_lossless.ofList.required "Declaration" "names" 5))))
  have hfields : Carries Declaration.InRange _ Declaration.fields :=
    hparts.map (fun d : Declaration => (d.file, d.node, d.kind, d.span, d.names)) (fun _ => rfl)
      (fun _ h => ⟨h.file, h.node, trivial, h.span, fun _ _ => trivial⟩)
      (fun _ ⟨hfile, hnode, _, hspan, _⟩ => ⟨hfile, hnode, hspan⟩)
  refine hfields.record "Declaration" fun d => ?_
  change ["file", "node", "kind", "span", "names"].Nodup
  decide

theorem Reference.lossless : Lossless (fun _ => True) Reference.encode Reference.decode := by
  refine ⟨?_, ?_, ?_⟩
  · intro r _
    exact .object (List.forall_mem_singleton.mpr (.string r.raw))
  · intro r _
    cases r <;> rfl
  · intro _ _ _
    trivial

theorem Occurrence.lossless : Lossless Occurrence.InRange Occurrence.encode Occurrence.decode := by
  have hparts := (number_lossless.required "ReferenceOccurrence" "file" 3).both
    ((number_lossless.required "ReferenceOccurrence" "node" 3).both
      (Reference.lossless.required "ReferenceOccurrence" "reference" 3))
  have hfields : Carries Occurrence.InRange _ Occurrence.fields :=
    hparts.map (fun o : Occurrence => (o.file, o.node, o.reference)) (fun _ => rfl)
      (fun _ h => ⟨h.file, h.node, trivial⟩) (fun _ ⟨hfile, hnode, _⟩ => ⟨hfile, hnode⟩)
  refine hfields.record "ReferenceOccurrence" fun o => ?_
  change ["file", "node", "reference"].Nodup
  decide

theorem ImportScope.lossless : Lossless (fun _ => True) ImportScope.encode ImportScope.decode :=
  plainVariant_lossless ImportScope.ofName?_name

theorem Settings.defaulted_carries {α : Type} {encode : α → Json} {decode : Decoder α}
    (h : Lossless (fun _ => True) encode decode) (name : String) (default : α) :
    Carries (fun _ => True) (fun a => [(name, encode a)]) (defaulted name decode default) :=
  h.carries name (fun _ _ => trivial) (fun _ _ _ => trivial)

theorem Settings.lossless : Lossless (fun _ => True) Settings.encode Settings.decode := by
  let unset : Settings := {}
  have hparts := (defaulted_carries ImportScope.lossless importScopeKey unset.importScope).both
    (defaulted_carries character_lossless labelSeparatorKey unset.labelSeparator)
  have hfields : Carries (fun _ => True) _ (fields ImportScope.decode character) :=
    hparts.map (fun s : Settings => (s.importScope, s.labelSeparator)) (fun _ => rfl)
      (fun _ _ => ⟨trivial, trivial⟩) (fun _ _ => trivial)
  refine hfields.record recordName fun s => ?_
  change [importScopeKey, labelSeparatorKey].Nodup
  decide

theorem Resolution.lossless : Lossless Resolution.InRange Resolution.encode Resolution.decode := by
  have hnull : ∀ d : Declaration, d.encode ≠ .null := by
    rintro d ⟨⟩
  have hpart : Carries (fun o : Option Declaration => ∀ d ∈ o, d.InRange)
      (fun o => [("declaration", (o.map (·.encode)).getD .null)])
      (.field "declaration" (optional Declaration.decode) (.ok none)
        fun i => .error (.invalidLength i (recordShape "ResolutionResult" 1))) := by
    refine (Declaration.lossless.ofOptional hnull).carries "declaration" ?_ ?_
    · rintro _ ⟨⟩ _ ⟨⟩
    · rintro _ _ ⟨⟩
  have hfields : Carries Resolution.InRange _ Resolution.fields :=
    hpart.map (fun r : Resolution => r.declaration) (fun _ => rfl) (fun _ h => h) (fun _ h => h)
  refine hfields.record "ResolutionResult" fun r => ?_
  change ["declaration"].Nodup
  decide

theorem Wire.types_roundTrip :
    RoundTrip Span.InRange Span.encode Span.decode ∧
      RoundTrip Wire.InRange (fun node : NodeId => .integer node) number ∧
      RoundTrip Wire.InRange (fun file : FileId => .integer file) number ∧
      RoundTrip Wire.InRange (fun group : ModuleId => .integer group) number ∧
      RoundTrip (fun _ => True) DeclKind.encode DeclKind.decode ∧
      RoundTrip Declaration.InRange Declaration.encode Declaration.decode ∧
      RoundTrip (fun _ => True) Reference.encode Reference.decode ∧
      RoundTrip Occurrence.InRange Occurrence.encode Occurrence.decode ∧
      RoundTrip (fun _ => True) ImportScope.encode ImportScope.decode ∧
      RoundTrip (fun _ => True) Settings.encode Settings.decode ∧
      RoundTrip Resolution.InRange Resolution.encode Resolution.decode :=
  ⟨Span.lossless.roundTrip, number_lossless.roundTrip, number_lossless.roundTrip,
    number_lossless.roundTrip, DeclKind.lossless.roundTrip, Declaration.lossless.roundTrip,
    Reference.lossless.roundTrip, Occurrence.lossless.roundTrip, ImportScope.lossless.roundTrip,
    Settings.lossless.roundTrip, Resolution.lossless.roundTrip⟩

end KNames
