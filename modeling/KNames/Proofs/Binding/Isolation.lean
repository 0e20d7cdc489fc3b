import KNames.Proofs.Binding.Agreement
import KNames.Proofs.Binding.Repeats
import KNames.Proofs.Frame

set_option autoImplicit false

namespace KNames.Registry

open FileTable

variable {r s t : Registry} {settings : Settings} {source : Source} {o : Occurrence} {f : FileId}
  {c : Change} {reference : Reference}

/-- The change is about another file, which is in no module of this one when it is made. -/
structure Apart (r : Registry) (c : Change) (f : FileId) : Prop where
  other : c.subject? r.files.length ≠ some f
  outside : ∀ g group, c.subject? r.files.length = some g → r.Registered f group →
    ¬(r.apply c).2.Registered g group

theorem Apart.getElem?_eq (h : r.Apart c f) {group : ModuleId} (hf : r.Registered f group)
    {g : FileId} (hg : r.Registered g group) : (r.apply c).2.files[g]? = r.files[g]? := by
  refine getElem?_apply fun hsubject => ?_
  exact h.outside g group hsubject hf (hg.apply c)

theorem SameFrom.refl (r : Registry) (f : FileId) : SameFrom r r f where
  source := rfl
  group _ := Iff.rfl
  members _ _ _ := Iff.rfl
  asks _ _ _ _ _ := Iff.rfl
  declares _ _ _ _ _ := Iff.rfl

theorem SameFrom.trans (h : SameFrom r s f) (h' : SameFrom s t f) : SameFrom r t f where
  source := h'.source.trans h.source
  group group := (h'.group group).trans (h.group group)
  members group hf g :=
    (h'.members group ((h.group group).mpr hf) g).trans (h.members group hf g)
  asks group hf g hg path :=
    (h'.asks group ((h.group group).mpr hf) g ((h.members group hf g).mpr hg) path).trans
      (h.asks group hf g hg path)
  declares group hf d hd kind :=
    (h'.declares group ((h.group group).mpr hf) d ((h.members group hf d.file).mpr hd) kind).trans
      (h.declares group hf d hd kind)

theorem Apart.sameFrom (h : r.Apart c f) : SameFrom r (r.apply c).2 f where
  source := source?_congr (getElem?_apply h.other)
  group := registered_congr (getElem?_apply h.other)
  members group hf g := by
    by_cases hsubject : c.subject? r.files.length = some g
    · have hout := h.outside g group hsubject hf
      exact ⟨fun hg => absurd hg hout, fun hg => absurd (hg.apply c) hout⟩
    · exact registered_congr (getElem?_apply hsubject) group
  asks group hf g hg path := by
    unfold Asks
    rw [source?_congr (h.getElem?_eq hf hg)]
  declares group hf d hd kind := by
    unfold Declares
    rw [source?_congr (h.getElem?_eq hf hd)]

theorem sameFrom_after (h later : History)
    (hlater : ∀ before c rest, later = before ++ c :: rest → (after (h ++ before)).Apart c f) :
    SameFrom (after h) (after (h ++ later)) f := by
  induction later using List.reverseRecOn with
  | nil =>
    rw [List.append_nil]
    exact SameFrom.refl _ f
  | append_singleton later c ih =>
    have hbefore : SameFrom (after h) (after (h ++ later)) f := by
      refine ih fun before c' rest hsplit => ?_
      rw [hsplit] at hlater
      exact hlater before c' (rest ++ [c]) (by simp)
    rw [← List.append_assoc, after_concat]
    exact hbefore.trans (hlater later c [] rfl).sameFrom

theorem resolve_after_apart (h later : History)
    (hlater : ∀ before c rest, later = before ++ c :: rest → (after (h ++ before)).Apart c f)
    (settings : Settings) (node : NodeId) (reference : Reference) :
    ((Resolver.mk (after (h ++ later)).index settings).resolve ⟨f, node, reference⟩).value =
      ((Resolver.mk (after h).index settings).resolve ⟨f, node, reference⟩).value :=
  ((sameFrom_after h later hlater).resolve_eq settings node reference).1

theorem not_moduleWide (hpolicy : settings.importScope = .fileWhenNoRequires)
    (hnone : ¬∃ path, source.tree.Requires path) :
    ¬∃ group, r.ModuleWide settings source group := by
  rintro ⟨group, _, hpath | ⟨hrequired, _⟩⟩
  · exact hnone hpath
  · rw [hpolicy] at hrequired
    cases hrequired

theorem resolve_of_narrow (hr : r.source? f = some source) (hs : s.source? f = some source)
    (hvar : ∀ x, reference ≠ .var x) (hrn : ¬∃ group, r.ModuleWide settings source group)
    (hsn : ¬∃ group, s.ModuleWide settings source group) (node : NodeId) :
    ((Resolver.mk s.index settings).resolve ⟨f, node, reference⟩).value =
      ((Resolver.mk r.index settings).resolve ⟨f, node, reference⟩).value := by
  apply Resolution.ext
  rw [Resolver.resolve_declaration ⟨s.index, settings⟩ ⟨f, node, reference⟩ hs,
    Resolver.resolve_declaration ⟨r.index, settings⟩ ⟨f, node, reference⟩ hr,
    SearchSpace.ofReference_of_ne_var hvar, SearchSpace.ofReference_of_ne_var hvar,
    ofDeclarations_narrow hrn, ofDeclarations_narrow hsn]
  rfl

/-- What keeps a change of another file from reaching a reference: each case alone is enough. -/
inductive OutOfReach (r : Registry) (settings : Settings) (o : Occurrence) (c : Change) : Prop
  | isVariable (x : String) (h : o.reference = .var x)
  | noModule (h : r.moduleOf? o.file = none)
  | otherModule (h : ∀ g, c.subject? r.files.length = some g →
      (r.apply c).2.moduleOf? g ≠ r.moduleOf? o.file)
  | searchedAlone (hpolicy : settings.importScope = .fileWhenNoRequires)
      (hnone : ∀ source, r.source? o.file = some source → ¬∃ path, source.tree.Requires path)

theorem apart_of_noModule (hother : c.subject? r.files.length ≠ some f)
    (h : r.moduleOf? f = none) : r.Apart c f := by
  refine ⟨hother, fun g group _ hf => ?_⟩
  rw [moduleOf?_eq_some_iff.mpr hf] at h
  cases h

theorem apart_of_otherModule (hother : c.subject? r.files.length ≠ some f)
    (h : ∀ g, c.subject? r.files.length = some g → (r.apply c).2.moduleOf? g ≠ r.moduleOf? f) :
    r.Apart c f := by
  refine ⟨hother, fun g group hsubject hf hg => ?_⟩
  exact h g hsubject ((moduleOf?_eq_some_iff.mpr hg).trans (moduleOf?_eq_some_iff.mpr hf).symm)

/-- A change that is out of reach of a reference leaves its result, and all listings of variables
of its file, as they were. -/
theorem resolve_outside_scope (r : Registry) (settings : Settings) (o : Occurrence) (c : Change)
    (hother : c.subject? r.files.length ≠ some o.file) (hreach : r.OutOfReach settings o c) :
    ((Resolver.mk (r.apply c).2.index settings).resolve o).value =
        ((Resolver.mk r.index settings).resolve o).value ∧
      ∀ node x, Lookup.variableDeclarations (r.apply c).2.index o.file node x =
        Lookup.variableDeclarations r.index o.file node x := by
  obtain ⟨f, node, reference⟩ := o
  have hsource : (r.apply c).2.index.source? f = r.index.source? f :=
    source?_congr (getElem?_apply hother)
  constructor
  · by_cases hvar : ∃ x, reference = .var x
    · obtain ⟨x, rfl⟩ := hvar
      exact (Resolver.var_of_source rfl hsource).1
    · cases hreach with
      | isVariable x h => exact absurd ⟨x, h⟩ hvar
      | noModule h => exact ((apart_of_noModule hother h).sameFrom.resolve_eq settings _ _).1
      | otherModule h => exact ((apart_of_otherModule hother h).sameFrom.resolve_eq settings _ _).1
      | searchedAlone hpolicy hnone =>
        have hvar : ∀ x, reference ≠ .var x := fun x hx => hvar ⟨x, hx⟩
        cases hr : r.index.source? f with
        | none =>
          rw [hr] at hsource
          rw [Resolver.resolve_of_no_source hsource, Resolver.resolve_of_no_source hr]
        | some source =>
          rw [hr] at hsource
          have hpath := hnone source hr
          exact resolve_of_narrow hr hsource hvar (not_moduleWide hpolicy hpath)
            (not_moduleWide hpolicy hpath) node
  · intro node x
    unfold Lookup.variableDeclarations
    rw [hsource]

theorem resolve_outside_scope_crowd :
    ((Change.invalidate 0).subject? crowd.files.length ≠ some 1 ∧
      crowd.OutOfReach {} ⟨1, 1, .function "seq"⟩ (.invalidate 0)) ∧
      ((Resolver.mk (crowd.apply (.invalidate 0)).2.index {}).resolve
        ⟨1, 1, .function "seq"⟩).value = .resolved ⟨2, 1, .production, ⟨0, 4⟩, ["seq"]⟩ := by
  have hother : (Change.invalidate 0).subject? crowd.files.length ≠ some 1 := by decide
  have hreach : crowd.OutOfReach {} ⟨1, 1, .function "seq"⟩ (.invalidate 0) := by
    refine .otherModule fun g hg => ?_
    cases hg
    decide
  obtain ⟨hsame, _⟩ := resolve_outside_scope crowd {} ⟨1, 1, .function "seq"⟩ _ hother hreach
  exact ⟨⟨hother, hreach⟩, hsame⟩

end KNames.Registry
