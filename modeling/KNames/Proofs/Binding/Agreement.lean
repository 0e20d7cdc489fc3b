import KNames.Proofs.Binding.Declarations
import Mathlib.Data.List.Sort

set_option autoImplicit false

/-!
# Registries that bind alike

A reference to a declaration reads three things of a registry: the snapshot of its file, which
files are in the file's module, and what those files require and declare. Registries that agree on
these give it the same space and the same result, whatever else they differ in. A variable reads
nothing but the snapshot of its own file.
-/
namespace KNames

namespace Resolver

variable {i j : FileIndex} {settings : Settings} {o : Occurrence} {x : String}

theorem resolve_of_no_source (h : i.source? o.file = none) :
    ((Resolver.mk i settings).resolve o).value = .unresolved := by
  unfold resolve
  rw [h]
  rfl

theorem searchSpace?_of_no_source (h : i.source? o.file = none) :
    ((Resolver.mk i settings).searchSpace? o).value = none := by
  unfold searchSpace?
  rw [h]
  rfl

theorem searchSpace?_of_source {source : Source} (h : i.source? o.file = some source) :
    ((Resolver.mk i settings).searchSpace? o).value =
      some (SearchSpace.ofReference i settings source o.node o.reference).value := by
  unfold searchSpace?
  rw [h]
  rfl

theorem listed_ofRule (source : Source) (node : NodeId) (kind : DeclKind) :
    (SearchSpace.ofRule source node).value.listed i kind =
      (SearchSpace.ofRule source node).value.listed j kind := by
  unfold SearchSpace.ofRule
  cases source.tree.enclosingBody? node <;> rfl

theorem var_of_source (hvar : o.reference = .var x) (h : j.source? o.file = i.source? o.file) :
    ((Resolver.mk j settings).resolve o).value = ((Resolver.mk i settings).resolve o).value ∧
      ((Resolver.mk j settings).searchSpace? o).value =
        ((Resolver.mk i settings).searchSpace? o).value := by
  cases hi : i.source? o.file with
  | none =>
    rw [hi] at h
    rw [resolve_of_no_source h, resolve_of_no_source hi, searchSpace?_of_no_source h,
      searchSpace?_of_no_source hi]
    exact ⟨rfl, rfl⟩
  | some source =>
    rw [hi] at h
    rw [searchSpace?_of_source h, searchSpace?_of_source hi, hvar]
    refine ⟨Resolution.ext ?_, rfl⟩
    rw [resolve_declaration ⟨j, settings⟩ o h, resolve_declaration ⟨i, settings⟩ o hi, hvar]
    exact congrArg (List.find? _) (listed_ofRule source o.node _)

end Resolver

namespace Registry

open FileTable

variable {r s : Registry} {settings : Settings} {source : Source} {f g : FileId}
  {group : ModuleId} {reference : Reference} {kind : DeclKind} {d : Declaration} {path : String}

def Asks (r : Registry) (file : FileId) (path : String) : Prop :=
  ∃ source, r.source? file = some source ∧ source.tree.Requires path

def Declares (r : Registry) (kind : DeclKind) (d : Declaration) : Prop :=
  ∃ source, r.source? d.file = some source ∧ Declaration.at? source d.node kind = some d

theorem requiredIn_iff : r.RequiredIn source group ↔ ∃ g path, g ≠ source.id ∧
    r.Registered g group ∧ r.Asks g path ∧ RequirePath.designates path source.uri = true := by
  constructor
  · rintro ⟨g, other, path, hne, hreg, hlive, hpath, hd⟩
    exact ⟨g, path, hne, hreg, ⟨other, hlive, hpath⟩, hd⟩
  · rintro ⟨g, path, hne, hreg, ⟨other, hlive, hpath⟩, hd⟩
    exact ⟨g, other, path, hne, hreg, hlive, hpath, hd⟩

theorem binds_iff_declares (h : r.source? f = some source) (hvar : ∀ x, reference ≠ .var x) :
    r.Binds settings source reference d ↔ r.InScope settings source d.file ∧
      r.Declares reference.target d ∧
      ∃ name ∈ d.names, name ∈ (reference.candidates settings).names := by
  rw [binds_iff_mem_listed h hvar, mem_listed_iff h, Candidates.matchesAny_iff, and_assoc]
  rfl

theorem resolve_iff_binds (settings : Settings) (h : r.source? f = some source)
    (hvar : ∀ x, reference ≠ .var x) (node : NodeId) :
    let result := ((Resolver.mk r.index settings).resolve ⟨f, node, reference⟩).value
    (result.isResolved = true ↔ ∃ d, r.Binds settings source reference d) ∧
      ∀ d, result.declaration = some d ↔ r.Binds settings source reference d ∧
        ∀ e, r.Binds settings source reference e → e = d ∨ d.Before e := by
  have hspace : (SearchSpace.ofReference r.index settings source node reference).value =
      (SearchSpace.ofDeclarations r.index settings source).value := by
    rw [SearchSpace.ofReference_of_ne_var hvar]
  exact Resolver.resolve_least ⟨r.index, settings⟩ ⟨f, node, reference⟩ h hspace
    (listed_pairwise settings reference.target h) (fun _ => binds_iff_mem_listed h hvar)

theorem isResolved_iff (settings : Settings) (h : r.source? f = some source)
    (hvar : ∀ x, reference ≠ .var x) (node : NodeId) :
    ((Resolver.mk r.index settings).resolve ⟨f, node, reference⟩).value.isResolved = true ↔
      ∃ d, r.Binds settings source reference d :=
  (resolve_iff_binds settings h hvar node).1

theorem declaration_eq_some_iff (settings : Settings) (h : r.source? f = some source)
    (hvar : ∀ x, reference ≠ .var x) (node : NodeId) :
    ((Resolver.mk r.index settings).resolve ⟨f, node, reference⟩).value.declaration = some d ↔
      r.Binds settings source reference d ∧
        ∀ e, r.Binds settings source reference e → e = d ∨ d.Before e :=
  (resolve_iff_binds settings h hvar node).2 d

theorem exists_declaration_of_binds (settings : Settings) (h : r.source? f = some source)
    (hvar : ∀ x, reference ≠ .var x) (node : NodeId) (hd : r.Binds settings source reference d) :
    ∃ e, ((Resolver.mk r.index settings).resolve ⟨f, node, reference⟩).value.declaration = some e ∧
      r.Binds settings source reference e ∧ (d = e ∨ e.Before d) := by
  obtain ⟨e, he⟩ := Option.isSome_iff_exists.mp ((isResolved_iff settings h hvar node).mpr ⟨d, hd⟩)
  obtain ⟨hbinds, hleast⟩ := (declaration_eq_some_iff settings h hvar node).mp he
  exact ⟨e, he, hbinds, hleast d hd⟩

theorem resolve_of_binds_iff (hr : r.source? f = some source) (hs : s.source? f = some source)
    (hvar : ∀ x, reference ≠ .var x)
    (hbinds : ∀ d, s.Binds settings source reference d ↔ r.Binds settings source reference d)
    (node : NodeId) : ((Resolver.mk s.index settings).resolve ⟨f, node, reference⟩).value =
      ((Resolver.mk r.index settings).resolve ⟨f, node, reference⟩).value := by
  apply Resolution.ext
  apply Option.ext
  intro d
  rw [declaration_eq_some_iff settings hs hvar, declaration_eq_some_iff settings hr hvar]
  simp only [hbinds]

/-- The registries agree on the file, and on what the files of its module require and declare. A
file without a live tree does neither. -/
structure SameFrom (r s : Registry) (f : FileId) : Prop where
  source : s.source? f = r.source? f
  group : ∀ group, s.Registered f group ↔ r.Registered f group
  members : ∀ group, r.Registered f group → ∀ g, s.Registered g group ↔ r.Registered g group
  asks : ∀ group, r.Registered f group → ∀ g, r.Registered g group →
    ∀ path, s.Asks g path ↔ r.Asks g path
  declares : ∀ group, r.Registered f group → ∀ d, r.Registered d.file group →
    ∀ kind, s.Declares kind d ↔ r.Declares kind d

namespace SameFrom

theorem requiredIn_iff (h : SameFrom r s source.id) (hreg : r.Registered source.id group) :
    s.RequiredIn source group ↔ r.RequiredIn source group := by
  rw [Registry.requiredIn_iff, Registry.requiredIn_iff]
  refine exists_congr fun g => exists_congr fun path => and_congr_right fun _ => ?_
  rw [h.members group hreg g]
  exact and_congr_right fun hg => and_congr_left fun _ => h.asks group hreg g hg path

theorem moduleWide_iff (h : SameFrom r s source.id) :
    s.ModuleWide settings source group ↔ r.ModuleWide settings source group := by
  unfold ModuleWide
  rw [h.group group]
  exact and_congr_right fun hreg => or_congr_right (and_congr_right fun _ => h.requiredIn_iff hreg)

theorem inScope_iff (h : SameFrom r s source.id) :
    s.InScope settings source g ↔ r.InScope settings source g := by
  unfold InScope
  simp only [h.moduleWide_iff]
  refine or_congr_right (exists_congr fun group => and_congr_right fun hwide => ?_)
  exact h.members group hwide.1 g

theorem declares_iff (h : SameFrom r s source.id) (hscope : r.InScope settings source d.file) :
    s.Declares kind d ↔ r.Declares kind d := by
  rcases hscope with hself | ⟨group, hwide, hreg⟩
  · unfold Declares
    rw [hself, h.source]
  · exact h.declares group hwide.1 d hreg kind

theorem ofDeclarations_eq (h : SameFrom r s source.id) :
    (SearchSpace.ofDeclarations s.index settings source).value =
      (SearchSpace.ofDeclarations r.index settings source).value := by
  by_cases hwide : ∃ group, r.ModuleWide settings source group
  · obtain ⟨group, hg⟩ := hwide
    rw [ofDeclarations_wide hg, ofDeclarations_wide (h.moduleWide_iff.mpr hg)]
    have hfiles : s.filesIn (.ofModule group) = r.filesIn (.ofModule group) := by
      refine (s.filesIn_pairwise _).eq_of_mem_iff (r.filesIn_pairwise _) fun g => ?_
      rw [mem_filesIn, mem_filesIn, h.members group hg.1 g]
    rw [hfiles]
  · have hnarrow : ¬∃ group, s.ModuleWide settings source group := by
      simpa only [h.moduleWide_iff] using hwide
    rw [ofDeclarations_narrow hwide, ofDeclarations_narrow hnarrow]

theorem resolve_eq (h : SameFrom r s f) (settings : Settings) (node : NodeId)
    (reference : Reference) : ((Resolver.mk s.index settings).resolve ⟨f, node, reference⟩).value =
        ((Resolver.mk r.index settings).resolve ⟨f, node, reference⟩).value ∧
      ((Resolver.mk s.index settings).searchSpace? ⟨f, node, reference⟩).value =
        ((Resolver.mk r.index settings).searchSpace? ⟨f, node, reference⟩).value := by
  by_cases hvar : ∃ x, reference = .var x
  · obtain ⟨x, rfl⟩ := hvar
    exact Resolver.var_of_source rfl h.source
  · have hvar : ∀ x, reference ≠ .var x := fun x hx => hvar ⟨x, hx⟩
    cases hr : r.source? f with
    | none =>
      have hs : s.index.source? f = none := h.source.trans hr
      have hr : r.index.source? f = none := hr
      rw [Resolver.resolve_of_no_source hs, Resolver.resolve_of_no_source hr,
        Resolver.searchSpace?_of_no_source hs, Resolver.searchSpace?_of_no_source hr]
      exact ⟨rfl, rfl⟩
    | some source =>
      have hs : s.source? f = some source := h.source.trans hr
      have hf : source.id = f := id_of_source? hr
      subst hf
      constructor
      · refine resolve_of_binds_iff hr hs hvar (fun d => ?_) node
        rw [binds_iff_declares hs hvar, binds_iff_declares hr hvar, h.inScope_iff]
        exact and_congr_right fun hscope => and_congr_left fun _ => h.declares_iff hscope
      · rw [Resolver.searchSpace?_of_source hs, Resolver.searchSpace?_of_source hr,
          SearchSpace.ofReference_of_ne_var hvar, SearchSpace.ofReference_of_ne_var hvar,
          h.ofDeclarations_eq]

end SameFrom

end Registry

end KNames
