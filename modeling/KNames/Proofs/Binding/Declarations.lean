import KNames.Proofs.Scope
import KNames.Proofs.Search

set_option autoImplicit false

namespace KNames

/-- A node of this kind is what the reference looks for, and it declares these names. -/
inductive Reference.Seeks : Reference → Kind → List String → Prop
  | function {name : String} {labels : List Ident} :
    Seeks (.function name) (.production labels) (labels.map (·.name))
  | label {raw : String} {labels : List Ident} :
    Seeks (.label raw) (.production labels) (labels.map (·.name))
  | sort {name : String} {sort : Ident} : Seeks (.sort name) (.sortDecl sort) [sort.name]

theorem Reference.seeks_iff {reference : Reference} {kind : Kind} {names : List String}
    (hvar : ∀ x, reference ≠ .var x) :
    reference.Seeks kind names ↔ kind.declared? reference.target = some names := by
  constructor
  · intro h
    cases h <;> rfl
  · intro h
    cases reference with
    | var x => exact absurd rfl (hvar x)
    | function name =>
      cases kind <;> cases h
      exact .function
    | label raw =>
      cases kind <;> cases h
      exact .label
    | sort name =>
      cases kind <;> cases h
      exact .sort

namespace Registry

open FileTable

variable {r : Registry} {settings : Settings} {source : Source} {f : FileId} {kind : DeclKind}
  {reference : Reference} {d : Declaration}

/-- The file itself, and every other file of its module if the scope is module-wide. -/
def InScope (r : Registry) (settings : Settings) (source : Source) (g : FileId) : Prop :=
  g = source.id ∨ ∃ group, r.ModuleWide settings source group ∧ r.Registered g group

structure Binds (r : Registry) (settings : Settings) (source : Source) (reference : Reference)
    (d : Declaration) : Prop where
  scope : r.InScope settings source d.file
  node : ∃ other n, r.source? d.file = some other ∧ other.tree.node? d.node = some n ∧
    reference.Seeks n.kind d.names ∧ d.span = n.span
  kind : d.kind = reference.target
  named : ∃ name ∈ d.names, name ∈ (reference.candidates settings).names

theorem mem_inFiles_iff {files : List FileId} : d ∈ Declaration.inFiles r.index kind files ↔
    d.file ∈ files ∧ ∃ other, r.source? d.file = some other ∧
      Declaration.at? other d.node kind = some d := by
  unfold Declaration.inFiles
  rw [List.mem_flatMap]
  constructor
  · rintro ⟨other, hother, hd⟩
    obtain ⟨g, hmem, hlive⟩ := List.mem_filterMap.mp hother
    have hat := Declaration.mem_inSubtree_root_iff.mp hd
    have hdg : d.file = g := (Declaration.file_of_at? hat).trans (id_of_source? hlive)
    subst hdg
    exact ⟨hmem, other, hlive, hat⟩
  · rintro ⟨hmem, other, hlive, hat⟩
    exact ⟨other, List.mem_filterMap.mpr ⟨d.file, hmem, hlive⟩,
      Declaration.mem_inSubtree_root_iff.mpr hat⟩

theorem inFiles_pairwise {files : List FileId} (h : files.Pairwise (· < ·)) (kind : DeclKind) :
    (Declaration.inFiles r.index kind files).Pairwise Declaration.Before := by
  refine List.pairwise_flatMap.mpr ⟨?_, ?_⟩
  · intro other _
    exact Declaration.inSubtree_pairwise other Tree.root kind
  · refine h.filterMap _ ?_
    intro g g' hlt other hother other' hother' d hd e he
    have hdf : d.file = g := (Declaration.file_of_mem_inSubtree hd).trans (id_of_source? hother)
    have hef : e.file = g' := (Declaration.file_of_mem_inSubtree he).trans (id_of_source? hother')
    subst hdf hef
    exact .inl hlt

theorem exists_files_inScope (settings : Settings) (kind : DeclKind)
    (h : r.source? f = some source) : ∃ files : List FileId, files.Pairwise (· < ·) ∧
      (∀ g, g ∈ files ↔ r.InScope settings source g) ∧
      (SearchSpace.ofDeclarations r.index settings source).value.listed r.index kind =
        Declaration.inFiles r.index kind files := by
  by_cases hwide : ∃ group, r.ModuleWide settings source group
  · obtain ⟨group, hg⟩ := hwide
    refine ⟨r.filesIn (.ofModule group), r.filesIn_pairwise _, ?_, ?_⟩
    · intro g
      rw [mem_filesIn]
      constructor
      · intro hreg
        exact .inr ⟨group, hg, hreg⟩
      · rintro (rfl | ⟨other, ho, hreg⟩)
        · exact hg.1
        · cases hg.unique ho
          exact hreg
    · rw [ofDeclarations_wide hg]
      rfl
  · -- A narrow scope is the list of this file alone, which is live.
    have hsingle : [f].filterMap r.index.source? = [source] := List.filterMap_cons_some h
    refine ⟨[f], List.pairwise_singleton _ _, ?_, ?_⟩
    · intro g
      rw [List.mem_singleton, ← id_of_source? h]
      constructor
      · intro hg
        exact .inl hg
      · rintro (hg | ⟨group, hg, _⟩)
        · exact hg
        · exact absurd ⟨group, hg⟩ hwide
    · rw [ofDeclarations_narrow hwide, Declaration.inFiles, hsingle, List.flatMap_singleton]
      rfl

theorem mem_listed_iff (h : r.source? f = some source) :
    d ∈ (SearchSpace.ofDeclarations r.index settings source).value.listed r.index kind ↔
      r.InScope settings source d.file ∧ ∃ other, r.source? d.file = some other ∧
        Declaration.at? other d.node kind = some d := by
  obtain ⟨files, _, hmem, hlisted⟩ := exists_files_inScope settings kind h
  rw [hlisted, mem_inFiles_iff, hmem]

theorem listed_pairwise (settings : Settings) (kind : DeclKind)
    (h : r.source? f = some source) :
    ((SearchSpace.ofDeclarations r.index settings source).value.listed r.index kind).Pairwise
      Declaration.Before := by
  obtain ⟨files, hsorted, _, hlisted⟩ := exists_files_inScope settings kind h
  rw [hlisted]
  exact inFiles_pairwise hsorted kind

theorem binds_iff_mem_listed (h : r.source? f = some source) (hvar : ∀ x, reference ≠ .var x) :
    r.Binds settings source reference d ↔
      d ∈ (SearchSpace.ofDeclarations r.index settings source).value.listed r.index
          reference.target ∧
        (reference.candidates settings).matchesAny d.names = true := by
  rw [mem_listed_iff h, Candidates.matchesAny_iff]
  constructor
  · rintro ⟨hscope, ⟨other, n, hlive, hn, hseeks, hspan⟩, hkind, hnamed⟩
    refine ⟨⟨hscope, other, hlive, ?_⟩, hnamed⟩
    exact Declaration.at?_eq_some_iff.mpr ⟨n, hn, (Reference.seeks_iff hvar).mp hseeks,
      (id_of_source? hlive).symm, rfl, hkind, hspan⟩
  · rintro ⟨⟨hscope, other, hlive, hat⟩, hnamed⟩
    obtain ⟨n, hn, hnames, _, _, hkind, hspan⟩ := Declaration.at?_eq_some_iff.mp hat
    exact ⟨hscope, ⟨other, n, hlive, hn, (Reference.seeks_iff hvar).mpr hnames, hspan⟩, hkind,
      hnamed⟩

/-- A reference to a production, a label or a sort binds to the first declaration in scope that it
can mean, by file and then by node, from wherever in the file it is made. -/
theorem resolve_first_in_scope (settings : Settings) (h : r.source? f = some source)
    (hvar : ∀ x, reference ≠ .var x) (node : NodeId) :
    let result := ((Resolver.mk r.index settings).resolve ⟨f, node, reference⟩).value
    (result.isResolved = true ↔ ∃ d, r.Binds settings source reference d) ∧
      (∀ d, result.declaration = some d ↔ r.Binds settings source reference d ∧
        ∀ e, r.Binds settings source reference e → e = d ∨ d.Before e) ∧
      ∀ other, ((Resolver.mk r.index settings).resolve ⟨f, other, reference⟩).value = result := by
  have hspace : ∀ node, (SearchSpace.ofReference r.index settings source node reference).value =
      (SearchSpace.ofDeclarations r.index settings source).value := by
    intro node
    rw [SearchSpace.ofReference_of_ne_var hvar]
  intro result
  obtain ⟨hresolved, hfirst⟩ := Resolver.resolve_least ⟨r.index, settings⟩ ⟨f, node, reference⟩ h
    (hspace node) (listed_pairwise settings reference.target h)
    (fun _ => binds_iff_mem_listed h hvar)
  refine ⟨hresolved, hfirst, ?_⟩
  intro other
  exact Resolver.resolve_congr ⟨r.index, settings⟩ h ((hspace other).trans (hspace node).symm)

theorem resolve_first_in_scope_duo : duo.source? 0 = some duoFirst ∧
    (∀ x, Reference.function "seq" ≠ .var x) ∧
    duo.Binds {} duoFirst (.function "seq") ⟨1, 1, .production, ⟨0, 4⟩, ["seq"]⟩ := by
  have hlive : duo.source? 0 = some duoFirst := rfl
  have hvar : ∀ x, Reference.function "seq" ≠ .var x := by
    intro x h
    cases h
  obtain ⟨_, hfirst, _⟩ := resolve_first_in_scope {} hlive hvar 0
  exact ⟨hlive, hvar, ((hfirst _).mp rfl).1⟩

end Registry

end KNames
