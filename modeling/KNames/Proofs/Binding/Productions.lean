import KNames.Proofs.Binding.Agreement
import KNames.Proofs.Binding.Variables

set_option autoImplicit false

/-!
# The productions of a project

A listing goes through all live files, and a reference to a function searches only its scope. The
files of a scope come in the order of the project, so the scope's productions are the listed ones
of its files, and the reference binds to the first of those that have the name.
-/
namespace KNames

namespace Lookup

theorem filterMap_isProduction (file : FileId) (name : Option String) (nodes : List Node) :
    (nodes.filter (isProduction name)).filterMap (Declaration.ofNode? file .production) =
      (nodes.filterMap (Declaration.ofNode? file .production)).filter
        fun d => name.all d.declares := by
  rw [List.filterMap_filter, List.filter_filterMap]
  -- The test of a node is the test of the declaration that it makes.
  refine List.filterMap_congr fun n _ => ?_
  unfold isProduction Declaration.ofNode?
  cases n.kind.declared? .production with
  | none => rfl
  | some names => rfl

theorem productions_eq_filter (index : FileIndex) (name : Option String) :
    productions index name =
      (Declaration.inFiles index .production (index.filesIn .project)).filter
        fun d => name.all d.declares := by
  unfold productions Declaration.inFiles
  rw [List.filter_flatMap]
  simp only [filterMap_isProduction]
  rfl

theorem productions_none (index : FileIndex) :
    productions index none =
      Declaration.inFiles index .production (index.filesIn .project) := by
  rw [productions_eq_filter]
  exact List.filter_eq_self.mpr fun _ _ => rfl

theorem productions_some (index : FileIndex) (name : String) :
    productions index (some name) = (productions index none).filter (·.declares name) := by
  rw [productions_eq_filter, productions_none]
  rfl

end Lookup

namespace Declaration

instance : Std.Irrefl Before := ⟨fun _ h => h.asymm h⟩

instance : Std.Antisymm Before := ⟨fun _ _ h h' => absurd h' h.asymm⟩

def place (d : Declaration) : FileId × NodeId := (d.file, d.node)

theorem Before.place_ne {d e : Declaration} (h : d.Before e) : d.place ≠ e.place := by
  intro heq
  obtain ⟨hfile, hnode⟩ := Prod.mk.inj heq
  rcases h with h | ⟨_, h⟩
  · exact Nat.ne_of_lt h hfile
  · exact Nat.ne_of_lt h hnode

theorem count_place {ds : List Declaration} {d : Declaration} (hds : ds.Pairwise Before)
    (hd : d ∈ ds) : (ds.map place).count d.place = 1 := by
  have hnodup : (ds.map place).Nodup := List.pairwise_map.mpr (hds.imp Before.place_ne)
  exact List.count_eq_one_of_mem hnodup (List.mem_map_of_mem hd)

end Declaration

theorem Kind.declared?_production_iff {kind : Kind} {names : List String} :
    kind.declared? .production = some names ↔
      ∃ labels, kind = .production labels ∧ names = labels.map (·.name) := by
  constructor
  · intro h
    cases kind with
    | production labels =>
      cases h
      exact ⟨labels, rfl, rfl⟩
    | _ => cases h
  · rintro ⟨labels, rfl, rfl⟩
    rfl

namespace Registry

open FileTable

variable {r : Registry} {settings : Settings} {source : Source} {f : FileId} {kind : DeclKind}
  {d : Declaration}

structure Produces (r : Registry) (d : Declaration) : Prop where
  node : ∃ source labels, r.source? d.file = some source ∧
    source.tree.kind? d.node = some (.production labels) ∧
    source.tree.span? d.node = some d.span ∧ d.names = labels.map (·.name)
  kind : d.kind = .production

structure ListsProductions (r : Registry) (ds : List Declaration) : Prop where
  ordered : ds.Pairwise Declaration.Before
  mem : ∀ d, d ∈ ds ↔ r.Produces d
  once : ∀ f source i labels, r.source? f = some source →
    source.tree.kind? i = some (.production labels) → (ds.map Declaration.place).count (f, i) = 1

theorem produces_iff : r.Produces d ↔ r.Declares .production d := by
  constructor
  · rintro ⟨⟨source, labels, hlive, hk, hspan, hnames⟩, hkind⟩
    have hdecl := Kind.declared?_production_iff.mpr ⟨labels, rfl, hnames⟩
    exact ⟨source, hlive, Declaration.at?_eq_some_iff_kind?.mpr
      ⟨_, hk, hdecl, hspan, (id_of_source? hlive).symm, rfl, hkind⟩⟩
  · rintro ⟨source, hlive, hat⟩
    obtain ⟨_, hk, hdecl, hspan, _, _, hkind⟩ := Declaration.at?_eq_some_iff_kind?.mp hat
    obtain ⟨labels, rfl, hnames⟩ := Kind.declared?_production_iff.mp hdecl
    exact ⟨⟨source, labels, hlive, hk, hspan, hnames⟩, hkind⟩

theorem mem_project_iff :
    d ∈ Declaration.inFiles r.index kind (r.filesIn .project) ↔ r.Declares kind d := by
  rw [mem_inFiles_iff]
  constructor
  · rintro ⟨_, h⟩
    exact h
  · rintro ⟨source, hlive, hat⟩
    exact ⟨List.mem_range.mpr (lt_length_of_source? hlive), source, hlive, hat⟩

theorem productions_listed (r : Registry) :
    r.ListsProductions (Lookup.productions r.index none) := by
  have hordered : (Lookup.productions r.index none).Pairwise Declaration.Before := by
    rw [Lookup.productions_none]
    exact inFiles_pairwise (r.filesIn_pairwise .project) .production
  have hmem : ∀ d, d ∈ Lookup.productions r.index none ↔ r.Produces d := by
    intro d
    rw [Lookup.productions_none, produces_iff]
    exact mem_project_iff
  refine ⟨hordered, hmem, ?_⟩
  intro f source i labels hlive hk
  obtain ⟨span, hspan⟩ := Tree.exists_span? hk
  have hd : r.Produces ⟨f, i, .production, span, labels.map (·.name)⟩ :=
    ⟨⟨source, labels, hlive, hk, hspan, rfl⟩, rfl⟩
  exact Declaration.count_place hordered ((hmem _).mpr hd)

theorem listed_eq_filter {files : List FileId} (hfiles : files.Pairwise (· < ·)) :
    Declaration.inFiles r.index kind files =
      (Declaration.inFiles r.index kind (r.filesIn .project)).filter (·.file ∈ files) := by
  refine (inFiles_pairwise hfiles kind).eq_of_mem_iff
    ((inFiles_pairwise (r.filesIn_pairwise .project) kind).filter _) ?_
  intro d
  rw [List.mem_filter, mem_project_iff, mem_inFiles_iff, decide_eq_true_iff, and_comm]
  rfl

theorem exists_resolve_function (settings : Settings) (h : r.source? f = some source) {x : String}
    (hx : x ≠ "") (node : NodeId) : ∃ files : List FileId,
      (∀ g, g ∈ files ↔ r.InScope settings source g) ∧
        ((Resolver.mk r.index settings).resolve ⟨f, node, .function x⟩).value.declaration =
          (Lookup.productions r.index (some x)).find? (·.file ∈ files) := by
  obtain ⟨files, hsorted, hmem, hlisted⟩ := exists_files_inScope settings .production h
  refine ⟨files, hmem, ?_⟩
  have hresult := Resolver.resolve_declaration ⟨r.index, settings⟩ ⟨f, node, .function x⟩ h
  change _ = ((SearchSpace.ofDeclarations r.index settings source).value.listed r.index
    .production).find? ((Candidates.single x).matchesAny ·.names) at hresult
  rw [hresult, hlisted, listed_eq_filter hsorted, Lookup.productions_some, Lookup.productions_none,
    List.find?_filter, List.find?_filter]
  refine List.find?_congr fun d _ => ?_
  rw [Candidates.matchesAny_single hx]
  exact decide_eq_decide.mpr and_comm

/-- The listing of a project has every production once and in order, narrowed by a name it has
those that declare the name, and a reference to a function binds to the first of these that is in
the scope of its file. -/
theorem productions_lead_binding (r : Registry) (settings : Settings) :
    r.ListsProductions (Lookup.productions r.index none) ∧
      (∀ name, Lookup.productions r.index (some name) =
        (Lookup.productions r.index none).filter (·.declares name)) ∧
      ∀ f source name, r.source? f = some source → name ≠ "" → ∀ node,
        let result := ((Resolver.mk r.index settings).resolve ⟨f, node, .function name⟩).value
        let listed := Lookup.productions r.index (some name)
        (∀ d, result.declaration = some d ↔ r.InScope settings source d.file ∧
          ∃ before after, listed = before ++ d :: after ∧
            ∀ e ∈ before, ¬r.InScope settings source e.file) ∧
        (result.isResolved = false ↔ ∀ d ∈ listed, ¬r.InScope settings source d.file) := by
  refine ⟨r.productions_listed, Lookup.productions_some r.index, ?_⟩
  intro f source name h hname node result listed
  obtain ⟨files, hscope, hresult⟩ := exists_resolve_function settings h hname node
  constructor
  · intro d
    rw [hresult, List.find?_eq_some_iff_append]
    simp only [decide_eq_true_eq, Bool.not_eq_true', decide_eq_false_iff_not, hscope]
    rfl
  · unfold Resolution.isResolved
    rw [hresult, Option.isSome_eq_false_iff, Option.isNone_iff_eq_none, List.find?_eq_none]
    simp only [decide_eq_true_eq, hscope]
    rfl

theorem productions_lead_binding_crowd :
    (crowd.source? 1 = some crowdFirst ∧ "seq" ≠ "") ∧
      duoSecond.tree.kind? 1 = some (.production [⟨"seq", ⟨0, 3⟩⟩]) ∧
      ((Lookup.productions crowd.index none).map Declaration.place).count (2, 1) = 1 ∧
      (Lookup.productions crowd.index (some "seq")).map Declaration.place = [(0, 1), (2, 1)] ∧
      crowd.InScope {} crowdFirst 2 ∧
      ∃ before after, Lookup.productions crowd.index (some "seq") =
          before ++ ⟨2, 1, .production, ⟨0, 4⟩, ["seq"]⟩ :: after ∧
        ∀ e ∈ before, ¬crowd.InScope {} crowdFirst e.file := by
  have hlive : crowd.source? 1 = some crowdFirst := rfl
  have hname : "seq" ≠ "" := by decide
  have hkind : duoSecond.tree.kind? 1 = some (.production [⟨"seq", ⟨0, 3⟩⟩]) := rfl
  obtain ⟨hlists, _, hbinds⟩ := productions_lead_binding crowd {}
  obtain ⟨hfirst, _⟩ := hbinds 1 crowdFirst "seq" hlive hname 1
  obtain ⟨hscope, hsplit⟩ := (hfirst ⟨2, 1, .production, ⟨0, 4⟩, ["seq"]⟩).mp rfl
  have honce := hlists.once 2 ⟨2, duoSecond.uri, duoSecond.tree⟩ 1 [⟨"seq", ⟨0, 3⟩⟩] rfl hkind
  exact ⟨⟨hlive, hname⟩, hkind, honce, rfl, hscope, hsplit⟩

end Registry

end KNames
