import KNames.Proofs.Tree.Links
import KNames.Resolution

set_option autoImplicit false

namespace KNames

theorem find?_eq_some_iff_least {α : Type} {R : α → α → Prop} {l : List α} {hit : α → Bool} {a : α}
    (hasymm : ∀ x y, R x y → ¬R y x) (hl : l.Pairwise R) :
    l.find? hit = some a ↔ a ∈ l ∧ hit a = true ∧ ∀ b ∈ l, hit b = true → b = a ∨ R a b := by
  -- What stands before the first hit misses, and what comes after it is greater.
  have hleast : ∀ c, l.find? hit = some c → ∀ b ∈ l, hit b = true → b = c ∨ R c b := by
    intro c hc b hb hhit
    obtain ⟨_, before, after, rfl, hmiss⟩ := List.find?_eq_some_iff_append.mp hc
    rcases List.mem_append.mp hb with hb | hb
    · have hno := hmiss b hb
      rw [hhit] at hno
      exact absurd hno (by decide)
    · rcases List.mem_cons.mp hb with rfl | hb
      · exact .inl rfl
      · have hcons := (List.pairwise_append.mp hl).2.1
        exact .inr (List.rel_of_pairwise_cons hcons hb)
  constructor
  · intro h
    exact ⟨List.mem_of_find?_eq_some h, List.find?_some h, hleast a h⟩
  · rintro ⟨ha, hhit, hmin⟩
    obtain ⟨c, hc⟩ := Option.isSome_iff_exists.mp (List.find?_isSome.mpr ⟨a, ha, hhit⟩)
    rcases hleast c hc a ha hhit with rfl | hca
    · exact hc
    · rcases hmin c (List.mem_of_find?_eq_some hc) (List.find?_some hc) with rfl | hac
      · exact hc
      · exact absurd hac (hasymm c a hca)

namespace Declaration

variable {source : Source} {kind : DeclKind} {a i : NodeId} {d e : Declaration}

def Before (d e : Declaration) : Prop := d.file < e.file ∨ (d.file = e.file ∧ d.node < e.node)

theorem Before.asymm (h : d.Before e) : ¬e.Before d := by
  rintro (hfile | ⟨hfile, hnode⟩)
  · rcases h with h | ⟨h, _⟩
    · exact Nat.lt_asymm h hfile
    · exact Nat.ne_of_lt hfile h.symm
  · rcases h with h | ⟨_, h⟩
    · exact Nat.ne_of_lt h hfile.symm
    · exact Nat.lt_asymm h hnode

theorem ofNode?_eq_some_iff {file : FileId} {n : Node} :
    ofNode? file kind n = some d ↔ n.kind.declared? kind = some d.names ∧ d.file = file ∧
      d.node = n.id ∧ d.kind = kind ∧ d.span = n.span := by
  rw [ofNode?, Option.map_eq_some_iff]
  constructor
  · rintro ⟨names, hnames, rfl⟩
    exact ⟨hnames, rfl, rfl, rfl, rfl⟩
  · rintro ⟨hnames, rfl, hnode, rfl, hspan⟩
    exact ⟨d.names, hnames, by rw [← hnode, ← hspan]⟩

theorem at?_eq_some_iff : at? source i kind = some d ↔
    ∃ n, source.tree.node? i = some n ∧ n.kind.declared? kind = some d.names ∧
      d.file = source.id ∧ d.node = i ∧ d.kind = kind ∧ d.span = n.span := by
  rw [at?, Option.bind_eq_some_iff]
  refine exists_congr fun n => and_congr_right fun hn => ?_
  rw [ofNode?_eq_some_iff, Tree.id_of_node? hn]

theorem at?_eq_some_iff_kind? : at? source i kind = some d ↔
    ∃ nodeKind, source.tree.kind? i = some nodeKind ∧ nodeKind.declared? kind = some d.names ∧
      source.tree.span? i = some d.span ∧ d.file = source.id ∧ d.node = i ∧ d.kind = kind := by
  rw [at?_eq_some_iff]
  constructor
  · rintro ⟨n, hn, hnames, hfile, hnode, hkind, hspan⟩
    refine ⟨n.kind, Tree.kind?_of_node? hn, hnames, ?_, hfile, hnode, hkind⟩
    rw [Tree.span?_of_node? hn, hspan]
  · rintro ⟨_, hk, hnames, hspan, hfile, hnode, hkind⟩
    obtain ⟨n, hn, rfl⟩ := Option.map_eq_some_iff.mp hk
    rw [Tree.span?_of_node? hn] at hspan
    exact ⟨n, hn, hnames, hfile, hnode, hkind, (Option.some.inj hspan).symm⟩

theorem mem_inSubtree_iff : d ∈ inSubtree source a kind ↔
    d.node ∈ source.tree.descendants a ∧ at? source d.node kind = some d := by
  unfold inSubtree
  rw [List.mem_filterMap, Tree.mem_descendants_iff_exists]
  constructor
  · rintro ⟨n, hn, hd⟩
    have hnode : source.tree.node? d.node = some n := by
      rw [(ofNode?_eq_some_iff.mp hd).2.2.1]
      exact Tree.node?_of_mem (Tree.mem_nodes_of_mem_walk hn)
    refine ⟨⟨n, hnode, hn⟩, ?_⟩
    rw [at?, hnode]
    exact hd
  · rintro ⟨⟨n, hnode, hn⟩, hd⟩
    rw [at?, hnode] at hd
    exact ⟨n, hn, hd⟩

theorem file_of_at? (h : at? source i kind = some d) : d.file = source.id := by
  obtain ⟨_, _, _, hfile, _⟩ := at?_eq_some_iff.mp h
  exact hfile

theorem file_of_mem_inSubtree (h : d ∈ inSubtree source a kind) : d.file = source.id :=
  file_of_at? (mem_inSubtree_iff.mp h).2

theorem mem_inSubtree_root_iff : d ∈ inSubtree source Tree.root kind ↔
    at? source d.node kind = some d := by
  rw [mem_inSubtree_iff, Tree.descendants_root, List.mem_range]
  constructor
  · intro h
    exact h.2
  · intro h
    obtain ⟨n, hn, _⟩ := at?_eq_some_iff.mp h
    exact ⟨Tree.lt_size_of_node? hn, h⟩

theorem inSubtree_pairwise_node (source : Source) (a : NodeId) (kind : DeclKind) :
    (inSubtree source a kind).Pairwise (·.node < ·.node) := by
  refine (source.tree.walk_pairwise a).filterMap _ ?_
  intro n m hnm d hd e he
  obtain ⟨_, _, hdn, _⟩ := ofNode?_eq_some_iff.mp hd
  obtain ⟨_, _, hen, _⟩ := ofNode?_eq_some_iff.mp he
  rw [hdn, hen]
  exact hnm

theorem inSubtree_pairwise (source : Source) (a : NodeId) (kind : DeclKind) :
    (inSubtree source a kind).Pairwise Before := by
  refine (inSubtree_pairwise_node source a kind).imp_of_mem ?_
  intro d e hd he hnode
  exact .inr ⟨(file_of_mem_inSubtree hd).trans (file_of_mem_inSubtree he).symm, hnode⟩

def inFiles (index : FileIndex) (kind : DeclKind) (files : List FileId) : List Declaration :=
  (files.filterMap index.source?).flatMap (inSubtree · Tree.root kind)

end Declaration

namespace SearchSpace

/-- The declarations of one kind in a space, in the order in which a search visits them. -/
def listed (index : FileIndex) (kind : DeclKind) : SearchSpace → List Declaration
  | empty => []
  | ruleBody source body => Declaration.inSubtree source body kind
  | file source => Declaration.inSubtree source Tree.root kind
  | moduleFiles _ files => Declaration.inFiles index kind files

end SearchSpace

namespace Lookup

variable {index : FileIndex} {candidates : Candidates} {kind : DeclKind}

theorem firstInSubtree_eq_find? (source : Source) (node : NodeId) :
    firstInSubtree source node candidates kind =
      (Declaration.inSubtree source node kind).find? (candidates.matchesAny ·.names) := by
  have htest : hasCandidate candidates kind = fun n =>
      (Declaration.ofNode? source.id kind n).any (candidates.matchesAny ·.names) := by
    funext n
    rw [hasCandidate, Declaration.ofNode?, Option.any_map]
  rw [Declaration.inSubtree, List.find?_filterMap, ← htest, firstInSubtree]

theorem mem_of_firstInSubtree {source : Source} {node : NodeId} {d : Declaration}
    (h : firstInSubtree source node candidates kind = some d) :
    d ∈ Declaration.inSubtree source node kind := by
  rw [firstInSubtree_eq_find?] at h
  exact List.mem_of_find?_eq_some h

theorem firstInFiles_value (files : List FileId) :
    (firstInFiles index candidates kind files).value =
      (Declaration.inFiles index kind files).find? (candidates.matchesAny ·.names) := by
  induction files with
  | nil => rfl
  | cons file files ih =>
    rw [firstInFiles]
    rw [Declaration.inFiles] at ih ⊢
    cases hlive : index.source? file with
    | none =>
      rw [List.filterMap_cons_none hlive]
      exact ih
    | some source =>
      rw [List.filterMap_cons_some hlive, List.flatMap_cons, List.find?_append, ← ih,
        ← firstInSubtree_eq_find?]
      dsimp only
      cases firstInSubtree source Tree.root candidates kind with
      | none => rfl
      | some found => rfl

theorem find?_of_isEmpty (h : candidates.isEmpty = true) (ds : List Declaration) :
    ds.find? (candidates.matchesAny ·.names) = none := by
  rw [List.find?_eq_none]
  intro d _ hd
  obtain ⟨name, _, hname⟩ := (Candidates.matchesAny_iff _ _).mp hd
  rw [List.isEmpty_iff.mp h] at hname
  exact List.not_mem_nil hname

theorem firstMatch_value (space : SearchSpace) :
    (firstMatch index space candidates kind).value =
      (space.listed index kind).find? (candidates.matchesAny ·.names) := by
  unfold firstMatch
  split
  · rename_i hempty
    exact (find?_of_isEmpty hempty _).symm
  · cases space with
    | empty => rfl
    | ruleBody source body => exact firstInSubtree_eq_find? source body
    | file source => exact firstInSubtree_eq_find? source Tree.root
    | moduleFiles group files => exact firstInFiles_value files

end Lookup

theorem Resolution.ext {x y : Resolution} (h : x.declaration = y.declaration) : x = y := by
  cases x
  cases y
  cases h
  rfl

namespace Resolver

variable {r : Resolver} {o : Occurrence} {source : Source}

theorem searchIn_declaration (space : SearchSpace) :
    (r.searchIn o space).value.declaration =
      (space.listed r.index o.reference.target).find?
        ((o.reference.candidates r.settings).matchesAny ·.names) := by
  unfold searchIn
  rw [← Lookup.firstMatch_value]
  split
  · rename_i hempty
    -- An empty space lists nothing, so a search in it would not find anything either.
    cases space with
    | empty => rw [Lookup.firstMatch_value]; rfl
    | ruleBody source body => cases hempty
    | file source => cases hempty
    | moduleFiles group files =>
      rw [Lookup.firstMatch_value, List.isEmpty_iff.mp hempty]
      rfl
  · change (conclude o space _).value.declaration = _
    cases (Lookup.firstMatch r.index space (o.reference.candidates r.settings)
      o.reference.target).value with
    | none => rfl
    | some d => rfl

theorem resolve_declaration (r : Resolver) (o : Occurrence)
    (h : r.index.source? o.file = some source) :
    (r.resolve o).value.declaration =
      ((SearchSpace.ofReference r.index r.settings source o.node o.reference).value.listed r.index
        o.reference.target).find? ((o.reference.candidates r.settings).matchesAny ·.names) := by
  unfold resolve
  rw [h]
  exact searchIn_declaration _

/-- When a space lists, in order, what satisfies `P`, a search in it finds the first of these. -/
theorem resolve_least (r : Resolver) (o : Occurrence) {space : SearchSpace} {P : Declaration → Prop}
    (h : r.index.source? o.file = some source)
    (hspace : (SearchSpace.ofReference r.index r.settings source o.node o.reference).value = space)
    (hordered : (space.listed r.index o.reference.target).Pairwise Declaration.Before)
    (hP : ∀ d, P d ↔ d ∈ space.listed r.index o.reference.target ∧
      (o.reference.candidates r.settings).matchesAny d.names = true) :
    ((r.resolve o).value.isResolved = true ↔ ∃ d, P d) ∧
      ∀ d, (r.resolve o).value.declaration = some d ↔ P d ∧ ∀ e, P e → e = d ∨ d.Before e := by
  have hresult := resolve_declaration r o h
  rw [hspace] at hresult
  constructor
  · unfold Resolution.isResolved
    rw [hresult, List.find?_isSome]
    exact exists_congr fun d => (hP d).symm
  · intro d
    rw [hresult, find?_eq_some_iff_least (fun _ _ => Declaration.Before.asymm) hordered, hP,
      and_assoc]
    refine and_congr_right fun _ => and_congr_right fun _ => forall_congr' fun e => ?_
    rw [hP, and_imp]

theorem resolve_congr (r : Resolver) {file : FileId} {node other : NodeId} {reference : Reference}
    (h : r.index.source? file = some source)
    (hspace : (SearchSpace.ofReference r.index r.settings source other reference).value =
      (SearchSpace.ofReference r.index r.settings source node reference).value) :
    (r.resolve ⟨file, other, reference⟩).value = (r.resolve ⟨file, node, reference⟩).value := by
  apply Resolution.ext
  rw [resolve_declaration r ⟨file, other, reference⟩ h, hspace]
  exact (resolve_declaration r ⟨file, node, reference⟩ h).symm

end Resolver

end KNames
