import KNames.Proofs.Registry
import KNames.Proofs.Search
import KNames.Proofs.Tree.Rule

set_option autoImplicit false

namespace KNames

theorem Candidates.single_names {x : String} (hx : x ≠ "") : (single x).names = [x] := by
  simp [single, ofNames, hx]

theorem Candidates.matchesAny_single {x : String} (hx : x ≠ "") (names : List String) :
    (single x).matchesAny names = names.contains x := by
  rw [Bool.eq_iff_iff, matchesAny_iff, single_names hx, List.contains_iff_mem]
  simp

theorem Kind.declared?_var_iff {kind : Kind} {names : List String} :
    kind.declared? .var = some names ↔
      ∃ ident sort, kind = .varDecl (some ident) sort ∧ names = [ident.name] := by
  constructor
  · intro h
    cases kind with
    | varDecl name sort =>
      obtain ⟨ident, rfl, rfl⟩ := Option.map_eq_some_iff.mp h
      exact ⟨ident, sort, rfl, rfl⟩
    | _ => cases h
  · rintro ⟨ident, sort, rfl, rfl⟩
    rfl

namespace Tree

variable {t : Tree} {node i : NodeId} {x : String}

def DeclaresVar (t : Tree) (x : String) (i : NodeId) : Prop :=
  ∃ ident sort, t.kind? i = some (.varDecl (some ident) sort) ∧ ident.name = x

/-- The variable is declared at `i`, below the body that belongs to `node`. -/
def VarInScope (t : Tree) (node : NodeId) (x : String) (i : NodeId) : Prop :=
  ∃ r b, t.InnermostRule node r ∧ t.FirstBody r b ∧ t.Below b i ∧ t.DeclaresVar x i

theorem FirstBody.lt_size {r b : NodeId} (h : t.FirstBody r b) : b < t.size :=
  lt_size_of_kind? h.kind?

theorem varInScope_iff : t.VarInScope node x i ↔
    ∃ b, t.enclosingBody? node = some b ∧ i ∈ t.descendants b ∧ t.DeclaresVar x i := by
  constructor
  · rintro ⟨r, b, hr, hb, hi, hx⟩
    exact ⟨b, enclosingBody?_eq_some_iff.mpr ⟨r, hr, hb⟩,
      (mem_descendants_iff_below hb.lt_size).mpr hi, hx⟩
  · rintro ⟨b, hbody, hi, hx⟩
    obtain ⟨r, hr, hb⟩ := enclosingBody?_eq_some_iff.mp hbody
    exact ⟨r, b, hr, hb, (mem_descendants_iff_below hb.lt_size).mp hi, hx⟩

end Tree

namespace Source

variable {source : Source} {node : NodeId} {x : String} {d e : Declaration}

structure BindsVar (source : Source) (node : NodeId) (x : String) (d : Declaration) : Prop where
  node : source.tree.VarInScope node x d.node
  file : d.file = source.id
  kind : d.kind = .var
  span : source.tree.span? d.node = some d.span
  names : d.names = [x]

theorem BindsVar.eq_of_node (hd : source.BindsVar node x d) (he : source.BindsVar node x e)
    (h : d.node = e.node) : d = e := by
  have hspan : d.span = e.span := by
    have hds := hd.span
    rw [h, he.span] at hds
    exact (Option.some.inj hds).symm
  have hfile := hd.file.trans he.file.symm
  have hkind := hd.kind.trans he.kind.symm
  have hnames := hd.names.trans he.names.symm
  cases d
  cases e
  simp_all

theorem exists_bindsVar {i : NodeId} (h : source.tree.VarInScope node x i) :
    ∃ d, source.BindsVar node x d ∧ d.node = i := by
  have hvar : source.tree.DeclaresVar x i := by
    obtain ⟨_, _, _, _, _, hx⟩ := h
    exact hx
  obtain ⟨_, _, hk, _⟩ := hvar
  obtain ⟨span, hspan⟩ := Tree.exists_span? hk
  exact ⟨⟨source.id, i, .var, span, [x]⟩, ⟨h, rfl, rfl, hspan, rfl⟩, rfl⟩

theorem mem_ofRule_listed_iff {index : FileIndex} {kind : DeclKind} :
    d ∈ (SearchSpace.ofRule source node).value.listed index kind ↔
      ∃ b, source.tree.enclosingBody? node = some b ∧ d ∈ Declaration.inSubtree source b kind := by
  unfold SearchSpace.ofRule
  cases source.tree.enclosingBody? node with
  | none =>
    constructor
    · intro h
      exact absurd h List.not_mem_nil
    · rintro ⟨b, hb, _⟩
      cases hb
  | some body =>
    constructor
    · intro h
      exact ⟨body, rfl, h⟩
    · rintro ⟨b, hb, h⟩
      cases hb
      exact h

theorem ofRule_listed_pairwise (index : FileIndex) (kind : DeclKind) :
    ((SearchSpace.ofRule source node).value.listed index kind).Pairwise Declaration.Before := by
  unfold SearchSpace.ofRule
  cases source.tree.enclosingBody? node with
  | none => exact List.Pairwise.nil
  | some body => exact Declaration.inSubtree_pairwise source body kind

theorem bindsVar_iff_mem_ofRule (index : FileIndex) : source.BindsVar node x d ↔
    d ∈ (SearchSpace.ofRule source node).value.listed index .var ∧ x ∈ d.names := by
  rw [mem_ofRule_listed_iff]
  constructor
  · rintro ⟨hnode, hfile, hkind, hspan, hd⟩
    obtain ⟨b, hb, hi, ident, sort, hk, rfl⟩ := Tree.varInScope_iff.mp hnode
    have hdecl := Kind.declared?_var_iff.mpr ⟨ident, sort, rfl, hd⟩
    have hat : Declaration.at? source d.node .var = some d :=
      Declaration.at?_eq_some_iff_kind?.mpr ⟨_, hk, hdecl, hspan, hfile, rfl, hkind⟩
    refine ⟨⟨b, hb, Declaration.mem_inSubtree_iff.mpr ⟨hi, hat⟩⟩, ?_⟩
    rw [hd]
    exact List.mem_singleton_self _
  · rintro ⟨⟨b, hb, hd⟩, hname⟩
    obtain ⟨hi, hat⟩ := Declaration.mem_inSubtree_iff.mp hd
    obtain ⟨_, hk, hdecl, hspan, hfile, _, hkind⟩ := Declaration.at?_eq_some_iff_kind?.mp hat
    obtain ⟨ident, sort, rfl, hnames⟩ := Kind.declared?_var_iff.mp hdecl
    have hident : x = ident.name := by
      rwa [hnames, List.mem_singleton] at hname
    have hvar : source.tree.DeclaresVar x d.node := ⟨ident, sort, hk, hident.symm⟩
    have hd' : d.names = [x] := by
      rw [hnames, hident]
    exact ⟨Tree.varInScope_iff.mpr ⟨b, hb, hi, hvar⟩, hfile, hkind, hspan, hd'⟩

theorem bindsVar_iff_mem_listed (index : FileIndex) (settings : Settings) (hx : x ≠ "") :
    source.BindsVar node x d ↔
      d ∈ (SearchSpace.ofRule source node).value.listed index .var ∧
        ((Reference.var x).candidates settings).matchesAny d.names = true := by
  have hmatch : ((Reference.var x).candidates settings).matchesAny d.names = d.names.contains x :=
    Candidates.matchesAny_single hx d.names
  rw [bindsVar_iff_mem_ofRule index, hmatch, List.contains_iff_mem]

theorem BindsVar.least_iff (hd : source.BindsVar node x d) :
    (∀ e, source.BindsVar node x e → e = d ∨ d.Before e) ↔
      ∀ i, source.tree.VarInScope node x i → d.node ≤ i := by
  constructor
  · intro h i hi
    obtain ⟨e, he, rfl⟩ := exists_bindsVar hi
    rcases h e he with rfl | hfile | ⟨_, hnode⟩
    · exact Nat.le_refl _
    · exact absurd (hd.file.trans he.file.symm) (Nat.ne_of_lt hfile)
    · exact Nat.le_of_lt hnode
  · intro h e he
    rcases Nat.eq_or_lt_of_le (h e.node he.node) with hnode | hnode
    · exact .inl (he.eq_of_node hd hnode.symm)
    · exact .inr (.inr ⟨hd.file.trans he.file.symm, hnode⟩)

end Source

namespace Registry

variable {r : Registry} {source : Source} {f : FileId} {x : String}

/-- A variable binds to the first declaration of it in the body that belongs to its node. -/
theorem resolve_first_in_body (settings : Settings) (h : r.source? f = some source) (hx : x ≠ "")
    (node : NodeId) :
    let result := ((Resolver.mk r.index settings).resolve ⟨f, node, .var x⟩).value
    (result.isResolved = true ↔ ∃ i, source.tree.VarInScope node x i) ∧
      (∀ d, result.declaration = some d ↔ source.BindsVar node x d ∧
        ∀ i, source.tree.VarInScope node x i → d.node ≤ i) ∧
      ∀ other rule, source.tree.InnermostRule node rule → source.tree.InnermostRule other rule →
        ((Resolver.mk r.index settings).resolve ⟨f, other, .var x⟩).value = result := by
  intro result
  obtain ⟨hresolved, hfirst⟩ := Resolver.resolve_least ⟨r.index, settings⟩ ⟨f, node, .var x⟩ h rfl
    (Source.ofRule_listed_pairwise r.index .var)
    (fun _ => Source.bindsVar_iff_mem_listed r.index settings hx)
  refine ⟨?_, ?_, ?_⟩
  · rw [hresolved]
    constructor
    · rintro ⟨d, hd⟩
      exact ⟨d.node, hd.node⟩
    · rintro ⟨i, hi⟩
      obtain ⟨d, hd, _⟩ := Source.exists_bindsVar hi
      exact ⟨d, hd⟩
  · intro d
    rw [hfirst]
    exact and_congr_right fun hd => hd.least_iff
  · intro other rule hnode hother
    have hbody : source.tree.enclosingBody? other = source.tree.enclosingBody? node := by
      rw [Tree.enclosingBody?, Tree.enclosingBody?, Tree.enclosingRule?_eq_some_iff.mpr hnode,
        Tree.enclosingRule?_eq_some_iff.mpr hother]
    refine Resolver.resolve_congr ⟨r.index, settings⟩ h ?_
    change (SearchSpace.ofRule source other).value = (SearchSpace.ofRule source node).value
    unfold SearchSpace.ofRule
    rw [hbody]
    cases source.tree.enclosingBody? node <;> rfl

theorem resolve_first_in_body_duo : duo.source? 1 = some duoSecond ∧ "X" ≠ "" ∧
    duoSecond.BindsVar 5 "X" ⟨1, 4, .var, ⟨10, 12⟩, ["X"]⟩ := by
  have hlive : duo.source? 1 = some duoSecond := rfl
  have hx : "X" ≠ "" := by decide
  obtain ⟨_, hfirst, _⟩ := resolve_first_in_body {} hlive hx 5
  exact ⟨hlive, hx, ((hfirst _).mp rfl).1⟩

end Registry

end KNames
