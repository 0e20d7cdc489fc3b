import KNames.Proofs.Binding.Duplicates

set_option autoImplicit false

/-!
# The rule that a variable belongs to

The way up from a node ends at the first rule, module or file, but the body of a rule is searched
as a whole, with the rules inside it. What is found in a body therefore belongs to its rule only
if nothing of the kind stands in between: a rule inside a body lends its variables to the rule
around it, but never to a rule beside that one.
-/
namespace KNames

namespace Tree

variable {t : Tree} {b i p q r : NodeId} {kind : Kind}

/-- From `b` down to `i`, both included, there is no rule, module or file. -/
def Unbroken (t : Tree) (b i : NodeId) : Prop :=
  ∀ a, t.Below b a → t.Below a i → ∀ kind, t.kind? a = some kind → kind.isBoundary = false

theorem FirstBody.lt_of_below (h : t.FirstBody r b) (hi : t.Below b i) : r < i :=
  Nat.lt_of_lt_of_le (lt_of_parent? h.parent?) (le_of_below hi)

theorem unbroken_self (hk : t.kind? b = some kind) (hb : kind.isBoundary = false) :
    t.Unbroken b b := by
  intro a hba hab other hother
  cases Nat.le_antisymm (le_of_below hba) (le_of_below hab)
  cases hk.symm.trans hother
  exact hb

theorem unbroken_iff_of_parent? (hp : t.parent? i = some p) (hk : t.kind? i = some kind)
    (hbp : t.Below b p) : t.Unbroken b i ↔ kind.isBoundary = false ∧ t.Unbroken b p := by
  have hbi : t.Below b i := (below_iff_of_parent? hp).mpr (.inr hbp)
  constructor
  · intro h
    refine ⟨h i hbi Relation.ReflTransGen.refl kind hk, fun a hba hap => ?_⟩
    exact h a hba ((below_iff_of_parent? hp).mpr (.inr hap))
  · rintro ⟨hfree, h⟩ a hba hai other hother
    rcases (below_iff_of_parent? hp).mp hai with rfl | hap
    · cases hk.symm.trans hother
      exact hfree
    · exact h a hba hap other hother

/-- What is below the body of a rule is in this rule exactly if nothing stands in between, and
otherwise in a rule below the body or in none. -/
theorem FirstBody.innermostRule_of_below (h : t.FirstBody r b) (hr : t.kind? r = some .rule)
    (hi : t.Below b i) : (t.InnermostRule i r ↔ t.Unbroken b i) ∧
      ∀ q, t.InnermostRule i q → q = r ∨ t.Below b q := by
  induction hi with
  | refl =>
    refine ⟨⟨fun _ => unbroken_self h.kind? rfl, fun _ => (h.innermostRule_iff hr).mpr rfl⟩, ?_⟩
    exact fun q hq => .inl ((h.innermostRule_iff hr).mp hq)
  | @tail p i hbp hpi ih =>
    have hp : t.parent? i = some p := mem_children_iff_parent?.mp hpi
    have hbi : t.Below b i := hbp.tail hpi
    obtain ⟨n, hn⟩ := exists_node_iff.mpr (lt_size_of_parent? hp)
    have hk := kind?_of_node? hn
    rw [unbroken_iff_of_parent? hp hk hbp]
    cases hb : n.kind.isBoundary with
    | true =>
      -- A boundary at `i` leaves no rule around it but itself, and `r` is further up.
      simp only [innermostRule_of_boundary hk hb]
      refine ⟨⟨?_, fun hno => absurd hno.1 (by decide)⟩, ?_⟩
      · rintro ⟨-, rfl⟩
        exact absurd (h.lt_of_below hbi) (Nat.lt_irrefl _)
      · rintro q ⟨-, rfl⟩
        exact .inr hbi
    | false =>
      simp only [innermostRule_of_parent? hp hk hb, true_and]
      exact ih

/-- The node is below the first body of the rule `r`, and how this decides which rule is around
it. -/
structure OwnedBy (t : Tree) (r b i : NodeId) : Prop where
  rule : t.kind? r = some .rule
  body : t.FirstBody r b
  below : t.Below b i
  same : t.enclosingRule? i = some r ↔ t.Unbroken b i
  inside : ∀ q, t.enclosingRule? i = some q → q = r ∨ t.Below b q

theorem FirstBody.ownedBy (h : t.FirstBody r b) (hr : t.kind? r = some .rule) (hi : t.Below b i) :
    t.OwnedBy r b i := by
  obtain ⟨hsame, hinside⟩ := h.innermostRule_of_below hr hi
  refine ⟨hr, h, hi, enclosingRule?_eq_some_iff.trans hsame, fun q hq => ?_⟩
  exact hinside q (enclosingRule?_eq_some_iff.mp hq)

theorem DeclaresVar.unique {x y : String} (hx : t.DeclaresVar x i) (hy : t.DeclaresVar y i) :
    x = y := by
  obtain ⟨ident, sort, hk, rfl⟩ := hx
  obtain ⟨_, _, hk', rfl⟩ := hy
  cases hk.symm.trans hk'
  rfl

end Tree

namespace Diagnostic

variable {source : Source} {r b : NodeId} {d : Diagnostic}

/-- The diagnostic is at `again`, and the declaration it points back to is the one at `first`. -/
def Concerns (t : Tree) (first again : NodeId) (d : Diagnostic) : Prop :=
  ∃ x previous, first < again ∧ t.DeclaresVar x first ∧ t.DeclaresVar x again ∧
    t.span? first = some previous ∧ t.span? again = some d.span ∧
    d.complaint = .duplicateVariable x previous

theorem concerns_of_mem (h : source.tree.ruleBody? r = some b) (hb : b < source.tree.size)
    (hd : d ∈ duplicateVariables source r) : ∃ first again, Concerns source.tree first again d ∧
      source.tree.Below b first ∧ source.tree.Below b again := by
  obtain ⟨e, he, hcomplaint⟩ :=
    List.mem_filterMap.mp ((duplicateVariables_perm h hb).mem_iff.mp hd)
  obtain ⟨hlisted, before, hbefore, hlt, hnames⟩ := Declaration.mem_again_iff.mp he
  obtain ⟨report, hreport, x, first, previous, hx, hfirst, hprevious, hspan, hkind⟩ :=
    reports_complaint hb hlisted
  cases hcomplaint.symm.trans hreport
  obtain ⟨y, hy, hbelow, hdeclares, -⟩ := Declaration.var_of_mem hb hlisted
  obtain ⟨z, hz, hearlier, hz', -⟩ := Declaration.var_of_mem hb hbefore
  have hyx : y = x := hdeclares.unique hx
  have hzx : z = x := by
    rw [← hyx, ← List.singleton_inj, ← hz, ← hy, hnames]
  -- What the complaint points to is the first of all, so it is before `e` as `before` is.
  have horder : first < e.node := Nat.lt_of_le_of_lt (hfirst.least _ hearlier (hzx ▸ hz')) hlt
  exact ⟨first, e.node, ⟨x, previous, horder, hfirst.declares, hx, hprevious, hspan, hkind⟩,
    hfirst.below, hbelow⟩

end Diagnostic

namespace Registry

variable {r : Registry} {source : Source} {f : FileId}

theorem below_of_resolve_var (settings : Settings) (h : r.source? f = some source) {node : NodeId}
    {x : String} {d : Declaration}
    (hd : ((Resolver.mk r.index settings).resolve ⟨f, node, .var x⟩).value.declaration = some d) :
    ∃ rule body, source.tree.InnermostRule node rule ∧ source.tree.FirstBody rule body ∧
      source.tree.Below body d.node := by
  rw [Resolver.resolve_declaration ⟨r.index, settings⟩ ⟨f, node, .var x⟩ h] at hd
  obtain ⟨body, hbody, hlisted⟩ := Source.mem_ofRule_listed_iff.mp (List.mem_of_find?_eq_some hd)
  obtain ⟨rule, hrule, hfirst⟩ := Tree.enclosingBody?_eq_some_iff.mp hbody
  have hbelow := (Declaration.mem_inSubtree_iff.mp hlisted).1
  exact ⟨rule, body, hrule, hfirst, (Tree.mem_descendants_iff_below hfirst.lt_size).mp hbelow⟩

/-- What a variable binds to, and both declarations in every complaint about a rule, are below the
first body of the rule. They are variables of this rule unless a rule, module or file stands in
between, and then of none or of a rule below. -/
theorem variables_owned (settings : Settings) (h : r.source? f = some source) :
    (∀ node x d,
      ((Resolver.mk r.index settings).resolve ⟨f, node, .var x⟩).value.declaration = some d →
        ∃ rule body, source.tree.enclosingRule? node = some rule ∧
          source.tree.OwnedBy rule body d.node) ∧
    ∀ rule, ∀ d ∈ Diagnostic.duplicateVariables source rule, ∃ body first again,
      d.Concerns source.tree first again ∧ source.tree.OwnedBy rule body first ∧
        source.tree.OwnedBy rule body again := by
  constructor
  · intro node x d hd
    obtain ⟨rule, body, hrule, hbody, hbelow⟩ := below_of_resolve_var settings h hd
    exact ⟨rule, body, Tree.enclosingRule?_eq_some_iff.mpr hrule,
      hbody.ownedBy hrule.isRule hbelow⟩
  · intro rule d hd
    obtain ⟨body, hbody⟩ : ∃ body, source.tree.ruleBody? rule = some body := by
      rw [← Option.ne_none_iff_exists']
      intro hnone
      rw [Diagnostic.duplicateVariables, hnone] at hd
      exact List.not_mem_nil hd
    have hrule := Tree.isRule_of_ruleBody? hbody
    have hfirst := (Tree.ruleBody?_eq_some_iff hrule).mp hbody
    obtain ⟨first, again, hconcerns, hearlier, hlater⟩ :=
      Diagnostic.concerns_of_mem hbody hfirst.lt_size hd
    exact ⟨body, first, again, hconcerns, hfirst.ownedBy hrule hearlier,
      hfirst.ownedBy hrule hlater⟩

/-- A rule refers to a variable of the rule inside it, and another one declares a variable that the
rule inside it declares too. -/
def lending : Source :=
  let inside (x : String) : Script → Script :=
    .block .rule (.step (.varDecl x none) .done)
  let borrowing : Script := inside "X" (.step (.reference "X") .done)
  let repeating : Script := .step (.varDecl "Y" none) (inside "Y" .done)
  ⟨0, "l.k", (Script.block .rule borrowing (.block .rule repeating .done)).build⟩

def lendingOnly : Registry := (empty.addFile lending.uri none lending.tree).2

theorem lending_duplicates : Diagnostic.duplicateVariables lending 7 =
    [⟨.duplicateVariable "Y" ⟨22, 24⟩, ⟨30, 32⟩⟩] :=
  List.mergeSort_singleton _

theorem variables_owned_lending : lendingOnly.source? 0 = some lending ∧
    (((Resolver.mk lendingOnly.index {}).resolve ⟨0, 6, .var "X"⟩).value.declaration =
        some ⟨0, 5, .var, ⟨12, 14⟩, ["X"]⟩ ∧
      ∃ body, lending.tree.OwnedBy 1 body 5) ∧
    ⟨.duplicateVariable "Y" ⟨22, 24⟩, ⟨30, 32⟩⟩ ∈ Diagnostic.duplicateVariables lending 7 ∧
      ∃ body first again,
        Diagnostic.Concerns lending.tree first again ⟨.duplicateVariable "Y" ⟨22, 24⟩, ⟨30, 32⟩⟩ ∧
          lending.tree.OwnedBy 7 body first ∧ lending.tree.OwnedBy 7 body again := by
  have hlive : lendingOnly.source? 0 = some lending := rfl
  have hbound : ((Resolver.mk lendingOnly.index {}).resolve ⟨0, 6, .var "X"⟩).value.declaration =
      some ⟨0, 5, .var, ⟨12, 14⟩, ["X"]⟩ := rfl
  have hmem : ⟨.duplicateVariable "Y" ⟨22, 24⟩, ⟨30, 32⟩⟩ ∈
      Diagnostic.duplicateVariables lending 7 := by
    rw [lending_duplicates]
    exact List.mem_cons_self
  obtain ⟨hbinds, hcomplains⟩ := variables_owned {} hlive
  obtain ⟨rule, body, hrule, howned⟩ := hbinds 6 "X" _ hbound
  cases hrule
  exact ⟨hlive, ⟨hbound, body, howned⟩, hmem, hcomplains 7 _ hmem⟩

/-- Neither the variable that the outer rule refers to nor the second one that is complained about
belongs to the outer rule. -/
theorem variables_lent : lendingOnly.source? 0 = some lending ∧
    (((Resolver.mk lendingOnly.index {}).resolve ⟨0, 6, .var "X"⟩).value.declaration =
        some ⟨0, 5, .var, ⟨12, 14⟩, ["X"]⟩ ∧
      lending.tree.enclosingRule? 5 ≠ lending.tree.enclosingRule? 6) ∧
    ∃ d ∈ Diagnostic.duplicateVariables lending 7, d.Concerns lending.tree 9 12 ∧
      ∀ first again, d.Concerns lending.tree first again →
        lending.tree.enclosingRule? again ≠ some 7 := by
  refine ⟨rfl, ⟨rfl, by decide⟩, ⟨.duplicateVariable "Y" ⟨22, 24⟩, ⟨30, 32⟩⟩, ?_, ?_, ?_⟩
  · rw [lending_duplicates]
    exact List.mem_cons_self
  · exact ⟨"Y", ⟨22, 24⟩, by decide, ⟨_, _, rfl, rfl⟩, ⟨_, _, rfl, rfl⟩, rfl, rfl, rfl⟩
  · rintro first again ⟨x, _, -, -, ⟨_, _, hkind, -⟩, -, hspan, -⟩
    -- Nothing at this span is in the outer rule.
    have hother : ∀ i < lending.tree.size, lending.tree.span? i = some ⟨30, 32⟩ →
        lending.tree.enclosingRule? i ≠ some 7 := by decide
    exact hother again (Tree.lt_size_of_kind? hkind) hspan

end Registry

end KNames
