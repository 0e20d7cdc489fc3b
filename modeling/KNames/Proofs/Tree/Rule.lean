import KNames.Proofs.Tree.Links
import Mathlib.Data.List.Find

set_option autoImplicit false

namespace KNames

theorem Kind.isRule_iff {kind : Kind} : kind.isRule = true ↔ kind = .rule := by
  cases kind <;> simp [Kind.isRule]

theorem Kind.isRuleBody_iff {kind : Kind} : kind.isRuleBody = true ↔ kind = .ruleBody := by
  cases kind <;> simp [Kind.isRuleBody]

theorem Kind.isBoundary_eq_false_iff {kind : Kind} : kind.isBoundary = false ↔
    kind ≠ .rule ∧ kind ≠ .file ∧ ∀ name, kind ≠ .moduleBlock name := by
  cases kind <;> simp [Kind.isBoundary]

namespace Tree

variable {t : Tree} {i p r b : NodeId} {kind : Kind}

/-- The rule `r` is `i` or above it, with no rule, module or file between them or at `i`. -/
structure InnermostRule (t : Tree) (i r : NodeId) : Prop where
  isRule : t.kind? r = some .rule
  above : t.Below r i
  nearest : ∀ a, t.Below r a → t.Below a i → a ≠ r → ∀ kind, t.kind? a = some kind →
    kind ≠ .rule ∧ kind ≠ .file ∧ ∀ name, kind ≠ .moduleBlock name

def FirstBody (t : Tree) (r b : NodeId) : Prop :=
  ∃ before after, t.children r = before ++ b :: after ∧ t.kind? b = some .ruleBody ∧
    ∀ c ∈ before, t.kind? c ≠ some .ruleBody

theorem innermostRule_of_boundary (hk : t.kind? i = some kind) (hb : kind.isBoundary = true) :
    t.InnermostRule i r ↔ kind = .rule ∧ r = i := by
  constructor
  · intro h
    by_cases hr : r = i
    · have hrule := h.isRule
      rw [hr, hk] at hrule
      exact ⟨Option.some.inj hrule, hr⟩
    · -- A rule further up would have the boundary at `i` below it.
      have hfree := h.nearest i h.above Relation.ReflTransGen.refl (Ne.symm hr) kind hk
      rw [Kind.isBoundary_eq_false_iff.mpr hfree] at hb
      exact absurd hb Bool.false_ne_true
  · rintro ⟨rfl, rfl⟩
    refine ⟨hk, Relation.ReflTransGen.refl, ?_⟩
    intro a hra har hne
    exact absurd (Nat.le_antisymm (le_of_below har) (le_of_below hra)) hne

theorem innermostRule_of_parent? (hp : t.parent? i = some p) (hk : t.kind? i = some kind)
    (hb : kind.isBoundary = false) : t.InnermostRule i r ↔ t.InnermostRule p r := by
  constructor
  · intro h
    rcases (below_iff_of_parent? hp).mp h.above with rfl | habove
    · have hrule := h.isRule
      rw [hk] at hrule
      cases hrule
      exact absurd hb (by decide)
    · refine ⟨h.isRule, habove, ?_⟩
      intro a hra hap
      exact h.nearest a hra ((below_iff_of_parent? hp).mpr (.inr hap))
  · intro h
    refine ⟨h.isRule, (below_iff_of_parent? hp).mpr (.inr h.above), ?_⟩
    intro a hra hai hne other hother
    rcases (below_iff_of_parent? hp).mp hai with rfl | hap
    · rw [hk] at hother
      cases hother
      exact Kind.isBoundary_eq_false_iff.mp hb
    · exact h.nearest a hra hap hne other hother

theorem enclosingRule?_of_boundary (hk : t.kind? i = some kind) (hb : kind.isBoundary = true) :
    t.enclosingRule? i = if kind = .rule then some i else none := by
  obtain ⟨n, hn, rfl⟩ := Option.map_eq_some_iff.mp hk
  obtain ⟨later, hpath⟩ := List.head?_eq_some_iff.mp hn
  have hfind : (t.path i).find? (·.kind.isBoundary) = some n := by
    rw [hpath]
    exact List.find?_cons_of_pos hb
  rw [enclosingRule?, hfind, Option.filter_some]
  by_cases hrule : n.kind = .rule
  · rw [if_pos (Kind.isRule_iff.mpr hrule), if_pos hrule, Option.map_some, id_of_node? hn]
  · rw [if_neg (fun h => hrule (Kind.isRule_iff.mp h)), if_neg hrule, Option.map_none]

theorem enclosingRule?_of_parent? (hp : t.parent? i = some p) (hk : t.kind? i = some kind)
    (hb : kind.isBoundary = false) : t.enclosingRule? i = t.enclosingRule? p := by
  obtain ⟨n, hn, hpath⟩ := path_of_parent? hp
  rw [kind?_of_node? hn] at hk
  cases hk
  rw [enclosingRule?, hpath, List.find?_cons_of_neg (by simp [hb]), enclosingRule?]

theorem enclosingRule?_eq_some_iff : t.enclosingRule? i = some r ↔ t.InnermostRule i r := by
  by_cases hi : i < t.size
  · refine node_induction (P := fun i => t.enclosingRule? i = some r ↔ t.InnermostRule i r) ?_ ?_ hi
    · have hroot : t.kind? root = some .file := rfl
      rw [enclosingRule?_of_boundary hroot rfl, innermostRule_of_boundary hroot rfl]
      simp
    · intro p i hp ih
      obtain ⟨n, hn⟩ := exists_node_iff.mpr (lt_size_of_parent? hp)
      have hk := kind?_of_node? hn
      cases hb : n.kind.isBoundary with
      | true =>
        rw [enclosingRule?_of_boundary hk hb, innermostRule_of_boundary hk hb]
        by_cases hrule : n.kind = .rule
        · rw [if_pos hrule, Option.some_inj, eq_comm]
          exact (and_iff_right hrule).symm
        · rw [if_neg hrule]
          constructor
          · intro h
            cases h
          · intro h
            exact absurd h.1 hrule
      | false => rw [enclosingRule?_of_parent? hp hk hb, innermostRule_of_parent? hp hk hb, ih]
  · rw [enclosingRule?, path_of_size_le (Nat.le_of_not_lt hi)]
    constructor
    · intro h
      cases h
    · intro h
      exact absurd (lt_size_of_below h.above (lt_size_of_kind? h.isRule)) hi

theorem InnermostRule.unique {q : NodeId} (hr : t.InnermostRule i r) (hq : t.InnermostRule i q) :
    r = q := by
  have h := enclosingRule?_eq_some_iff.mpr hr
  rw [enclosingRule?_eq_some_iff.mpr hq] at h
  exact (Option.some.inj h).symm

theorem ruleBody?_eq_find? (hr : t.kind? r = some .rule) :
    t.ruleBody? r = (t.children r).find? fun c => decide (t.kind? c = some .ruleBody) := by
  obtain ⟨n, hn, hk⟩ := Option.map_eq_some_iff.mp hr
  have hbody : (t.node? r).bind (·.body?) = n.childNodes.find? (·.kind.isRuleBody) := by
    rw [hn]
    change (if n.kind.isRule then _ else _) = _
    rw [if_pos (Kind.isRule_iff.mpr hk)]
  rw [ruleBody?, hbody, children_of_node? hn, Node.children, List.find?_map]
  congr 1
  -- A child node and its number tell the same kind.
  refine List.find?_congr ?_
  intro m hm
  have hmem : m ∈ t.nodes := mem_nodes_of_mem_childNodes (mem_nodes_of_node? hn) hm
  have hkind := kind?_of_node? (node?_of_mem hmem)
  rw [Function.comp_apply, hkind, Bool.eq_iff_iff, Kind.isRuleBody_iff, decide_eq_true_iff,
    Option.some_inj]

theorem ruleBody?_eq_some_iff (hr : t.kind? r = some .rule) :
    t.ruleBody? r = some b ↔ t.FirstBody r b := by
  rw [ruleBody?_eq_find? hr, List.find?_eq_some_iff_append]
  constructor
  · rintro ⟨hb, before, after, hsplit, hbefore⟩
    refine ⟨before, after, hsplit, of_decide_eq_true hb, ?_⟩
    intro c hc
    simpa using hbefore c hc
  · rintro ⟨before, after, hsplit, hb, hbefore⟩
    refine ⟨decide_eq_true hb, before, after, hsplit, ?_⟩
    intro c hc
    simpa using hbefore c hc

theorem FirstBody.parent? (h : t.FirstBody r b) : t.parent? b = some r := by
  obtain ⟨before, after, hsplit, -, -⟩ := h
  rw [← mem_children_iff_parent?, hsplit]
  exact List.mem_append_right _ List.mem_cons_self

theorem FirstBody.kind? (h : t.FirstBody r b) : t.kind? b = some .ruleBody := by
  obtain ⟨_, _, _, hb, _⟩ := h
  exact hb

theorem FirstBody.innermostRule_iff {q : NodeId} (h : t.FirstBody r b)
    (hr : t.kind? r = some .rule) : t.InnermostRule b q ↔ q = r := by
  rw [innermostRule_of_parent? h.parent? h.kind? rfl, innermostRule_of_boundary hr rfl]
  exact and_iff_right rfl

theorem enclosingBody?_eq_some_iff :
    t.enclosingBody? i = some b ↔ ∃ r, t.InnermostRule i r ∧ t.FirstBody r b := by
  rw [enclosingBody?, Option.bind_eq_some_iff]
  constructor
  · rintro ⟨r, hr, hb⟩
    have hrule := enclosingRule?_eq_some_iff.mp hr
    exact ⟨r, hrule, (ruleBody?_eq_some_iff hrule.isRule).mp hb⟩
  · rintro ⟨r, hrule, hb⟩
    exact ⟨r, enclosingRule?_eq_some_iff.mpr hrule, (ruleBody?_eq_some_iff hrule.isRule).mpr hb⟩

end Tree

end KNames
