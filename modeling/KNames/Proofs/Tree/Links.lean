import KNames.Proofs.Tree.Numbering
import KNames.Tree.Basic
import Mathlib.Logic.Relation

set_option autoImplicit false

namespace KNames

namespace Node

variable {n m : Node}

theorem mem_subtree_of_mem_childNodes (h : m ∈ n.childNodes) : m ∈ n.subtree :=
  List.mem_cons_of_mem _ (Forest.mem_nodes_of_mem_tops h)

theorem subtree_subset (h : m ∈ n.subtree) : m.subtree ⊆ n.subtree := by
  rcases List.mem_cons.mp h with rfl | h
  · exact List.Subset.refl _
  · exact List.Subset.trans (Forest.subtree_subset h) (List.subset_cons_self _ _)

theorem parent_of_mem_childNodes (h : m ∈ n.childNodes) : m.parent = some n.id :=
  Forest.parent_of_mem_tops h

theorem lt_of_mem_childNodes (h : m ∈ n.childNodes) : n.id < m.id :=
  (Forest.id_of_mem (Forest.mem_nodes_of_mem_tops h)).1

theorem subtree_map_id (n : Node) :
    n.subtree.map (·.id) = List.range' n.id (n.below.size + 1) := by
  rw [subtree, List.map_cons, Forest.nodes_map_id, List.range'_succ]

theorem children_pairwise (n : Node) : n.children.Pairwise (· < ·) :=
  List.pairwise_map.mpr (Forest.tops_pairwise _ _ _)

end Node

namespace Tree

variable {t : Tree} {a b i p q : NodeId} {n m : Node}

def Below (t : Tree) : NodeId → NodeId → Prop :=
  Relation.ReflTransGen fun p i => i ∈ t.children p

/-- A walk by child links: `stack` holds the nodes still to be visited, the next one first, and a
visited node is replaced by its children. -/
inductive Visits (t : Tree) : List NodeId → List NodeId → Prop
  | nil : Visits t [] []
  | cons {i : NodeId} {stack visited : List NodeId} :
    Visits t (t.children i ++ stack) visited → Visits t (i :: stack) (i :: visited)

theorem node?_eq_getElem? (t : Tree) (i : NodeId) : t.node? i = t.nodes[i]? :=
  Forest.path_head? none root t.whole i

theorem node?_eq_some_iff : t.node? i = some n ↔ n ∈ t.nodes ∧ n.id = i := by
  rw [node?_eq_getElem?]
  constructor
  · intro h
    refine ⟨List.mem_of_getElem? h, ?_⟩
    rw [Forest.id_of_getElem? h]
    exact Nat.zero_add i
  · rintro ⟨h, rfl⟩
    obtain ⟨i, hi⟩ := List.mem_iff_getElem?.mp h
    have hid : n.id = 0 + i := Forest.id_of_getElem? hi
    rwa [hid, Nat.zero_add]

theorem node?_of_mem (h : n ∈ t.nodes) : t.node? n.id = some n :=
  node?_eq_some_iff.mpr ⟨h, rfl⟩

theorem mem_nodes_of_node? (h : t.node? i = some n) : n ∈ t.nodes := (node?_eq_some_iff.mp h).1

theorem id_of_node? (h : t.node? i = some n) : n.id = i := (node?_eq_some_iff.mp h).2

theorem node?_eq_none_iff : t.node? i = none ↔ t.size ≤ i := by
  rw [node?_eq_getElem?, List.getElem?_eq_none_iff, nodes, Forest.nodes_length]
  rfl

theorem exists_node_iff : (∃ n, t.node? i = some n) ↔ i < t.size := by
  rw [← Option.isSome_iff_exists, ← Option.ne_none_iff_isSome, ne_eq, node?_eq_none_iff, Nat.not_le]

theorem lt_size_of_node? (h : t.node? i = some n) : i < t.size := exists_node_iff.mp ⟨n, h⟩

theorem kind?_of_node? (h : t.node? i = some n) : t.kind? i = some n.kind := by
  rw [kind?, h]
  rfl

theorem span?_of_node? (h : t.node? i = some n) : t.span? i = some n.span := by
  rw [span?, h]
  rfl

theorem exists_node_of_span? {i : NodeId} {span : Span} (h : t.span? i = some span) :
    ∃ n, t.node? i = some n ∧ n.span = span :=
  Option.map_eq_some_iff.mp h

theorem filterMap_span? {ns : List Node} (h : ns ⊆ t.nodes) :
    (ns.map (·.id)).filterMap t.span? = ns.map (·.span) := by
  induction ns with
  | nil => rfl
  | cons n ns ih =>
    obtain ⟨hn, hns⟩ := List.cons_subset.mp h
    rw [List.map_cons, List.filterMap_cons_some (span?_of_node? (node?_of_mem hn)), ih hns,
      List.map_cons]

theorem exists_span? {kind : Kind} (h : t.kind? i = some kind) : ∃ span, t.span? i = some span := by
  obtain ⟨n, hn, _⟩ := Option.map_eq_some_iff.mp h
  exact ⟨n.span, span?_of_node? hn⟩

theorem lt_size_of_kind? {kind : Kind} (h : t.kind? i = some kind) : i < t.size := by
  obtain ⟨n, hn, _⟩ := Option.map_eq_some_iff.mp h
  exact lt_size_of_node? hn

theorem children_of_node? (h : t.node? i = some n) : t.children i = n.children := by
  unfold children
  rw [h]
  rfl

theorem children_of_size_le (h : t.size ≤ i) : t.children i = [] := by
  unfold children
  rw [node?_eq_none_iff.mpr h]
  rfl

theorem mem_nodes_of_mem_childNodes (hm : m ∈ t.nodes) (h : n ∈ m.childNodes) : n ∈ t.nodes :=
  Forest.subtree_subset hm (Node.mem_subtree_of_mem_childNodes h)

theorem mem_children_iff_exists :
    i ∈ t.children p ↔ ∃ m n, t.node? p = some m ∧ t.node? i = some n ∧ n ∈ m.childNodes := by
  constructor
  · intro h
    cases hp : t.node? p with
    | none =>
      rw [children_of_size_le (node?_eq_none_iff.mp hp)] at h
      exact absurd h List.not_mem_nil
    | some m =>
      rw [children_of_node? hp] at h
      obtain ⟨n, hn, rfl⟩ := List.mem_map.mp h
      exact ⟨m, n, rfl, node?_of_mem (mem_nodes_of_mem_childNodes (mem_nodes_of_node? hp) hn), hn⟩
  · rintro ⟨m, n, hm, hn, h⟩
    rw [children_of_node? hm, ← id_of_node? hn]
    exact List.mem_map_of_mem h

theorem mem_children_iff_parent? : i ∈ t.children p ↔ t.parent? i = some p := by
  rw [mem_children_iff_exists]
  constructor
  · rintro ⟨m, n, hm, hn, h⟩
    rw [parent?, hn, ← id_of_node? hm]
    exact Node.parent_of_mem_childNodes h
  · intro h
    obtain ⟨n, hn, hp⟩ := Option.bind_eq_some_iff.mp h
    rcases Forest.mem_tops_or_mem_childNodes (mem_nodes_of_node? hn) with top | ⟨m, hm, hc⟩
    · rw [Forest.parent_of_mem_tops top] at hp
      exact absurd hp (by simp)
    · rw [Node.parent_of_mem_childNodes hc] at hp
      cases hp
      exact ⟨m, n, node?_of_mem hm, hn, hc⟩

theorem lt_of_parent? (h : t.parent? i = some p) : p < i := by
  obtain ⟨m, n, hm, hn, hc⟩ := mem_children_iff_exists.mp (mem_children_iff_parent?.mpr h)
  rw [← id_of_node? hm, ← id_of_node? hn]
  exact Node.lt_of_mem_childNodes hc

theorem lt_size_of_parent? (h : t.parent? i = some p) : i < t.size := by
  obtain ⟨n, hn, _⟩ := Option.bind_eq_some_iff.mp h
  exact lt_size_of_node? hn

theorem parent?_root (t : Tree) : t.parent? root = none := rfl

theorem exists_parent? (hi : 0 < i) (h : i < t.size) : ∃ p, t.parent? i = some p := by
  obtain ⟨n, hn⟩ := exists_node_iff.mpr h
  rcases Forest.mem_tops_or_mem_childNodes (mem_nodes_of_node? hn) with top | ⟨m, hm, hc⟩
  · have hroot : n.id = root := by
      rw [List.mem_singleton.mp top]
    rw [id_of_node? hn] at hroot
    exact absurd hroot (Nat.ne_of_gt hi)
  · refine ⟨m.id, ?_⟩
    rw [parent?, hn]
    exact Node.parent_of_mem_childNodes hc

theorem children_pairwise (t : Tree) (i : NodeId) : (t.children i).Pairwise (· < ·) := by
  cases h : t.node? i with
  | none =>
    rw [children_of_size_le (node?_eq_none_iff.mp h)]
    exact List.Pairwise.nil
  | some n =>
    rw [children_of_node? h]
    exact n.children_pairwise

theorem walk_of_node? (h : t.node? i = some n) : t.walk i = n.subtree := by
  unfold walk
  rw [h]
  rfl

theorem walk_of_size_le (h : t.size ≤ i) : t.walk i = [] := by
  unfold walk
  rw [node?_eq_none_iff.mpr h]
  rfl

theorem descendants_of_node? (h : t.node? a = some n) :
    t.descendants a = List.range' a (n.below.size + 1) := by
  unfold descendants
  rw [walk_of_node? h, Node.subtree_map_id, id_of_node? h]

theorem mem_nodes_of_mem_walk (h : n ∈ t.walk a) : n ∈ t.nodes := by
  cases ha : t.node? a with
  | none =>
    rw [walk_of_size_le (node?_eq_none_iff.mp ha)] at h
    exact absurd h List.not_mem_nil
  | some m =>
    rw [walk_of_node? ha] at h
    exact Forest.subtree_subset (mem_nodes_of_node? ha) h

theorem walk_pairwise (t : Tree) (a : NodeId) : (t.walk a).Pairwise (·.id < ·.id) := by
  cases ha : t.node? a with
  | none =>
    rw [walk_of_size_le (node?_eq_none_iff.mp ha)]
    exact List.Pairwise.nil
  | some n =>
    have hids : (n.subtree.map (·.id)).Pairwise (· < ·) := by
      rw [n.subtree_map_id]
      exact List.pairwise_lt_range'
    rw [walk_of_node? ha]
    exact List.pairwise_map.mp hids

theorem mem_descendants_iff_exists :
    b ∈ t.descendants a ↔ ∃ n, t.node? b = some n ∧ n ∈ t.walk a := by
  unfold descendants
  rw [List.mem_map]
  constructor
  · rintro ⟨n, hn, rfl⟩
    exact ⟨n, node?_of_mem (mem_nodes_of_mem_walk hn), hn⟩
  · rintro ⟨n, hb, hn⟩
    exact ⟨n, hn, id_of_node? hb⟩

theorem below_of_mem_descendants (h : b ∈ t.descendants a) : t.Below a b := by
  induction b using Nat.strongRecOn with
  | ind b ih =>
    obtain ⟨n, hb, hn⟩ := mem_descendants_iff_exists.mp h
    cases ha : t.node? a with
    | none =>
      rw [walk_of_size_le (node?_eq_none_iff.mp ha)] at hn
      exact absurd hn List.not_mem_nil
    | some m =>
      rw [walk_of_node? ha] at hn
      rcases List.mem_cons.mp hn with rfl | hn
      · rw [← id_of_node? ha, ← id_of_node? hb]
        exact Relation.ReflTransGen.refl
      · -- The parent of `b` is `a` itself or a node below it, which comes before `b`.
        rcases Forest.mem_tops_or_mem_childNodes hn with top | ⟨c, hc, hnc⟩
        · exact Relation.ReflTransGen.single (mem_children_iff_exists.mpr ⟨m, n, ha, hb, top⟩)
        · have hcw : c ∈ t.walk a := by
            rw [walk_of_node? ha]
            exact List.mem_cons_of_mem _ hc
          have hci : t.node? c.id = some c := node?_of_mem (mem_nodes_of_mem_walk hcw)
          have hlt : c.id < b := id_of_node? hb ▸ Node.lt_of_mem_childNodes hnc
          exact (ih c.id hlt (mem_descendants_iff_exists.mpr ⟨c, hci, hcw⟩)).tail
            (mem_children_iff_exists.mpr ⟨c, n, hci, hb, hnc⟩)

theorem mem_descendants_self (h : a < t.size) : a ∈ t.descendants a := by
  obtain ⟨n, hn⟩ := exists_node_iff.mpr h
  rw [descendants_of_node? hn, List.range'_succ]
  exact List.mem_cons_self

theorem mem_descendants_of_below (h : a < t.size) (hb : t.Below a b) : b ∈ t.descendants a := by
  induction hb with
  | refl => exact mem_descendants_self h
  | @tail c b _ hcb ih =>
    obtain ⟨m, hc, hm⟩ := mem_descendants_iff_exists.mp ih
    obtain ⟨m', n, hc', hb, hn⟩ := mem_children_iff_exists.mp hcb
    cases hc.symm.trans hc'
    obtain ⟨r, hr⟩ := exists_node_iff.mpr h
    refine mem_descendants_iff_exists.mpr ⟨n, hb, ?_⟩
    rw [walk_of_node? hr] at hm ⊢
    exact Node.subtree_subset hm (Node.mem_subtree_of_mem_childNodes hn)

theorem mem_descendants_iff_below (h : a < t.size) : b ∈ t.descendants a ↔ t.Below a b :=
  ⟨below_of_mem_descendants, mem_descendants_of_below h⟩

theorem descendants_of_size_le (h : t.size ≤ a) : t.descendants a = [] := by
  unfold descendants
  rw [walk_of_size_le h]
  rfl

theorem lt_size_of_below (h : t.Below a b) (ha : a < t.size) : b < t.size := by
  cases h with
  | refl => exact ha
  | tail _ hb => exact lt_size_of_parent? (mem_children_iff_parent?.mp hb)

theorem lt_size_of_mem_descendants (h : b ∈ t.descendants a) : b < t.size := by
  obtain ⟨n, hn, _⟩ := mem_descendants_iff_exists.mp h
  exact lt_size_of_node? hn

theorem descendants_root (t : Tree) : t.descendants root = List.range t.size := by
  rw [descendants_of_node? (n := ⟨root, .file, t.extent, none, t.top⟩) rfl, List.range_eq_range']
  rfl

theorem descendants_root_eq_nodes (t : Tree) : t.descendants root = t.nodes.map (·.id) := by
  rw [descendants_root, List.range_eq_range']
  exact (Forest.nodes_map_id none root t.whole).symm

theorem visits_nodes (ns : List Node) (h : ns ⊆ t.nodes) :
    t.Visits (ns.map (·.id)) ((ns.flatMap (·.subtree)).map (·.id)) := by
  -- Each step takes one node off what is still to be listed.
  induction hk : (ns.flatMap (·.subtree)).length using Nat.strongRecOn generalizing ns with
  | ind k ih =>
    cases ns with
    | nil => exact Visits.nil
    | cons n rest =>
      have hn : n ∈ t.nodes := h List.mem_cons_self
      have hlist : (n :: rest).flatMap (·.subtree) =
          n :: (n.childNodes ++ rest).flatMap (·.subtree) := by
        rw [List.flatMap_cons, List.flatMap_append, Node.subtree, Forest.nodes_eq_flatMap]
        rfl
      rw [hlist, List.length_cons] at hk
      rw [hlist, List.map_cons, List.map_cons]
      apply Visits.cons
      rw [children_of_node? (node?_of_mem hn), Node.children, ← List.map_append]
      refine ih _ (by omega) _ ?_ rfl
      intro m hm
      rcases List.mem_append.mp hm with hm | hm
      · exact mem_nodes_of_mem_childNodes hn hm
      · exact h (List.mem_cons_of_mem _ hm)

theorem Visits.unique {stack u v : List NodeId} (hu : t.Visits stack u) (hv : t.Visits stack v) :
    u = v := by
  induction hu generalizing v with
  | nil => cases hv; rfl
  | cons _ ih =>
    cases hv with
    | cons hv => rw [ih hv]

theorem visits_iff (h : a < t.size) (visited : List NodeId) :
    t.Visits [a] visited ↔ visited = t.descendants a := by
  obtain ⟨n, hn⟩ := exists_node_iff.mpr h
  have hwalk : t.Visits [a] (t.descendants a) := by
    have hv := visits_nodes [n] (by simpa using mem_nodes_of_node? hn)
    rwa [List.flatMap_singleton, List.map_singleton, id_of_node? hn, ← walk_of_node? hn] at hv
  constructor
  · intro hv
    exact hv.unique hwalk
  · rintro rfl
    exact hwalk

theorem ancestors_root (t : Tree) : t.ancestors root = [root] := rfl

theorem path_of_parent? (h : t.parent? i = some p) :
    ∃ n, t.node? i = some n ∧ t.path i = n :: t.path p := by
  obtain ⟨n, hn, hp⟩ := Option.bind_eq_some_iff.mp h
  have hi : (t.whole.nodes none root)[i]? = some n := by
    rw [← hn, node?_eq_getElem?]
    rfl
  rcases Forest.path_cases hi with ⟨hnone, _⟩ | ⟨j, _, hj, hpath⟩
  · rw [hnone] at hp
    exact absurd hp (by simp)
  · have hjp : j = p := by
      rw [hj] at hp
      cases hp
      exact (Nat.zero_add j).symm
    subst hjp
    exact ⟨n, hn, hpath⟩

theorem ancestors_of_parent? (h : t.parent? i = some p) : t.ancestors i = i :: t.ancestors p := by
  obtain ⟨n, hn, hpath⟩ := path_of_parent? h
  unfold ancestors
  rw [hpath, List.map_cons, id_of_node? hn]

theorem path_of_size_le (h : t.size ≤ i) : t.path i = [] := by
  have hhead : (t.path i).head? = none := node?_eq_none_iff.mpr h
  exact List.head?_eq_none_iff.mp hhead

theorem ancestors_of_size_le (h : t.size ≤ i) : t.ancestors i = [] := by
  unfold ancestors
  rw [path_of_size_le h]
  rfl

theorem le_of_below (h : t.Below a b) : a ≤ b := by
  induction h with
  | refl => exact Nat.le_refl a
  | tail _ hc ih =>
    exact Nat.le_trans ih (Nat.le_of_lt (lt_of_parent? (mem_children_iff_parent?.mp hc)))

theorem below_root_iff : t.Below a root ↔ a = root := by
  constructor
  · intro h
    exact Nat.le_zero.mp (le_of_below h)
  · rintro rfl
    exact Relation.ReflTransGen.refl

theorem below_iff_of_parent? (h : t.parent? i = some p) : t.Below a i ↔ a = i ∨ t.Below a p := by
  constructor
  · intro hb
    rcases Relation.ReflTransGen.cases_tail hb with rfl | ⟨c, hac, hc⟩
    · exact .inl rfl
    · cases h.symm.trans (mem_children_iff_parent?.mp hc)
      exact .inr hac
  · rintro (rfl | hb)
    · exact Relation.ReflTransGen.refl
    · exact hb.tail (mem_children_iff_parent?.mpr h)

theorem node_induction {P : NodeId → Prop} (hroot : P root)
    (hchild : ∀ p i, t.parent? i = some p → P p → P i) (h : i < t.size) : P i := by
  induction i using Nat.strongRecOn with
  | ind i ih =>
    rcases Nat.eq_zero_or_pos i with rfl | hi
    · exact hroot
    · obtain ⟨p, hp⟩ := exists_parent? hi h
      have hlt := lt_of_parent? hp
      exact hchild p i hp (ih p hlt (Nat.lt_trans hlt h))

theorem mem_ancestors_iff_below (h : b < t.size) : a ∈ t.ancestors b ↔ t.Below a b := by
  refine node_induction (P := fun b => a ∈ t.ancestors b ↔ t.Below a b) ?_ ?_ h
  · rw [ancestors_root, List.mem_singleton, below_root_iff]
  · intro p i hp ih
    rw [ancestors_of_parent? hp, List.mem_cons, ih, below_iff_of_parent? hp]

theorem ancestors_pairwise (h : i < t.size) : (t.ancestors i).Pairwise (· > ·) := by
  refine node_induction (P := fun i => (t.ancestors i).Pairwise (· > ·)) ?_ ?_ h
  · exact List.pairwise_singleton _ _
  · intro p i hp ih
    have hlt := lt_of_parent? hp
    rw [ancestors_of_parent? hp]
    refine List.Pairwise.cons ?_ ih
    intro a ha
    have hps := Nat.lt_trans hlt (lt_size_of_parent? hp)
    exact Nat.lt_of_le_of_lt (le_of_below ((mem_ancestors_iff_below hps).mp ha)) hlt

theorem ancestors_getLast? (h : i < t.size) : (t.ancestors i).getLast? = some root := by
  refine node_induction (P := fun i => (t.ancestors i).getLast? = some root) rfl ?_ h
  intro p i hp ih
  rw [ancestors_of_parent? hp, List.getLast?_cons, ih]
  rfl

theorem mem_descendants_iff_mem_ancestors : b ∈ t.descendants a ↔ a ∈ t.ancestors b := by
  by_cases hb : b < t.size
  · rw [mem_ancestors_iff_below hb]
    constructor
    · exact below_of_mem_descendants
    · intro h
      exact mem_descendants_of_below (Nat.lt_of_le_of_lt (le_of_below h) hb) h
  · rw [ancestors_of_size_le (Nat.le_of_not_lt hb)]
    constructor
    · intro h
      exact absurd (lt_size_of_mem_descendants h) hb
    · intro h
      exact absurd h List.not_mem_nil

end Tree

end KNames
