import KNames.Proofs.Tree.Arena
import KNames.Proofs.Tree.Links

set_option autoImplicit false

namespace KNames

namespace Tree

structure Linked (t : Tree) : Prop where
  known : ∀ i, (∃ n, t.node? i = some n) ↔ i < t.size
  root_kind : t.kind? root = some .file
  root_parent : t.parent? root = none
  /-- Every other node is a child once, of one earlier node. -/
  parent : ∀ i, 0 < i → i < t.size → ∃ p, p < i ∧ t.parent? i = some p ∧
    (t.children p).count i = 1 ∧ ∀ q, q ≠ p → i ∉ t.children q
  children : ∀ p, (t.children p).Pairwise (· < ·) ∧ ∀ i ∈ t.children p, i < t.size
  /-- The descendants of a node are what its child links reach, in one run of numbers. -/
  descendants : ∀ a, a < t.size → (∃ k, a + k ≤ t.size ∧ t.descendants a = List.range' a k) ∧
    ∀ b, b ∈ t.descendants a ↔ t.Below a b
  descendants_root : t.descendants root = List.range t.size
  visits : ∀ a, a < t.size → ∀ visited, t.Visits [a] visited ↔ visited = t.descendants a
  ancestors : ∀ a, a < t.size →
    t.ancestors a = a :: ((t.parent? a).map t.ancestors).getD [] ∧
      (t.ancestors a).Pairwise (· > ·) ∧ (t.ancestors a).getLast? = some root
  descendants_iff_ancestors : ∀ a b, b ∈ t.descendants a ↔ a ∈ t.ancestors b
  unknown : ∀ a, t.size ≤ a → t.descendants a = [] ∧ t.ancestors a = []

theorem child_once {t : Tree} {i p : NodeId} (h : t.parent? i = some p) :
    (t.children p).count i = 1 ∧ ∀ q, q ≠ p → i ∉ t.children q := by
  have hmem : i ∈ t.children p := mem_children_iff_parent?.mpr h
  have hnodup : (t.children p).Nodup := (t.children_pairwise p).imp Nat.ne_of_lt
  refine ⟨hnodup.count.trans (if_pos hmem), ?_⟩
  intro q hq hiq
  cases h.symm.trans (mem_children_iff_parent?.mp hiq)
  exact hq rfl

theorem descendants_eq_range' {t : Tree} {a : NodeId} (h : a < t.size) :
    ∃ k, a + k ≤ t.size ∧ t.descendants a = List.range' a k := by
  obtain ⟨n, hn⟩ := exists_node_iff.mpr h
  refine ⟨n.below.size + 1, ?_, descendants_of_node? hn⟩
  have hlast : a + n.below.size ∈ t.descendants a := by
    rw [descendants_of_node? hn, List.mem_range'_1]
    lia
  exact lt_size_of_mem_descendants hlast

theorem ancestors_eq {t : Tree} {a : NodeId} (h : a < t.size) :
    t.ancestors a = a :: ((t.parent? a).map t.ancestors).getD [] := by
  refine node_induction (P := fun a => t.ancestors a = a :: ((t.parent? a).map t.ancestors).getD [])
    rfl ?_ h
  intro p i hp _
  rw [ancestors_of_parent? hp, hp]
  rfl

theorem linked (t : Tree) : t.Linked where
  known _ := exists_node_iff
  root_kind := rfl
  root_parent := t.parent?_root
  parent i hi h := by
    obtain ⟨p, hp⟩ := exists_parent? hi h
    exact ⟨p, lt_of_parent? hp, hp, child_once hp⟩
  children p := by
    refine ⟨t.children_pairwise p, ?_⟩
    intro i hi
    exact lt_size_of_parent? (mem_children_iff_parent?.mp hi)
  descendants a h := ⟨descendants_eq_range' h, fun _ => mem_descendants_iff_below h⟩
  descendants_root := t.descendants_root
  visits _ h := visits_iff h
  ancestors a h := ⟨ancestors_eq h, ancestors_pairwise h, ancestors_getLast? h⟩
  descendants_iff_ancestors _ _ := mem_descendants_iff_mem_ancestors
  unknown _ h := ⟨descendants_of_size_le h, ancestors_of_size_le h⟩

theorem getElem?_links (t : Tree) (i : NodeId) : t.links[i]? = (t.node? i).map (·.link) := by
  unfold links
  rw [List.getElem?_map, node?_eq_getElem?]

end Tree

/-- Every script leaves in an arena, call by call, what its tree answers, one node for each call
that adds one; and these answers fit together. -/
theorem Script.build_linked (s : Script) :
    (∀ i, s.links[i]? = (s.build.node? i).map (·.link)) ∧ s.build.size = s.size + 1 ∧
      s.build.Linked := by
  refine ⟨?_, s.build_size, s.build.linked⟩
  intro i
  rw [← s.build_links, s.build.getElem?_links]

end KNames
