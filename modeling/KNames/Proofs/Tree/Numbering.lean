import KNames.Tree.Forest

set_option autoImplicit false

namespace KNames.Forest

variable {parent : Option NodeId} {base : NodeId} {f : Forest} {n m : Node} {i : Nat}

theorem id_of_getElem? (h : (f.nodes parent base)[i]? = some n) : n.id = base + i := by
  have hid : ((f.nodes parent base).map (·.id))[i]? = some n.id := by simp [h]
  rw [nodes_map_id] at hid
  obtain ⟨_, heq⟩ := List.getElem?_eq_some_iff.mp hid
  rw [List.getElem_range'] at heq
  lia

theorem id_of_mem (h : n ∈ f.nodes parent base) : base ≤ n.id ∧ n.id < base + f.size := by
  have hid : n.id ∈ (f.nodes parent base).map (·.id) := List.mem_map_of_mem h
  rw [nodes_map_id] at hid
  exact List.mem_range'_1.mp hid

theorem nodes_eq_flatMap (parent : Option NodeId) (base : NodeId) (f : Forest) :
    f.nodes parent base = (f.tops parent base).flatMap (·.subtree) := by
  induction f generalizing parent base with
  | nil => rfl
  | cons kind span children rest _ ih =>
    rw [nodes, tops, List.flatMap_cons, ← ih]
    rfl

theorem mem_nodes_of_mem_tops (h : n ∈ f.tops parent base) : n ∈ f.nodes parent base := by
  rw [nodes_eq_flatMap]
  exact List.mem_flatMap_of_mem h List.mem_cons_self

theorem parent_of_mem_tops (h : n ∈ f.tops parent base) : n.parent = parent := by
  induction f generalizing base with
  | nil => simp [tops] at h
  | cons kind span children rest _ ih =>
    rcases List.mem_cons.mp h with rfl | h
    · rfl
    · exact ih h

theorem tops_pairwise (parent : Option NodeId) (base : NodeId) (f : Forest) :
    (f.tops parent base).Pairwise (·.id < ·.id) := by
  induction f generalizing base with
  | nil => exact List.Pairwise.nil
  | cons kind span children rest _ ih =>
    refine List.Pairwise.cons ?_ (ih _)
    intro n hn
    have hid := (id_of_mem (mem_nodes_of_mem_tops hn)).1
    change base < n.id
    lia

theorem subtree_subset (h : n ∈ f.nodes parent base) : n.subtree ⊆ f.nodes parent base := by
  induction f generalizing parent base with
  | nil => simp [nodes] at h
  | cons kind span children rest ihc ihr =>
    rcases List.mem_cons.mp h with rfl | h
    · exact List.cons_subset_cons _ (List.subset_append_left _ _)
    · apply List.Subset.trans _ (List.subset_cons_self _ _)
      rcases List.mem_append.mp h with h | h
      · exact List.Subset.trans (ihc h) (List.subset_append_left _ _)
      · exact List.Subset.trans (ihr h) (List.subset_append_right _ _)

theorem mem_tops_or_mem_childNodes (h : n ∈ f.nodes parent base) :
    n ∈ f.tops parent base ∨ ∃ m ∈ f.nodes parent base, n ∈ m.childNodes := by
  induction f generalizing parent base with
  | nil => simp [nodes] at h
  | cons kind span children rest ihc ihr =>
    rcases List.mem_cons.mp h with rfl | h
    · exact .inl List.mem_cons_self
    · rcases List.mem_append.mp h with h | h
      · rcases ihc h with top | ⟨m, hm, hn⟩
        · exact .inr ⟨_, List.mem_cons_self, top⟩
        · exact .inr ⟨m, List.mem_cons_of_mem _ (List.mem_append_left _ hm), hn⟩
      · rcases ihr h with top | ⟨m, hm, hn⟩
        · exact .inl (List.mem_cons_of_mem _ top)
        · exact .inr ⟨m, List.mem_cons_of_mem _ (List.mem_append_right _ hm), hn⟩

/-- Above a root its path is empty; above any other node it is the path of the parent. -/
theorem path_cases (h : (f.nodes parent base)[i]? = some n) :
    (n.parent = parent ∧ f.path parent base i = [n]) ∨
      ∃ j : Nat, j < i ∧ n.parent = some (base + j) ∧
        f.path parent base i = n :: f.path parent base j := by
  induction f generalizing parent base i with
  | nil => simp [nodes] at h
  | cons kind span children rest ihc ihr =>
    cases i with
    | zero =>
      cases h
      exact .inl ⟨rfl, rfl⟩
    | succ i =>
      rw [nodes, List.getElem?_cons_succ] at h
      by_cases hi : i < children.size
      · rw [List.getElem?_append_left (by rwa [nodes_length])] at h
        simp only [path, hi, ↓reduceIte]
        rcases ihc h with ⟨hp, hpath⟩ | ⟨j, hj, hp, hpath⟩
        · exact .inr ⟨0, by omega, hp, by rw [hpath]; rfl⟩
        · refine .inr ⟨j + 1, by lia, by rw [hp]; congr 1; lia, ?_⟩
          have hjc : j < children.size := by omega
          simp only [hpath, path, hjc, ↓reduceIte, List.cons_append]
      · rw [List.getElem?_append_right (by rw [nodes_length]; omega), nodes_length] at h
        simp only [path, hi, ↓reduceIte]
        rcases ihr h with ⟨hp, hpath⟩ | ⟨j, hj, hp, hpath⟩
        · exact .inl ⟨hp, hpath⟩
        · refine .inr ⟨children.size + j + 1, by lia, by rw [hp]; congr 1; lia, ?_⟩
          have hjc : ¬ children.size + j < children.size := by omega
          simp only [hpath, path, hjc, ↓reduceIte, Nat.add_sub_cancel_left]

theorem tops_append (parent : Option NodeId) (base : NodeId) (f g : Forest) :
    (f.append g).tops parent base = f.tops parent base ++ g.tops parent (base + f.size) := by
  induction f generalizing base with
  | nil => rfl
  | cons kind span children rest _ ih =>
    have hsize : base + 1 + children.size + rest.size = base + (children.size + rest.size + 1) := by
      lia
    rw [append, tops, tops, ih, size, hsize, List.cons_append]

theorem nodes_append (parent : Option NodeId) (base : NodeId) (f g : Forest) :
    (f.append g).nodes parent base = f.nodes parent base ++ g.nodes parent (base + f.size) := by
  simp only [nodes_eq_flatMap, tops_append, List.flatMap_append]

end KNames.Forest
