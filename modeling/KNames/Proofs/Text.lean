set_option autoImplicit false

namespace KNames.Text

variable {p : Char → Bool} {run rest : List Char} {length bound : Nat}

theorem takeWhile_append_stop (hrun : ∀ c ∈ run, p c = true)
    (hstop : ∀ c ∈ rest.head?, p c = false) : (run ++ rest).takeWhile p = run := by
  rw [List.takeWhile_append_of_pos hrun]
  cases rest with
  | nil => exact List.append_nil run
  | cons c rest => rw [List.takeWhile_cons_of_neg (by simp [hstop c rfl]), List.append_nil]

theorem dropWhile_append_stop (hrun : ∀ c ∈ run, p c = true)
    (hstop : ∀ c ∈ rest.head?, p c = false) : (run ++ rest).dropWhile p = rest := by
  rw [List.dropWhile_append_of_pos hrun]
  cases rest with
  | nil => rfl
  | cons c rest => exact List.dropWhile_cons_of_neg (by simp [hstop c rfl])

theorem length_le_flatMap {write : Char → List Char} (h : ∀ c ∈ run, write c ≠ []) :
    run.length ≤ (run.flatMap write).length := by
  induction run with
  | nil => exact Nat.le_refl 0
  | cons c run ih =>
    have hc : 0 < (write c).length := List.length_pos_iff.mpr (h c List.mem_cons_self)
    have hlater := ih fun d hd => h d (List.mem_cons_of_mem c hd)
    rw [List.flatMap_cons, List.length_append, List.length_cons]
    omega

theorem exists_bound (h : length < bound) : ∃ less, bound = less + 1 ∧ length ≤ less := by
  obtain ⟨less, rfl⟩ := Nat.exists_eq_succ_of_ne_zero (Nat.ne_of_gt (Nat.zero_lt_of_lt h))
  exact ⟨less, rfl, Nat.le_of_lt_succ h⟩

end KNames.Text
