import KNames.Tree.Script

set_option autoImplicit false

namespace KNames

namespace Draft

/-- Puts finished nodes after the last child of the innermost open node. -/
def extend (cursor : Nat) (f : Forest) (d : Draft) : Draft :=
  match d.frames with
  | [] => ⟨cursor, [], d.done.append f⟩
  | frame :: outer => ⟨cursor, { frame with done := frame.done.append f } :: outer, d.done⟩

theorem extend_cursor (cursor : Nat) (f : Forest) (d : Draft) :
    (d.extend cursor f).cursor = cursor := by
  rcases d with ⟨_, _ | ⟨frame, outer⟩, done⟩ <;> rfl

theorem extend_frames_length (cursor : Nat) (f : Forest) (d : Draft) :
    (d.extend cursor f).frames.length = d.frames.length := by
  rcases d with ⟨_, _ | ⟨frame, outer⟩, done⟩ <;> rfl

theorem extend_nil (d : Draft) : d.extend d.cursor .nil = d := by
  rcases d with ⟨_, _ | ⟨frame, outer⟩, done⟩
  · rw [extend, Forest.append_nil]
  · simp only [extend, Forest.append_nil]

theorem extend_extend (first second : Nat) (f g : Forest) (d : Draft) :
    (d.extend first f).extend second g = d.extend second (f.append g) := by
  rcases d with ⟨_, _ | ⟨frame, outer⟩, done⟩
  · simp only [extend, Forest.append_assoc]
  · simp only [extend, Forest.append_assoc]

theorem leaf_eq_extend (kind : Kind) (span : Span) (d : Draft) :
    d.leaf kind span = d.extend (max d.cursor span.stop) (.cons kind span .nil .nil) := by
  rcases d with ⟨_, _ | ⟨frame, outer⟩, done⟩ <;> rfl

theorem close_extend_openNode (kind : Kind) (start stop cursor : Nat) (f : Forest) (d : Draft) :
    ((d.openNode kind start).extend cursor f).close stop =
      d.extend (max cursor stop) (.cons kind ⟨start, max stop start⟩ f .nil) := by
  rcases d with ⟨_, _ | ⟨frame, outer⟩, done⟩ <;> rfl

theorem finish_extend_empty (cursor : Nat) (f : Forest) :
    (empty.extend cursor f).finish = ⟨⟨0, cursor⟩, f⟩ := rfl

end Draft

end KNames
