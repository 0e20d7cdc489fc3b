import KNames.Proofs.Tree.Layout

set_option autoImplicit false

/-!
# Nodes by position

A position is looked up on one way down from the root. At each node the first child whose span has
the position is entered, and it is not left again. The answer therefore stands below nodes that all
have the position and above none that has it. In a tree that was built the root reaches as far as
anything in it, so the search misses only positions that no node has, and where the spans are
nested like the nodes there is nothing further in than the answer.
-/
namespace KNames

namespace Tree

variable {t : Tree} {offset : Nat} {i j k p : NodeId} {ids : List NodeId} {answer : Option NodeId}

def Covers (t : Tree) (i : NodeId) (offset : Nat) : Prop :=
  ∃ span, t.span? i = some span ∧ span.start ≤ offset ∧ offset < span.stop

def Misses (t : Tree) (i : NodeId) (offset : Nat) : Prop :=
  ∃ span, t.span? i = some span ∧ (offset < span.start ∨ span.stop ≤ offset)

/-- What a search finds that looks at these nodes one after another: each must exist, and the first
that has the offset is entered for good. -/
inductive Descends (t : Tree) (offset : Nat) : List NodeId → Option NodeId → Prop
  | nil : Descends t offset [] none
  | skip {i : NodeId} {later : List NodeId} {answer : Option NodeId} (hi : t.Misses i offset)
      (hlater : Descends t offset later answer) : Descends t offset (i :: later) answer
  | enter {i : NodeId} {later : List NodeId} {inner : Option NodeId} (hi : t.Covers i offset)
      (hinner : Descends t offset (t.children i) inner) :
      Descends t offset (i :: later) (some (inner.getD i))

/-- No position of a child is outside its parent, and no position is in two children of one node.
An empty span may stand anywhere. -/
structure Nested (t : Tree) : Prop where
  inside : ∀ p, ∀ i ∈ t.children p, ∀ offset, t.Covers i offset → t.Covers p offset
  apart : ∀ p offset, (t.children p).Pairwise fun i j => t.Covers i offset → ¬t.Covers j offset

theorem Covers.not_misses (h : t.Covers i offset) : ¬t.Misses i offset := by
  rintro ⟨span, hspan, hmiss⟩
  obtain ⟨other, hother, hstart, hstop⟩ := h
  cases hspan.symm.trans hother
  omega

theorem Covers.lt_size (h : t.Covers i offset) : i < t.size := by
  obtain ⟨_, hspan, _⟩ := h
  obtain ⟨n, hn, _⟩ := exists_node_of_span? hspan
  exact lt_size_of_node? hn

theorem descends_tops (f : Forest) (parent : Option NodeId) (base : NodeId)
    (h : f.nodes parent base ⊆ t.nodes) :
    t.Descends offset ((f.tops parent base).map (·.id)) (f.innermost base offset) := by
  induction f generalizing parent base with
  | nil => exact .nil
  | cons kind span below rest ihbelow ihrest =>
    obtain ⟨hn, hlater⟩ := List.cons_subset.mp h
    obtain ⟨hbelow, hrest⟩ := List.append_subset.mp hlater
    have hnode : t.node? base = some ⟨base, kind, span, parent, below⟩ := node?_of_mem hn
    have hspan : t.span? base = some span := span?_of_node? hnode
    rw [Forest.innermost]
    by_cases hc : span.contains offset = true
    · rw [if_pos hc]
      refine .enter ⟨span, hspan, (span.contains_iff offset).mp hc⟩ ?_
      rw [children_of_node? hnode]
      exact ihbelow _ _ hbelow
    · rw [if_neg hc]
      have hmiss : offset < span.start ∨ span.stop ≤ offset := by
        rw [span.contains_iff] at hc
        omega
      exact .skip ⟨span, hspan, hmiss⟩ (ihrest _ _ hrest)

theorem Descends.unique {other : Option NodeId} (h : t.Descends offset ids answer)
    (ho : t.Descends offset ids other) : answer = other := by
  induction h generalizing other with
  | nil =>
    cases ho
    rfl
  | skip hi _ ih =>
    cases ho with
    | skip _ hlater => exact ih hlater
    | enter hcover _ => exact absurd hi hcover.not_misses
  | enter hi _ ih =>
    cases ho with
    | skip hmiss _ => exact absurd hmiss hi.not_misses
    | enter _ hinner => rw [ih hinner]

theorem descends_root_iff : t.Descends offset [root] answer ↔ answer = t.nodeAt? offset := by
  have hroot : t.Descends offset [root] (t.nodeAt? offset) :=
    descends_tops t.whole none root (List.Subset.refl _)
  constructor
  · intro h
    exact h.unique hroot
  · rintro rfl
    exact hroot

theorem Descends.misses_of_none (h : t.Descends offset ids none) :
    ∀ i ∈ ids, t.Misses i offset := by
  generalize hanswer : (none : Option NodeId) = answer at h
  induction h with
  | nil => simp
  | skip hi _ ih =>
    intro k hk
    rcases List.mem_cons.mp hk with rfl | hk
    · exact hi
    · exact ih hanswer k hk
  | enter => cases hanswer

theorem Descends.covers (h : t.Descends offset ids (some j))
    (habove : ∀ i ∈ ids, ∀ a ∈ t.ancestors i, a = i ∨ t.Covers a offset) :
    t.Covers j offset ∧ (∀ a ∈ t.ancestors j, t.Covers a offset) ∧
      ∀ c ∈ t.children j, t.Misses c offset := by
  generalize hanswer : some j = answer at h
  induction h generalizing j with
  | nil => cases hanswer
  | skip _ _ ih => exact ih (fun i hi => habove i (List.mem_cons_of_mem _ hi)) hanswer
  | @enter i later inner hi hinner ih =>
    cases hanswer
    have hall : ∀ a ∈ t.ancestors i, t.Covers a offset := by
      intro a ha
      rcases habove i List.mem_cons_self a ha with rfl | hcover
      · exact hi
      · exact hcover
    cases inner with
    | none => exact ⟨hi, hall, hinner.misses_of_none⟩
    | some deeper =>
      -- Above a child there is the node itself and what is above that.
      refine ih (fun c hc a ha => ?_) rfl
      rw [ancestors_of_parent? (mem_children_iff_parent?.mp hc)] at ha
      rcases List.mem_cons.mp ha with rfl | ha
      · exact .inl rfl
      · exact .inr (hall a ha)

theorem Descends.exists_below (h : t.Descends offset ids (some j)) : ∃ i ∈ ids, t.Below i j := by
  generalize hanswer : some j = answer at h
  induction h generalizing j with
  | nil => cases hanswer
  | skip _ _ ih =>
    obtain ⟨i, hi, hbelow⟩ := ih hanswer
    exact ⟨i, List.mem_cons_of_mem _ hi, hbelow⟩
  | @enter i later inner _ _ ih =>
    cases hanswer
    cases inner with
    | none => exact ⟨i, List.mem_cons_self, Relation.ReflTransGen.refl⟩
    | some deeper =>
      obtain ⟨c, hc, hbelow⟩ := ih rfl
      exact ⟨i, List.mem_cons_self, Relation.ReflTransGen.head hc hbelow⟩

theorem covers_of_nodeAt? (h : t.nodeAt? offset = some i) : t.Covers i offset ∧
    (∀ a ∈ t.ancestors i, t.Covers a offset) ∧ ∀ c ∈ t.children i, ¬t.Covers c offset := by
  have hfinds : t.Descends offset [root] (some i) := descends_root_iff.mpr h.symm
  have habove : ∀ r ∈ [root], ∀ a ∈ t.ancestors r, a = r ∨ t.Covers a offset := by
    intro r hr a ha
    rw [List.mem_singleton.mp hr, ancestors_root, List.mem_singleton] at ha
    exact .inl (ha.trans (List.mem_singleton.mp hr).symm)
  obtain ⟨hi, hancestors, hchildren⟩ := hfinds.covers habove
  exact ⟨hi, hancestors, fun c hc hcover => hcover.not_misses (hchildren c hc)⟩

theorem Nested.covers_of_below (h : t.Nested) (hbelow : t.Below i k) (hk : t.Covers k offset) :
    t.Covers i offset := by
  induction hbelow with
  | refl => exact hk
  | tail _ hchild ih => exact ih (h.inside _ _ hchild offset hk)

theorem Descends.innermost (hnested : t.Nested) (h : t.Descends offset ids (some j))
    (hids : ids.Pairwise fun i i' => t.Covers i offset → ¬t.Covers i' offset) :
    ∀ i ∈ ids, ∀ k, t.Below i k → t.Covers k offset → t.Below k j := by
  generalize hanswer : some j = answer at h
  induction h generalizing j with
  | nil => simp
  | @skip i later answer hi _ ih =>
    intro i' hi' k hbelow hk
    have hcover := hnested.covers_of_below hbelow hk
    rcases List.mem_cons.mp hi' with rfl | hi'
    · exact absurd hi hcover.not_misses
    · exact ih (List.pairwise_cons.mp hids).2 hanswer i' hi' k hbelow hk
  | @enter i later inner hi hinner ih =>
    cases hanswer
    intro i' hi' k hbelow hk
    have hcover := hnested.covers_of_below hbelow hk
    rcases List.mem_cons.mp hi' with rfl | hi'
    · -- Below the node that is entered, either it is `k` itself or a child leads to `k`.
      rcases Relation.ReflTransGen.cases_head hbelow with rfl | ⟨c, hc, hck⟩
      · cases inner with
        | none => exact Relation.ReflTransGen.refl
        | some deeper =>
          obtain ⟨c, hc, hcd⟩ := hinner.exists_below
          exact Relation.ReflTransGen.head hc hcd
      · cases inner with
        | none =>
          exact absurd (hinner.misses_of_none c hc) (hnested.covers_of_below hck hk).not_misses
        | some deeper => exact ih (hnested.apart i' offset) rfl c hc k hck hk
    · exact absurd hcover (List.rel_of_pairwise_cons hids hi' hi)

theorem Nested.mem_ancestors (hnested : t.Nested) (h : t.nodeAt? offset = some i)
    (hj : t.Covers j offset) : j ∈ t.ancestors i := by
  have hfinds : t.Descends offset [root] (some i) := descends_root_iff.mpr h.symm
  have hbelow : t.Below root j := by
    apply below_of_mem_descendants
    rw [descendants_root, List.mem_range]
    exact hj.lt_size
  have hlast := hfinds.innermost hnested (List.pairwise_singleton _ _) root List.mem_cons_self j
    hbelow hj
  exact (mem_ancestors_iff_below (covers_of_nodeAt? h).1.lt_size).mpr hlast

theorem WellLaid.nested (h : t.WellLaid) : t.Nested where
  inside p i hi offset hcover := by
    obtain ⟨inner, hinner, hstart, hstop⟩ := hcover
    obtain ⟨outer, houter⟩ : ∃ outer, t.span? p = some outer := by
      obtain ⟨m, _, hm, _⟩ := mem_children_iff_exists.mp hi
      exact ⟨m.span, span?_of_node? hm⟩
    have hinside := h.inside p outer houter i hi inner hinner
    exact ⟨outer, houter, by omega, by omega⟩
  apart p offset := by
    refine (List.pairwise_filterMap.mp (h.siblings p)).imp ?_
    rintro i j hij ⟨a, ha, _, hstop⟩ ⟨b, hb, hstart, _⟩
    have horder := hij a ha b hb
    omega

end Tree

/-- Only spans without a position stop behind the bound. -/
def Forest.EndsBy (bound : Nat) : Forest → Prop
  | nil => True
  | cons _ span below rest =>
    (span.start < span.stop → span.stop ≤ bound) ∧ below.EndsBy bound ∧ rest.EndsBy bound

namespace Forest

variable {f g : Forest} {bound wider : Nat} {n : Node} {parent : Option NodeId} {base : NodeId}

theorem EndsBy.widen (h : f.EndsBy bound) (hle : bound ≤ wider) : f.EndsBy wider := by
  induction f with
  | nil => trivial
  | cons kind span below rest ihbelow ihrest =>
    obtain ⟨hspan, hbelow, hrest⟩ := h
    exact ⟨fun hroom => Nat.le_trans (hspan hroom) hle, ihbelow hbelow, ihrest hrest⟩

theorem EndsBy.append (hf : f.EndsBy bound) (hg : g.EndsBy bound) : (f.append g).EndsBy bound := by
  induction f with
  | nil => exact hg
  | cons kind span below rest _ ihrest =>
    obtain ⟨hspan, hbelow, hrest⟩ := hf
    exact ⟨hspan, hbelow, ihrest hrest⟩

theorem EndsBy.of_mem_nodes (h : f.EndsBy bound) (hn : n ∈ f.nodes parent base)
    (hroom : n.span.start < n.span.stop) : n.span.stop ≤ bound := by
  induction f generalizing parent base with
  | nil => exact absurd hn List.not_mem_nil
  | cons kind span below rest ihbelow ihrest =>
    obtain ⟨hspan, hbelow, hrest⟩ := h
    rcases List.mem_cons.mp hn with rfl | hn
    · exact hspan hroom
    · rcases List.mem_append.mp hn with hn | hn
      · exact ihbelow hbelow hn
      · exact ihrest hrest hn

end Forest

namespace Draft

variable {d : Draft} {bound : Nat}

structure EndsBy (bound : Nat) (d : Draft) : Prop where
  done : d.done.EndsBy bound
  frames : ∀ frame ∈ d.frames, frame.done.EndsBy bound

def Bounded (d : Draft) : Prop := d.EndsBy d.cursor

theorem EndsBy.widen {wider : Nat} (h : d.EndsBy bound) (hle : bound ≤ wider) : d.EndsBy wider :=
  ⟨h.done.widen hle, fun frame hframe => (h.frames frame hframe).widen hle⟩

theorem EndsBy.add {kind : Kind} {span : Span} {below : Forest} (h : d.EndsBy bound)
    (hspan : span.start < span.stop → span.stop ≤ bound) (hbelow : below.EndsBy bound) :
    (d.add kind span below).EndsBy bound := by
  have hnode : (Forest.cons kind span below .nil).EndsBy bound := ⟨hspan, hbelow, trivial⟩
  rcases d with ⟨cursor, _ | ⟨frame, outer⟩, done⟩
  · exact ⟨h.done.append hnode, h.frames⟩
  · obtain ⟨hframe, houter⟩ := List.forall_mem_cons.mp h.frames
    exact ⟨h.done, List.forall_mem_cons.mpr ⟨hframe.append hnode, houter⟩⟩

theorem EndsBy.close {stop : Nat} (h : d.EndsBy bound) (hstop : stop ≤ bound) :
    (d.close stop).EndsBy bound := by
  rcases d with ⟨cursor, _ | ⟨frame, outer⟩, done⟩
  · exact h
  · obtain ⟨hframe, houter⟩ := List.forall_mem_cons.mp h.frames
    have hrest : EndsBy bound ⟨max cursor stop, outer, done⟩ := ⟨h.done, houter⟩
    refine hrest.add (fun hroom => ?_) hframe
    -- A node that ends behind its start ends where it was closed.
    change frame.start < max stop frame.start at hroom
    change max stop frame.start ≤ bound
    omega

theorem Bounded.moveTo {next : Nat} (h : d.Bounded) (hle : d.cursor ≤ next) :
    (d.act (.moveTo next)).Bounded :=
  EndsBy.widen ⟨h.done, h.frames⟩ hle

theorem Bounded.openNode {kind : Kind} {start : Nat} (h : d.Bounded) :
    (d.openNode kind start).Bounded :=
  ⟨h.done, List.forall_mem_cons.mpr ⟨trivial, h.frames⟩⟩

theorem Bounded.leaf {kind : Kind} {span : Span} (h : d.Bounded) :
    (d.leaf kind span).Bounded := by
  have hcursor : (d.leaf kind span).cursor = max d.cursor span.stop := by
    rw [leaf_eq_extend, extend_cursor]
  have hwider : EndsBy (max d.cursor span.stop) { d with cursor := max d.cursor span.stop } :=
    EndsBy.widen ⟨h.done, h.frames⟩ (Nat.le_max_left _ _)
  rw [Bounded, hcursor]
  exact hwider.add (fun _ => Nat.le_max_right _ _) trivial

theorem Bounded.close {stop : Nat} (h : d.Bounded) : (d.close stop).Bounded := by
  rcases d with ⟨cursor, _ | ⟨frame, outer⟩, done⟩
  · exact h
  · have hcursor : (Draft.close stop ⟨cursor, frame :: outer, done⟩).cursor = max cursor stop := by
      cases outer <;> rfl
    have hwider : EndsBy (max cursor stop) ⟨cursor, frame :: outer, done⟩ :=
      EndsBy.widen h (Nat.le_max_left _ _)
    rw [Bounded, hcursor]
    exact hwider.close (Nat.le_max_right _ _)

end Draft

theorem Step.exists_actions {call : Step} (h : call.isNamed = true) (start : Nat) :
    ∃ next kind span, call.actions start = [.moveTo next, .leaf kind span] ∧ start ≤ next := by
  cases call with
  | require path => exact ⟨_, _, _, rfl, Layout.le_past start _⟩
  | sortDecl sort =>
    have hle := Layout.le_pastNames (start + 7) [sort]
    exact ⟨_, _, _, rfl, Nat.le_trans (Nat.le_add_right start 7) hle⟩
  | production labels => exact ⟨_, _, _, rfl, Layout.le_pastNames start labels⟩
  | varDecl name sort => exact ⟨_, _, _, rfl, Layout.le_pastNames start (name :: sort.toList)⟩
  | anonymousVar sort => exact ⟨_, _, _, rfl, Layout.le_past start _⟩
  | reference text => exact ⟨_, _, _, rfl, Layout.le_past start _⟩
  | openNode kind start => cases h
  | leaf kind span => cases h
  | close stop => cases h

namespace Draft

variable {d : Draft}

theorem Bounded.call (h : d.Bounded) (call : Step) : (builder.call d call).Bounded := by
  cases hnamed : call.isNamed with
  | true =>
    obtain ⟨next, kind, span, hactions, hle⟩ := Step.exists_actions hnamed d.cursor
    have hcall : builder.call d call = (d.act (.moveTo next)).leaf kind span := by
      change builder.perform d (call.actions d.cursor) = _
      rw [hactions]
      rfl
    rw [hcall]
    exact (h.moveTo hle).leaf
  | false =>
    cases call with
    | openNode kind start => exact h.openNode
    | leaf kind span => exact h.leaf
    | close stop => exact h.close
    | _ => cases hnamed

theorem Bounded.enter (h : d.Bounded) (head : Block) : (builder.enter d head).Bounded := by
  cases head with
  | moduleBlock name =>
    have hle := Layout.le_pastNames (d.cursor + 7) [name]
    exact (h.moveTo (Nat.le_trans (Nat.le_add_right d.cursor 7) hle)).openNode
  | rule => exact (h.openNode.moveTo (Layout.le_past d.cursor 5)).openNode
  | term text => exact h.openNode.moveTo (Layout.le_pastNames d.cursor [text])

theorem Bounded.leave (h : d.Bounded) (head : Block) : (builder.leave d head).Bounded := by
  cases head with
  | moduleBlock name => exact (h.moveTo (Layout.le_past d.cursor 9)).close
  | rule => exact h.close.close
  | term text => exact h.close

theorem Bounded.run (h : d.Bounded) (s : Script) : (builder.run s d).Bounded := by
  induction s generalizing d with
  | done => exact h
  | step call next ih => exact ih (h.call call)
  | block head body next ihbody ihnext => exact ihnext ((ihbody (h.enter head)).leave head)

theorem EndsBy.closes {bound stop : Nat} (h : d.EndsBy bound) (hstop : stop ≤ bound)
    (frames : List Frame) : (frames.foldl (fun e _ => e.close stop) d).EndsBy bound := by
  induction frames generalizing d with
  | nil => exact h
  | cons frame frames ih => exact ih (h.close hstop)

theorem Bounded.finish (h : d.Bounded) : d.finish.whole.EndsBy d.finish.extent.stop :=
  ⟨fun _ => Nat.le_refl _, (EndsBy.closes h (Nat.le_refl _) d.frames).done, trivial⟩

end Draft

namespace Script

theorem build_endsBy (s : Script) : s.build.whole.EndsBy s.build.extent.stop := by
  have hempty : Draft.empty.Bounded := ⟨trivial, fun _ h => absurd h List.not_mem_nil⟩
  exact (hempty.run s).finish

theorem covers_root {s : Script} {i : NodeId} {offset : Nat} (h : s.build.Covers i offset) :
    s.build.Covers Tree.root offset := by
  obtain ⟨span, hspan, hstart, hstop⟩ := h
  obtain ⟨n, hn, rfl⟩ := Tree.exists_node_of_span? hspan
  have hend := s.build_endsBy.of_mem_nodes (Tree.mem_nodes_of_node? hn) (by omega)
  exact ⟨s.build.extent, rfl, Nat.zero_le offset, by omega⟩

theorem nodeAt?_eq_none_iff {s : Script} {offset : Nat} :
    s.build.nodeAt? offset = none ↔ ∀ i, ¬s.build.Covers i offset := by
  constructor
  · intro h i hi
    have hfinds : s.build.Descends offset [Tree.root] none := Tree.descends_root_iff.mpr h.symm
    exact (covers_root hi).not_misses (hfinds.misses_of_none Tree.root List.mem_cons_self)
  · intro h
    cases hanswer : s.build.nodeAt? offset with
    | none => rfl
    | some i => exact absurd (Tree.covers_of_nodeAt? hanswer).1 (h i)

/-- Looking a position up in a built tree ends and looks at nodes of the tree only. It finds nothing
iff no node has the position. Otherwise the answer and all nodes above it have the position, and
none of its children has it. If spans are nested like the nodes, as they are when no call is given a
position, every node that has the position is the answer or above it. -/
theorem nodeAt?_innermost (s : Script) (offset : Nat) :
    (∀ answer, s.build.Descends offset [Tree.root] answer ↔ answer = s.build.nodeAt? offset) ∧
      (s.build.nodeAt? offset = none ↔ ∀ i, ¬s.build.Covers i offset) ∧
      (∀ i, s.build.nodeAt? offset = some i → s.build.Covers i offset ∧
        (∀ a ∈ s.build.ancestors i, s.build.Covers a offset) ∧
        ∀ c ∈ s.build.children i, ¬s.build.Covers c offset) ∧
      (s.build.Nested → ∀ i, s.build.nodeAt? offset = some i → ∀ j, s.build.Covers j offset →
        j ∈ s.build.ancestors i) ∧
      (s.isNamed = true → s.build.Nested) := by
  refine ⟨fun answer => Tree.descends_root_iff, nodeAt?_eq_none_iff,
    fun i hi => Tree.covers_of_nodeAt? hi, fun hnested i hi j hj => ?_, fun hnamed => ?_⟩
  · exact hnested.mem_ancestors hi hj
  · obtain ⟨_, hlaid⟩ := build_laid hnamed
    exact (Tree.wellLaid_of_laid hlaid).nested

theorem nodeAt?_innermost_sampler : sampler.isNamed = true ∧ sampler.build.Nested ∧
    sampler.build.nodeAt? 35 = some 7 ∧ sampler.build.ancestors 7 = [7, 6, 5, 4, 1, 0] ∧
    ∀ j, sampler.build.Covers j 35 → j ∈ sampler.build.ancestors 7 := by
  have hfound : sampler.build.nodeAt? 35 = some 7 := rfl
  obtain ⟨_, _, _, hdeepest, hnested⟩ := nodeAt?_innermost sampler 35
  exact ⟨rfl, hnested rfl, hfound, rfl, hdeepest (hnested rfl) 7 hfound⟩

end Script

end KNames
