import KNames.Proofs.Tree.Extension
import KNames.Proofs.Tree.Links
import Mathlib.Data.List.Induction

set_option autoImplicit false

/-!
# Building a forest and reading it back

An outline is a forest as it stands in a source: a leaf has its span, and any other node says where
it starts and where it is closed. Written out in document order and built, it is read back from the
tree node by node. Closes that meet no open node change nothing, and when the last closes are left
out, only the nodes that they would have closed end elsewhere.
-/
namespace KNames

inductive Outline where
  | nil
  | leaf (kind : Kind) (span : Span) (rest : Outline)
  | inner (kind : Kind) (start stop : Nat) (children rest : Outline)
deriving DecidableEq, Repr

namespace Tree

variable {t : Tree}

/-- These nodes, read by kind, span and children, are this forest. -/
inductive Reads (t : Tree) : List NodeId → Forest → Prop
  | nil : Reads t [] .nil
  | cons {i : NodeId} {later : List NodeId} {kind : Kind} {span : Span} {below rest : Forest}
      (hkind : t.kind? i = some kind) (hspan : t.span? i = some span)
      (hbelow : Reads t (t.children i) below) (hrest : Reads t later rest) :
      Reads t (i :: later) (.cons kind span below rest)

theorem Reads.unique {ids : List NodeId} {f g : Forest} (hf : t.Reads ids f)
    (hg : t.Reads ids g) : f = g := by
  induction hf generalizing g with
  | nil =>
    cases hg
    rfl
  | cons hkind hspan _ _ ihbelow ihrest =>
    cases hg with
    | cons hkind' hspan' hbelow' hrest' =>
      cases hkind.symm.trans hkind'
      cases hspan.symm.trans hspan'
      rw [ihbelow hbelow', ihrest hrest']

theorem reads_tops (f : Forest) (parent : Option NodeId) (base : NodeId)
    (h : f.nodes parent base ⊆ t.nodes) : t.Reads ((f.tops parent base).map (·.id)) f := by
  induction f generalizing parent base with
  | nil => exact .nil
  | cons kind span below rest ihbelow ihrest =>
    obtain ⟨hn, hlater⟩ := List.cons_subset.mp h
    obtain ⟨hbelow, hrest⟩ := List.append_subset.mp hlater
    have hnode : t.node? base = some ⟨base, kind, span, parent, below⟩ := node?_of_mem hn
    refine .cons (kind?_of_node? hnode) (span?_of_node? hnode) ?_ (ihrest _ _ hrest)
    rw [children_of_node? hnode]
    exact ihbelow _ _ hbelow

theorem reads_root_iff {f : Forest} : t.Reads [root] f ↔ f = t.whole := by
  have hwhole : t.Reads [root] t.whole := reads_tops t.whole none root (List.Subset.refl _)
  constructor
  · intro h
    exact h.unique hwhole
  · rintro rfl
    exact hwhole

end Tree

namespace Step

def stop? : Step → Option Nat
  | leaf _ span => some span.stop
  | close stop => some stop
  | _ => none

def depth (before : Nat) : Step → Nat
  | openNode _ _ => before + 1
  | close _ => before - 1
  | _ => before

/-- The largest end that leaves and closes give, but at least `least`. -/
def reach (least : Nat) (calls : List Step) : Nat := (calls.filterMap stop?).foldl max least

theorem reach_append (least : Nat) (first second : List Step) :
    reach least (first ++ second) = reach (reach least first) second := by
  rw [reach, List.filterMap_append, List.foldl_append]
  rfl

/-- The second list of calls is the first one with closes put in where no node is open; before the
lists, `depth` nodes are open. -/
inductive Padded : Nat → List Step → List Step → Prop
  | nil {depth : Nat} : Padded depth [] []
  | keep {depth : Nat} {call : Step} {calls padded : List Step}
      (h : Padded (call.depth depth) calls padded) : Padded depth (call :: calls) (call :: padded)
  | stray {stop : Nat} {calls padded : List Step} (h : Padded 0 calls padded) :
      Padded 0 calls (.close stop :: padded)

end Step

def Script.ofCalls : List Step → Script
  | [] => .done
  | call :: calls => .step call (.ofCalls calls)

namespace Draft

variable {d : Draft}

def runCalls (calls : List Step) (d : Draft) : Draft := calls.foldl builder.call d

theorem runCalls_append (first second : List Step) (d : Draft) :
    runCalls (first ++ second) d = runCalls second (runCalls first d) :=
  List.foldl_append

theorem run_ofCalls (calls : List Step) (d : Draft) :
    builder.run (.ofCalls calls) d = runCalls calls d := by
  induction calls generalizing d with
  | nil => rfl
  | cons call calls ih => exact ih _

theorem build_ofCalls (calls : List Step) :
    (Script.ofCalls calls).build = (runCalls calls .empty).finish :=
  congrArg finish (run_ofCalls calls .empty)

theorem add_frames_length (kind : Kind) (span : Span) (below : Forest) (d : Draft) :
    (d.add kind span below).frames.length = d.frames.length := by
  rcases d with ⟨_, _ | ⟨frame, outer⟩, done⟩ <;> rfl

theorem call_frames_length (call : Step) (d : Draft) :
    (builder.call d call).frames.length = call.depth d.frames.length := by
  cases call with
  | openNode kind start => rfl
  | close stop =>
    rcases d with ⟨_, _ | ⟨frame, outer⟩, done⟩
    · rfl
    · exact add_frames_length _ _ _ _
  | _ => exact add_frames_length _ _ _ _

theorem runCalls_padded {depth : Nat} {calls padded : List Step}
    (h : Step.Padded depth calls padded) (hd : d.frames.length = depth) :
    runCalls padded d = runCalls calls d := by
  induction h generalizing d with
  | nil => rfl
  | @keep depth call calls padded _ ih =>
    refine ih ?_
    rw [call_frames_length, hd]
  | @stray stop calls padded _ ih =>
    have hclosed : builder.call d (.close stop) = d := by
      rcases d with ⟨_, _ | ⟨frame, outer⟩, done⟩
      · rfl
      · cases hd
    change runCalls padded (builder.call d (.close stop)) = _
    rw [hclosed, ih hd]

end Draft

namespace Outline

def append : Outline → Outline → Outline
  | nil, later => later
  | leaf kind span rest, later => leaf kind span (rest.append later)
  | inner kind start stop children rest, later =>
    inner kind start stop children (rest.append later)

def calls : Outline → List Step
  | nil => []
  | leaf kind span rest => .leaf kind span :: rest.calls
  | inner kind start stop children rest =>
    .openNode kind start :: (children.calls ++ .close stop :: rest.calls)

/-- The forest with the spans of its nodes; only a leaf may end before it starts. -/
def forest : Outline → Forest
  | nil => .nil
  | leaf kind span rest => .cons kind span .nil rest.forest
  | inner kind start stop children rest =>
    .cons kind ⟨start, max stop start⟩ children.forest rest.forest

theorem calls_append (o later : Outline) : (o.append later).calls = o.calls ++ later.calls := by
  induction o with
  | nil => rfl
  | leaf kind span rest ih => rw [append, calls, calls, ih, List.cons_append]
  | inner kind start stop children rest _ ih => simp [append, calls, ih]

theorem forest_append (o later : Outline) :
    (o.append later).forest = o.forest.append later.forest := by
  induction o with
  | nil => rfl
  | leaf kind span rest ih => rw [append, forest, forest, ih, Forest.append]
  | inner kind start stop children rest _ ih => rw [append, forest, forest, ih, Forest.append]

theorem runCalls_calls (o : Outline) (d : Draft) :
    d.runCalls o.calls = d.extend (Step.reach d.cursor o.calls) o.forest := by
  induction o generalizing d with
  | nil => exact d.extend_nil.symm
  | leaf kind span rest ih =>
    change (d.leaf kind span).runCalls rest.calls = _
    rw [ih, Draft.leaf_eq_extend, Draft.extend_extend, Draft.extend_cursor]
    rfl
  | inner kind start stop children rest ihc ihr =>
    have hreach : Step.reach d.cursor (inner kind start stop children rest).calls =
        Step.reach (max (Step.reach d.cursor children.calls) stop) rest.calls :=
      Step.reach_append d.cursor children.calls (.close stop :: rest.calls)
    change (d.openNode kind start).runCalls (children.calls ++ .close stop :: rest.calls) = _
    rw [Draft.runCalls_append, ihc]
    change (((d.openNode kind start).extend _ children.forest).close stop).runCalls rest.calls = _
    rw [ihr, Draft.close_extend_openNode, Draft.extend_extend, Draft.extend_cursor, hreach]
    rfl

end Outline

namespace Forest

/-- The last root, its last child and so on, `count` nodes in all, end at `stop`, unless they start
behind it. -/
def stopLast (stop : Nat) : Nat → Forest → Forest
  | 0, f => f
  | _ + 1, nil => nil
  | count + 1, cons kind span below nil =>
    cons kind ⟨span.start, max stop span.start⟩ (below.stopLast stop count) nil
  | count + 1, cons kind span below (cons kind' span' below' rest') =>
    cons kind span below ((cons kind' span' below' rest').stopLast stop (count + 1))

theorem stopLast_zero (stop : Nat) (f : Forest) : f.stopLast stop 0 = f := by
  cases f <;> rfl

theorem stopLast_append_single (stop count : Nat) (before : Forest) (kind : Kind) (span : Span)
    (below : Forest) :
    (before.append (.cons kind span below .nil)).stopLast stop (count + 1) =
      before.append (.cons kind ⟨span.start, max stop span.start⟩ (below.stopLast stop count)
        .nil) := by
  induction before with
  | nil => rfl
  | cons kind' span' below' rest _ ih =>
    cases rest with
    | nil => rfl
    | cons => exact congrArg (cons kind' span' below') ih

end Forest

namespace Draft

def closeAll (stop : Nat) : Nat → Draft → Draft
  | 0, d => d
  | count + 1, d => (d.closeAll stop count).close stop

theorem closes_eq_closeAll (stop : Nat) (frames : List Frame) (d : Draft) :
    frames.foldl (fun e _ => e.close stop) d = d.closeAll stop frames.length := by
  induction frames using List.reverseRecOn with
  | nil => rfl
  | append_singleton frames frame ih =>
    rw [List.foldl_append, ih, List.length_append]
    rfl

end Draft

namespace Outline

theorem last_cases (o : Outline) : o = .nil ∨
    (∃ before kind span, o = append before (.leaf kind span .nil)) ∨
      ∃ before kind start stop children,
        o = append before (.inner kind start stop children .nil) := by
  induction o with
  | nil => exact .inl rfl
  | leaf kind span rest ih =>
    rcases ih with rfl | ⟨before, k, s, rfl⟩ | ⟨before, k, start, stop, children, rfl⟩
    · exact .inr (.inl ⟨.nil, kind, span, rfl⟩)
    · exact .inr (.inl ⟨.leaf kind span before, k, s, rfl⟩)
    · exact .inr (.inr ⟨.leaf kind span before, k, start, stop, children, rfl⟩)
  | inner kind start stop children rest _ ih =>
    rcases ih with rfl | ⟨before, k, s, rfl⟩ | ⟨before, k, start', stop', children', rfl⟩
    · exact .inr (.inr ⟨.nil, kind, start, stop, children, rfl⟩)
    · exact .inr (.inl ⟨.inner kind start stop children before, k, s, rfl⟩)
    · exact .inr (.inr ⟨.inner kind start stop children before, k, start', stop', children', rfl⟩)

/-- A last close belongs to the last root, and what stands before it are the calls of the earlier
roots and of its children. -/
theorem exists_last_of_close {o : Outline} {calls : List Step} {stop : Nat}
    (h : o.calls = calls ++ [.close stop]) :
    ∃ (before : Outline) (kind : Kind) (start : Nat) (children : Outline),
      o = before.append (.inner kind start stop children .nil) ∧
        calls = before.calls ++ .openNode kind start :: children.calls := by
  rcases o.last_cases with rfl | ⟨before, kind, span, rfl⟩ |
    ⟨before, kind, start, stop', children, rfl⟩
  · simp [Outline.calls] at h
  · rw [calls_append] at h
    have hlast := List.append_inj_right' h rfl
    simp [Outline.calls] at hlast
  · rw [calls_append] at h
    have hsplit : (before.calls ++ .openNode kind start :: children.calls) ++ [.close stop'] =
        calls ++ [.close stop] := by
      simpa [Outline.calls] using h
    obtain ⟨hcalls, hstop⟩ := List.append_inj' hsplit rfl
    cases hstop
    exact ⟨before, kind, start, children, rfl, hcalls.symm⟩

theorem exists_calls_of_closes {before children calls : List Step} {kind : Kind} {start : Nat}
    {stops : List Nat}
    (h : before ++ .openNode kind start :: children = calls ++ stops.map .close) :
    ∃ inside, calls = before ++ .openNode kind start :: inside ∧
      children = inside ++ stops.map .close := by
  rcases List.append_eq_append_iff.mp h with ⟨inside, rfl, hrest⟩ | ⟨closes, _, hcloses⟩
  · rcases List.cons_eq_append_iff.mp hrest with ⟨_, hopen⟩ | ⟨later, rfl, hchildren⟩
    · have hmem : Step.openNode kind start ∈ stops.map Step.close := by
        rw [hopen]
        exact List.mem_cons_self
      simp at hmem
    · exact ⟨later, rfl, hchildren⟩
  · have hmem : Step.openNode kind start ∈ stops.map Step.close := by
      rw [hcloses]
      simp
    simp at hmem

/-- What the calls leave behind when the last closes are left out: as many nodes are open as closes
are missing, and closing them all at the cursor completes the forest. -/
theorem runCalls_cut {o : Outline} {calls : List Step} {stops : List Nat} (d : Draft)
    (h : o.calls = calls ++ stops.map .close) :
    (d.runCalls calls).cursor = Step.reach d.cursor calls ∧
      (d.runCalls calls).frames.length = d.frames.length + stops.length ∧
      (d.runCalls calls).closeAll (Step.reach d.cursor calls) stops.length =
        d.extend (Step.reach d.cursor calls)
          (o.forest.stopLast (Step.reach d.cursor calls) stops.length) := by
  -- The close that comes last is that of the last root; the other missing ones are among its
  -- children.
  induction stops using List.reverseRecOn generalizing o calls d with
  | nil =>
    rw [List.map_nil, List.append_nil] at h
    rw [← h, runCalls_calls]
    refine ⟨d.extend_cursor _ _, d.extend_frames_length _ _, ?_⟩
    exact congrArg (fun f => d.extend _ f) (o.forest.stopLast_zero _).symm
  | append_singleton stops stop ih =>
    rw [List.map_append, ← List.append_assoc] at h
    obtain ⟨before, kind, start, children, rfl, hcalls⟩ := exists_last_of_close h
    obtain ⟨inside, rfl, hchildren⟩ := exists_calls_of_closes hcalls.symm
    have hrun : d.runCalls (before.calls ++ .openNode kind start :: inside) =
        ((d.extend (Step.reach d.cursor before.calls) before.forest).openNode kind start).runCalls
          inside := by
      rw [Draft.runCalls_append, runCalls_calls]
      rfl
    have hreach : Step.reach d.cursor (before.calls ++ .openNode kind start :: inside) =
        Step.reach (Step.reach d.cursor before.calls) inside :=
      Step.reach_append _ _ _
    obtain ⟨hcursor, hlength, hclosed⟩ :=
      ih ((d.extend (Step.reach d.cursor before.calls) before.forest).openNode kind start) hchildren
    have hopened : ((d.extend (Step.reach d.cursor before.calls) before.forest).openNode kind
        start).cursor = Step.reach d.cursor before.calls := d.extend_cursor _ _
    rw [hopened] at hcursor hclosed
    rw [hrun, hreach]
    refine ⟨hcursor, ?_, ?_⟩
    · rw [hlength]
      change (d.extend _ before.forest).frames.length + 1 + stops.length = _
      rw [d.extend_frames_length, List.length_append, List.length_singleton]
      omega
    · have hlast : (inner kind start stop children nil).forest =
          .cons kind ⟨start, max stop start⟩ children.forest .nil := rfl
      rw [List.length_append, List.length_singleton, Draft.closeAll, hclosed,
        Draft.close_extend_openNode, Draft.extend_extend, forest_append, hlast,
        Forest.stopLast_append_single, Nat.max_self]

theorem build_cut {o : Outline} {calls : List Step} {stops : List Nat}
    (h : o.calls = calls ++ stops.map .close) :
    (Script.ofCalls calls).build = ⟨⟨0, Step.reach 0 calls⟩,
      o.forest.stopLast (Step.reach 0 calls) stops.length⟩ := by
  obtain ⟨hcursor, hlength, hclosed⟩ := runCalls_cut .empty h
  have hopen : (Draft.runCalls calls .empty).frames.length = stops.length :=
    hlength.trans (Nat.zero_add _)
  rw [Draft.build_ofCalls, Draft.finish, Draft.closes_eq_closeAll, hopen, hcursor]
  exact congrArg (fun d => Tree.mk ⟨0, Step.reach 0 calls⟩ (Draft.done d)) hclosed

/-- An outline that is built is read back from the tree, under a root that reaches to the largest
end. Closes put in where nothing is open leave the tree as it is. Without its last closes the tree
differs in the ends of the nodes that stay open and of the root alone. -/
theorem build_reads_back (o : Outline) :
    (∀ f, (Script.ofCalls o.calls).build.Reads [Tree.root] f ↔
      f = .cons .file ⟨0, Step.reach 0 o.calls⟩ o.forest .nil) ∧
    (∀ padded, Step.Padded 0 o.calls padded →
      (Script.ofCalls padded).build = (Script.ofCalls o.calls).build) ∧
    ∀ calls (stops : List Nat), o.calls = calls ++ stops.map .close → ∀ f,
      (Script.ofCalls calls).build.Reads [Tree.root] f ↔
        f = .cons .file ⟨0, Step.reach 0 calls⟩
          (o.forest.stopLast (Step.reach 0 calls) stops.length) .nil := by
  refine ⟨fun f => ?_, fun padded hpadded => ?_, fun calls stops hcut f => ?_⟩
  · have hwhole : o.calls = o.calls ++ [].map .close := (List.append_nil _).symm
    rw [Tree.reads_root_iff, build_cut hwhole, List.length_nil, Forest.stopLast_zero]
    rfl
  · rw [Draft.build_ofCalls, Draft.runCalls_padded hpadded rfl, Draft.build_ofCalls]
  · rw [Tree.reads_root_iff, build_cut hcut]
    rfl

def ragged : Outline :=
  .inner (.term "a") 2 9 (.leaf (.term "b") ⟨5, 3⟩ (.inner .rule 12 4 .nil .nil)) .nil

theorem build_reads_back_ragged :
    (Step.Padded 0 ragged.calls (.close 7 :: (ragged.calls ++ [.close 1])) ∧
      ragged.calls = ragged.calls.take 3 ++ [4, 9].map .close) ∧
    (Script.ofCalls (.close 7 :: (ragged.calls ++ [.close 1]))).build =
      (Script.ofCalls ragged.calls).build ∧
    (Script.ofCalls (ragged.calls.take 3)).build.Reads [Tree.root]
      (.cons .file ⟨0, 3⟩ (.cons (.term "a") ⟨2, 3⟩ (.cons (.term "b") ⟨5, 3⟩ .nil
        (.cons .rule ⟨12, 12⟩ .nil .nil)) .nil) .nil) := by
  have hpadded : Step.Padded 0 ragged.calls (.close 7 :: (ragged.calls ++ [.close 1])) :=
    .stray (.keep (.keep (.keep (.keep (.keep (.stray .nil))))))
  have hcut : ragged.calls = ragged.calls.take 3 ++ [4, 9].map .close := rfl
  obtain ⟨_, hsame, hends⟩ := build_reads_back ragged
  exact ⟨⟨hpadded, hcut⟩, hsame _ hpadded, (hends _ _ hcut _).mpr rfl⟩

end Outline

end KNames
