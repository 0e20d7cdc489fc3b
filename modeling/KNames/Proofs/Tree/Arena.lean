import KNames.Proofs.Tree.Numbering
import KNames.Tree.Arena

set_option autoImplicit false

namespace KNames

namespace Builder

variable {State Image : Type} {b : Builder State} {c : Builder Image} {image : State → Image}

/-- A map that keeps the cursor and goes with every action goes with every run. -/
theorem run_image (hcursor : ∀ s, c.cursor (image s) = b.cursor s)
    (hact : ∀ s x, image (b.act s x) = c.act (image s) x) (script : Script) (s : State) :
    image (b.run script s) = c.run script (image s) := by
  have hperform (actions : List Action) (s : State) :
      image (b.perform s actions) = c.perform (image s) actions := by
    induction actions generalizing s with
    | nil => rfl
    | cons x actions ih =>
      change image (b.perform (b.act s x) actions) = c.perform (c.act (image s) x) actions
      rw [ih, hact]
  induction script generalizing s with
  | done => rfl
  | step call next ih =>
    rw [run, run, ih, Builder.call, hperform, Builder.call, hcursor]
  | block head body next ihb ihn =>
    simp only [run, ihn, enter, leave, hperform, ← hcursor, ihb]

end Builder

namespace Draft

/-- The links of a node that comes after `before` and of all that is below it. -/
def chunk (before : List Link) (kind : Kind) (span : Span) (parent : Option NodeId)
    (done : Forest) : List Link :=
  before ++ ⟨kind, span, parent, (done.tops (some before.length) (before.length + 1)).map (·.id)⟩ ::
    (done.nodes (some before.length) (before.length + 1)).map (·.link)

/-- The stack of open nodes and the links of all nodes, when the root has the finished children
`done`. An open node has no width yet. -/
def trail (done : Forest) : List Frame → List NodeId × List Link
  | [] => ([], chunk [] .file ⟨0, 0⟩ none done)
  | f :: outer =>
    let below := trail done outer
    let parent := below.1.headD Tree.root
    (below.2.length :: below.1,
      chunk (below.2.modify parent (·.adopt below.2.length)) f.kind ⟨f.start, f.start⟩
        (some parent) f.done)

def arena (d : Draft) : Arena := ⟨d.cursor, (trail d.done d.frames).1, (trail d.done d.frames).2⟩

theorem modify_length_append {α : Type} (g : α → α) (xs : List α) (y : α) (ys : List α) :
    (xs ++ y :: ys).modify xs.length g = xs ++ g y :: ys := by
  induction xs with
  | nil => rfl
  | cons x xs ih => rw [List.cons_append, List.length_cons, List.modify_succ_cons, ih]; rfl

theorem chunk_length (before : List Link) (kind : Kind) (span : Span) (parent : Option NodeId)
    (done : Forest) :
    (chunk before kind span parent done).length = before.length + 1 + done.size := by
  rw [chunk, List.length_append, List.length_cons, List.length_map, Forest.nodes_length]
  omega

theorem chunk_append (before : List Link) (kind inner : Kind) (span place : Span)
    (parent : Option NodeId) (done below : Forest) :
    chunk before kind span parent (done.append (.cons inner place below .nil)) =
      chunk ((chunk before kind span parent done).modify before.length
        (·.adopt (chunk before kind span parent done).length)) inner place (some before.length)
        below := by
  have hlen := chunk_length before kind span parent done
  generalize hold : chunk before kind span parent done = old at hlen ⊢
  have hmodify : old.modify before.length (·.adopt old.length) = before ++
      Link.adopt old.length ⟨kind, span, parent,
        (done.tops (some before.length) (before.length + 1)).map (·.id)⟩ ::
      (done.nodes (some before.length) (before.length + 1)).map (·.link) := by
    rw [← hold, chunk, modify_length_append]
  rw [chunk, chunk, List.length_modify, hmodify, Forest.tops_append, Forest.nodes_append]
  have hplace : before.length + 1 + done.size = old.length := hlen.symm
  simp only [hplace, Forest.tops, Forest.nodes, List.map_append, List.map_cons, List.map_nil,
    Link.adopt, List.append_assoc, List.cons_append, List.append_nil]
  rfl

theorem chunk_closeAt (before : List Link) (kind : Kind) (start stop : Nat)
    (parent : Option NodeId) (done : Forest) :
    (chunk before kind ⟨start, start⟩ parent done).modify before.length (·.closeAt stop) =
      chunk before kind ⟨start, max stop start⟩ parent done := by
  rw [chunk, modify_length_append]
  rfl

def pushed (a : Arena) (kind : Kind) (span : Span) (below : Forest) : List Link :=
  chunk (a.links.modify a.innermost (·.adopt a.links.length)) kind span (some a.innermost) below

theorem pushed_nil (a : Arena) (kind : Kind) (span : Span) :
    pushed a kind span .nil = (a.push kind span).links := rfl

theorem pushed_closeAt (a : Arena) (kind : Kind) (start stop : Nat) (below : Forest) :
    (pushed a kind ⟨start, start⟩ below).modify a.links.length (·.closeAt stop) =
      pushed a kind ⟨start, max stop start⟩ below := by
  have h := chunk_closeAt (a.links.modify a.innermost (·.adopt a.links.length)) kind start stop
    (some a.innermost) below
  rw [List.length_modify] at h
  exact h

theorem arena_root (cursor : Nat) (done : Forest) :
    arena ⟨cursor, [], done⟩ = ⟨cursor, [], chunk [] .file ⟨0, 0⟩ none done⟩ := rfl

theorem arena_frame (cursor : Nat) (f : Frame) (outer : List Frame) (done : Forest) :
    arena ⟨cursor, f :: outer, done⟩ =
      ⟨cursor, (arena ⟨cursor, outer, done⟩).links.length :: (arena ⟨cursor, outer, done⟩).opened,
        pushed (arena ⟨cursor, outer, done⟩) f.kind ⟨f.start, f.start⟩ f.done⟩ := rfl

theorem arena_add (kind : Kind) (span : Span) (below : Forest) (d : Draft) :
    (d.add kind span below).arena =
      ⟨d.cursor, d.arena.opened, pushed d.arena kind span below⟩ := by
  rcases d with ⟨cursor, frames, done⟩
  cases frames with
  | nil =>
    have hadd : add kind span below ⟨cursor, [], done⟩ =
        ⟨cursor, [], done.append (.cons kind span below .nil)⟩ := rfl
    rw [hadd, arena_root, arena_root, chunk_append]
    rfl
  | cons f outer =>
    have hadd : add kind span below ⟨cursor, f :: outer, done⟩ =
        ⟨cursor, ⟨f.kind, f.start, f.done.append (.cons kind span below .nil)⟩ :: outer, done⟩ :=
      rfl
    rw [hadd, arena_frame, arena_frame, pushed, chunk_append, List.length_modify]
    rfl

theorem arena_openNode (kind : Kind) (start : Nat) (d : Draft) :
    (d.openNode kind start).arena = d.arena.openNode kind start := by
  rw [openNode, arena_frame, pushed_nil]
  rfl

theorem arena_leaf (kind : Kind) (span : Span) (d : Draft) :
    (d.leaf kind span).arena = d.arena.leaf kind span := by
  rw [leaf, arena_add, pushed_nil]
  rfl

theorem arena_close (stop : Nat) (d : Draft) : (d.close stop).arena = d.arena.close stop := by
  rcases d with ⟨cursor, frames, done⟩
  cases frames with
  | nil => rfl
  | cons f outer =>
    -- The frame moves below the next one, where it stands already in the arena.
    have hclose : close stop ⟨cursor, f :: outer, done⟩ =
        add f.kind ⟨f.start, max stop f.start⟩ f.done ⟨max cursor stop, outer, done⟩ := rfl
    rw [hclose, arena_add, arena_frame]
    simp only [Arena.close, pushed_closeAt]
    rfl

theorem arena_act (d : Draft) (x : Action) : (d.act x).arena = d.arena.act x := by
  cases x with
  | moveTo position => rfl
  | openNode kind start => exact arena_openNode kind start d
  | leaf kind span => exact arena_leaf kind span d
  | close stop => exact arena_close stop d

theorem close_frames_length (stop : Nat) (d : Draft) :
    (d.close stop).frames.length = d.frames.length - 1 := by
  rcases d with ⟨cursor, _ | ⟨f, _ | ⟨g, outer⟩⟩, done⟩ <;> rfl

theorem arena_opened_length (d : Draft) : d.arena.opened.length = d.frames.length := by
  rcases d with ⟨cursor, frames, done⟩
  induction frames with
  | nil => rfl
  | cons f outer ih => rw [arena_frame, List.length_cons, List.length_cons, ih]

theorem arena_closes (stop : Nat) (fs : List Frame) (ids : List NodeId) (d : Draft)
    (h : ids.length = fs.length) :
    (fs.foldl (fun e _ => e.close stop) d).arena = ids.foldl (fun a _ => a.close stop) d.arena := by
  induction fs generalizing ids d with
  | nil =>
    cases List.eq_nil_of_length_eq_zero h
    rfl
  | cons f fs ih =>
    cases ids with
    | nil => simp at h
    | cons i ids =>
      rw [List.foldl_cons, List.foldl_cons, ih ids _ (Nat.succ.inj h), arena_close]

theorem closes_frames (stop : Nat) (fs : List Frame) (d : Draft)
    (h : fs.length = d.frames.length) : (fs.foldl (fun e _ => e.close stop) d).frames = [] := by
  induction fs generalizing d with
  | nil => exact List.eq_nil_of_length_eq_zero h.symm
  | cons f fs ih =>
    rw [List.foldl_cons]
    apply ih
    rw [close_frames_length, ← h]
    rfl

theorem finish_links (d : Draft) : d.finish.links = d.arena.finish := by
  have hclosed := closes_frames d.cursor d.frames d rfl
  have harena := arena_closes d.cursor d.frames d.arena.opened d (arena_opened_length d)
  generalize hfinal : d.frames.foldl (fun e _ => e.close d.cursor) d = final at hclosed harena
  rcases final with ⟨cursor, frames, done⟩
  cases hclosed
  rw [arena_root] at harena
  have hcursor : d.arena.cursor = d.cursor := rfl
  rw [finish, hfinal, Arena.finish, hcursor, ← harena, Tree.links, Tree.nodes, Tree.whole,
    Forest.nodes, Forest.nodes, List.append_nil]
  rfl

end Draft

namespace Arena

theorem push_length (a : Arena) (kind : Kind) (span : Span) :
    (a.push kind span).links.length = a.links.length + 1 := by
  rw [push, List.length_append, List.length_modify]
  rfl

theorem close_length (a : Arena) (stop : Nat) : (a.close stop).links.length = a.links.length := by
  rcases a with ⟨cursor, _ | ⟨i, outer⟩, links⟩
  · rfl
  · exact List.length_modify _ _ _

theorem call_length (a : Arena) (call : Step) :
    (builder.call a call).links.length = a.links.length + call.added := by
  cases call with
  | close stop => exact close_length a stop
  | _ => exact push_length _ _ _

theorem enter_length (a : Arena) (head : Block) :
    (builder.enter a head).links.length = a.links.length + head.added := by
  cases head with
  | moduleBlock name => exact push_length _ _ _
  | rule => exact (push_length _ _ _).trans (congrArg (· + 1) (push_length _ _ _))
  | term text => exact push_length _ _ _

theorem leave_length (a : Arena) (head : Block) :
    (builder.leave a head).links.length = a.links.length := by
  cases head with
  | moduleBlock name => exact close_length _ _
  | rule => exact (close_length _ _).trans (close_length _ _)
  | term text => exact close_length _ _

theorem run_length (s : Script) (a : Arena) :
    (builder.run s a).links.length = a.links.length + s.size := by
  induction s generalizing a with
  | done => rfl
  | step call next ih =>
    rw [Builder.run, ih, call_length, Script.size]
    omega
  | block head body next ihb ihn =>
    rw [Builder.run, ihn, leave_length, ihb, enter_length, Script.size]
    omega

theorem finish_length (a : Arena) : a.finish.length = a.links.length := by
  have hcloses (ids : List NodeId) (b : Arena) :
      (ids.foldl (fun b _ => b.close a.cursor) b).links.length = b.links.length := by
    induction ids generalizing b with
    | nil => rfl
    | cons i ids ih => rw [List.foldl_cons, ih, close_length]
  rw [finish, List.length_modify, hcloses]

end Arena

namespace Script

/-- A tree has the links that its script leaves behind in an arena. -/
theorem build_links (s : Script) : s.build.links = s.links := by
  have hrun : (Draft.builder.run s .empty).arena = Arena.builder.run s .empty :=
    Builder.run_image (b := Draft.builder) (c := Arena.builder) (fun _ => rfl) Draft.arena_act s
      .empty
  rw [build, Draft.finish_links, hrun, links]

theorem build_size (s : Script) : s.build.size = s.size + 1 := by
  have hnodes : s.build.links.length = s.build.size := by
    rw [Tree.links, List.length_map, Tree.nodes, Forest.nodes_length]
    rfl
  rw [← hnodes, build_links, links, Arena.finish_length, Arena.run_length]
  exact Nat.add_comm 1 s.size

end Script

end KNames
