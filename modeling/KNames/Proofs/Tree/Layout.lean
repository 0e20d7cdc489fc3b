import KNames.Proofs.Tree.Extension
import KNames.Proofs.Tree.Links

set_option autoImplicit false

/-!
# Laid-out text

The calls that lay nodes out one after another move one cursor, and only forwards. Whatever they
add therefore stands between the cursor before and the cursor after, in order, and every node
covers what is put below it. The spans of a tree that is built by such calls alone are nested like
its nodes.
-/
namespace KNames

namespace Kind

def idents : Kind → List Ident
  | moduleBlock name => [name]
  | sortDecl sort => [sort]
  | production labels => labels
  | varDecl name sort => name.toList ++ sort.toList
  | _ => []

def isAnonymous : Kind → Bool
  | varDecl none _ => true
  | _ => false

def isVariable : Kind → Bool
  | varDecl _ _ => true
  | _ => false

/-- The names stand one after another inside the span. The sort of a variable without a name takes
one byte more than it has, for the separator. -/
structure Placed (kind : Kind) (span : Span) : Prop where
  inside : ∀ ident ∈ kind.idents,
    span.start ≤ ident.span.start ∧ ident.span.stop ≤ span.stop
  width : ∀ ident ∈ kind.idents, ident.span.stop =
    ident.span.start + ident.name.utf8ByteSize + if kind.isAnonymous then 1 else 0
  apart : kind.idents.Pairwise fun a b => a.span.stop < b.span.start
  room : kind.isVariable = true → span.start < span.stop

theorem Placed.of_idents_nil {kind : Kind} (span : Span) (h : kind.idents = [])
    (hvar : kind.isVariable = false) : kind.Placed span where
  inside ident hident := by
    rw [h] at hident
    exact absurd hident List.not_mem_nil
  width ident hident := by
    rw [h] at hident
    exact absurd hident List.not_mem_nil
  apart := by
    rw [h]
    exact List.Pairwise.nil
  room hroom := by
    rw [hvar] at hroom
    cases hroom

end Kind

namespace Layout

theorem le_past (start length : Nat) : start ≤ past start length := by
  unfold past
  omega

theorem le_pastNames (start : Nat) (names : List String) : start ≤ pastNames start names := by
  induction names generalizing start with
  | nil => exact Nat.le_refl start
  | cons name names ih => exact Nat.le_trans (le_past start _) (ih (pastName start name))

theorem mem_idents {start : Nat} {names : List String} {ident : Ident}
    (h : ident ∈ idents start names) : start ≤ ident.span.start ∧
      ident.span.stop < pastNames start names ∧
      ident.span.stop = ident.span.start + ident.name.utf8ByteSize := by
  induction names generalizing start with
  | nil => exact absurd h List.not_mem_nil
  | cons name names ih =>
    have hnext : pastName start name = start + name.utf8ByteSize + 1 := rfl
    have hpast : pastNames start (name :: names) = pastNames (pastName start name) names := rfl
    rcases List.mem_cons.mp h with rfl | h
    · have hle := le_pastNames (pastName start name) names
      change start ≤ start ∧ start + name.utf8ByteSize < _ ∧ _
      rw [hpast]
      exact ⟨Nat.le_refl start, by omega, rfl⟩
    · obtain ⟨hstart, hstop, hwidth⟩ := ih h
      rw [hpast]
      exact ⟨by omega, hstop, hwidth⟩

theorem idents_pairwise (start : Nat) (names : List String) :
    (idents start names).Pairwise fun a b => a.span.stop < b.span.start := by
  induction names generalizing start with
  | nil => exact List.Pairwise.nil
  | cons name names ih =>
    refine List.Pairwise.cons (fun ident hident => ?_) (ih _)
    exact (mem_idents hident).1

theorem placed_of_idents {kind : Kind} {span : Span} {start : Nat} {names : List String}
    (h : kind.idents = idents start names) (hknown : kind.isAnonymous = false)
    (hstart : span.start ≤ start) (hstop : pastNames start names ≤ span.stop)
    (hroom : kind.isVariable = true → span.start < span.stop) : kind.Placed span where
  inside ident hident := by
    rw [h] at hident
    obtain ⟨hfrom, hto, _⟩ := mem_idents hident
    exact ⟨Nat.le_trans hstart hfrom, Nat.le_trans (Nat.le_of_lt hto) hstop⟩
  width ident hident := by
    rw [h] at hident
    rw [hknown]
    exact (mem_idents hident).2.2
  apart := by
    rw [h]
    exact idents_pairwise start names
  room := hroom

theorem placed_moduleBlock (start : Nat) {stop : Nat} (name : String)
    (h : pastName (start + 7) name ≤ stop) :
    (Kind.moduleBlock (identAt name (start + 7))).Placed ⟨start, stop⟩ := by
  have hidents : (Kind.moduleBlock (identAt name (start + 7))).idents = idents (start + 7) [name] :=
    rfl
  exact placed_of_idents hidents rfl (Nat.le_add_right start 7) h nofun

theorem placed_sortDecl (start : Nat) (sort : String) :
    (Kind.sortDecl (identAt sort (start + 7))).Placed ⟨start, pastName (start + 7) sort⟩ := by
  have hidents : (Kind.sortDecl (identAt sort (start + 7))).idents = idents (start + 7) [sort] :=
    rfl
  exact placed_of_idents hidents rfl (Nat.le_add_right start 7) (Nat.le_refl _) nofun

theorem placed_production (start : Nat) (labels : List String) :
    (Kind.production (idents start labels)).Placed ⟨start, pastNames start labels⟩ :=
  placed_of_idents rfl rfl (Nat.le_refl _) (Nat.le_refl _) nofun

theorem lt_pastNames (start : Nat) (name : String) (names : List String) :
    start < pastNames start (name :: names) :=
  Nat.lt_of_lt_of_le (Nat.lt_succ_of_le (Nat.le_add_right _ _)) (le_pastNames _ names)

theorem placed_varDecl (start : Nat) (name : String) (sort : Option String) :
    (Kind.varDecl (some (identAt name start)) (sort.map (identAt · (pastName start name)))).Placed
      ⟨start, pastNames start (name :: sort.toList)⟩ := by
  have hidents : (Kind.varDecl (some (identAt name start))
      (sort.map (identAt · (pastName start name)))).idents =
        idents start (name :: sort.toList) := by
    cases sort <;> rfl
  exact placed_of_idents hidents rfl (Nat.le_refl _) (Nat.le_refl _) fun _ => lt_pastNames _ _ _

theorem placed_anonymous (start : Nat) (sort : String) :
    (Kind.varDecl none (some ⟨sort, ⟨start, start + (sort.utf8ByteSize + 1)⟩⟩)).Placed
      ⟨start, past start (sort.utf8ByteSize + 1)⟩ where
  inside ident hident := by
    cases List.mem_singleton.mp hident
    exact ⟨Nat.le_refl _, Nat.le_succ _⟩
  width ident hident := by
    cases List.mem_singleton.mp hident
    exact (Nat.add_assoc _ _ 1).symm
  apart := List.pairwise_singleton _ _
  room _ := Nat.lt_succ_of_le (Nat.le_add_right _ _)

end Layout

namespace Forest

variable {f g : Forest} {lo mid hi : Nat} {parent : Option NodeId} {base : NodeId} {n : Node}

/-- The forest stands between two positions: its roots one after another, and what is below a node
inside its span. A variable has nothing below it. -/
inductive Laid : Nat → Forest → Nat → Prop
  | nil {lo hi : Nat} (h : lo ≤ hi) : Laid lo .nil hi
  | cons {lo hi : Nat} {kind : Kind} {span : Span} {below rest : Forest}
      (hstart : lo ≤ span.start) (hplaced : kind.Placed span)
      (hbelow : Laid span.start below span.stop)
      (hvar : kind.isVariable = true → below = .nil) (hrest : Laid span.stop rest hi) :
      Laid lo (.cons kind span below rest) hi

theorem Laid.le (h : Laid lo f hi) : lo ≤ hi := by
  induction h with
  | nil h => exact h
  | cons hstart _ _ _ _ ihbelow ihrest => omega

theorem Laid.widen {lo' hi' : Nat} (h : Laid lo f hi) (hlo : lo' ≤ lo) (hhi : hi ≤ hi') :
    Laid lo' f hi' := by
  induction h generalizing lo' with
  | nil h => exact .nil (by omega)
  | cons hstart hplaced hbelow hvar _ _ ihrest =>
    exact .cons (Nat.le_trans hlo hstart) hplaced hbelow hvar (ihrest (Nat.le_refl _) hhi)

theorem Laid.append (hf : Laid lo f mid) (hg : Laid mid g hi) : Laid lo (f.append g) hi := by
  induction hf with
  | nil h => exact hg.widen h (Nat.le_refl _)
  | cons hstart hplaced hbelow hvar _ _ ihrest =>
    exact .cons hstart hplaced hbelow hvar (ihrest hg)

theorem Laid.around {kind : Kind} {start stop next : Nat} (h : Laid lo f hi)
    (hplaced : kind.Placed ⟨start, stop⟩) (hvar : kind.isVariable = true → f = .nil)
    (hstart : start ≤ lo) (hstop : hi ≤ stop) (hnext : stop ≤ next) :
    Laid start (.cons kind ⟨start, stop⟩ f .nil) next :=
  .cons (Nat.le_refl start) hplaced (h.widen hstart hstop) hvar (.nil hnext)

theorem Laid.of_mem_nodes (h : Laid lo f hi) (hn : n ∈ f.nodes parent base) :
    lo ≤ n.span.start ∧ n.span.stop ≤ hi ∧ n.kind.Placed n.span ∧
      Laid n.span.start n.below n.span.stop := by
  induction h generalizing parent base with
  | nil => exact absurd hn List.not_mem_nil
  | cons hstart hplaced hbelow _ hrest ihbelow ihrest =>
    have hwidth := hbelow.le
    have hafter := hrest.le
    rcases List.mem_cons.mp hn with rfl | hn
    · exact ⟨hstart, hafter, hplaced, hbelow⟩
    · rcases List.mem_append.mp hn with hn | hn
      · obtain ⟨hlo, hhi, hlaid⟩ := ihbelow hn
        exact ⟨by omega, by omega, hlaid⟩
      · obtain ⟨hlo, hhi, hlaid⟩ := ihrest hn
        exact ⟨by omega, hhi, hlaid⟩

theorem Laid.tops_pairwise (h : Laid lo f hi) (parent : Option NodeId) (base : NodeId) :
    (f.tops parent base).Pairwise fun a b => a.span.stop ≤ b.span.start := by
  induction h generalizing base with
  | nil => exact List.Pairwise.nil
  | cons _ _ _ _ hrest _ ihrest =>
    refine List.Pairwise.cons (fun b hb => ?_) (ihrest _)
    exact (hrest.of_mem_nodes (mem_nodes_of_mem_tops hb)).1

theorem Laid.nodes_pairwise (h : Laid lo f hi) (parent : Option NodeId) (base : NodeId) :
    (f.nodes parent base).Pairwise fun a b => a.span.start ≤ b.span.start ∧
      (a.kind.isVariable = true → a.span.start < b.span.start) := by
  induction h generalizing parent base with
  | nil => exact List.Pairwise.nil
  | @cons lo hi kind span below rest hstart hplaced hbelow hvar hrest ihbelow ihrest =>
    have hwidth := hbelow.le
    refine List.Pairwise.cons (fun b hb => ?_)
      (List.pairwise_append.mpr ⟨ihbelow _ _, ihrest _ _, ?_⟩)
    · rcases List.mem_append.mp hb with hb | hb
      · refine ⟨(hbelow.of_mem_nodes hb).1, fun hk => ?_⟩
        rw [hvar hk] at hb
        exact absurd hb List.not_mem_nil
      · have hafter := (hrest.of_mem_nodes hb).1
        exact ⟨Nat.le_trans hwidth hafter, fun hk => Nat.lt_of_lt_of_le (hplaced.room hk) hafter⟩
    · intro a ha b hb
      have hafter := (hrest.of_mem_nodes hb).1
      obtain ⟨_, hinside, ha, hlaid⟩ := hbelow.of_mem_nodes ha
      have hforward := hlaid.le
      refine ⟨by omega, fun hk => ?_⟩
      have hroom := ha.room hk
      omega

end Forest

/-- The call finds its positions itself. -/
def Step.isNamed : Step → Bool
  | openNode _ _ | leaf _ _ | close _ => false
  | _ => true

def Script.isNamed : Script → Bool
  | done => true
  | step call next => call.isNamed && next.isNamed
  | block _ body next => body.isNamed && next.isNamed

namespace Draft

open Layout

theorem leaf_laid {kind : Kind} {stop next : Nat} (d : Draft)
    (hplaced : kind.Placed ⟨d.cursor, stop⟩) (hfrom : d.cursor ≤ stop) (hto : stop ≤ next) :
    ∃ next' f, builder.perform d [.moveTo next, .leaf kind ⟨d.cursor, stop⟩] = d.extend next' f ∧
      f.Laid d.cursor next' := by
  have hempty : Forest.Laid d.cursor .nil stop := .nil hfrom
  refine ⟨next, .cons kind ⟨d.cursor, stop⟩ .nil .nil, ?_,
    hempty.around hplaced (fun _ => rfl) (Nat.le_refl _) (Nat.le_refl _) hto⟩
  change Draft.leaf kind ⟨d.cursor, stop⟩ { d with cursor := next } = _
  rw [leaf_eq_extend, Nat.max_eq_left hto]
  rfl

theorem call_laid {call : Step} (h : call.isNamed = true) (d : Draft) :
    ∃ next f, builder.call d call = d.extend next f ∧ f.Laid d.cursor next := by
  cases call with
  | require path =>
    exact leaf_laid d (.of_idents_nil _ rfl rfl) (Nat.le_add_right _ _) (Nat.le_succ _)
  | sortDecl sort =>
    have hle : d.cursor ≤ pastName (d.cursor + 7) sort :=
      Nat.le_trans (Nat.le_add_right _ 7) (le_pastNames _ [sort])
    exact leaf_laid d (placed_sortDecl _ sort) hle (Nat.le_refl _)
  | production labels =>
    exact leaf_laid d (placed_production _ labels) (le_pastNames _ _) (Nat.le_refl _)
  | varDecl name sort =>
    have hle : d.cursor ≤ pastNames d.cursor (name :: sort.toList) := le_pastNames _ _
    exact leaf_laid d (placed_varDecl _ name sort) hle (Nat.le_refl _)
  | anonymousVar sort =>
    exact leaf_laid d (placed_anonymous _ sort) (le_past _ _) (Nat.le_refl _)
  | reference text =>
    exact leaf_laid d (.of_idents_nil _ rfl rfl) (Nat.le_add_right _ _) (Nat.le_succ _)
  | openNode kind start => cases h
  | leaf kind span => cases h
  | close stop => cases h

theorem close_laid (kind : Kind) {lo cursor start stop : Nat} {f : Forest} (d : Draft) (next : Nat)
    (h : f.Laid lo cursor) (hplaced : kind.Placed ⟨start, stop⟩)
    (hvar : kind.isVariable = true → f = .nil) (hstart : start ≤ lo) (hstop : cursor ≤ stop) :
    ((d.openNode kind start).extend next f).close stop =
        d.extend (max next stop) (.cons kind ⟨start, stop⟩ f .nil) ∧
      Forest.Laid start (.cons kind ⟨start, stop⟩ f .nil) (max next stop) := by
  have hforward : start ≤ stop := Nat.le_trans hstart (Nat.le_trans h.le hstop)
  refine ⟨?_, h.around hplaced hvar hstart hstop (Nat.le_max_right _ _)⟩
  rw [close_extend_openNode, Nat.max_eq_left hforward]

theorem module_laid (name : String) (d : Draft) {f : Forest} {cursor : Nat}
    (h : f.Laid (pastName (d.cursor + 7) name) cursor) :
    ∃ next g, builder.leave ((builder.enter d (.moduleBlock name)).extend cursor f)
      (.moduleBlock name) = d.extend next g ∧ g.Laid d.cursor next := by
  have hstart : d.cursor ≤ pastName (d.cursor + 7) name :=
    Nat.le_trans (Nat.le_add_right _ 7) (le_pastNames _ [name])
  have hplaced := placed_moduleBlock d.cursor name (Nat.le_trans h.le (Nat.le_add_right cursor 9))
  exact ⟨_, _, close_laid _ d (past cursor 9) h hplaced nofun hstart (Nat.le_add_right cursor 9)⟩

theorem rule_laid (d : Draft) {f : Forest} {cursor : Nat} (h : f.Laid (past d.cursor 5) cursor) :
    ∃ next g, builder.leave ((builder.enter d .rule).extend cursor f) .rule = d.extend next g ∧
      g.Laid d.cursor next := by
  obtain ⟨hclose, hbody⟩ := close_laid .ruleBody (d.openNode .rule d.cursor) cursor h
    (.of_idents_nil ⟨past d.cursor 5, cursor⟩ rfl rfl) nofun (Nat.le_refl _) (Nat.le_refl _)
  rw [Nat.max_self] at hclose hbody
  obtain ⟨houter, hrule⟩ := close_laid .rule d cursor hbody
    (.of_idents_nil ⟨d.cursor, cursor⟩ rfl rfl) nofun (le_past _ 5) (Nat.le_refl _)
  refine ⟨_, _, ?_, hrule⟩
  rw [← houter, ← hclose]
  rfl

theorem term_laid (text : String) (d : Draft) {f : Forest} {cursor : Nat}
    (h : f.Laid (pastName d.cursor text) cursor) :
    ∃ next g, builder.leave ((builder.enter d (.term text)).extend cursor f) (.term text) =
      d.extend next g ∧ g.Laid d.cursor next := by
  have hstart : d.cursor ≤ pastName d.cursor text := le_pastNames _ [text]
  exact ⟨_, _, close_laid (.term text) d cursor h (.of_idents_nil ⟨d.cursor, cursor⟩ rfl rfl) nofun
    hstart (Nat.le_refl _)⟩

theorem block_laid (head : Block) (d : Draft) {f : Forest} {cursor : Nat}
    (h : f.Laid (builder.enter d head).cursor cursor) :
    ∃ next g, builder.leave ((builder.enter d head).extend cursor f) head = d.extend next g ∧
      g.Laid d.cursor next := by
  cases head with
  | moduleBlock name => exact module_laid name d h
  | rule => exact rule_laid d h
  | term text => exact term_laid text d h

theorem run_laid {s : Script} (h : s.isNamed = true) (d : Draft) :
    ∃ next f, builder.run s d = d.extend next f ∧ f.Laid d.cursor next := by
  induction s generalizing d with
  | done => exact ⟨d.cursor, .nil, d.extend_nil.symm, .nil (Nat.le_refl _)⟩
  | step call later ih =>
    obtain ⟨hcall, hlater⟩ := (Bool.and_eq_true _ _).mp h
    obtain ⟨mid, f, hf, hflaid⟩ := call_laid hcall d
    obtain ⟨next, g, hg, hglaid⟩ := ih hlater (d.extend mid f)
    rw [d.extend_cursor] at hglaid
    refine ⟨next, f.append g, ?_, hflaid.append hglaid⟩
    rw [Builder.run, hf, hg, extend_extend]
  | block head body later ihbody ihlater =>
    obtain ⟨hbody, hlater⟩ := (Bool.and_eq_true _ _).mp h
    obtain ⟨inner, f, hf, hflaid⟩ := ihbody hbody (builder.enter d head)
    obtain ⟨mid, g, hg, hglaid⟩ := block_laid head d hflaid
    obtain ⟨next, k, hk, hklaid⟩ := ihlater hlater (d.extend mid g)
    rw [d.extend_cursor] at hklaid
    refine ⟨next, g.append k, ?_, hglaid.append hklaid⟩
    rw [Builder.run, hf, hg, hk, extend_extend]

end Draft

namespace Tree

variable {t : Tree} {n : Node}

def isVariable (t : Tree) (i : NodeId) : Bool := (t.kind? i).any (·.isVariable)

/-- The spans of a tree are nested and ordered like its nodes. -/
structure WellLaid (t : Tree) : Prop where
  forward : ∀ i span, t.span? i = some span → span.start ≤ span.stop
  inside : ∀ p outer, t.span? p = some outer → ∀ i ∈ t.children p, ∀ inner,
    t.span? i = some inner → outer.start ≤ inner.start ∧ inner.stop ≤ outer.stop
  siblings : ∀ p, ((t.children p).filterMap t.span?).Pairwise fun a b => a.stop ≤ b.start
  starts : ((t.descendants root).filterMap t.span?).Pairwise fun a b => a.start ≤ b.start
  variableStarts : (((t.descendants root).filter t.isVariable).filterMap t.span?).Pairwise
    fun a b => a.start < b.start
  names : ∀ i kind span, t.kind? i = some kind → t.span? i = some span → kind.Placed span

theorem filter_isVariable {ns : List Node} (h : ns ⊆ t.nodes) :
    (ns.map (·.id)).filter t.isVariable = (ns.filter (·.kind.isVariable)).map (·.id) := by
  rw [List.filter_map]
  congr 1
  refine List.filter_congr fun n hn => ?_
  change (t.kind? n.id).any _ = _
  rw [kind?_of_node? (node?_of_mem (h hn))]
  rfl

theorem wellLaid_of_laid {lo hi : Nat} (h : t.whole.Laid lo hi) : t.WellLaid where
  forward i span hspan := by
    obtain ⟨n, hn, rfl⟩ := exists_node_of_span? hspan
    obtain ⟨_, _, _, hbelow⟩ := h.of_mem_nodes (mem_nodes_of_node? hn)
    exact hbelow.le
  inside p outer houter i hi inner hinner := by
    obtain ⟨m, n, hm, hn, hchild⟩ := mem_children_iff_exists.mp hi
    rw [span?_of_node? hm] at houter
    rw [span?_of_node? hn] at hinner
    cases houter
    cases hinner
    obtain ⟨_, _, _, hbelow⟩ := h.of_mem_nodes (mem_nodes_of_node? hm)
    obtain ⟨hstart, hstop, _⟩ := hbelow.of_mem_nodes (Forest.mem_nodes_of_mem_tops hchild)
    exact ⟨hstart, hstop⟩
  siblings p := by
    cases hp : t.node? p with
    | none =>
      rw [children_of_size_le (node?_eq_none_iff.mp hp)]
      exact List.Pairwise.nil
    | some m =>
      have hm := mem_nodes_of_node? hp
      have hsubset : m.childNodes ⊆ t.nodes := fun _ => mem_nodes_of_mem_childNodes hm
      obtain ⟨_, _, _, hbelow⟩ := h.of_mem_nodes hm
      rw [children_of_node? hp, Node.children, filterMap_span? hsubset]
      exact List.pairwise_map.mpr (hbelow.tops_pairwise _ _)
  starts := by
    rw [descendants_root_eq_nodes, filterMap_span? (List.Subset.refl _)]
    exact List.pairwise_map.mpr ((h.nodes_pairwise none root).imp And.left)
  variableStarts := by
    have hsubset : t.nodes.filter (·.kind.isVariable) ⊆ t.nodes :=
      List.filter_sublist.subset
    rw [descendants_root_eq_nodes, filter_isVariable (List.Subset.refl _), filterMap_span? hsubset,
      List.pairwise_map, List.pairwise_filter]
    exact (h.nodes_pairwise none root).imp fun hab hvar _ => hab.2 hvar
  names i kind span hkind hspan := by
    obtain ⟨n, hn, rfl⟩ := exists_node_of_span? hspan
    rw [kind?_of_node? hn] at hkind
    cases hkind
    obtain ⟨_, _, hplaced, _⟩ := h.of_mem_nodes (mem_nodes_of_node? hn)
    exact hplaced

end Tree

namespace Script

theorem build_laid {s : Script} (h : s.isNamed = true) : ∃ stop, s.build.whole.Laid 0 stop := by
  obtain ⟨stop, f, hrun, hlaid⟩ := Draft.run_laid h .empty
  refine ⟨stop, ?_⟩
  rw [build, hrun, Draft.finish_extend_empty]
  exact hlaid.around (.of_idents_nil _ rfl rfl) nofun (Nat.le_refl _) (Nat.le_refl _)
    (Nat.le_refl _)

/-- A tree that is built without a given position has its spans nested and in order, down to the
names inside each node. -/
theorem build_wellLaid (s : Script) (h : s.isNamed = true) : s.build.WellLaid := by
  obtain ⟨_, hlaid⟩ := build_laid h
  exact Tree.wellLaid_of_laid hlaid

/-- Every call that finds its position itself, with empty names among them. -/
def sampler : Script :=
  .block (.moduleBlock "M")
    (.step (.sortDecl "Int") (.step (.production ["", "add"])
      (.block .rule
        (.block (.term "f")
          (.step (.varDecl "X" (some "Int")) (.step (.anonymousVar "") (.step (.varDecl "" none)
            .done)))
          (.step (.reference "X") .done))
        .done)))
    (.step (.require "m.k") .done)

theorem build_wellLaid_sampler :
    sampler.isNamed = true ∧ sampler.build.WellLaid ∧
      (((sampler.build.descendants Tree.root).filter sampler.build.isVariable).filterMap
        sampler.build.span?) = [⟨33, 39⟩, ⟨39, 41⟩, ⟨41, 42⟩] :=
  ⟨rfl, build_wellLaid sampler rfl, rfl⟩

end Script

end KNames
