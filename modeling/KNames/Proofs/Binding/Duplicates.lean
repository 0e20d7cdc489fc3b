import KNames.Proofs.Binding.Repeats
import KNames.Proofs.Tree.Layout
import Mathlib.Data.List.Nodup
import Mathlib.Data.List.Perm.Basic

set_option autoImplicit false

/-!
# Exactly the repeated declarations

The complaints about a rule are collected name by name, each name with a search of its own, and then
sorted by position. Regrouped, they are one complaint for each node of the body that declares a
variable after another node has. In document order they stand as soon as these nodes start one
behind the other, as laid-out nodes do.
-/
namespace KNames

namespace Diagnostic

theorem flatMap_filter_perm {α κ : Type} [DecidableEq κ] (hits : α → κ → Bool) {keys : List κ}
    (hkeys : keys.Nodup) {items : List α}
    (hitems : ∀ a ∈ items, ∃ k ∈ keys, ∀ key, hits a key = true ↔ key = k) :
    (keys.flatMap fun key => items.filter (hits · key)).Perm items := by
  induction items with
  | nil => simp
  | cons a items ih =>
    obtain ⟨k, hk, hits_iff⟩ := hitems a List.mem_cons_self
    have hsplit : (keys.flatMap fun key => (a :: items).filter (hits · key)) =
        keys.flatMap fun key =>
          (if key = k then [a] else []) ++ items.filter (hits · key) := by
      refine List.flatMap_congr fun key _ => ?_
      by_cases hkey : key = k <;> simp [hits_iff, hkey]
    have hsingle : (keys.flatMap fun key => if key = k then [a] else []) = [a] := by
      rw [flatMap_single (fun _ => [a]) k hkeys, if_pos hk]
    rw [hsplit]
    refine (List.flatMap_append_perm keys _ _).symm.trans ?_
    rw [hsingle]
    exact (ih fun b hb => hitems b (List.mem_cons_of_mem a hb)).cons a

theorem filter_later_eq_tail {α : Type} (number : α → Nat) {l : List α}
    (h : l.Pairwise (number · < number ·)) :
    (l.filter fun a => l.any fun b => number b < number a) = l.tail := by
  cases l with
  | nil => rfl
  | cons first later =>
    obtain ⟨hfirst, _⟩ := List.pairwise_cons.mp h
    have hdrop : ¬((first :: later).any fun b => number b < number first) = true := by
      simp only [List.any_eq_true, decide_eq_true_eq, not_exists, not_and]
      intro b hb
      rcases List.mem_cons.mp hb with rfl | hb
      · omega
      · have hlt := hfirst b hb
        omega
    rw [List.filter_cons, if_neg hdrop, List.tail_cons, List.filter_eq_self]
    intro a ha
    simp [hfirst a ha]

theorem forall₂_filterMap {α β : Type} {R : α → β → Prop} {f : α → Option β} {l : List α}
    (h : ∀ a ∈ l, ∃ b, f a = some b ∧ R a b) : List.Forall₂ R l (l.filterMap f) := by
  induction l with
  | nil => exact .nil
  | cons a l ih =>
    obtain ⟨b, hb, hR⟩ := h a List.mem_cons_self
    rw [List.filterMap_cons_some hb]
    exact .cons hR (ih fun c hc => h c (List.mem_cons_of_mem a hc))

end Diagnostic

namespace Tree

variable {t : Tree} {b i r : NodeId}

theorem exists_ruleBody?_iff : (∃ b, t.ruleBody? r = some b) ↔
    t.kind? r = some .rule ∧ ∃ c ∈ t.children r, t.kind? c = some .ruleBody := by
  constructor
  · rintro ⟨b, hb⟩
    have hrule := isRule_of_ruleBody? hb
    obtain ⟨before, after, hsplit, hk, _⟩ := (ruleBody?_eq_some_iff hrule).mp hb
    exact ⟨hrule, b, by simp [hsplit], hk⟩
  · rintro ⟨hrule, c, hc, hk⟩
    rw [ruleBody?_eq_find? hrule, ← Option.isSome_iff_exists, List.find?_isSome]
    exact ⟨c, hc, decide_eq_true hk⟩

/-- The node declares a variable that a node before it declares too, both below `b`. -/
def RepeatsVar (t : Tree) (b i : NodeId) : Prop :=
  ∃ x j, j < i ∧ t.Below b j ∧ t.DeclaresVar x j ∧ t.Below b i ∧ t.DeclaresVar x i

structure FirstVar (t : Tree) (b : NodeId) (x : String) (i : NodeId) : Prop where
  below : t.Below b i
  declares : t.DeclaresVar x i
  least : ∀ j, t.Below b j → t.DeclaresVar x j → i ≤ j

structure ListsRepeats (t : Tree) (b : NodeId) (again : List NodeId) : Prop where
  ordered : again.Pairwise (· < ·)
  mem : ∀ i, i ∈ again ↔ t.RepeatsVar b i

end Tree

namespace Declaration

variable {source : Source} {b i : NodeId} {x y : String} {d e : Declaration}

theorem var_of_mem (hb : b < source.tree.size) (h : d ∈ inSubtree source b .var) :
    ∃ x, d.names = [x] ∧ source.tree.Below b d.node ∧ source.tree.DeclaresVar x d.node ∧
      source.tree.span? d.node = some d.span := by
  obtain ⟨hi, hat⟩ := mem_inSubtree_iff.mp h
  obtain ⟨_, hk, hdecl, hspan, _⟩ := at?_eq_some_iff_kind?.mp hat
  obtain ⟨ident, sort, rfl, hnames⟩ := Kind.declared?_var_iff.mp hdecl
  exact ⟨ident.name, hnames, (Tree.mem_descendants_iff_below hb).mp hi, ⟨ident, sort, hk, rfl⟩,
    hspan⟩

theorem exists_var (hb : b < source.tree.size) (hi : source.tree.Below b i)
    (hx : source.tree.DeclaresVar x i) :
    ∃ d ∈ inSubtree source b .var, d.node = i ∧ d.names = [x] := by
  obtain ⟨ident, sort, hk, rfl⟩ := hx
  obtain ⟨span, hspan⟩ := Tree.exists_span? hk
  have hdecl := Kind.declared?_var_iff.mpr ⟨ident, sort, rfl, rfl⟩
  let d : Declaration := ⟨source.id, i, .var, span, [ident.name]⟩
  have hat : at? source d.node .var = some d :=
    at?_eq_some_iff_kind?.mpr ⟨_, hk, hdecl, hspan, rfl, rfl, rfl⟩
  exact ⟨d, mem_inSubtree_iff.mpr ⟨(Tree.mem_descendants_iff_below hb).mpr hi, hat⟩, rfl, rfl⟩

theorem declares_of_names (h : d.names = [x]) : d.declares y = true ↔ y = x := by
  rw [declares_iff, h, List.mem_singleton]

def again (ds : List Declaration) : List Declaration :=
  ds.filter fun d => ds.any fun e => e.node < d.node && e.names == d.names

theorem mem_again_iff {ds : List Declaration} :
    d ∈ again ds ↔ d ∈ ds ∧ ∃ e ∈ ds, e.node < d.node ∧ e.names = d.names := by
  simp [again]

theorem filter_again {ds : List Declaration} (hds : ds.Pairwise (·.node < ·.node))
    (hnames : ∀ d ∈ ds, ∃ y, d.names = [y]) (x : String) :
    (again ds).filter (·.declares x) = (ds.filter (·.declares x)).tail := by
  rw [← Diagnostic.filter_later_eq_tail (·.node) (hds.filter _), again, List.filter_filter,
    List.filter_filter]
  refine List.filter_congr fun d hd => ?_
  obtain ⟨y, hy⟩ := hnames d hd
  rw [Bool.eq_iff_iff, Bool.and_eq_true, Bool.and_eq_true, and_comm, declares_of_names hy]
  refine and_congr_left fun hxy => ?_
  simp only [List.any_eq_true, List.mem_filter, Bool.and_eq_true, decide_eq_true_eq, beq_iff_eq]
  refine exists_congr fun e => ?_
  rw [and_assoc]
  refine and_congr_right fun he => ?_
  obtain ⟨z, hz⟩ := hnames e he
  rw [declares_of_names hz, hy, hz, hxy, and_comm, List.singleton_inj, eq_comm]

end Declaration

namespace Diagnostic

variable {source : Source} {b r : NodeId} {x : String} {d first : Declaration}
  {ds : List Declaration}

/-- The complaint about a declaration among these: it names the first of its variable. -/
def complaint? (ds : List Declaration) (d : Declaration) : Option Diagnostic :=
  d.names.head?.bind fun x =>
    (ds.find? (·.declares x)).map fun first => ⟨.duplicateVariable x first.span, d.span⟩

theorem complaint?_eq_some (hd : d.names = [x]) (hfirst : ds.find? (·.declares x) = some first) :
    complaint? ds d = some ⟨.duplicateVariable x first.span, d.span⟩ := by
  simp [complaint?, hd, hfirst]

theorem repeats_eq_filterMap (hnames : ∀ d ∈ ds, ∃ y, d.names = [y]) (x : String) :
    repeats x (ds.filter (·.declares x)) =
      (ds.filter (·.declares x)).tail.filterMap (complaint? ds) := by
  cases hlist : ds.filter (·.declares x) with
  | nil => rfl
  | cons first later =>
    have hfirst : ds.find? (·.declares x) = some first := by
      rw [← List.head?_filter, hlist, List.head?_cons]
    have hlater : ∀ d ∈ later,
        complaint? ds d = some ⟨.duplicateVariable x first.span, d.span⟩ := by
      intro d hd
      have hmem : d ∈ ds.filter (·.declares x) := by
        rw [hlist]
        exact List.mem_cons_of_mem first hd
      obtain ⟨hds, hx⟩ := List.mem_filter.mp hmem
      obtain ⟨y, hy⟩ := hnames d hds
      rw [← (Declaration.declares_of_names hy).mp hx] at hy
      exact complaint?_eq_some hy hfirst
    rw [List.tail_cons, List.filterMap_congr hlater]
    exact (congrFun List.filterMap_eq_map later).symm

theorem duplicateVariables_perm (h : source.tree.ruleBody? r = some b)
    (hb : b < source.tree.size) :
    (duplicateVariables source r).Perm
      ((Declaration.again (Declaration.inSubtree source b .var)).filterMap
        (complaint? (Declaration.inSubtree source b .var))) := by
  have hnames : ∀ d ∈ Declaration.inSubtree source b .var, ∃ y, d.names = [y] := by
    intro d hd
    obtain ⟨y, hy, _⟩ := Declaration.var_of_mem hb hd
    exact ⟨y, hy⟩
  have hgroups : ∀ x, repeats x (Lookup.variablesNamed source b x) =
      ((Declaration.again (Declaration.inSubtree source b .var)).filter (·.declares x)).filterMap
        (complaint? (Declaration.inSubtree source b .var)) := by
    intro x
    rw [Lookup.variablesNamed_of_body (Tree.enclosingBody?_of_ruleBody? h),
      repeats_eq_filterMap hnames,
      Declaration.filter_again (Declaration.inSubtree_pairwise_node source b .var) hnames]
  have hregroup : ((variableNames source b).flatMap fun x =>
      (Declaration.again (Declaration.inSubtree source b .var)).filter (·.declares x)).Perm
        (Declaration.again (Declaration.inSubtree source b .var)) := by
    refine flatMap_filter_perm Declaration.declares (variableNames_nodup source b) ?_
    intro d hd
    obtain ⟨hd, _⟩ := Declaration.mem_again_iff.mp hd
    obtain ⟨y, hy⟩ := hnames d hd
    refine ⟨y, mem_variableNames_iff.mpr ⟨d, hd, ?_⟩, fun x => Declaration.declares_of_names hy⟩
    rw [hy]
    exact List.mem_singleton_self y
  rw [duplicateVariables, h]
  refine (List.mergeSort_perm _ _).trans ?_
  simp only [hgroups]
  rw [← List.filterMap_flatMap]
  exact hregroup.filterMap _

/-- The diagnostic is about the variable that `i` declares, at `i`, and points to where the variable
is declared first below `b`. -/
def Reports (t : Tree) (b i : NodeId) (d : Diagnostic) : Prop :=
  ∃ x first previous, t.DeclaresVar x i ∧ t.FirstVar b x first ∧ t.span? first = some previous ∧
    t.span? i = some d.span ∧ d.complaint = .duplicateVariable x previous

theorem firstVar_of_find? (hb : b < source.tree.size)
    (h : (Declaration.inSubtree source b .var).find? (·.declares x) = some first) :
    source.tree.FirstVar b x first.node ∧ source.tree.span? first.node = some first.span := by
  have hordered := Declaration.inSubtree_pairwise_node source b .var
  obtain ⟨hmem, hx, hleast⟩ :=
    (find?_eq_some_iff_least (fun _ _ => Nat.lt_asymm) hordered).mp h
  obtain ⟨y, hy, hbelow, hdecl, hspan⟩ := Declaration.var_of_mem hb hmem
  cases (Declaration.declares_of_names hy).mp hx
  refine ⟨⟨hbelow, hdecl, fun j hj hxj => ?_⟩, hspan⟩
  obtain ⟨d, hd, rfl, hnames⟩ := Declaration.exists_var hb hj hxj
  rcases hleast d hd ((Declaration.declares_of_names hnames).mpr rfl) with rfl | hlt
  · exact Nat.le_refl _
  · exact Nat.le_of_lt hlt

theorem reports_complaint (hb : b < source.tree.size)
    (hd : d ∈ Declaration.inSubtree source b .var) :
    ∃ e, complaint? (Declaration.inSubtree source b .var) d = some e ∧
      Reports source.tree b d.node e := by
  obtain ⟨x, hx, _, hdecl, hspan⟩ := Declaration.var_of_mem hb hd
  have hhit : d.declares x = true := (Declaration.declares_of_names hx).mpr rfl
  obtain ⟨first, hfirst⟩ : ∃ first,
      (Declaration.inSubtree source b .var).find? (·.declares x) = some first :=
    Option.isSome_iff_exists.mp (List.find?_isSome.mpr ⟨d, hd, hhit⟩)
  obtain ⟨hleast, hprevious⟩ := firstVar_of_find? hb hfirst
  exact ⟨_, complaint?_eq_some hx hfirst, x, first.node, first.span, hdecl, hleast, hprevious,
    hspan, rfl⟩

theorem listsRepeats_again (hb : b < source.tree.size) :
    source.tree.ListsRepeats b
      ((Declaration.again (Declaration.inSubtree source b .var)).map (·.node)) where
  ordered := List.pairwise_map.mpr
    ((Declaration.inSubtree_pairwise_node source b .var).filter _)
  mem i := by
    rw [List.mem_map]
    constructor
    · rintro ⟨d, hd, rfl⟩
      obtain ⟨hd, e, he, hlt, hnames⟩ := Declaration.mem_again_iff.mp hd
      obtain ⟨x, hx, hbelow, hdecl, _⟩ := Declaration.var_of_mem hb hd
      obtain ⟨y, hy, hbelow', hdecl', _⟩ := Declaration.var_of_mem hb he
      rw [hx, hy, List.singleton_inj] at hnames
      exact ⟨x, e.node, hlt, hbelow', hnames ▸ hdecl', hbelow, hdecl⟩
    · rintro ⟨x, j, hlt, hj, hxj, hi, hxi⟩
      obtain ⟨d, hd, rfl, hx⟩ := Declaration.exists_var hb hi hxi
      obtain ⟨e, he, rfl, hy⟩ := Declaration.exists_var hb hj hxj
      exact ⟨d, Declaration.mem_again_iff.mpr ⟨hd, e, he, hlt, hy.trans hx.symm⟩, rfl⟩

theorem spans_of_reports {t : Tree} {again : List NodeId} {reports : List Diagnostic}
    (h : List.Forall₂ (Reports t b) again reports) :
    again.filterMap t.span? = reports.map (·.span) := by
  induction h with
  | nil => rfl
  | cons hreport _ ih =>
    obtain ⟨_, _, _, _, _, _, hspan, _⟩ := hreport
    rw [List.filterMap_cons_some hspan, ih, List.map_cons]

theorem duplicateVariables_pairwise (source : Source) (r : NodeId) :
    (duplicateVariables source r).Pairwise fun d e => d.span.start ≤ e.span.start := by
  unfold duplicateVariables
  split
  · exact List.Pairwise.nil
  · refine (List.pairwise_mergeSort ?_ ?_ _).imp of_decide_eq_true
    · intro d e g hde heg
      simp only [decide_eq_true_eq] at *
      omega
    · intro d e
      simp only [Bool.or_eq_true, decide_eq_true_eq]
      omega

theorem eq_of_perm_of_starts {ds reports : List Diagnostic} (hperm : ds.Perm reports)
    (hds : ds.Pairwise fun d e => d.span.start ≤ e.span.start)
    (hreports : (reports.map (·.span)).Pairwise fun a b => a.start < b.start) : ds = reports := by
  have hstarts : (reports.map (·.span.start)).Nodup :=
    List.pairwise_map.mpr ((List.pairwise_map.mp hreports).imp Nat.ne_of_lt)
  have hle := (List.pairwise_map.mp hreports).imp Nat.le_of_lt
  refine List.Perm.eq_of_pairwise ?_ hds hle hperm
  intro d e hd he hde hed
  exact List.inj_on_of_nodup_map hstarts (hperm.mem_iff.mp hd) he (Nat.le_antisymm hde hed)

end Diagnostic

theorem Script.start_lt {s : Script} (h : s.isNamed = true) {i j : NodeId} {x : String}
    {a b : Span} (hx : s.build.DeclaresVar x i) (hij : i < j) (ha : s.build.span? i = some a)
    (hb : s.build.span? j = some b) : a.start < b.start := by
  obtain ⟨ident, sort, hk, _⟩ := hx
  obtain ⟨n, hn, rfl⟩ := Tree.exists_node_of_span? ha
  obtain ⟨m, hm, rfl⟩ := Tree.exists_node_of_span? hb
  rw [Tree.kind?_of_node? hn, Option.some_inj] at hk
  obtain ⟨stop, hlaid⟩ := Script.build_laid h
  have hordered := hlaid.nodes_pairwise none Tree.root
  rw [Tree.node?_eq_getElem?, List.getElem?_eq_some_iff] at hn hm
  obtain ⟨hi, rfl⟩ := hn
  obtain ⟨hj, rfl⟩ := hm
  refine (List.pairwise_iff_getElem.mp hordered i j hi hj hij).2 ?_
  change (s.build.nodes[i]).kind.isVariable = true
  rw [hk]
  rfl

namespace Diagnostic

theorem starts_of_listsRepeats {s : Script} (h : s.isNamed = true) {b : NodeId}
    {again : List NodeId} (hagain : s.build.ListsRepeats b again) :
    (again.filterMap s.build.span?).Pairwise fun a c => a.start < c.start := by
  refine (List.Pairwise.and_mem.mp hagain.ordered).filterMap _ ?_
  rintro i j ⟨hi, _, hij⟩ a ha c hc
  obtain ⟨x, _, _, _, _, _, hx⟩ := (hagain.mem i).mp hi
  exact Script.start_lt h hx hij ha hc

/-- What is complained about in a rule: one by one, the nodes of its first body that declare a
variable again, sorted by where they start, and in document order if they start one behind the
other. A node that is no rule or has no body has no complaints. -/
theorem duplicateVariables_exact (source : Source) (r : NodeId) :
    (¬(source.tree.kind? r = some .rule ∧
        ∃ c ∈ source.tree.children r, source.tree.kind? c = some .ruleBody) →
      duplicateVariables source r = []) ∧
    (source.tree.kind? r = some .rule →
      (∃ c ∈ source.tree.children r, source.tree.kind? c = some .ruleBody) →
      ∃ b again reports, source.tree.FirstBody r b ∧ source.tree.ListsRepeats b again ∧
        List.Forall₂ (Reports source.tree b) again reports ∧
        (duplicateVariables source r).Perm reports ∧
        ((again.filterMap source.tree.span?).Pairwise (fun a c => a.start < c.start) →
          duplicateVariables source r = reports) ∧
        ∀ s : Script, s.isNamed = true → source.tree = s.build →
          (again.filterMap source.tree.span?).Pairwise fun a c => a.start < c.start) ∧
    (duplicateVariables source r).Pairwise fun d e => d.span.start ≤ e.span.start := by
  have hsorted := duplicateVariables_pairwise source r
  refine ⟨fun hno => ?_, fun hrule hbody => ?_, hsorted⟩
  · have hnone : source.tree.ruleBody? r = none := by
      rw [Option.eq_none_iff_forall_ne_some]
      exact fun b hb => hno (Tree.exists_ruleBody?_iff.mp ⟨b, hb⟩)
    rw [duplicateVariables, hnone]
  · obtain ⟨b, hfind⟩ := Tree.exists_ruleBody?_iff.mpr ⟨hrule, hbody⟩
    have hfirst := (Tree.ruleBody?_eq_some_iff hrule).mp hfind
    have hlists := listsRepeats_again hfirst.lt_size
    have hreports := List.forall₂_map_left_iff.mpr (forall₂_filterMap fun d hd =>
      reports_complaint hfirst.lt_size (Declaration.mem_again_iff.mp hd).1)
    have hperm := duplicateVariables_perm hfind hfirst.lt_size
    refine ⟨b, _, _, hfirst, hlists, hreports, hperm, fun hstarts => ?_, fun s hnamed hs => ?_⟩
    · rw [spans_of_reports hreports] at hstarts
      exact eq_of_perm_of_starts hperm hsorted hstarts
    · rw [hs] at hlists ⊢
      exact starts_of_listsRepeats hnamed hlists

def crossed : Script :=
  let inside : Script := .step (.varDecl "Y" none) (.step (.varDecl "X" none) .done)
  .block .rule (.step (.varDecl "X" none) (.step (.varDecl "Y" none)
    (.block (.term "f") inside .done))) .done

def crossedSource : Source := ⟨0, "c.k", crossed.build⟩

/-- They are complained about in document order, although the search goes by the first names. -/
theorem duplicateVariables_exact_crossed :
    (¬(crossedSource.tree.kind? 2 = some .rule ∧
        ∃ c ∈ crossedSource.tree.children 2, crossedSource.tree.kind? c = some .ruleBody) ∧
      duplicateVariables crossedSource 2 = []) ∧
    (crossedSource.tree.kind? 1 = some .rule ∧
      ∃ c ∈ crossedSource.tree.children 1, crossedSource.tree.kind? c = some .ruleBody) ∧
    (crossed.isNamed = true ∧ crossedSource.tree = crossed.build) ∧
    ∃ b again reports, crossedSource.tree.FirstBody 1 b ∧
      crossedSource.tree.ListsRepeats b again ∧
      List.Forall₂ (Reports crossedSource.tree b) again reports ∧
      duplicateVariables crossedSource 1 = reports ∧
      reports.map (·.span) = [⟨12, 14⟩, ⟨14, 16⟩] := by
  have hrule : crossedSource.tree.kind? 1 = some .rule := rfl
  have hbody : ∃ c ∈ crossedSource.tree.children 1, crossedSource.tree.kind? c = some .ruleBody :=
    ⟨2, List.mem_cons_self, rfl⟩
  have hno : ¬(crossedSource.tree.kind? 2 = some .rule ∧
      ∃ c ∈ crossedSource.tree.children 2, crossedSource.tree.kind? c = some .ruleBody) := by
    rintro ⟨h, _⟩
    cases h
  -- The search finds `X` again behind `Y`, and only sorting puts the two in order.
  have hfound : duplicateVariables crossedSource 1 =
      [⟨.duplicateVariable "X" ⟨6, 8⟩, ⟨14, 16⟩⟩,
        ⟨.duplicateVariable "Y" ⟨8, 10⟩, ⟨12, 14⟩⟩].mergeSort
          fun d e : Diagnostic => d.span.start ≤ e.span.start := rfl
  have hspans : (duplicateVariables crossedSource 1).map (·.span) = [⟨12, 14⟩, ⟨14, 16⟩] := by
    rw [hfound]
    simp [List.mergeSort]
  obtain ⟨hnone, _, _⟩ := duplicateVariables_exact crossedSource 2
  obtain ⟨_, hsome, _⟩ := duplicateVariables_exact crossedSource 1
  obtain ⟨b, again, reports, hfirst, hlists, hreports, _, horder, hstarts⟩ := hsome hrule hbody
  have heq := horder (hstarts crossed rfl rfl)
  rw [heq] at hspans
  exact ⟨⟨hno, hnone hno⟩, ⟨hrule, hbody⟩, ⟨rfl, rfl⟩, b, again, reports, hfirst, hlists, hreports,
    heq, hspans⟩

end Diagnostic

end KNames
