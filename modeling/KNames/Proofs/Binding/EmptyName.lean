import KNames.Index.Change
import KNames.Proofs.Binding.Labels
import KNames.Proofs.Binding.Ownership
import KNames.Proofs.Binding.Productions

set_option autoImplicit false

namespace KNames

namespace Reference

variable {reference : Reference} {settings : Settings} {name : String}

theorem ne_empty_of_mem_candidates (h : name ∈ (reference.candidates settings).names) :
    name ≠ "" := by
  cases reference with
  | label raw => exact (Candidates.mem_label.mp h).1
  | _ => exact (Candidates.mem_single.mp h).2

theorem candidates_of_raw_empty (h : reference.raw = "") (settings : Settings) :
    reference.candidates settings = .empty := by
  cases reference with
  | label raw =>
    cases h
    exact Candidates.label_empty settings.labelSeparator
  | _ =>
    cases h
    rfl

end Reference

theorem Resolver.exists_candidate {r : Resolver} {o : Occurrence} {d : Declaration}
    (h : (r.resolve o).value.declaration = some d) :
    ∃ name ∈ d.names, name ∈ (o.reference.candidates r.settings).names := by
  cases hlive : r.index.source? o.file with
  | none =>
    rw [Resolver.resolve_of_no_source hlive] at h
    cases h
  | some source =>
    rw [Resolver.resolve_declaration r o hlive] at h
    exact (Candidates.matchesAny_iff _ _).mp (by simpa using List.find?_some h)

namespace Lookup

theorem variableDeclarations_eq_nil_iff {index : FileIndex} {f : FileId} {node : NodeId}
    {x : String} : variableDeclarations index f node x = [] ↔
      ∀ source i, index.source? f = some source → ¬source.tree.VarInScope node x i := by
  unfold variableDeclarations
  cases hlive : index.source? f with
  | none => simp
  | some source =>
    rw [List.eq_nil_iff_forall_not_mem]
    constructor
    · rintro h _ i ⟨⟩ hi
      obtain ⟨d, hd, _⟩ := Source.exists_bindsVar hi
      exact h d ((mem_variablesNamed_iff index).mpr hd)
    · intro h d hd
      exact h source d.node rfl ((mem_variablesNamed_iff index).mp hd).node

theorem productions_some_eq_nil_iff {r : Registry} {name : String} :
    productions r.index (some name) = [] ↔ ∀ f source i labels, r.source? f = some source →
      source.tree.kind? i = some (.production labels) → ∀ label ∈ labels, label.name ≠ name := by
  rw [productions_some, List.filter_eq_nil_iff]
  constructor
  · rintro h f source i labels hlive hk label hlabel rfl
    obtain ⟨span, hspan⟩ := Tree.exists_span? hk
    have hd : r.Produces ⟨f, i, .production, span, labels.map (·.name)⟩ :=
      ⟨⟨source, labels, hlive, hk, hspan, rfl⟩, rfl⟩
    refine h _ ((r.productions_listed.mem _).mpr hd) ?_
    exact (Declaration.declares_iff _ _).mpr (List.mem_map_of_mem hlabel)
  · intro h d hd hname
    obtain ⟨⟨source, labels, hlive, hk, _, hnames⟩, _⟩ := (r.productions_listed.mem d).mp hd
    rw [Declaration.declares_iff, hnames, List.mem_map] at hname
    obtain ⟨label, hlabel, hname⟩ := hname
    exact h d.file source d.node labels hlive hk label hlabel hname

end Lookup

namespace Diagnostic

variable {source : Source} {rule b : NodeId} {x : String} {e : Declaration}

theorem exists_complaint? (hb : b < source.tree.size)
    (he : e ∈ Declaration.inSubtree source b .var) :
    ∃ d, complaint? (Declaration.inSubtree source b .var) e = some d ∧
      ∀ x, d.complaint.repeated? = some x ↔ source.tree.DeclaresVar x e.node := by
  obtain ⟨d, hd, y, _, _, hy, _, _, _, hkind⟩ := reports_complaint hb he
  refine ⟨d, hd, fun x => ?_⟩
  rw [hkind]
  constructor
  · rintro ⟨⟩
    exact hy
  · intro hx
    exact congrArg some (hy.unique hx)

theorem exists_complaint_iff (h : source.tree.ruleBody? rule = some b)
    (hb : b < source.tree.size) :
    (∃ d ∈ duplicateVariables source rule, d.complaint.repeated? = some x) ↔
      ∃ i, source.tree.RepeatsVar b i ∧ source.tree.DeclaresVar x i := by
  have hperm := duplicateVariables_perm h hb
  have hlists := listsRepeats_again hb
  constructor
  · rintro ⟨d, hd, hx⟩
    -- Sorted or not, each complaint comes from one declaration that is a repeated one.
    obtain ⟨e, he, hcomplaint⟩ := List.mem_filterMap.mp (hperm.mem_iff.mp hd)
    obtain ⟨_, hreport, hname⟩ := exists_complaint? hb (Declaration.mem_again_iff.mp he).1
    cases hcomplaint.symm.trans hreport
    exact ⟨e.node, (hlists.mem _).mp (List.mem_map_of_mem he), (hname x).mp hx⟩
  · rintro ⟨i, hi, hx⟩
    obtain ⟨e, he, rfl⟩ := List.mem_map.mp ((hlists.mem i).mpr hi)
    obtain ⟨d, hd, hname⟩ := exists_complaint? hb (Declaration.mem_again_iff.mp he).1
    exact ⟨d, hperm.mem_iff.mpr (List.mem_filterMap.mpr ⟨e, he, hd⟩), (hname x).mpr hx⟩

theorem forall_complaint_ne_iff :
    (∀ d ∈ duplicateVariables source rule, d.complaint.repeated? ≠ some x) ↔
      ∀ b i, source.tree.kind? rule = some .rule → source.tree.FirstBody rule b →
        source.tree.RepeatsVar b i → ¬source.tree.DeclaresVar x i := by
  constructor
  · intro h b i hrule hfirst hi hx
    have hbody := (Tree.ruleBody?_eq_some_iff hrule).mpr hfirst
    obtain ⟨d, hd, hname⟩ := (exists_complaint_iff hbody hfirst.lt_size).mpr ⟨i, hi, hx⟩
    exact h d hd hname
  · intro h d hd hname
    -- A complaint leads back to a rule that has a body.
    cases hbody : source.tree.ruleBody? rule with
    | none =>
      rw [duplicateVariables, hbody] at hd
      cases hd
    | some b =>
      have hrule := Tree.isRule_of_ruleBody? hbody
      have hfirst := (Tree.ruleBody?_eq_some_iff hrule).mp hbody
      obtain ⟨i, hi, hx⟩ := (exists_complaint_iff hbody hfirst.lt_size).mp ⟨d, hd, hname⟩
      exact h b i hrule hfirst hi hx

end Diagnostic

namespace Registry

/-- A reference binds by a name that is not empty or not at all, and the empty name is listed and
complained about exactly where it is declared and declared again: among the variables in scope of
a node, among the labels of the project, and below the first body of a rule. -/
theorem empty_name_found_where_declared (r : Registry) (settings : Settings) :
    (∀ o, let bound := ((Resolver.mk r.index settings).resolve o).value.declaration
      (o.reference.raw = "" → bound = none) ∧
      ∀ d, bound = some d →
        ∃ name ∈ d.names, name ≠ "" ∧ name ∈ (o.reference.candidates settings).names) ∧
    (∀ f node, Lookup.variableDeclarations r.index f node "" = [] ↔
      ∀ source i, r.source? f = some source → ¬source.tree.VarInScope node "" i) ∧
    (Lookup.productions r.index (some "") = [] ↔ ∀ f source i labels,
      r.source? f = some source → source.tree.kind? i = some (.production labels) →
        ∀ label ∈ labels, label.name ≠ "") ∧
    ∀ source rule,
      (∀ d ∈ Diagnostic.duplicateVariables source rule, d.complaint.repeated? ≠ some "") ↔
        ∀ b i, source.tree.kind? rule = some .rule → source.tree.FirstBody rule b →
          source.tree.RepeatsVar b i → ¬source.tree.DeclaresVar "" i := by
  refine ⟨fun o => ⟨fun hraw => ?_, fun d hd => ?_⟩, fun f node => ?_, ?_, fun source rule => ?_⟩
  · rw [Option.eq_none_iff_forall_ne_some]
    intro d hd
    -- What is bound has a candidate among its names, and here there is none.
    obtain ⟨name, _, hname⟩ := Resolver.exists_candidate hd
    rw [Reference.candidates_of_raw_empty hraw] at hname
    exact List.not_mem_nil hname
  · obtain ⟨name, hmem, hname⟩ := Resolver.exists_candidate hd
    exact ⟨name, hmem, Reference.ne_empty_of_mem_candidates hname, hname⟩
  · exact Lookup.variableDeclarations_eq_nil_iff
  · exact Lookup.productions_some_eq_nil_iff
  · exact Diagnostic.forall_complaint_ne_iff

/-- A production with an empty label besides another one, and a rule that declares a variable
without a name twice. -/
def nameless : Source :=
  let body : Script := .step (.varDecl "" none) (.step (.varDecl "" none) .done)
  ⟨0, "n.k", (Script.step (.production ["", "f"]) (.block .rule body .done)).build⟩

def namelessOnly : Registry := after [.addFile nameless.uri none nameless.tree]

theorem empty_name_found_where_declared_nameless :
    let resolver := Resolver.mk namelessOnly.index {}
    let production : Declaration := ⟨0, 1, .production, ⟨0, 3⟩, ["", "f"]⟩
    ((Reference.label "").raw = "" ∧
      (resolver.resolve ⟨0, 1, .label ""⟩).value.declaration = none) ∧
    ((resolver.resolve ⟨0, 1, .function "f"⟩).value.declaration = some production ∧
      ∃ name ∈ production.names, name ≠ "") ∧
    (namelessOnly.source? 0 = some nameless ∧ nameless.tree.VarInScope 4 "" 5 ∧
      Lookup.variableDeclarations namelessOnly.index 0 4 "" ≠ []) ∧
    (nameless.tree.kind? 1 = some (.production [⟨"", ⟨0, 0⟩⟩, ⟨"f", ⟨1, 2⟩⟩]) ∧
      Lookup.productions namelessOnly.index (some "") ≠ []) ∧
    nameless.tree.kind? 2 = some .rule ∧ nameless.tree.FirstBody 2 3 ∧
      nameless.tree.RepeatsVar 3 5 ∧ nameless.tree.DeclaresVar "" 5 ∧
      ∃ d ∈ Diagnostic.duplicateVariables nameless 2, d.complaint.repeated? = some "" := by
  intro resolver production
  have hbound : (resolver.resolve ⟨0, 1, .function "f"⟩).value.declaration = some production := rfl
  have hlive : namelessOnly.source? 0 = some nameless := rfl
  have hkind : nameless.tree.kind? 1 = some (.production [⟨"", ⟨0, 0⟩⟩, ⟨"f", ⟨1, 2⟩⟩]) := rfl
  have hrule : nameless.tree.kind? 2 = some .rule := rfl
  have hfirst : nameless.tree.FirstBody 2 3 := (Tree.ruleBody?_eq_some_iff hrule).mp rfl
  have hbelow : ∀ i ∈ [4, 5], nameless.tree.Below 3 i :=
    fun i hi => (Tree.mem_descendants_iff_below hfirst.lt_size).mp (List.mem_cons_of_mem 3 hi)
  have hearlier : nameless.tree.DeclaresVar "" 4 := ⟨_, _, rfl, rfl⟩
  have hlater : nameless.tree.DeclaresVar "" 5 := ⟨_, _, rfl, rfl⟩
  have hscope : nameless.tree.VarInScope 4 "" 5 :=
    Tree.varInScope_iff.mpr ⟨3, rfl, by decide, hlater⟩
  have hagain : nameless.tree.RepeatsVar 3 5 :=
    ⟨"", 4, by decide, hbelow 4 (by decide), hearlier, hbelow 5 (by decide), hlater⟩
  obtain ⟨hbinds, hvars, hlabels, hcomplaints⟩ := empty_name_found_where_declared namelessOnly {}
  obtain ⟨name, hname, hne, _⟩ := (hbinds ⟨0, 1, .function "f"⟩).2 production hbound
  have hcomplaint : ∃ d ∈ Diagnostic.duplicateVariables nameless 2,
      d.complaint.repeated? = some "" := by
    by_contra hnone
    simp only [not_exists, not_and] at hnone
    exact (hcomplaints nameless 2).mp hnone 3 5 hrule hfirst hagain hlater
  exact ⟨⟨rfl, (hbinds ⟨0, 1, .label ""⟩).1 rfl⟩, ⟨hbound, name, hname, hne⟩,
    ⟨hlive, hscope, fun h => (hvars 0 4).mp h nameless 5 hlive hscope⟩,
    ⟨hkind, fun h => hlabels.mp h 0 nameless 1 _ hlive hkind ⟨"", ⟨0, 0⟩⟩ List.mem_cons_self rfl⟩,
    hrule, hfirst, hagain, hlater, hcomplaint⟩

/-- An empty name is listed as a variable and as a production and is complained about, and no
reference to it binds. -/
theorem empty_name_listed :
    let resolver := Resolver.mk namelessOnly.index {}
    namelessOnly.source? 0 = some nameless ∧
    (resolver.resolve ⟨0, 4, .var ""⟩).value.declaration = none ∧
      Lookup.variableDeclarations namelessOnly.index 0 4 "" =
        [⟨0, 4, .var, ⟨9, 10⟩, [""]⟩, ⟨0, 5, .var, ⟨10, 11⟩, [""]⟩] ∧
    (resolver.resolve ⟨0, 0, .function ""⟩).value.declaration = none ∧
      Lookup.productions namelessOnly.index (some "") = [⟨0, 1, .production, ⟨0, 3⟩, ["", "f"]⟩] ∧
    Diagnostic.duplicateVariables nameless 2 = [⟨.duplicateVariable "" ⟨9, 10⟩, ⟨10, 11⟩⟩] :=
  ⟨rfl, rfl, rfl, rfl, rfl, List.mergeSort_singleton _⟩

end Registry

end KNames
