import KNames.Diagnostic
import KNames.Proofs.Binding.Variables

set_option autoImplicit false

namespace KNames

namespace Tree

variable {t : Tree} {node r b : NodeId}

theorem isRule_of_ruleBody? (h : t.ruleBody? r = some b) : t.kind? r = some .rule := by
  obtain ⟨_, hbody, _⟩ := Option.map_eq_some_iff.mp h
  obtain ⟨n, hn, hbody⟩ := Option.bind_eq_some_iff.mp hbody
  unfold Node.body? at hbody
  split at hbody
  · rename_i hrule
    rw [kind?_of_node? hn, Kind.isRule_iff.mp hrule]
  · cases hbody

theorem enclosingBody?_of_ruleBody? (h : t.ruleBody? r = some b) : t.enclosingBody? b = some b := by
  have hrule := isRule_of_ruleBody? h
  have hfirst := (ruleBody?_eq_some_iff hrule).mp h
  exact enclosingBody?_eq_some_iff.mpr ⟨r, (hfirst.innermostRule_iff hrule).mpr rfl, hfirst⟩

end Tree

namespace Lookup

variable {index : FileIndex} {source : Source} {node body : NodeId} {x : String} {d : Declaration}

theorem variablesNamed_of_body (h : source.tree.enclosingBody? node = some body) (x : String) :
    variablesNamed source node x =
      (Declaration.inSubtree source body .var).filter (·.declares x) := by
  rw [variablesNamed, h]

theorem variablesNamed_of_no_body (h : source.tree.enclosingBody? node = none) (x : String) :
    variablesNamed source node x = [] := by
  rw [variablesNamed, h]

theorem variableDeclarations_of_source {f : FileId} (h : index.source? f = some source)
    (node : NodeId) (x : String) :
    variableDeclarations index f node x = variablesNamed source node x := by
  rw [variableDeclarations, h]

theorem variablesNamed_eq_filter (index : FileIndex) (source : Source) (node : NodeId)
    (x : String) : variablesNamed source node x =
      ((SearchSpace.ofRule source node).value.listed index .var).filter (·.declares x) := by
  unfold variablesNamed SearchSpace.ofRule
  cases source.tree.enclosingBody? node <;> rfl

theorem mem_variablesNamed_iff (index : FileIndex) :
    d ∈ variablesNamed source node x ↔ source.BindsVar node x d := by
  rw [variablesNamed_eq_filter index, List.mem_filter, Declaration.declares_iff,
    Source.bindsVar_iff_mem_ofRule index]

theorem variablesNamed_pairwise (source : Source) (node : NodeId) (x : String) :
    (variablesNamed source node x).Pairwise (·.node < ·.node) := by
  cases h : source.tree.enclosingBody? node with
  | none =>
    rw [variablesNamed_of_no_body h]
    exact List.Pairwise.nil
  | some body =>
    rw [variablesNamed_of_body h]
    exact (Declaration.inSubtree_pairwise_node source body .var).filter _

end Lookup

theorem Resolver.resolve_var_declaration (r : Resolver) {f : FileId} {source : Source} {x : String}
    (h : r.index.source? f = some source) (hx : x ≠ "") (node : NodeId) :
    (r.resolve ⟨f, node, .var x⟩).value.declaration =
      (Lookup.variablesNamed source node x).head? := by
  rw [resolve_declaration r ⟨f, node, .var x⟩ h, Lookup.variablesNamed_eq_filter r.index,
    List.head?_filter]
  refine List.find?_congr ?_
  intro d _
  exact Candidates.matchesAny_single hx d.names

def Complaint.repeated? : Complaint → Option String
  | duplicateVariable name _ => some name
  | unresolvedReference _ => none

namespace Diagnostic

variable {source : Source} {node rule body : NodeId} {x name : String} {d : Diagnostic}

def about (x : String) (ds : List Diagnostic) : List Diagnostic :=
  ds.filter fun d => d.complaint.repeated? == some x

theorem repeats_length (name : String) (ds : List Declaration) :
    (repeats name ds).length = ds.length - 1 := by
  cases ds with
  | nil => rfl
  | cons first later => exact List.length_map _

theorem repeats_map_span (name : String) (ds : List Declaration) :
    (repeats name ds).map (·.span) = ds.tail.map (·.span) := by
  cases ds with
  | nil => rfl
  | cons first later => exact List.map_map

theorem complaint_of_mem_repeats {ds : List Declaration} (h : d ∈ repeats name ds) :
    ∃ first, ds.head? = some first ∧ d.complaint = .duplicateVariable name first.span := by
  cases ds with
  | nil => cases h
  | cons first later =>
    obtain ⟨_, _, rfl⟩ := List.mem_map.mp h
    exact ⟨first, rfl, rfl⟩

theorem about_repeats (x name : String) (ds : List Declaration) :
    about x (repeats name ds) = if name = x then repeats name ds else [] := by
  have hname : ∀ d ∈ repeats name ds, d.complaint.repeated? = some name := by
    intro d hd
    obtain ⟨first, _, hcomplaint⟩ := complaint_of_mem_repeats hd
    rw [hcomplaint]
    rfl
  unfold about
  split
  · rename_i heq
    rw [List.filter_eq_self]
    intro d hd
    rw [hname d hd, heq, beq_self_eq_true]
  · rename_i hne
    rw [List.filter_eq_nil_iff]
    intro d hd
    rw [hname d hd]
    simpa using hne

theorem nodup_eraseDups (names : List String) : names.eraseDups.Nodup := by
  induction h : names.length using Nat.strongRecOn generalizing names with
  | ind k ih =>
    cases names with
    | nil => exact List.nodup_nil
    | cons name names =>
      rw [List.eraseDups_cons, List.nodup_cons, List.mem_eraseDups, List.mem_filter]
      refine ⟨by simp, ih _ ?_ _ rfl⟩
      have hlen := List.length_filter_le (fun other => !other == name) names
      rw [List.length_cons] at h
      omega

theorem flatMap_single {α β : Type} [DecidableEq α] (g : α → List β) (a : α) {l : List α}
    (hl : l.Nodup) : (l.flatMap fun b => if b = a then g b else []) = if a ∈ l then g a else [] := by
  induction l with
  | nil => rfl
  | cons b l ih =>
    rw [List.flatMap_cons, ih (List.nodup_cons.mp hl).2]
    by_cases hb : b = a
    · subst hb
      rw [if_pos rfl, if_neg (List.nodup_cons.mp hl).1, if_pos List.mem_cons_self, List.append_nil]
    · simp [hb, Ne.symm hb]

theorem variableNames_nodup (source : Source) (node : NodeId) :
    (variableNames source node).Nodup :=
  nodup_eraseDups _

theorem mem_variableNames_iff : x ∈ variableNames source node ↔
    ∃ d ∈ Declaration.inSubtree source node .var, x ∈ d.names := by
  rw [variableNames, List.mem_eraseDups, List.mem_flatMap]

theorem about_duplicateVariables (h : source.tree.enclosingRule? node = some rule) (x : String) :
    (about x (duplicateVariables source rule)).Perm
      (repeats x (Lookup.variablesNamed source node x)) := by
  cases hbody : source.tree.ruleBody? rule with
  | none =>
    have hnone : source.tree.enclosingBody? node = none := by
      rw [Tree.enclosingBody?, h, Option.bind_some, hbody]
    rw [Lookup.variablesNamed_of_no_body hnone, duplicateVariables, hbody]
    exact List.Perm.refl _
  | some body =>
    have hnode : source.tree.enclosingBody? node = some body := by
      rw [Tree.enclosingBody?, h, Option.bind_some, hbody]
    have hlist : ∀ name, Lookup.variablesNamed source body name =
        Lookup.variablesNamed source node name := by
      intro name
      rw [Lookup.variablesNamed_of_body hnode,
        Lookup.variablesNamed_of_body (Tree.enclosingBody?_of_ruleBody? hbody)]
    have hfound : about x ((variableNames source body).flatMap fun name =>
        repeats name (Lookup.variablesNamed source body name)) =
          repeats x (Lookup.variablesNamed source node x) := by
      rw [about, List.filter_flatMap]
      change (variableNames source body).flatMap (fun name => about x _) = _
      simp only [about_repeats, hlist]
      rw [flatMap_single _ x (variableNames_nodup source body)]
      split
      · rfl
      · rename_i habsent
        have hnil : Lookup.variablesNamed source node x = [] := by
          rw [Lookup.variablesNamed_of_body hnode, List.filter_eq_nil_iff]
          intro d hd hx
          exact habsent (mem_variableNames_iff.mpr ⟨d, hd, (d.declares_iff x).mp hx⟩)
        rw [hnil]
        rfl
    rw [duplicateVariables, hbody, ← hfound]
    exact (List.mergeSort_perm _ _).filter _

end Diagnostic

namespace Registry

variable {r : Registry} {source : Source} {f : FileId} {x : String}

/-- What a variable binds to, the list of its declarations and the complaints about it agree. -/
theorem resolve_heads_declarations (settings : Settings) (h : r.source? f = some source)
    (hx : x ≠ "") (node : NodeId) :
    let bound := ((Resolver.mk r.index settings).resolve ⟨f, node, .var x⟩).value.declaration
    let listed := Lookup.variableDeclarations r.index f node x
    bound = listed.head? ∧ listed.Pairwise (·.node < ·.node) ∧
      (∀ d, d ∈ listed ↔ source.BindsVar node x d) ∧
      ∀ rule, source.tree.enclosingRule? node = some rule →
        let complaints := Diagnostic.about x (Diagnostic.duplicateVariables source rule)
        complaints.length = listed.length - 1 ∧
          (complaints.map (·.span)).Perm (listed.tail.map (·.span)) ∧
          ∀ complaint ∈ complaints, ∃ first, bound = some first ∧
            complaint.complaint = .duplicateVariable x first.span := by
  intro bound listed
  have hlisted : listed = Lookup.variablesNamed source node x :=
    Lookup.variableDeclarations_of_source h node x
  have hbound : bound = listed.head? := by
    rw [hlisted]
    exact Resolver.resolve_var_declaration ⟨r.index, settings⟩ h hx node
  refine ⟨hbound, ?_, ?_, ?_⟩
  · rw [hlisted]
    exact Lookup.variablesNamed_pairwise source node x
  · intro d
    rw [hlisted]
    exact Lookup.mem_variablesNamed_iff r.index
  · intro rule hrule complaints
    have hperm : complaints.Perm (Diagnostic.repeats x listed) := by
      rw [hlisted]
      exact Diagnostic.about_duplicateVariables hrule x
    refine ⟨?_, ?_, ?_⟩
    · rw [hperm.length_eq, Diagnostic.repeats_length]
    · rw [← Diagnostic.repeats_map_span x listed]
      exact hperm.map _
    · intro complaint hmem
      obtain ⟨first, hfirst, hcomplaint⟩ :=
        Diagnostic.complaint_of_mem_repeats (hperm.mem_iff.mp hmem)
      exact ⟨first, hbound.trans hfirst, hcomplaint⟩

/-- A rule that declares one variable three times, the second time inside a term. -/
def thrice : Source :=
  let inside : Script := .step (.varDecl "X" none) (.step (.varDecl "Y" none) .done)
  let body : Script :=
    .step (.varDecl "X" none) (.block (.term "f") inside (.step (.varDecl "X" none) .done))
  ⟨0, "t.k", (Script.block .rule body .done).build⟩

def lone : Registry := (empty.addFile thrice.uri none thrice.tree).2

theorem resolve_heads_declarations_thrice :
    lone.source? 0 = some thrice ∧ "X" ≠ "" ∧ thrice.tree.enclosingRule? 6 = some 1 ∧
      ((Resolver.mk lone.index {}).resolve ⟨0, 6, .var "X"⟩).value.declaration =
        (Lookup.variableDeclarations lone.index 0 6 "X").head? ∧
      (Lookup.variableDeclarations lone.index 0 6 "X").map (·.node) = [3, 5, 7] ∧
      (Diagnostic.about "X" (Diagnostic.duplicateVariables thrice 1)).length = 2 := by
  have hlive : lone.source? 0 = some thrice := rfl
  have hx : "X" ≠ "" := by decide
  have hrule : thrice.tree.enclosingRule? 6 = some 1 := rfl
  obtain ⟨hhead, _, _, hcomplaints⟩ := resolve_heads_declarations {} hlive hx 6
  obtain ⟨hlength, _, _⟩ := hcomplaints 1 hrule
  exact ⟨hlive, hx, hrule, hhead, rfl, hlength⟩

end Registry

end KNames
