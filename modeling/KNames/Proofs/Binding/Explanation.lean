import KNames.Proofs.Binding.Agreement
import KNames.Proofs.Tree.Rule

set_option autoImplicit false

namespace KNames

namespace Registry

open FileTable

variable {r : Registry} {settings : Settings} {source : Source} {o : Occurrence} {f : FileId}
  {node : NodeId} {kind : DeclKind} {candidates : Candidates} {d : Declaration}

def Scopeless (r : Registry) (o : Occurrence) : Prop :=
  ∃ source x, r.source? o.file = some source ∧ o.reference = .var x ∧
    ¬∃ rule body, source.tree.InnermostRule o.node rule ∧ source.tree.FirstBody rule body

def MissedFor (r : Registry) (o : Occurrence) : Miss → Prop
  | .staleHandle => r.source? o.file = none
  | .noScope => r.Scopeless o
  | .noMatch => r.source? o.file ≠ none ∧ ¬r.Scopeless o

inductive Concludes (r : Registry) (settings : Settings) (o : Occurrence) (result : Resolution) :
    Event → Prop
  | resolved {d : Declaration} {space : SearchSpace} (hd : result.declaration = some d)
      (hspace : ((Resolver.mk r.index settings).searchSpace? o).value = some space) :
      Concludes r settings o result (.resolved o.reference space.label d.file d.node)
  | unresolved {reason : Miss} (hnone : result.declaration = none)
      (hreason : r.MissedFor o reason) :
      Concludes r settings o result (.unresolved o.reference o.file o.node reason)

inductive Announces (r : Registry) (source : Source) (node : NodeId) :
    SearchSpace → List Event → Prop
  | body {body : NodeId} : Announces r source node (.ruleBody source body) []
  | noRule : Announces r source node .empty [.noEnclosingRule source.id node]
  | wide {group : ModuleId} {files : List FileId} :
      Announces r source node (.moduleFiles group files)
        [.moduleScope source.id group files.length]
  | narrow (halone : ¬∃ path, source.tree.Requires path) :
      Announces r source node (.file source) [.fileScope source.id]
  | noModule (hpath : ∃ path, source.tree.Requires path)
      (hnone : ¬∃ group, r.Registered source.id group) :
      Announces r source node (.file source) [.noModule source.id]

/-- The files of a list that a search comes to before it ends with this result. -/
def reached (result : Option Declaration) (files : List FileId) : List FileId :=
  match result with
  | some d => files.takeWhile (· ≠ d.file)
  | none => files

def isStale (r : Registry) (file : FileId) : Bool := (r.source? file).isNone

/-- The stale files that a search passes over. Without candidates it comes to no file. -/
def passedOver (r : Registry) (candidates : Candidates) (result : Option Declaration) :
    SearchSpace → List FileId
  | .moduleFiles _ files =>
    if candidates.isEmpty then [] else (reached result files).filter r.isStale
  | _ => []

inductive LeadsTo (r : Registry) (settings : Settings) (o : Occurrence) (result : Resolution) :
    List Event → Prop
  | stale (h : r.source? o.file = none) : LeadsTo r settings o result []
  | searched {source : Source} {space : SearchSpace} {choice : List Event}
      (hlive : r.source? o.file = some source)
      (hspace : ((Resolver.mk r.index settings).searchSpace? o).value = some space)
      (hchoice : r.Announces source o.node space choice) :
      LeadsTo r settings o result (choice ++
        (r.passedOver (o.reference.candidates settings) result.declaration space).map
          .staleSkipped)

theorem ofRule_announces : r.Announces source node (SearchSpace.ofRule source node).value
    (SearchSpace.ofRule source node).events := by
  unfold SearchSpace.ofRule
  cases source.tree.enclosingBody? node with
  | none => exact .noRule
  | some body => exact .body

theorem ofDeclarations_announces :
    r.Announces source node (SearchSpace.ofDeclarations r.index settings source).value
      (SearchSpace.ofDeclarations r.index settings source).events := by
  unfold SearchSpace.ofDeclarations
  split
  · rename_i hwide
    cases hmodule : r.index.moduleOf? source.id with
    | some group => exact .wide
    | none =>
      -- Without a module no other file counts, so it is the file itself that asks for more.
      have hrequired : SearchSpace.isRequired r.index source = false := by
        rw [SearchSpace.isRequired, hmodule]
      rw [SearchSpace.isWide, hrequired, Bool.and_false, Bool.or_false] at hwide
      refine .noModule (Source.hasRequires_iff.mp hwide) ?_
      rintro ⟨group, hreg⟩
      cases hmodule.symm.trans (moduleOf?_eq_some_iff.mpr hreg)
  · rename_i hnarrow
    refine .narrow fun hpath => hnarrow ?_
    rw [SearchSpace.isWide, Source.hasRequires_iff.mpr hpath, Bool.true_or]

theorem ofReference_announces (reference : Reference) : r.Announces source node
    (SearchSpace.ofReference r.index settings source node reference).value
    (SearchSpace.ofReference r.index settings source node reference).events := by
  cases reference with
  | var x => exact ofRule_announces
  | function name => exact ofDeclarations_announces
  | label raw => exact ofDeclarations_announces
  | sort name => exact ofDeclarations_announces

theorem ofDeclarations_occupied :
    (SearchSpace.ofDeclarations r.index settings source).value.isEmpty = false := by
  by_cases hwide : ∃ group, r.ModuleWide settings source group
  · obtain ⟨group, hg⟩ := hwide
    rw [ofDeclarations_wide hg]
    exact (scopePolicy_wide hg).occupied
  · rw [ofDeclarations_narrow hwide]
    rfl

theorem ofRule_isEmpty_iff : (SearchSpace.ofRule source node).value.isEmpty = true ↔
    ¬∃ rule body, source.tree.InnermostRule node rule ∧ source.tree.FirstBody rule body := by
  have hbody : source.tree.enclosingBody? node = none ↔
      ¬∃ rule body, source.tree.InnermostRule node rule ∧ source.tree.FirstBody rule body := by
    simp only [Option.eq_none_iff_forall_ne_some, ne_eq, Tree.enclosingBody?_eq_some_iff,
      not_exists]
    exact forall_comm
  rw [← hbody, SearchSpace.ofRule]
  cases source.tree.enclosingBody? node with
  | none => exact iff_of_true rfl rfl
  | some body => exact iff_of_false Bool.false_ne_true (Option.some_ne_none body)

theorem ofReference_isEmpty_iff (settings : Settings) (h : r.source? o.file = some source) :
    (SearchSpace.ofReference r.index settings source o.node o.reference).value.isEmpty = true ↔
      r.Scopeless o := by
  by_cases hvar : ∃ x, o.reference = .var x
  · obtain ⟨x, hx⟩ := hvar
    rw [hx]
    refine ofRule_isEmpty_iff.trans ?_
    constructor
    · intro hnone
      exact ⟨source, x, h, hx, hnone⟩
    · rintro ⟨other, _, hlive, _, hnone⟩
      cases h.symm.trans hlive
      exact hnone
  · rw [SearchSpace.ofReference_of_ne_var fun x hx => hvar ⟨x, hx⟩, ofDeclarations_occupied]
    refine iff_of_false Bool.false_ne_true ?_
    rintro ⟨_, x, _, hx, _⟩
    exact hvar ⟨x, hx⟩

theorem live_of_firstInFiles {files : List FileId}
    (h : (Lookup.firstInFiles r.index candidates kind files).value = some d) :
    ∃ source, r.source? d.file = some source ∧
      Lookup.firstInSubtree source Tree.root candidates kind ≠ none := by
  rw [Lookup.firstInFiles_value] at h
  obtain ⟨_, source, hlive, hat⟩ := mem_inFiles_iff.mp (List.mem_of_find?_eq_some h)
  refine ⟨source, hlive, fun hnone => ?_⟩
  have hmatch : candidates.matchesAny d.names = true := by
    simpa using List.find?_some h
  rw [Lookup.firstInSubtree_eq_find?] at hnone
  exact List.find?_eq_none.mp hnone d (Declaration.mem_inSubtree_root_iff.mpr hat) hmatch

theorem reached_of_ne {file : FileId} (h : file ≠ d.file) (files : List FileId) :
    reached (some d) (file :: files) = file :: reached (some d) files := by
  simp [reached, h]

theorem reached_self (d : Declaration) (files : List FileId) :
    reached (some d) (d.file :: files) = [] := by
  simp [reached]

theorem reached_cons {file : FileId} {files : List FileId}
    (h : ∀ source, r.source? file = some source →
      Lookup.firstInSubtree source Tree.root candidates kind = none) :
    reached (Lookup.firstInFiles r.index candidates kind files).value (file :: files) =
      file :: reached (Lookup.firstInFiles r.index candidates kind files).value files := by
  cases hfound : (Lookup.firstInFiles r.index candidates kind files).value with
  | none => rfl
  | some d =>
    have hne : file ≠ d.file := by
      rintro rfl
      obtain ⟨source, hlive, hsome⟩ := live_of_firstInFiles hfound
      exact hsome (h source hlive)
    exact reached_of_ne hne files

theorem firstInFiles_events (files : List FileId) :
    (Lookup.firstInFiles r.index candidates kind files).events =
      ((reached (Lookup.firstInFiles r.index candidates kind files).value files).filter
        r.isStale).map .staleSkipped := by
  induction files with
  | nil => rfl
  | cons file files ih =>
    rw [Lookup.firstInFiles]
    cases hlive : r.index.source? file with
    | none =>
      have hstale : r.isStale file = true := Option.isNone_iff_eq_none.mpr hlive
      have hmiss : ∀ source, r.source? file = some source →
          Lookup.firstInSubtree source Tree.root candidates kind = none := by
        intro source hsource
        cases hlive.symm.trans hsource
      change Event.staleSkipped file :: _ = _
      rw [Traced.after, reached_cons hmiss, List.filter_cons_of_pos hstale, List.map_cons, ← ih]
    | some source =>
      dsimp only
      cases hfound : Lookup.firstInSubtree source Tree.root candidates kind with
      | some d =>
        have hd : d.file = file :=
          (Declaration.file_of_mem_inSubtree (Lookup.mem_of_firstInSubtree hfound)).trans
            (id_of_source? hlive)
        subst hd
        change [] = List.map _ (List.filter _ (reached (some d) (d.file :: files)))
        rw [reached_self]
        rfl
      | none =>
        have hfresh : ¬r.isStale file = true := by
          have hsome : r.source? file = some source := hlive
          rw [isStale, hsome]
          exact Bool.false_ne_true
        have hmiss : ∀ other, r.source? file = some other →
            Lookup.firstInSubtree other Tree.root candidates kind = none := by
          intro other hother
          cases hlive.symm.trans hother
          exact hfound
        rw [ih, reached_cons hmiss, List.filter_cons_of_neg hfresh]

theorem firstMatch_events (r : Registry) (space : SearchSpace) (candidates : Candidates)
    (kind : DeclKind) :
    (Lookup.firstMatch r.index space candidates kind).events =
      (r.passedOver candidates (Lookup.firstMatch r.index space candidates kind).value space).map
        .staleSkipped := by
  cases hempty : candidates.isEmpty with
  | true => cases space <;> simp [Lookup.firstMatch, passedOver, hempty, Traced.silent]
  | false =>
    cases space with
    | moduleFiles group files =>
      have hmatch : Lookup.firstMatch r.index (.moduleFiles group files) candidates kind =
          Lookup.firstInFiles r.index candidates kind files := by
        simp [Lookup.firstMatch, hempty]
      rw [hmatch, firstInFiles_events, passedOver, hempty]
      rfl
    | _ => simp [Lookup.firstMatch, passedOver, hempty, Traced.silent]

theorem MissedFor.unique {first second : Miss} (h : r.MissedFor o first)
    (h' : r.MissedFor o second) : first = second := by
  have hlive : r.Scopeless o → r.source? o.file ≠ none := by
    rintro ⟨source, _, hsource, _⟩ hnone
    cases hsource.symm.trans hnone
  cases first <;> cases second
  case staleHandle.noScope => exact absurd h (hlive h')
  case staleHandle.noMatch => exact absurd h h'.1
  case noScope.staleHandle => exact absurd h' (hlive h)
  case noScope.noMatch => exact absurd h h'.2
  case noMatch.staleHandle => exact absurd h' h.1
  case noMatch.noScope => exact absurd h' h.2
  all_goals rfl

theorem Concludes.unique {result : Resolution} {first second : Event}
    (h : r.Concludes settings o result first) (h' : r.Concludes settings o result second) :
    first = second := by
  cases h with
  | resolved hd hspace =>
    cases h' with
    | resolved hd' hspace' =>
      cases hd.symm.trans hd'
      cases hspace.symm.trans hspace'
      rfl
    | unresolved hnone _ => cases hd.symm.trans hnone
  | unresolved hnone hreason =>
    cases h' with
    | resolved hd' _ => cases hd'.symm.trans hnone
    | unresolved _ hreason' => rw [hreason.unique hreason']

theorem Concludes.level {result : Resolution} {e : Event}
    (h : r.Concludes settings o result e) : e.level = .debug := by
  cases h <;> rfl

theorem LeadsTo.level {result : Resolution} {steps : List Event}
    (h : r.LeadsTo settings o result steps) : ∀ e ∈ steps, e.level = .trace := by
  intro e he
  cases h with
  | stale => exact absurd he List.not_mem_nil
  | searched _ _ hchoice =>
    rcases List.mem_append.mp he with he | he
    · cases hchoice <;> simp_all [Event.level]
    · obtain ⟨file, _, rfl⟩ := List.mem_map.mp he
      rfl

theorem passedOver_of_isEmpty {space : SearchSpace} (h : space.isEmpty = true) :
    r.passedOver candidates none space = [] := by
  cases space with
  | moduleFiles group files =>
    rw [passedOver, List.isEmpty_iff.mp h]
    exact ite_self _
  | _ => rfl

theorem conclude_declaration (space : SearchSpace) (found : Option Declaration) :
    (Resolver.conclude o space found).value.declaration = found := by
  cases found <;> rfl

theorem searchIn_events (settings : Settings) {space : SearchSpace}
    (h : r.source? o.file = some source)
    (hspace : (SearchSpace.ofReference r.index settings source o.node o.reference).value = space) :
    ∃ last, ((Resolver.mk r.index settings).searchIn o space).events =
        (r.passedOver (o.reference.candidates settings)
          ((Resolver.mk r.index settings).searchIn o space).value.declaration space).map
          .staleSkipped ++ [last] ∧
      r.Concludes settings o ((Resolver.mk r.index settings).searchIn o space).value last := by
  have hlive : r.source? o.file ≠ none := by
    rw [h]
    exact Option.some_ne_none source
  have hempty := ofReference_isEmpty_iff settings h
  rw [hspace] at hempty
  unfold Resolver.searchIn
  split
  · rename_i hnothing
    refine ⟨.unresolved o.reference o.file o.node .noScope, ?_,
      .unresolved rfl (hempty.mp hnothing)⟩
    change [_] = List.map _ (r.passedOver _ none space) ++ [_]
    rw [passedOver_of_isEmpty hnothing]
    rfl
  · rename_i hsome
    have hevents := r.firstMatch_events space (o.reference.candidates settings) o.reference.target
    generalize Lookup.firstMatch r.index space (o.reference.candidates settings)
      o.reference.target = search at hevents ⊢
    simp only [Traced.andThen, conclude_declaration, hevents]
    cases hfound : search.value with
    | none =>
      exact ⟨_, rfl, .unresolved rfl ⟨hlive, fun hnone => hsome (hempty.mpr hnone)⟩⟩
    | some d =>
      refine ⟨_, rfl, .resolved rfl ?_⟩
      rw [← hspace]
      exact Resolver.searchSpace?_of_source h

theorem resolve_events (r : Registry) (settings : Settings) (o : Occurrence) :
    ∃ steps last, ((Resolver.mk r.index settings).resolve o).events = steps ++ [last] ∧
      r.LeadsTo settings o ((Resolver.mk r.index settings).resolve o).value steps ∧
      r.Concludes settings o ((Resolver.mk r.index settings).resolve o).value last := by
  unfold Resolver.resolve
  cases hlive : r.index.source? o.file with
  | none => exact ⟨[], _, rfl, .stale hlive, .unresolved rfl hlive⟩
  | some source =>
    obtain ⟨last, hevents, hlast⟩ := searchIn_events settings hlive rfl
    refine ⟨_, last, ?_, .searched hlive (Resolver.searchSpace?_of_source hlive)
      (ofReference_announces o.reference), hlast⟩
    change _ ++ ((Resolver.mk r.index settings).searchIn o _).events = _
    rw [hevents, List.append_assoc]
    rfl

/-- The last event, and no other, is for the user; it is the one that reports the result. The events
before it are those that lead to this result. -/
theorem resolve_explained (r : Registry) (settings : Settings) (o : Occurrence) :
    let outcome := (Resolver.mk r.index settings).resolve o
    ∃ steps last, outcome.events = steps ++ [last] ∧ last.level = .debug ∧
      (∀ e ∈ steps, e.level = .trace) ∧
      (∀ e, e = last ↔ r.Concludes settings o outcome.value e) ∧
      r.LeadsTo settings o outcome.value steps := by
  intro outcome
  obtain ⟨steps, last, hevents, hsteps, hlast⟩ := resolve_events r settings o
  refine ⟨steps, last, hevents, hlast.level, hsteps.level, fun e => ?_, hsteps⟩
  constructor
  · rintro rfl
    exact hlast
  · intro he
    exact he.unique hlast

/-- The file with the declaration has lost its tree. -/
example : ((Resolver.mk (crowd.invalidate 2).2.index {}).resolve ⟨1, 1, .function "seq"⟩).events =
    [.moduleScope 1 0 2, .staleSkipped 2, .unresolved (.function "seq") 1 1 .noMatch] := by
  decide

end Registry

end KNames
