import KNames.Proofs.Binding.Declarations

set_option autoImplicit false

namespace KNames

/-- The trees that a search goes through in this space are the live ones of their files. -/
def SearchSpace.Current (r : Registry) : SearchSpace → Prop
  | ruleBody source _ | file source => r.source? source.id = some source
  | empty | moduleFiles .. => True

namespace Lookup

variable {index : FileIndex} {candidates : Candidates} {kind : DeclKind} {group : ModuleId}
  {f : FileId} {xs ys files : List FileId} {d : Declaration}

theorem inFiles_append (xs ys : List FileId) : Declaration.inFiles index kind (xs ++ ys) =
    Declaration.inFiles index kind xs ++ Declaration.inFiles index kind ys := by
  rw [Declaration.inFiles, List.filterMap_append, List.flatMap_append]
  rfl

theorem firstMatch_moduleFiles (files : List FileId) :
    (firstMatch index (.moduleFiles group files) candidates kind).value =
      (Declaration.inFiles index kind files).find? (candidates.matchesAny ·.names) :=
  firstMatch_value (.moduleFiles group files)

theorem firstMatch_append (xs ys : List FileId) :
    (firstMatch index (.moduleFiles group (xs ++ ys)) candidates kind).value =
      (firstMatch index (.moduleFiles group xs) candidates kind).value.or
        (firstMatch index (.moduleFiles group ys) candidates kind).value := by
  simp only [firstMatch_moduleFiles, inFiles_append, List.find?_append]

theorem firstMatch_singleton_of_no_source (h : index.source? f = none) :
    (firstMatch index (.moduleFiles group [f]) candidates kind).value = none := by
  rw [firstMatch_moduleFiles, Declaration.inFiles, List.filterMap_cons_none h]
  rfl

theorem firstMatch_singleton_of_mem (hf : f ∈ files)
    (h : (firstMatch index (.moduleFiles group files) candidates kind).value = none) :
    (firstMatch index (.moduleFiles group [f]) candidates kind).value = none := by
  obtain ⟨before, after, rfl⟩ := List.append_of_mem hf
  rw [firstMatch_append, Option.or_eq_none_iff] at h
  have hrest : (firstMatch index (.moduleFiles group ([f] ++ after)) candidates kind).value = none :=
    h.2
  rw [firstMatch_append, Option.or_eq_none_iff] at hrest
  exact hrest.1

theorem firstMatch_leave_out (h : index.source? f = none ∨ f ∈ xs) (ys : List FileId) :
    (firstMatch index (.moduleFiles group (xs ++ f :: ys)) candidates kind).value =
      (firstMatch index (.moduleFiles group (xs ++ ys)) candidates kind).value := by
  rw [List.append_cons, firstMatch_append, firstMatch_append, firstMatch_append xs ys]
  congr 1
  cases hxs : (firstMatch index (.moduleFiles group xs) candidates kind).value with
  | some d => rfl
  | none =>
    -- Where `xs` finds nothing, it is left to show that `f` finds nothing.
    rw [Option.none_or]
    rcases h with hstale | hmem
    · exact firstMatch_singleton_of_no_source hstale
    · exact firstMatch_singleton_of_mem hmem hxs

theorem mem_listed_of_firstMatch {space : SearchSpace}
    (h : (firstMatch index space candidates kind).value = some d) :
    d ∈ space.listed index kind ∧ ∃ name ∈ d.names, name ∈ candidates.names := by
  rw [firstMatch_value] at h
  have hmatch : candidates.matchesAny d.names = true := by
    simpa using List.find?_some h
  exact ⟨List.mem_of_find?_eq_some h, (Candidates.matchesAny_iff _ _).mp hmatch⟩

theorem firstMatch_eq_none_iff {space : SearchSpace} :
    (firstMatch index space candidates kind).value = none ↔
      ∀ d ∈ space.listed index kind, ∀ name ∈ d.names, name ∉ candidates.names := by
  rw [firstMatch_value, List.find?_eq_none]
  refine forall₂_congr fun d _ => ?_
  rw [Candidates.matchesAny_iff]
  simp only [not_exists, not_and]

theorem at?_of_mem_listed {r : Registry} {space : SearchSpace} (hspace : space.Current r)
    (h : d ∈ space.listed r.index kind) :
    ∃ source, r.source? d.file = some source ∧ Declaration.at? source d.node kind = some d := by
  have hsubtree : ∀ {source : Source} {node : NodeId}, r.source? source.id = some source →
      d ∈ Declaration.inSubtree source node kind →
        ∃ source, r.source? d.file = some source ∧
          Declaration.at? source d.node kind = some d := by
    intro source node hlive hd
    rw [Declaration.file_of_mem_inSubtree hd]
    exact ⟨source, hlive, (Declaration.mem_inSubtree_iff.mp hd).2⟩
  cases space with
  | empty => cases h
  | ruleBody source body => exact hsubtree hspace h
  | file source => exact hsubtree hspace h
  | moduleFiles group files => exact (Registry.mem_inFiles_iff.mp h).2

/-- A search in a list of files gives what its first part gives, and else what the rest gives;
files that are not live or that stood in the list before can be left out. What is found in a
current space has the kind and a name that were looked for, and is what is read at its place.
Without candidates nothing is found, and else only if no declaration of the space has one. -/
theorem firstMatch_laws (index : FileIndex) (candidates : Candidates) (kind : DeclKind) :
    let found := fun space => (firstMatch index space candidates kind).value
    (∀ group xs ys, found (.moduleFiles group (xs ++ ys)) =
      (found (.moduleFiles group xs)).or (found (.moduleFiles group ys))) ∧
    (∀ group xs f ys, index.source? f = none ∨ f ∈ xs →
      found (.moduleFiles group (xs ++ f :: ys)) = found (.moduleFiles group (xs ++ ys))) ∧
    (∀ r : Registry, index = r.index → ∀ space, space.Current r → ∀ d, found space = some d →
      d.kind = kind ∧ (∃ name ∈ d.names, name ∈ candidates.names) ∧
        ∃ source, r.source? d.file = some source ∧
          Declaration.at? source d.node d.kind = some d) ∧
    (candidates.names = [] → ∀ space, found space = none) ∧
    ∀ space, found space = none ↔
      ∀ d ∈ space.listed index kind, ∀ name ∈ d.names, name ∉ candidates.names := by
  intro found
  refine ⟨?_, ?_, ?_, ?_, fun space => firstMatch_eq_none_iff⟩
  · intro group xs ys
    exact firstMatch_append xs ys
  · intro group xs f ys h
    exact firstMatch_leave_out h ys
  · rintro r rfl space hspace d hfound
    obtain ⟨hlisted, hname⟩ := mem_listed_of_firstMatch hfound
    obtain ⟨source, hlive, hat⟩ := at?_of_mem_listed hspace hlisted
    obtain ⟨_, _, _, _, _, hkind, _⟩ := Declaration.at?_eq_some_iff.mp hat
    subst hkind
    exact ⟨rfl, hname, source, hlive, hat⟩
  · intro hempty space
    have hnone : candidates.isEmpty = true := List.isEmpty_iff.mpr hempty
    exact (firstMatch_value space).trans (find?_of_isEmpty hnone _)

theorem firstMatch_laws_crowd :
    let crowd := Registry.crowd
    let candidates := Candidates.single "seq"
    let found := fun files =>
      (firstMatch crowd.index (.moduleFiles 0 files) candidates .production).value
    let production : Declaration := ⟨2, 1, .production, ⟨0, 4⟩, ["seq"]⟩
    (crowd.index.source? 7 = none ∧ found [7, 1, 2, 1, 0] = found [1, 2, 1, 0]) ∧
    (1 ∈ [1, 2] ∧ found [1, 2, 1, 0] = found [1, 2, 0]) ∧
    (SearchSpace.Current crowd (.moduleFiles 0 [1, 2, 0]) ∧ found [1, 2, 0] = some production ∧
      ∃ source, crowd.source? 2 = some source ∧
        Declaration.at? source 1 .production = some production) ∧
    Candidates.empty.names = [] ∧
      (firstMatch crowd.index (.file Registry.crowdFirst) .empty .production).value = none := by
  intro crowd candidates found production
  have hunknown : crowd.index.source? 7 = none := rfl
  have htwice : 1 ∈ [1, 2] := List.mem_cons_self
  have hcurrent : SearchSpace.Current crowd (.moduleFiles 0 [1, 2, 0]) := trivial
  have hfound : found [1, 2, 0] = some production := rfl
  obtain ⟨-, hout, hread, -, -⟩ := firstMatch_laws crowd.index candidates .production
  obtain ⟨-, -, -, hnone, -⟩ := firstMatch_laws crowd.index .empty .production
  obtain ⟨-, -, hagain⟩ := hread crowd rfl _ hcurrent production hfound
  exact ⟨⟨hunknown, hout 0 [] 7 [1, 2, 1, 0] (.inl hunknown)⟩,
    ⟨htwice, hout 0 [1, 2] 1 [0] (.inr htwice)⟩, ⟨hcurrent, hfound, hagain⟩, rfl,
    hnone rfl (.file Registry.crowdFirst)⟩

end Lookup

end KNames
