import KNames.Proofs.Binding.Agreement

set_option autoImplicit false

namespace KNames

namespace Settings

def narrow (separator : Char) : Settings := ⟨.fileWhenNoRequires, separator⟩

def wide (separator : Char) : Settings := ⟨.moduleWhenRequiredBy, separator⟩

end Settings

theorem Reference.candidates_wide (reference : Reference) (separator : Char) :
    reference.candidates (.wide separator) = reference.candidates (.narrow separator) := by
  cases reference <;> rfl

/-- A node of the file is what the reference looks for and declares one of its candidates. -/
def Source.Offers (source : Source) (settings : Settings) (reference : Reference) : Prop :=
  ∃ i kind names, source.tree.kind? i = some kind ∧ reference.Seeks kind names ∧
    ∃ name ∈ names, name ∈ (reference.candidates settings).names

namespace Registry

open FileTable

variable {r : Registry} {settings : Settings} {source : Source} {f g : FileId} {group : ModuleId}
  {reference : Reference} {separator : Char} {d e : Declaration}

theorem moduleWide_narrow_iff : r.ModuleWide (.narrow separator) source group ↔
    r.Registered source.id group ∧ ∃ path, source.tree.Requires path := by
  refine and_congr_right fun _ => ?_
  constructor
  · rintro (hpath | ⟨hpolicy, _⟩)
    · exact hpath
    · cases hpolicy
  · exact .inl

theorem ModuleWide.widen (h : r.ModuleWide (.narrow separator) source group) :
    r.ModuleWide (.wide separator) source group := by
  obtain ⟨hreg, hpath⟩ := moduleWide_narrow_iff.mp h
  exact ⟨hreg, .inl hpath⟩

theorem InScope.widen (h : r.InScope (.narrow separator) source g) :
    r.InScope (.wide separator) source g := by
  rcases h with hself | ⟨group, hwide, hreg⟩
  · exact .inl hself
  · exact .inr ⟨group, hwide.widen, hreg⟩

theorem Binds.widen (h : r.Binds (.narrow separator) source reference d) :
    r.Binds (.wide separator) source reference d where
  scope := h.scope.widen
  node := h.node
  kind := h.kind
  named := by
    rw [reference.candidates_wide]
    exact h.named

theorem Binds.narrow (h : r.Binds (.wide separator) source reference d)
    (hself : d.file = source.id) : r.Binds (.narrow separator) source reference d where
  scope := .inl hself
  node := h.node
  kind := h.kind
  named := by
    rw [← reference.candidates_wide]
    exact h.named

theorem file_eq_of_alone (h : r.Binds (.narrow separator) source reference d)
    (halone : ¬∃ path, source.tree.Requires path) : d.file = source.id := by
  rcases h.scope with hself | ⟨group, hwide, _⟩
  · exact hself
  · exact absurd (moduleWide_narrow_iff.mp hwide).2 halone

theorem isResolved_of_offers (h : r.source? f = some source)
    (hoffers : source.Offers settings reference) (node : NodeId) :
    ((Resolver.mk r.index settings).resolve ⟨f, node, reference⟩).value.isResolved = true := by
  obtain ⟨i, kind, names, hkind, hseeks, hnamed⟩ := hoffers
  have hvar : ∀ x, reference ≠ .var x := by
    rintro x rfl
    cases hseeks
  obtain ⟨n, hn, rfl⟩ := Option.map_eq_some_iff.mp hkind
  have hlive : r.source? source.id = some source := by
    rw [id_of_source? h]
    exact h
  have hbinds : r.Binds settings source reference ⟨source.id, i, reference.target, n.span, names⟩ :=
    ⟨.inl rfl, ⟨source, n, hlive, hn, hseeks, rfl⟩, rfl, hnamed⟩
  exact (isResolved_iff settings h hvar node).mpr ⟨_, hbinds⟩

/-- What makes the policy of no account: each case alone is enough. -/
inductive PolicyFree (r : Registry) (source : Source) (reference : Reference) : Prop
  | isVariable (x : String) (h : reference = .var x)
  | requires (h : ∃ path, source.tree.Requires path)
  | noModule (h : r.moduleOf? source.id = none)
  | notRequired (h : ∀ group, r.Registered source.id group → ¬r.RequiredIn source group)

theorem isRequired_eq_false
    (h : ∀ group, r.Registered source.id group → ¬r.RequiredIn source group) :
    SearchSpace.isRequired r.index source = false := by
  cases hmodule : r.moduleOf? source.id with
  | none =>
    have hindex : r.index.moduleOf? source.id = none := hmodule
    rw [SearchSpace.isRequired, hindex]
  | some group =>
    have hreg := moduleOf?_eq_some_iff.mp hmodule
    rw [← Bool.not_eq_true, isRequired_iff hreg]
    exact h group hreg

theorem isWide_wide (hvar : ∀ x, reference ≠ .var x) (h : r.PolicyFree source reference) :
    SearchSpace.isWide r.index (.wide separator) source =
      SearchSpace.isWide r.index (.narrow separator) source := by
  have halone (hrequired : SearchSpace.isRequired r.index source = false) :
      SearchSpace.isWide r.index (.wide separator) source =
        SearchSpace.isWide r.index (.narrow separator) source := by
    unfold SearchSpace.isWide
    rw [hrequired, Bool.and_false, Bool.and_false]
  cases h with
  | isVariable x h => exact absurd h (hvar x)
  | requires h =>
    unfold SearchSpace.isWide
    rw [Source.hasRequires_iff.mpr h, Bool.true_or, Bool.true_or]
  | noModule h =>
    refine halone (isRequired_eq_false fun group hreg => ?_)
    rw [moduleOf?_eq_some_iff.mpr hreg] at h
    cases h
  | notRequired h => exact halone (isRequired_eq_false h)

theorem ofReference_wide (h : r.PolicyFree source reference) (node : NodeId) :
    SearchSpace.ofReference r.index (.wide separator) source node reference =
      SearchSpace.ofReference r.index (.narrow separator) source node reference := by
  by_cases hvar : ∃ x, reference = .var x
  · obtain ⟨x, rfl⟩ := hvar
    rfl
  · have hvar : ∀ x, reference ≠ .var x := fun x hx => hvar ⟨x, hx⟩
    rw [SearchSpace.ofReference_of_ne_var hvar, SearchSpace.ofReference_of_ne_var hvar,
      SearchSpace.ofDeclarations, isWide_wide hvar h, SearchSpace.ofDeclarations]

theorem resolve_wide (h : r.source? f = some source) (hfree : r.PolicyFree source reference)
    (node : NodeId) : (Resolver.mk r.index (.wide separator)).resolve ⟨f, node, reference⟩ =
      (Resolver.mk r.index (.narrow separator)).resolve ⟨f, node, reference⟩ := by
  have hlive : r.index.source? f = some source := h
  have hsearch : (Resolver.mk r.index (.wide separator)).searchIn ⟨f, node, reference⟩ =
      (Resolver.mk r.index (.narrow separator)).searchIn ⟨f, node, reference⟩ := by
    funext space
    rw [Resolver.searchIn, reference.candidates_wide, Resolver.searchIn]
  unfold Resolver.resolve
  rw [hlive]
  change Traced.andThen _ _ = Traced.andThen _ _
  rw [ofReference_wide hfree, hsearch]

theorem exists_earlier (h : r.source? f = some source) (hvar : ∀ x, reference ≠ .var x)
    (halone : ¬∃ path, source.tree.Requires path) (node : NodeId)
    (hbound : ((Resolver.mk r.index (.narrow separator)).resolve
      ⟨f, node, reference⟩).value.declaration = some d) :
    ∃ e, ((Resolver.mk r.index (.wide separator)).resolve
      ⟨f, node, reference⟩).value.declaration = some e ∧ (e = d ∨ e.file < f) := by
  obtain ⟨hd, hleast⟩ := (declaration_eq_some_iff _ h hvar node).mp hbound
  obtain ⟨e, he, hebinds, hefirst⟩ := exists_declaration_of_binds (.wide separator) h hvar node hd.widen
  have hdf : d.file = source.id := file_eq_of_alone hd halone
  refine ⟨e, he, ?_⟩
  rcases hefirst with heq | hfile | ⟨hfile, hnode⟩
  · exact .inl heq.symm
  · rw [hdf, id_of_source? h] at hfile
    exact .inr hfile
  · -- In the file itself the narrower policy would have found the earlier declaration too.
    rcases hleast e (hebinds.narrow (hfile.trans hdf)) with heq | hbefore
    · exact .inl heq
    · exact absurd (Or.inr ⟨hfile, hnode⟩) hbefore.asymm

/-- Under the wider policy nothing gets lost: a reference that is bound stays bound, to the same
declaration or in an earlier file. Nothing changes at all where the policy is of no account, and
what a file declares itself is found under every policy. -/
theorem wider_policy_keeps_bound (separator : Char) (h : r.source? f = some source) :
    (∀ node reference d,
      ((Resolver.mk r.index (.narrow separator)).resolve
        ⟨f, node, reference⟩).value.declaration = some d →
      ∃ e, ((Resolver.mk r.index (.wide separator)).resolve
        ⟨f, node, reference⟩).value.declaration = some e ∧ (e = d ∨ e.file < f)) ∧
    (∀ node reference, r.PolicyFree source reference →
      (Resolver.mk r.index (.wide separator)).resolve ⟨f, node, reference⟩ =
        (Resolver.mk r.index (.narrow separator)).resolve ⟨f, node, reference⟩) ∧
    ∀ settings node reference, source.Offers settings reference →
      ((Resolver.mk r.index settings).resolve ⟨f, node, reference⟩).value.isResolved = true := by
  refine ⟨?_, fun node reference hfree => resolve_wide h hfree node,
    fun settings node reference hoffers => isResolved_of_offers h hoffers node⟩
  intro node reference d hbound
  by_cases hfree : (∃ x, reference = .var x) ∨ ∃ path, source.tree.Requires path
  · have hsame : r.PolicyFree source reference := by
      rcases hfree with ⟨x, hx⟩ | hpath
      · exact .isVariable x hx
      · exact .requires hpath
    rw [resolve_wide h hsame]
    exact ⟨d, hbound, .inl rfl⟩
  · have hvar : ∀ x, reference ≠ .var x := fun x hx => hfree (.inl ⟨x, hx⟩)
    exact exists_earlier h hvar (fun hpath => hfree (.inr hpath)) node hbound

def rivals : Registry :=
  let first : Script := .step (.require "b.k") (.step (.production ["seq"]) .done)
  (((empty.addModule "m").2.addFile "m/a.k" (some 0) first.build).2.addFile
    "m/b.k" (some 0) duoSecond.tree).2

/-- From the second of them the name means its own production, or else the one before it. A variable
of its rule means the same under both policies. -/
theorem wider_policy_keeps_bound_rivals :
    (rivals.source? 1 = some duoSecond ∧
      ((Resolver.mk rivals.index (.narrow '@')).resolve
        ⟨1, 5, .function "seq"⟩).value.declaration = some ⟨1, 1, .production, ⟨0, 4⟩, ["seq"]⟩ ∧
      rivals.PolicyFree duoSecond (.var "X") ∧ duoSecond.Offers {} (.label "'seq")) ∧
    (∃ e, ((Resolver.mk rivals.index (.wide '@')).resolve
        ⟨1, 5, .function "seq"⟩).value.declaration = some e ∧ e.file = 0) ∧
      (Resolver.mk rivals.index (.wide '@')).resolve ⟨1, 5, .var "X"⟩ =
        (Resolver.mk rivals.index (.narrow '@')).resolve ⟨1, 5, .var "X"⟩ ∧
      ((Resolver.mk rivals.index {}).resolve ⟨1, 5, .label "'seq"⟩).value.isResolved = true := by
  have hlive : rivals.source? 1 = some duoSecond := rfl
  have hfree : rivals.PolicyFree duoSecond (.var "X") := .isVariable "X" rfl
  have hoffers : duoSecond.Offers {} (.label "'seq") :=
    ⟨1, _, _, rfl, .label, "seq", List.mem_cons_self, by decide⟩
  obtain ⟨hkept, hsame, hown⟩ := wider_policy_keeps_bound '@' hlive
  obtain ⟨e, he, hplace⟩ := hkept 5 (.function "seq") ⟨1, 1, .production, ⟨0, 4⟩, ["seq"]⟩ rfl
  refine ⟨⟨hlive, rfl, hfree, hoffers⟩, ⟨e, he, ?_⟩, hsame 5 _ hfree, hown {} 5 _ hoffers⟩
  rcases hplace with rfl | hfile
  · cases he
  · exact Nat.lt_one_iff.mp hfile

end Registry

end KNames
