import KNames.Proofs.Registry
import KNames.Proofs.Tree.Links
import KNames.Resolution

set_option autoImplicit false

namespace KNames

theorem Kind.requirePath?_eq_some_iff {kind : Kind} {path : String} :
    kind.requirePath? = some path ↔ kind = .require path := by
  cases kind <;> simp [Kind.requirePath?]

namespace Tree

variable {t : Tree} {path : String}

/-- A `require` with this path is a child of the root; one further down does not count. -/
def Requires (t : Tree) (path : String) : Prop :=
  ∃ i ∈ t.children root, t.kind? i = some (.require path)

theorem exists_top_iff {P : Kind → Prop} :
    (∃ n ∈ t.top.tops (some root) 1, P n.kind) ↔
      ∃ i ∈ t.children root, ∃ kind, t.kind? i = some kind ∧ P kind := by
  have hroot : t.node? root = some ⟨root, .file, t.extent, none, t.top⟩ := rfl
  have hmem : ∀ n ∈ t.top.tops (some root) 1, n ∈ t.nodes :=
    fun n hn => mem_nodes_of_mem_childNodes (mem_nodes_of_node? hroot) hn
  rw [children_of_node? hroot]
  constructor
  · rintro ⟨n, hn, hk⟩
    exact ⟨n.id, List.mem_map_of_mem hn, n.kind, kind?_of_node? (node?_of_mem (hmem n hn)), hk⟩
  · rintro ⟨i, hi, kind, hkind, hk⟩
    obtain ⟨n, hn, rfl⟩ := List.mem_map.mp hi
    rw [kind?_of_node? (node?_of_mem (hmem n hn))] at hkind
    cases hkind
    exact ⟨n, hn, hk⟩

end Tree

namespace Source

variable {source : Source} {path : String}

theorem mem_requires_iff : path ∈ source.requires ↔ source.tree.Requires path := by
  have htop := Tree.exists_top_iff (t := source.tree) (P := fun kind => kind = .require path)
  constructor
  · intro h
    obtain ⟨⟨i, p⟩, hp, rfl⟩ := List.mem_map.mp h
    obtain ⟨n, hn, hk⟩ := List.mem_filterMap.mp hp
    obtain ⟨q, hq, heq⟩ := Option.map_eq_some_iff.mp hk
    cases heq
    obtain ⟨i, hi, kind, hkind, rfl⟩ := htop.mp ⟨n, hn, Kind.requirePath?_eq_some_iff.mp hq⟩
    exact ⟨i, hi, hkind⟩
  · rintro ⟨i, hi, hkind⟩
    obtain ⟨n, hn, hk⟩ := htop.mpr ⟨i, hi, _, hkind, rfl⟩
    refine List.mem_map.mpr ⟨(n.id, path), List.mem_filterMap.mpr ⟨n, hn, ?_⟩, rfl⟩
    rw [Kind.requirePath?_eq_some_iff.mpr hk]
    rfl

theorem hasRequires_iff : source.hasRequires = true ↔ ∃ path, source.tree.Requires path := by
  have hmem : source.hasRequires = !source.requires.isEmpty := by
    rw [hasRequires, requires, List.isEmpty_map]
  rw [hmem, Bool.not_eq_true', List.isEmpty_eq_false_iff_exists_mem]
  exact exists_congr fun path => mem_requires_iff

end Source

theorem SearchSpace.ofReference_of_ne_var {index : FileIndex} {settings : Settings}
    {source : Source} {node : NodeId} {reference : Reference} (hvar : ∀ x, reference ≠ .var x) :
    ofReference index settings source node reference = ofDeclarations index settings source := by
  cases reference with
  | var x => exact absurd rfl (hvar x)
  | function _ => rfl
  | label _ => rfl
  | sort _ => rfl

namespace Registry

open FileTable

variable {r : Registry} {settings : Settings} {source : Source} {f : FileId} {group : ModuleId}

def RequiredIn (r : Registry) (source : Source) (group : ModuleId) : Prop :=
  ∃ g other path, g ≠ source.id ∧ r.Registered g group ∧ r.source? g = some other ∧
    other.tree.Requires path ∧ RequirePath.designates path source.uri = true

def ModuleWide (r : Registry) (settings : Settings) (source : Source) (group : ModuleId) : Prop :=
  r.Registered source.id group ∧
    ((∃ path, source.tree.Requires path) ∨
      (settings.importScope = .moduleWhenRequiredBy ∧ r.RequiredIn source group))

structure ScopePolicy (r : Registry) (settings : Settings) (source : Source)
    (space : SearchSpace) : Prop where
  wide : ∀ group, (∃ files, space = .moduleFiles group files) ↔ r.ModuleWide settings source group
  narrow : space = .file source ↔ ¬∃ group, r.ModuleWide settings source group
  /-- Stale files are listed, and the file itself always is. -/
  files : ∀ group files, space = .moduleFiles group files → files.Pairwise (· < ·) ∧
    files.Nodup ∧ source.id ∈ files ∧ ∀ g, g ∈ files ↔ r.Registered g group
  occupied : space.isEmpty = false

theorem isRequired_iff (hg : r.Registered source.id group) :
    SearchSpace.isRequired r.index source = true ↔ r.RequiredIn source group := by
  have hmodule : r.index.moduleOf? source.id = some group := moduleOf?_eq_some_iff.mpr hg
  unfold SearchSpace.isRequired
  rw [hmodule]
  change (((r.filesIn (.ofModule group)).filter (· ≠ source.id)).filterMap r.source?).any _ =
    true ↔ _
  rw [List.any_eq_true]
  constructor
  · rintro ⟨other, hother, hany⟩
    obtain ⟨g, hg, hlive⟩ := List.mem_filterMap.mp hother
    obtain ⟨hmem, hne⟩ := List.mem_filter.mp hg
    obtain ⟨path, hpath, hd⟩ := List.any_eq_true.mp hany
    have hother : g ≠ source.id := of_decide_eq_true hne
    have hreg : r.Registered g group := mem_filesIn.mp hmem
    have hreq : other.tree.Requires path := Source.mem_requires_iff.mp hpath
    exact ⟨g, other, path, hother, hreg, hlive, hreq, hd⟩
  · rintro ⟨g, other, path, hne, hmem, hlive, hpath, hd⟩
    have hg : g ∈ (r.filesIn (.ofModule group)).filter (· ≠ source.id) :=
      List.mem_filter.mpr ⟨mem_filesIn.mpr hmem, decide_eq_true hne⟩
    have hany : other.requires.any (RequirePath.designates · source.uri) = true :=
      List.any_eq_true.mpr ⟨path, Source.mem_requires_iff.mpr hpath, hd⟩
    exact ⟨other, List.mem_filterMap.mpr ⟨g, hg, hlive⟩, hany⟩

theorem isWide_iff (hg : r.Registered source.id group) :
    SearchSpace.isWide r.index settings source = true ↔ r.ModuleWide settings source group := by
  unfold SearchSpace.isWide
  rw [Bool.or_eq_true, Bool.and_eq_true, beq_iff_eq, Source.hasRequires_iff,
    isRequired_iff hg]
  constructor
  · intro h
    exact ⟨hg, h⟩
  · intro h
    exact h.2

theorem ofDeclarations_wide (h : r.ModuleWide settings source group) :
    (SearchSpace.ofDeclarations r.index settings source).value =
      .moduleFiles group (r.filesIn (.ofModule group)) := by
  have hmodule : r.index.moduleOf? source.id = some group := moduleOf?_eq_some_iff.mpr h.1
  unfold SearchSpace.ofDeclarations
  rw [if_pos ((isWide_iff h.1).mpr h), hmodule]
  rfl

theorem ofDeclarations_narrow (h : ¬∃ group, r.ModuleWide settings source group) :
    (SearchSpace.ofDeclarations r.index settings source).value = .file source := by
  unfold SearchSpace.ofDeclarations
  split
  · rename_i hwide
    cases hmodule : r.index.moduleOf? source.id with
    | none => rfl
    | some group =>
      have hg : r.Registered source.id group := moduleOf?_eq_some_iff.mp hmodule
      exact absurd ⟨group, (isWide_iff hg).mp hwide⟩ h
  · rfl

theorem ModuleWide.unique {other : ModuleId} (h : r.ModuleWide settings source group)
    (ho : r.ModuleWide settings source other) : group = other :=
  h.1.unique ho.1

theorem scopePolicy_wide (h : r.ModuleWide settings source group) :
    r.ScopePolicy settings source (.moduleFiles group (r.filesIn (.ofModule group))) where
  wide other := by
    constructor
    · rintro ⟨files, heq⟩
      cases heq
      exact h
    · intro ho
      cases h.unique ho
      exact ⟨_, rfl⟩
  narrow := by
    constructor
    · intro heq
      cases heq
    · intro hn
      exact absurd ⟨group, h⟩ hn
  files other files heq := by
    cases heq
    have hsorted := r.filesIn_pairwise (.ofModule group)
    exact ⟨hsorted, hsorted.imp Nat.ne_of_lt, mem_filesIn.mpr h.1, fun g => mem_filesIn⟩
  occupied := by
    unfold SearchSpace.isEmpty
    rw [List.isEmpty_eq_false_iff_exists_mem]
    exact ⟨source.id, mem_filesIn.mpr h.1⟩

theorem scopePolicy_narrow (h : ¬∃ group, r.ModuleWide settings source group) :
    r.ScopePolicy settings source (.file source) where
  wide group := by
    constructor
    · rintro ⟨files, heq⟩
      cases heq
    · intro hg
      exact absurd ⟨group, hg⟩ h
  narrow := by
    constructor
    · intro _
      exact h
    · intro _
      rfl
  files group files heq := by
    cases heq
  occupied := rfl

/-- What a reference to a declaration searches is independent of its node and follows the policy. -/
theorem searchSpace_policy (settings : Settings) (h : r.source? f = some source) :
    r.ScopePolicy settings source (SearchSpace.ofDeclarations r.index settings source).value ∧
      ∀ node reference, (∀ x, reference ≠ .var x) →
        ((Resolver.mk r.index settings).searchSpace? ⟨f, node, reference⟩).value =
          some (SearchSpace.ofDeclarations r.index settings source).value := by
  constructor
  · by_cases hwide : ∃ group, r.ModuleWide settings source group
    · obtain ⟨group, hg⟩ := hwide
      rw [ofDeclarations_wide hg]
      exact scopePolicy_wide hg
    · rw [ofDeclarations_narrow hwide]
      exact scopePolicy_narrow hwide
  · intro node reference hvar
    have hlive : (Resolver.mk r.index settings).index.source? f = some source := h
    rw [Resolver.searchSpace?, hlive]
    change some (SearchSpace.ofReference r.index settings source node reference).value = _
    rw [SearchSpace.ofReference_of_ne_var hvar]

/-- The second file requires nothing, but it is required, and the wider policy counts that. -/
theorem searchSpace_policy_duo : duo.source? 1 = some duoSecond ∧
    duo.ScopePolicy ⟨.moduleWhenRequiredBy, '@'⟩ duoSecond (.moduleFiles 0 [0, 1]) ∧
    ((Resolver.mk duo.index ⟨.moduleWhenRequiredBy, '@'⟩).searchSpace? ⟨1, 5, .sort "S"⟩).value =
      some (.moduleFiles 0 [0, 1]) := by
  have hlive : duo.source? 1 = some duoSecond := rfl
  have hspace : (SearchSpace.ofDeclarations duo.index ⟨.moduleWhenRequiredBy, '@'⟩ duoSecond).value =
      .moduleFiles 0 [0, 1] := by rfl
  obtain ⟨hpolicy, hsearch⟩ := searchSpace_policy ⟨.moduleWhenRequiredBy, '@'⟩ hlive
  rw [hspace] at hpolicy hsearch
  exact ⟨hlive, hpolicy, hsearch 5 (.sort "S") (by simp)⟩

end Registry

end KNames
