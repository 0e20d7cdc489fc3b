import KNames.Proofs.Binding.Agreement
import KNames.Proofs.Frame

set_option autoImplicit false

namespace KNames

def Change.Adds : Change → Prop
  | addModule _ | addFile .. => True
  | replaceTree .. | invalidate _ => False

def History.OnlyAdds (h : History) : Prop := ∀ c ∈ h, c.Adds

namespace Registry

open FileTable

variable {r s : Registry} {settings : Settings} {source : Source} {f g : FileId} {c : Change}
  {group : ModuleId} {reference : Reference} {kind : DeclKind} {d e : Declaration}

theorem files_prefix_apply (r : Registry) (h : c.Adds) : r.files <+: (r.apply c).2.files := by
  cases c with
  | addModule name => exact List.prefix_refl _
  | addFile uri group tree => exact List.prefix_append _ _
  | replaceTree file tree => exact h.elim
  | invalidate file => exact h.elim

theorem files_prefix_after (h : History) {later : History} (honly : later.OnlyAdds) :
    (after h).files <+: (after (h ++ later)).files := by
  induction later using List.reverseRecOn with
  | nil => simp only [List.append_nil, List.prefix_rfl]
  | append_singleton later c ih =>
    have hbefore : History.OnlyAdds later := fun c hc => honly c (List.mem_append_left _ hc)
    have hc : c.Adds := honly c (List.mem_append_right _ List.mem_cons_self)
    rw [← List.append_assoc, after_concat]
    exact (ih hbefore).trans (files_prefix_apply _ hc)

theorem getElem?_of_grown (h : r.files <+: s.files) (hg : g < r.files.length) :
    s.files[g]? = r.files[g]? := by
  obtain ⟨rest, hrest⟩ := h
  rw [← hrest, List.getElem?_append_left hg]

theorem source?_of_grown (h : r.files <+: s.files) (hg : r.source? g = some source) :
    s.source? g = some source :=
  (source?_congr (getElem?_of_grown h (lt_length_of_source? hg))).trans hg

/-- No other file has a say in where a declaration is looked for from this one. -/
def OwnScope (settings : Settings) (source : Source) : Prop :=
  settings.importScope = .fileWhenNoRequires ∨ ∃ path, source.tree.Requires path

theorem moduleWide_iff_of_ownScope (hown : OwnScope settings source) :
    r.ModuleWide settings source group ↔
      r.Registered source.id group ∧ ∃ path, source.tree.Requires path := by
  refine and_congr_right fun _ => ⟨?_, .inl⟩
  rintro (hpath | ⟨hrequired, _⟩)
  · exact hpath
  · rcases hown with hpolicy | hpath
    · rw [hpolicy] at hrequired
      cases hrequired
    · exact hpath

theorem inScope_iff_of_grown (h : r.files <+: s.files) (hown : OwnScope settings source)
    (hr : r.source? source.id = some source) (hg : g < r.files.length) :
    s.InScope settings source g ↔ r.InScope settings source g := by
  have hself := registered_congr (getElem?_of_grown h (lt_length_of_source? hr))
  unfold InScope
  simp only [moduleWide_iff_of_ownScope hown, hself, registered_congr (getElem?_of_grown h hg)]

theorem declares_iff_of_grown (h : r.files <+: s.files) (hd : d.file < r.files.length) :
    s.Declares kind d ↔ r.Declares kind d := by
  unfold Declares
  rw [source?_congr (getElem?_of_grown h hd)]

theorem binds_iff_of_grown (h : r.files <+: s.files) (hown : OwnScope settings source)
    (hr : r.source? f = some source) (hvar : ∀ x, reference ≠ .var x)
    (hd : d.file < r.files.length) :
    s.Binds settings source reference d ↔ r.Binds settings source reference d := by
  have hself : r.source? source.id = some source := by rwa [id_of_source? hr]
  rw [binds_iff_declares (source?_of_grown h hr) hvar, binds_iff_declares hr hvar,
    inScope_iff_of_grown h hown hself hd, declares_iff_of_grown h hd]

theorem file_lt_of_binds (h : r.Binds settings source reference d) : d.file < r.files.length := by
  obtain ⟨_, _, hlive, _⟩ := h.node
  exact lt_length_of_source? hlive

/-- Every declaration of a new file comes after every declaration of an old one. -/
theorem declaration_of_grown (h : r.files <+: s.files) (hown : OwnScope settings source)
    (hr : r.source? f = some source) (hvar : ∀ x, reference ≠ .var x) (node : NodeId)
    (hbound : ((Resolver.mk r.index settings).resolve ⟨f, node, reference⟩).value.declaration =
      some d) :
    ((Resolver.mk s.index settings).resolve ⟨f, node, reference⟩).value.declaration = some d := by
  obtain ⟨hd, hleast⟩ := (declaration_eq_some_iff settings hr hvar node).mp hbound
  have hold := file_lt_of_binds hd
  refine (declaration_eq_some_iff settings (source?_of_grown h hr) hvar node).mpr
    ⟨(binds_iff_of_grown h hown hr hvar hold).mpr hd, fun e he => ?_⟩
  by_cases hnew : e.file < r.files.length
  · exact hleast e ((binds_iff_of_grown h hown hr hvar hnew).mp he)
  · exact .inr (.inl (Nat.lt_of_lt_of_le hold (Nat.le_of_not_lt hnew)))

/-- What a reference is bound to stays its declaration while modules and files are added, provided
that its file alone decides the scope. -/
theorem resolve_stays_bound (h later : History) (settings : Settings) (o : Occurrence)
    (d : Declaration)
    (hbound : ((Resolver.mk (after h).index settings).resolve o).value.declaration = some d)
    (hown : settings.importScope = .fileWhenNoRequires ∨
      ∃ source path, (after h).source? o.file = some source ∧ source.tree.Requires path)
    (honly : later.OnlyAdds) :
    ((Resolver.mk (after (h ++ later)).index settings).resolve o).value.declaration = some d := by
  obtain ⟨f, node, reference⟩ := o
  have hgrown := files_prefix_after h honly
  cases hr : (after h).index.source? f with
  | none =>
    rw [Resolver.resolve_of_no_source hr] at hbound
    cases hbound
  | some source =>
    have hs : (after (h ++ later)).index.source? f = some source := source?_of_grown hgrown hr
    by_cases hvar : ∃ x, reference = .var x
    · obtain ⟨x, rfl⟩ := hvar
      rw [(Resolver.var_of_source rfl (hs.trans hr.symm)).1]
      exact hbound
    · have hown : OwnScope settings source := by
        rcases hown with hpolicy | ⟨other, path, hlive, hpath⟩
        · exact .inl hpolicy
        · cases hlive.symm.trans hr
          exact .inr ⟨path, hpath⟩
      exact declaration_of_grown hgrown hown hr (fun x hx => hvar ⟨x, hx⟩) node hbound

def duoHistory : History :=
  [.addModule "m", .addFile duoFirst.uri (some 0) duoFirst.tree,
    .addFile duoSecond.uri (some 0) duoSecond.tree]

/-- A third file of the module that declares the same name, and requires the second. -/
def duoGrowth : History :=
  [.addModule "n", .addFile "m/c.k" (some 0) (Script.step (.require "b.k")
    (.step (.production ["seq"]) .done)).build]

theorem resolve_stays_bound_duo :
    let bound : Declaration := ⟨1, 1, .production, ⟨0, 4⟩, ["seq"]⟩
    let wide : Settings := ⟨.moduleWhenRequiredBy, '@'⟩
    (((Resolver.mk (after duoHistory).index wide).resolve
        ⟨0, 1, .function "seq"⟩).value.declaration = some bound ∧
      (after duoHistory).source? 0 = some duoFirst ∧ duoFirst.tree.Requires "b.k" ∧
      duoGrowth.OnlyAdds) ∧
    ((Resolver.mk (after (duoHistory ++ duoGrowth)).index wide).resolve
      ⟨0, 1, .function "seq"⟩).value.declaration = some bound := by
  intro bound wide
  have hbound : ((Resolver.mk (after duoHistory).index wide).resolve
      ⟨0, 1, .function "seq"⟩).value.declaration = some bound := rfl
  have hlive : (after duoHistory).source? 0 = some duoFirst := rfl
  have hpath : duoFirst.tree.Requires "b.k" := ⟨1, by decide, rfl⟩
  have honly : duoGrowth.OnlyAdds := by
    intro c hc
    rcases List.mem_pair.mp hc with rfl | rfl <;> trivial
  exact ⟨⟨hbound, hlive, hpath, honly⟩, resolve_stays_bound duoHistory duoGrowth wide _ bound
    hbound (.inr ⟨duoFirst, "b.k", hlive, hpath⟩) honly⟩

/-- Being required by a new file is enough to bind to an earlier file of the module. -/
example :
    let seq : Tree := (Script.step (.production ["seq"]) .done).build
    let h : History := [.addFile "m/a.k" (some 0) seq, .addFile "m/b.k" (some 0) seq]
    let later : History := [.addFile "m/c.k" (some 0) (Script.step (.require "b.k") .done).build]
    let bound : History → Option FileId := fun h =>
      ((Resolver.mk (after h).index ⟨.moduleWhenRequiredBy, '@'⟩).resolve
        ⟨1, 1, .function "seq"⟩).value.declaration.map (·.file)
    bound h = some 1 ∧ bound (h ++ later) = some 0 := by decide

end Registry

end KNames
