import KNames.Proofs.Binding.Agreement
import KNames.Proofs.Candidates

set_option autoImplicit false

namespace KNames

namespace Candidates

variable {separator : Char} {name written x : String}

theorem mem_single : name ∈ (single x).names ↔ name = x ∧ name ≠ "" := by
  rw [single, mem_ofNames, List.mem_singleton]

theorem names_label_around (hname : separator ∉ name.toList)
    (hwritten : written = name ∨ ∃ suffix, written.toList = name.toList ++ separator :: suffix)
    (quote : Char) :
    (name ≠ "" → name ∈ (label (String.singleton quote ++ written) separator).names) ∧
      ∀ found ∈ (label (String.singleton quote ++ written) separator).names,
        found ∈ [String.singleton quote ++ written, written, name] := by
  have hunquoted : Unquotes (String.singleton quote ++ written) written := .inr ⟨quote, rfl⟩
  constructor
  · intro hne
    refine mem_label.mpr ⟨hne, .inr ?_⟩
    rcases hwritten with rfl | hsuffix
    · exact .inl hunquoted
    · exact .inr ⟨written, hunquoted, shortOf_iff_toList.mpr ⟨hname, hsuffix⟩⟩
  · intro found hfound
    obtain ⟨-, rfl | hfound | ⟨other, hother, hshort⟩⟩ := mem_label.mp hfound
    · exact List.mem_cons_self
    · cases hfound.unique hunquoted
      exact List.mem_cons_of_mem _ List.mem_cons_self
    · cases hother.unique hunquoted
      -- A name without separators has no short form, and one before a separator is the short form.
      rcases hwritten with rfl | hsuffix
      · exact absurd (exists_shortOf_iff.mp ⟨found, hshort⟩) hname
      · cases hshort.unique (shortOf_iff_toList.mpr ⟨hname, hsuffix⟩)
        simp

end Candidates

theorem Kind.declared?_label {kind : Kind} :
    kind.declared? .label = kind.declared? .production := by
  cases kind <;> rfl

/-- In an earlier file, or in the same file and no later. -/
def Declaration.AtMost (e d : Declaration) : Prop :=
  e.file < d.file ∨ (e.file = d.file ∧ e.node ≤ d.node)

theorem Declaration.atMost_of_first {d e : Declaration} (h : d = e ∨ e.Before d) :
    e.AtMost d := by
  rcases h with rfl | hfile | ⟨hfile, hnode⟩
  · exact .inr ⟨rfl, Nat.le_refl _⟩
  · exact .inl hfile
  · exact .inr ⟨hfile, Nat.le_of_lt hnode⟩

namespace Registry

variable {r : Registry} {settings : Settings} {source : Source} {f : FileId}
  {name raw : String} {d e : Declaration}

def Carries (r : Registry) (d : Declaration) (names : List String) : Prop :=
  ∃ source labels, r.source? d.file = some source ∧
    source.tree.kind? d.node = some (.production labels) ∧ ∃ label ∈ labels, label.name ∈ names

theorem Carries.mono {names more : List String} (h : r.Carries d names)
    (hmore : ∀ name ∈ names, name ∈ more) : r.Carries d more := by
  obtain ⟨source, labels, hlive, hkind, label, hlabel, hname⟩ := h
  exact ⟨source, labels, hlive, hkind, label, hlabel, hmore _ hname⟩

theorem Binds.carries (h : r.Binds settings source (.label raw) d) :
    r.Carries d (Candidates.label raw settings.labelSeparator).names := by
  obtain ⟨other, n, hlive, hn, hseeks, -⟩ := h.node
  obtain ⟨found, hfound, hcandidate⟩ := h.named
  generalize hkind : n.kind = kind at hseeks
  generalize hnames : d.names = names at hseeks hfound
  cases hseeks with
  | @label _ labels =>
    obtain ⟨label, hlabel, rfl⟩ := List.mem_map.mp hfound
    exact ⟨other, labels, hlive, by rw [Tree.kind?_of_node? hn, hkind], label, hlabel, hcandidate⟩

theorem Binds.toLabel (h : r.Binds settings source (.function name) d)
    (hname : name ≠ "" → name ∈ (Candidates.label raw settings.labelSeparator).names) :
    r.Binds settings source (.label raw) { d with kind := .label } where
  scope := h.scope
  node := by
    obtain ⟨other, n, hlive, hn, hseeks, hspan⟩ := h.node
    refine ⟨other, n, hlive, hn, ?_, hspan⟩
    rw [Reference.seeks_iff (by simp)] at hseeks ⊢
    exact Kind.declared?_label.trans hseeks
  kind := rfl
  named := by
    obtain ⟨found, hfound, hcandidate⟩ := h.named
    obtain ⟨rfl, hne⟩ := Candidates.mem_single.mp hcandidate
    exact ⟨found, hfound, hname hne⟩

theorem exists_label (h : r.source? f = some source)
    (hname : name ≠ "" → name ∈ (Candidates.label raw settings.labelSeparator).names)
    {node : NodeId} (hbound : ((Resolver.mk r.index settings).resolve
      ⟨f, node, .function name⟩).value.declaration = some d) (other : NodeId) :
    ∃ e, ((Resolver.mk r.index settings).resolve ⟨f, other, .label raw⟩).value.declaration =
        some e ∧ e.AtMost d ∧ r.Carries e (Candidates.label raw settings.labelSeparator).names := by
  have hbinds := ((declaration_eq_some_iff settings h (by simp) node).mp hbound).1
  obtain ⟨e, he, hlabel, hfirst⟩ :=
    exists_declaration_of_binds settings h (by simp) other (hbinds.toLabel hname)
  -- Read as a label, a declaration stays at its place.
  have hatMost := Declaration.atMost_of_first hfirst
  exact ⟨e, he, hatMost, hlabel.carries⟩

/-- What a function finds by a name, a label finds in front of it or at the same place: the name
behind any quote, the name before the separator with any suffix, and any token by itself. What it
finds there has the token, the token without its quote or the name. -/
theorem label_finds_function (settings : Settings) (h : r.source? f = some source)
    (node other : NodeId) :
    let found := fun reference node =>
      ((Resolver.mk r.index settings).resolve ⟨f, node, reference⟩).value.declaration
    let separator := settings.labelSeparator
    (∀ name d, name ≠ "" → separator ∉ name.toList → found (.function name) node = some d →
      ∀ quote suffix, ∀ written ∈ [name, name.push separator, name.push separator ++ suffix],
        ∃ e, found (.label (String.singleton quote ++ written)) other = some e ∧ e.AtMost d ∧
          r.Carries e [String.singleton quote ++ written, written, name]) ∧
    ∀ raw d, found (.function raw) node = some d →
      ∃ e, found (.label raw) other = some e ∧ e.AtMost d := by
  intro found separator
  constructor
  · intro name d hne hname hbound quote suffix written hmem
    have hwritten : written = name ∨
        ∃ after, written.toList = name.toList ++ separator :: after := by
      simp only [List.mem_cons, List.not_mem_nil, or_false] at hmem
      rcases hmem with rfl | rfl | rfl
      · exact .inl rfl
      · exact .inr ⟨[], by simp⟩
      · exact .inr ⟨suffix.toList, by simp⟩
    obtain ⟨hcandidate, hnames⟩ := Candidates.names_label_around hname hwritten quote
    obtain ⟨e, he, hatMost, hcarries⟩ := exists_label h hcandidate hbound other
    exact ⟨e, he, hatMost, hcarries.mono hnames⟩
  · intro raw d hbound
    obtain ⟨e, he, hatMost, -⟩ :=
      exists_label h (fun hne => Candidates.mem_label.mpr ⟨hne, .inl rfl⟩) hbound other
    exact ⟨e, he, hatMost⟩

/-- One production has the token without its quote, and a later one the name before the suffix. -/
def forms : Source :=
  ⟨0, "m/a.k", (Script.step (.production ["seq-A"]) (.step (.production ["seq"]) .done)).build⟩

def formed : Registry := (empty.addFile forms.uri none forms.tree).2

def dashed : Settings := { labelSeparator := '-' }

theorem label_finds_function_forms :
    let found := fun reference node =>
      ((Resolver.mk formed.index dashed).resolve ⟨0, node, reference⟩).value.declaration
    let later : Declaration := ⟨0, 2, .production, ⟨6, 10⟩, ["seq"]⟩
    (formed.source? 0 = some forms ∧ "seq" ≠ "" ∧ dashed.labelSeparator ∉ "seq".toList ∧
        found (.function "seq") 1 = some later) ∧
      (∃ e, found (.label "#seq-A") 0 = some e ∧ e.AtMost later ∧
        formed.Carries e ["#seq-A", "seq-A", "seq"]) ∧
      ∃ e, found (.label "seq") 0 = some e ∧ e.AtMost later := by
  have hlive : formed.source? 0 = some forms := rfl
  have hname : "seq" ≠ "" := by decide
  have hseparator : dashed.labelSeparator ∉ "seq".toList := by decide
  have hbound : ((Resolver.mk formed.index dashed).resolve
    ⟨0, 1, .function "seq"⟩).value.declaration =
      some ⟨0, 2, .production, ⟨6, 10⟩, ["seq"]⟩ := rfl
  obtain ⟨hquoted, hraw⟩ := label_finds_function dashed hlive 1 0
  refine ⟨⟨hlive, hname, hseparator, hbound⟩, ?_, hraw "seq" _ hbound⟩
  exact hquoted "seq" _ hname hseparator hbound '#' "A" "seq-A" (by decide)

end Registry

end KNames
