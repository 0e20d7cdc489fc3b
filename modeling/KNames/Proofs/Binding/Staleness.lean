import KNames.Proofs.Binding.Productions
import KNames.Proofs.Frame

set_option autoImplicit false

namespace KNames

namespace Tree

def blank : Tree := Script.done.build

theorem not_requires_blank (path : String) : ¬blank.Requires path := by
  rintro ⟨i, hi, _⟩
  exact absurd hi List.not_mem_nil

theorem node?_blank_succ (i : NodeId) : blank.node? (i + 1) = none :=
  node?_eq_none_iff.mpr (Nat.succ_le_succ (Nat.zero_le i))

end Tree

theorem Declaration.at?_blank (file : FileId) (uri : String) (i : NodeId) (kind : DeclKind) :
    at? ⟨file, uri, Tree.blank⟩ i kind = none := by
  cases i with
  | zero => rfl
  | succ i =>
    unfold at?
    rw [Tree.node?_blank_succ]
    rfl

namespace Registry

open FileTable

variable {r : Registry} {f g : FileId} {kind : DeclKind} {d : Declaration} {path : String}
  {source : Source} {tree first second : Option Tree}

/-- There is no tree, or one that requires and declares nothing. -/
def Idle (tree : Option Tree) : Prop :=
  ∀ t, tree = some t → (∀ path, ¬t.Requires path) ∧
    ∀ file uri i kind, Declaration.at? ⟨file, uri, t⟩ i kind = none

theorem idle_none : Idle none := nofun

theorem idle_blank : Idle (some Tree.blank) := by
  intro t ht
  cases ht
  exact ⟨Tree.not_requires_blank, Declaration.at?_blank⟩

theorem source?_setTree_of_ne (r : Registry) (tree : Option Tree) (hne : f ≠ g) :
    (r.setTree g tree).2.source? f = r.source? f :=
  source?_congr ((getElem?_setTree _ g f tree).trans (if_neg hne.symm))

theorem tree_of_source?_setTree (h : (r.setTree g tree).2.source? g = some source) :
    tree = some source.tree := by
  obtain ⟨entry, hentry, hsource⟩ := Option.bind_eq_some_iff.mp h
  have hset := (getElem?_setTree r.toFileTable g g tree).trans (if_pos rfl)
  obtain ⟨old, _, rfl⟩ := Option.map_eq_some_iff.mp (hset.symm.trans hentry)
  obtain ⟨new, hnew, rfl⟩ := Option.map_eq_some_iff.mp hsource
  exact hnew

theorem not_asks_of_idle (hidle : Idle tree) : ¬(r.setTree g tree).2.Asks g path := by
  rintro ⟨source, hlive, hpath⟩
  exact (hidle _ (tree_of_source?_setTree hlive)).1 path hpath

theorem not_declares_of_idle (hidle : Idle tree) (hd : d.file = g) :
    ¬(r.setTree g tree).2.Declares kind d := by
  subst hd
  rintro ⟨source, hlive, hat⟩
  rw [(hidle _ (tree_of_source?_setTree hlive)).2 source.id source.uri] at hat
  cases hat

theorem asks_iff_of_idle (hfirst : Idle first) (hsecond : Idle second) :
    (r.setTree g second).2.Asks f path ↔ (r.setTree g first).2.Asks f path := by
  by_cases hf : f = g
  · subst hf
    exact iff_of_false (not_asks_of_idle hsecond) (not_asks_of_idle hfirst)
  · unfold Asks
    rw [source?_setTree_of_ne r second hf, source?_setTree_of_ne r first hf]

theorem declares_iff_of_idle (hfirst : Idle first) (hsecond : Idle second) :
    (r.setTree g second).2.Declares kind d ↔ (r.setTree g first).2.Declares kind d := by
  by_cases hd : d.file = g
  · exact iff_of_false (not_declares_of_idle hsecond hd) (not_declares_of_idle hfirst hd)
  · unfold Declares
    rw [source?_setTree_of_ne r second hd, source?_setTree_of_ne r first hd]

theorem sameFrom_of_idle (r : Registry) (hne : f ≠ g) (hfirst : Idle first)
    (hsecond : Idle second) : SameFrom (r.setTree g first).2 (r.setTree g second).2 f where
  source := (source?_setTree_of_ne r second hne).trans (source?_setTree_of_ne r first hne).symm
  group _ := (registered_setTree second).trans (registered_setTree first).symm
  members _ _ _ := (registered_setTree second).trans (registered_setTree first).symm
  asks _ _ _ _ _ := asks_iff_of_idle hfirst hsecond
  declares _ _ _ _ _ := declares_iff_of_idle hfirst hsecond

theorem productions_of_idle (r : Registry) (g : FileId) (hfirst : Idle first)
    (hsecond : Idle second) (name : Option String) :
    Lookup.productions (r.setTree g second).2.index name =
      Lookup.productions (r.setTree g first).2.index name := by
  have hlisted : Declaration.inFiles (r.setTree g second).2.index .production
        ((r.setTree g second).2.filesIn .project) =
      Declaration.inFiles (r.setTree g first).2.index .production
        ((r.setTree g first).2.filesIn .project) := by
    refine (inFiles_pairwise (filesIn_pairwise _ _) _).eq_of_mem_iff
      (inFiles_pairwise (filesIn_pairwise _ _) _) fun d => ?_
    rw [mem_project_iff, mem_project_iff]
    exact declares_iff_of_idle hfirst hsecond
  rw [Lookup.productions_eq_filter, Lookup.productions_eq_filter]
  exact congrArg (List.filter _) hlisted

/-- To every other file, and to a listing of the project, a stale file is like one whose tree holds
nothing; and once it gets its last tree back, everything is as it was. -/
theorem stale_like_blank (r : Registry) (g : FileId) :
    (∀ settings o, o.file ≠ g →
      ((Resolver.mk (r.invalidate g).2.index settings).resolve o).value =
          ((Resolver.mk (r.replaceTree g .blank).2.index settings).resolve o).value ∧
        ((Resolver.mk (r.invalidate g).2.index settings).searchSpace? o).value =
          ((Resolver.mk (r.replaceTree g .blank).2.index settings).searchSpace? o).value) ∧
      (∀ name, Lookup.productions (r.invalidate g).2.index name =
        Lookup.productions (r.replaceTree g .blank).2.index name) ∧
      ∀ source, r.source? g = some source → ∀ settings o,
        (Resolver.mk ((r.invalidate g).2.replaceTree g source.tree).2.index settings).resolve o =
          (Resolver.mk r.index settings).resolve o := by
  refine ⟨?_, productions_of_idle r g idle_blank idle_none, ?_⟩
  · intro settings o hne
    exact (sameFrom_of_idle r hne idle_blank idle_none).resolve_eq settings o.node o.reference
  · intro source hlive settings o
    have hback : ((r.invalidate g).2.replaceTree g source.tree).2 = r :=
      eq_of_toFileTable ((setTree_setTree _ g none (some source.tree)).trans
        (r.sound.setTree_of_source? hlive))
    rw [hback]

/-- The second file of `duo` has the production; without it the first binds to nothing. -/
theorem stale_like_blank_duo : (1 ≠ 0 ∧ duo.source? 1 = some duoSecond) ∧
    ((Resolver.mk (duo.invalidate 1).2.index {}).resolve ⟨0, 1, .function "seq"⟩).value =
      ((Resolver.mk (duo.replaceTree 1 .blank).2.index {}).resolve ⟨0, 1, .function "seq"⟩).value ∧
    ((Resolver.mk (duo.replaceTree 1 .blank).2.index {}).searchSpace?
      ⟨0, 1, .function "seq"⟩).value = some (.moduleFiles 0 [0, 1]) ∧
    ((Resolver.mk ((duo.invalidate 1).2.replaceTree 1 duoSecond.tree).2.index {}).resolve
      ⟨0, 1, .function "seq"⟩).value = .resolved ⟨1, 1, .production, ⟨0, 4⟩, ["seq"]⟩ := by
  have hne : (⟨0, 1, .function "seq"⟩ : Occurrence).file ≠ 1 := by decide
  have hlive : duo.source? 1 = some duoSecond := rfl
  obtain ⟨hsame, _, hback⟩ := stale_like_blank duo 1
  obtain ⟨hresult, hspace⟩ := hsame {} _ hne
  have hrestored := congrArg Traced.value (hback duoSecond hlive {} ⟨0, 1, .function "seq"⟩)
  exact ⟨⟨by decide, hlive⟩, hresult, hspace.symm, hrestored⟩

end Registry

end KNames
