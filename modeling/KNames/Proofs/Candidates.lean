import KNames.Candidates
import KNames.Proofs.Text
import KNames.Proofs.Text.Bytes
import Mathlib.Data.List.Nodup

set_option autoImplicit false

namespace KNames.Candidates

variable {separator : Char} {token part : List Char} {names : List String}
  {name raw text unquoted short : String}

theorem mem_ofNames : name ∈ (ofNames names).names ↔ name ∈ names ∧ name ≠ "" := by
  simp [ofNames]

theorem short?_append (h : separator ∉ part) (suffix : List Char) :
    short? separator (part ++ separator :: suffix) = some part := by
  have hrun : ∀ c ∈ part, decide (c ≠ separator) = true :=
    fun c hc => decide_eq_true (ne_of_mem_of_not_mem hc h)
  rw [short?, if_pos (by simp), Text.takeWhile_append_stop hrun (by simp)]

theorem short?_eq_some_iff : short? separator token = some part ↔
    separator ∉ part ∧ ∃ suffix, token = part ++ separator :: suffix := by
  constructor
  · intro h
    have hmem : separator ∈ token := by
      by_contra hnone
      rw [short?, if_neg hnone] at h
      cases h
    obtain ⟨before, suffix, rfl, hbefore⟩ := List.eq_append_cons_of_mem hmem
    rw [short?_append hbefore] at h
    cases h
    exact ⟨hbefore, suffix, rfl⟩
  · rintro ⟨hpart, suffix, rfl⟩
    exact short?_append hpart suffix

/-- The token without its first character; nothing is left of an empty one. -/
def Unquotes (raw unquoted : String) : Prop :=
  (raw = "" ∧ unquoted = "") ∨ ∃ quote, raw = String.singleton quote ++ unquoted

def ShortOf (separator : Char) (text short : String) : Prop :=
  separator ∉ short.toList ∧ ∃ suffix, text = short ++ (String.singleton separator ++ suffix)

theorem unquotes_iff : Unquotes raw unquoted ↔ unquoted = String.ofList raw.toList.tail := by
  constructor
  · rintro (⟨rfl, rfl⟩ | ⟨quote, rfl⟩)
    · rfl
    · simp
  · rintro rfl
    cases hraw : raw.toList with
    | nil => exact .inl ⟨String.toList_eq_nil_iff.mp hraw, rfl⟩
    | cons quote unquoted =>
      refine .inr ⟨quote, ?_⟩
      rw [← String.toList_inj, hraw]
      simp

theorem Unquotes.unique {other : String} (h : Unquotes raw unquoted) (ho : Unquotes raw other) :
    unquoted = other :=
  (unquotes_iff.mp h).trans (unquotes_iff.mp ho).symm

theorem shortOf_iff_toList : ShortOf separator text short ↔ separator ∉ short.toList ∧
    ∃ suffix, text.toList = short.toList ++ separator :: suffix := by
  refine and_congr_right fun _ => ?_
  constructor
  · rintro ⟨suffix, rfl⟩
    exact ⟨suffix.toList, by simp⟩
  · rintro ⟨suffix, heq⟩
    exact ⟨String.ofList suffix, by rw [← String.toList_inj, heq]; simp⟩

theorem shortOf_iff : ShortOf separator text short ↔
    (short? separator text.toList).map String.ofList = some short := by
  rw [shortOf_iff_toList, ← short?_eq_some_iff, Option.map_eq_some_iff]
  constructor
  · intro h
    exact ⟨short.toList, h, String.ofList_toList⟩
  · rintro ⟨part, hpart, rfl⟩
    rw [hpart, String.toList_ofList]

theorem ShortOf.unique {other : String} (h : ShortOf separator text short)
    (ho : ShortOf separator text other) : short = other :=
  Option.some.inj ((shortOf_iff.mp h).symm.trans (shortOf_iff.mp ho))

theorem exists_shortOf_iff : (∃ short, ShortOf separator text short) ↔
    separator ∈ text.toList := by
  constructor
  · rintro ⟨short, -, suffix, rfl⟩
    simp
  · intro h
    obtain ⟨before, suffix, hsplit, hbefore⟩ := List.eq_append_cons_of_mem h
    exact ⟨_, shortOf_iff.mpr (by rw [hsplit, short?_append hbefore, Option.map_some])⟩

theorem mem_label : name ∈ (label raw separator).names ↔ name ≠ "" ∧
    (name = raw ∨ Unquotes raw name ∨
      ∃ unquoted, Unquotes raw unquoted ∧ ShortOf separator unquoted name) := by
  have hshort : name ∈ ((short? separator raw.toList.tail).map String.ofList).toList ↔
      ∃ unquoted, Unquotes raw unquoted ∧ ShortOf separator unquoted name := by
    simp only [unquotes_iff, exists_eq_left, shortOf_iff, String.toList_ofList, Option.mem_toList]
  rw [label, mem_ofNames, List.mem_cons, List.mem_cons, hshort, ← unquotes_iff, and_comm]

/-- In characters and in bytes. -/
def Shorter (short text : String) : Prop :=
  short.length < text.length ∧ short.utf8ByteSize < text.utf8ByteSize

theorem Shorter.trans {longer : String} (h : Shorter short text) (hlonger : Shorter text longer) :
    Shorter short longer :=
  ⟨Nat.lt_trans h.1 hlonger.1, Nat.lt_trans h.2 hlonger.2⟩

theorem shorter_append {part other : String} (h : other ≠ "") :
    Shorter part (part ++ other) ∧ Shorter part (other ++ part) := by
  have hlength : other.length ≠ 0 := fun hzero => h (String.length_eq_zero_iff.mp hzero)
  have hsize : other.utf8ByteSize ≠ 0 := fun hzero => h (String.utf8ByteSize_eq_zero_iff.mp hzero)
  simp only [Shorter, String.length_append, String.utf8ByteSize_append]
  omega

theorem Unquotes.shorter (h : Unquotes raw unquoted) (hraw : raw ≠ "") : Shorter unquoted raw := by
  obtain ⟨rfl, -⟩ | ⟨quote, rfl⟩ := h
  · exact absurd rfl hraw
  · exact (shorter_append (by simp)).2

theorem ShortOf.shorter (h : ShortOf separator text short) : Shorter short text := by
  obtain ⟨-, suffix, rfl⟩ := h
  exact (shorter_append (by simp)).1

theorem label_eq_ofNames (hunquoted : Unquotes raw unquoted) {short : Option String}
    (hshort : ∀ s, ShortOf separator unquoted s ↔ short = some s) :
    label raw separator = ofNames (raw :: unquoted :: short.toList) := by
  have hsame : (short? separator unquoted.toList).map String.ofList = short := by
    refine Option.ext fun s => ?_
    rw [← shortOf_iff, hshort]
  rw [← hsame, unquotes_iff.mp hunquoted, String.toList_ofList, label]

theorem label_empty (separator : Char) : label "" separator = empty := by
  simp [label, ofNames, short?, empty]

theorem label_pairwise (hunquoted : Unquotes raw unquoted) {short : Option String}
    (hshort : ∀ s, ShortOf separator unquoted s ↔ short = some s) :
    (label raw separator).names.Pairwise fun text short => Shorter short text := by
  by_cases hraw : raw = ""
  · rw [hraw, label_empty]
    exact List.Pairwise.nil
  · have hfirst := hunquoted.shorter hraw
    rw [label_eq_ofNames hunquoted hshort]
    refine List.Pairwise.filter _ ?_
    cases short with
    | none => simpa using hfirst
    | some s =>
      have hsecond := ((hshort s).mpr rfl).shorter
      simpa using ⟨⟨hfirst, hsecond.trans hfirst⟩, hsecond⟩

/-- The short form, cut where the bytes of the separator stand first. -/
def shortBytes? (separator : Char) (text : String) : Option (Option String) :=
  match Text.bytePosition? text separator with
  | none => some none
  | some position => (Text.halves? text position).map fun halves => some halves.1

/-- The label when its token is cut at byte positions. There is none if one of these is inside a
character. -/
def labelBytes? (raw : String) (separator : Char) : Option Candidates :=
  match raw.toList.head? with
  | none => some (ofNames [raw])
  | some quote =>
    (Text.halves? raw quote.utf8Size).bind fun halves =>
      (shortBytes? separator halves.2).map fun short =>
        ofNames (raw :: halves.2 :: short.toList)

theorem shortBytes?_eq {short : Option String}
    (hshort : ∀ s, ShortOf separator text s ↔ short = some s) :
    shortBytes? separator text = some short := by
  cases short with
  | none =>
    have hnone : separator ∉ text.toList := by
      rw [← exists_shortOf_iff]
      rintro ⟨s, hs⟩
      cases (hshort s).mp hs
    rw [shortBytes?, Text.bytePosition?_of_not_mem hnone]
  | some s =>
    obtain ⟨hnone, suffix, rfl⟩ := (hshort s).mpr rfl
    simp only [shortBytes?, Text.bytePosition?_append hnone, Text.halves?_append, Option.map_some]

theorem labelBytes?_eq (hunquoted : Unquotes raw unquoted) {short : Option String}
    (hshort : ∀ s, ShortOf separator unquoted s ↔ short = some s) :
    labelBytes? raw separator = some (label raw separator) := by
  rw [label_eq_ofNames hunquoted hshort]
  obtain ⟨rfl, rfl⟩ | ⟨quote, rfl⟩ := hunquoted
  · rw [← label_eq_ofNames (.inl ⟨rfl, rfl⟩) hshort, label_empty]
    rfl
  · have hhead : (String.singleton quote ++ unquoted).toList.head? = some quote := by simp
    have hcut := Text.halves?_append (String.singleton quote) unquoted
    rw [String.utf8ByteSize_singleton] at hcut
    simp only [labelBytes?, hhead, hcut, Option.bind_some, shortBytes?_eq hshort, Option.map_some]

/-- The names of a label token are its forms, each once, in order of length and none of them empty,
and cutting at bytes gives the same. A name between a quote and a separator is the last of three. -/
theorem label_forms (separator : Char) :
    (∀ raw, ∃ unquoted short, (∀ u, Unquotes raw u ↔ u = unquoted) ∧
      (∀ s, ShortOf separator unquoted s ↔ short = some s) ∧
      (short.isSome = true ↔ separator ∈ unquoted.toList) ∧
      (label raw separator).names = (raw :: unquoted :: short.toList).filter (· ≠ "") ∧
      (label raw separator).names.Pairwise (fun text short => Shorter short text) ∧
      (label raw separator).names.Nodup ∧ (label raw separator).size ≤ 3 ∧
      "" ∉ (label raw separator).names ∧
      (∀ declared, (label raw separator).matchesAny declared = true ↔
        ∃ name ∈ declared, name ≠ "" ∧ (name = raw ∨ name = unquoted ∨ short = some name)) ∧
      labelBytes? raw separator = some (label raw separator)) ∧
    ∀ quote name suffix, name ≠ "" → separator ∉ name.toList →
      let unquoted := name ++ (String.singleton separator ++ suffix)
      (label (String.singleton quote ++ unquoted) separator).names =
        [String.singleton quote ++ unquoted, unquoted, name] := by
  constructor
  · intro raw
    let unquoted := String.ofList raw.toList.tail
    let short := (short? separator unquoted.toList).map String.ofList
    have hunquotes : ∀ u, Unquotes raw u ↔ u = unquoted := fun u => unquotes_iff
    have hunquoted := (hunquotes unquoted).mpr rfl
    have hshort : ∀ s, ShortOf separator unquoted s ↔ short = some s := fun s => shortOf_iff
    have hforms := label_eq_ofNames hunquoted hshort
    have hpairwise := label_pairwise hunquoted hshort
    refine ⟨unquoted, short, hunquotes, hshort, ?_, congrArg names hforms, hpairwise, ?_, ?_, ?_,
      ?_, labelBytes?_eq hunquoted hshort⟩
    · rw [← exists_shortOf_iff, Option.isSome_iff_exists]
      exact exists_congr fun s => (hshort s).symm
    · refine hpairwise.imp ?_
      rintro text _ hshorter rfl
      exact Nat.lt_irrefl _ hshorter.1
    · rw [hforms]
      have hthree : (raw :: unquoted :: short.toList).length ≤ 3 := by cases short <;> simp
      exact Nat.le_trans (List.length_filter_le _ _) hthree
    · intro hempty
      exact (mem_label.mp hempty).1 rfl
    · intro declared
      rw [matchesAny_iff, hforms]
      simp only [mem_ofNames, List.mem_cons, Option.mem_toList, and_comm]
  · intro quote name suffix hname hseparator unquoted
    have hfirst : ShortOf separator unquoted name := ⟨hseparator, suffix, rfl⟩
    have hshort : ∀ s, ShortOf separator unquoted s ↔ some name = some s := by
      intro s
      rw [Option.some_inj]
      constructor
      · exact hfirst.unique
      · rintro rfl
        exact hfirst
    rw [label_eq_ofNames (.inr ⟨quote, rfl⟩) hshort, ofNames, List.filter_eq_self.mpr]
    · rfl
    · simp [unquoted, hname]

theorem label_forms_accented : "é" ≠ "" ∧ '-' ∉ "é".toList ∧
    (label "«é-A" '-').names = ["«é-A", "é-A", "é"] := by
  have hname : "é" ≠ "" := by decide
  have hseparator : '-' ∉ "é".toList := by decide
  exact ⟨hname, hseparator, (label_forms '-').2 '«' "é" "A" hname hseparator⟩

end KNames.Candidates
