import KNames.Proofs.Text
import KNames.Proofs.Text.Bytes
import KNames.RequirePath
import Mathlib.Data.List.TakeWhile

set_option autoImplicit false

/-!
# What a `require` path designates

The law that matching obeys is about segments: the segments of the path, once blanks and leading
dots are off, are the last segments of the address. The test works on characters instead, or on
bytes, and looks at one character before the tail. What is taken off is specified by what remains
of it, so that the law can be read without the functions that compute it.
-/
namespace KNames

namespace Text

variable {text t run : List Char}

/-- What is left between the blanks at both ends of a text. -/
structure Trimmed (text t : List Char) : Prop where
  surrounded : ∃ before after, text = before ++ (t ++ after) ∧
    (∀ c ∈ before, isBlank c = true) ∧ ∀ c ∈ after, isBlank c = true
  head : ∀ c ∈ t.head?, isBlank c = false
  last : ∀ c ∈ t.getLast?, isBlank c = false

theorem head_dropWhile_isBlank : ∀ c ∈ (text.dropWhile isBlank).head?, isBlank c = false := by
  intro c hc
  have h := List.head?_dropWhile_not isBlank text
  rw [Option.mem_def.mp hc] at h
  exact h

theorem trimmed_trim (text : List Char) : Trimmed text (trim text) := by
  let late := text.dropWhile isBlank
  have hlate : late = trim text ++ (late.reverse.takeWhile isBlank).reverse := by
    have h : late.reverse.takeWhile isBlank ++ late.reverse.dropWhile isBlank = late.reverse :=
      List.takeWhile_append_dropWhile
    rw [← List.reverse_inj, List.reverse_append, List.reverse_reverse] at h
    exact h.symm
  refine ⟨⟨text.takeWhile isBlank, (late.reverse.takeWhile isBlank).reverse, ?_, ?_, ?_⟩, ?_, ?_⟩
  · rw [← hlate]
    exact List.takeWhile_append_dropWhile.symm
  · exact fun c hc => List.mem_takeWhile_imp hc
  · exact fun c hc => List.mem_takeWhile_imp (List.mem_reverse.mp hc)
  · intro c hc
    have hfirst : c ∈ late.head? := by
      rw [hlate, List.head?_append, Option.mem_def.mp hc]
      rfl
    exact head_dropWhile_isBlank c hfirst
  · intro c hc
    rw [trim, List.getLast?_reverse] at hc
    exact head_dropWhile_isBlank c hc

theorem Trimmed.eq_trim (h : Trimmed text t) : t = trim text := by
  obtain ⟨before, after, rfl, hbefore, hafter⟩ := h.surrounded
  cases t with
  | nil =>
    -- All is blank, and the first pass takes all of it.
    have hall : ∀ c ∈ before ++ ([] ++ after), isBlank c = true := by
      intro c hc
      exact (List.mem_append.mp hc).elim (hbefore c) (hafter c)
    rw [trim, List.dropWhile_eq_nil_iff.mpr hall]
    rfl
  | cons c t =>
    have hfirst : ∀ d ∈ (c :: t ++ after).head?, isBlank d = false := h.head
    have hlast : ∀ d ∈ (c :: t).reverse.head?, isBlank d = false := by
      rw [List.head?_reverse]
      exact h.last
    have hrest : ∀ d ∈ after.reverse, isBlank d = true :=
      fun d hd => hafter d (List.mem_reverse.mp hd)
    rw [trim, dropWhile_append_stop hbefore hfirst, List.reverse_append,
      dropWhile_append_stop hrest hlast, List.reverse_reverse]

theorem Trimmed.exists_after (h : Trimmed text t) (hhead : ∀ c ∈ text.head?, isBlank c = false) :
    ∃ after, text = t ++ after ∧ ∀ c ∈ after, isBlank c = true := by
  obtain ⟨before, after, rfl, hbefore, hafter⟩ := h.surrounded
  cases before with
  | nil => exact ⟨after, rfl, hafter⟩
  | cons b before =>
    have hblank := hbefore b List.mem_cons_self
    rw [hhead b rfl] at hblank
    cases hblank

theorem Trimmed.append_front (h : Trimmed text t) (hhead : ∀ c ∈ text.head?, isBlank c = false)
    (hfirst : ∀ c ∈ run.head?, isBlank c = false) (hlast : ∀ c ∈ run.getLast?, isBlank c = false) :
    Trimmed (run ++ text) (run ++ t) := by
  obtain ⟨after, rfl, hafter⟩ := h.exists_after hhead
  refine ⟨⟨[], after, (List.append_assoc run t after).symm, by simp, hafter⟩, ?_, ?_⟩
  · intro c hc
    rw [List.head?_append, Option.mem_def, Option.or_eq_some_iff] at hc
    exact hc.elim (hfirst c) fun hc => h.head c hc.2
  · intro c hc
    rw [List.getLast?_append, Option.mem_def, Option.or_eq_some_iff] at hc
    exact hc.elim (h.last c) fun hc => hlast c hc.2

end Text

namespace RequirePath

variable {dots more rest t q tail front address : List Char} {path uri outer : String}

/-- A run of segments that only say where to start from. -/
inductive Dots : List Char → Prop
  | nil : Dots []
  | here {rest : List Char} : Dots rest → Dots ('.' :: '/' :: rest)
  | up {rest : List Char} : Dots rest → Dots ('.' :: '.' :: '/' :: rest)

def Undotted (t q : List Char) : Prop :=
  ∃ dots, Dots dots ∧ t = dots ++ q ∧
    ∀ more rest, Dots more → t = more ++ rest → more.length ≤ dots.length

theorem dropDots_append (h : Dots dots) : dropDots (dots ++ q) = dropDots q := by
  induction h with
  | nil => rfl
  | here _ ih => exact ih
  | up _ ih => exact ih

theorem exists_dots (t : List Char) : ∃ dots, Dots dots ∧ t = dots ++ dropDots t := by
  induction t using dropDots.induct with
  | case1 rest ih =>
    obtain ⟨dots, hdots, heq⟩ := ih
    exact ⟨_, .here hdots, congrArg ('.' :: '/' :: ·) heq⟩
  | case2 rest ih =>
    obtain ⟨dots, hdots, heq⟩ := ih
    exact ⟨_, .up hdots, congrArg ('.' :: '.' :: '/' :: ·) heq⟩
  | case3 rest hhere hup => exact ⟨[], .nil, (dropDots.eq_3 rest hhere hup).symm⟩

theorem length_dropDots_le (h : Dots more) : (dropDots (more ++ rest)).length ≤ rest.length := by
  obtain ⟨dots, -, heq⟩ := exists_dots rest
  have hlength := congrArg List.length heq
  rw [List.length_append] at hlength
  rw [dropDots_append h]
  omega

theorem undotted_iff : Undotted t q ↔ q = dropDots t := by
  obtain ⟨dots, hdots, heq⟩ := exists_dots t
  constructor
  · rintro ⟨longest, hdots', hsplit, hlongest⟩
    have hle := hlongest dots _ hdots heq
    have hleast : (dropDots t).length ≤ q.length := by
      rw [hsplit]
      exact length_dropDots_le hdots'
    have hlength := congrArg List.length (heq.symm.trans hsplit)
    simp only [List.length_append] at hlength
    exact List.append_inj_right' (hsplit.symm.trans heq) (by omega)
  · rintro rfl
    refine ⟨dots, hdots, heq, fun more rest hmore ht => ?_⟩
    have hleast : (dropDots t).length ≤ rest.length := by
      rw [ht]
      exact length_dropDots_le hmore
    have hlength := congrArg List.length (heq.symm.trans ht)
    simp only [List.length_append] at hlength
    omega

theorem Dots.head (h : Dots dots) : ∀ c ∈ dots.head?, Text.isBlank c = false := by
  cases h <;> simp <;> decide

theorem Dots.last (h : Dots dots) : ∀ c ∈ dots.getLast?, Text.isBlank c = false := by
  induction h with
  | nil => simp
  | @here rest _ ih => cases rest with
    | nil => simp; decide
    | cons c rest => simpa [List.getLast?_cons_cons] using ih
  | @up rest _ ih => cases rest with
    | nil => simp; decide
    | cons c rest => simpa [List.getLast?_cons_cons] using ih

/-- What a path names once the blanks around it and the dots before it are off. -/
def IsCore (text q : List Char) : Prop := ∃ t, Text.Trimmed text t ∧ Undotted t q

theorem isCore_iff : IsCore path.toList q ↔ q = core path := by
  constructor
  · rintro ⟨t, ht, hq⟩
    rw [undotted_iff.mp hq, ht.eq_trim]
    rfl
  · rintro rfl
    exact ⟨_, Text.trimmed_trim _, undotted_iff.mpr rfl⟩

theorem core_dots_append (hdots : Dots dots)
    (hpath : ∀ c ∈ path.toList.head?, Text.isBlank c = false) :
    core (String.ofList dots ++ path) = core path := by
  have htrim := (Text.trimmed_trim path.toList).append_front hpath hdots.head hdots.last
  rw [core, String.toList_append, String.toList_ofList, ← htrim.eq_trim, dropDots_append hdots]
  rfl

theorem isSegmentTail_append (htail : tail ≠ []) :
    isSegmentTail tail (front ++ tail) = front.getLast?.elim true (· == '/') := by
  rw [isSegmentTail, List.isEmpty_eq_false_iff.mpr htail,
    List.isSuffixOf_iff_suffix.mpr (List.suffix_append front tail), List.length_append,
    Nat.add_sub_cancel_right, List.take_left]
  rfl

theorem exists_append_of_isSegmentTail (h : isSegmentTail tail address = true) :
    tail ≠ [] ∧ ∃ front, address = front ++ tail := by
  simp only [isSegmentTail, Bool.and_eq_true, List.isSuffixOf_iff_suffix] at h
  obtain ⟨⟨hempty, front, heq⟩, -⟩ := h
  exact ⟨by simpa using hempty, front, heq.symm⟩

theorem isSegmentTail_iff : isSegmentTail tail address = true ↔
    tail ≠ [] ∧ (address = tail ∨ ∃ front, address = front ++ '/' :: tail) := by
  constructor
  · intro h
    obtain ⟨htail, front, rfl⟩ := exists_append_of_isSegmentTail h
    rw [isSegmentTail_append htail] at h
    refine ⟨htail, ?_⟩
    cases hlast : front.getLast? with
    | none => exact .inl (by rw [List.getLast?_eq_none_iff.mp hlast, List.nil_append])
    | some c =>
      obtain ⟨start, rfl⟩ := List.getLast?_eq_some_iff.mp hlast
      rw [hlast] at h
      cases beq_iff_eq.mp h
      exact .inr ⟨start, List.append_assoc start _ tail⟩
  · rintro ⟨htail, rfl | ⟨front, rfl⟩⟩
    · change isSegmentTail address ([] ++ address) = true
      exact isSegmentTail_append htail
    · rw [List.append_cons, isSegmentTail_append htail, List.getLast?_concat]
      rfl

theorem intercalate_append {earlier later : List (List Char)} (hearlier : earlier ≠ [])
    (hlater : later ≠ []) : ['/'].intercalate (earlier ++ later) =
      ['/'].intercalate earlier ++ '/' :: ['/'].intercalate later := by
  induction earlier with
  | nil => exact (hearlier rfl).elim
  | cons segment earlier ih =>
    cases earlier with
    | nil => simp [List.intercalate_cons_of_ne_nil hlater]
    | cons next earlier => simpa using ih (List.cons_ne_nil next earlier)

theorem splitOn_suffix_iff : tail.splitOn '/' <:+ address.splitOn '/' ↔
    address = tail ∨ ∃ front, address = front ++ '/' :: tail := by
  constructor
  · rintro ⟨earlier, heq⟩
    have hjoin := congrArg ['/'].intercalate heq
    rw [List.intercalate_splitOn] at hjoin
    by_cases hearlier : earlier = []
    · rw [hearlier, List.nil_append, List.intercalate_splitOn] at hjoin
      exact .inl hjoin.symm
    · rw [intercalate_append hearlier (List.splitOn_ne_nil '/' tail),
        List.intercalate_splitOn] at hjoin
      exact .inr ⟨_, hjoin.symm⟩
  · rintro (rfl | ⟨front, rfl⟩)
    · exact List.suffix_rfl
    · rw [List.splitOn_append_cons_self]
      exact List.suffix_append _ _

/-- The text before a byte position; inside a character there is none. -/
def before? (text : String) (position : Nat) : Option String :=
  String.fromUTF8? (text.toByteArray.extract 0 position)

/-- The test as it runs on bytes, with no answer where the address would be cut inside a
character. -/
def testBytes? (tail uri : String) : Option Bool :=
  if tail.isEmpty || !tail.toByteArray.data.toList.isSuffixOf uri.toByteArray.data.toList then
    some false
  else
    (before? uri (uri.utf8ByteSize - tail.utf8ByteSize)).map fun front =>
      front.isEmpty || front.toList.getLast? == some '/'

theorem before?_append (front tail : String) :
    before? (front ++ tail) ((front ++ tail).utf8ByteSize - tail.utf8ByteSize) = some front := by
  have hcut : (front ++ tail).toByteArray.extract 0
      ((front ++ tail).utf8ByteSize - tail.utf8ByteSize) = front.toByteArray := by
    rw [String.utf8ByteSize_append, Nat.add_sub_cancel_right, String.toByteArray_append]
    exact ByteArray.extract_append_eq_left rfl
  rw [before?, hcut]
  exact Text.fromUTF8?_toByteArray front

theorem exists_append_of_bytes {tail uri : String} {bytes : ByteArray} (htail : tail ≠ "")
    (h : uri.toByteArray = bytes ++ tail.toByteArray) : ∃ front, uri = front ++ tail := by
  rw [← ByteArray.append_empty (b := tail.toByteArray)] at h
  obtain ⟨front, back, rfl, -, hback⟩ := Text.exists_cut_of_bytes htail h
  rw [ByteArray.append_empty, String.toByteArray_inj] at hback
  exact ⟨front, by rw [hback]⟩

theorem bytes_suffix_iff {tail uri : String} (htail : tail ≠ "") :
    tail.toByteArray.data.toList <:+ uri.toByteArray.data.toList ↔
      ∃ front, uri = front ++ tail := by
  constructor
  · rintro ⟨bytes, heq⟩
    have hbytes : uri.toByteArray = bytes.toByteArray ++ tail.toByteArray := by
      ext1
      apply Array.toList_inj.mp
      rw [ByteArray.toList_data_append, ← heq, List.data_toByteArray, List.toList_toArray]
    exact exists_append_of_bytes htail hbytes
  · rintro ⟨front, rfl⟩
    rw [String.toByteArray_append]
    exact ⟨front.toByteArray.data.toList, ByteArray.toList_data_append.symm⟩

theorem testBytes?_eq (tail uri : String) :
    testBytes? tail uri = some (isSegmentTail tail.toList uri.toList) := by
  by_cases htail : tail = ""
  · subst htail
    rfl
  have hempty : tail.isEmpty = false := by simpa using htail
  have hlist : tail.toList ≠ [] := by simpa using htail
  by_cases hsuffix : ∃ front, uri = front ++ tail
  · obtain ⟨front, rfl⟩ := hsuffix
    have hbytes := List.isSuffixOf_iff_suffix.mpr ((bytes_suffix_iff htail).mpr ⟨front, rfl⟩)
    rw [testBytes?, hempty, hbytes, before?_append, String.toList_append,
      isSegmentTail_append hlist]
    by_cases hfront : front = ""
    · subst hfront
      rfl
    · have hlast : front.toList.getLast? ≠ none := by simpa using hfront
      obtain ⟨c, hc⟩ := Option.ne_none_iff_exists'.mp hlast
      simp [hfront, hc]
  · have hbytes : tail.toByteArray.data.toList.isSuffixOf uri.toByteArray.data.toList = false :=
      Bool.eq_false_iff.mpr fun h =>
        hsuffix ((bytes_suffix_iff htail).mp (List.isSuffixOf_iff_suffix.mp h))
    have htest : isSegmentTail tail.toList uri.toList = false := by
      refine Bool.eq_false_iff.mpr fun h => ?_
      obtain ⟨-, front, heq⟩ := exists_append_of_isSegmentTail h
      exact hsuffix ⟨String.ofList front, String.toList_inj.mp (by simpa using heq)⟩
    rw [testBytes?, hempty, hbytes, htest]
    rfl

theorem designates_append (hfront : outer.toList.getLast? = some '/')
    (h : designates path uri = true) : designates path (outer ++ uri) = true := by
  obtain ⟨start, hstart⟩ := List.getLast?_eq_some_iff.mp hfront
  obtain ⟨hcore, htail⟩ := isSegmentTail_iff.mp h
  refine isSegmentTail_iff.mpr ⟨hcore, .inr ?_⟩
  rw [String.toList_append, hstart]
  rcases htail with heq | ⟨front, heq⟩
  · exact ⟨start, by rw [heq, List.append_assoc, List.singleton_append]⟩
  · exact ⟨start ++ '/' :: front, by simp [heq]⟩

/-- The segments of what a path names are the last segments of the address, and the test on bytes
gives the same answer without ever cutting a character. Dots before the path and whole segments
before the address do not take a match away. -/
theorem designates_segments (path uri : String) : ∃ q, (∀ q', IsCore path.toList q' ↔ q' = q) ∧
    (designates path uri = true ↔ q ≠ [] ∧ q.splitOn '/' <:+ uri.toList.splitOn '/') ∧
    testBytes? (String.ofList q) uri = some (designates path uri) ∧
    (∀ dots, Dots dots → (∀ c ∈ path.toList.head?, Text.isBlank c = false) →
      designates (String.ofList dots ++ path) uri = designates path uri) ∧
    ∀ front : String, front.toList.getLast? = some '/' → designates path uri = true →
      designates path (front ++ uri) = true := by
  refine ⟨core path, fun q' => isCore_iff, ?_, ?_, ?_, ?_⟩
  · rw [splitOn_suffix_iff]
    exact isSegmentTail_iff
  · rw [testBytes?_eq, String.toList_ofList]
    rfl
  · intro dots hdots hpath
    rw [designates, core_dots_append hdots hpath]
    rfl
  · exact fun front hfront h => designates_append hfront h

theorem designates_segments_dotted :
    (∃ q, IsCore "../lang/é.k ".toList q ∧ q.splitOn '/' <:+ "proj/lang/é.k".toList.splitOn '/') ∧
    designates "./../../lang/é.k " "proj/lang/é.k" = true ∧
    designates "../lang/é.k " "home/proj/lang/é.k" = true := by
  obtain ⟨q, hcore, hsegments, -, hdots, hfront⟩ :=
    designates_segments "../lang/é.k " "proj/lang/é.k"
  have hmatch : designates "../lang/é.k " "proj/lang/é.k" = true := by decide
  have hhead : ∀ c ∈ "../lang/é.k ".toList.head?, Text.isBlank c = false := by
    intro c hc
    cases hc
    decide
  refine ⟨⟨q, (hcore q).mpr rfl, (hsegments.mp hmatch).2⟩, ?_, ?_⟩
  · exact (hdots "./../".toList (.here (.up .nil)) hhead).trans hmatch
  · exact hfront "home/" (by decide) hmatch

end RequirePath

end KNames
