set_option autoImplicit false

namespace KNames.Text

variable {text tail front back : String} {bytes rest : ByteArray} {c : Char} {position : Nat}

/-- The parts of a text before and behind a byte position; inside a character there are none. -/
def halves? (text : String) (position : Nat) : Option (String × String) := do
  let front ← String.fromUTF8? (text.toByteArray.extract 0 position)
  let back ← String.fromUTF8? (text.toByteArray.extract position text.utf8ByteSize)
  some (front, back)

def bytePosition? (text : String) (c : Char) : Option Nat :=
  (List.range text.utf8ByteSize).find? fun position =>
    (String.utf8EncodeChar c).isPrefixOf (text.toByteArray.data.toList.drop position)

theorem fromUTF8?_toByteArray (text : String) : String.fromUTF8? text.toByteArray = some text :=
  dif_pos text.isValidUTF8

theorem halves?_append (front back : String) :
    halves? (front ++ back) front.utf8ByteSize = some (front, back) := by
  have hfront : (front ++ back).toByteArray.extract 0 front.utf8ByteSize = front.toByteArray := by
    rw [String.toByteArray_append]
    exact ByteArray.extract_append_eq_left rfl
  have hback : (front ++ back).toByteArray.extract front.utf8ByteSize
      (front ++ back).utf8ByteSize = back.toByteArray := by
    rw [String.toByteArray_append, String.utf8ByteSize_append]
    exact ByteArray.extract_append_eq_right rfl rfl
  rw [halves?, hfront, hback, fromUTF8?_toByteArray, fromUTF8?_toByteArray]
  rfl

theorem exists_cut_of_bytes (htail : tail ≠ "")
    (h : text.toByteArray = bytes ++ (tail.toByteArray ++ rest)) :
    ∃ front back, text = front ++ back ∧ front.toByteArray = bytes ∧
      back.toByteArray = tail.toByteArray ++ rest := by
  have hpos : 0 < tail.toByteArray.size := by
    rw [String.size_toByteArray]
    exact Nat.pos_of_ne_zero fun hzero => htail (String.utf8ByteSize_eq_zero_iff.mp hzero)
  have hsize : text.utf8ByteSize = bytes.size + (tail.toByteArray.size + rest.size) := by
    rw [← String.size_toByteArray, h, ByteArray.size_append, ByteArray.size_append]
  have hvalid : (⟨bytes.size⟩ : String.Pos.Raw).IsValid text := by
    refine String.Pos.Raw.isValid_iff_isUTF8FirstByte.mpr (.inr ⟨?_, ?_⟩)
    · change bytes.size < text.utf8ByteSize
      omega
    · -- The byte behind the cut begins `tail`, so no character goes across it.
      have hbyte := tail.isValidUTF8.isUTF8FirstByte_getElem_zero hpos
      simp only [String.getUTF8Byte, h]
      rw [ByteArray.getElem_append_right (Nat.le_refl _)]
      simpa [ByteArray.getElem_append_left hpos] using hbyte
  obtain ⟨front, back, rfl, hfront⟩ := String.Pos.Raw.isValid_iff_exists_append.mp hvalid
  rw [String.toByteArray_append] at h
  have hsame : front.toByteArray = bytes := by
    refine ByteArray.append_inj_left h ?_
    rw [String.size_toByteArray, ← String.byteIdx_rawEndPos, ← hfront]
  rw [hsame, ByteArray.append_right_inj] at h
  exact ⟨front, back, rfl, hsame, h⟩

theorem exists_singleton_append_of_bytes
    (h : text.toByteArray = (String.singleton c).toByteArray ++ rest) :
    ∃ back, text = String.singleton c ++ back := by
  have hdecode : text.toByteArray.utf8DecodeChar? 0 = some c := by
    rw [h, String.toByteArray_singleton, List.utf8Encode_singleton]
    exact ByteArray.utf8DecodeChar?_utf8EncodeChar_append
  cases hlist : text.toList with
  | nil =>
    rw [String.toList_eq_nil_iff.mp hlist] at hdecode
    cases hdecode
  | cons d later =>
    have htext : text = String.ofList (d :: later) := by rw [← hlist, String.ofList_toList]
    rw [htext, String.toByteArray_ofList, List.utf8DecodeChar?_utf8Encode_cons] at hdecode
    cases hdecode
    exact ⟨String.ofList later, by rw [htext, String.ofList_cons]⟩

theorem bytes_singleton (c : Char) :
    (String.singleton c).toByteArray.data.toList = String.utf8EncodeChar c := by
  rw [String.toByteArray_singleton, List.utf8Encode_singleton, List.data_toByteArray,
    List.toList_toArray]

theorem bytes_at_iff (hposition : position < text.utf8ByteSize) :
    (String.utf8EncodeChar c).isPrefixOf (text.toByteArray.data.toList.drop position) = true ↔
      ∃ front back, text = front ++ (String.singleton c ++ back) ∧
        front.utf8ByteSize = position := by
  rw [List.isPrefixOf_iff_prefix, ← bytes_singleton]
  constructor
  · rintro ⟨rest, hrest⟩
    let before := text.toByteArray.data.toList.take position
    have hbytes : text.toByteArray = before.toByteArray ++
        ((String.singleton c).toByteArray ++ rest.toByteArray) := by
      apply ByteArray.ext
      apply Array.toList_inj.mp
      rw [ByteArray.toList_data_append, ByteArray.toList_data_append, List.data_toByteArray,
        List.data_toByteArray, List.toList_toArray, List.toList_toArray, hrest,
        List.take_append_drop]
    obtain ⟨front, back, rfl, hfront, hback⟩ := exists_cut_of_bytes (by simp) hbytes
    obtain ⟨back, rfl⟩ := exists_singleton_append_of_bytes hback
    refine ⟨front, back, rfl, ?_⟩
    rw [← String.size_toByteArray, hfront, List.size_toByteArray, List.length_take,
      Array.length_toList, ByteArray.size_data, String.size_toByteArray]
    omega
  · rintro ⟨front, back, rfl, rfl⟩
    have hlength : front.toByteArray.data.toList.length = front.utf8ByteSize := by
      rw [Array.length_toList, ByteArray.size_data, String.size_toByteArray]
    rw [String.toByteArray_append, ByteArray.toList_data_append, ← hlength, List.drop_left,
      String.toByteArray_append, ByteArray.toList_data_append]
    exact List.prefix_append _ _

theorem mem_of_append_eq {before behind : String}
    (h : before ++ (String.singleton c ++ behind) = front ++ back)
    (hlt : before.utf8ByteSize < front.utf8ByteSize) : c ∈ front.toList := by
  have hlist : before.toList ++ c :: behind.toList = front.toList ++ back.toList := by
    simpa using congrArg String.toList h
  rcases List.append_eq_append_iff.mp hlist with ⟨more, hmore, hc⟩ | ⟨more, hmore, -⟩
  · cases more with
    | nil =>
      rw [List.append_nil, String.toList_inj] at hmore
      exact absurd (hmore ▸ hlt) (Nat.lt_irrefl _)
    | cons d more =>
      cases (List.cons.inj hc).1
      rw [hmore]
      exact List.mem_append_right _ List.mem_cons_self
  · have hbefore : before = front ++ String.ofList more := by
      rw [← String.toList_inj, String.toList_append, String.toList_ofList, hmore]
    rw [hbefore, String.utf8ByteSize_append] at hlt
    omega

theorem bytePosition?_append (hfront : c ∉ front.toList) (back : String) :
    bytePosition? (front ++ (String.singleton c ++ back)) c = some front.utf8ByteSize := by
  have hsize : front.utf8ByteSize < (front ++ (String.singleton c ++ back)).utf8ByteSize := by
    rw [String.utf8ByteSize_append, String.utf8ByteSize_append, String.utf8ByteSize_singleton]
    have hc := c.utf8Size_pos
    omega
  rw [bytePosition?, List.find?_range_eq_some]
  refine ⟨(bytes_at_iff hsize).mpr ⟨front, back, rfl, rfl⟩, List.mem_range.mpr hsize, ?_⟩
  intro position hlt
  rw [Bool.not_eq_true', Bool.eq_false_iff]
  intro hat
  obtain ⟨other, behind, heq, rfl⟩ := (bytes_at_iff (Nat.lt_trans hlt hsize)).mp hat
  exact hfront (mem_of_append_eq heq.symm hlt)

theorem bytePosition?_of_not_mem (h : c ∉ text.toList) : bytePosition? text c = none := by
  rw [bytePosition?, List.find?_range_eq_none]
  intro position hlt
  rw [Bool.not_eq_true', Bool.eq_false_iff]
  intro hat
  obtain ⟨front, back, rfl, -⟩ := (bytes_at_iff hlt).mp hat
  exact h (by simp)

end KNames.Text
