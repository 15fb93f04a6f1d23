import SealedEnvelope.Proofs.Wire.Framing

/-!
# `SealedEnvelope.Proofs.Wire.Truncation`: lists of elements that are cut off

A list of elements that is cut off between two of them reads as the elements before the cut. Cut
off within an element it is refused, and the error tells exactly what is missing: bytes of the
mark that gives the length, or bytes of the value (`shortage`). So no list is ever read as another
one of which it is not the beginning.

A mark that gives a length which no value may have is refused for that, however many bytes follow.

Main statements:

* `readAll_flatMap_append`: elements in front of other bytes are read before these;
* `exists_boundary_or_cut`: where a list of elements can be cut off;
* `readAll_of_cut`: what is read of the bytes up to each place, and of a list followed by a mark
  that is too large.
-/

set_option autoImplicit false

namespace SealedEnvelope.LengthValue

/-! ## Elements in front of other bytes -/

/-- An element is read before what follows it. -/
theorem readAll_element_append {value : Bytes} (h : value.length < ceiling) (rest : Bytes) :
    readAll (element value ++ rest) = (readAll rest).map (value :: ·) := by
  have hread : read (element value ++ rest) = .ok (value, rest) :=
    read_encode_append (encode_of_lt h) rest
  have hsome : ¬ (element value ++ rest).isEmpty = true := by
    simp [element, markLength, ← List.length_eq_zero_iff]
  rw [readAll, if_neg hsome]
  split
  · next fault hfault =>
    rw [hread] at hfault
    cases hfault
  · next found left hfound =>
    rw [hread] at hfound
    cases hfound
    rfl

/-- So are several. -/
theorem readAll_flatMap_append {values : List Bytes} (h : ∀ value ∈ values, value.length < ceiling)
    (rest : Bytes) :
    readAll (values.flatMap element ++ rest) = (readAll rest).map (values ++ ·) := by
  induction values with
  | nil =>
    show readAll rest = _
    cases readAll rest <;> rfl
  | cons value values ih =>
    obtain ⟨hvalue, hvalues⟩ := List.forall_mem_cons.1 h
    rw [List.flatMap_cons, List.append_assoc, readAll_element_append hvalue, ih hvalues]
    cases readAll rest <;> rfl

/-- A fault of the first element is one of the whole. -/
theorem readAll_of_read_eq_error {bytes : Bytes} {fault : Error} (hne : bytes ≠ [])
    (h : read bytes = .error fault) : readAll bytes = .error fault := by
  rw [readAll, if_neg fun hempty => hne (List.isEmpty_iff.1 hempty)]
  split
  · next found hfound =>
    rw [h] at hfound
    cases hfound
    rfl
  · next found left hfound =>
    rw [h] at hfound
    cases hfound

/-! ## Faults of one element -/

/-- What is missing of the element of a value of which only some bytes are there. -/
def shortage (value : Bytes) (left : Nat) : Error :=
  if left < markLength then .truncated markLength left
  else .truncated value.length (left - markLength)

/-- An element that is not there as a whole is refused. -/
theorem read_take_element {value : Bytes} (h : value.length < ceiling) {left : Nat}
    (hleft : left < markLength + value.length) :
    read ((element value).take left) = .error (shortage value left) := by
  have hlength : ((element value).take left).length = left := by
    rw [List.length_take, length_element]
    omega
  unfold read shortage
  rw [hlength]
  by_cases hmark : left < markLength
  · rw [if_pos hmark, if_pos hmark]
  · -- The whole mark is there, and the value ends before it should.
    have htake : ((element value).take left).take markLength = bigEndian markLength value.length := by
      rw [List.take_take, Nat.min_eq_left (Nat.not_lt.1 hmark), element]
      exact List.take_left' (length_bigEndian _ _)
    have hdrop : (((element value).take left).drop markLength).length = left - markLength := by
      rw [List.length_drop, hlength]
    have hshort : left - markLength < value.length := by omega
    simp only [hmark, htake, hdrop, ofBigEndian_mark h, if_false, Nat.not_le.2 h, hshort, if_true]

/-- A mark that is too large is refused, whatever follows it. -/
theorem read_append_of_ceiling_le {mark : Bytes} (hmark : mark.length = markLength)
    (h : ceiling ≤ ofBigEndian mark) (rest : Bytes) :
    read (mark ++ rest) = .error (.tooLarge (ofBigEndian mark)) := by
  have hlong : ¬ (mark ++ rest).length < markLength := by
    rw [List.length_append]
    omega
  unfold read
  simp only [hlong, List.take_left' hmark, h, if_false, if_true]

/-! ## Where a list can be cut off -/

/-- Whether a list of elements that is cut off after `n` bytes ends within the element of a value,
of which `left` bytes are there: some of it, but not all. -/
structure CutsInto (values : List Bytes) (n k : Nat) (value : Bytes) (left : Nat) : Prop where
  at_ : values[k]? = some value
  pos : 0 < left
  lt : left < markLength + value.length
  eq : n = wireLength (values.take k) + left

/-- Every place in a list of elements is between two of them or within one. -/
theorem exists_boundary_or_cut {values : List Bytes} {n : Nat} (h : n ≤ wireLength values) :
    (∃ k ≤ values.length, n = wireLength (values.take k))
      ∨ ∃ k value left, CutsInto values n k value left := by
  induction values generalizing n with
  | nil => exact .inl ⟨0, Nat.le_refl 0, Nat.le_zero.1 h⟩
  | cons value values ih =>
    rw [wireLength_cons] at h
    by_cases hzero : n = 0
    · exact .inl ⟨0, Nat.zero_le _, hzero⟩
    by_cases hfirst : n < markLength + value.length
    · exact .inr ⟨0, value, n, rfl, Nat.pos_of_ne_zero hzero, hfirst, (Nat.zero_add n).symm⟩
    -- The place is behind the first element, where it is found among the others.
    have hrest : n - (markLength + value.length) ≤ wireLength values := by omega
    rcases ih hrest with ⟨k, hk, heq⟩ | ⟨k, found, left, hat, hpos, hlt, heq⟩
    · refine .inl ⟨k + 1, Nat.succ_le_succ hk, ?_⟩
      rw [List.take_succ_cons, wireLength_cons]
      omega
    · refine .inr ⟨k + 1, found, left, hat, hpos, hlt, ?_⟩
      rw [List.take_succ_cons, wireLength_cons]
      omega

variable {values : List Bytes}

/-- The bytes up to a place between two elements are the elements before it. -/
theorem take_wireLength (values : List Bytes) (k : Nat) :
    (values.flatMap element).take (wireLength (values.take k)) = (values.take k).flatMap element := by
  have hsplit : values.flatMap element
      = (values.take k).flatMap element ++ (values.drop k).flatMap element := by
    rw [← List.flatMap_append, List.take_append_drop]
  rw [hsplit]
  exact List.take_left' (length_flatMap_element _)

/-- The bytes up to a place within an element are the elements before it and some of its own. -/
theorem CutsInto.take_eq {n k left : Nat} {value : Bytes} (h : CutsInto values n k value left) :
    (values.flatMap element).take n
      = (values.take k).flatMap element ++ (element value).take left := by
  obtain ⟨hk, rfl⟩ := List.getElem?_eq_some_iff.1 h.at_
  have hsplit : values.flatMap element = (values.take k).flatMap element
      ++ (element values[k] ++ (values.drop (k + 1)).flatMap element) := by
    rw [← List.flatMap_cons, ← List.flatMap_append, ← List.drop_eq_getElem_cons hk,
      List.take_append_drop]
  have hwithin : left ≤ (element values[k]).length := by
    rw [length_element]
    exact Nat.le_of_lt h.lt
  rw [hsplit, h.eq, ← length_flatMap_element, List.take_length_add_append,
    List.take_append_of_le_length hwithin]

/-! ## What is read -/

/-- What is read of a list of elements that is cut off somewhere. Between two elements these are
the ones before the cut. Within an element the reader tells what is missing of it: the mark takes
four bytes, of which so many are there, or the value takes its length and has so many bytes left.
The cut is always at one place of the one kind or the other. A list that is followed by a mark of
a length which no value may have is refused for this length, whatever follows. -/
theorem readAll_of_cut (h : ∀ value ∈ values, value.length < ceiling) :
    ∃ bytes, encodeAll values = .ok bytes ∧ bytes.length = wireLength values
      ∧ (∀ n ≤ bytes.length,
          (∃ k ≤ values.length, n = wireLength (values.take k))
            ∨ ∃ k value left, CutsInto values n k value left)
      ∧ (∀ k ≤ values.length,
          readAll (bytes.take (wireLength (values.take k))) = .ok (values.take k))
      ∧ (∀ n k value left, CutsInto values n k value left →
          readAll (bytes.take n) = .error (shortage value left))
      ∧ ∀ mark rest : Bytes, mark.length = markLength → ceiling ≤ ofBigEndian mark →
          readAll (bytes ++ mark ++ rest) = .error (.tooLarge (ofBigEndian mark)) := by
  have htake (k : Nat) : ∀ value ∈ values.take k, value.length < ceiling :=
    fun value hvalue => h value (List.mem_of_mem_take hvalue)
  refine ⟨values.flatMap element, encodeAll_eq_ok_iff.2 ⟨h, rfl⟩, length_flatMap_element values,
    ?_, ?_, ?_, ?_⟩
  · intro n hn
    rw [length_flatMap_element] at hn
    exact exists_boundary_or_cut hn
  · intro k _
    rw [take_wireLength]
    exact readAll_eq_ok_iff.2 (encodeAll_eq_ok_iff.2 ⟨htake k, rfl⟩)
  · intro n k value left hcut
    have hvalue := h value (List.mem_of_getElem? hcut.at_)
    have hne : (element value).take left ≠ [] := by
      rw [← List.length_pos_iff, List.length_take, length_element]
      exact Nat.lt_min.2 ⟨hcut.pos, Nat.lt_trans hcut.pos hcut.lt⟩
    rw [hcut.take_eq, readAll_flatMap_append (htake k),
      readAll_of_read_eq_error hne (read_take_element hvalue hcut.lt)]
    rfl
  · intro mark rest hmark hlarge
    have hne : mark ++ rest ≠ [] := by
      rw [← List.length_pos_iff, List.length_append, hmark, markLength]
      omega
    rw [List.append_assoc, readAll_flatMap_append h,
      readAll_of_read_eq_error hne (read_append_of_ceiling_le hmark hlarge rest)]
    rfl

/-- An empty value and one of two bytes, cut off within the second and followed by a mark that is
too large. -/
theorem readAll_of_cut_twoValues :
    readAll [0, 0, 0, 0, 0, 0, 0, 2, 7] = .error (.truncated 2 1)
      ∧ readAll [0, 0, 0, 0, 0, 0] = .error (.truncated 4 2)
      ∧ readAll [0, 0, 0, 0, 0, 0, 0, 2, 7, 8, 0x7F, 0xFF, 0xFF, 0xFF, 1]
        = .error (.tooLarge 2147483647) := by
  have hsmall : ∀ value ∈ [[], [7, 8]], List.length (α := UInt8) value < ceiling := by
    decide
  obtain ⟨bytes, hbytes, -, -, -, hcut, hlarge⟩ := readAll_of_cut hsmall
  obtain rfl : [0, 0, 0, 0, 0, 0, 0, 2, 7, 8] = bytes := Except.ok.inj hbytes
  refine ⟨hcut 9 1 [7, 8] 5 ⟨rfl, by decide, by decide, rfl⟩,
    hcut 6 1 [7, 8] 2 ⟨rfl, by decide, by decide, rfl⟩, ?_⟩
  exact hlarge [0x7F, 0xFF, 0xFF, 0xFF] [1] rfl (by decide)

end SealedEnvelope.LengthValue
