import SealedEnvelope.Bytes

/-!
# `SealedEnvelope.Wire.LengthValue`: byte strings one after another

An element on the wire is its length, as four bytes with the most significant first,
followed by its value. A list of elements is their concatenation, and nothing on the
wire says whether a value is itself such a concatenation: the reader decides.

Main statements:

* `read_encode_append`: an element is read back whatever follows it;
* `encode_of_read`: what was read is the encoding of the value followed by the rest;
* `readAll_eq_ok_iff`: a byte string reads as a list exactly if it is its encoding.
-/

set_option autoImplicit false

namespace SealedEnvelope.LengthValue

/-- The number of bytes that give the length of a value. -/
def markLength : Nat := 4

/-- No value has this many bytes or more: `2^31 - 1`. -/
def ceiling : Nat := 2147483647

/-- Why a value cannot be written or an element cannot be read. -/
inductive Error where
  /-- So many bytes were needed and only so many were there. -/
  | truncated (needed available : Nat)
  /-- A value of this length is not allowed. -/
  | tooLarge (length : Nat)
  deriving DecidableEq, Repr

/-- The length of a value, if it is one that an element may have. -/
def length (value : Bytes) : Except Error Nat :=
  if ceiling ≤ value.length then .error (.tooLarge value.length) else .ok value.length

/-- The element with this value. -/
def encode (value : Bytes) : Except Error Bytes :=
  (length value).map fun n => bigEndian markLength n ++ value

/-- The elements with these values, one after another. -/
def encodeAll (values : List Bytes) : Except Error Bytes :=
  (values.mapM encode).map List.flatten

/-- The value of the first element, and the bytes after it. -/
def read (bytes : Bytes) : Except Error (Bytes × Bytes) :=
  if bytes.length < markLength then
    .error (.truncated markLength bytes.length)
  else
    let length := ofBigEndian (bytes.take markLength)
    let rest := bytes.drop markLength
    if ceiling ≤ length then .error (.tooLarge length)
    else if rest.length < length then .error (.truncated length rest.length)
    else .ok (rest.take length, rest.drop length)

/-- The value of the first element, whatever follows it. -/
def decode (bytes : Bytes) : Except Error Bytes := (read bytes).map Prod.fst

/-- Reading leaves fewer bytes than it was given. -/
theorem length_lt_of_read {bytes value rest : Bytes} (h : read bytes = .ok (value, rest)) :
    rest.length < bytes.length := by
  unfold read at h
  split at h
  · cases h
  · next hlen =>
    simp only at h
    split at h
    · cases h
    · split at h
      · cases h
      · simp only [Except.ok.injEq, Prod.mk.injEq] at h
        rw [← h.2]
        simp only [List.length_drop, markLength] at hlen ⊢
        omega

/-- The values of all elements, which must use up the bytes. -/
def readAll (bytes : Bytes) : Except Error (List Bytes) :=
  if bytes.isEmpty then .ok []
  else
    match _h : read bytes with
    | .error e => .error e
    | .ok (value, rest) => (readAll rest).map (value :: ·)
termination_by bytes.length
decreasing_by exact length_lt_of_read _h

/-! ## Writing and reading undo each other -/

/-- What the element with a value is, and when there is one. -/
theorem encode_eq_ok_iff {value bytes : Bytes} :
    encode value = .ok bytes ↔
      value.length < ceiling ∧ bytes = bigEndian markLength value.length ++ value := by
  unfold encode length
  by_cases h : ceiling ≤ value.length
  · simp [h, Except.map, Nat.not_lt.2 h]
  · simp [h, Except.map, Nat.lt_of_not_le h, eq_comm]

/-- The mark of a length is read back. -/
theorem ofBigEndian_mark {n : Nat} (h : n < ceiling) : ofBigEndian (bigEndian markLength n) = n := by
  rw [ofBigEndian_bigEndian]
  refine Nat.mod_eq_of_lt (Nat.lt_trans h ?_)
  decide

/-- An element is read back whatever follows it. -/
theorem read_encode_append {value bytes : Bytes} (h : encode value = .ok bytes) (rest : Bytes) :
    read (bytes ++ rest) = .ok (value, rest) := by
  obtain ⟨hlt, rfl⟩ := encode_eq_ok_iff.1 h
  have htake : (bigEndian markLength value.length ++ value ++ rest).take markLength
      = bigEndian markLength value.length := by
    rw [List.append_assoc]
    exact List.take_left' (length_bigEndian _ _)
  have hdrop : (bigEndian markLength value.length ++ value ++ rest).drop markLength
      = value ++ rest := by
    rw [List.append_assoc]
    exact List.drop_left' (length_bigEndian _ _)
  have hlong : ¬ (bigEndian markLength value.length ++ value ++ rest).length < markLength := by
    simp only [List.length_append, length_bigEndian]
    omega
  unfold read
  simp only [hlong, htake, hdrop, ofBigEndian_mark hlt, if_false, Nat.not_le.2 hlt]
  simp

/-- What was read is the element with the value, and the rest after it. -/
theorem encode_of_read {bytes value rest : Bytes} (h : read bytes = .ok (value, rest)) :
    ∃ element, encode value = .ok element ∧ bytes = element ++ rest := by
  unfold read at h
  split at h
  · cases h
  · next hlong =>
    simp only at h
    split at h
    · cases h
    · next hlt =>
      split at h
      · cases h
      · next henough =>
        simp only [Except.ok.injEq, Prod.mk.injEq] at h
        obtain ⟨hvalue, hrest⟩ := h
        have hlen : value.length = ofBigEndian (bytes.take markLength) := by
          rw [← hvalue, List.length_take]
          omega
        have hmark : (bytes.take markLength).length = markLength := by
          rw [List.length_take]
          omega
        refine ⟨bigEndian markLength value.length ++ value, encode_eq_ok_iff.2 ⟨?_, rfl⟩, ?_⟩
        · rw [hlen]
          omega
        · have hback := bigEndian_ofBigEndian (bytes.take markLength)
          rw [hmark] at hback
          rw [hlen, hback, List.append_assoc, ← hvalue, ← hrest, List.take_append_drop,
            List.take_append_drop]

/-- An element is not empty. -/
theorem ne_nil_of_encode {value bytes : Bytes} (h : encode value = .ok bytes) : bytes ≠ [] := by
  obtain ⟨_, rfl⟩ := encode_eq_ok_iff.1 h
  intro hnil
  have := congrArg List.length hnil
  simp [markLength] at this

@[simp] theorem encodeAll_nil : encodeAll [] = .ok [] := rfl

/-- A list of elements is its first one and the others. -/
theorem encodeAll_cons (value : Bytes) (values : List Bytes) :
    encodeAll (value :: values) =
      (encode value).bind fun first => (encodeAll values).map (first ++ ·) := by
  unfold encodeAll
  rw [List.mapM_cons]
  cases encode value with
  | error e => rfl
  | ok first =>
    simp only [bind, Except.bind, pure, Except.pure]
    cases values.mapM encode with
    | error e => rfl
    | ok others => simp [Except.map]

/-- A byte string reads as a list exactly if it is the elements of the list. -/
theorem readAll_eq_ok_iff {bytes : Bytes} {values : List Bytes} :
    readAll bytes = .ok values ↔ encodeAll values = .ok bytes := by
  fun_induction readAll bytes generalizing values with
  | case1 bytes hempty =>
    obtain rfl := List.isEmpty_iff.1 hempty
    cases values with
    | nil => simp
    | cons value values =>
      rw [encodeAll_cons]
      cases hfirst : encode value with
      | error e => simp [Except.bind]
      | ok first =>
        have hne := ne_nil_of_encode hfirst
        cases encodeAll values <;> simp [Except.bind, Except.map, hne]
  | case2 bytes hne e h =>
    cases values with
    | nil =>
      simp only [encodeAll_nil, Except.ok.injEq]
      simp_all
    | cons value values =>
      rw [encodeAll_cons]
      cases hfirst : encode value with
      | error e => simp [Except.bind]
      | ok first =>
        cases hothers : encodeAll values with
        | error e => simp [Except.bind, Except.map]
        | ok others =>
          simp only [Except.bind, Except.map, Except.ok.injEq, reduceCtorEq, false_iff]
          rintro rfl
          rw [read_encode_append hfirst] at h
          cases h
  | case3 bytes hne value rest h ih =>
    obtain ⟨first, hfirst, rfl⟩ := encode_of_read h
    constructor
    · intro hall
      cases hothers : readAll rest with
      | error e => simp [hothers, Except.map] at hall
      | ok others =>
        simp only [hothers, Except.map, Except.ok.injEq] at hall
        obtain rfl := hall
        rw [encodeAll_cons, hfirst, ih.1 hothers]
        rfl
    · intro hall
      cases values with
      | nil => simp [ne_nil_of_encode hfirst] at hall
      | cons value' values =>
        rw [encodeAll_cons] at hall
        cases hfirst' : encode value' with
        | error e => simp [hfirst', Except.bind] at hall
        | ok first' =>
          cases hothers : encodeAll values with
          | error e => simp [hfirst', hothers, Except.bind, Except.map] at hall
          | ok others =>
            simp only [hfirst', hothers, Except.bind, Except.map, Except.ok.injEq] at hall
            have h' := read_encode_append hfirst' others
            rw [hall, h] at h'
            simp only [Except.ok.injEq, Prod.mk.injEq] at h'
            obtain ⟨rfl, rfl⟩ := h'
            rw [ih.2 hothers]
            rfl

end SealedEnvelope.LengthValue
