import SealedEnvelope.Wire.LengthValue

/-!
# `SealedEnvelope.Proofs.Wire.Framing`: elements as plain concatenation

`element` is the element of a value without the bound on its length, so that an encoding
is a bound on lengths and an equation between byte strings. `Begins` says without a
reader that a byte string begins with an element.

Main statements:

* `encodeAll_eq_ok_iff`: a list of values is encoded exactly if each of them is below the
  ceiling, and then as their elements one after another;
* `decode_eq_ok_iff`: the value that a byte string begins with is what the reader finds;
* `Begins.unique`: there is only one such value.
-/

set_option autoImplicit false

namespace SealedEnvelope.LengthValue

/-- The length of a value followed by the value. -/
def element (value : Bytes) : Bytes := bigEndian markLength value.length ++ value

@[simp] theorem length_element (value : Bytes) :
    (element value).length = markLength + value.length := by
  rw [element, List.length_append, length_bigEndian]

/-- The number of bytes of values as elements one after another: four more for each of them. -/
def wireLength : List Bytes → Nat
  | [] => 0
  | value :: values => markLength + value.length + wireLength values

@[simp] theorem wireLength_nil : wireLength [] = 0 := rfl

@[simp] theorem wireLength_cons (value : Bytes) (values : List Bytes) :
    wireLength (value :: values) = markLength + value.length + wireLength values := rfl

@[simp] theorem length_flatMap_element (values : List Bytes) :
    (values.flatMap element).length = wireLength values := by
  induction values with
  | nil => rfl
  | cons value values ih => simp [ih]

/-- Each element is there in the whole. -/
theorem length_le_wireLength {values : List Bytes} {value : Bytes} (h : value ∈ values) :
    value.length ≤ wireLength values := by
  induction values with
  | nil => cases h
  | cons first values ih =>
    rw [wireLength_cons]
    rcases List.mem_cons.1 h with rfl | hmem
    · omega
    · have hle := ih hmem
      omega

/-- A value below the ceiling is encoded as its element. -/
theorem encode_of_lt {value : Bytes} (h : value.length < ceiling) :
    encode value = .ok (element value) :=
  encode_eq_ok_iff.2 ⟨h, rfl⟩

/-- A list of values is encoded exactly if each is below the ceiling, as their elements one
after another. -/
theorem encodeAll_eq_ok_iff {values : List Bytes} {bytes : Bytes} :
    encodeAll values = .ok bytes
      ↔ (∀ value ∈ values, value.length < ceiling) ∧ bytes = values.flatMap element := by
  induction values generalizing bytes with
  | nil => simp [eq_comm]
  | cons value values ih =>
    rw [encodeAll_cons, List.forall_mem_cons, List.flatMap_cons]
    cases Nat.lt_or_ge value.length ceiling with
    | inr hle =>
      have hfirst : encode value = .error (.tooLarge value.length) := by
        rw [encode, length, if_pos hle]
        rfl
      rw [hfirst]
      simp [Except.bind, Nat.not_lt.2 hle]
    | inl hlt =>
      rw [encode_of_lt hlt]
      -- The encoding of the others can fail too, and then one of them is at the ceiling.
      cases hothers : encodeAll values with
      | error e =>
        have hlarge : ¬ ∀ value ∈ values, value.length < ceiling := by
          intro hall
          have := ih.2 ⟨hall, rfl⟩
          rw [hothers] at this
          cases this
        simp [Except.bind, Except.map, hlarge]
      | ok others =>
        obtain ⟨hall, rfl⟩ := ih.1 hothers
        simp only [Except.bind, Except.map, Except.ok.injEq, hlt, true_and, eq_comm]
        exact (and_iff_right hall).symm

/-- Whether a byte string begins with the element of a value. -/
def Begins (bytes value : Bytes) : Prop :=
  ∃ first rest : Bytes, encode value = .ok first ∧ bytes = first ++ rest

/-- The element of a value begins with it. -/
theorem Begins.of_encode {value bytes : Bytes} (h : encode value = .ok bytes) :
    Begins bytes value :=
  ⟨bytes, [], h, (List.append_nil bytes).symm⟩

/-- An element with bytes after it begins with its value. -/
theorem begins_element {value : Bytes} (h : value.length < ceiling) (rest : Bytes) :
    Begins (element value ++ rest) value :=
  ⟨element value, rest, encode_of_lt h, rfl⟩

/-- The reader finds the value that a byte string begins with. -/
theorem decode_eq_ok_iff {bytes value : Bytes} : decode bytes = .ok value ↔ Begins bytes value := by
  unfold decode
  constructor
  · intro h
    cases hread : read bytes with
    | error e =>
      rw [hread] at h
      cases h
    | ok found =>
      obtain ⟨value', rest⟩ := found
      rw [hread] at h
      cases h
      obtain ⟨first, hfirst, hbytes⟩ := encode_of_read hread
      exact ⟨first, rest, hfirst, hbytes⟩
  · rintro ⟨first, rest, hfirst, rfl⟩
    rw [read_encode_append hfirst]
    rfl

/-- A byte string begins with the element of one value at most. -/
theorem Begins.unique {bytes value value' : Bytes} (h : Begins bytes value)
    (h' : Begins bytes value') : value = value' := by
  have hok := decode_eq_ok_iff.2 h
  rw [decode_eq_ok_iff.2 h', Except.ok.injEq] at hok
  exact hok.symm

/-- A value that a byte string begins with is below the ceiling. -/
theorem Begins.length_lt {bytes value : Bytes} (h : Begins bytes value) :
    value.length < ceiling := by
  obtain ⟨first, -, hfirst, -⟩ := h
  exact (encode_eq_ok_iff.1 hfirst).1

/-- Two lists with the same encoding are the same. -/
theorem encodeAll_inj {values values' : List Bytes} {bytes : Bytes}
    (h : encodeAll values = .ok bytes) (h' : encodeAll values' = .ok bytes) : values = values' := by
  have hok := readAll_eq_ok_iff.2 h
  rw [readAll_eq_ok_iff.2 h', Except.ok.injEq] at hok
  exact hok.symm

end SealedEnvelope.LengthValue
