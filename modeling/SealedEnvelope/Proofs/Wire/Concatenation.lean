import Mathlib.Logic.ExistsUnique
import SealedEnvelope.Proofs.Wire.Framing

/-!
# `SealedEnvelope.Proofs.Wire.Concatenation`: lists of elements and their byte strings

A list of values is written as its elements one after another, and nothing marks where one
of them ends but its own length. `Concatenates` says that a byte string is such a
concatenation, without a writer and without a reader.

Main statements:

* `concatenates_iff_readAll`: what is read as a list is its concatenation, and nothing else
  is read;
* `Concatenates.unique`: a byte string is the concatenation of one list at most;
* `encodeAll_readAll_inverse`: writing and reading lists undo each other on all lists whose
  values are below the ceiling, and on all byte strings that are read at all.
-/

set_option autoImplicit false

namespace SealedEnvelope.LengthValue

/-- Whether a byte string is the elements of these values, one after another. -/
def Concatenates (values : List Bytes) (bytes : Bytes) : Prop :=
  (∀ value ∈ values, value.length < ceiling) ∧ bytes = values.flatMap element

/-- A byte string is read as the list whose concatenation it is. -/
theorem concatenates_iff_readAll {values : List Bytes} {bytes : Bytes} :
    Concatenates values bytes ↔ readAll bytes = .ok values :=
  encodeAll_eq_ok_iff.symm.trans readAll_eq_ok_iff.symm

/-- A list can be written exactly if each of its values can. -/
theorem exists_encodeAll_iff {values : List Bytes} :
    (∃ bytes, encodeAll values = .ok bytes) ↔ ∀ value ∈ values, value.length < ceiling := by
  constructor
  · rintro ⟨bytes, h⟩
    exact (encodeAll_eq_ok_iff.1 h).1
  · intro h
    exact ⟨values.flatMap element, encodeAll_eq_ok_iff.2 ⟨h, rfl⟩⟩

/-- A byte string is the concatenation of one list at most. -/
theorem Concatenates.unique {values values' : List Bytes} {bytes : Bytes}
    (h : Concatenates values bytes) (h' : Concatenates values' bytes) : values = values' := by
  have hread := concatenates_iff_readAll.1 h
  rw [concatenates_iff_readAll.1 h', Except.ok.injEq] at hread
  exact hread.symm

/-- A list is written exactly if each of its values is below the ceiling, and what is written
is read as the list. What is read as a list is what the list is written as. So the byte
strings that are read are the concatenations, each of them in one way only, and no two lists
are written alike. -/
theorem encodeAll_readAll_inverse :
    (∀ values : List Bytes,
        ((∃ bytes, encodeAll values = .ok bytes) ↔ ∀ value ∈ values, value.length < ceiling)
          ∧ ∀ bytes, encodeAll values = .ok bytes → readAll bytes = .ok values)
      ∧ (∀ (bytes : Bytes) (values : List Bytes),
          readAll bytes = .ok values → encodeAll values = .ok bytes)
      ∧ (∀ bytes : Bytes,
          (∃ values, readAll bytes = .ok values) ↔ ∃! values, Concatenates values bytes)
      ∧ (∀ (values values' : List Bytes) (bytes : Bytes),
          encodeAll values = .ok bytes → encodeAll values' = .ok bytes → values = values') := by
  refine ⟨fun values => ⟨exists_encodeAll_iff, fun bytes => readAll_eq_ok_iff.2⟩,
    fun bytes values => readAll_eq_ok_iff.1, fun bytes => ?_, fun values values' bytes => ?_⟩
  · constructor
    · rintro ⟨values, h⟩
      exact ⟨values, concatenates_iff_readAll.2 h,
        fun values' h' => h'.unique (concatenates_iff_readAll.2 h)⟩
    · rintro ⟨values, h, -⟩
      exact ⟨values, concatenates_iff_readAll.1 h⟩
  · exact encodeAll_inj

/-- A list of an empty value, of a value that is an element itself, and of one more byte. -/
theorem encodeAll_readAll_inverse_nested :
    encodeAll [[], [0, 0, 0, 0], [7]] = .ok [0, 0, 0, 0, 0, 0, 0, 4, 0, 0, 0, 0, 0, 0, 0, 1, 7]
      ∧ readAll [0, 0, 0, 0, 0, 0, 0, 4, 0, 0, 0, 0, 0, 0, 0, 1, 7]
        = .ok [[], [0, 0, 0, 0], [7]] := by
  have hwrite : encodeAll [[], [0, 0, 0, 0], [7]]
      = .ok [0, 0, 0, 0, 0, 0, 0, 4, 0, 0, 0, 0, 0, 0, 0, 1, 7] := by
    rfl
  exact ⟨hwrite, (encodeAll_readAll_inverse.1 _).2 _ hwrite⟩

end SealedEnvelope.LengthValue
