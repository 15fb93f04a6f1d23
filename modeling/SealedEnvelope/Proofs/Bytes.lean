import SealedEnvelope.Bytes

/-!
# `SealedEnvelope.Proofs.Bytes`: bytes at positions, and byte strings in pieces

A byte string of fixed length is known by its bytes at the positions below that length,
and each operation on it is known by what it puts there. What is added twice by
exclusive or is gone.

* `forall_byte`: a statement about all bytes is one about 256 of them;
* `chunks_append`: a whole piece in front is cut off first;
* `length_chunks` and `length_of_mem_chunks`: a byte string of so many whole pieces is cut
  into that many.
-/

set_option autoImplicit false

namespace SealedEnvelope

/-- What holds of the byte of every number below 256 holds of every byte. -/
theorem forall_byte {p : UInt8 → Prop} (h : ∀ i : Fin 256, p (UInt8.ofFin i)) (a : UInt8) : p a :=
  h a.toFin

namespace FixedBytes

variable {n : Nat}

/-- Two byte strings with the same byte at every position are equal. -/
theorem ext_byteAt {a b : FixedBytes n} (h : ∀ i, i < n → a.byteAt i = b.byteAt i) : a = b := by
  apply Subtype.ext
  apply List.ext_getElem (a.property.trans b.property.symm)
  intro i ha hb
  have hi : i < n := a.property ▸ ha
  rw [List.getElem_eq_getD 0, List.getElem_eq_getD 0]
  exact h i hi

theorem byteAt_ofFn {f : Nat → UInt8} {i : Nat} (hi : i < n) : (ofFn n f).byteAt i = f i := by
  have hlen : i < ((List.range n).map f).length := by
    rwa [List.length_map, List.length_range]
  show ((List.range n).map f).getD i 0 = f i
  rw [← List.getElem_eq_getD (h := hlen) 0, List.getElem_map, List.getElem_range]

/-- Images under a function with a left inverse go back to where they came from. -/
theorem map_map_cancel {f g : UInt8 → UInt8} (h : ∀ a, g (f a) = a) (b : FixedBytes n) :
    (b.map f).map g = b := by
  apply Subtype.ext
  show (b.val.map f).map g = b.val
  rw [List.map_map]
  calc b.val.map (g ∘ f) = b.val.map id := List.map_congr_left fun a _ => h a
    _ = b.val := List.map_id _

/-- What is added twice to a list of bytes is gone. -/
theorem zipWith_xor_cancel {l m : Bytes} (h : l.length = m.length) :
    List.zipWith (· ^^^ ·) (List.zipWith (· ^^^ ·) l m) m = l := by
  -- The induction is on lists, because a tail is not of the fixed length any more.
  induction l generalizing m with
  | nil => rfl
  | cons x l ih =>
    cases m with
    | nil => cases h
    | cons y m =>
      rw [List.length_cons, List.length_cons, Nat.add_right_cancel_iff] at h
      rw [List.zipWith_cons_cons, List.zipWith_cons_cons, ih h, UInt8.xor_assoc, UInt8.xor_self,
        UInt8.xor_zero]

/-- What is added twice is gone. -/
theorem xor_xor_cancel (a b : FixedBytes n) : (a.xor b).xor b = a :=
  Subtype.ext (zipWith_xor_cancel (a.property.trans b.property.symm))

end FixedBytes

/-! ## Pieces -/

/-- A whole piece in front is cut off first. -/
theorem chunks_append {n : Nat} (hn : 0 < n) {piece : Bytes} (h : piece.length = n) (rest : Bytes) :
    chunks n (piece ++ rest) = piece :: chunks n rest := by
  cases piece with
  | nil =>
    rw [List.length_nil] at h
    omega
  | cons b piece =>
    rw [List.length_cons] at h
    -- The first byte of a piece is taken apart from the others, as it is where pieces are cut.
    have hlen : piece.length = n - 1 := by omega
    rw [List.cons_append, chunks, ← hlen, List.take_left, List.drop_left]

/-- A byte string of at least one whole piece is that piece and a rest. -/
theorem exists_piece {n count : Nat} {bytes : Bytes} (h : bytes.length = n * (count + 1)) :
    ∃ piece rest, bytes = piece ++ rest ∧ piece.length = n ∧ rest.length = n * count := by
  rw [Nat.mul_succ] at h
  refine ⟨bytes.take n, bytes.drop n, (List.take_append_drop n bytes).symm, ?_, ?_⟩
  · rw [List.length_take]
    omega
  · rw [List.length_drop]
    omega

/-- Pieces of the same length make a byte string of that length for each. -/
theorem length_flatten_of_forall {n : Nat} {pieces : List Bytes}
    (h : ∀ piece ∈ pieces, piece.length = n) : pieces.flatten.length = n * pieces.length := by
  rw [List.length_flatten, List.map_congr_left h, List.map_const', List.sum_replicate_nat,
    Nat.mul_comm]

/-- A byte string of so many whole pieces is cut into that many. -/
theorem length_chunks {n : Nat} (hn : 0 < n) {count : Nat} {bytes : Bytes}
    (h : bytes.length = n * count) : (chunks n bytes).length = count := by
  induction count generalizing bytes with
  | zero =>
    rw [List.length_eq_zero_iff.1 h, chunks]
    rfl
  | succ count ih =>
    obtain ⟨piece, rest, rfl, hpiece, hrest⟩ := exists_piece h
    rw [chunks_append hn hpiece, List.length_cons, ih hrest]

/-- The pieces of a byte string of whole pieces are whole. -/
theorem length_of_mem_chunks {n : Nat} (hn : 0 < n) {count : Nat} {bytes : Bytes}
    (h : bytes.length = n * count) {piece : Bytes} (hmem : piece ∈ chunks n bytes) :
    piece.length = n := by
  induction count generalizing bytes with
  | zero =>
    rw [List.length_eq_zero_iff.1 h, chunks] at hmem
    cases hmem
  | succ count ih =>
    obtain ⟨first, rest, rfl, hfirst, hrest⟩ := exists_piece h
    rw [chunks_append hn hfirst, List.mem_cons] at hmem
    cases hmem with
    | inl heq => rw [heq, hfirst]
    | inr hmem => exact ih hrest hmem

end SealedEnvelope
