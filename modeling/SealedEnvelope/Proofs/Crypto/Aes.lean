import SealedEnvelope.Proofs.Bytes
import SealedEnvelope.Proofs.Crypto.Substitution

/-!
# `SealedEnvelope.Proofs.Crypto.Aes`: deciphering a block undoes enciphering it

Each step of a round has a step that undoes it, so a round is undone by one that takes
the steps in the opposite order, and the rounds are undone from the last one to the first:

* `unshiftRows_shiftRows` and `unmixColumns_mixColumns`: the two steps that move bytes
  within a block;
* `unround_round`: one round;
* `length_roundKeys`: the key schedule has seven more keys than the key has words, so
  there are a first one and a last one;
* `decryptBlock_encryptBlock`: whole blocks.
-/

set_option autoImplicit false

namespace SealedEnvelope.Aes

/-! ## The steps of a round -/

theorem unshiftRows_shiftRows (b : Block) : unshiftRows (shiftRows b) = b := by
  apply FixedBytes.ext_byteAt
  intro i hi
  -- The one step reads place `13 * i` and the other place `5 * i`, and 65 is one modulo 16.
  have hplace : 13 * i % 16 < 16 := Nat.mod_lt _ (by decide)
  have hback : 5 * (13 * i % 16) % 16 = i := by omega
  rw [unshiftRows, FixedBytes.byteAt_ofFn hi, shiftRows, FixedBytes.byteAt_ofFn hplace, hback]

/-- The byte of a mixed block at the place `k` further down the column of place `i`. -/
theorem byteAt_mixColumns (b : Block) {i : Nat} (hi : i < 16) (k : Nat) :
    (mixColumns b).byteAt (i / 4 * 4 + (i + k) % 4)
      = mul 2 (b.byteAt (i / 4 * 4 + (i + k) % 4))
        ^^^ mul 3 (b.byteAt (i / 4 * 4 + (i + (k + 1)) % 4))
        ^^^ mul 1 (b.byteAt (i / 4 * 4 + (i + (k + 2)) % 4))
        ^^^ mul 1 (b.byteAt (i / 4 * 4 + (i + (k + 3)) % 4)) := by
  have hplace : i / 4 * 4 + (i + k) % 4 < 16 := by omega
  have hcolumn : (i / 4 * 4 + (i + k) % 4) / 4 * 4 = i / 4 * 4 := by omega
  have hrow : ∀ j, (i / 4 * 4 + (i + k) % 4 + j) % 4 = (i + (k + j)) % 4 := by
    intro j
    omega
  rw [mixColumns, mixWith, FixedBytes.byteAt_ofFn hplace]
  simp only [hcolumn, hrow]
  rfl

theorem unmixColumns_mixColumns (b : Block) : unmixColumns (mixColumns b) = b := by
  apply FixedBytes.ext_byteAt
  intro i hi
  -- Four places further down, the column starts again.
  have hround : ∀ k, (i + (k + 4)) % 4 = (i + k) % 4 := by
    intro k
    omega
  have hself : i / 4 * 4 + (i + 0) % 4 = i := by omega
  rw [unmixColumns, mixWith, FixedBytes.byteAt_ofFn hi]
  simp only [byteAt_mixColumns b hi, Nat.reduceAdd]
  rw [hround 0, hround 1, hround 2]
  rw [unmix_mix, hself]

/-- One round that mixes the columns. -/
def round (b key : Block) : Block :=
  (mixColumns (shiftRows (b.map (lookUp substitution)))).xor key

/-- The round that undoes one. -/
def unround (b key : Block) : Block :=
  (unshiftRows (unmixColumns (b.xor key))).map (lookUp inverseSubstitution)

theorem unround_round (b key : Block) : unround (round b key) key = b := by
  rw [unround, round, FixedBytes.xor_xor_cancel, unmixColumns_mixColumns, unshiftRows_shiftRows,
    FixedBytes.map_map_cancel lookUp_lookUp_substitution]

/-! ## The key schedule -/

/-- The key schedule consists of words of four bytes, and has as many as it is asked for. -/
theorem extend_words {keyWords : Nat} (hpos : 0 < keyWords) (rest : Nat) (constant : UInt8)
    (words : List Bytes) (hlen : keyWords ≤ words.length)
    (hword : ∀ word ∈ words, word.length = 4) :
    (extend keyWords rest constant words).length = words.length + rest
      ∧ ∀ word ∈ extend keyWords rest constant words, word.length = 4 := by
  induction rest generalizing constant words with
  | zero =>
    rw [extend]
    refine ⟨List.length_reverse, fun word hmem => hword word (List.mem_reverse.1 hmem)⟩
  | succ rest ih =>
    have hget : ∀ i, i < words.length → (words.getD i []).length = 4 := by
      intro i hi
      rw [← List.getElem_eq_getD (h := hi) []]
      exact hword _ (List.getElem_mem hi)
    have hlast : (words.headD []).length = 4 := by
      cases words with
      | nil =>
        rw [List.length_nil] at hlen
        omega
      | cons word words => exact hword word List.mem_cons_self
    have hback : (words.getD (keyWords - 1) []).length = 4 := hget _ (by omega)
    rw [extend]
    -- The three ways to make a word differ in what is added to the old one, never in length.
    generalize hnext : List.zipWith (· ^^^ ·) (words.getD (keyWords - 1) []) _ = next
    have hnew : next.length = 4 := by
      rw [← hnext, List.length_zipWith, hback]
      split
      · simp only [List.length_zipWith, List.length_map, List.length_append, List.length_drop,
          List.length_take, hlast, List.length_cons, List.length_nil]
        decide
      · split
        · rw [List.length_map, hlast]
          decide
        · rw [hlast]
          decide
    have hwords : ∀ word ∈ next :: words, word.length = 4 := by
      intro word hmem
      cases List.mem_cons.1 hmem with
      | inl heq => rw [heq, hnew]
      | inr hmem => exact hword word hmem
    obtain ⟨hcount, hall⟩ := ih (if words.length % keyWords = 0 then double constant else constant)
      (next :: words) (by rw [List.length_cons]; omega) hwords
    refine ⟨?_, hall⟩
    rw [hcount, List.length_cons]
    omega

/-- The key schedule has seven more keys than the key has words. -/
theorem length_roundKeys (key : BlockKey) :
    (roundKeys key).length = key.val.length / 4 + 7 := by
  have hkey : key.val.length = 4 * (key.val.length / 4) ∧ 4 ≤ key.val.length / 4 := by
    cases key.property with
    | inl h => omega
    | inr h => omega
  have hpos : 0 < key.val.length / 4 := by omega
  have hpieces := length_chunks (by decide) hkey.1
  obtain ⟨hcount, hword⟩ := extend_words hpos (4 * (key.val.length / 4 + 7) - key.val.length / 4) 1
    (chunks 4 key.val).reverse (Nat.le_of_eq (by rw [List.length_reverse, hpieces]))
    (fun word hmem => length_of_mem_chunks (by decide) hkey.1 (List.mem_reverse.1 hmem))
  rw [List.length_reverse, hpieces] at hcount
  have hbytes := length_flatten_of_forall hword
  rw [hcount] at hbytes
  rw [roundKeys, List.length_map]
  exact length_chunks (by decide) (by rw [hbytes]; omega)

/-! ## Whole blocks -/

/-- Enciphering does one round for each key but the last. -/
theorem encryptRounds_concat (keys : List Block) (last b : Block) :
    encryptRounds (keys ++ [last]) b
      = (shiftRows ((keys.foldl round b).map (lookUp substitution))).xor last := by
  induction keys generalizing b with
  | nil => rfl
  | cons key keys ih =>
    rw [List.foldl_cons, ← ih]
    cases keys with
    | nil => rfl
    | cons next keys => rfl

theorem decryptRounds_eq (keys : List Block) (b : Block) :
    decryptRounds keys b = keys.foldl unround b := by
  induction keys generalizing b with
  | nil => rfl
  | cons key keys ih => exact ih _

/-- The rounds are undone from the last one to the first. -/
theorem decryptRounds_reverse (keys : List Block) (b : Block) :
    decryptRounds keys.reverse (keys.foldl round b) = b := by
  rw [decryptRounds_eq]
  induction keys generalizing b with
  | nil => rfl
  | cons key keys ih =>
    show (key :: keys).reverse.foldl unround (keys.foldl round (round b key)) = b
    rw [List.reverse_cons, List.foldl_append, ih]
    exact unround_round b key

/-- Deciphering a block undoes enciphering it. -/
theorem decryptBlock_encryptBlock (key : BlockKey) (b : Block) :
    decryptBlock key (encryptBlock key b) = b := by
  -- Only the first and the last key stand outside of the rounds that mix the columns.
  obtain ⟨first, keys, last, hkeys⟩ :
      ∃ first keys last, roundKeys key = first :: (keys ++ [last]) := by
    have hlen := length_roundKeys key
    match hround : roundKeys key with
    | [] =>
      rw [hround, List.length_nil] at hlen
      omega
    | first :: rest =>
      have hrest : rest ≠ [] := by
        rintro rfl
        rw [hround, List.length_singleton] at hlen
        omega
      exact ⟨first, rest.dropLast, rest.getLast hrest,
        congrArg _ (List.dropLast_concat_getLast hrest).symm⟩
  have hreverse : (roundKeys key).reverse = last :: (keys.reverse ++ [first]) := by
    rw [hkeys, List.reverse_cons, List.reverse_append]
    rfl
  have hencrypt : encryptBlock key b = encryptRounds (keys ++ [last]) (b.xor first) := by
    rw [encryptBlock, hkeys]
  rw [hencrypt, encryptRounds_concat, decryptBlock, hreverse]
  simp only [FixedBytes.xor_xor_cancel, unshiftRows_shiftRows,
    FixedBytes.map_map_cancel lookUp_lookUp_substitution, List.dropLast_concat,
    List.getLastD_concat, decryptRounds_reverse]

end SealedEnvelope.Aes
