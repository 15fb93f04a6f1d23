/-!
# `SealedEnvelope.Keyed`: entries in the order of their keys

A list of entries whose keys ascend, so that each key occurs once. Keys are ordered by
their code points, which is also the order of their bytes in UTF-8. Inserting under a
key that is there already replaces what was there.

Main statement: `insert` keeps the order (`Ascending.insert`).
-/

set_option autoImplicit false

namespace SealedEnvelope.Keyed

variable {α : Type}

/-- The keys of the entries ascend. -/
def Ascending (entries : List (String × α)) : Prop := entries.Pairwise fun a b => a.1 < b.1

instance (entries : List (String × α)) : Decidable (Ascending entries) :=
  inferInstanceAs (Decidable (List.Pairwise _ _))

/-- The entries with one more, in its place. -/
def insert (key : String) (value : α) : List (String × α) → List (String × α)
  | [] => [(key, value)]
  | entry :: rest =>
    if key < entry.1 then (key, value) :: entry :: rest
    else if key = entry.1 then (key, value) :: rest
    else entry :: insert key value rest

/-- The value under a key. -/
def find? (key : String) (entries : List (String × α)) : Option α :=
  (entries.find? fun entry => entry.1 == key).map Prod.snd

/-- The order of the keys is the order of the entries. -/
theorem Ascending.of_keys {entries : List (String × α)} (keys : List String)
    (hkeys : entries.map Prod.fst = keys) (h : keys.Pairwise (· < ·)) : Ascending entries := by
  subst hkeys
  exact List.pairwise_map.1 h

theorem fst_mem_insert {key k : String} {value v : α} {entries : List (String × α)}
    (h : (k, v) ∈ insert key value entries) : k = key ∨ (k, v) ∈ entries := by
  induction entries with
  | nil =>
    simp only [insert, List.mem_singleton, Prod.mk.injEq] at h
    exact Or.inl h.1
  | cons entry rest ih =>
    unfold insert at h
    split at h
    · simp only [List.mem_cons, Prod.mk.injEq] at h ⊢
      rcases h with h | h
      · exact Or.inl h.1
      · exact Or.inr h
    · split at h
      · simp only [List.mem_cons, Prod.mk.injEq] at h ⊢
        rcases h with h | h
        · exact Or.inl h.1
        · exact Or.inr (Or.inr h)
      · simp only [List.mem_cons] at h ⊢
        rcases h with h | h
        · exact Or.inr (Or.inl h)
        · rcases ih h with h | h
          · exact Or.inl h
          · exact Or.inr (Or.inr h)

/-- An entry whose key comes after all others is put at the end. -/
theorem insert_eq_append {entries : List (String × α)} {key : String}
    (h : ∀ entry ∈ entries, entry.1 < key) (value : α) :
    insert key value entries = entries ++ [(key, value)] := by
  induction entries with
  | nil => rfl
  | cons entry rest ih =>
    have hlt := h entry List.mem_cons_self
    have hrest := ih fun other hother => h other (List.mem_cons_of_mem entry hother)
    rw [insert, if_neg (String.lt_asymm hlt), if_neg (String.ne_of_lt hlt).symm,
      hrest, List.cons_append]

/-- Inserting keeps the order. -/
theorem Ascending.insert {entries : List (String × α)} (h : Ascending entries) (key : String)
    (value : α) : Ascending (Keyed.insert key value entries) := by
  induction entries with
  | nil => exact List.pairwise_singleton _ _
  | cons entry rest ih =>
    obtain ⟨hhead, hrest⟩ := List.pairwise_cons.1 h
    unfold Keyed.insert
    split
    · next hlt =>
      refine List.pairwise_cons.2 ⟨?_, h⟩
      intro other hother
      rcases List.mem_cons.1 hother with rfl | hother
      · exact hlt
      · exact String.lt_trans hlt (hhead other hother)
    · split
      · next heq =>
        refine List.pairwise_cons.2 ⟨?_, hrest⟩
        intro other hother
        show key < other.1
        rw [heq]
        exact hhead other hother
      · next hnlt hne =>
        have hlt : entry.1 < key := by
          rcases String.le_total entry.1 key with hle | hle
          · exact String.not_le.1 fun hle' => hne (String.le_antisymm hle' hle)
          · exact absurd (String.not_le.1 fun hle' => hne (String.le_antisymm hle hle')) hnlt
        refine List.pairwise_cons.2 ⟨?_, ih hrest⟩
        intro other hother
        rcases fst_mem_insert (k := other.1) (v := other.2) hother with hk | hmem
        · rw [hk]
          exact hlt
        · exact hhead other hmem

end SealedEnvelope.Keyed
