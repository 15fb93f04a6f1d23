import SealedEnvelope.Peer.PrekeyStore
import SealedEnvelope.Proofs.Handshake.Completion

/-!
# `SealedEnvelope.Proofs.Peer.PrekeyStore`: what each operation does to a prekey store

Answering an offer has a part that draws and a part that keeps. `PrekeyStore.prepare` is the
first: what it draws and answers does not depend on the store, and it ends with the entry to
keep. The second is `PrekeyStore.insert`.

Main statements:

* `issue_apply`: answering an offer is the one part and then the other, and a failure leaves
  the store alone;
* `oldest?_eq_some_of_perm`: which entry makes room does not depend on the order in which the
  entries are looked at, as long as one of them is older than all others;
* `take_of_find?_eq_none` and `take_of_find?_eq_some`: what taking an entry leaves behind;
* `find?_insert_self`, `find?_insert_of_ne` and `find?_take_of_ne`: an entry is found until it
  is taken, as long as it lives and there is room for others.
-/

set_option autoImplicit false

namespace SealedEnvelope.PrekeyStore

/-! ## Answering an offer -/

/-- The answer to an offer, with a fresh index and fresh keys, and the entry to keep. -/
def prepare (s : Suite) (at_ : Milliseconds) (offer : Offer) :
    Drawing CallError (Answer × PrekeyEntry) := do
  let raw ← Drawing.bytes .random indexLength
  let index := Hex.encode raw.val
  let bundle ← Drawing.mapError .envelope Bundle.draw
  let (answer, session) ← CallError.onEnvelope (bundle.respond s index offer)
  return (answer, { index := index, session := session, issuedAt := at_ })

/-- An offer is answered by preparing the answer and then keeping the entry. -/
theorem issue_eq (s : Suite) (at_ : Milliseconds) (offer : Offer) :
    issue s at_ offer
      = (do
        let (answer, entry) ← Updating.lift (prepare s at_ offer)
        modify fun store => store.insert entry
        return answer) := by
  simp only [issue, prepare, Updating.lift_bind, Updating.lift_lift, Updating.lift_pure, bind_assoc,
    pure_bind]

/-- What becomes of an offer does not depend on the store, and the store changes only if the
offer is prepared. -/
theorem issue_apply (s : Suite) (at_ : Milliseconds) (store : PrekeyStore) (offer : Offer)
    (e : Entropy) :
    issue s at_ offer store e
      = (match (prepare s at_ offer e).1 with
        | .ok (answer, entry) => (.ok answer, store.insert entry)
        | .error err => (.error err, store), (prepare s at_ offer e).2) := by
  rw [issue_eq, Updating.bind_apply, Updating.lift_apply]
  cases (prepare s at_ offer e).1 <;> rfl

/-- An offer that is answered adds one entry, -/
theorem exists_entry_of_issue {s : Suite} {at_ : Milliseconds} {store store' : PrekeyStore}
    {offer : Offer} {e : Entropy} {answer : Answer}
    (h : (issue s at_ offer store e).1 = (.ok answer, store')) :
    ∃ entry, (prepare s at_ offer e).1 = .ok (answer, entry) ∧ store' = store.insert entry := by
  rw [issue_apply] at h
  cases hprepare : (prepare s at_ offer e).1 with
  | error err =>
    rw [hprepare] at h
    cases h
  | ok prepared =>
    obtain ⟨found, entry⟩ := prepared
    rw [hprepare] at h
    cases h
    exact ⟨entry, rfl, rfl⟩

/-- and one that is not changes nothing. -/
theorem eq_of_issue_eq_error {s : Suite} {at_ : Milliseconds} {store store' : PrekeyStore}
    {offer : Offer} {e : Entropy} {err : CallError}
    (h : (issue s at_ offer store e).1 = (.error err, store')) : store' = store := by
  rw [issue_apply] at h
  cases hprepare : (prepare s at_ offer e).1 with
  | error err =>
    rw [hprepare] at h
    cases h
    rfl
  | ok prepared =>
    rw [hprepare] at h
    cases h

/-- What is prepared is the answer of some fresh keys, under an index that is drawn. -/
theorem exists_bundle_of_prepare {s : Suite} {at_ : Milliseconds} {offer : Offer} {e : Entropy}
    {answer : Answer} {entry : PrekeyEntry} (h : (prepare s at_ offer e).1 = .ok (answer, entry)) :
    ∃ (raw : FixedBytes indexLength) (bundle : Bundle), entry.index = Hex.encode raw.val
      ∧ bundle.respond s entry.index offer = .ok (answer, entry.session)
      ∧ entry.issuedAt = at_ := by
  obtain ⟨raw, e₁, -, h₁⟩ := Drawing.exists_of_bind_eq_ok h
  obtain ⟨bundle, e₂, -, h₂⟩ := Drawing.exists_of_bind_eq_ok h₁
  obtain ⟨responded, e₃, hrespond, h₃⟩ := Drawing.exists_of_bind_eq_ok h₂
  obtain ⟨rfl, rfl⟩ := Prod.mk.inj (Except.ok.inj h₃)
  exact ⟨raw, bundle, rfl, CallError.onEnvelope_eq_ok_iff.1 (Drawing.lift_eq_ok_iff.1 hrespond).1,
    rfl⟩

/-- The answer names the index under which the entry is kept. -/
theorem index_of_prepare {s : Suite} {at_ : Milliseconds} {offer : Offer} {e : Entropy}
    {answer : Answer} {entry : PrekeyEntry} (h : (prepare s at_ offer e).1 = .ok (answer, entry)) :
    answer.index = entry.index := by
  obtain ⟨raw, bundle, -, hrespond, -⟩ := exists_bundle_of_prepare h
  rw [(Bundle.respond_eq_ok_iff.1 hrespond).2]

theorem issuedAt_of_prepare {s : Suite} {at_ : Milliseconds} {offer : Offer} {e : Entropy}
    {answer : Answer} {entry : PrekeyEntry} (h : (prepare s at_ offer e).1 = .ok (answer, entry)) :
    entry.issuedAt = at_ := by
  obtain ⟨raw, bundle, -, -, hissued⟩ := exists_bundle_of_prepare h
  exact hissued

/-- Whether an entry is kept under the index of its session, a responder's, and the index is the
text of random bytes. -/
structure Filed (entry : PrekeyEntry) : Prop where
  index : entry.session.index = entry.index
  role : entry.session.role = .responder
  drawn : ∃ raw : FixedBytes indexLength, entry.index = Hex.encode raw.val

/-- What is prepared is. -/
theorem filed_of_prepare {s : Suite} {at_ : Milliseconds} {offer : Offer} {e : Entropy}
    {answer : Answer} {entry : PrekeyEntry} (h : (prepare s at_ offer e).1 = .ok (answer, entry)) :
    Filed entry := by
  obtain ⟨raw, bundle, hindex, hrespond, -⟩ := exists_bundle_of_prepare h
  have hagree := (Bundle.respond_eq_ok_iff.1 hrespond).1
  have hsession := Bundle.role_index_of_agree hagree
  exact { index := hsession.2, role := hsession.1, drawn := ⟨raw, hindex⟩ }

/-- The index that the next bytes of a source make. -/
def drawnIndex (e : Entropy) : String := Hex.encode (e.peek indexLength).val

/-- The keys that are drawn after the index. -/
def drawnKeys (e : Entropy) : Bundle := Bundle.drawn (e.advance indexLength)

/-- What is kept for an offer of some keys. -/
def drawnEntry (s : Suite) (at_ : Milliseconds) (initiator : Bundle) (e : Entropy) :
    PrekeyEntry where
  index := drawnIndex e
  session := (drawnKeys e).session s initiator .responder (drawnIndex e)
  issuedAt := at_

/-- An offer is answered where random bytes are there and the keys go together. -/
theorem prepare_of_has {s : Suite} {at_ : Milliseconds} {initiator : Bundle} {e : Entropy}
    (he : e.has 112 = true) (h : initiator.Compatible s (drawnKeys e)) :
    (prepare s at_ (initiator.offer s) e).1
      = .ok ((drawnKeys e).answer s (drawnIndex e), drawnEntry s at_ initiator e) := by
  have hkeys : (e.advance indexLength).has 96 = true := Entropy.has_advance he
  have hdraw := Drawing.mapError_of_eq_ok (Bundle.draw_of_has hkeys) CallError.envelope
  have hrespond : CallError.onEnvelope ((drawnKeys e).respond s (drawnIndex e) (initiator.offer s))
      = .ok ((drawnKeys e).answer s (drawnIndex e),
          (drawnKeys e).session s initiator .responder (drawnIndex e)) := by
    rw [h.respond]
    rfl
  unfold prepare
  rw [Drawing.bind_of_eq_ok (Drawing.bytes_of_has (Entropy.has_of_le he (by decide)) _),
    Drawing.bind_of_eq_ok hdraw]
  show ((liftM (CallError.onEnvelope ((drawnKeys e).respond s (drawnIndex e) (initiator.offer s)))
    >>= _ : Drawing CallError (Answer × PrekeyEntry)) _).1 = _
  rw [Drawing.bind_of_eq_ok (Drawing.lift_eq_ok_iff.2 ⟨hrespond, rfl⟩)]
  rfl

/-! ## The oldest entry -/

/-- No entry is older than the oldest one. -/
theorem le_of_oldest?_eq_some {entries : List PrekeyEntry} {oldest entry : PrekeyEntry}
    (h : oldest? entries = some oldest) (hmem : entry ∈ entries) :
    oldest.issuedAt ≤ entry.issuedAt := by
  induction entries generalizing oldest with
  | nil => cases hmem
  | cons first rest ih =>
    rw [oldest?] at h
    split at h
    · next hrest =>
      -- There is no other entry to compare with.
      rw [oldest?_eq_none_iff.1 hrest, List.mem_singleton] at hmem
      cases h
      exact Nat.le_of_eq (congrArg PrekeyEntry.issuedAt hmem.symm)
    · next other hother =>
      split at h
      · next hlt =>
        cases h
        rcases List.mem_cons.1 hmem with rfl | hmem
        · exact Nat.le_of_lt hlt
        · exact ih hother hmem
      · next hge =>
        cases h
        rcases List.mem_cons.1 hmem with rfl | hmem
        · exact Nat.le_refl _
        · exact Nat.le_trans (Nat.not_lt.1 hge) (ih hother hmem)

/-- An entry that is older than all others is the oldest one, in whatever order the entries
are looked at. -/
theorem oldest?_eq_some_of_perm {entries rest : List PrekeyEntry} {first : PrekeyEntry}
    (hperm : entries.Perm (first :: rest)) (h : ∀ entry ∈ rest, first.issuedAt < entry.issuedAt) :
    oldest? entries = some first := by
  cases holdest : oldest? entries with
  | none =>
    rw [oldest?_eq_none_iff.1 holdest] at hperm
    exact absurd hperm.nil_eq (by simp)
  | some oldest =>
    have hle := le_of_oldest?_eq_some holdest (hperm.mem_iff.2 List.mem_cons_self)
    rcases List.mem_cons.1 (hperm.mem_iff.1 (mem_of_oldest? holdest)) with rfl | hmem
    · rfl
    · exact absurd hle (Nat.not_le.2 (h oldest hmem))

/-- As many of the oldest entries are dropped as there are too many. -/
theorem evictTo_perm (count : Nat) {entries ordered : List PrekeyEntry}
    (hperm : entries.Perm ordered)
    (hordered : ordered.Pairwise fun a b => a.issuedAt < b.issuedAt) :
    (evictTo count entries).Perm (ordered.drop (ordered.length - count)) := by
  have hlength := hperm.length_eq
  induction ordered generalizing entries with
  | nil =>
    have hroom : ([] : List PrekeyEntry).length ≤ count := Nat.zero_le count
    rw [hperm.eq_nil, evictTo, if_pos hroom, List.drop_nil]
  | cons first rest ih =>
    obtain ⟨hfirst, hrest⟩ := List.pairwise_cons.1 hordered
    unfold evictTo
    by_cases hroom : entries.length ≤ count
    · rw [if_pos hroom, ← hlength, Nat.sub_eq_zero_of_le hroom]
      exact hperm
    · have holdest := oldest?_eq_some_of_perm hperm hfirst
      have herase : (entries.erase first).Perm rest := by
        have h := hperm.erase first
        rwa [List.erase_cons_head] at h
      have hdrop : (first :: rest).length - count = rest.length - count + 1 := by
        rw [List.length_cons] at hlength ⊢
        omega
      rw [if_neg hroom, hdrop, List.drop_succ_cons]
      split
      · next hnone =>
        rw [holdest] at hnone
        cases hnone
      · next entry hsome =>
        rw [holdest] at hsome
        cases hsome
        exact ih herase hrest herase.length_eq

/-- Making room drops entries and changes none. -/
theorem evictTo_sublist (room : Nat) (entries : List PrekeyEntry) :
    (evictTo room entries).Sublist entries := by
  fun_induction evictTo room entries with
  | case1 entries hroom => exact .refl entries
  | case2 entries hroom hnone => exact .refl entries
  | case3 entries hroom entry hsome ih => exact ih.trans List.erase_sublist

/-- An insertion adds its entry and no other one. -/
theorem eq_or_mem_of_mem_insert {store : PrekeyStore} {entry other : PrekeyEntry}
    (h : other ∈ (store.insert entry).entries) : other = entry ∨ other ∈ store.entries := by
  unfold insert at h
  rcases List.mem_append.1 h with hkept | hnew
  · have hlive := (evictTo_sublist _ _).subset (List.mem_filter.1 hkept).1
    exact .inr (List.mem_filter.1 hlive).1
  · exact .inl (List.mem_singleton.1 hnew)

/-! ## Looking up and taking -/

/-- The entry under an index is one of the entries, and has the index. -/
theorem mem_of_find? {store : PrekeyStore} {index : String} {entry : PrekeyEntry}
    (h : store.find? index = some entry) : entry ∈ store.entries ∧ entry.index = index := by
  unfold find? at h
  have hindex := List.find?_some h
  exact ⟨List.mem_of_find?_eq_some h, eq_of_beq hindex⟩

/-- A prekey that is not there is not taken, and nothing changes. -/
theorem take_of_find?_eq_none {store : PrekeyStore} {index : String} (at_ : Milliseconds)
    (h : store.find? index = none) :
    store.take at_ index = (.error .prekeyNotFound, store) := by
  rw [take, h]

/-- A prekey that is there is taken out, and its session is given out if it can still be
used. -/
theorem take_of_find?_eq_some {store : PrekeyStore} {index : String} (at_ : Milliseconds)
    {entry : PrekeyEntry} (h : store.find? index = some entry) :
    store.take at_ index
      = (if isLive store.limits at_ entry then .ok entry.session else .error .prekeyNotFound,
        store.remove index) := by
  rw [take, h]

/-- Taking leaves nothing under the index, whether or not something was there. -/
theorem snd_take (store : PrekeyStore) (at_ : Milliseconds) (index : String) :
    (store.take at_ index).2 = store.remove index := by
  cases hfind : store.find? index with
  | none =>
    have hkept : ∀ entry ∈ store.entries, decide (entry.index ≠ index) = true := fun entry hentry =>
      decide_eq_true fun heq => List.find?_eq_none.1 hfind entry hentry (beq_iff_eq.2 heq)
    rw [take_of_find?_eq_none at_ hfind, remove, List.filter_eq_self.2 hkept]
  | some entry => rw [take_of_find?_eq_some at_ hfind]

/-- A prekey is taken exactly if it is there and can still be used. -/
theorem take_eq_ok_iff {store : PrekeyStore} {at_ : Milliseconds} {index : String}
    {session : Session} :
    (store.take at_ index).1 = .ok session
      ↔ ∃ entry, store.find? index = some entry ∧ at_ - entry.issuedAt ≤ store.limits.lifetime
          ∧ entry.session = session := by
  cases hfind : store.find? index with
  | none =>
    rw [take_of_find?_eq_none at_ hfind]
    exact iff_of_false nofun nofun
  | some entry =>
    rw [take_of_find?_eq_some at_ hfind]
    simp only [isLive, decide_eq_true_eq, Option.some.injEq, exists_eq_left']
    by_cases hfresh : at_ - entry.issuedAt ≤ store.limits.lifetime
    · simp only [hfresh, if_true, Except.ok.injEq, true_and]
    · simp only [hfresh, if_false, reduceCtorEq, false_and]

/-! ## What others leave alone -/

/-- What is found first is still found first among some of the entries, if it is one of them. -/
theorem find?_filter_eq_some {α : Type} {l : List α} {p q : α → Bool} {a : α}
    (h : l.find? p = some a) (ha : q a = true) : (l.filter q).find? p = some a := by
  induction l with
  | nil => cases h
  | cons b l ih =>
    cases hb : p b with
    | true =>
      rw [List.find?_cons_of_pos hb] at h
      obtain rfl := Option.some.inj h
      rw [List.filter_cons_of_pos ha, List.find?_cons_of_pos hb]
    | false =>
      rw [List.find?_cons_of_neg (Bool.not_eq_true _ ▸ hb)] at h
      cases hq : q b with
      | true =>
        rw [List.filter_cons_of_pos hq, List.find?_cons_of_neg (Bool.not_eq_true _ ▸ hb)]
        exact ih h
      | false =>
        rw [List.filter_cons_of_neg (Bool.not_eq_true _ ▸ hq)]
        exact ih h

variable {store : PrekeyStore} {index : String} {entry : PrekeyEntry}

/-- An entry is found under its index once it is in the store. -/
theorem find?_insert_self (store : PrekeyStore) (entry : PrekeyEntry) :
    (store.insert entry).find? entry.index = some entry := by
  unfold find? insert
  have hothers : ∀ other ∈ (evictTo (max store.limits.capacity 1 - 1)
      (store.purge entry.issuedAt).entries).filter (·.index ≠ entry.index),
      ¬ (other.index == entry.index) = true := by
    intro other hother heq
    have hne := (List.mem_filter.1 hother).2
    rw [decide_eq_true_eq] at hne
    exact hne (eq_of_beq heq)
  rw [List.find?_append, List.find?_eq_none.2 hothers, Option.none_or]
  exact List.find?_cons_of_pos (beq_self_eq_true entry.index)

/-- It is still found after tidying up, if it can be used. -/
theorem find?_purge {at_ : Milliseconds} (h : store.find? index = some entry)
    (hlive : isLive store.limits at_ entry = true) : (store.purge at_).find? index = some entry :=
  find?_filter_eq_some h hlive

/-- It is still found after another one has come, if it can be used and there is room. -/
theorem find?_insert_of_ne (h : store.find? index = some entry) {other : PrekeyEntry}
    (hne : other.index ≠ index) (hlive : isLive store.limits other.issuedAt entry = true)
    (hroom : store.size < store.limits.capacity) : (store.insert other).find? index = some entry := by
  have hindex := (mem_of_find? h).2
  have hpurge := find?_purge h hlive
  have hlength : (store.purge other.issuedAt).entries.length
      ≤ max store.limits.capacity 1 - 1 := by
    have hle : (store.purge other.issuedAt).entries.length ≤ store.entries.length :=
      List.length_filter_le _ _
    have hsize : store.entries.length < store.limits.capacity := hroom
    omega
  have hkept : evictTo (max store.limits.capacity 1 - 1) (store.purge other.issuedAt).entries
      = (store.purge other.issuedAt).entries := by
    rw [evictTo, if_pos hlength]
  unfold find? insert
  simp only [hkept]
  rw [List.find?_append, find?_filter_eq_some hpurge, Option.some_or]
  rw [decide_eq_true_eq, hindex]
  exact hne.symm

/-- It is still found after another one has been taken. -/
theorem find?_take_of_ne (h : store.find? index = some entry) {other : String} (hne : other ≠ index)
    (at_ : Milliseconds) : (store.take at_ other).2.find? index = some entry := by
  cases hother : store.find? other with
  | none =>
    rw [take_of_find?_eq_none at_ hother]
    exact h
  | some found =>
    rw [take_of_find?_eq_some at_ hother]
    refine find?_filter_eq_some h ?_
    rw [decide_eq_true_eq, (mem_of_find? h).2]
    exact hne.symm

/-- No operation changes the limits, and only an insertion adds an entry. -/
theorem limits_take (store : PrekeyStore) (at_ : Milliseconds) (index : String) :
    (store.take at_ index).2.limits = store.limits := by
  unfold take
  cases store.find? index with
  | none => rfl
  | some entry => rfl

theorem size_insert_le (store : PrekeyStore) (entry : PrekeyEntry) :
    (store.insert entry).size ≤ store.size + 1 := by
  have hkept := (evictTo_sublist (max store.limits.capacity 1 - 1)
    (store.purge entry.issuedAt).entries).length_le
  have hlive : (store.purge entry.issuedAt).entries.length ≤ store.entries.length :=
    List.length_filter_le _ _
  unfold size insert
  simp only [List.length_append, List.length_singleton]
  refine Nat.add_le_add_right (Nat.le_trans (List.length_filter_le _ _) ?_) 1
  exact Nat.le_trans hkept hlive

theorem size_take_le (store : PrekeyStore) (at_ : Milliseconds) (index : String) :
    (store.take at_ index).2.size ≤ store.size := by
  unfold take
  cases store.find? index with
  | none => exact Nat.le_refl _
  | some entry => exact List.length_filter_le _ _

end SealedEnvelope.PrekeyStore
