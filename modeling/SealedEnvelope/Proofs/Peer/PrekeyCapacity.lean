import SealedEnvelope.Proofs.Peer.PrekeyPurge

/-!
# `SealedEnvelope.Proofs.Peer.PrekeyCapacity`: how many prekeys wait, and which one makes room

A store holds one prekey at least and as many as its capacity at most, each under the index of its
own session. That is so in every state that a store can come to (`Reachable`): whatever is asked
of it, whatever time passes, and in whatever order it keeps its entries. No index has to be fresh
and no two moments have to differ.

Making room is a loop that drops the oldest entry until there is room. Because there never were
more entries than fit, it runs once at most, and that is what an offer is held to here (`Issues`).

Main statements:

* `exists_evicted`: which entry makes room, if there is one entry too many at most;
* `WellKept.perform`: each action keeps a store well kept;
* `issue_evicts_oldest`: what is so of every state that can be reached, and what an offer does there.
-/

set_option autoImplicit false

namespace SealedEnvelope

open StoreAction (reach reach_cons)

namespace PrekeyStore

/-! ## States that can be reached -/

/-- The states that a store of some limits can come to. The order of the entries is not known, so
that they may be found in any other one at any time. -/
inductive Reachable (s : Suite) (limits : PrekeyLimits) : Milliseconds × PrekeyStore → Prop
  | start (now : Milliseconds) : Reachable s limits (now, { limits := limits })
  | perform {state : Milliseconds × PrekeyStore} (h : Reachable s limits state)
      (action : StoreAction) : Reachable s limits (PrekeyStore.perform s action state).2
  | reorder {now : Milliseconds} {store : PrekeyStore} {entries : List PrekeyEntry}
      (h : Reachable s limits (now, store)) (hperm : entries.Perm store.entries) :
      Reachable s limits (now, { store with entries := entries })

/-- Every history leads to such a state. -/
theorem Reachable.reach {s : Suite} {limits : PrekeyLimits} {state : Milliseconds × PrekeyStore}
    (h : Reachable s limits state) (actions : List StoreAction) :
    Reachable s limits (StoreAction.reach (PrekeyStore.perform s) state actions) := by
  induction actions generalizing state with
  | nil => exact h
  | cons action rest ih => exact ih (h.perform action)

/-- What a store is held to at a time: it has the limits that it was made with, no more entries than
fit, each of them under the index of its own session, a responder's, no two under one index, and
none from the future. -/
structure WellKept (limits : PrekeyLimits) (now : Milliseconds) (store : PrekeyStore) : Prop where
  limits_eq : store.limits = limits
  size_le : store.size ≤ max 1 limits.capacity
  filed : ∀ entry ∈ store.entries, Filed entry
  past : ∀ entry ∈ store.entries, entry.issuedAt ≤ now
  distinct : store.Distinct

/-! ## Making room -/

/-- Where there is room, nothing is dropped. -/
theorem evictTo_of_le {count : Nat} {entries : List PrekeyEntry} (h : entries.length ≤ count) :
    evictTo count entries = entries := by
  rw [evictTo, if_pos h]

/-- Room is made. -/
theorem length_evictTo_le (count : Nat) (entries : List PrekeyEntry) :
    (evictTo count entries).length ≤ count := by
  fun_induction evictTo count entries with
  | case1 entries hroom => exact hroom
  | case2 entries hfull hnone =>
    -- A list without an oldest entry is empty, and for that there is always room.
    rw [oldest?_eq_none_iff.1 hnone] at hfull
    exact absurd (Nat.zero_le count) hfull
  | case3 entries hfull entry hsome ih => exact ih

/-- If there is one entry too many, the oldest is the only one that is dropped. -/
theorem evictTo_of_length_eq {count : Nat} {entries : List PrekeyEntry}
    (h : entries.length = count + 1) :
    ∃ oldest, oldest? entries = some oldest ∧ evictTo count entries = entries.erase oldest := by
  cases holdest : oldest? entries with
  | none =>
    rw [oldest?_eq_none_iff.1 holdest] at h
    cases h
  | some oldest =>
    have hfull : ¬ entries.length ≤ count := by omega
    have hrest : (entries.erase oldest).length ≤ count := by
      rw [List.length_erase_of_mem (mem_of_oldest? holdest)]
      omega
    refine ⟨oldest, rfl, ?_⟩
    rw [evictTo, if_neg hfull]
    split
    · next hnone =>
      rw [holdest] at hnone
      cases hnone
    · next entry hsome =>
      rw [holdest] at hsome
      cases hsome
      exact evictTo_of_le hrest

/-- If there is one entry too many at most, no more than one is dropped, which is as old as any
other. -/
theorem exists_evicted {count : Nat} {entries : List PrekeyEntry} (hnodup : entries.Nodup)
    (h : entries.length ≤ count + 1) :
    ∃ evicted : Option PrekeyEntry,
      (evicted.isSome = true ↔ count < entries.length)
        ∧ (∀ old, evicted = some old →
            old ∈ entries ∧ ∀ other ∈ entries, old.issuedAt ≤ other.issuedAt)
        ∧ ∀ other, other ∈ evictTo count entries ↔ other ∈ entries ∧ evicted ≠ some other := by
  by_cases hroom : entries.length ≤ count
  · refine ⟨none, ?_, nofun, fun other => ?_⟩
    · simp [hroom]
    · simp [evictTo_of_le hroom]
  · obtain ⟨oldest, holdest, hevict⟩ :=
      evictTo_of_length_eq (Nat.le_antisymm h (Nat.not_le.1 hroom))
    refine ⟨some oldest, ?_, ?_, fun other => ?_⟩
    · simp [Nat.not_le.1 hroom]
    · intro old hold
      obtain rfl := Option.some.inj hold
      exact ⟨mem_of_oldest? holdest, fun other hother => le_of_oldest?_eq_some holdest hother⟩
    · rw [hevict, hnodup.mem_erase_iff, and_comm]
      simp [eq_comm]

/-! ## What keeps a store well kept -/

namespace WellKept

variable {s : Suite} {limits : PrekeyLimits} {now : Milliseconds} {store : PrekeyStore}

theorem empty (limits : PrekeyLimits) (now : Milliseconds) :
    WellKept limits now { limits := limits } where
  limits_eq := rfl
  size_le := Nat.zero_le _
  filed := nofun
  past := nofun
  distinct := List.nodup_nil

/-- The order of the entries is of no matter. -/
theorem reorder (h : WellKept limits now store) {entries : List PrekeyEntry}
    (hperm : entries.Perm store.entries) :
    WellKept limits now { store with entries := entries } where
  limits_eq := h.limits_eq
  size_le := Nat.le_trans (Nat.le_of_eq hperm.length_eq) h.size_le
  filed entry hentry := h.filed entry (hperm.subset hentry)
  past entry hentry := h.past entry (hperm.subset hentry)
  distinct := (hperm.map PrekeyEntry.index).nodup_iff.2 h.distinct

/-- A store that loses entries stays well kept. -/
theorem filter (h : WellKept limits now store) (keeps : PrekeyEntry → Bool) :
    WellKept limits now { store with entries := store.entries.filter keeps } where
  limits_eq := h.limits_eq
  size_le := Nat.le_trans (List.length_filter_le _ _) h.size_le
  filed entry hentry := h.filed entry (List.mem_filter.1 hentry).1
  past entry hentry := h.past entry (List.mem_filter.1 hentry).1
  distinct := h.distinct.filter keeps

/-- Time goes by. -/
theorem wait (h : WellKept limits now store) (time : Milliseconds) :
    WellKept limits (now + time) store where
  limits_eq := h.limits_eq
  size_le := h.size_le
  filed := h.filed
  past entry hentry := Nat.le_add_right_of_le (h.past entry hentry)
  distinct := h.distinct

/-- An entry comes, for which room has been made. -/
theorem insert (h : WellKept limits now store) {entry : PrekeyEntry} (hfiled : Filed entry)
    (hnow : entry.issuedAt = now) : WellKept limits now (store.insert entry) where
  limits_eq := h.limits_eq
  size_le := by
    have hroom := length_evictTo_le (max store.limits.capacity 1 - 1)
      (store.purge entry.issuedAt).entries
    have hkept := List.length_filter_le (fun other => decide (other.index ≠ entry.index))
      (evictTo (max store.limits.capacity 1 - 1) (store.purge entry.issuedAt).entries)
    unfold size PrekeyStore.insert
    simp only [List.length_append, List.length_singleton]
    rw [h.limits_eq] at hroom hkept ⊢
    omega
  filed other hother := by
    rcases eq_or_mem_of_mem_insert hother with rfl | hmem
    · exact hfiled
    · exact h.filed other hmem
  past other hother := by
    rcases eq_or_mem_of_mem_insert hother with rfl | hmem
    · exact Nat.le_of_eq hnow
    · exact h.past other hmem
  distinct := insertBy_first store entry ▸ distinct_insertBy .first h.distinct entry

/-- Whatever is asked of a store leaves it well kept. -/
theorem perform {state : Milliseconds × PrekeyStore} (h : WellKept limits state.1 state.2)
    (action : StoreAction) :
    WellKept limits (PrekeyStore.perform s action state).2.1
      (PrekeyStore.perform s action state).2.2 := by
  obtain ⟨now, store⟩ := state
  cases action with
  | issue offer entropy =>
    simp only [PrekeyStore.perform, issue_apply]
    cases hprepare : (prepare s now offer entropy).1 with
    | error err => exact h
    | ok prepared => exact h.insert (filed_of_prepare hprepare) (issuedAt_of_prepare hprepare)
  | take index =>
    show WellKept limits now (store.take now index).2
    rw [snd_take]
    exact h.filter _
  | purge => exact h.filter _
  | count => exact h
  | wait time => exact h.wait time

end WellKept

/-- So every store that can be reached is well kept. -/
theorem Reachable.wellKept {s : Suite} {limits : PrekeyLimits} {state : Milliseconds × PrekeyStore}
    (h : Reachable s limits state) : WellKept limits state.1 state.2 := by
  induction h with
  | start now => exact .empty limits now
  | perform _ action ih => exact ih.perform action
  | reorder _ hperm ih => exact ih.reorder hperm

/-! ## What an offer does -/

/-- What becomes of a store when an offer is answered. -/
structure Issues (s : Suite) (now : Milliseconds) (store : PrekeyStore) (offer : Offer)
    (answer : Answer) (store' : PrekeyStore) (entry : PrekeyEntry)
    (evicted : Option PrekeyEntry) : Prop where
  /-- The new entry has the session of the answer, under the index in it. -/
  answered : ∃ bundle : Bundle, bundle.respond s answer.index offer = .ok (answer, entry.session)
  index : entry.index = answer.index
  issuedAt : entry.issuedAt = now
  /-- An entry makes room exactly if the store is full of entries that are not too old, -/
  full : evicted.isSome = true
    ↔ max 1 store.limits.capacity
      ≤ store.entries.countP fun other => now - other.issuedAt ≤ store.limits.lifetime
  /-- and it is one of them, issued no later than any other. -/
  oldest : ∀ old, evicted = some old →
    (old ∈ store.entries ∧ now - old.issuedAt ≤ store.limits.lifetime)
      ∧ ∀ other ∈ store.entries, now - other.issuedAt ≤ store.limits.lifetime →
        old.issuedAt ≤ other.issuedAt
  /-- The new entry is there afterwards, and of the others all that are not too old, have not made
  room and were not under its index. -/
  mem_iff : ∀ other, other ∈ store'.entries
    ↔ other = entry
      ∨ (other ∈ store.entries ∧ now - other.issuedAt ≤ store.limits.lifetime)
        ∧ evicted ≠ some other ∧ other.index ≠ answer.index
  limits : store'.limits = store.limits

variable {s : Suite} {limits : PrekeyLimits} {now : Milliseconds} {store store' : PrekeyStore}

theorem mem_purge_iff {entry : PrekeyEntry} :
    entry ∈ (store.purge now).entries
      ↔ entry ∈ store.entries ∧ now - entry.issuedAt ≤ store.limits.lifetime := by
  rw [purge, List.mem_filter, isLive, decide_eq_true_eq]

/-- A well kept store does with an offer that is answered what it should. -/
theorem WellKept.exists_issues (h : WellKept limits now store) {offer : Offer} {entropy : Entropy}
    {answer : Answer} (hissue : (issue s now offer store entropy).1 = (.ok answer, store')) :
    ∃ entry evicted, Issues s now store offer answer store' entry evicted := by
  obtain ⟨entry, hprepare, rfl⟩ := exists_entry_of_issue hissue
  obtain ⟨-, bundle, -, hrespond, rfl⟩ := exists_bundle_of_prepare hprepare
  have hindex := index_of_prepare hprepare
  -- Before the entry comes, there is one entry too many at most.
  have hlength : (store.purge entry.issuedAt).entries.length
      ≤ max store.limits.capacity 1 - 1 + 1 := by
    have hle := List.length_filter_le (isLive store.limits entry.issuedAt) store.entries
    have hsize := h.size_le
    rw [size] at hsize
    rw [h.limits_eq] at hle ⊢
    show (store.entries.filter (isLive store.limits entry.issuedAt)).length ≤ _
    rw [h.limits_eq]
    omega
  have hnodup : (store.purge entry.issuedAt).entries.Nodup := (h.distinct.of_map _).filter _
  obtain ⟨evicted, hsome, holdest, hmem⟩ := exists_evicted hnodup hlength
  have hcount : (store.purge entry.issuedAt).entries.length
      = store.entries.countP fun other => entry.issuedAt - other.issuedAt ≤ store.limits.lifetime :=
    List.countP_eq_length_filter.symm
  refine ⟨entry, evicted, ⟨bundle, hindex ▸ hrespond⟩, hindex.symm, rfl, ?_, ?_, fun other => ?_, rfl⟩
  · rw [hsome, hcount]
    omega
  · intro old hold
    obtain ⟨hin, hmin⟩ := holdest old hold
    exact ⟨mem_purge_iff.1 hin, fun other hother hyoung => hmin other (mem_purge_iff.2 ⟨hother, hyoung⟩)⟩
  · show other ∈ List.filter _ (evictTo _ (store.purge entry.issuedAt).entries) ++ [entry] ↔ _
    rw [List.mem_append, List.mem_singleton, List.mem_filter, hmem, mem_purge_iff, decide_eq_true_eq,
      hindex, or_comm, and_assoc]

/-- In every state that can be reached, a store has as many entries as fit, one at least, each under
the index of its own session, a responder's, and no two under one index.

An offer that is answered removes the entries that are too old and, exactly if the store is full of
others, one of these, which is issued no later than any other of them. The new session is kept under
the index of the answer, in the place of what was there, and nothing else is touched. An offer that
is not answered leaves everything as it was. -/
theorem issue_evicts_oldest (h : Reachable s limits (now, store)) :
    (store.size ≤ max 1 limits.capacity
        ∧ (∀ entry ∈ store.entries,
            entry.session.index = entry.index ∧ entry.session.role = .responder)
        ∧ (store.entries.map PrekeyEntry.index).Nodup)
      ∧ ∀ (offer : Offer) (entropy : Entropy),
        (∀ answer store', (issue s now offer store entropy).1 = (.ok answer, store') →
            (∃ entry evicted, Issues s now store offer answer store' entry evicted)
              ∧ (perform s (.issue offer entropy) (now, store)).2 = (now, store'))
          ∧ ∀ error store', (issue s now offer store entropy).1 = (.error error, store') →
            store' = store ∧ (perform s (.issue offer entropy) (now, store)).2 = (now, store) := by
  have hkept : WellKept limits now store := h.wellKept
  refine ⟨⟨hkept.size_le, fun entry hentry => ?_, hkept.distinct⟩, fun offer entropy => ⟨?_, ?_⟩⟩
  · have hfiled := hkept.filed entry hentry
    exact ⟨hfiled.index, hfiled.role⟩
  · intro answer store' hissue
    exact ⟨hkept.exists_issues hissue, by rw [perform, hissue]⟩
  · intro error store' hissue
    have hsame := eq_of_issue_eq_error hissue
    refine ⟨hsame, ?_⟩
    rw [perform, hissue, hsame]

/-- A source of an index and then the keys of seed one. -/
def oneKeysSource (index : UInt8) : Entropy :=
  .ofBytes (List.replicate 16 index ++ 1 :: List.replicate 31 0 ++ 4 :: List.replicate 31 0
    ++ 5 :: List.replicate 31 0)

/-- In a store without capacity one prekey makes room for the next, at the same moment and under the
same index. -/
theorem issue_evicts_oldest_noCapacity :
    let offer := Bundle.zeroKeys.offer .twoSigners
    ∃ (answer answer' : Answer) (store store' : PrekeyStore) (entry old : PrekeyEntry),
      (issue .twoSigners 5 offer { limits := ⟨10, 0⟩ } (oneKeysSource 8)).1 = (.ok answer, store)
        ∧ (issue .twoSigners 5 offer store (oneKeysSource 8)).1 = (.ok answer', store')
        ∧ Issues .twoSigners 5 store offer answer' store' entry (some old)
        ∧ store.size ≤ 1 := by
  have hkeys : Bundle.zeroKeys.Compatible .twoSigners (drawnKeys (oneKeysSource 8)) := by
    have heq : drawnKeys (oneKeysSource 8) = Bundle.oneKeys := by
      decide +kernel
    exact heq ▸ .of_zeroKeys
  have hissue (store : PrekeyStore) :
      (issue .twoSigners 5 (Bundle.zeroKeys.offer .twoSigners) store (oneKeysSource 8)).1
        = (.ok ((drawnKeys (oneKeysSource 8)).answer .twoSigners (drawnIndex (oneKeysSource 8))),
          store.insert (drawnEntry .twoSigners 5 Bundle.zeroKeys (oneKeysSource 8))) := by
    rw [issue_apply, prepare_of_has rfl hkeys]
  have hstart : Reachable .twoSigners ⟨10, 0⟩ (5, { limits := ⟨10, 0⟩ }) := .start 5
  obtain ⟨-, hoffer⟩ := issue_evicts_oldest hstart
  obtain ⟨⟨kept, none?, hkept⟩, hstate⟩ := (hoffer _ _).1 _ _ (hissue _)
  have hlater := hstart.perform (.issue (Bundle.zeroKeys.offer .twoSigners) (oneKeysSource 8))
  rw [hstate] at hlater
  obtain ⟨⟨hsize, -⟩, hoffer'⟩ := issue_evicts_oldest hlater
  obtain ⟨⟨entry, evicted, hissued⟩, -⟩ := (hoffer' _ _).1 _ _ (hissue _)
  -- The first prekey is there and not too old, so that one has to go.
  have hthere := (hkept.mem_iff kept).2 (.inl rfl)
  have hsome : evicted.isSome = true := by
    refine hissued.full.2 (List.countP_pos_iff.2 ⟨kept, hthere, ?_⟩)
    rw [hkept.issuedAt]
    rfl
  obtain ⟨old, rfl⟩ := Option.isSome_iff_exists.1 hsome
  exact ⟨_, _, _, _, entry, old, hissue _, hissue _, hissued, hsize⟩

end PrekeyStore

end SealedEnvelope
