import SealedEnvelope.Proofs.Peer.PrekeyStore

/-!
# `SealedEnvelope.Proofs.Peer.PrekeyQueue`: a prekey store is a queue of limited length and age

A store finds out again and again which of its entries is the oldest, and looks at the age of
an entry in three places. `PrekeyQueue` is what comes of it: entries in the order of their
issue, the old ones dropped and the first one making room.

A history is a list of `StoreAction`s, in which time passes and offers may be refused, each
with random bytes of its own. A store and a queue perform the same actions, and `outcomes`
are what a caller sees of them. It is assumed of a history that no index is drawn twice, and
that no two prekeys are issued at the same time (`Precedes`).

Main statements:

* `Refines.perform`: an action has the same outcome on a store and on the queue that it
  refines, and leaves it a refinement, in whatever order the store keeps its entries;
* `PrekeyQueue.Waits.run`: what an entry of a queue survives;
* `PrekeyStore.outcomes_eq_queue`: whole histories, and which prekeys are found at their end.
-/

set_option autoImplicit false

namespace SealedEnvelope

open PrekeyStore (prepare isLive)

/-! ## Histories -/

/-- Something that is asked of a store, or the passing of time. -/
inductive StoreAction where
  | issue (offer : Offer) (entropy : Entropy)
  | take (index : String)
  | purge
  | count
  | wait (time : Milliseconds)

/-- What a caller sees of an action. -/
inductive StoreOutcome where
  | issued (result : Except CallError Answer)
  | taken (result : Except CallError Session)
  | purged (count : Nat)
  | counted (count : Nat)
  | waited

namespace StoreAction

/-- The time that passes. -/
def time : StoreAction → Milliseconds
  | wait time => time
  | _ => 0

/-- The time that passes in a history. -/
def elapsed : List StoreAction → Milliseconds
  | [] => 0
  | action :: rest => action.time + elapsed rest

/-- The entry that an action issues at a time, if it does. -/
def issued (s : Suite) (now : Milliseconds) : StoreAction → List PrekeyEntry
  | issue offer entropy =>
    match (prepare s now offer entropy).1 with
    | .ok (_, entry) => [entry]
    | .error _ => []
  | _ => []

/-- The entries that are issued in a history, in their order. -/
def issues (s : Suite) : Milliseconds → List StoreAction → List PrekeyEntry
  | _, [] => []
  | now, action :: rest => action.issued s now ++ issues s (now + action.time) rest

section
variable {σ : Type} (perform : StoreAction → σ → StoreOutcome × σ)

/-- What is seen of a history, given how an action is performed. -/
def outcomes : σ → List StoreAction → List StoreOutcome
  | _, [] => []
  | state, action :: rest => (perform action state).1 :: outcomes (perform action state).2 rest

/-- The state that a history ends in. -/
def reach (state : σ) (actions : List StoreAction) : σ :=
  actions.foldl (fun state action => (perform action state).2) state

theorem reach_cons (state : σ) (action : StoreAction) (rest : List StoreAction) :
    reach perform state (action :: rest) = reach perform (perform action state).2 rest :=
  rfl

theorem reach_append (state : σ) (actions rest : List StoreAction) :
    reach perform state (actions ++ rest) = reach perform (reach perform state actions) rest :=
  List.foldl_append

end

theorem elapsed_cons (action : StoreAction) (actions : List StoreAction) :
    elapsed (action :: actions) = action.time + elapsed actions := rfl

/-- The time at the end of a history. -/
theorem fst_reach {τ : Type} {perform : StoreAction → Milliseconds × τ → StoreOutcome × Milliseconds × τ}
    (h : ∀ action now state, (perform action (now, state)).2.1 = now + action.time)
    (now : Milliseconds) (state : τ) (actions : List StoreAction) :
    (reach perform (now, state) actions).1 = now + elapsed actions := by
  induction actions generalizing now state with
  | nil => rfl
  | cons action rest ih =>
    have hrest := ih (perform action (now, state)).2.1 (perform action (now, state)).2.2
    rw [reach_cons, elapsed_cons, ← Nat.add_assoc, ← h action now state]
    exact hrest

theorem elapsed_append (actions rest : List StoreAction) :
    elapsed (actions ++ rest) = elapsed actions + elapsed rest := by
  induction actions with
  | nil => exact (Nat.zero_add _).symm
  | cons action actions ih =>
    rw [List.cons_append, elapsed_cons, ih, elapsed_cons, Nat.add_assoc]

end StoreAction

/-- Performs an action on a store at a time. -/
def PrekeyStore.perform (s : Suite) :
    StoreAction → Milliseconds × PrekeyStore → StoreOutcome × Milliseconds × PrekeyStore
  | .issue offer entropy, (now, store) =>
    let (issued, store) := (issue s now offer store entropy).1
    (.issued issued, now, store)
  | .take index, (now, store) =>
    let (result, store) := store.take now index
    (.taken result, now, store)
  | .purge, (now, store) =>
    let purged := store.purge now
    (.purged (store.size - purged.size), now, purged)
  | .count, (now, store) => (.counted store.size, now, store)
  | .wait time, (now, store) => (.waited, now + time, store)

theorem PrekeyStore.perform_snd (s : Suite) (action : StoreAction) (now : Milliseconds)
    (store : PrekeyStore) :
    (PrekeyStore.perform s action (now, store)).2
      = (now + action.time, (PrekeyStore.perform s action (now, store)).2.2) := by
  cases action with
  | issue offer entropy =>
    rw [PrekeyStore.perform]
    split <;> rfl
  | _ => rfl

theorem PrekeyStore.fst_reach (s : Suite) (actions : List StoreAction) (now : Milliseconds)
    (store : PrekeyStore) :
    (StoreAction.reach (PrekeyStore.perform s) (now, store) actions).1
      = now + StoreAction.elapsed actions :=
  StoreAction.fst_reach (fun action now store =>
    congrArg Prod.fst (PrekeyStore.perform_snd s action now store)) now store actions

/-! ## The queue -/

/-- Prekeys in the order of their issue. -/
structure PrekeyQueue where
  limits : PrekeyLimits
  waiting : List PrekeyEntry := []

namespace PrekeyQueue

/-- For how many prekeys there is room, which is one at least. -/
def room (queue : PrekeyQueue) : Nat := max 1 queue.limits.capacity

/-- The prekeys that are not older than the lifetime. -/
def live (queue : PrekeyQueue) (now : Milliseconds) : List PrekeyEntry :=
  queue.waiting.filter fun entry => now - entry.issuedAt ≤ queue.limits.lifetime

/-- The prekeys that stay when one more comes: the old ones are dropped, and then the one in
front if there is no room. -/
def makeRoom (queue : PrekeyQueue) (now : Milliseconds) : List PrekeyEntry :=
  if queue.room ≤ (queue.live now).length then (queue.live now).tail else queue.live now

/-- The queue with one more prekey at its end. -/
def join (queue : PrekeyQueue) (entry : PrekeyEntry) : PrekeyQueue :=
  { queue with waiting := queue.makeRoom entry.issuedAt ++ [entry] }

/-- The session of the prekey of an index, if there is one that is not too old, and the queue
without the prekey. -/
def leave (queue : PrekeyQueue) (now : Milliseconds) (index : String) :
    Except CallError Session × PrekeyQueue :=
  (match (queue.live now).find? (·.index == index) with
    | some entry => .ok entry.session
    | none => .error .prekeyNotFound,
    { queue with waiting := queue.waiting.filter (·.index ≠ index) })

/-- The number of prekeys that are too old, and the queue without them. -/
def purge (queue : PrekeyQueue) (now : Milliseconds) : Nat × PrekeyQueue :=
  (queue.waiting.countP fun entry => queue.limits.lifetime < now - entry.issuedAt,
    { queue with waiting := queue.live now })

/-- Performs an action on a queue at a time. -/
def perform (s : Suite) :
    StoreAction → Milliseconds × PrekeyQueue → StoreOutcome × Milliseconds × PrekeyQueue
  | .issue offer entropy, (now, queue) =>
    match (prepare s now offer entropy).1 with
    | .ok (answer, entry) => (.issued (.ok answer), now, queue.join entry)
    | .error err => (.issued (.error err), now, queue)
  | .take index, (now, queue) =>
    let (result, queue) := queue.leave now index
    (.taken result, now, queue)
  | .purge, (now, queue) =>
    let (count, queue) := queue.purge now
    (.purged count, now, queue)
  | .count, (now, queue) => (.counted queue.waiting.length, now, queue)
  | .wait time, (now, queue) => (.waited, now + time, queue)

theorem perform_snd (s : Suite) (action : StoreAction) (now : Milliseconds)
    (queue : PrekeyQueue) :
    (perform s action (now, queue)).2
      = (now + action.time, (perform s action (now, queue)).2.2) := by
  cases action with
  | issue offer entropy =>
    rw [perform]
    split <;> rfl
  | _ => rfl

end PrekeyQueue

/-! ## Refinement -/

/-- Whether an entry was issued before another one, under another index. -/
def Precedes (entry later : PrekeyEntry) : Prop :=
  entry.index ≠ later.index ∧ entry.issuedAt < later.issuedAt

instance (entry later : PrekeyEntry) : Decidable (Precedes entry later) :=
  inferInstanceAs (Decidable (_ ∧ _))

/-- Whether a store has the entries of a queue, in any order. -/
structure Refines (store : PrekeyStore) (queue : PrekeyQueue) : Prop where
  limits : store.limits = queue.limits
  entries : store.entries.Perm queue.waiting

namespace PrekeyQueue

/-- Whether a queue is in order, before these entries are issued, and not too long. -/
structure Orderly (queue : PrekeyQueue) (later : List PrekeyEntry) : Prop where
  precedes : (queue.waiting ++ later).Pairwise Precedes
  length_le : queue.waiting.length ≤ queue.room

variable {queue : PrekeyQueue} {later : List PrekeyEntry}

theorem live_sublist (queue : PrekeyQueue) (now : Milliseconds) :
    (queue.live now).Sublist queue.waiting :=
  List.filter_sublist

theorem makeRoom_sublist (queue : PrekeyQueue) (now : Milliseconds) :
    (queue.makeRoom now).Sublist queue.waiting := by
  unfold makeRoom
  split
  · exact (List.tail_sublist _).trans (queue.live_sublist now)
  · exact queue.live_sublist now

/-- There is room for one more then. -/
theorem length_makeRoom_lt (h : queue.waiting.length ≤ queue.room) (now : Milliseconds) :
    (queue.makeRoom now).length < queue.room := by
  have hlive := (queue.live_sublist now).length_le
  have hroom : 1 ≤ queue.room := Nat.le_max_left ..
  unfold makeRoom
  split
  · rw [List.length_tail]
    omega
  · omega

theorem Orderly.waiting (h : queue.Orderly later) : queue.waiting.Pairwise Precedes :=
  (List.pairwise_append.1 h.precedes).1

/-- A queue that loses entries stays in order. -/
theorem Orderly.sublist (h : queue.Orderly later) {fewer : List PrekeyEntry}
    (hsub : fewer.Sublist queue.waiting) : Orderly { queue with waiting := fewer } later where
  precedes := h.precedes.sublist (hsub.append_right later)
  length_le := Nat.le_trans hsub.length_le h.length_le

/-- A queue that a prekey joins stays in order. -/
theorem Orderly.join {entry : PrekeyEntry} (h : queue.Orderly (entry :: later)) :
    (queue.join entry).Orderly later where
  precedes := by
    show ((queue.makeRoom entry.issuedAt ++ [entry]) ++ later).Pairwise Precedes
    rw [List.append_assoc]
    exact h.precedes.sublist ((queue.makeRoom_sublist _).append_right _)
  length_le := by
    show (queue.makeRoom entry.issuedAt ++ [entry]).length ≤ queue.room
    rw [List.length_append, List.length_singleton]
    exact length_makeRoom_lt h.length_le _

/-- Of entries in order, each is the one that is found under its index. -/
theorem find?_eq_some_of_mem {entries : List PrekeyEntry} (h : entries.Pairwise Precedes)
    {entry : PrekeyEntry} (hmem : entry ∈ entries) :
    entries.find? (·.index == entry.index) = some entry := by
  induction entries with
  | nil => cases hmem
  | cons first rest ih =>
    obtain ⟨hfirst, hrest⟩ := List.pairwise_cons.1 h
    rcases List.mem_cons.1 hmem with rfl | hmem
    · exact List.find?_cons_of_pos (beq_self_eq_true _)
    · have hne : ¬ (first.index == entry.index) = true :=
        fun heq => (hfirst entry hmem).1 (eq_of_beq heq)
      rw [List.find?_cons, eq_false_of_ne_true hne]
      exact ih hrest hmem

end PrekeyQueue

open PrekeyQueue (Orderly)
open StoreAction (elapsed issues outcomes reach reach_cons)

namespace Refines

variable {store : PrekeyStore} {queue : PrekeyQueue} {later : List PrekeyEntry}

theorem size_eq (h : Refines store queue) : store.size = queue.waiting.length :=
  h.entries.length_eq

/-- What can still be used is the same on both sides. -/
theorem live (h : Refines store queue) (now : Milliseconds) :
    (store.purge now).entries.Perm (queue.live now) := by
  show (store.entries.filter (isLive store.limits now)).Perm _
  rw [h.limits]
  exact h.entries.filter _

theorem purge (h : Refines store queue) (now : Milliseconds) :
    Refines (store.purge now) (queue.purge now).2 where
  limits := h.limits
  entries := h.live now

/-- As many entries are dropped as are too old. -/
theorem purged_eq (h : Refines store queue) (now : Milliseconds) :
    store.size - (store.purge now).size = (queue.purge now).1 := by
  have hkept : (store.purge now).size
      = queue.waiting.countP fun entry => now - entry.issuedAt ≤ queue.limits.lifetime := by
    rw [(h.purge now).size_eq, List.countP_eq_length_filter]
    rfl
  have hsplit := List.length_eq_countP_add_countP
    (fun entry => decide (now - entry.issuedAt ≤ queue.limits.lifetime)) (l := queue.waiting)
  have hold : (queue.waiting.countP fun entry =>
      ¬ (decide (now - entry.issuedAt ≤ queue.limits.lifetime) = true)) = (queue.purge now).1 := by
    refine List.countP_congr fun entry _ => ?_
    simp only [decide_eq_true_eq, Nat.not_le]
  rw [h.size_eq, hkept]
  omega

/-- The entries that make room are the same on both sides, because the queue was not so long
that more than the one in front could be dropped. -/
theorem makeRoom (h : Refines store queue) (horderly : queue.Orderly later)
    (now : Milliseconds) :
    (PrekeyStore.evictTo (max store.limits.capacity 1 - 1) (store.purge now).entries).Perm
      (queue.makeRoom now) := by
  have hordered : (queue.live now).Pairwise fun a b => a.issuedAt < b.issuedAt :=
    (horderly.waiting.sublist (queue.live_sublist now)).imp And.right
  have hlength := Nat.le_trans (queue.live_sublist now).length_le horderly.length_le
  have hroom : queue.room = max store.limits.capacity 1 := by
    rw [PrekeyQueue.room, h.limits, Nat.max_comm]
  have hevict := PrekeyStore.evictTo_perm (max store.limits.capacity 1 - 1) (h.live now) hordered
  unfold PrekeyQueue.makeRoom
  split
  · next hfull =>
    have hone : (queue.live now).length - (max store.limits.capacity 1 - 1) = 1 := by omega
    rwa [hone, List.drop_one] at hevict
  · next hfree =>
    have hnone : (queue.live now).length - (max store.limits.capacity 1 - 1) = 0 := by omega
    rwa [hnone, List.drop_zero] at hevict

/-- An entry joins both sides alike, and replaces none because its index is fresh. -/
theorem insert (h : Refines store queue) {entry : PrekeyEntry}
    (horderly : queue.Orderly (entry :: later)) :
    Refines (store.insert entry) (queue.join entry) where
  limits := h.limits
  entries := by
    obtain ⟨-, -, hbefore⟩ := List.pairwise_append.1 horderly.precedes
    have hkept := h.makeRoom horderly entry.issuedAt
    have hfresh : ∀ other ∈ PrekeyStore.evictTo (max store.limits.capacity 1 - 1)
        (store.purge entry.issuedAt).entries, decide (other.index ≠ entry.index) = true := by
      intro other hother
      have hwaits := (queue.makeRoom_sublist _).subset (hkept.mem_iff.1 hother)
      exact decide_eq_true (hbefore other hwaits entry List.mem_cons_self).1
    show (List.filter _ _ ++ [entry]).Perm _
    rw [List.filter_eq_self.2 hfresh]
    exact hkept.append_right [entry]

/-- A prekey is taken from both sides alike. -/
theorem take (h : Refines store queue) (horderly : queue.Orderly later) (now : Milliseconds)
    (index : String) :
    (store.take now index).1 = (queue.leave now index).1
      ∧ Refines (store.take now index).2 (queue.leave now index).2 := by
  have hlive := h.live now
  cases hfind : store.find? index with
  | none =>
    have habsent : ∀ entry ∈ queue.waiting, ¬ (entry.index == index) = true :=
      fun entry hmem => List.find?_eq_none.1 hfind entry (h.entries.mem_iff.2 hmem)
    have hnone : (queue.live now).find? (·.index == index) = none :=
      List.find?_eq_none.2 fun entry hmem =>
        habsent entry ((queue.live_sublist now).subset hmem)
    have hkept : queue.waiting.filter (·.index ≠ index) = queue.waiting :=
      List.filter_eq_self.2 fun entry hmem =>
        decide_eq_true fun heq => habsent entry hmem (beq_iff_eq.2 heq)
    rw [PrekeyStore.take_of_find?_eq_none now hfind, PrekeyQueue.leave, hnone, hkept]
    exact ⟨rfl, h⟩
  | some entry =>
    obtain ⟨hmem, rfl⟩ := PrekeyStore.mem_of_find? hfind
    rw [PrekeyStore.take_of_find?_eq_some now hfind]
    refine ⟨?_, h.limits, h.entries.filter _⟩
    have hordered := horderly.waiting.sublist (queue.live_sublist now)
    show _ = match (queue.live now).find? (·.index == entry.index) with
      | some entry => (.ok entry.session : Except CallError Session)
      | none => .error .prekeyNotFound
    -- The entry of the store is the only one of its index, so its age decides on both sides.
    by_cases hage : isLive store.limits now entry = true
    · have hyoung : entry ∈ queue.live now := hlive.mem_iff.1 (List.mem_filter.2 ⟨hmem, hage⟩)
      rw [if_pos hage, PrekeyQueue.find?_eq_some_of_mem hordered hyoung]
    · have hgone : (queue.live now).find? (·.index == entry.index) = none := by
        refine List.find?_eq_none.2 fun other hother heq => hage ?_
        have hother' := List.mem_filter.1 (hlive.mem_iff.2 hother)
        have hwaiting := horderly.waiting
        have hsame := PrekeyQueue.find?_eq_some_of_mem hwaiting (h.entries.mem_iff.1 hmem)
        rw [← eq_of_beq heq, PrekeyQueue.find?_eq_some_of_mem hwaiting
          (h.entries.mem_iff.1 hother'.1), Option.some.injEq] at hsame
        exact hsame ▸ hother'.2
      rw [if_neg hage, hgone]

/-- An action has the same outcome on both sides, and leaves them alike. -/
theorem perform {s : Suite} {action : StoreAction} {now : Milliseconds} (h : Refines store queue)
    (horderly : queue.Orderly (action.issued s now ++ later)) :
    (PrekeyStore.perform s action (now, store)).1 = (PrekeyQueue.perform s action (now, queue)).1
      ∧ Refines (PrekeyStore.perform s action (now, store)).2.2
          (PrekeyQueue.perform s action (now, queue)).2.2
      ∧ (PrekeyQueue.perform s action (now, queue)).2.2.Orderly later := by
  cases action with
  | issue offer entropy =>
    rw [PrekeyStore.perform, PrekeyStore.issue_apply, PrekeyQueue.perform]
    rw [StoreAction.issued] at horderly
    cases hprepare : (prepare s now offer entropy).1 with
    | error err =>
      rw [hprepare] at horderly
      exact ⟨rfl, h, horderly⟩
    | ok prepared =>
      obtain ⟨answer, entry⟩ := prepared
      rw [hprepare] at horderly
      exact ⟨rfl, h.insert horderly, horderly.join⟩
  | take index =>
    obtain ⟨houtcome, hrefines⟩ := h.take horderly now index
    exact ⟨congrArg StoreOutcome.taken houtcome, hrefines, horderly.sublist List.filter_sublist⟩
  | purge =>
    exact ⟨congrArg StoreOutcome.purged (h.purged_eq now), h.purge now,
      horderly.sublist (queue.live_sublist now)⟩
  | count => exact ⟨congrArg StoreOutcome.counted h.size_eq, h, horderly⟩
  | wait time => exact ⟨rfl, h, horderly⟩

/-- A history has the same outcomes on both sides, and leaves them alike. -/
theorem run {s : Suite} {actions : List StoreAction} {now : Milliseconds}
    (h : Refines store queue) (horderly : queue.Orderly (issues s now actions ++ later)) :
    outcomes (PrekeyStore.perform s) (now, store) actions
        = outcomes (PrekeyQueue.perform s) (now, queue) actions
      ∧ Refines (reach (PrekeyStore.perform s) (now, store) actions).2
          (reach (PrekeyQueue.perform s) (now, queue) actions).2
      ∧ (reach (PrekeyQueue.perform s) (now, queue) actions).2.Orderly later := by
  -- What is still to be issued is part of the order, and each step moves its own into the queue.
  induction actions generalizing now store queue with
  | nil => exact ⟨rfl, h, horderly⟩
  | cons action rest ih =>
    rw [issues, List.append_assoc] at horderly
    obtain ⟨houtcome, hrefines, hrest⟩ := h.perform horderly
    rw [outcomes, outcomes, reach_cons, reach_cons, houtcome, PrekeyStore.perform_snd,
      PrekeyQueue.perform_snd]
    obtain ⟨hrun, hend⟩ := ih hrefines hrest
    exact ⟨congrArg _ hrun, hend⟩

end Refines

/-! ## What an entry survives -/

namespace PrekeyQueue

variable {queue : PrekeyQueue} {entry : PrekeyEntry} {behind : Nat}

/-- Whether an entry waits with so many others behind it, at most. -/
def Waits (queue : PrekeyQueue) (entry : PrekeyEntry) (behind : Nat) : Prop :=
  ∃ front back, queue.waiting = front ++ entry :: back ∧ back.length ≤ behind

/-- It goes on waiting when others leave. -/
theorem Waits.filter (h : queue.Waits entry behind) (stays : PrekeyEntry → Bool)
    (hstays : stays entry = true) :
    Waits { queue with waiting := queue.waiting.filter stays } entry behind := by
  obtain ⟨front, back, hwaiting, hbehind⟩ := h
  refine ⟨front.filter stays, back.filter stays, ?_,
    Nat.le_trans (List.length_filter_le stays back) hbehind⟩
  show queue.waiting.filter stays = _
  rw [hwaiting, List.filter_append, List.filter_cons_of_pos hstays]

/-- It goes on waiting when another one joins, as long as it is not too old and its place is
not needed. -/
theorem Waits.join (h : queue.Waits entry behind) {last : PrekeyEntry}
    (hage : last.issuedAt - entry.issuedAt ≤ queue.limits.lifetime)
    (hroom : behind + 1 < queue.room) : (queue.join last).Waits entry (behind + 1) := by
  obtain ⟨front, back, hlive, hbehind⟩ := h.filter
    (fun other => last.issuedAt - other.issuedAt ≤ queue.limits.lifetime) (decide_eq_true hage)
  have hlast : (back ++ [last]).length ≤ behind + 1 := by
    rw [List.length_append, List.length_singleton]
    exact Nat.succ_le_succ hbehind
  change queue.live last.issuedAt = _ at hlive
  -- The one in front makes room, which is another one or none.
  obtain ⟨others, hkept⟩ : ∃ others, queue.makeRoom last.issuedAt = others ++ entry :: back := by
    rw [makeRoom, hlive]
    split
    · next hfull =>
      cases front with
      | nil =>
        rw [List.nil_append, List.length_cons] at hfull
        omega
      | cons first others => exact ⟨others, rfl⟩
    · exact ⟨front, rfl⟩
  refine ⟨others, back ++ [last], ?_, hlast⟩
  show queue.makeRoom last.issuedAt ++ [last] = _
  rw [hkept, List.append_assoc, List.cons_append]

/-- The limits of a queue stay what they are. -/
theorem limits_perform (s : Suite) (action : StoreAction) (now : Milliseconds)
    (queue : PrekeyQueue) : (perform s action (now, queue)).2.2.limits = queue.limits := by
  cases action with
  | issue offer entropy =>
    rw [perform]
    split <;> rfl
  | _ => rfl

theorem limits_reach (s : Suite) (actions : List StoreAction) (now : Milliseconds)
    (queue : PrekeyQueue) : (reach (perform s) (now, queue) actions).2.limits = queue.limits := by
  induction actions generalizing now queue with
  | nil => rfl
  | cons action rest ih => rw [reach_cons, perform_snd, ih, limits_perform]

theorem fst_reach (s : Suite) (actions : List StoreAction) (now : Milliseconds)
    (queue : PrekeyQueue) :
    (reach (perform s) (now, queue) actions).1 = now + elapsed actions :=
  StoreAction.fst_reach (fun action now queue => congrArg Prod.fst (perform_snd s action now queue))
    now queue actions

/-- An action leaves an entry waiting that it does not name, with one more behind it if it
issues one. -/
theorem Waits.perform {s : Suite} {action : StoreAction} {now : Milliseconds}
    (h : queue.Waits entry behind) (hage : now - entry.issuedAt ≤ queue.limits.lifetime)
    (htake : action ≠ .take entry.index)
    (hroom : behind + (action.issued s now).length < queue.room) :
    (PrekeyQueue.perform s action (now, queue)).2.2.Waits entry
      (behind + (action.issued s now).length) := by
  cases action with
  | issue offer entropy =>
    rw [PrekeyQueue.perform]
    rw [StoreAction.issued] at hroom ⊢
    cases hprepare : (prepare s now offer entropy).1 with
    | error err => exact h
    | ok prepared =>
      obtain ⟨answer, last⟩ := prepared
      rw [hprepare] at hroom
      rw [← PrekeyStore.issuedAt_of_prepare hprepare] at hage
      exact h.join hage hroom
  | take index =>
    refine h.filter _ (decide_eq_true fun heq => htake ?_)
    rw [heq]
  | purge => exact h.filter _ (decide_eq_true hage)
  | count => exact h
  | wait time => exact h

/-- What an entry survives: it waits at the end of a history that neither takes it nor lasts
longer than the lifetime, if there is room for all that are issued meanwhile. -/
theorem Waits.run {s : Suite} {actions : List StoreAction} {now : Milliseconds}
    (h : queue.Waits entry behind)
    (hage : now + elapsed actions - entry.issuedAt ≤ queue.limits.lifetime)
    (htake : .take entry.index ∉ actions)
    (hroom : behind + (issues s now actions).length < queue.room) :
    (reach (PrekeyQueue.perform s) (now, queue) actions).2.Waits entry
      (behind + (issues s now actions).length) := by
  induction actions generalizing now queue behind with
  | nil => exact h
  | cons action rest ih =>
    have hfirst : action ≠ .take entry.index := fun heq => htake (heq ▸ List.mem_cons_self)
    have hrest : .take entry.index ∉ rest := fun hmem => htake (List.mem_cons_of_mem _ hmem)
    rw [StoreAction.elapsed_cons, ← Nat.add_assoc] at hage
    rw [issues, List.length_append, ← Nat.add_assoc] at hroom ⊢
    -- What is not too old at the end is not too old now.
    have hnow : now - entry.issuedAt ≤ queue.limits.lifetime :=
      Nat.le_trans (Nat.sub_le_sub_right (Nat.le_trans (Nat.le_add_right ..)
        (Nat.le_add_right ..)) _) hage
    have hnext := h.perform hnow hfirst (Nat.lt_of_le_of_lt (Nat.le_add_right ..) hroom)
    have hlimits := limits_perform s action now queue
    rw [reach_cons, perform_snd]
    refine ih hnext ?_ hrest ?_
    · rw [hlimits]
      exact hage
    · rw [room, hlimits]
      exact hroom

/-- An entry waits at the end of a history that has issued it, if it survives the rest. -/
theorem waits_of_issue {s : Suite} {before after : List StoreAction} {offer : Offer}
    {entropy : Entropy} {answer : Answer} {start : Milliseconds}
    (hprepare : (prepare s (start + elapsed before) offer entropy).1 = .ok (answer, entry))
    (hage : elapsed after ≤ queue.limits.lifetime) (htake : .take entry.index ∉ after)
    (hroom : (issues s (start + elapsed before) after).length < queue.room) :
    ∃ behind, (reach (PrekeyQueue.perform s) (start, queue)
      (before ++ .issue offer entropy :: after)).2.Waits entry behind := by
  have hlimits := limits_reach s before start queue
  have hnow := fst_reach s before start queue
  rw [StoreAction.reach_append, reach_cons]
  -- Of the state in between, only the time and the limits matter.
  generalize reach (PrekeyQueue.perform s) (start, queue) before = reached at hlimits hnow
  obtain ⟨now, middle⟩ := reached
  obtain rfl : now = start + elapsed before := hnow
  rw [PrekeyQueue.perform, hprepare]
  have hjoined : (middle.join entry).Waits entry 0 :=
    ⟨middle.makeRoom entry.issuedAt, [], rfl, Nat.le_refl _⟩
  have hlimits' : (middle.join entry).limits = queue.limits := hlimits
  refine ⟨_, hjoined.run ?_ htake ?_⟩
  · rw [hlimits', PrekeyStore.issuedAt_of_prepare hprepare, Nat.add_sub_cancel_left]
    exact hage
  · rw [Nat.zero_add, room, hlimits']
    exact hroom

/-- An entry that waits is found, as long as it is not too old. -/
theorem Waits.leave {later : List PrekeyEntry} (h : queue.Waits entry behind) (now : Milliseconds)
    (horderly : queue.Orderly later) (hage : now - entry.issuedAt ≤ queue.limits.lifetime) :
    (queue.leave now entry.index).1 = .ok entry.session := by
  obtain ⟨front, back, hwaiting, -⟩ := h
  have hlive : entry ∈ queue.live now :=
    List.mem_filter.2 ⟨hwaiting ▸ List.mem_append_right _ List.mem_cons_self, decide_eq_true hage⟩
  rw [PrekeyQueue.leave,
    find?_eq_some_of_mem (horderly.waiting.sublist (queue.live_sublist now)) hlive]

end PrekeyQueue

/-- A store is a queue: whatever is done, what a caller sees of it is what would be seen of a
queue of the same limits. And a prekey that is not taken is found, as long as its lifetime has
not passed and fewer have been issued after it than there is room for. -/
theorem PrekeyStore.outcomes_eq_queue (s : Suite) (limits : PrekeyLimits) (start : Milliseconds)
    (actions : List StoreAction) (hissues : (issues s start actions).Pairwise Precedes) :
    outcomes (PrekeyStore.perform s) (start, { limits := limits }) actions
        = outcomes (PrekeyQueue.perform s) (start, { limits := limits }) actions
      ∧ ∀ before offer entropy after answer entry,
        actions = before ++ .issue offer entropy :: after →
        (prepare s (start + elapsed before) offer entropy).1 = .ok (answer, entry) →
        .take answer.index ∉ after →
        elapsed after ≤ limits.lifetime →
        (issues s (start + elapsed before) after).length < max 1 limits.capacity →
        (PrekeyStore.perform s (.take answer.index)
            (reach (PrekeyStore.perform s) (start, { limits := limits }) actions)).1
          = .taken (.ok entry.session) := by
  have hempty : Refines { limits := limits } { limits := limits } := ⟨rfl, .nil⟩
  have horderly : Orderly { limits := limits } (issues s start actions ++ []) :=
    ⟨by rwa [List.append_nil], Nat.zero_le _⟩
  obtain ⟨houtcomes, hrefines, hend⟩ := hempty.run horderly
  refine ⟨houtcomes, ?_⟩
  rintro before offer entropy after answer entry rfl hprepare htake hage hroom
  rw [PrekeyStore.index_of_prepare hprepare] at htake ⊢
  -- It waits at the end of the history, and not for too long.
  have hroom' : (issues s (start + elapsed before) after).length
      < PrekeyQueue.room { limits := limits } := hroom
  obtain ⟨behind, hwaits⟩ := PrekeyQueue.waits_of_issue hprepare hage htake hroom'
  have hnow := PrekeyStore.fst_reach s (before ++ .issue offer entropy :: after) start
    { limits := limits }
  have hlimits := PrekeyQueue.limits_reach s (before ++ .issue offer entropy :: after) start
    { limits := limits }
  have hwhile : elapsed (before ++ .issue offer entropy :: after) = elapsed before + elapsed after :=
    (StoreAction.elapsed_append ..).trans (congrArg _ (Nat.zero_add _))
  have hleave := hwaits.leave (start + (elapsed before + elapsed after)) hend ?_
  · have htaken := (hrefines.take hend (start + (elapsed before + elapsed after)) entry.index).1
    rw [← hwhile, ← hnow] at htaken hleave
    exact congrArg StoreOutcome.taken (htaken.trans hleave)
  · rw [hlimits, PrekeyStore.issuedAt_of_prepare hprepare, ← Nat.add_assoc, Nat.add_sub_cancel_left]
    exact hage

/-- A prekey, and another one six milliseconds later. -/
def twoPrekeys : List StoreAction :=
  [.issue (Bundle.zeroKeys.offer .twoSigners) (.ofBytes (List.replicate 112 1)), .wait 6,
    .issue (Bundle.zeroKeys.offer .twoSigners) (.ofBytes (List.replicate 112 2))]

/-- With room for two, the first prekey is found. -/
theorem PrekeyStore.outcomes_eq_queue_twoPrekeys :
    (issues .twoSigners 5 twoPrekeys).Pairwise Precedes
      ∧ outcomes (PrekeyStore.perform .twoSigners) (5, { limits := ⟨10, 2⟩ }) twoPrekeys
        = outcomes (PrekeyQueue.perform .twoSigners) (5, { limits := ⟨10, 2⟩ }) twoPrekeys
      ∧ ∃ entry : PrekeyEntry,
        (PrekeyStore.perform .twoSigners (.take "01010101010101010101010101010101")
            (reach (PrekeyStore.perform .twoSigners) (5, { limits := ⟨10, 2⟩ }) twoPrekeys)).1
          = .taken (.ok entry.session) := by
  -- Each of the two is prepared once, because its keys take long to compute.
  have hindex : (prepare .twoSigners 5 (Bundle.zeroKeys.offer .twoSigners)
      (.ofBytes (List.replicate 112 1))).1.toOption.map (fun prepared => prepared.1.index)
        = some "01010101010101010101010101010101" := by
    decide +kernel
  have hlater : (issues .twoSigners 5 twoPrekeys.tail).map (fun entry => (entry.index, entry.issuedAt))
      = [("02020202020202020202020202020202", 11)] := by
    decide +kernel
  cases hprepare : (prepare .twoSigners 5 (Bundle.zeroKeys.offer .twoSigners)
      (.ofBytes (List.replicate 112 1))).1 with
  | error err =>
    rw [hprepare] at hindex
    cases hindex
  | ok prepared =>
    obtain ⟨answer, entry⟩ := prepared
    rw [hprepare] at hindex
    have hanswer : answer.index = "01010101010101010101010101010101" := Option.some.inj hindex
    obtain ⟨later, htail, hlater⟩ := List.map_eq_singleton_iff.1 hlater
    have hissued : issues .twoSigners 5 twoPrekeys = [entry, later] := by
      show StoreAction.issued .twoSigners 5 (.issue _ _) ++ issues .twoSigners 5 twoPrekeys.tail = _
      rw [StoreAction.issued, hprepare, htail]
      rfl
    have hprecedes : Precedes entry later := by
      obtain ⟨hlaterIndex, hlaterTime⟩ := Prod.mk.inj hlater
      rw [Precedes, ← index_of_prepare hprepare, hanswer, hlaterIndex, issuedAt_of_prepare hprepare,
        hlaterTime]
      decide
    have hissues : (issues .twoSigners 5 twoPrekeys).Pairwise Precedes :=
      hissued ▸ List.pairwise_pair.2 hprecedes
    have hroom : (issues .twoSigners 5 twoPrekeys.tail).length < max 1 2 := by
      rw [htail, List.length_singleton]
      decide
    obtain ⟨houtcomes, htake⟩ := outcomes_eq_queue .twoSigners ⟨10, 2⟩ 5 twoPrekeys hissues
    rw [← hanswer]
    exact ⟨hissues, houtcomes, entry, htake [] _ _ twoPrekeys.tail answer entry rfl hprepare
      (by simp [twoPrekeys]) (by decide) hroom⟩

end SealedEnvelope
