import Mathlib.Data.List.Nodup
import SealedEnvelope.Proofs.Peer.PrekeyQueue

/-!
# `SealedEnvelope.Proofs.Peer.PrekeyPurge`: tidying up a prekey store is not noticed

Entries that are too old stay in a store until something drops them: the next offer, a request
for them, or tidying up. Two histories that differ in their tidying up lead to stores that are
`Alike`: they have the same entries that can still be used, in the same order, and may differ in
those that cannot. Nothing that is asked of the stores brings the difference to light, but the
number of their entries.

An offer drops what is too old before it makes room, so that both stores make room by the same
entries, whatever the rule is by which one of several oldest entries is picked. An `EvictionRule` is
any such rule, and `performBy` is a store that goes by it; that of `perform` is one of them
(`performBy_first`).

Main statements:

* `Alike.purge_left`: tidying up one of two stores keeps them alike;
* `Alike.perform`: so does everything else, and it looks the same at both;
* `views_eq_of_withoutPurges`: histories that differ in their tidying up look the same to all
  who make offers and requests, down to the entries that make room.
-/

set_option autoImplicit false

namespace SealedEnvelope

open StoreAction (reach reach_cons)

/-! ## Rules for making room -/

/-- A rule by which an entry is picked that is as old as any other. It may look at anything to pick
one of several. -/
structure EvictionRule where
  pick : List PrekeyEntry → Option PrekeyEntry
  pick_eq_none_iff : ∀ {entries}, pick entries = none ↔ entries = []
  mem_of_pick : ∀ {entries entry}, pick entries = some entry → entry ∈ entries
  le_of_pick : ∀ {entries oldest entry}, pick entries = some oldest → entry ∈ entries →
    oldest.issuedAt ≤ entry.issuedAt

/-- Of several oldest entries the one that comes first is picked. -/
def EvictionRule.first : EvictionRule where
  pick := PrekeyStore.oldest?
  pick_eq_none_iff := PrekeyStore.oldest?_eq_none_iff
  mem_of_pick := PrekeyStore.mem_of_oldest?
  le_of_pick := PrekeyStore.le_of_oldest?_eq_some

namespace PrekeyStore

variable (rule : EvictionRule)

/-- The entries without those that a rule picks, such that at most `count` are left. -/
def evictBy (count : Nat) (entries : List PrekeyEntry) : List PrekeyEntry :=
  if entries.length ≤ count then entries
  else
    match _h : rule.pick entries with
    | none => entries
    | some entry => evictBy count (entries.erase entry)
termination_by entries.length
decreasing_by
  have hmem := rule.mem_of_pick _h
  rw [List.length_erase_of_mem hmem]
  have := List.length_pos_of_mem hmem
  omega

theorem evictBy_sublist (count : Nat) (entries : List PrekeyEntry) :
    (evictBy rule count entries).Sublist entries := by
  fun_induction evictBy rule count entries with
  | case1 entries hroom => exact .refl entries
  | case2 entries hroom hnone => exact .refl entries
  | case3 entries hroom entry hsome ih => exact ih.trans List.erase_sublist

theorem evictBy_first (count : Nat) (entries : List PrekeyEntry) :
    evictBy .first count entries = evictTo count entries := by
  fun_induction evictTo count entries with
  | case1 entries hroom => rw [evictBy, if_pos hroom]
  | case2 entries hroom hnone =>
    rw [evictBy, if_neg hroom]
    split
    · rfl
    · next hsome => cases hnone.symm.trans hsome
  | case3 entries hroom entry hsome ih =>
    rw [evictBy, if_neg hroom]
    split
    · next hnone => cases hnone.symm.trans hsome
    · next other hother =>
      obtain rfl := Option.some.inj (hother.symm.trans hsome)
      exact ih

/-- The store with one more entry, for which a rule has made room. -/
def insertBy (store : PrekeyStore) (entry : PrekeyEntry) : PrekeyStore :=
  let live := (store.purge entry.issuedAt).entries
  let kept := evictBy rule (max store.limits.capacity 1 - 1) live
  { store with entries := kept.filter (·.index ≠ entry.index) ++ [entry] }

/-- Performs an action on a store that goes by a rule. -/
def performBy (s : Suite) :
    StoreAction → Milliseconds × PrekeyStore → StoreOutcome × Milliseconds × PrekeyStore
  | .issue offer entropy, (now, store) =>
    match (prepare s now offer entropy).1 with
    | .ok (answer, entry) => (.issued (.ok answer), now, store.insertBy rule entry)
    | .error err => (.issued (.error err), now, store)
  | action, state => perform s action state

theorem insertBy_first (store : PrekeyStore) (entry : PrekeyEntry) :
    store.insertBy .first entry = store.insert entry := by
  rw [insertBy, insert, evictBy_first]

/-- One of the rules is that of the store. -/
theorem performBy_first (s : Suite) : performBy .first s = perform s := by
  funext action state
  obtain ⟨now, store⟩ := state
  cases action with
  | issue offer entropy =>
    rw [performBy, perform, issue_apply]
    cases hprepare : (prepare s now offer entropy).1 with
    | error err => rfl
    | ok prepared => simp only [insertBy_first]
  | take | purge | count | wait => rfl

theorem performBy_snd (s : Suite) (action : StoreAction) (now : Milliseconds)
    (store : PrekeyStore) :
    (performBy rule s action (now, store)).2
      = (now + action.time, (performBy rule s action (now, store)).2.2) := by
  cases action with
  | issue offer entropy =>
    rw [performBy]
    split <;> rfl
  | take | purge | count | wait => rfl

/-- The time at the end of a history does not depend on the rule. -/
theorem fst_reachBy (s : Suite) (actions : List StoreAction) (now : Milliseconds)
    (store : PrekeyStore) :
    (reach (performBy rule s) (now, store) actions).1 = now + StoreAction.elapsed actions :=
  StoreAction.fst_reach (fun action now store =>
    congrArg Prod.fst (performBy_snd rule s action now store)) now store actions

end PrekeyStore

/-! ## What is seen of a history -/

namespace StoreAction

/-- Whether an action is to tidy up. -/
def isPurge : StoreAction → Bool
  | purge => true
  | _ => false

/-- A history in which nobody tidies up. -/
def withoutPurges (actions : List StoreAction) : List StoreAction :=
  actions.filter fun action => !action.isPurge

end StoreAction

open StoreAction (withoutPurges)

namespace PrekeyStore

/-- The entries that make room for another one, though they could still be used. -/
def evicted (rule : EvictionRule) (store : PrekeyStore) (entry : PrekeyEntry) : List PrekeyEntry :=
  let live := (store.purge entry.issuedAt).entries
  live.filter fun other => other ∉ evictBy rule (max store.limits.capacity 1 - 1) live

/-- What is seen of an action by those who make offers and requests: the outcome, and which
entries have made room. They see nothing of any other action. -/
def view (rule : EvictionRule) (s : Suite) :
    StoreAction → Milliseconds × PrekeyStore → List (StoreOutcome × List PrekeyEntry)
  | .issue offer entropy, (now, store) =>
    [((performBy rule s (.issue offer entropy) (now, store)).1,
      ((StoreAction.issue offer entropy).issued s now).flatMap (store.evicted rule))]
  | .take index, state => [((performBy rule s (.take index) state).1, [])]
  | _, _ => []

/-- What they see of a history. -/
def views (rule : EvictionRule) (s : Suite) :
    Milliseconds × PrekeyStore → List StoreAction → List (StoreOutcome × List PrekeyEntry)
  | _, [] => []
  | state, action :: rest =>
    view rule s action state ++ views rule s (performBy rule s action state).2 rest

/-! ## Stores that are alike -/

variable {store store' : PrekeyStore} {now later : Milliseconds}

/-- No two entries have one index. -/
def Distinct (store : PrekeyStore) : Prop := (store.entries.map PrekeyEntry.index).Nodup

theorem Distinct.filter (h : store.Distinct) (keeps : PrekeyEntry → Bool) :
    Distinct { store with entries := store.entries.filter keeps } :=
  h.sublist (List.filter_sublist.map _)

theorem distinct_insertBy (rule : EvictionRule) (h : store.Distinct) (entry : PrekeyEntry) :
    (store.insertBy rule entry).Distinct := by
  have hkept := (List.filter_sublist (p := (·.index ≠ entry.index))).trans
    ((evictBy_sublist rule (max store.limits.capacity 1 - 1)
      (store.purge entry.issuedAt).entries).trans List.filter_sublist)
  unfold Distinct insertBy
  rw [List.map_append, List.nodup_append]
  refine ⟨h.sublist (hkept.map _), List.nodup_singleton _, ?_⟩
  rintro index hindex other hother rfl
  obtain ⟨found, hfound, hsame⟩ := List.mem_map.1 hindex
  rw [List.map_singleton, List.mem_singleton] at hother
  exact of_decide_eq_true (List.mem_filter.1 hfound).2 (hsame.trans hother)

/-- What can be used could be used before. -/
theorem isLive_of_le {limits : PrekeyLimits} {entry : PrekeyEntry} (hle : now ≤ later)
    (h : isLive limits later entry = true) : isLive limits now entry = true :=
  decide_eq_true (Nat.le_trans (Nat.sub_le_sub_right hle _) (of_decide_eq_true h))

/-- What is dropped later includes what is dropped now. -/
theorem purge_purge (store : PrekeyStore) (hle : now ≤ later) :
    (store.purge now).purge later = store.purge later := by
  have hboth : ∀ entry ∈ store.entries,
      (isLive store.limits later entry && isLive store.limits now entry)
        = isLive store.limits later entry := by
    intro entry _
    cases hlive : isLive store.limits later entry with
    | false => rfl
    | true => rw [isLive_of_le hle hlive, Bool.and_self]
  unfold purge
  rw [List.filter_filter, List.filter_congr hboth]

/-- Whether two stores have the same entries that can be used at some time, in the same order. -/
structure Alike (now : Milliseconds) (store store' : PrekeyStore) : Prop where
  purge_eq : store.purge now = store'.purge now
  left : store.Distinct
  right : store'.Distinct

/-- The session under an index, if it can still be used. -/
theorem fst_take (h : store.Distinct) (now : Milliseconds) (index : String) :
    (store.take now index).1
      = match (store.purge now).find? index with
        | some entry => .ok entry.session
        | none => .error .prekeyNotFound := by
  cases hfind : store.find? index with
  | none =>
    have hnone : (store.purge now).find? index = none := by
      have hall := List.find?_eq_none.1 hfind
      exact List.find?_eq_none.2 fun entry hentry => hall entry (List.mem_filter.1 hentry).1
    rw [take_of_find?_eq_none now hfind, hnone]
  | some entry =>
    rw [take_of_find?_eq_some now hfind]
    cases hlive : isLive store.limits now entry with
    | true => rw [find?_purge hfind hlive, if_pos rfl]
    | false =>
      -- The entry is the only one under its index, so that nothing is found without it.
      have hnone : (store.purge now).find? index = none := by
        refine List.find?_eq_none.2 fun other hother hindex => ?_
        obtain ⟨hmem, hother⟩ := List.mem_filter.1 hother
        obtain ⟨hentry, hsame⟩ := mem_of_find? hfind
        obtain rfl := List.inj_on_of_nodup_map h hmem hentry ((eq_of_beq hindex).trans hsame.symm)
        rw [hlive] at hother
        cases hother
      rw [hnone, if_neg Bool.false_ne_true]

/-- It does not matter whether a store is tidied up before or after an entry is removed. -/
theorem purge_remove (store : PrekeyStore) (now : Milliseconds) (index : String) :
    (store.remove index).purge now = (store.purge now).remove index := by
  unfold purge remove
  rw [List.filter_filter, List.filter_filter]
  simp only [Bool.and_comm]

namespace Alike

theorem refl (h : store.Distinct) (now : Milliseconds) : Alike now store store := ⟨rfl, h, h⟩

theorem limits_eq (h : Alike now store store') : store.limits = store'.limits := by
  show (store.purge now).limits = (store'.purge now).limits
  rw [h.purge_eq]

/-- Time goes by. -/
theorem wait (h : Alike now store store') (hle : now ≤ later) : Alike later store store' where
  purge_eq := by rw [← store.purge_purge hle, h.purge_eq, store'.purge_purge hle]
  left := h.left
  right := h.right

/-- One of them is tidied up. -/
theorem purge_left (h : Alike now store store') : Alike now (store.purge now) store' where
  purge_eq := (store.purge_purge (Nat.le_refl now)).trans h.purge_eq
  left := h.left.filter _
  right := h.right

/-- An entry makes them the same. -/
theorem insertBy_eq (rule : EvictionRule) {entry : PrekeyEntry}
    (h : Alike entry.issuedAt store store') :
    store.insertBy rule entry = store'.insertBy rule entry := by
  unfold insertBy
  rw [h.purge_eq, h.limits_eq]

/-- It takes the place of the same entries in both. -/
theorem evicted_eq (rule : EvictionRule) {entry : PrekeyEntry}
    (h : Alike entry.issuedAt store store') :
    store.evicted rule entry = store'.evicted rule entry := by
  unfold evicted
  rw [h.purge_eq, h.limits_eq]

/-- A request has the same outcome at both. -/
theorem fst_take_eq (h : Alike now store store') (index : String) :
    (store.take now index).1 = (store'.take now index).1 := by
  rw [fst_take h.left, fst_take h.right, h.purge_eq]

/-- And it leaves them alike. -/
theorem take (h : Alike now store store') (index : String) :
    Alike now (store.take now index).2 (store'.take now index).2 := by
  rw [snd_take, snd_take]
  refine ⟨?_, h.left.filter _, h.right.filter _⟩
  rw [purge_remove, purge_remove, h.purge_eq]

/-- An offer is answered alike, and leaves them alike. -/
theorem issue (h : Alike now store store') (rule : EvictionRule) (s : Suite) (offer : Offer)
    (entropy : Entropy) :
    view rule s (.issue offer entropy) (now, store) = view rule s (.issue offer entropy) (now, store')
      ∧ Alike now (performBy rule s (.issue offer entropy) (now, store)).2.2
          (performBy rule s (.issue offer entropy) (now, store')).2.2 := by
  simp only [view, performBy, StoreAction.issued]
  cases hprepare : (prepare s now offer entropy).1 with
  | error err => exact ⟨rfl, h⟩
  | ok prepared =>
    obtain ⟨answer, entry⟩ := prepared
    obtain rfl := issuedAt_of_prepare hprepare
    simp only [List.flatMap_singleton, h.evicted_eq rule, h.insertBy_eq rule, true_and]
    exact .refl (distinct_insertBy rule h.right entry) _

/-- An action that is not to tidy up looks the same at both stores, and leaves them alike. -/
theorem perform (h : Alike now store store') (rule : EvictionRule) (s : Suite)
    {action : StoreAction} (hpurge : action.isPurge = false) :
    view rule s action (now, store) = view rule s action (now, store')
      ∧ Alike (now + action.time) (performBy rule s action (now, store)).2.2
          (performBy rule s action (now, store')).2.2 := by
  cases action with
  | issue offer entropy => exact h.issue rule s offer entropy
  | take index =>
    refine ⟨?_, h.take index⟩
    simp only [view, performBy, PrekeyStore.perform, h.fst_take_eq index]
  | purge => cases hpurge
  | count => exact ⟨rfl, h⟩
  | wait time => exact ⟨rfl, h.wait (Nat.le_add_right now time)⟩

/-- A history looks as if nobody had tidied up, and leaves a store that is alike. -/
theorem run (h : Alike now store store') (rule : EvictionRule) (s : Suite)
    (actions : List StoreAction) :
    views rule s (now, store) actions = views rule s (now, store') (withoutPurges actions)
      ∧ (reach (performBy rule s) (now, store) actions).1
          = (reach (performBy rule s) (now, store') (withoutPurges actions)).1
      ∧ Alike (reach (performBy rule s) (now, store) actions).1
          (reach (performBy rule s) (now, store) actions).2
          (reach (performBy rule s) (now, store') (withoutPurges actions)).2 := by
  induction actions generalizing now store store' with
  | nil => exact ⟨rfl, rfl, h⟩
  | cons action rest ih =>
    cases hpurge : action.isPurge with
    | true =>
      -- Only the first store is tidied up, and nobody sees it.
      obtain rfl : action = .purge := by
        cases action <;> first | rfl | cases hpurge
      exact ih h.purge_left
    | false =>
      obtain ⟨hview, halike⟩ := h.perform rule s hpurge
      obtain ⟨hviews, htime, hend⟩ := ih halike
      have hfilter : withoutPurges (action :: rest) = action :: withoutPurges rest :=
        List.filter_cons_of_pos (by rw [hpurge]; rfl)
      rw [hfilter, views, views, hview, reach_cons, reach_cons,
        performBy_snd rule s action now store, performBy_snd rule s action now store']
      exact ⟨congrArg _ hviews, htime, hend⟩

end Alike

/-- Whether and when a store is tidied up is not noticed. Two histories that are the same but for
the tidying up look the same to those who make offers and requests: each offer and each request
has the same outcome, the same entries that could still be used make room for others, and the
entries that can be used at the end are the same. That is so for every rule by which one of several
oldest entries makes room, and the store goes by one of them. -/
theorem views_eq_of_withoutPurges (s : Suite) (limits : PrekeyLimits) (start : Milliseconds)
    {actions actions' : List StoreAction} (h : withoutPurges actions = withoutPurges actions') :
    (∀ rule : EvictionRule,
        views rule s (start, { limits := limits }) actions
            = views rule s (start, { limits := limits }) actions'
          ∧ (reach (performBy rule s) (start, { limits := limits }) actions).2.purge
                (start + StoreAction.elapsed actions)
              = (reach (performBy rule s) (start, { limits := limits }) actions').2.purge
                  (start + StoreAction.elapsed actions))
      ∧ performBy .first s = perform s := by
  refine ⟨fun rule => ?_, performBy_first s⟩
  have hdistinct : Distinct { limits := limits } := List.nodup_nil
  have hempty := Alike.refl hdistinct start
  -- Each of the histories looks as the one does in which nobody tidies up.
  obtain ⟨hviews, htime, hend⟩ := hempty.run rule s actions
  obtain ⟨hviews', htime', hend'⟩ := hempty.run rule s actions'
  rw [h] at hviews htime hend
  have htimes := htime.trans htime'.symm
  rw [← htimes] at hend'
  rw [fst_reachBy] at hend hend'
  exact ⟨hviews.trans hviews'.symm, hend.purge_eq.trans hend'.purge_eq.symm⟩

/-- Of two prekeys the first is too old, and dropped in one of two histories before it is asked
for. -/
theorem views_eq_of_withoutPurges_twoPrekeys :
    (let index := "01010101010101010101010101010101"
     let tidied : List StoreAction := .purge :: twoPrekeys ++ [.wait 5, .purge, .take index]
     let untidied : List StoreAction := twoPrekeys ++ [.wait 5, .take index]
     withoutPurges tidied = withoutPurges untidied
      ∧ views .first .twoSigners (5, { limits := ⟨10, 2⟩ }) tidied
        = views .first .twoSigners (5, { limits := ⟨10, 2⟩ }) untidied) := by
  have hsame : withoutPurges (.purge :: twoPrekeys
        ++ [.wait 5, .purge, .take "01010101010101010101010101010101"])
      = withoutPurges (twoPrekeys ++ [.wait 5, .take "01010101010101010101010101010101"]) := by
    rfl
  exact ⟨hsame, ((views_eq_of_withoutPurges .twoSigners ⟨10, 2⟩ 5 hsame).1 .first).1⟩

end PrekeyStore

end SealedEnvelope
