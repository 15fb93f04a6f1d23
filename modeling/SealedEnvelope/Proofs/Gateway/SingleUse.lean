import SealedEnvelope.Proofs.Gateway.History
import SealedEnvelope.Proofs.Json.Records

/-!
# `SealedEnvelope.Proofs.Gateway.SingleUse`: a prekey admits one attempt

A sealed request that names a prekey which is not there is told `REFRESH_PREKEY`, and nothing
else is done with it. Any other response is an attempt on the prekey, whatever came of it: it may
have been opened, or had a bad signature, or a wrong password in it.

Two calls may draw the same index. So attempts are counted against the prekeys that were
issued under an index. The entries of the store that bear it are what can still be attempted,
and are counted too: the sum of both never passes what was issued.

Main statement:

* `Gateway.attempts_le_issued`: attempts on an index are no more than its prekeys.
-/

set_option autoImplicit false

namespace SealedEnvelope

open PrekeyStore (prepare)

namespace Served

/-- Whether a call was an attempt on a prekey: it brought a sealed request that names it, and
was not told that there is no such prekey. -/
def attempts (index : String) (served : Served) : Bool :=
  (Gateway.sealedRequest? served.call).any (·.index == index)
    && served.response != Gateway.rejectError .prekeyNotFound

theorem attempts_of_none {served : Served} (h : Gateway.sealedRequest? served.call = none)
    (index : String) : served.attempts index = false := by
  rw [attempts, h]
  rfl

/-- The index that a response to an offer says has been issued. -/
def issuedIndex? (served : Served) : Option String :=
  if Route.ofPath? served.call.target.path = some .prekey ∧ served.response.isOk then
    (JsonReader.whole Answer.reading served.response.body).toOption.map Answer.index
  else none

/-- Whether a call issued a prekey under an index. -/
def issues (index : String) (served : Served) : Bool := served.issuedIndex? == some index

end Served

namespace PrekeyStore

/-- The number of entries of an index. -/
def count (store : PrekeyStore) (index : String) : Nat := store.entries.countP (·.index == index)

variable (store : PrekeyStore) (index : String)

/-- Dropping old entries adds none. -/
theorem count_purge_le (now : Milliseconds) : (store.purge now).count index ≤ store.count index :=
  List.filter_sublist.countP_le

/-- An entry that is kept is the only one that is added. -/
theorem count_insert_le (entry : PrekeyEntry) :
    (store.insert entry).count index ≤ store.count index + (entry.index == index).toNat := by
  have hkept : ((evictTo (max store.limits.capacity 1 - 1) (store.purge entry.issuedAt).entries).filter
      (·.index ≠ entry.index)).Sublist store.entries :=
    List.filter_sublist.trans ((evictTo_sublist _ _).trans List.filter_sublist)
  have hadded : [entry].countP (·.index == index) = (entry.index == index).toNat := by
    cases heq : entry.index == index with
    | false => exact List.countP_cons_of_neg (Bool.eq_false_iff.1 heq)
    | true => exact List.countP_cons_of_pos heq
  show List.countP _ (List.filter _ _ ++ [entry]) ≤ _
  rw [List.countP_append, hadded]
  exact Nat.add_le_add_right hkept.countP_le _

/-- Taking adds none. -/
theorem count_take_le (now : Milliseconds) (index' : String) :
    (store.take now index').2.count index ≤ store.count index := by
  cases hfind : store.find? index' with
  | none =>
    simp only [take_of_find?_eq_none now hfind, Nat.le_refl]
  | some entry =>
    rw [take_of_find?_eq_some now hfind]
    exact List.filter_sublist.countP_le

/-- Taking finds nothing, or leaves fewer of the index. -/
theorem count_take (now : Milliseconds) :
    (store.take now index).1 = .error .prekeyNotFound
      ∨ (store.take now index).2.count index < store.count index := by
  cases hfind : store.find? index with
  | none =>
    rw [take_of_find?_eq_none now hfind]
    exact Or.inl rfl
  | some entry =>
    obtain ⟨hmem, hindex⟩ := mem_of_find? hfind
    have hpos : 0 < store.count index :=
      List.countP_pos_iff.2 ⟨entry, hmem, beq_iff_eq.2 hindex⟩
    have hgone : (store.remove index).count index = 0 := by
      refine List.countP_eq_zero.2 fun other hother heq => ?_
      exact of_decide_eq_true (List.mem_filter.1 hother).2 (eq_of_beq heq)
    rw [take_of_find?_eq_some now hfind]
    refine Or.inr ?_
    show (store.remove index).count index < _
    rwa [hgone]

end PrekeyStore

namespace Gateway

/-- The response to an offer says which index has been issued. -/
theorem issuedIndex?_answer {world : World} {call : HttpCall} (answer : Answer)
    (h : Route.ofPath? call.target.path = some .prekey) :
    Served.issuedIndex? ⟨world, call, jsonResponse 200 (.object answer.members)⟩
      = some answer.index := by
  have hread : JsonReader.whole Answer.reading (jsonResponse 200 (.object answer.members)).body
      = .ok answer := by
    rw [body_jsonResponse]
    exact JsonReader.whole_eq_ok answer.reading_members
  have hok : Route.ofPath? call.target.path = some .prekey
      ∧ (jsonResponse 200 (.object answer.members)).isOk = true := ⟨h, beq_self_eq_true _⟩
  rw [Served.issuedIndex?, if_pos hok, hread]
  rfl

/-- One call: it attempts no more than is no longer there, or than it issues. -/
theorem attempts_add_count_le {s : Suite} {world : World} {store store' : PrekeyStore} {call : HttpCall}
    {response : HttpResponse} (h : PrekeyStep s world store call response store') (index : String) :
    (Served.attempts index ⟨world, call, response⟩).toNat + store'.count index
      ≤ (Served.issues index ⟨world, call, response⟩).toNat + store.count index := by
  cases h with
  | keeps response hnone =>
    rw [Served.attempts_of_none hnone]
    exact Nat.add_le_add_right (Nat.zero_le _) _
  | issues answer entry offer hroute hprepare =>
    -- An offer is no attempt, and the entry that it adds has the index that is answered.
    have hnone : sealedRequest? call = none := sealedRequest?_of_route hroute nofun nofun
    have hissues : Served.issues index ⟨world, call, jsonResponse 200 (.object answer.members)⟩
        = (entry.index == index) := by
      rw [Served.issues, issuedIndex?_answer answer hroute, PrekeyStore.index_of_prepare hprepare]
      rfl
    have hinsert := PrekeyStore.count_insert_le store index entry
    rw [Served.attempts_of_none hnone, hissues]
    show 0 + _ ≤ _
    omega
  | takes request response hrequest herror =>
    have hle := PrekeyStore.count_take_le store index world.clock.steady request.index
    cases hattempts : Served.attempts index ⟨world, call, response⟩ with
    | false => exact Nat.add_le_add (Nat.zero_le _) hle
    | true =>
      rw [Served.attempts, hrequest, Bool.and_eq_true] at hattempts
      obtain rfl : request.index = index := eq_of_beq hattempts.1
      -- An attempt has found an entry, which is gone now.
      rcases PrekeyStore.count_take store request.index world.clock.steady with herr | hlt
      · rw [herror _ herr] at hattempts
        exact absurd hattempts.2 (by simp)
      · show 1 + _ ≤ _
        omega

/-- A history: its attempts are no more than what it issues and what could be attempted before. -/
theorem attempts_served_add_count_le (s : Suite) (g : Gateway) (events : List GatewayEvent)
    (index : String) :
    (g.served s events).countP (Served.attempts index)
      ≤ (g.served s events).countP (Served.issues index) + g.prekeys.count index := by
  induction events generalizing g with
  | nil => exact Nat.zero_le _
  | cons event rest ih =>
    have hrest := ih (g.perform s event).2
    rw [served, List.countP_append, List.countP_append]
    cases event with
    | call world call =>
      have hstep := attempts_add_count_le (prekeyStep_answer s world g call) index
      have hone : ∀ p : Served → Bool, (g.perform s (.call world call)).1.countP p
          = (p ⟨world, call, (g.answer s world.clock call world.entropy).1.1⟩).toNat := by
        intro p
        show List.countP p [_] = _
        rw [List.countP_singleton]
        cases p _ <;> rfl
      rw [hone, hone]
      change _ ≤ _ + (g.answer s world.clock call world.entropy).1.2.prekeys.count index at hrest
      omega
    | purgePrekeys clock =>
      have hpurge := PrekeyStore.count_purge_le g.prekeys index clock.steady
      change _ ≤ _ + (g.prekeys.purge clock.steady).count index at hrest
      show 0 + _ ≤ 0 + _ + _
      omega
    | purgeLogins clock =>
      show 0 + _ ≤ 0 + _ + _
      rw [Nat.zero_add, Nat.zero_add]
      exact hrest

/-- No replay: whatever calls come in, in whatever order and at whatever times, the attempts on
an index are no more than the prekeys that were issued under it. So a prekey admits one
attempt over all routes together, and a sealed request that is sent again is refused unless
its index has been issued again. -/
theorem attempts_le_issued (s : Suite) (config : GatewayConfig) (events : List GatewayEvent)
    (index : String) :
    ((ofConfig config).served s events).countP (Served.attempts index)
      ≤ ((ofConfig config).served s events).countP (Served.issues index) := by
  have hcount : (ofConfig config).prekeys.count index = 0 := rfl
  have hserved := attempts_served_add_count_le s (ofConfig config) events index
  rwa [hcount, Nat.add_zero] at hserved

end Gateway

end SealedEnvelope
