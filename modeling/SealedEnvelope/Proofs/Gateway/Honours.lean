import SealedEnvelope.Proofs.Gateway.SessionKeys

/-!
# `SealedEnvelope.Proofs.Gateway.Honours`: a login that was granted is honoured for a while

`SessionKeys` speaks of gateways that start without logins. Here nothing is known of the logins
that there were before: once a login has been granted, the table has an entry under the hash of
its key, and all entries under the hash are at least as new (`LoginTable.Honours`). They stay until
they are too old or a logout comes, whatever else is asked of the gateway. A later login under the
same hash takes the place of the first one, and is for the same user.

Main statements:

* `LoginTable.Honours.perform`: what an event leaves of it;
* `Gateway.honours_after`: so it is after any history in which the login is not ended;
* `Gateway.answerDetail_of_honours`: whoever bears the key is told of the user.
-/

set_option autoImplicit false

namespace SealedEnvelope

variable {s : Suite} {hash other : FixedBytes 32} {since : Milliseconds} {logins : LoginTable}

namespace LoginTable

/-- Whether there is a login under a hash, and all that are under it are for the user and have
been granted at some time or later. -/
structure Honours (logins : LoginTable) (hash : FixedBytes 32) (since : Milliseconds) : Prop where
  exists_record : ∃ record, (hash, record) ∈ logins.entries
  granted : ∀ record, (hash, record) ∈ logins.entries →
    record.userId = Gateway.userId ∧ since ≤ record.issuedAt

/-- A login that has just been granted is honoured, whatever was there before. -/
theorem honours_insert_self (logins : LoginTable) (hash : FixedBytes 32) {clock : Clock}
    (hsince : since ≤ clock.steady) :
    (logins.insert hash (Gateway.loginRecord clock)).Honours hash since where
  exists_record := ⟨_, List.mem_cons_self⟩
  granted := by
    intro record hmem
    rcases List.mem_cons.1 hmem with heq | hmem
    · obtain ⟨-, rfl⟩ := Prod.mk.inj heq
      exact ⟨rfl, hsince⟩
    · exact absurd rfl (of_decide_eq_true (List.mem_filter.1 hmem).2)

namespace Honours

/-- Whether entries come or go matters under the hash only. -/
theorem of_mem_iff {logins' : LoginTable} (h : logins.Honours hash since)
    (hsame : ∀ record, (hash, record) ∈ logins'.entries ↔ (hash, record) ∈ logins.entries) :
    logins'.Honours hash since := by
  obtain ⟨record, hmem⟩ := h.exists_record
  exact ⟨⟨record, (hsame record).2 hmem⟩, fun record hmem => h.granted record ((hsame record).1 hmem)⟩

/-- Another login is ended. -/
theorem remove (h : logins.Honours hash since) (hne : hash ≠ other) :
    (logins.remove other).Honours hash since :=
  h.of_mem_iff fun _ => List.mem_filter.trans (and_iff_left (decide_eq_true hne))

/-- A login is granted. -/
theorem insert (h : logins.Honours hash since) (other : FixedBytes 32) {clock : Clock}
    (hsince : since ≤ clock.steady) :
    (logins.insert other (Gateway.loginRecord clock)).Honours hash since := by
  by_cases heq : hash = other
  · exact heq ▸ honours_insert_self logins hash hsince
  · refine (h.remove heq).of_mem_iff fun record => List.mem_cons.trans (or_iff_right ?_)
    exact fun hfirst => heq (Prod.mk.inj hfirst).1

/-- The table is tidied up while the login still counts. -/
theorem purge (h : logins.Honours hash since) {lifetime now : Milliseconds}
    (hage : now - since < lifetime) : (logins.purge lifetime now).Honours hash since := by
  refine h.of_mem_iff fun record => List.mem_filter.trans (and_iff_left_of_imp fun hmem => ?_)
  have hsince := (h.granted record hmem).2
  exact decide_eq_true (Nat.lt_of_le_of_lt (Nat.sub_le_sub_left hsince now) hage)

/-- What is found while the login still counts is one for the user, and still counts. -/
theorem exists_find? (h : logins.Honours hash since) {lifetime now : Milliseconds}
    (hage : now - since < lifetime) :
    ∃ record, (logins.find? hash).filter (isLive lifetime now) = some record
      ∧ record.userId = Gateway.userId := by
  cases hfind : logins.find? hash with
  | none =>
    obtain ⟨record, hmem⟩ := h.exists_record
    have hnone := List.find?_eq_none.1 (Option.map_eq_none_iff.1 hfind) _ hmem
    exact absurd (beq_self_eq_true hash) hnone
  | some record =>
    obtain ⟨huser, hsince⟩ := h.granted record (mem_of_find? hfind)
    refine ⟨record, Option.filter_eq_some_iff.2 ⟨rfl, decide_eq_true ?_⟩, huser⟩
    exact Nat.lt_of_le_of_lt (Nat.sub_le_sub_left hsince now) hage

/-- A call comes in, with whatever effect but that the login is ended. -/
theorem call (h : logins.Honours hash since) {world : World} {call : HttpCall} {effect : LoginEffect}
    {lifetime : Milliseconds} (heffect : effect.Of s world call)
    (hsince : since ≤ world.clock.steady)
    (hends : ¬ Served.Ends s ⟨world, call, (effect.on s lifetime world.clock logins).1⟩ hash) :
    (effect.on s lifetime world.clock logins).2.Honours hash since := by
  cases effect with
  | keeps response => exact h
  | grants key response => exact h.insert _ hsince
  | tells token => exact h
  | ends token =>
    refine h.remove fun heq => hends ?_
    -- There is a login under the hash, so that the logout is done.
    obtain ⟨record, hmem⟩ := h.exists_record
    have hsome : (logins.find? (hashOf s token)).isSome = true := by
      rw [← heq, find?, Option.isSome_map, List.find?_isSome]
      exact ⟨_, hmem, beq_self_eq_true hash⟩
    refine ⟨heffect.1, ?_, token, heffect.2, heq.symm⟩
    show (if (logins.find? (hashOf s token)).isSome then Gateway.loggedOut
      else Gateway.unauthorized).status = 200
    rw [if_pos hsome]
    rfl

/-- An event leaves the login honoured that does not end it. -/
theorem perform {g : Gateway} {event : GatewayEvent} (h : g.logins.Honours hash since)
    (hsince : since ≤ event.time) (hage : event.time - since < g.loginLifetime)
    (hends : ∀ served ∈ (g.perform s event).1, ¬ served.Ends s hash) :
    (g.perform s event).2.logins.Honours hash since := by
  cases event with
  | purgePrekeys clock => exact h
  | purgeLogins clock => exact h.purge hage
  | call world call =>
    obtain ⟨effect, heffects⟩ := Gateway.exists_effects s world g call
    obtain ⟨prekeys, hanswer⟩ := heffects.answer_eq
    rw [Gateway.perform, hanswer] at hends ⊢
    exact h.call heffects.1 hsince (hends _ List.mem_cons_self)

end Honours

end LoginTable

namespace Gateway

variable {g : Gateway}

/-- It is honoured after any history in which nobody ends it, as long as it counts. -/
theorem honours_after {events : List GatewayEvent} (h : g.logins.Honours hash since)
    (hsince : ∀ event ∈ events, since ≤ event.time)
    (hage : ∀ event ∈ events, event.time - since < g.loginLifetime)
    (hends : ∀ served ∈ g.served s events, ¬ served.Ends s hash) :
    (g.after s events).logins.Honours hash since := by
  induction events generalizing g with
  | nil => exact h
  | cons event events ih =>
    obtain ⟨hsince, hsinceRest⟩ := List.forall_mem_cons.1 hsince
    obtain ⟨hage, hageRest⟩ := List.forall_mem_cons.1 hage
    obtain ⟨hends, hendsRest⟩ := List.forall_mem_append.1 hends
    refine ih (h.perform hsince hage hends) hsinceRest ?_ hendsRest
    rw [loginLifetime_perform]
    exact hageRest

/-- Whoever bears its key is told of the user. -/
theorem answerDetail_of_honours {call : HttpCall} {token : String} {clock : Clock}
    (h : g.logins.Honours (LoginTable.hashOf s token) since) (htoken : call.Bears token)
    (hage : clock.steady - since < g.loginLifetime) :
    ∃ loggedInAt : String, g.answerDetail s clock call = jsonResponse 200 (.ofMembers
      [("user_id", .string userId), ("logged_in_at", .string loggedInAt)]) := by
  obtain ⟨record, hfound, huser⟩ := h.exists_find? hage
  refine ⟨record.loggedInAt, ?_⟩
  rw [answerDetail_of_bears htoken, hfound, toldOf, huser]

end Gateway

end SealedEnvelope
