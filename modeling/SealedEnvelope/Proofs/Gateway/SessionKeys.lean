import Mathlib.Data.List.Induction
import SealedEnvelope.Proofs.Gateway.LoginCall

/-!
# `SealedEnvelope.Proofs.Gateway.SessionKeys`: which session keys a gateway honours

The table of logins forgets, so it cannot be told from the table alone what a gateway should
say. What it should say is told from the calls that it has served: a login stands under a hash
if it was granted with a session key of the hash, no later one was, and no logout has ended it.
The table agrees with that. It has nothing but logins that stand (`Kept.sound`), and it has those
of them that still count (`Kept.complete`). Every event keeps both, whenever it comes, as long as
the steady clock does not go back.

Main statements:

* `Kept.perform`: an event keeps the table true to the calls that were served;
* `kept_after`: so it is after any history;
* `status_eq_iff_of_mem_served`: which logins of a history are granted;
* `detail_honours_standing`: whom a gateway tells of which login.
-/

set_option autoImplicit false

namespace SealedEnvelope

variable {s : Suite} {hash : FixedBytes 32} {history : List Served} {login served : Served}

/-! ## Which logins stand -/

namespace Served

/-- Whether a call is a login that is granted with a session key of a hash. -/
def GrantsUnder (s : Suite) (served : Served) (hash : FixedBytes 32) : Prop :=
  ∃ key, served.Grants s key ∧ LoginTable.hashOf s key = hash

/-- Whether a call is a logout that ends the login under a hash. -/
def Ends (s : Suite) (served : Served) (hash : FixedBytes 32) : Prop :=
  served.call.IsTo .logout ∧ served.response.status = 200
    ∧ ∃ token, served.call.Bears token ∧ LoginTable.hashOf s token = hash

/-- A login ends none. -/
theorem GrantsUnder.not_ends (h : served.GrantsUnder s hash) (other : FixedBytes 32) :
    ¬ served.Ends s other := by
  obtain ⟨key, hgrants, -⟩ := h
  exact fun hends => nomatch hgrants.isTo.unique hends.1

/-- It is granted with one key. -/
theorem GrantsUnder.unique {other : FixedBytes 32} (h : served.GrantsUnder s hash)
    (h' : served.GrantsUnder s other) : hash = other := by
  obtain ⟨key, hgrants, rfl⟩ := h
  obtain ⟨key', hgrants', rfl⟩ := h'
  rw [hgrants.key_eq, hgrants'.key_eq]

end Served

/-- Whether a login is the one that stands under a hash after some calls: it was granted with a
session key of the hash, no later one was, and no later logout was under it. -/
def Standing (s : Suite) (history : List Served) (hash : FixedBytes 32) (login : Served) : Prop :=
  ∃ before later, history = before ++ login :: later ∧ login.GrantsUnder s hash
    ∧ (∀ served ∈ later, ¬ served.GrantsUnder s hash) ∧ ∀ served ∈ later, ¬ served.Ends s hash

/-- No login stands before the first call. -/
theorem not_standing_nil : ¬ Standing s [] hash login := by
  rintro ⟨before, later, hhistory, -⟩
  exact List.append_ne_nil_of_right_ne_nil before (List.cons_ne_nil login later) hhistory.symm

/-- After one more call it is this one that stands, or one that stood before. -/
theorem standing_concat_iff : Standing s (history ++ [served]) hash login
    ↔ (login = served ∧ served.GrantsUnder s hash)
      ∨ (Standing s history hash login ∧ ¬ served.GrantsUnder s hash ∧ ¬ served.Ends s hash) := by
  constructor
  · rintro ⟨before, later, hhistory, hgrants, hlatest, hkept⟩
    rcases List.eq_nil_or_concat' later with rfl | ⟨others, last, rfl⟩
    · obtain ⟨-, hlast⟩ := List.append_inj' hhistory rfl
      obtain rfl := List.singleton_inj.1 hlast
      exact .inl ⟨rfl, hgrants⟩
    · rw [← List.cons_append, ← List.append_assoc] at hhistory
      obtain ⟨rfl, hlast⟩ := List.append_inj' hhistory rfl
      obtain rfl := List.singleton_inj.1 hlast
      rw [List.forall_mem_append, List.forall_mem_singleton] at hlatest hkept
      exact .inr ⟨⟨before, others, rfl, hgrants, hlatest.1, hkept.1⟩, hlatest.2, hkept.2⟩
  · rintro (⟨rfl, hgrants⟩ | ⟨⟨before, later, rfl, hgrants, hlatest, hkept⟩, hother, hends⟩)
    · exact ⟨history, [], rfl, hgrants, nofun, nofun⟩
    · refine ⟨before, later ++ [served], List.append_assoc .., hgrants, ?_, ?_⟩
      · exact List.forall_mem_append.2 ⟨hlatest, List.forall_mem_singleton.2 hother⟩
      · exact List.forall_mem_append.2 ⟨hkept, List.forall_mem_singleton.2 hends⟩

/-- A login that stands still stands after a call that has to do with another hash. -/
theorem Standing.concat (h : Standing s history hash login) (hgrants : ¬ served.GrantsUnder s hash)
    (hends : ¬ served.Ends s hash) : Standing s (history ++ [served]) hash login :=
  standing_concat_iff.2 (.inr ⟨h, hgrants, hends⟩)

/-- No two logins stand under one hash. -/
theorem Standing.unique {other : Served} (h : Standing s history hash login)
    (h' : Standing s history hash other) : login = other := by
  induction history using List.reverseRecOn with
  | nil => exact absurd h not_standing_nil
  | append_singleton history served ih =>
    rcases standing_concat_iff.1 h with ⟨rfl, hunder⟩ | ⟨h, hnot, -⟩ <;>
      rcases standing_concat_iff.1 h' with ⟨rfl, hunder'⟩ | ⟨h', hnot', -⟩
    · rfl
    · exact absurd hunder hnot'
    · exact absurd hunder' hnot
    · exact ih h h'

/-! ## What the table has to do with it -/

/-- Whether a table agrees, at some time, with the calls that were served. -/
structure Kept (s : Suite) (lifetime now : Milliseconds) (history : List Served)
    (logins : LoginTable) : Prop where
  distinct : logins.Distinct
  /-- It has nothing but logins that stand, -/
  sound : ∀ hash record, logins.find? hash = some record →
    ∃ login, Standing s history hash login ∧ record = Gateway.loginRecord login.world.clock
  /-- and it has those of them that still count. -/
  complete : ∀ hash login, Standing s history hash login →
    now - login.world.clock.steady < lifetime →
    logins.find? hash = some (Gateway.loginRecord login.world.clock)

namespace Kept

variable {lifetime now later : Milliseconds} {logins : LoginTable}

/-- At first there is nothing to agree with. -/
theorem empty (s : Suite) (lifetime now : Milliseconds) : Kept s lifetime now [] {} where
  distinct := LoginTable.distinct_empty
  sound := nofun
  complete := fun _ _ h => absurd h not_standing_nil

/-- Time goes by. -/
theorem wait (h : Kept s lifetime now history logins) (hle : now ≤ later) :
    Kept s lifetime later history logins where
  distinct := h.distinct
  sound := h.sound
  complete := fun hash login hstanding hage =>
    h.complete hash login hstanding (Nat.lt_of_le_of_lt (Nat.sub_le_sub_right hle _) hage)

/-- The table is tidied up. -/
theorem purge (h : Kept s lifetime now history logins) :
    Kept s lifetime now history (logins.purge lifetime now) where
  distinct := h.distinct.purge lifetime now
  sound := by
    intro hash record hfind
    rw [LoginTable.find?_purge h.distinct, Option.filter_eq_some_iff] at hfind
    exact h.sound hash record hfind.1
  complete := by
    intro hash login hstanding hage
    rw [LoginTable.find?_purge h.distinct, Option.filter_eq_some_iff]
    exact ⟨h.complete hash login hstanding hage, decide_eq_true hage⟩

/-- A call comes in that neither grants a login nor ends one. -/
theorem keep (h : Kept s lifetime now history logins)
    (hgrants : ∀ hash, ¬ served.GrantsUnder s hash) (hends : ∀ hash, ¬ served.Ends s hash) :
    Kept s lifetime now (history ++ [served]) logins where
  distinct := h.distinct
  sound := by
    intro hash record hfind
    obtain ⟨login, hstanding, hrecord⟩ := h.sound hash record hfind
    exact ⟨login, hstanding.concat (hgrants hash) (hends hash), hrecord⟩
  complete := by
    intro hash login hstanding hage
    rcases standing_concat_iff.1 hstanding with ⟨-, hunder⟩ | ⟨hstanding, -⟩
    · exact absurd hunder (hgrants hash)
    · exact h.complete hash login hstanding hage

/-- A login is granted. -/
theorem grant (h : Kept s lifetime now history logins) {key : String}
    (hgrants : served.Grants s key) :
    Kept s lifetime now (history ++ [served])
      (logins.insert (LoginTable.hashOf s key) (Gateway.loginRecord served.world.clock)) where
  distinct := h.distinct.insert _ _
  sound := by
    intro hash record hfind
    have hunder : served.GrantsUnder s (LoginTable.hashOf s key) := ⟨key, hgrants, rfl⟩
    rw [LoginTable.find?_insert] at hfind
    -- Under its own hash the new login takes the place of the one that stood, if any.
    by_cases heq : hash = LoginTable.hashOf s key
    · rw [if_pos heq] at hfind
      exact ⟨served, standing_concat_iff.2 (.inl ⟨rfl, heq ▸ hunder⟩), (Option.some.inj hfind).symm⟩
    · rw [if_neg heq] at hfind
      obtain ⟨login, hstanding, hrecord⟩ := h.sound hash record hfind
      have hother : ¬ served.GrantsUnder s hash := fun hother => heq (hother.unique hunder)
      exact ⟨login, hstanding.concat hother (hunder.not_ends hash), hrecord⟩
  complete := by
    intro hash login hstanding hage
    have hunder : served.GrantsUnder s (LoginTable.hashOf s key) := ⟨key, hgrants, rfl⟩
    rw [LoginTable.find?_insert]
    rcases standing_concat_iff.1 hstanding with ⟨rfl, hunder'⟩ | ⟨hstanding, hother, -⟩
    · rw [if_pos (hunder'.unique hunder)]
    · have hne : hash ≠ LoginTable.hashOf s key := fun heq => hother (heq ▸ hunder)
      rw [if_neg hne]
      exact h.complete hash login hstanding hage

/-- A login is ended. -/
theorem logout (h : Kept s lifetime now history logins) (hlogout : served.call.IsTo .logout)
    (hstatus : served.response.status = 200) {token : String} (htoken : served.call.Bears token) :
    Kept s lifetime now (history ++ [served]) (logins.remove (LoginTable.hashOf s token)) where
  distinct := h.distinct.remove _
  sound := by
    intro hash record hfind
    rw [LoginTable.find?_remove, Option.ite_none_left_eq_some] at hfind
    obtain ⟨hne, hfind⟩ := hfind
    obtain ⟨login, hstanding, hrecord⟩ := h.sound hash record hfind
    refine ⟨login, hstanding.concat ?_ ?_, hrecord⟩
    · rintro ⟨key, hgrants, -⟩
      exact nomatch hgrants.isTo.unique hlogout
    · rintro ⟨-, -, other, hother, rfl⟩
      rw [hother.unique htoken] at hne
      exact hne rfl
  complete := by
    intro hash login hstanding hage
    rcases standing_concat_iff.1 hstanding with ⟨-, hunder⟩ | ⟨hstanding, -, hends⟩
    · obtain ⟨key, hgrants, -⟩ := hunder
      exact nomatch hgrants.isTo.unique hlogout
    · rw [LoginTable.find?_remove, if_neg]
      · exact h.complete hash login hstanding hage
      · rintro rfl
        exact hends ⟨hlogout, hstatus, token, htoken, rfl⟩

/-- A call comes in, with whatever effect. -/
theorem call {world : World} {call : HttpCall} {effect : LoginEffect}
    (h : Kept s lifetime now history logins) (heffect : effect.Of s world call) :
    Kept s lifetime now (history ++ [⟨world, call, (effect.on s lifetime world.clock logins).1⟩])
      (effect.on s lifetime world.clock logins).2 := by
  cases effect with
  | keeps response =>
    refine h.keep ?_ ?_
    · rintro hash ⟨key, hgrants, -⟩
      exact heffect (.inl hgrants.isTo) hgrants.status_eq
    · rintro hash ⟨hlogout, hstatus, -⟩
      exact heffect (.inr hlogout) hstatus
  | grants key response => exact h.grant heffect
  | tells token =>
    refine h.keep ?_ ?_
    · rintro hash ⟨key, hgrants, -⟩
      exact nomatch heffect.1.unique hgrants.isTo
    · rintro hash ⟨hlogout, -⟩
      exact nomatch heffect.1.unique hlogout
  | ends token =>
    obtain ⟨hlogout, htoken⟩ := heffect
    dsimp only [LoginEffect.on]
    split
    · exact h.logout hlogout rfl htoken
    · next hnone =>
      -- There was nothing to end, and the call is told so.
      rw [LoginTable.remove_of_find?_eq_none (Option.not_isSome_iff_eq_none.1 hnone)]
      refine h.keep ?_ ?_
      · rintro hash ⟨key, hgrants, -⟩
        exact nomatch hgrants.isTo.unique hlogout
      · rintro hash ⟨-, hstatus, -⟩
        exact Gateway.status_unauthorized_ne hstatus

/-- An event keeps the table true to the calls that were served. -/
theorem perform {g : Gateway} {event : GatewayEvent}
    (h : Kept s g.loginLifetime event.time history g.logins) :
    Kept s g.loginLifetime event.time (history ++ (g.perform s event).1)
      (g.perform s event).2.logins := by
  cases event with
  | purgePrekeys clock =>
    rw [Gateway.perform, List.append_nil]
    exact h
  | purgeLogins clock =>
    rw [Gateway.perform, List.append_nil]
    exact h.purge
  | call world call =>
    obtain ⟨effect, heffects⟩ := Gateway.exists_effects s world g call
    obtain ⟨prekeys, hanswer⟩ := heffects.answer_eq
    rw [Gateway.perform, hanswer]
    exact h.call heffects.1

/-- What is found in the table and still counts is the login that stands. -/
theorem live_eq_some_iff (h : Kept s lifetime now history logins) {record : LoginRecord} :
    (logins.find? hash).filter (LoginTable.isLive lifetime now) = some record
      ↔ ∃ login, Standing s history hash login ∧ now - login.world.clock.steady < lifetime
        ∧ record = Gateway.loginRecord login.world.clock := by
  rw [Option.filter_eq_some_iff]
  constructor
  · rintro ⟨hfind, hlive⟩
    obtain ⟨login, hstanding, rfl⟩ := h.sound hash record hfind
    exact ⟨login, hstanding, of_decide_eq_true hlive, rfl⟩
  · rintro ⟨login, hstanding, hage, rfl⟩
    exact ⟨h.complete hash login hstanding hage, decide_eq_true hage⟩

/-- Where the login that stands is too old, nothing that is found still counts. -/
theorem live_eq_none (h : Kept s lifetime now history logins)
    (hstanding : Standing s history hash login)
    (hlate : lifetime ≤ now - login.world.clock.steady) :
    (logins.find? hash).filter (LoginTable.isLive lifetime now) = none := by
  refine Option.eq_none_iff_forall_ne_some.2 fun record hfound => ?_
  obtain ⟨other, hother, hage, -⟩ := h.live_eq_some_iff.1 hfound
  rw [hstanding.unique hother] at hlate
  exact absurd hage (Nat.not_lt.2 hlate)

end Kept

/-! ## Runs -/

namespace Gateway

variable {g : Gateway} {events : List GatewayEvent}

/-- No event changes how long logins last. -/
theorem loginLifetime_perform (s : Suite) (g : Gateway) (event : GatewayEvent) :
    (g.perform s event).2.loginLifetime = g.loginLifetime := by
  cases event with
  | purgePrekeys clock => rfl
  | purgeLogins clock => rfl
  | call world call =>
    obtain ⟨effect, heffects⟩ := exists_effects s world g call
    obtain ⟨prekeys, hanswer⟩ := heffects.answer_eq
    rw [perform, hanswer]

theorem loginLifetime_after (s : Suite) (g : Gateway) (events : List GatewayEvent) :
    (g.after s events).loginLifetime = g.loginLifetime := by
  induction events generalizing g with
  | nil => rfl
  | cons event events ih => exact (ih _).trans (loginLifetime_perform s g event)

/-- After any history that starts without logins the table is true to the calls that were
served. -/
theorem kept_after (s : Suite) (hempty : g.logins = {}) (htimes : Chronological events)
    {now : Milliseconds} (hnow : ∀ event ∈ events, event.time ≤ now) :
    Kept s g.loginLifetime now (g.served s events) (g.after s events).logins := by
  -- The history grows at its end, and the table is looked at when the last event comes.
  induction events using List.reverseRecOn generalizing now with
  | nil =>
    show Kept s g.loginLifetime now [] g.logins
    rw [hempty]
    exact .empty s _ _
  | append_singleton events event ih =>
    obtain ⟨htimes, -, hlast⟩ := List.pairwise_append.1 htimes
    obtain ⟨-, hevent⟩ := List.forall_mem_append.1 hnow
    have hkept := ih htimes fun earlier hearlier => hlast earlier hearlier event List.mem_cons_self
    rw [← loginLifetime_after s g events] at hkept ⊢
    rw [served_concat, after_concat]
    exact hkept.perform.wait (hevent event List.mem_cons_self)

/-- A login of a history is granted exactly if it is answered with the status 200. -/
theorem status_eq_iff_of_mem_served (s : Suite) {login : Served} (hlogin : login ∈ g.served s events)
    (hroute : login.call.IsTo .login) :
    login.response.status = 200 ↔ ∃ key, login.Grants s key := by
  obtain ⟨before, later, hserved⟩ := List.append_of_mem hlogin
  obtain ⟨earlier, -, -, -, hresponse⟩ := exists_of_served_eq_append hserved
  have hsame : login = ⟨login.world, login.call,
      ((g.after s earlier).answer s login.world.clock login.call login.world.entropy).1.1⟩ := by
    rw [← responseAfter, ← hresponse]
  rw [hsame]
  exact (exists_grants_iff hroute).symm

/-- The logins of a history that are granted are those that are answered with the status 200. A
gateway that starts without logins tells whoever bears a token of the login that stands under the
hash of it, if that login is younger than the lifetime of a login, and of nothing else. A call
without a token is never told of a login. -/
theorem detail_honours_standing (s : Suite) (hempty : g.logins = {}) (htimes : Chronological events)
    {before later : List Served} {now : Served}
    (hserved : g.served s events = before ++ now :: later) (hdetail : now.call.IsTo .detail) :
    (∀ login ∈ before, login.call.IsTo .login →
      (login.response.status = 200 ↔ ∃ key, login.Grants s key))
    ∧ (∀ token, now.call.Bears token →
      (now.response.status = 200 ↔ ∃ login, Standing s before (LoginTable.hashOf s token) login
        ∧ now.world.clock.steady - login.world.clock.steady < g.loginLifetime))
    ∧ (∀ token login, now.call.Bears token → now.response.status = 200 →
      Standing s before (LoginTable.hashOf s token) login →
      now.response = jsonResponse 200 (.ofMembers [("user_id", .string userId),
        ("logged_in_at", .string (Rfc3339.writeFull login.world.clock.wall))]))
    ∧ ((∀ token, ¬ now.call.Bears token) → now.response = unauthorized)
    ∧ (now.response.status ≠ 200 → now.response = unauthorized) := by
  refine ⟨fun login hlogin hroute => status_eq_iff_of_mem_served s
    (hserved ▸ List.mem_append_left _ hlogin) hroute, ?_⟩
  obtain ⟨earlier, rest, rfl, rfl, hresponse⟩ := exists_of_served_eq_append hserved
  obtain ⟨htimes, -, hlast⟩ := List.pairwise_append.1 htimes
  have hkept : Kept s g.loginLifetime now.world.clock.steady _ _ :=
    kept_after s hempty htimes fun event hevent => hlast event hevent _ List.mem_cons_self
  have hdetailed : now.response = (g.after s earlier).answerDetail s now.world.clock now.call := by
    rw [hresponse, responseAfter, answer_of_route hdetail.1 hdetail.2]
    rfl
  by_cases htoken : ∃ token, now.call.Bears token
  · obtain ⟨token, htoken⟩ := htoken
    rw [answerDetail_of_bears htoken, loginLifetime_after] at hdetailed
    generalize hfound : ((g.after s earlier).logins.find? (LoginTable.hashOf s token)).filter
      (LoginTable.isLive g.loginLifetime now.world.clock.steady) = found at hdetailed
    have hstatus : now.response.status = 200 ↔ ∃ record, found = some record := by
      rw [hdetailed]
      cases found with
      | none => exact ⟨fun h => absurd h status_unauthorized_ne, nofun⟩
      | some record => exact ⟨fun _ => ⟨record, rfl⟩, fun _ => rfl⟩
    refine ⟨fun token' htoken' => ?_, fun token' login htoken' hok hstanding => ?_,
      fun h => absurd htoken (h token), fun hother => ?_⟩
    · rw [htoken'.unique htoken, hstatus, ← hfound]
      constructor
      · rintro ⟨record, hrecord⟩
        obtain ⟨login, hstanding, hage, -⟩ := hkept.live_eq_some_iff.1 hrecord
        exact ⟨login, hstanding, hage⟩
      · rintro ⟨login, hstanding, hage⟩
        exact ⟨_, hkept.live_eq_some_iff.2 ⟨login, hstanding, hage, rfl⟩⟩
    · obtain ⟨record, rfl⟩ := hstatus.1 hok
      rw [htoken'.unique htoken] at hstanding
      -- The login of the record is the one that is asked for, since only one stands.
      obtain ⟨standing, hstanding', -, rfl⟩ := hkept.live_eq_some_iff.1 hfound
      rw [hstanding.unique hstanding']
      exact hdetailed
    · cases found with
      | none => exact hdetailed
      | some record => exact absurd (hstatus.2 ⟨record, rfl⟩) hother
  · have hnone := hdetailed.trans (answerDetail_of_not_bears (not_exists.1 htoken))
    exact ⟨fun token h => absurd ⟨token, h⟩ htoken, fun token _ h => absurd ⟨token, h⟩ htoken,
      fun _ => hnone, fun _ => hnone⟩

end Gateway

/-- After a first login it is this login that stands. -/
theorem FirstLogin.Ready.exists_standing {g : Gateway} {l : FirstLogin} (h : l.Ready s g)
    (hdeciphers : s.Deciphers) :
    ∃ (envelope : String) (offered login : Served),
      g.served s (l.events s envelope) = [offered, login]
        ∧ Standing s [offered, login] (LoginTable.hashOf s l.sessionKey) login
        ∧ login.world = l.admitting := by
  obtain ⟨envelope, offered, login, hserved, hgrants, hworld⟩ := h.exists_grants hdeciphers
  exact ⟨envelope, offered, login, hserved,
    ⟨[offered], [], rfl, ⟨l.sessionKey, hgrants, rfl⟩, nofun, nofun⟩, hworld⟩

namespace Gateway

/-- An hour after the login, around a gateway whose table has been tidied up. -/
def oneHourLater : World where
  clock := { wall := .ofUnixNanos 1700003601000000000, steady := 3601000 }
  entropy := .ofBytes []

/-- A client that has logged in is told of its login an hour later. -/
theorem detail_honours_standing_oneHour :
    ∃ (events : List GatewayEvent) (before : List Served) (now : Served),
      Chronological events ∧ (ofConfig {}).served .twoSigners events = before ++ [now]
        ∧ now.call.IsTo .detail
        ∧ now.response = jsonResponse 200 (.ofMembers [("user_id", .string "1"),
          ("logged_in_at", .string "2023-11-14T22:13:21+00:00")]) := by
  obtain ⟨envelope, offered, login, hserved, hstanding, hworld⟩ :=
    FirstLogin.ready_oneSecondLater.exists_standing Suite.twoSigners_deciphers
  let earlier := FirstLogin.oneSecondLater.events .twoSigners envelope
    ++ [.purgeLogins oneHourLater.clock]
  let asking := HttpCall.withToken "/self/detail" FirstLogin.oneSecondLater.sessionKey
  let now : Served :=
    ⟨oneHourLater, asking, (ofConfig {}).responseAfter .twoSigners earlier oneHourLater asking⟩
  have hall : (ofConfig {}).served .twoSigners (earlier ++ [.call oneHourLater asking])
      = [offered, login] ++ [now] := by
    rw [served_concat, served_concat, hserved]
    rfl
  have htimes : Chronological (earlier ++ [.call oneHourLater asking]) :=
    chronological_of_times [0, 1000, 3601000, 3601000] rfl (by decide)
  have hdetail : now.call.IsTo .detail :=
    HttpCall.isTo_withToken (by decide +kernel) (by decide +kernel) _
  have hbears := FirstLogin.bears_oneSecondLater "/self/detail"
  have hage : oneHourLater.clock.steady - login.world.clock.steady < 86400000 := by
    rw [hworld]
    decide
  obtain ⟨-, htold, hshown, -⟩ := detail_honours_standing .twoSigners rfl htimes hall hdetail
  have hok := (htold _ hbears).2 ⟨login, hstanding, hage⟩
  have htext : Rfc3339.writeFull FirstLogin.oneSecondLater.admitting.clock.wall
      = "2023-11-14T22:13:21+00:00" := by
    decide +kernel
  refine ⟨_, _, now, htimes, hall, hdetail, ?_⟩
  rw [hshown _ login hbears hok hstanding, hworld, htext]
  rfl

end Gateway

end SealedEnvelope
