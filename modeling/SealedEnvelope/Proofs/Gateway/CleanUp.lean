import SealedEnvelope.Proofs.Gateway.SessionKeys

/-!
# `SealedEnvelope.Proofs.Gateway.CleanUp`: what can be told of tidying up the logins

Logins that no longer count are dropped from time to time. Two histories with the same calls, in
which that is done at different times, lead to tables that are `Alike`: they have the same logins
that still count, and may differ in those that do not. No call can tell them apart but one. A
logout ends a login of whatever age, so that an old one that has not been dropped yet is logged
out, and one that has been dropped is not known.

Main statements:

* `LoginTable.Alike.purge_left`: tidying up one table keeps two of them alike;
* `Gateway.Alike.perform`: so does an event at both gateways;
* `Gateway.unauthorized_of_cleanUp`: a login that was dropped is not known again;
* `Gateway.response_eq_or_lateLogout`: what two such histories can differ in;
* `Gateway.lateLogout_tells_cleanUp`: two that do differ in it.
-/

set_option autoImplicit false

namespace SealedEnvelope

/-! ## Tables that are alike -/

namespace LoginTable

variable {lifetime now later : Milliseconds} {logins logins' logins'' : LoginTable}

/-- What counts has counted before. -/
theorem isLive_of_le (hle : now ≤ later) {record : LoginRecord}
    (h : isLive lifetime later record = true) : isLive lifetime now record = true :=
  decide_eq_true (Nat.lt_of_le_of_lt (Nat.sub_le_sub_right hle _) (of_decide_eq_true h))

/-- Whether two tables have the same logins that still count, at some time. -/
structure Alike (lifetime now : Milliseconds) (logins logins' : LoginTable) : Prop where
  left : logins.Distinct
  right : logins'.Distinct
  find?_iff : ∀ hash record, isLive lifetime now record = true →
    (logins.find? hash = some record ↔ logins'.find? hash = some record)

namespace Alike

theorem refl (h : logins.Distinct) (lifetime now : Milliseconds) : Alike lifetime now logins logins :=
  ⟨h, h, fun _ _ _ => Iff.rfl⟩

theorem symm (h : Alike lifetime now logins logins') : Alike lifetime now logins' logins :=
  ⟨h.right, h.left, fun hash record hlive => (h.find?_iff hash record hlive).symm⟩

theorem trans (h : Alike lifetime now logins logins') (h' : Alike lifetime now logins' logins'') :
    Alike lifetime now logins logins'' :=
  ⟨h.left, h'.right, fun hash record hlive =>
    (h.find?_iff hash record hlive).trans (h'.find?_iff hash record hlive)⟩

/-- Time goes by. -/
theorem wait (h : Alike lifetime now logins logins') (hle : now ≤ later) :
    Alike lifetime later logins logins' :=
  ⟨h.left, h.right, fun hash record hlive => h.find?_iff hash record (isLive_of_le hle hlive)⟩

/-- One of them is tidied up. -/
theorem purge_left (h : Alike lifetime now logins logins') :
    Alike lifetime now (logins.purge lifetime now) logins' where
  left := h.left.purge lifetime now
  right := h.right
  find?_iff := by
    intro hash record hlive
    rw [find?_purge h.left, Option.filter_eq_some_iff, and_iff_left hlive]
    exact h.find?_iff hash record hlive

/-- A login is added to both. -/
theorem insert (h : Alike lifetime now logins logins') (hash : FixedBytes 32) (record : LoginRecord) :
    Alike lifetime now (logins.insert hash record) (logins'.insert hash record) where
  left := h.left.insert hash record
  right := h.right.insert hash record
  find?_iff := by
    intro other found hlive
    rw [find?_insert, find?_insert]
    split
    · rfl
    · exact h.find?_iff other found hlive

/-- A login is removed from both. -/
theorem remove (h : Alike lifetime now logins logins') (hash : FixedBytes 32) :
    Alike lifetime now (logins.remove hash) (logins'.remove hash) where
  left := h.left.remove hash
  right := h.right.remove hash
  find?_iff := by
    intro other found hlive
    rw [find?_remove, find?_remove]
    split
    · rfl
    · exact h.find?_iff other found hlive

/-- A call comes in at both, with the same effect. -/
theorem call (h : Alike lifetime now logins logins') (s : Suite) (clock : Clock)
    (effect : LoginEffect) :
    Alike lifetime now (effect.on s lifetime clock logins).2
      (effect.on s lifetime clock logins').2 := by
  cases effect with
  | keeps response => exact h
  | grants key response => exact h.insert _ _
  | tells token => exact h
  | ends token => exact h.remove _

/-- Under each hash they have the same that still counts. -/
theorem filter_find?_eq (h : Alike lifetime now logins logins') (hash : FixedBytes 32) :
    (logins.find? hash).filter (isLive lifetime now)
      = (logins'.find? hash).filter (isLive lifetime now) := by
  refine Option.ext fun record => ?_
  rw [Option.filter_eq_some_iff, Option.filter_eq_some_iff]
  exact and_congr_left (h.find?_iff hash record)

/-- What only one of them has does not count. -/
theorem not_isLive (h : Alike lifetime now logins logins') {hash : FixedBytes 32}
    {record : LoginRecord} (hfind : logins.find? hash = some record)
    (hnone : logins'.find? hash = none) : isLive lifetime now record = false := by
  refine Bool.eq_false_iff.2 fun hlive => ?_
  rw [(h.find?_iff hash record hlive).1 hfind] at hnone
  cases hnone

end Alike

end LoginTable

/-! ## Gateways that are alike -/

namespace Gateway

variable {s : Suite} {g g' g'' : Gateway} {now later : Milliseconds} {world : World} {call : HttpCall}

/-- Whether two gateways differ in logins only that do not count any more, at some time. -/
structure Alike (now : Milliseconds) (g g' : Gateway) : Prop where
  eq_with_logins : g' = { g with logins := g'.logins }
  logins : LoginTable.Alike g.loginLifetime now g.logins g'.logins

namespace Alike

/-- Gateways that differ in their logins only are alike if the logins are. -/
theorem of_logins {logins logins' : LoginTable}
    (h : LoginTable.Alike g.loginLifetime now logins logins') :
    Alike now { g with logins := logins } { g with logins := logins' } :=
  ⟨rfl, h⟩

theorem refl (h : g.logins.Distinct) (now : Milliseconds) : Alike now g g := of_logins (.refl h _ _)

theorem symm (h : Alike now g g') : Alike now g' g := by
  obtain ⟨heq, hlogins⟩ := h
  rw [heq]
  exact of_logins hlogins.symm

theorem trans (h : Alike now g g') (h' : Alike now g' g'') : Alike now g g'' := by
  obtain ⟨heq, hlogins⟩ := h
  obtain ⟨heq', hlogins'⟩ := h'
  rw [heq] at heq' hlogins'
  rw [heq']
  exact of_logins (hlogins.trans hlogins')

theorem wait (h : Alike now g g') (hle : now ≤ later) : Alike later g g' :=
  ⟨h.eq_with_logins, h.logins.wait hle⟩

/-- The logins of one of them are tidied up. -/
theorem purgeLogins_left {clock : Clock} (h : Alike clock.steady g g') :
    Alike clock.steady (g.purgeLogins clock) g' :=
  ⟨h.eq_with_logins, h.logins.purge_left⟩

/-- An event keeps two gateways alike. -/
theorem perform {event : GatewayEvent} (h : Alike event.time g g') (s : Suite) :
    Alike event.time (g.perform s event).2 (g'.perform s event).2 := by
  obtain ⟨heq, hlogins⟩ := h
  generalize g'.logins = logins' at heq hlogins
  subst heq
  cases event with
  | purgePrekeys clock => exact ⟨rfl, hlogins⟩
  | purgeLogins clock => exact ⟨rfl, hlogins.purge_left.symm.purge_left.symm⟩
  | call world call =>
    obtain ⟨effect, -, prekeys, hanswer⟩ := exists_effects s world g call
    have hself : (g.answer s world.clock call world.entropy).1 = _ := hanswer g.logins
    rw [Gateway.perform, Gateway.perform, hself, hanswer logins']
    exact ⟨rfl, hlogins.call s world.clock effect⟩

end Alike

/-- Whether a call logs out at one gateway with a login that does not count any more, and is not
known at another one. -/
def EndsLate (s : Suite) (world : World) (call : HttpCall) (g g' : Gateway) : Prop :=
  call.IsTo .logout
    ∧ (∃ token record, call.Bears token ∧ g.logins.find? (LoginTable.hashOf s token) = some record
      ∧ LoginTable.isLive g.loginLifetime world.clock.steady record = false)
    ∧ (g.answer s world.clock call world.entropy).1.1 = loggedOut
    ∧ (g'.answer s world.clock call world.entropy).1.1 = unauthorized

/-- All in which gateways that are alike can be told apart. -/
theorem Alike.answer_eq_or_endsLate (h : Alike world.clock.steady g g') (s : Suite)
    (call : HttpCall) :
    (g.answer s world.clock call world.entropy).1.1 = (g'.answer s world.clock call world.entropy).1.1
      ∨ EndsLate s world call g g' ∨ EndsLate s world call g' g := by
  obtain ⟨heq, hlogins⟩ := h
  generalize g'.logins = logins' at heq hlogins
  subst heq
  obtain ⟨effect, hof, prekeys, hanswer⟩ := exists_effects s world g call
  have hself : (g.answer s world.clock call world.entropy).1 = _ := hanswer g.logins
  rw [EndsLate, EndsLate, hself, hanswer logins']
  cases effect with
  | keeps response => exact .inl rfl
  | grants key response => exact .inl rfl
  | tells token => exact .inl (congrArg toldOf (hlogins.filter_find?_eq _))
  | ends token =>
    obtain ⟨hlogout, htoken⟩ := hof
    dsimp only [LoginEffect.on]
    -- Either table has a login under the hash or has none.
    cases hfind : g.logins.find? (LoginTable.hashOf s token) with
    | none =>
      cases hfind' : logins'.find? (LoginTable.hashOf s token) with
      | none => exact .inl rfl
      | some record =>
        exact .inr (.inr ⟨hlogout, ⟨token, record, htoken, hfind',
          hlogins.symm.not_isLive hfind' hfind⟩, rfl, rfl⟩)
    | some record =>
      cases hfind' : logins'.find? (LoginTable.hashOf s token) with
      | none =>
        exact .inr (.inl ⟨hlogout, ⟨token, record, htoken, hfind,
          hlogins.not_isLive hfind hfind'⟩, rfl, rfl⟩)
      | some record' => exact .inl rfl

end Gateway

/-! ## Histories that differ in their clean-ups -/

/-- Whether the logins are tidied up. -/
def GatewayEvent.isCleanUp : GatewayEvent → Bool
  | .purgeLogins _ => true
  | _ => false

/-- A history in which the logins are never tidied up. -/
def withoutCleanUps (events : List GatewayEvent) : List GatewayEvent :=
  events.filter fun event => !event.isCleanUp

theorem withoutCleanUps_concat_purgeLogins (events : List GatewayEvent) (clock : Clock) :
    withoutCleanUps (events ++ [.purgeLogins clock]) = withoutCleanUps events :=
  (List.filter_append ..).trans (List.append_nil _)

theorem withoutCleanUps_concat (events : List GatewayEvent) {event : GatewayEvent}
    (h : event.isCleanUp = false) :
    withoutCleanUps (events ++ [event]) = withoutCleanUps events ++ [event] := by
  rw [withoutCleanUps, List.filter_append, List.filter_singleton, h]
  rfl

/-- Whether a call logs out with a session key whose login stands, but is as old as the lifetime of
a login or older. -/
def LateLogout (s : Suite) (lifetime : Milliseconds) (history : List Served) (world : World)
    (call : HttpCall) : Prop :=
  call.IsTo .logout ∧ ∃ token login, call.Bears token
    ∧ Standing s history (LoginTable.hashOf s token) login
    ∧ lifetime ≤ world.clock.steady - login.world.clock.steady

namespace Gateway

variable {s : Suite} {g : Gateway} {events events' : List GatewayEvent} {now : Milliseconds}
  {world : World} {call : HttpCall} {token : String} {login : Served}

/-- A history leads to a gateway that is alike without its clean-ups. -/
theorem alike_after_withoutCleanUps (s : Suite) (hdistinct : g.logins.Distinct)
    (htimes : Chronological events) (hnow : ∀ event ∈ events, event.time ≤ now) :
    Alike now (g.after s events) (g.after s (withoutCleanUps events)) := by
  induction events using List.reverseRecOn generalizing now with
  | nil => exact .refl hdistinct now
  | append_singleton events event ih =>
    obtain ⟨htimes, -, hlast⟩ := List.pairwise_append.1 htimes
    obtain ⟨-, hevent⟩ := List.forall_mem_append.1 hnow
    have halike := ih htimes fun earlier hearlier => hlast earlier hearlier event List.mem_cons_self
    refine Alike.wait ?_ (hevent event List.mem_cons_self)
    -- A clean-up happens at the first gateway only, and any other event at both.
    cases event with
    | purgeLogins clock =>
      rw [withoutCleanUps_concat_purgeLogins, after_concat]
      exact halike.purgeLogins_left
    | call world call =>
      rw [withoutCleanUps_concat events rfl, after_concat, after_concat]
      exact halike.perform s
    | purgePrekeys clock =>
      rw [withoutCleanUps_concat events rfl, after_concat, after_concat]
      exact halike.perform s

/-- Two histories lead to gateways that are alike if they differ in their clean-ups only. -/
theorem alike_after (s : Suite) (hdistinct : g.logins.Distinct)
    (hsame : withoutCleanUps events = withoutCleanUps events')
    (htimes : Chronological events) (hnow : ∀ event ∈ events, event.time ≤ now)
    (htimes' : Chronological events') (hnow' : ∀ event ∈ events', event.time ≤ now) :
    Alike now (g.after s events) (g.after s events') := by
  have halike := alike_after_withoutCleanUps s hdistinct htimes hnow
  rw [hsame] at halike
  exact halike.trans (alike_after_withoutCleanUps s hdistinct htimes' hnow').symm

/-- What ends late is a login that stands. -/
theorem EndsLate.lateLogout {g' : Gateway} {history : List Served}
    (h : EndsLate s world call g g') {lifetime : Milliseconds}
    (hlifetime : g.loginLifetime = lifetime)
    (hkept : Kept s lifetime world.clock.steady history g.logins) :
    LateLogout s lifetime history world call := by
  subst hlifetime
  obtain ⟨hlogout, ⟨token, record, htoken, hfind, hlive⟩, -⟩ := h
  obtain ⟨login, hstanding, rfl⟩ := hkept.sound _ _ hfind
  exact ⟨hlogout, token, login, htoken, hstanding, Nat.not_lt.1 (of_decide_eq_false hlive)⟩

/-- A login that stands but does not count any more is not told of. -/
theorem unauthorized_of_late {history : List Served} {lifetime : Milliseconds}
    (hlifetime : g.loginLifetime = lifetime)
    (hkept : Kept s lifetime world.clock.steady history g.logins) (hdetail : call.IsTo .detail)
    (htoken : call.Bears token) (hstanding : Standing s history (LoginTable.hashOf s token) login)
    (hlate : lifetime ≤ world.clock.steady - login.world.clock.steady) :
    (g.answer s world.clock call world.entropy).1.1 = unauthorized := by
  subst hlifetime
  rw [answer_of_route hdetail.1 hdetail.2]
  exact (answerDetail_of_bears htoken).trans (congrArg toldOf (hkept.live_eq_none hstanding hlate))

/-! ## After a clean-up -/

/-- What is not there is not there after an event either, unless it is granted again. -/
theorem find?_perform_eq_none {hash : FixedBytes 32} {event : GatewayEvent}
    (h : g.logins.find? hash = none)
    (hgrants : ∀ served ∈ (g.perform s event).1, ¬ served.GrantsUnder s hash) :
    (g.perform s event).2.logins.find? hash = none := by
  cases event with
  | purgePrekeys clock => exact h
  | purgeLogins clock =>
    have hnone := List.find?_eq_none.1 (Option.map_eq_none_iff.1 h)
    exact Option.map_eq_none_iff.2 (List.find?_eq_none.2 fun entry hentry =>
      hnone entry (List.mem_filter.1 hentry).1)
  | call world call =>
    have hgrants := hgrants _ List.mem_cons_self
    obtain ⟨effect, heffects⟩ := exists_effects s world g call
    obtain ⟨prekeys, hanswer⟩ := heffects.answer_eq
    rw [perform]
    rw [hanswer] at hgrants ⊢
    cases effect with
    | keeps response => exact h
    | grants key response =>
      have hne : hash ≠ LoginTable.hashOf s key := fun heq => hgrants ⟨key, heffects.1, heq.symm⟩
      exact (LoginTable.find?_insert ..).trans ((if_neg hne).trans h)
    | tells token => exact h
    | ends token =>
      refine (LoginTable.find?_remove ..).trans ?_
      rw [h, ite_self]

/-- So it is after a history. -/
theorem find?_after_eq_none {hash : FixedBytes 32} (h : g.logins.find? hash = none)
    (hgrants : ∀ served ∈ g.served s events, ¬ served.GrantsUnder s hash) :
    (g.after s events).logins.find? hash = none := by
  induction events generalizing g with
  | nil => exact h
  | cons event events ih =>
    rw [served, List.forall_mem_append] at hgrants
    exact ih (find?_perform_eq_none h hgrants.1) hgrants.2

/-- A session key whose login was too old when the logins were tidied up is refused from then on, by
a logout too, unless it is granted again. -/
theorem unauthorized_of_cleanUp (s : Suite) (hempty : g.logins = {}) {clock : Clock}
    (htimes : Chronological (events ++ .purgeLogins clock :: events'))
    (hstanding : Standing s (g.served s events) (LoginTable.hashOf s token) login)
    (hlate : g.loginLifetime ≤ clock.steady - login.world.clock.steady)
    (hgrants : ∀ served ∈ ((g.after s events).purgeLogins clock).served s events',
      ¬ served.GrantsUnder s (LoginTable.hashOf s token))
    (hroute : call.IsTo .detail ∨ call.IsTo .logout) (htoken : call.Bears token) :
    g.responseAfter s (events ++ .purgeLogins clock :: events') world call = unauthorized := by
  obtain ⟨htimes, -, hlast⟩ := List.pairwise_append.1 htimes
  have hkept : Kept s g.loginLifetime clock.steady _ _ :=
    kept_after s hempty htimes fun event hevent => hlast event hevent _ List.mem_cons_self
  have hnone : ((g.after s events).purgeLogins clock).logins.find? (LoginTable.hashOf s token)
      = none := by
    refine (LoginTable.find?_purge hkept.distinct ..).trans ?_
    rw [loginLifetime_after]
    exact hkept.live_eq_none hstanding hlate
  have hafter : g.after s (events ++ .purgeLogins clock :: events')
      = ((g.after s events).purgeLogins clock).after s events' :=
    List.foldl_append ..
  have hgone := find?_after_eq_none hnone hgrants
  rw [responseAfter, hafter]
  rcases hroute with hdetail | hlogout
  · rw [answer_of_route hdetail.1 hdetail.2]
    refine (answerDetail_of_bears htoken).trans ?_
    rw [hgone]
    rfl
  · rw [answer_of_route hlogout.1 hlogout.2]
    refine (congrArg Prod.fst (answerLogout_of_bears htoken)).trans ?_
    rw [hgone]
    rfl

/-! ## What can be told of a clean-up -/

/-- Two histories with the same calls, which start without logins and differ in when the logins are
tidied up, have the same response to each call, unless it is a late logout: where the login has
not been dropped, it is logged out, and where it has, it is not known. Whoever asks with the session
key of an old login is refused in either of them. -/
theorem response_eq_or_lateLogout (s : Suite) (hempty : g.logins = {})
    (hsame : withoutCleanUps events = withoutCleanUps events')
    (htimes : Chronological (events ++ [.call world call]))
    (htimes' : Chronological (events' ++ [.call world call])) :
    (g.responseAfter s events world call = g.responseAfter s events' world call
      ∨ (LateLogout s g.loginLifetime (g.served s events) world call
        ∧ g.responseAfter s events world call = loggedOut
        ∧ g.responseAfter s events' world call = unauthorized)
      ∨ (LateLogout s g.loginLifetime (g.served s events') world call
        ∧ g.responseAfter s events world call = unauthorized
        ∧ g.responseAfter s events' world call = loggedOut))
    ∧ ∀ token login, call.IsTo .detail → call.Bears token →
      Standing s (g.served s events) (LoginTable.hashOf s token) login →
      g.loginLifetime ≤ world.clock.steady - login.world.clock.steady →
      g.responseAfter s events world call = unauthorized := by
  obtain ⟨htimes, -, hlast⟩ := List.pairwise_append.1 htimes
  obtain ⟨htimes', -, hlast'⟩ := List.pairwise_append.1 htimes'
  have hnow : ∀ event ∈ events, event.time ≤ world.clock.steady :=
    fun event hevent => hlast event hevent _ List.mem_cons_self
  have hnow' : ∀ event ∈ events', event.time ≤ world.clock.steady :=
    fun event hevent => hlast' event hevent _ List.mem_cons_self
  have hkept := kept_after s hempty htimes hnow
  have hkept' := kept_after s hempty htimes' hnow'
  have hdistinct : g.logins.Distinct := hempty ▸ LoginTable.distinct_empty
  have halike := alike_after s hdistinct hsame htimes hnow htimes' hnow'
  refine ⟨?_, fun token login hdetail htoken hstanding hlate =>
    unauthorized_of_late (loginLifetime_after s g events) hkept hdetail htoken hstanding hlate⟩
  rcases halike.answer_eq_or_endsLate s call with heq | hends | hends
  · exact .inl heq
  · exact .inr (.inl ⟨hends.lateLogout (loginLifetime_after s g events) hkept, hends.2.2⟩)
  · exact .inr (.inr ⟨hends.lateLogout (loginLifetime_after s g events') hkept', hends.2.2.2,
      hends.2.2.1⟩)

/-- A day after the login, when it does not count any more. -/
def oneDayLater : World where
  clock := { wall := .ofUnixNanos 1700086401000000000, steady := 86401000 }
  entropy := .ofBytes []

/-- Whoever asks with the session key of yesterday is refused, whether or not the logins have been
tidied up. -/
theorem response_eq_or_lateLogout_oneDay :
    ∃ events : List GatewayEvent,
      (ofConfig {}).responseAfter .twoSigners events oneDayLater
          (.withToken "/self/detail" FirstLogin.oneSecondLater.sessionKey) = unauthorized
        ∧ (ofConfig {}).responseAfter .twoSigners (events ++ [.purgeLogins oneDayLater.clock])
          oneDayLater (.withToken "/self/detail" FirstLogin.oneSecondLater.sessionKey)
            = unauthorized := by
  obtain ⟨envelope, offered, login, hserved, hstanding, hworld⟩ :=
    FirstLogin.ready_oneSecondLater.exists_standing Suite.twoSigners_deciphers
  let events := FirstLogin.oneSecondLater.events .twoSigners envelope
  let asking := HttpCall.withToken "/self/detail" FirstLogin.oneSecondLater.sessionKey
  have hsame : withoutCleanUps events
      = withoutCleanUps (events ++ [.purgeLogins oneDayLater.clock]) :=
    (withoutCleanUps_concat_purgeLogins events oneDayLater.clock).symm
  have htimes : Chronological (events ++ [.call oneDayLater asking]) :=
    chronological_of_times [0, 1000, 86401000] rfl (by decide)
  have htimes' : Chronological (events ++ [.purgeLogins oneDayLater.clock]
      ++ [.call oneDayLater asking]) :=
    chronological_of_times [0, 1000, 86401000, 86401000] rfl (by decide)
  have hdetail : asking.IsTo .detail :=
    HttpCall.isTo_withToken (by decide +kernel) (by decide +kernel) _
  have hlate : 86400000 ≤ oneDayLater.clock.steady - login.world.clock.steady := by
    rw [hworld]
    decide
  obtain ⟨hresponse, hrefused⟩ :=
    response_eq_or_lateLogout .twoSigners (g := ofConfig {}) rfl hsame htimes htimes'
  have hfirst := hrefused _ login hdetail (FirstLogin.bears_oneSecondLater "/self/detail")
    (hserved ▸ hstanding) hlate
  refine ⟨events, hfirst, ?_⟩
  rcases hresponse with heq | ⟨hends, -⟩ | ⟨hends, -⟩
  · exact heq.symm.trans hfirst
  · exact nomatch hdetail.unique hends.1
  · exact nomatch hdetail.unique hends.1

/-- A late logout tells whether the logins have been tidied up: the session key of yesterday is
logged out if they have not, and is not known if they have. -/
theorem lateLogout_tells_cleanUp :
    ∃ (events events' : List GatewayEvent) (call : HttpCall),
      withoutCleanUps events = withoutCleanUps events'
        ∧ Chronological (events ++ [.call oneDayLater call])
        ∧ Chronological (events' ++ [.call oneDayLater call])
        ∧ (ofConfig {}).responseAfter .twoSigners events oneDayLater call = loggedOut
        ∧ (ofConfig {}).responseAfter .twoSigners events' oneDayLater call = unauthorized := by
  obtain ⟨envelope, offered, login, hserved, hstanding, hworld⟩ :=
    FirstLogin.ready_oneSecondLater.exists_standing Suite.twoSigners_deciphers
  let events := FirstLogin.oneSecondLater.events .twoSigners envelope
  let leaving := HttpCall.withToken "/self/logout" FirstLogin.oneSecondLater.sessionKey
  have hlogout : leaving.IsTo .logout :=
    HttpCall.isTo_withToken (by decide +kernel) (by decide +kernel) _
  have htoken := FirstLogin.bears_oneSecondLater "/self/logout"
  have hlate : 86400000 ≤ oneDayLater.clock.steady - login.world.clock.steady := by
    rw [hworld]
    decide
  refine ⟨events, events ++ [.purgeLogins oneDayLater.clock], leaving,
    (withoutCleanUps_concat_purgeLogins events oneDayLater.clock).symm,
    chronological_of_times [0, 1000, 86401000] rfl (by decide),
    chronological_of_times [0, 1000, 86401000, 86401000] rfl (by decide), ?_, ?_⟩
  · -- The table has the login from when it was granted, when it still counted.
    have htimes : Chronological events := chronological_of_times [0, 1000] rfl (by decide)
    have hnow : ∀ event ∈ events, event.time ≤ 1000 :=
      List.forall_mem_cons.2 ⟨Nat.zero_le _, List.forall_mem_singleton.2 (Nat.le_refl 1000)⟩
    have hkept := kept_after .twoSigners (g := ofConfig {}) rfl htimes hnow
    have hage : 1000 - login.world.clock.steady < 86400000 := by
      rw [hworld]
      decide
    have hfind := hkept.complete _ login (hserved ▸ hstanding) hage
    rw [responseAfter, answer_of_route hlogout.1 hlogout.2]
    refine (congrArg Prod.fst (answerLogout_of_bears htoken)).trans ?_
    rw [hfind]
    rfl
  · exact unauthorized_of_cleanUp .twoSigners rfl
      (chronological_of_times [0, 1000, 86401000] rfl (by decide)) (hserved ▸ hstanding) hlate
      (List.forall_mem_nil _) (.inr hlogout) htoken

end Gateway

end SealedEnvelope
