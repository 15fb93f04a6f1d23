import Mathlib.Data.List.Nodup
import SealedEnvelope.Proofs.Gateway.History

/-!
# `SealedEnvelope.Proofs.Gateway.LoginTable`: what each call does to the logins

A table is known by what it has under each hash. No two of its entries are under one hash, and
as long as that is so, every operation has an equation for what is found after it.

A call does one of four things to the table, whatever the table is: it leaves it alone, grants a
login, tells of one, or ends one. These are the effects of `LoginEffect`. `Gateway.Effects` speaks
of all tables at once, so that two gateways that differ in their logins only can be run side by
side.

Main statements:

* `LoginTable.find?_insert`, `LoginTable.find?_remove` and `LoginTable.find?_purge`: what is found
  after each operation;
* `HttpCall.bearerToken?_eq_some_iff`: which token a call bears;
* `Gateway.exists_effects`: all that a call can do to the logins;
* `Gateway.exists_grants_iff`: a login that is answered with status 200 is one that is granted.
-/

set_option autoImplicit false

namespace SealedEnvelope

/-! ## The table -/

namespace LoginTable

variable {logins : LoginTable} {hash : FixedBytes 32} {record : LoginRecord}

/-- No two entries are under one hash. -/
def Distinct (logins : LoginTable) : Prop := (logins.entries.map Prod.fst).Nodup

theorem distinct_empty : Distinct {} := List.nodup_nil

theorem Distinct.remove (h : logins.Distinct) (hash : FixedBytes 32) :
    (logins.remove hash).Distinct :=
  h.sublist (List.filter_sublist.map _)

theorem Distinct.purge (h : logins.Distinct) (lifetime at_ : Milliseconds) :
    (logins.purge lifetime at_).Distinct :=
  h.sublist (List.filter_sublist.map _)

theorem Distinct.insert (h : logins.Distinct) (hash : FixedBytes 32) (record : LoginRecord) :
    (logins.insert hash record).Distinct := by
  refine List.nodup_cons.2 ⟨fun hmem => ?_, h.remove hash⟩
  obtain ⟨entry, hentry, heq⟩ := List.mem_map.1 hmem
  exact of_decide_eq_true (List.mem_filter.1 hentry).2 heq

/-- What is found under a hash is an entry under it. -/
theorem mem_of_find? (h : logins.find? hash = some record) : (hash, record) ∈ logins.entries := by
  obtain ⟨entry, hfind, rfl⟩ := Option.map_eq_some_iff.1 h
  have hhash := List.find?_some hfind
  rw [← eq_of_beq hhash]
  exact List.mem_of_find?_eq_some hfind

/-- Where the entries are distinct, it is the only one. -/
theorem find?_eq_some_iff (h : logins.Distinct) :
    logins.find? hash = some record ↔ (hash, record) ∈ logins.entries := by
  refine ⟨mem_of_find?, fun hmem => ?_⟩
  cases hfind : logins.find? hash with
  | none =>
    have hnone := List.find?_eq_none.1 (Option.map_eq_none_iff.1 hfind) _ hmem
    exact absurd (beq_self_eq_true hash) hnone
  | some found =>
    exact congrArg (some ·.2) (List.inj_on_of_nodup_map h (mem_of_find? hfind) hmem rfl)

/-! ## What is found after an operation -/

theorem find?_remove (logins : LoginTable) (hash other : FixedBytes 32) :
    (logins.remove hash).find? other = if other = hash then none else logins.find? other := by
  rw [find?, find?, remove, List.find?_filter]
  split
  · next heq =>
    rw [Option.map_eq_none_iff, List.find?_eq_none]
    rintro entry - hentry
    obtain ⟨hkept, hother⟩ := of_decide_eq_true hentry
    exact of_decide_eq_true hkept ((eq_of_beq hother).trans heq)
  · next hne =>
    -- The filter lets all entries under the other hash pass, so that it can be left out.
    refine congrArg (fun p => (logins.entries.find? p).map Prod.snd) (funext fun entry => ?_)
    by_cases hentry : entry.1 = other
    · simp only [hentry, hne, ne_eq, not_false_eq_true, decide_true, true_and, Bool.decide_eq_true]
    · simp only [beq_eq_false_iff_ne.2 hentry, Bool.false_eq_true, and_false, decide_false]

/-- Where there is nothing under a hash, there is nothing to remove. -/
theorem remove_of_find?_eq_none (h : logins.find? hash = none) : logins.remove hash = logins := by
  have hnone := List.find?_eq_none.1 (Option.map_eq_none_iff.1 h)
  have hkept : ∀ entry ∈ logins.entries, decide (entry.1 ≠ hash) = true := fun entry hentry =>
    decide_eq_true fun heq => hnone entry hentry (beq_iff_eq.2 heq)
  rw [remove, List.filter_eq_self.2 hkept]

theorem find?_insert (logins : LoginTable) (hash other : FixedBytes 32) (record : LoginRecord) :
    (logins.insert hash record).find? other
      = if other = hash then some record else logins.find? other := by
  let isOther : FixedBytes 32 × LoginRecord → Bool := fun entry => entry.1 == other
  split
  · next heq =>
    have hfirst : isOther (hash, record) = true := beq_iff_eq.2 heq.symm
    exact congrArg (Option.map Prod.snd) (List.find?_cons_of_pos hfirst)
  · next hne =>
    have hfirst : ¬ isOther (hash, record) = true := fun hsame => hne (eq_of_beq hsame).symm
    refine (congrArg (Option.map Prod.snd) (List.find?_cons_of_neg hfirst)).trans ?_
    exact (find?_remove logins hash other).trans (if_neg hne)

/-- Tidying up leaves what still counts, as long as no two entries are under one hash: else it
could bring to light an entry that was behind another one. -/
theorem find?_purge (h : logins.Distinct) (lifetime at_ : Milliseconds) (hash : FixedBytes 32) :
    (logins.purge lifetime at_).find? hash = (logins.find? hash).filter (isLive lifetime at_) := by
  refine Option.ext fun record => ?_
  rw [Option.filter_eq_some_iff, find?_eq_some_iff (h.purge lifetime at_), find?_eq_some_iff h]
  exact List.mem_filter

end LoginTable

/-! ## Calls -/

namespace HttpCall

variable {call : HttpCall} {token : String} {route other : Route}

/-- Whether a call goes to a route, with a method of the route. -/
def IsTo (call : HttpCall) (route : Route) : Prop :=
  Route.ofPath? call.target.path = some route ∧ call.method ∈ route.methods

/-- A call goes to one route only. -/
theorem IsTo.unique (h : call.IsTo route) (h' : call.IsTo other) : route = other :=
  Option.some.inj (h.1.symm.trans h'.1)

/-- Whether a call bears a token: it has an `authorization` header, and the value is the scheme
`Bearer`, a space and the token. -/
def Bears (call : HttpCall) (token : String) : Prop :=
  call.headerText? "authorization" = some ("Bearer " ++ token)

/-- The token that is found is the one that the call bears. -/
theorem bearerToken?_eq_some_iff : call.bearerToken? = some token ↔ call.Bears token := by
  unfold bearerToken? Bears
  cases call.headerText? "authorization" with
  | none => exact ⟨nofun, nofun⟩
  | some value =>
    rw [Option.bind_some, Option.some.injEq, Option.ite_none_right_eq_some, Option.some.injEq,
      List.isPrefixOf_iff_prefix]
    constructor
    · rintro ⟨⟨rest, hvalue⟩, rfl⟩
      rw [← hvalue, List.drop_left, ← String.toList_inj, String.toList_append,
        String.toList_ofList (l := rest), hvalue]
    · rintro rfl
      rw [String.toList_append, List.drop_left, String.ofList_toList]
      exact ⟨List.prefix_append .., rfl⟩

/-- A call bears one token only. -/
theorem Bears.unique {token' : String} (h : call.Bears token) (h' : call.Bears token') :
    token = token' :=
  Option.some.inj ((bearerToken?_eq_some_iff.2 h).symm.trans (bearerToken?_eq_some_iff.2 h'))

/-- Where none is found, the call bears none. -/
theorem bearerToken?_eq_none_iff : call.bearerToken? = none ↔ ∀ token, ¬ call.Bears token := by
  rw [Option.eq_none_iff_forall_ne_some]
  exact forall_congr' fun token => not_congr bearerToken?_eq_some_iff

end HttpCall

/-! ## Logins that are granted -/

/-- The session key that is made of the next random bytes. -/
def Gateway.drawnKey (e : Entropy) : String := Hex.encode (e.peek sessionKeyLength).val

/-- Whether a call is a login that is granted with a session key: the key is made of the next
random bytes, and the response is a sealed reply with the key in it. -/
structure Served.Grants (s : Suite) (served : Served) (key : String) : Prop where
  isTo : served.call.IsTo .login
  key_eq : key = Gateway.drawnKey served.world.entropy
  response_eq : ∃ (session : Session) (envelope : String),
    (session.pack s served.world.clock.wall (Gateway.loginReply key)
        (served.world.entropy.advance Gateway.sessionKeyLength)).1 = .ok envelope
      ∧ served.response = Gateway.sealedResponse (.ok { envelope := envelope })

theorem Served.Grants.status_eq {s : Suite} {served : Served} {key : String}
    (h : served.Grants s key) : served.response.status = 200 := by
  obtain ⟨session, envelope, -, hresponse⟩ := h.response_eq
  rw [hresponse]
  rfl

namespace Gateway

variable {s : Suite} {clock : Clock} {g : Gateway} {call : HttpCall}

/-- The status of an error is not the one that says that all is well. -/
theorem errorStatus_ne_ok (error : CallError) : errorStatus error ≠ 200 := by
  unfold errorStatus
  split <;> decide

/-- A body that does not hold what it should is not told that all is well. -/
theorem status_of_readBody_eq_error {α : Type} {reading : JsonReader.Reading α}
    {response : HttpResponse} (h : readBody reading call = .error response) :
    response.status ≠ 200 := by
  have hrejected : response.status = 415 ∨ response.status = 413 ∨ response.status = 400
      ∨ response.status = 422 := by
    unfold readBody at h
    split at h
    · cases h
      exact .inl rfl
    · split at h
      · cases h
        exact .inr (.inl rfl)
      · split at h <;> cases h
        · exact .inr (.inr (.inl rfl))
        · exact .inr (.inr (.inr rfl))
  rcases hrejected with h | h | h | h <;> rw [h] <;> decide

/-- A login that is granted has drawn its key and then sealed the reply. -/
theorem of_grantLogin_eq_ok {session : Session} {key : String} {reply : SealedReply} {e : Entropy}
    (h : (grantLogin s clock session e).1 = .ok (key, reply)) :
    key = drawnKey e
      ∧ ∃ envelope : String,
        (session.pack s clock.wall (loginReply key) (e.advance sessionKeyLength)).1 = .ok envelope
          ∧ reply = { envelope := envelope } := by
  obtain ⟨raw, e₁, hraw, h₁⟩ := Drawing.exists_of_bind_eq_ok h
  obtain ⟨rfl, rfl⟩ := Drawing.of_bytes_eq_ok hraw
  obtain ⟨sealed, e₂, hreply, h₂⟩ := Drawing.exists_of_bind_eq_ok h₁
  obtain ⟨rfl, rfl⟩ := Prod.mk.inj (Except.ok.inj h₂)
  obtain ⟨envelope, e₃, hpack, h₃⟩ := Drawing.exists_of_bind_eq_ok (congrArg Prod.fst hreply)
  have hpack := congrArg Prod.fst (Drawing.of_mapError_eq_ok hpack)
  exact ⟨rfl, envelope, hpack, (Except.ok.inj h₃).symm⟩

/-- A sealed login is granted, or it leaves the logins alone and is not told that all is well.
What comes of it is the same for all tables. -/
theorem answerLogin_cases (s : Suite) (world : World) (g : Gateway) (request : SealedRequest) :
    (∃ response : HttpResponse, response.status ≠ 200
      ∧ ∀ logins : LoginTable,
        ({ g with logins := logins }.answerLogin s world.clock request world.entropy).1
          = (response, { g with prekeys := (g.prekeys.take world.clock.steady request.index).2
                                logins := logins }))
    ∨ ∃ (session : Session) (key envelope : String),
      key = drawnKey world.entropy
      ∧ (session.pack s world.clock.wall (loginReply key)
          (world.entropy.advance sessionKeyLength)).1 = .ok envelope
      ∧ ∀ logins : LoginTable,
        ({ g with logins := logins }.answerLogin s world.clock request world.entropy).1
          = (sealedResponse (.ok { envelope := envelope }),
            { g with prekeys := (g.prekeys.take world.clock.steady request.index).2
                     logins := logins.insert (LoginTable.hashOf s key)
                       (loginRecord world.clock) }) := by
  -- What is left of the prekeys is told by the index alone, whatever the envelope is.
  have hstore : (g.prekeys.take world.clock.steady request.index).2
      = (Responder.receive s world.clock g.prekeys request).2 := rfl
  rw [hstore]
  unfold answerLogin
  dsimp only
  generalize Responder.receive s world.clock g.prekeys request = received
  obtain ⟨received, prekeys⟩ := received
  match received with
  | .error error => exact .inl ⟨rejectError error, errorStatus_ne_ok error, fun _ => rfl⟩
  | .ok (session, []) => exact .inl ⟨_, errorStatus_ne_ok (.missingField "password"), fun _ => rfl⟩
  | .ok (session, [user]) =>
    exact .inl ⟨_, errorStatus_ne_ok (.missingField "password"), fun _ => rfl⟩
  | .ok (session, user :: password :: rest) =>
    by_cases hmatch : g.credentialsMatch user password = true
    · cases hgrant : grantLogin s world.clock session world.entropy with
      | mk granted e =>
        cases granted with
        | error error =>
          refine .inl ⟨rejectError error, errorStatus_ne_ok error, fun logins => ?_⟩
          refine (congrArg Prod.fst (congrFun (if_pos hmatch) world.entropy)).trans ?_
          simp only [bind, StateT.bind, ExceptT.run, hgrant]
          rfl
        | ok granted =>
          obtain ⟨key, reply⟩ := granted
          obtain ⟨hkey, envelope, hpack, rfl⟩ := of_grantLogin_eq_ok (congrArg Prod.fst hgrant)
          refine .inr ⟨session, key, envelope, hkey, hpack, fun logins => ?_⟩
          refine (congrArg Prod.fst (congrFun (if_pos hmatch) world.entropy)).trans ?_
          simp only [bind, StateT.bind, ExceptT.run, hgrant]
          rfl
    · refine .inl ⟨reject 401 "INVALID_CREDENTIAL" "user or password mismatch", ?_, fun logins => ?_⟩
      · decide
      · exact (congrArg Prod.fst (congrFun (if_neg hmatch) world.entropy)).trans rfl

/-- Answering an offer neither looks at the logins nor touches them. -/
theorem answerOffer_logins (s : Suite) (world : World) (g : Gateway) (offer : Offer) :
    ∃ (response : HttpResponse) (prekeys : PrekeyStore), ∀ logins : LoginTable,
      ({ g with logins := logins }.answerOffer s world.clock offer world.entropy).1
        = (response, { g with prekeys := prekeys, logins := logins }) := by
  cases hprepare : (PrekeyStore.prepare s world.clock.steady offer world.entropy).1 with
  | ok prepared =>
    refine ⟨jsonResponse 200 (.object prepared.1.members), g.prekeys.insert prepared.2,
      fun logins => ?_⟩
    rcases answerOffer_cases s world.clock { g with logins := logins } offer world.entropy with
      ⟨answer, entry, hprepared, houtcome⟩ | ⟨error, hprepared, -⟩
    · rw [hprepare] at hprepared
      cases hprepared
      exact houtcome
    · rw [hprepare] at hprepared
      cases hprepared
  | error error =>
    refine ⟨rejectError error, g.prekeys, fun logins => ?_⟩
    rcases answerOffer_cases s world.clock { g with logins := logins } offer world.entropy with
      ⟨answer, entry, hprepared, -⟩ | ⟨error', hprepared, houtcome⟩
    · rw [hprepare] at hprepared
      cases hprepared
    · rw [hprepare] at hprepared
      cases hprepared
      exact houtcome

/-- Neither does an echo. -/
theorem answerEcho_logins (s : Suite) (world : World) (g : Gateway) (request : SealedRequest) :
    ∃ (response : HttpResponse) (prekeys : PrekeyStore), ∀ logins : LoginTable,
      ({ g with logins := logins }.answerEcho s world.clock request world.entropy).1
        = (response, { g with prekeys := prekeys, logins := logins }) := by
  unfold answerEcho
  dsimp only
  generalize Responder.receiveRequest s world.clock g.prekeys request = received
  obtain ⟨received, prekeys⟩ := received
  cases received with
  | error error => exact ⟨_, _, fun _ => rfl⟩
  | ok opened => exact ⟨_, _, fun _ => rfl⟩

/-- What is told of a login, or that there is none. -/
def toldOf : Option LoginRecord → HttpResponse
  | none => unauthorized
  | some record =>
    jsonResponse 200 (.ofMembers
      [("user_id", .string record.userId), ("logged_in_at", .string record.loggedInAt)])

/-- Whoever is not told of a login is told that something is wrong. -/
theorem status_unauthorized_ne : unauthorized.status ≠ 200 := by decide

/-- A call with a token is told of the login under the hash of it, if it still counts. -/
theorem answerDetail_of_bears {token : String} (h : call.Bears token) :
    g.answerDetail s clock call = toldOf ((g.logins.find? (LoginTable.hashOf s token)).filter
      (LoginTable.isLive g.loginLifetime clock.steady)) := by
  rw [answerDetail, loginOf?, HttpCall.bearerToken?_eq_some_iff.2 h, Option.bind_some]
  cases (g.logins.find? (LoginTable.hashOf s token)).filter _ <;> rfl

/-- A call without one is not told of any. -/
theorem answerDetail_of_not_bears (h : ∀ token, ¬ call.Bears token) :
    g.answerDetail s clock call = unauthorized := by
  rw [answerDetail, loginOf?, HttpCall.bearerToken?_eq_none_iff.2 h]
  rfl

/-- A logout that is done. -/
def loggedOut : HttpResponse := jsonResponse 200 (.object [("status", .string "logged_out")])

/-- A logout ends the login under the hash of its token, whether or not it still counts, and is
told whether there was one. -/
theorem answerLogout_of_bears {token : String} (h : call.Bears token) :
    g.answerLogout s call
      = (if (g.logins.find? (LoginTable.hashOf s token)).isSome then loggedOut else unauthorized,
        { g with logins := g.logins.remove (LoginTable.hashOf s token) }) := by
  rw [answerLogout, HttpCall.bearerToken?_eq_some_iff.2 h]
  dsimp only
  cases hfind : g.logins.find? (LoginTable.hashOf s token) with
  | none =>
    rw [LoginTable.remove_of_find?_eq_none hfind]
    rfl
  | some record => rfl

/-- A logout without a token ends none. -/
theorem answerLogout_of_not_bears (h : ∀ token, ¬ call.Bears token) :
    g.answerLogout s call = (unauthorized, g) := by
  rw [answerLogout, HttpCall.bearerToken?_eq_none_iff.2 h]

/-! ## What a call does to the logins -/

end Gateway

/-- What a call can do to the logins. -/
inductive LoginEffect where
  /-- It may not look at them. -/
  | keeps (response : HttpResponse)
  /-- A login that is granted adds one. -/
  | grants (key : String) (response : HttpResponse)
  /-- It may ask for one. -/
  | tells (token : String)
  /-- It may end one. -/
  | ends (token : String)

namespace LoginEffect

/-- The response, and what becomes of a table. -/
def on (s : Suite) (lifetime : Milliseconds) (clock : Clock) (logins : LoginTable) :
    LoginEffect → HttpResponse × LoginTable
  | keeps response => (response, logins)
  | grants key response =>
    (response, logins.insert (LoginTable.hashOf s key) (Gateway.loginRecord clock))
  | tells token =>
    (Gateway.toldOf ((logins.find? (LoginTable.hashOf s token)).filter
      (LoginTable.isLive lifetime clock.steady)), logins)
  | ends token =>
    (if (logins.find? (LoginTable.hashOf s token)).isSome then Gateway.loggedOut
      else Gateway.unauthorized, logins.remove (LoginTable.hashOf s token))

/-- Which calls have which effect. A login or a logout that leaves the logins alone is not told that
all is well. -/
def Of (s : Suite) (world : World) (call : HttpCall) : LoginEffect → Prop
  | keeps response => call.IsTo .login ∨ call.IsTo .logout → response.status ≠ 200
  | grants key response => Served.Grants s ⟨world, call, response⟩ key
  | tells token => call.IsTo .detail ∧ call.Bears token
  | ends token => call.IsTo .logout ∧ call.Bears token

end LoginEffect

namespace Gateway

variable {s : Suite} {world : World} {g : Gateway} {call : HttpCall}

/-- Whether a call has an effect at a gateway, whatever logins there are. -/
def Effects (s : Suite) (world : World) (g : Gateway) (call : HttpCall) (effect : LoginEffect) :
    Prop :=
  effect.Of s world call ∧ ∃ prekeys : PrekeyStore, ∀ logins : LoginTable,
    ({ g with logins := logins }.answer s world.clock call world.entropy).1
      = ((effect.on s g.loginLifetime world.clock logins).1,
        { g with prekeys := prekeys
                 logins := (effect.on s g.loginLifetime world.clock logins).2 })

/-- What a gateway answers to a call with an effect, with the logins that it has. -/
theorem Effects.answer_eq {effect : LoginEffect} (h : Effects s world g call effect) :
    ∃ prekeys : PrekeyStore, (g.answer s world.clock call world.entropy).1
      = ((effect.on s g.loginLifetime world.clock g.logins).1,
        { g with prekeys := prekeys
                 logins := (effect.on s g.loginLifetime world.clock g.logins).2 }) := by
  obtain ⟨-, prekeys, hanswer⟩ := h
  exact ⟨prekeys, hanswer g.logins⟩

/-- A call to another route than the three that have to do with logins keeps them. -/
theorem effects_of_other {route : Route} (hroute : call.IsTo route)
    (hlogin : route ≠ .login) (hlogout : route ≠ .logout)
    (h : ∃ (response : HttpResponse) (prekeys : PrekeyStore), ∀ logins : LoginTable,
      ({ g with logins := logins }.answerRoute s world.clock call route world.entropy).1
        = (response, { g with prekeys := prekeys, logins := logins })) :
    ∃ effect, Effects s world g call effect := by
  obtain ⟨response, prekeys, houtcome⟩ := h
  refine ⟨.keeps response, ?_, prekeys, fun logins => ?_⟩
  · rintro (h | h)
    · exact absurd (hroute.unique h) hlogin
    · exact absurd (hroute.unique h) hlogout
  · rw [answer_of_route hroute.1 hroute.2, houtcome]
    rfl

/-- A login is granted, or it keeps the logins and is told that something is wrong. -/
theorem effects_of_login (s : Suite) (world : World) (g : Gateway) (hroute : call.IsTo .login) :
    ∃ effect, Effects s world g call effect := by
  have hanswer : ∀ logins : LoginTable, { g with logins := logins }.answer s world.clock call
      = { g with logins := logins }.answerRoute s world.clock call .login :=
    fun _ => answer_of_route hroute.1 hroute.2
  cases hbody : readBody SealedRequest.reading call with
  | error response =>
    have hstatus := status_of_readBody_eq_error hbody
    refine ⟨.keeps response, fun _ => hstatus, g.prekeys, fun logins => ?_⟩
    rw [hanswer, answerRoute, hbody]
    rfl
  | ok request =>
    let prekeys := (g.prekeys.take world.clock.steady request.index).2
    rcases answerLogin_cases s world g request with
      ⟨response, hstatus, houtcome⟩ | ⟨session, key, envelope, hkey, hpack, houtcome⟩
    · refine ⟨.keeps response, fun _ => hstatus, prekeys, fun logins => ?_⟩
      rw [hanswer, answerRoute, hbody]
      exact houtcome logins
    · have hgrants : Served.Grants s
          ⟨world, call, sealedResponse (.ok { envelope := envelope })⟩ key :=
        ⟨hroute, hkey, session, envelope, hpack, rfl⟩
      refine ⟨.grants key _, hgrants, prekeys, fun logins => ?_⟩
      rw [hanswer, answerRoute, hbody]
      exact houtcome logins

/-- Whoever asks is told of the login under the hash of the token. -/
theorem effects_of_detail (s : Suite) (world : World) (g : Gateway) (hroute : call.IsTo .detail) :
    ∃ effect, Effects s world g call effect := by
  have hanswer : ∀ logins : LoginTable,
      ({ g with logins := logins }.answer s world.clock call world.entropy).1
        = ({ g with logins := logins }.answerDetail s world.clock call,
          { g with logins := logins }) := by
    intro logins
    rw [answer_of_route hroute.1 hroute.2]
    rfl
  by_cases htoken : ∃ token, call.Bears token
  · obtain ⟨token, htoken⟩ := htoken
    refine ⟨.tells token, ⟨hroute, htoken⟩, g.prekeys, fun logins => ?_⟩
    rw [hanswer, answerDetail_of_bears htoken]
    rfl
  · refine ⟨.keeps unauthorized, fun _ => status_unauthorized_ne, g.prekeys, fun logins => ?_⟩
    rw [hanswer, answerDetail_of_not_bears (not_exists.1 htoken)]
    rfl

/-- Whoever logs out ends it. -/
theorem effects_of_logout (s : Suite) (world : World) (g : Gateway) (hroute : call.IsTo .logout) :
    ∃ effect, Effects s world g call effect := by
  have hanswer : ∀ logins : LoginTable,
      ({ g with logins := logins }.answer s world.clock call world.entropy).1
        = { g with logins := logins }.answerLogout s call := by
    intro logins
    rw [answer_of_route hroute.1 hroute.2]
    rfl
  by_cases htoken : ∃ token, call.Bears token
  · obtain ⟨token, htoken⟩ := htoken
    refine ⟨.ends token, ⟨hroute, htoken⟩, g.prekeys, fun logins => ?_⟩
    rw [hanswer, answerLogout_of_bears htoken]
    rfl
  · refine ⟨.keeps unauthorized, fun _ => status_unauthorized_ne, g.prekeys, fun logins => ?_⟩
    rw [hanswer, answerLogout_of_not_bears (not_exists.1 htoken)]
    rfl

/-- Every call has one of these effects. -/
theorem exists_effects (s : Suite) (world : World) (g : Gateway) (call : HttpCall) :
    ∃ effect, Effects s world g call effect := by
  by_cases hisTo : ∃ route, call.IsTo route
  · obtain ⟨route, hroute⟩ := hisTo
    cases route with
    | health => exact effects_of_other hroute (by decide) (by decide) ⟨_, _, fun _ => rfl⟩
    | prekey =>
      refine effects_of_other hroute (by decide) (by decide) ?_
      simp only [answerRoute]
      cases readBody Offer.reading call with
      | error response => exact ⟨_, _, fun _ => rfl⟩
      | ok offer => exact answerOffer_logins s world g offer
    | login => exact effects_of_login s world g hroute
    | detail => exact effects_of_detail s world g hroute
    | logout => exact effects_of_logout s world g hroute
    | echo =>
      refine effects_of_other hroute (by decide) (by decide) ?_
      simp only [answerRoute]
      cases readBody SealedRequest.reading call with
      | error response => exact ⟨_, _, fun _ => rfl⟩
      | ok request => exact answerEcho_logins s world g request
  · -- Where there is no such route, the call is told so, or which methods there are.
    have hnone : ¬ (call.IsTo .login ∨ call.IsTo .logout) := by
      rintro (h | h)
      · exact hisTo ⟨_, h⟩
      · exact hisTo ⟨_, h⟩
    refine ⟨.keeps (g.answer s world.clock call world.entropy).1.1, fun h => absurd h hnone,
      g.prekeys, fun logins => ?_⟩
    unfold answer
    by_cases hoptions : call.method = "OPTIONS"
    · simp only [if_pos hoptions]
      rfl
    · simp only [if_neg hoptions]
      cases hroute : Route.ofPath? call.target.path with
      | none => rfl
      | some route =>
        have hmethod : call.method ∉ route.methods := fun h => hisTo ⟨route, hroute, h⟩
        simp only [if_neg hmethod]
        rfl

/-- A login that is told that all is well is one that is granted. -/
theorem exists_grants_iff (hroute : call.IsTo .login) :
    (∃ key, Served.Grants s ⟨world, call, (g.answer s world.clock call world.entropy).1.1⟩ key)
      ↔ (g.answer s world.clock call world.entropy).1.1.status = 200 := by
  refine ⟨fun ⟨key, hgrants⟩ => hgrants.status_eq, fun hstatus => ?_⟩
  obtain ⟨effect, heffects⟩ := exists_effects s world g call
  obtain ⟨prekeys, hanswer⟩ := heffects.answer_eq
  have hof := heffects.1
  rw [hanswer] at hstatus ⊢
  cases effect with
  | keeps response => exact absurd hstatus (hof (.inl hroute))
  | grants key response => exact ⟨key, hof⟩
  | tells token => exact nomatch hroute.unique hof.1
  | ends token => exact nomatch hroute.unique hof.1

end Gateway

end SealedEnvelope
