import SealedEnvelope.Proofs.Gateway.EchoCall

/-!
# `SealedEnvelope.Proofs.Gateway.Interleaving`: many secured calls at one gateway

Any number of clients call the echo of one gateway at the same time. Their requests come in in
any order, and the prekeys may be tidied up at any time: a `schedule` is a list of such turns,
and `Traffic` is the gateway with the responses that each client has had from it. The requests
themselves are those that the clients wait with, and depend on these responses.

The clients share the store of prekeys and nothing else. A call whose offer has been answered is
`Pending`: the entry of its index is still in the store. Turns of others keep it so, since they
insert and take entries of other indexes, as long as there is room and the entry lives.

Main statements:

* `Traffic.effect_step`: all that a turn can do;
* `Traffic.Pending.step`: the turns of others leave a pending call pending;
* `Traffic.calls_are_echoed`: in every schedule each call whose two requests come in succeeds.
-/

set_option autoImplicit false

namespace SealedEnvelope

/-- Something that happens at a gateway with several callers: a request of one of them comes in,
or the prekeys are tidied up. -/
inductive Turn (κ : Type) where
  | offer (caller : κ)
  | echo (caller : κ)
  | purge (clock : Clock)

/-- When a turn comes, by the steady clock of the gateway. -/
def Turn.time {κ : Type} (calls : κ → EchoCall) : Turn κ → Milliseconds
  | offer caller => (calls caller).issuing.clock.steady
  | echo caller => (calls caller).echoing.clock.steady
  | purge clock => clock.steady

/-- A gateway, and the responses that each caller has had from it, with the world that the
caller found around it then. -/
structure Traffic (κ : Type) where
  gateway : Gateway
  replies : κ → List (HttpResponse × World)

namespace Traffic

variable {κ : Type} {s : Suite} {lifetime : Milliseconds} {limits : PrekeyLimits}
  {calls : κ → EchoCall}

/-- The traffic before the first turn. -/
def start (g : Gateway) : Traffic κ := { gateway := g, replies := fun _ => [] }

/-- How far a call has come: what its client has had from the gateway. -/
inductive Progress (s : Suite) (call : EchoCall) : List (HttpResponse × World) → Prop
  | nothing : Progress s call []
  | answered : Progress s call [(call.answer s, call.sealing)]
  | replied (reply : HttpResponse) :
    Progress s call [(call.answer s, call.sealing), (reply, call.opening)]

/-- What holds of the traffic at any time: every call has come somewhere, and the gateway keeps
prekeys for as long and as many as it did. -/
structure Sound (s : Suite) (calls : κ → EchoCall) (limits : PrekeyLimits) (t : Traffic κ) :
    Prop where
  progress : ∀ caller, Progress s (calls caller) (t.replies caller)
  limits_eq : t.gateway.prekeys.limits = limits

theorem sound_start (g : Gateway) : Sound s calls g.prekeys.limits (start g) where
  progress := fun _ => .nothing
  limits_eq := rfl

/-! ## Turns -/

variable [DecidableEq κ]

/-- The traffic after one more response to a caller. -/
def respond (t : Traffic κ) (caller : κ) (g : Gateway) (reply : HttpResponse × World) :
    Traffic κ where
  gateway := g
  replies := fun other => if other = caller then t.replies caller ++ [reply] else t.replies other

/-- The traffic after the request that a caller waits with has come in. Nothing happens if there
is no such request. -/
def deliver (s : Suite) (calls : κ → EchoCall) (t : Traffic κ) (caller : κ) (there back : World) :
    Traffic κ :=
  match ((calls caller).waiting? s (t.replies caller)).bind HttpRequest.arrival? with
  | none => t
  | some arrived =>
    let outcome := (t.gateway.answer s there.clock arrived there.entropy).1
    t.respond caller outcome.2 (outcome.1, back)

/-- The traffic after a turn. A turn of a caller that is not waiting with such a request is
passed over. -/
def step (s : Suite) (calls : κ → EchoCall) (t : Traffic κ) : Turn κ → Traffic κ
  | .offer caller =>
    if (t.replies caller).length = 0 then
      t.deliver s calls caller (calls caller).issuing (calls caller).sealing
    else t
  | .echo caller =>
    if (t.replies caller).length = 1 then
      t.deliver s calls caller (calls caller).echoing (calls caller).opening
    else t
  | .purge clock => { t with gateway := t.gateway.purgePrekeys clock }

/-- The traffic after a whole schedule. -/
def run (s : Suite) (calls : κ → EchoCall) (t : Traffic κ) (schedule : List (Turn κ)) : Traffic κ :=
  schedule.foldl (step s calls) t

theorem run_cons (t : Traffic κ) (turn : Turn κ) (rest : List (Turn κ)) :
    t.run s calls (turn :: rest) = (t.step s calls turn).run s calls rest :=
  rfl

theorem replies_respond_self (t : Traffic κ) (caller : κ) (g : Gateway)
    (reply : HttpResponse × World) :
    (t.respond caller g reply).replies caller = t.replies caller ++ [reply] :=
  if_pos rfl

theorem replies_respond_of_ne (t : Traffic κ) {caller other : κ} (h : other ≠ caller) (g : Gateway)
    (reply : HttpResponse × World) :
    (t.respond caller g reply).replies other = t.replies other :=
  if_neg h

/-! ## What a turn can do -/

variable {t t' : Traffic κ} {turn : Turn κ} {caller : κ}

/-- All that a turn can do. -/
inductive Effect (s : Suite) (calls : κ → EchoCall) (t : Traffic κ) : Turn κ → Traffic κ → Prop
  /-- An offer is answered and leaves an entry behind. -/
  | offers (caller : κ) : t.replies caller = [] →
    Effect s calls t (.offer caller) (t.respond caller
      { t.gateway with prekeys := t.gateway.prekeys.insert ((calls caller).entry s) }
      ((calls caller).answer s, (calls caller).sealing))
  /-- A sealed request takes the entry of its index, and succeeds if that is its own. -/
  | echoes (caller : κ) (g : Gateway) (reply : HttpResponse) :
    t.replies caller = [((calls caller).answer s, (calls caller).sealing)] →
    g.prekeys = (t.gateway.prekeys.take (calls caller).echoing.clock.steady (calls caller).index).2 →
    (t.gateway.prekeys.find? (calls caller).index = some ((calls caller).entry s) →
      (calls caller).outcome s (t.replies caller ++ [(reply, (calls caller).opening)])
        = .ok (Gateway.echoResponse ((calls caller).opened s))) →
    Effect s calls t (.echo caller) (t.respond caller g (reply, (calls caller).opening))
  /-- A turn of a caller that is not waiting with such a request is passed over. -/
  | passes (turn : Turn κ) : (∀ caller, turn = .offer caller → t.replies caller ≠ []) →
    (∀ caller, turn = .echo caller →
      t.replies caller ≠ [((calls caller).answer s, (calls caller).sealing)]) →
    Effect s calls t turn t
  | purges (clock : Clock) :
    Effect s calls t (.purge clock) { t with gateway := t.gateway.purgePrekeys clock }

/-- A turn does one of these. -/
theorem effect_step (hdeciphers : s.Deciphers)
    (hready : ∀ caller, (calls caller).Ready s limits.lifetime) (hsound : Sound s calls limits t)
    (turn : Turn κ) : Effect s calls t turn (t.step s calls turn) := by
  cases turn with
  | offer caller =>
    rw [step]
    by_cases hlength : (t.replies caller).length = 0
    · have hnil := List.eq_nil_of_length_eq_zero hlength
      obtain ⟨arrived, harrival, hanswer⟩ := (hready caller).exists_offer
      rw [if_pos hlength, deliver, hnil, harrival]
      simp only [hanswer]
      exact .offers caller hnil
    · rw [if_neg hlength]
      refine .passes _ ?_ nofun
      rintro _ ⟨⟩ hnil
      exact hlength (congrArg List.length hnil)
  | echo caller =>
    rw [step]
    by_cases hlength : (t.replies caller).length = 1
    · -- The only response so far is the answer to the offer.
      have hanswered : t.replies caller = [((calls caller).answer s, (calls caller).sealing)] := by
        have hprogress := hsound.progress caller
        generalize t.replies caller = replies at hlength hprogress
        cases hprogress with
        | nothing => cases hlength
        | answered => rfl
        | replied reply => cases hlength
      obtain ⟨arrived, harrival, hecho⟩ := (hready caller).exists_echo hdeciphers
      obtain ⟨hprekeys, houtcome⟩ := hecho t.gateway
      rw [if_pos hlength, deliver, hanswered, harrival]
      refine .echoes caller _ _ hanswered hprekeys fun hfind => ?_
      rw [hanswered]
      exact houtcome (hsound.limits_eq ▸ rfl) hfind
    · rw [if_neg hlength]
      refine .passes _ nofun ?_
      rintro _ ⟨⟩ hanswered
      exact hlength (congrArg List.length hanswered)
  | purge clock => exact .purges clock

/-! ## What holds at any time -/

theorem Effect.limits_eq (heffect : Effect s calls t turn t') :
    t'.gateway.prekeys.limits = t.gateway.prekeys.limits := by
  cases heffect with
  | offers caller hnil => rfl
  | echoes caller g reply hanswered hprekeys houtcome =>
    show g.prekeys.limits = _
    rw [hprekeys]
    exact PrekeyStore.limits_take ..
  | passes _ hoffer hecho => rfl
  | purges clock => rfl

/-- A turn adds at most one entry. -/
theorem Effect.size_le (heffect : Effect s calls t turn t') :
    t'.gateway.prekeys.size ≤ t.gateway.prekeys.size + 1 := by
  cases heffect with
  | offers caller hnil => exact PrekeyStore.size_insert_le ..
  | echoes caller g reply hanswered hprekeys houtcome =>
    show g.prekeys.size ≤ _
    rw [hprekeys]
    exact Nat.le_succ_of_le (PrekeyStore.size_take_le ..)
  | passes _ hoffer hecho => exact Nat.le_succ _
  | purges clock => exact Nat.le_succ_of_le (List.length_filter_le ..)

/-- The responses to a caller change in a turn of its own only. -/
theorem Effect.replies_of_ne (heffect : Effect s calls t turn t') {caller : κ}
    (hoffer : turn = .offer caller → t.replies caller ≠ [])
    (hecho : turn = .echo caller →
      t.replies caller ≠ [((calls caller).answer s, (calls caller).sealing)]) :
    t'.replies caller = t.replies caller := by
  cases heffect with
  | offers other hnil =>
    refine replies_respond_of_ne t (fun heq => ?_) _ _
    exact hoffer (heq ▸ rfl) (heq ▸ hnil)
  | echoes other g reply hanswered hprekeys houtcome =>
    refine replies_respond_of_ne t (fun heq => ?_) _ _
    exact hecho (heq ▸ rfl) (heq ▸ hanswered)
  | passes _ hoffer hecho => rfl
  | purges clock => rfl

/-- A turn brings calls further only. -/
theorem Sound.step (hsound : Sound s calls limits t) (heffect : Effect s calls t turn t') :
    Sound s calls limits t' where
  limits_eq := heffect.limits_eq.trans hsound.limits_eq
  progress := by
    intro caller
    cases heffect with
    | offers other hnil =>
      by_cases heq : caller = other
      · rw [heq, replies_respond_self, hnil]
        exact .answered
      · rw [replies_respond_of_ne t heq]
        exact hsound.progress caller
    | echoes other g reply hanswered hprekeys houtcome =>
      by_cases heq : caller = other
      · rw [heq, replies_respond_self, hanswered]
        exact .replied reply
      · rw [replies_respond_of_ne t heq]
        exact hsound.progress caller
    | passes _ hoffer hecho => exact hsound.progress caller
    | purges clock => exact hsound.progress caller

/-! ## One call among others -/

/-- Whether a call has been answered and waits with its sealed request, while the entry that it
needs is in the store. -/
structure Pending (s : Suite) (calls : κ → EchoCall) (caller : κ) (t : Traffic κ) : Prop where
  replies_eq : t.replies caller = [((calls caller).answer s, (calls caller).sealing)]
  find?_eq : t.gateway.prekeys.find? (calls caller).index = some ((calls caller).entry s)

/-- Whether a call has come to its end and has succeeded. -/
structure Echoed (s : Suite) (calls : κ → EchoCall) (caller : κ) (t : Traffic κ) : Prop where
  length_eq : (t.replies caller).length = 2
  outcome_eq : (calls caller).outcome s (t.replies caller)
    = .ok (Gateway.echoResponse ((calls caller).opened s))

/-- The offer of a call makes it pending. -/
theorem Effect.pending (heffect : Effect s calls t (.offer caller) t')
    (hnil : t.replies caller = []) : Pending s calls caller t' := by
  cases heffect with
  | offers _ _ =>
    exact { replies_eq := by rw [replies_respond_self, hnil]; rfl
            find?_eq := PrekeyStore.find?_insert_self _ ((calls caller).entry s) }
  | passes _ hoffer hecho => exact absurd hnil (hoffer caller rfl)

/-- The sealed request of a pending call makes it succeed. -/
theorem Effect.echoed (heffect : Effect s calls t (.echo caller) t')
    (hpending : Pending s calls caller t) : Echoed s calls caller t' := by
  cases heffect with
  | echoes _ g reply hanswered hprekeys houtcome =>
    exact { length_eq := by rw [replies_respond_self, hanswered]; rfl
            outcome_eq := by
              rw [replies_respond_self]
              exact houtcome hpending.find?_eq }
  | passes _ hoffer hecho => exact absurd hpending.replies_eq (hecho caller rfl)

/-- The turns of others leave a pending call pending: their entries have other indexes, and the
entry of the call is neither too old nor has to make room. -/
theorem Pending.step (hpending : Pending s calls caller t) (heffect : Effect s calls t turn t')
    (hindexes : ∀ other, other ≠ caller → (calls other).index ≠ (calls caller).index)
    (hturn : turn ≠ .echo caller)
    (hlive : PrekeyStore.isLive t.gateway.prekeys.limits (turn.time calls)
      ((calls caller).entry s) = true)
    (hroom : ∀ other, turn = .offer other →
      t.gateway.prekeys.size < t.gateway.prekeys.limits.capacity) :
    Pending s calls caller t' where
  replies_eq := by
    rw [heffect.replies_of_ne ?_ fun heq => absurd heq hturn]
    · exact hpending.replies_eq
    · intro _ hnil
      rw [hpending.replies_eq] at hnil
      cases hnil
  find?_eq := by
    have hfind := hpending.find?_eq
    cases heffect with
    | offers other hnil =>
      -- The caller has had its answer already.
      have hne : other ≠ caller := by
        rintro rfl
        rw [hpending.replies_eq] at hnil
        cases hnil
      exact PrekeyStore.find?_insert_of_ne hfind (hindexes other hne) hlive (hroom other rfl)
    | echoes other g reply hanswered hprekeys houtcome =>
      have hne : other ≠ caller := fun heq => hturn (heq ▸ rfl)
      show g.prekeys.find? _ = _
      rw [hprekeys]
      exact PrekeyStore.find?_take_of_ne hfind (hindexes other hne) _
    | passes _ hoffer hecho => exact hfind
    | purges clock => exact PrekeyStore.find?_purge hfind hlive

/-- No turn changes what has come of a call. -/
theorem Echoed.step (hechoed : Echoed s calls caller t) (heffect : Effect s calls t turn t') :
    Echoed s calls caller t' := by
  have hreplies : t'.replies caller = t.replies caller := by
    refine heffect.replies_of_ne (fun _ hnil => ?_) fun _ hanswered => ?_
    · have hlength := hechoed.length_eq
      rw [hnil] at hlength
      cases hlength
    · have hlength := hechoed.length_eq
      rw [hanswered] at hlength
      cases hlength
  exact { length_eq := hreplies ▸ hechoed.length_eq, outcome_eq := hreplies ▸ hechoed.outcome_eq }

/-! ## Schedules -/

/-- Whether there is room for one more prekey whenever an offer comes in. -/
def HasRoom (s : Suite) (calls : κ → EchoCall) (t : Traffic κ) (schedule : List (Turn κ)) : Prop :=
  ∀ (before after : List (Turn κ)) (caller : κ), schedule = before ++ .offer caller :: after →
    (t.run s calls before).gateway.prekeys.size
      < (t.run s calls before).gateway.prekeys.limits.capacity

theorem HasRoom.head {rest : List (Turn κ)} (hroom : HasRoom s calls t (turn :: rest)) :
    ∀ other, turn = .offer other → t.gateway.prekeys.size < t.gateway.prekeys.limits.capacity :=
  fun other hturn => hroom [] rest other (hturn ▸ rfl)

theorem HasRoom.tail {rest : List (Turn κ)} (hroom : HasRoom s calls t (turn :: rest)) :
    HasRoom s calls (t.step s calls turn) rest :=
  fun before after other hrest => hroom (turn :: before) after other (hrest ▸ rfl)

variable {schedule : List (Turn κ)}

/-- What a turn preserves is preserved by a schedule. -/
theorem run_induction (hdeciphers : s.Deciphers)
    (hready : ∀ caller, (calls caller).Ready s limits.lifetime) {P : Traffic κ → Prop}
    (hstep : ∀ {t t' : Traffic κ} {turn : Turn κ}, Effect s calls t turn t' → P t → P t')
    (hsound : Sound s calls limits t) (h : P t) : P (t.run s calls schedule) := by
  induction schedule generalizing t with
  | nil => exact h
  | cons turn rest ih =>
    have heffect := effect_step hdeciphers hready hsound turn
    exact ih (hsound.step heffect) (hstep heffect h)

/-- There is room for all prekeys of a schedule if there is room for one with each turn. -/
theorem hasRoom_of_le (hdeciphers : s.Deciphers)
    (hready : ∀ caller, (calls caller).Ready s limits.lifetime) (hsound : Sound s calls limits t)
    (h : t.gateway.prekeys.size + schedule.length ≤ limits.capacity) :
    HasRoom s calls t schedule := by
  induction schedule generalizing t with
  | nil =>
    intro before after other hschedule
    cases before <;> cases hschedule
  | cons turn rest ih =>
    have heffect := effect_step hdeciphers hready hsound turn
    have hsize := heffect.size_le
    have hsound' := hsound.step heffect
    rw [List.length_cons] at h
    have hrest := ih hsound' (by omega)
    intro before after other hschedule
    cases before with
    | nil =>
      show t.gateway.prekeys.size < t.gateway.prekeys.limits.capacity
      rw [hsound.limits_eq]
      omega
    | cons _ before =>
      obtain ⟨hturn, htail⟩ := List.cons.inj hschedule
      subst hturn
      exact hrest before after other htail

/-- A pending call succeeds in its turn. -/
theorem Pending.run (hdeciphers : s.Deciphers)
    (hready : ∀ caller, (calls caller).Ready s limits.lifetime)
    (hindexes : ∀ other, other ≠ caller → (calls other).index ≠ (calls caller).index)
    (htimes : schedule.Pairwise fun a b => a.time calls ≤ b.time calls)
    (hroom : HasRoom s calls t schedule) (hsound : Sound s calls limits t)
    (hpending : Pending s calls caller t) (hecho : .echo caller ∈ schedule) :
    Echoed s calls caller (t.run s calls schedule) := by
  induction schedule generalizing t with
  | nil => cases hecho
  | cons turn rest ih =>
    obtain ⟨hbefore, hrest⟩ := List.pairwise_cons.1 htimes
    have heffect := effect_step hdeciphers hready hsound turn
    have hsound' := hsound.step heffect
    rw [run_cons]
    by_cases hturn : turn = .echo caller
    · subst hturn
      exact run_induction hdeciphers hready (fun heffect hechoed => hechoed.step heffect) hsound'
        (heffect.echoed hpending)
    · have hecho' := (List.mem_cons.1 hecho).resolve_left (Ne.symm hturn)
      -- The sealed request is still to come, and when it comes the entry is not too old.
      have hlive : PrekeyStore.isLive t.gateway.prekeys.limits (turn.time calls)
          ((calls caller).entry s) = true := by
        have hle : turn.time calls ≤ (calls caller).echoing.clock.steady := hbefore _ hecho'
        rw [PrekeyStore.isLive, hsound.limits_eq, decide_eq_true_eq]
        exact Nat.le_trans (Nat.sub_le_sub_right hle _) (hready caller).waits
      exact ih hrest hroom.tail hsound' (hpending.step heffect hindexes hturn hlive hroom.head) hecho'

/-- A call of which neither request has come in succeeds if both come in. -/
theorem echoed_of_sublist (hdeciphers : s.Deciphers)
    (hready : ∀ caller, (calls caller).Ready s limits.lifetime)
    (hindexes : ∀ other, other ≠ caller → (calls other).index ≠ (calls caller).index)
    (htimes : schedule.Pairwise fun a b => a.time calls ≤ b.time calls)
    (hroom : HasRoom s calls t schedule) (hsound : Sound s calls limits t)
    (hnil : t.replies caller = []) (hturns : [.offer caller, .echo caller].Sublist schedule) :
    Echoed s calls caller (t.run s calls schedule) := by
  induction schedule generalizing t with
  | nil => cases hturns
  | cons turn rest ih =>
    have hrest := (List.pairwise_cons.1 htimes).2
    have heffect := effect_step hdeciphers hready hsound turn
    have hsound' := hsound.step heffect
    rw [run_cons]
    by_cases hturn : turn = .offer caller
    · subst hturn
      have hecho : Turn.echo caller ∈ rest := by
        cases hturns with
        | cons _ hturns => exact hturns.subset (List.mem_cons_of_mem _ List.mem_cons_self)
        | cons_cons _ hturns => exact hturns.subset List.mem_cons_self
      exact Pending.run hdeciphers hready hindexes hrest hroom.tail hsound' (heffect.pending hnil) hecho
    · -- The turn is not its offer, so that both of its turns are still to come.
      have hturns' : [.offer caller, .echo caller].Sublist rest := by
        cases hturns with
        | cons _ hturns => exact hturns
        | cons_cons _ hturns => exact absurd rfl hturn
      have hnil' : (t.step s calls turn).replies caller = [] := by
        rw [heffect.replies_of_ne (fun heq => absurd heq hturn) fun _ hanswered => ?_]
        · exact hnil
        · rw [hnil] at hanswered
          cases hanswered
      exact ih hrest hroom.tail hsound' hnil' hturns'

/-- Every call whose two requests come in ends with the status 200, with one header, and with a
body that reads as the headers and the body which that client has sent, whatever else comes in
at the gateway in between. No two calls draw the same index, and the gateway has a steady clock
and room for every prekey that it issues. -/
theorem calls_are_echoed (hdeciphers : s.Deciphers) {g : Gateway}
    (hready : ∀ caller, (calls caller).Ready s g.prekeys.limits.lifetime)
    (hindexes : ∀ caller other, (calls caller).index = (calls other).index → caller = other)
    (htimes : schedule.Pairwise fun a b => a.time calls ≤ b.time calls)
    (hroom : HasRoom s calls (start g) schedule)
    (hturns : [.offer caller, .echo caller].Sublist schedule) :
    ∃ response, (calls caller).outcome s (((start g).run s calls schedule).replies caller)
        = .ok response
      ∧ response.status = 200
      ∧ response.headers = Headers.empty.insert "Content-Type" "application/json"
      ∧ response.json = .ok (.ofMembers
          [("header", (calls caller).headers.toJson), ("body", (calls caller).body)]) := by
  have hindexes' : ∀ other, other ≠ caller → (calls other).index ≠ (calls caller).index :=
    fun other hne heq => hne (hindexes other caller heq)
  have hechoed := echoed_of_sublist hdeciphers hready hindexes' htimes hroom (sound_start g) rfl
    hturns
  exact ⟨_, hechoed.outcome_eq, rfl, rfl, (hready caller).json_echoResponse⟩

/-- A call with the keys of seeds zero and one, which is answered at one time and echoed at
another. -/
def callOf (index : UInt8) (issued echoed : Milliseconds) (headers : Headers) (body : JsonValue) :
    EchoCall where
  client := { config := { baseUrl := "http://gw.test" } }
  headers := headers
  body := body
  offering :=
    { clock := { wall := .ofUnixNanos 1700000000000000000, steady := 0 }
      entropy := .ofBytes (List.replicate 32 0 ++ 2 :: List.replicate 31 0
        ++ 3 :: List.replicate 31 0) }
  issuing :=
    { clock := { wall := .ofUnixNanos 1700000000000000000, steady := issued }
      entropy := .ofBytes (List.replicate 16 index ++ 1 :: List.replicate 31 0
        ++ 4 :: List.replicate 31 0 ++ 5 :: List.replicate 31 0) }
  sealing :=
    { clock := { wall := .ofUnixNanos 1700000000123456789, steady := 0 }
      entropy := .ofBytes (List.replicate 48 6) }
  echoing :=
    { clock := { wall := .ofUnixNanos 1700000299000000000, steady := echoed }
      entropy := .ofBytes (List.replicate 48 7) }
  opening :=
    { clock := { wall := .ofUnixNanos 1700000598000000000, steady := 0 }
      entropy := .ofBytes [] }

/-- Two calls, the second of which begins later and ends earlier. -/
def twoCalls : Bool → EchoCall
  | false => callOf 8 0 299000 Headers.empty (.string "first")
  | true => callOf 9 1 2 (Headers.empty.insert "x" "y") (.array [.null])

theorem ready_twoCalls (caller : Bool) : (twoCalls caller).Ready .twoSigners 300000 := by
  have hkeys : ∀ caller, (twoCalls caller).initiator = .zeroKeys
      ∧ (twoCalls caller).responder = .oneKeys := by
    decide +kernel
  have hnull : ∀ v ∈ [JsonValue.null], v = .null := fun v hv => List.mem_singleton.1 hv
  exact
    { canonical := by
        cases caller with
        | false => exact .string "first"
        | true => exact .array _ fun v hv => hnull v hv ▸ .null
      integral := by
        cases caller with
        | false => exact .string "first"
        | true => exact .array _ fun v hv => hnull v hv ▸ .null
      depth_le := by revert caller; decide +kernel
      reaches_prekey := by revert caller; decide +kernel
      reaches_echo := by revert caller; decide +kernel
      fits := by revert caller; decide +kernel
      has_offering := by revert caller; decide +kernel
      has_issuing := by revert caller; decide +kernel
      has_sealing := by revert caller; decide +kernel
      has_echoing := by revert caller; decide +kernel
      compatible := (hkeys caller).1 ▸ (hkeys caller).2 ▸ .of_zeroKeys
      waits := by revert caller; decide +kernel
      sealing_stampable :=
        { isLeap := by revert caller; decide +kernel, year_nonneg := by revert caller; decide +kernel
          year_le := by revert caller; decide +kernel }
      echoing_stampable :=
        { isLeap := by revert caller; decide +kernel, year_nonneg := by revert caller; decide +kernel
          year_le := by revert caller; decide +kernel }
      opening_isLeap := by revert caller; decide +kernel
      request_age := by revert caller; decide +kernel
      reply_age := by revert caller; decide +kernel }

/-- The offer and the sealed request of the second call come in between those of the first. -/
def twoTurns : List (Turn Bool) :=
  [.offer false, .offer true, .purge { wall := .ofUnixNanos 0, steady := 2 }, .echo true, .echo false]

/-- The first call gets its own body back. -/
theorem calls_are_echoed_twoCalls :
    ∃ response, (twoCalls false).outcome .twoSigners
        (((start (.ofConfig {})).run .twoSigners twoCalls twoTurns).replies false) = .ok response
      ∧ response.status = 200
      ∧ response.headers = Headers.empty.insert "Content-Type" "application/json"
      ∧ response.json = .ok (.ofMembers [("header", Headers.empty.toJson), ("body", .string "first")]) := by
  refine calls_are_echoed Suite.twoSigners_deciphers ready_twoCalls ?_ ?_ ?_ ?_
  · decide +kernel
  · unfold twoTurns
    decide +kernel
  · exact hasRoom_of_le Suite.twoSigners_deciphers ready_twoCalls (sound_start _) (by decide)
  · exact .cons_cons _ (.cons _ (.cons _ (.cons _ (.cons_cons _ .slnil))))

end Traffic

end SealedEnvelope
