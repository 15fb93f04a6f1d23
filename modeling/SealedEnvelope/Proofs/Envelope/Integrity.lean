import SealedEnvelope.Proofs.Crypto.Standard
import SealedEnvelope.Proofs.Envelope.DataBlock

/-!
# `SealedEnvelope.Proofs.Envelope.Integrity`: a data block carries the hash of its data

The fields of a data block can be set one by one, and the hash is a field like the others. It
belongs to the data all the same, as long as both are set together: no other edit touches either of
them, and what is written and read again is the same block.

A history of a block is a list of turns. Each of them is an edit with the clock and the source of
random bytes that it finds, which may be any, so that a nonce can fail to be drawn at one turn and
be drawn at the next one.

Main statements:

* `Turn.makes_or_fails`: an edit makes what it is there to make, or it fails and changes nothing;
* `Turn.get_edited`: an edit leaves all fields alone but its own;
* `Intact.edited`: an edit keeps the hash with the data;
* `intact_after_turns`: what is so of every block that was created and then edited, and what comes
  of it if its data are exchanged without their hash.
-/

set_option autoImplicit false

namespace SealedEnvelope.DataBlock

/-! ## Edits -/

/-- A field of a block. -/
inductive Field where
  | time
  | nonce
  | prekey
  | data
  | dataHash
  deriving DecidableEq, Repr

/-- What stands in a field. -/
def get (block : DataBlock) : Field → Bytes
  | .time => block.time
  | .nonce => block.nonce
  | .prekey => block.prekey
  | .data => block.data
  | .dataHash => block.dataHash

/-- What can be done to a block once it is there. -/
inductive Edit where
  | setTime (at_ : Instant)
  /-- The time is set to that of the clock. -/
  | setTimeNow
  | drawNonce
  | setPrekey (index : String)
  | setData (data : Bytes)
  /-- The block is written, and what is read back takes its place. -/
  | rewrite
  deriving DecidableEq

namespace Edit

/-- The fields that an edit is there to set. -/
def own : Edit → List Field
  | setTime _ | setTimeNow => [.time]
  | drawNonce => [.nonce]
  | setPrekey _ => [.prekey]
  | setData _ => [.data, .dataHash]
  | rewrite => []

/-- Edits a block. -/
def perform (s : Suite) (now : Instant) : Edit → Updating DataBlock (StateM Entropy) EnvelopeError Unit
  | setTime at_ => modify fun block => block.setTime at_
  | setTimeNow => modify fun block => block.setTime now
  | drawNonce => DataBlock.drawNonce
  | setPrekey index => modify fun block => block.setPrekey index
  | setData data => modify fun block => block.setData s data
  | rewrite => do
    let block ← getThe DataBlock
    let message ← block.encode
    set (← decode message)

/-- What an edit that goes through makes of a block at a time. -/
inductive Makes (s : Suite) (now : Instant) (block : DataBlock) : Edit → DataBlock → Prop
  | setTime (at_ : Instant) :
      Makes s now block (.setTime at_) { block with time := Utf8.encode (Rfc3339.writeMillis at_) }
  | setTimeNow :
      Makes s now block .setTimeNow { block with time := Utf8.encode (Rfc3339.writeMillis now) }
  | drawNonce (nonce : FixedBytes 32) :
      Makes s now block .drawNonce { block with nonce := nonce.val }
  | setPrekey (index : String) :
      Makes s now block (.setPrekey index) { block with prekey := Utf8.encode index }
  | setData (data : Bytes) :
      Makes s now block (.setData data) { block with data := data, dataHash := (s.hash data).val }
  | rewrite : Makes s now block .rewrite block

end Edit

/-- An edit with what it finds. -/
structure Turn where
  now : Instant
  entropy : Entropy
  edit : Edit

/-- Whether the edit of a turn goes through, and why it does not. -/
def Turn.outcome (s : Suite) (block : DataBlock) (turn : Turn) : Except EnvelopeError Unit :=
  (turn.edit.perform s turn.now block turn.entropy).1.1

/-- The block after a turn, whether or not the edit has gone through. -/
def edited (s : Suite) (block : DataBlock) (turn : Turn) : DataBlock :=
  (turn.edit.perform s turn.now block turn.entropy).1.2

/-- The block after some turns. -/
def after (s : Suite) (block : DataBlock) (turns : List Turn) : DataBlock :=
  turns.foldl (edited s) block

/-- Why an edit can fail: there are no random bytes for a nonce, or the block is too large to be
written. -/
inductive Turn.Fails (block : DataBlock) (turn : Turn) : EnvelopeError → Prop
  | noNonce (hedit : turn.edit = .drawNonce) (hdry : turn.entropy.has 32 = false) :
      Fails block turn .random
  | notWritten (hedit : turn.edit = .rewrite) {fault : EnvelopeError}
      (hfault : block.encode = .error fault) : Fails block turn fault

/-! ## What an edit does -/

variable {s : Suite} {block : DataBlock}

/-- What is written is read as the block that it was. -/
theorem decode_of_encode {message : Bytes} (h : block.encode = .ok message) :
    decode message = .ok block := by
  have hread := decode_encode_append h []
  rwa [List.append_nil] at hread

/-- What is made by an edit differs from what it was made of in the own fields of the edit only. -/
theorem Edit.Makes.get_eq {now : Instant} {edit : Edit} {made : DataBlock}
    (h : edit.Makes s now block made) {field : Field} (hfield : field ∉ edit.own) :
    made.get field = block.get field := by
  cases h with
  | setTime | setTimeNow =>
    cases field with
    | time => exact absurd List.mem_cons_self hfield
    | nonce | prekey | data | dataHash => simp only [get]
  | drawNonce =>
    cases field with
    | nonce => exact absurd List.mem_cons_self hfield
    | time | prekey | data | dataHash => simp only [get]
  | setPrekey =>
    cases field with
    | prekey => exact absurd List.mem_cons_self hfield
    | time | nonce | data | dataHash => simp only [get]
  | setData =>
    cases field with
    | data => exact absurd List.mem_cons_self hfield
    | dataHash => exact absurd (List.mem_cons_of_mem _ List.mem_cons_self) hfield
    | time | nonce | prekey => simp only [get]
  | rewrite => rfl

/-- Nothing else sets the data or their hash. -/
theorem Edit.not_mem_own {edit : Edit} (h : ∀ data, edit ≠ .setData data) :
    .data ∉ edit.own ∧ .dataHash ∉ edit.own := by
  cases edit with
  | setData data => exact absurd rfl (h data)
  | setTime | setTimeNow | drawNonce | setPrekey | rewrite => simp [own]

namespace Turn

/-- A block that can be written is read again, and one that cannot stays what it was. -/
theorem perform_rewrite (s : Suite) (now : Instant) (block : DataBlock) (e : Entropy) :
    Edit.rewrite.perform s now block e = ((block.encode.map fun _ => (), block), e) := by
  show (liftM block.encode >>= fun message => liftM (decode message) >>= set :
    Updating DataBlock (StateM Entropy) EnvelopeError Unit) block e = _
  cases hencode : block.encode with
  | error fault => rfl
  | ok message =>
    -- What was written is never refused when it is read.
    show (liftM (decode message) >>= set :
      Updating DataBlock (StateM Entropy) EnvelopeError Unit) block e = _
    rw [decode_of_encode hencode]
    rfl

/-- The outcome of a turn and the block after it are those of the edit. -/
theorem of_perform (turn : Turn) {result : Except EnvelopeError Unit} {made : DataBlock}
    {rest : Entropy} (h : turn.edit.perform s turn.now block turn.entropy = ((result, made), rest)) :
    turn.outcome s block = result ∧ edited s block turn = made :=
  ⟨congrArg (fun run => run.1.1) h, congrArg (fun run => run.1.2) h⟩

/-- An edit that cannot fail has made another block of a block. -/
theorem made_of_modify {turn : Turn} {make : DataBlock → DataBlock}
    (h : turn.edit.perform s turn.now = modify make) (hmakes : turn.edit.Makes s turn.now block (make block)) :
    turn.outcome s block = .ok () ∧ turn.edit.Makes s turn.now block (edited s block turn) := by
  have hperform : turn.edit.perform s turn.now block turn.entropy
      = ((.ok (), make block), turn.entropy) := by
    rw [h, Updating.modify_apply]
  obtain ⟨houtcome, hmade⟩ := of_perform turn hperform
  exact ⟨houtcome, hmade ▸ hmakes⟩

/-- An edit goes through and makes what it is there to make, or it fails and changes nothing. Only
two edits can fail. -/
theorem makes_or_fails (s : Suite) (block : DataBlock) (turn : Turn) :
    turn.outcome s block = .ok () ∧ turn.edit.Makes s turn.now block (edited s block turn)
      ∨ ∃ fault, turn.outcome s block = .error fault ∧ turn.Fails block fault
          ∧ edited s block turn = block := by
  obtain ⟨now, e, edit⟩ := turn
  cases edit with
  | setTime at_ => exact .inl (made_of_modify rfl (.setTime at_))
  | setTimeNow => exact .inl (made_of_modify rfl .setTimeNow)
  | drawNonce =>
    have hdrawn := drawNonce_apply block e
    cases hhas : e.has 32 with
    | true =>
      rw [hhas, if_pos rfl] at hdrawn
      obtain ⟨houtcome, hmade⟩ := of_perform ⟨now, e, .drawNonce⟩ hdrawn
      exact .inl ⟨houtcome, hmade ▸ .drawNonce _⟩
    | false =>
      rw [hhas, if_neg Bool.false_ne_true] at hdrawn
      obtain ⟨houtcome, hsame⟩ := of_perform ⟨now, e, .drawNonce⟩ hdrawn
      exact .inr ⟨.random, houtcome, .noNonce rfl hhas, hsame⟩
  | setPrekey index => exact .inl (made_of_modify rfl (.setPrekey index))
  | setData data => exact .inl (made_of_modify rfl (.setData data))
  | rewrite =>
    obtain ⟨houtcome, hsame⟩ :=
      of_perform ⟨now, e, .rewrite⟩ (perform_rewrite s now block e)
    rw [houtcome, hsame]
    cases hencode : block.encode with
    | ok message => exact .inl ⟨rfl, .rewrite⟩
    | error fault => exact .inr ⟨fault, rfl, .notWritten rfl hencode, rfl⟩

/-- A block is what a turn has made of it, or the one that it was. -/
theorem makes_or_eq (s : Suite) (block : DataBlock) (turn : Turn) :
    turn.edit.Makes s turn.now block (edited s block turn) ∨ edited s block turn = block := by
  obtain ⟨-, hmakes⟩ | ⟨fault, -, -, hsame⟩ := makes_or_fails s block turn
  · exact .inl hmakes
  · exact .inr hsame

/-- An edit leaves all fields alone but its own. -/
theorem get_edited {turn : Turn} {field : Field} (h : field ∉ turn.edit.own) :
    (edited s block turn).get field = block.get field := by
  rcases makes_or_eq s block turn with hmakes | hsame
  · exact hmakes.get_eq h
  · rw [hsame]

end Turn

/-! ## What some edits do -/

theorem after_cons (block : DataBlock) (turn : Turn) (turns : List Turn) :
    after s block (turn :: turns) = after s (edited s block turn) turns := rfl

/-- A field that no edit is there to set is left alone by all of them. -/
theorem get_after (field : Field) {turns : List Turn} (h : ∀ turn ∈ turns, field ∉ turn.edit.own) :
    (after s block turns).get field = block.get field := by
  induction turns generalizing block with
  | nil => rfl
  | cons turn turns ih =>
    rw [after_cons, ih fun later hlater => h later (List.mem_cons_of_mem turn hlater)]
    exact Turn.get_edited (h turn List.mem_cons_self)

/-! ## The invariant -/

/-- A block carries the hash of its data if the two are the same. -/
theorem hashMatches_iff : block.hashMatches s = true ↔ (s.hash block.data).val = block.dataHash :=
  beq_iff_eq

/-- Whether the nonce and the hash of a block have their lengths. -/
structure Shaped (block : DataBlock) : Prop where
  nonce_length : block.nonce.length = 32
  hash_length : block.dataHash.length = 64

/-- Whether a block has its shape and carries the hash of its data. -/
structure Intact (s : Suite) (block : DataBlock) : Prop extends Shaped block where
  hashed : block.hashMatches s = true

/-- An edit keeps the shape of a block. -/
theorem Shaped.edited (h : Shaped block) (turn : Turn) : Shaped (edited s block turn) := by
  rcases turn.makes_or_eq s block with hmakes | hsame
  · generalize DataBlock.edited s block turn = made at hmakes
    generalize turn.edit = edit at hmakes
    cases hmakes with
    | drawNonce nonce => exact ⟨nonce.property, h.hash_length⟩
    | setData data => exact ⟨h.nonce_length, (s.hash data).property⟩
    | setTime | setTimeNow | setPrekey | rewrite => exact ⟨h.nonce_length, h.hash_length⟩
  · rwa [hsame]

theorem Shaped.after (h : Shaped block) (turns : List Turn) : Shaped (after s block turns) := by
  induction turns generalizing block with
  | nil => exact h
  | cons turn turns ih => exact ih (h.edited turn)

/-- Data that are set come with their hash. -/
theorem Shaped.intact_setData (h : Shaped block) (data : Bytes) : Intact s (block.setData s data) where
  nonce_length := h.nonce_length
  hash_length := (s.hash data).property
  hashed := hashMatches_iff.2 rfl

/-- The hash matches as it did while both it and the data are left alone. -/
theorem hashMatches_after {turns : List Turn}
    (h : ∀ turn ∈ turns, ∀ data, turn.edit ≠ .setData data) :
    (after s block turns).hashMatches s = block.hashMatches s := by
  have hdata : (after s block turns).data = block.data :=
    get_after .data fun turn hturn => (Edit.not_mem_own (h turn hturn)).1
  have hhash : (after s block turns).dataHash = block.dataHash :=
    get_after .dataHash fun turn hturn => (Edit.not_mem_own (h turn hturn)).2
  rw [hashMatches, hdata, hhash, hashMatches]

theorem edited_of_setData {turn : Turn} {data : Bytes} (h : turn.edit = .setData data) :
    edited s block turn = block.setData s data := by
  rw [DataBlock.edited, h]
  rfl

/-- An edit keeps the hash with the data: it sets both of them or neither. -/
theorem Intact.edited (h : Intact s block) (turn : Turn) : Intact s (edited s block turn) := by
  by_cases hset : ∃ data, turn.edit = .setData data
  · obtain ⟨data, hset⟩ := hset
    rw [edited_of_setData hset]
    exact h.toShaped.intact_setData data
  · have hmatches : (after s block [turn]).hashMatches s = block.hashMatches s := by
      refine hashMatches_after fun other hother data hdata => hset ⟨data, ?_⟩
      rwa [List.mem_singleton.1 hother] at hdata
    exact { toShaped := h.toShaped.edited turn, hashed := hmatches.trans h.hashed }

theorem Intact.after (h : Intact s block) (turns : List Turn) : Intact s (after s block turns) := by
  induction turns generalizing block with
  | nil => exact h
  | cons turn turns ih => exact ih (h.edited turn)

/-- A block that is created is intact. -/
theorem Intact.of_create {now : Instant} {data : Bytes} {e : Entropy}
    (h : (create s now data e).1 = .ok block) : Intact s block := by
  rw [create_eq] at h
  obtain ⟨nonce, e₁, -, hblock⟩ := Drawing.exists_of_bind_eq_ok h
  obtain rfl := Except.ok.inj hblock
  exact { nonce_length := nonce.property, hash_length := (s.hash data).property,
          hashed := hashMatches_iff.2 rfl }

/-- No other length is that of a hash. -/
theorem hashMatches_eq_false (h : block.dataHash.length ≠ 64) : block.hashMatches s = false := by
  refine Bool.eq_false_iff.2 fun hmatches => h ?_
  rw [← hashMatches_iff.1 hmatches]
  exact (s.hash block.data).property

/-- What is so of every block that was created and then edited, whatever each edit found and whether
it went through. It has a nonce and a hash of the right lengths, and the hash is that of its data.
An edit changes its own fields only, to what it is there to set them to, and one that fails changes
nothing.

If other data are put into it without their hash, the hash matches exactly if it is that of the other
data too, and so it stays until data are set. Then all is as it was before. A hash of another length
than its own matches no data. -/
theorem intact_after_turns {now : Instant} {data : Bytes} {e : Entropy} {created : DataBlock}
    (h : (create s now data e).1 = .ok created) (turns : List Turn) :
    let block := after s created turns
    Intact s block
      ∧ (∀ turn : Turn,
          (∀ field, field ∉ turn.edit.own → (edited s block turn).get field = block.get field)
            ∧ (turn.outcome s block = .ok () →
                turn.edit.Makes s turn.now block (edited s block turn))
            ∧ ∀ fault, turn.outcome s block = .error fault →
                edited s block turn = block ∧ turn.Fails block fault)
      ∧ (∀ (other : Bytes) (later : List Turn),
          let exchanged := after s { block with data := other } later
          ((∀ turn ∈ later, ∀ data, turn.edit ≠ .setData data) →
              (exchanged.hashMatches s = true ↔ (s.hash other).val = block.dataHash))
            ∧ ∀ data, Intact s (exchanged.setData s data))
      ∧ ∀ block : DataBlock, block.dataHash.length ≠ 64 → block.hashMatches s = false := by
  intro block
  have hintact : Intact s block := (Intact.of_create h).after turns
  refine ⟨hintact, fun turn => ⟨fun field => turn.get_edited, fun hmade => ?_,
    fun fault hfault => ?_⟩, fun other later => ⟨fun hlater => ?_, fun data => ?_⟩,
    fun block => hashMatches_eq_false⟩
  · obtain ⟨-, hmakes⟩ | ⟨fault, hfault, -⟩ := turn.makes_or_fails s block
    · exact hmakes
    · cases hmade.symm.trans hfault
  · obtain ⟨hmade, -⟩ | ⟨fault', hfault', hfails, hsame⟩ := turn.makes_or_fails s block
    · cases hmade.symm.trans hfault
    · obtain rfl := Except.error.inj (hfault'.symm.trans hfault)
      exact ⟨hsame, hfails⟩
  · rw [hashMatches_after hlater, hashMatches_iff]
  · -- The data that were exchanged do not matter to the lengths.
    have hshaped : Shaped { block with data := other } := ⟨hintact.nonce_length, hintact.hash_length⟩
    exact (hshaped.after later).intact_setData data

/-- A block that is given a prekey and written again after a nonce could not be drawn, and whose data
are exchanged then. -/
theorem intact_after_turns_noNonce :
    let now : Instant := .ofUnixNanos 1700000000123456789
    let dry : Entropy := .ofBytes []
    ∃ created, (create .standard now [1, 2] (.ofBytes (List.replicate 32 9))).1 = .ok created
      ∧ let block := after .standard created
          [⟨now, dry, .drawNonce⟩, ⟨now, dry, .setPrekey "p1"⟩, ⟨now, dry, .rewrite⟩]
        Intact .standard block ∧ Intact .standard ({ block with data := [3] }.setData .standard [4]) := by
  intro now dry
  have hok : (create .standard now [1, 2] (.ofBytes (List.replicate 32 9))).1.isOk = true := by
    decide +kernel
  obtain ⟨created, hcreated⟩ := exists_of_isOk hok
  obtain ⟨hintact, -, hexchanged, -⟩ := intact_after_turns hcreated
    [⟨now, dry, .drawNonce⟩, ⟨now, dry, .setPrekey "p1"⟩, ⟨now, dry, .rewrite⟩]
  exact ⟨created, hcreated, hintact, (hexchanged [3] []).2 [4]⟩

end SealedEnvelope.DataBlock
