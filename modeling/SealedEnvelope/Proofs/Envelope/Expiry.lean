import SealedEnvelope.Proofs.Envelope.RoundTrip
import SealedEnvelope.Proofs.Envelope.Size

/-!
# `SealedEnvelope.Proofs.Envelope.Expiry`: envelopes that are too old stay so

An envelope can be opened for five minutes after the time in its data block, and whoever keeps
one for longer must not be able to use it again. The only thing that changes from one opening
to the next is the clock, so that an envelope stays too old if its age only grows.

The age is the difference of two instants, and a leap second makes the difference fall back.
It has no number of its own, and is counted by comparing times of day: a stamp in a leap second
is one second more in the past than its number says, until midnight. After midnight the time of
day is the earlier one, and the second is no longer counted. `Instant.FallsBack` says where this
makes an age of more than five minutes one of less: for a stamp in a leap second at five minutes
to midnight, within the first second of the new day. Nowhere else does it matter.

Main statements:

* `Opening.unpack_eq_timeExpired_iff`: an envelope is refused for its age exactly if it carries
  a time that is too long ago, whatever else is in it;
* `Opening.timeExpired_later_iff`: an envelope that is too old is too old at each later time,
  except where the age falls back;
* `Opening.timeExpired_falls_back`: an envelope that is refused for its age, and opened a fifth
  of a second later.
-/

set_option autoImplicit false

namespace SealedEnvelope

/-! ## The difference of two instants -/

namespace Instant

/-- Whether an age of more than five minutes falls back to five minutes or less: midnight comes
between two clocks, and with it the leap second of the stamp is lost from the count. -/
structure FallsBack (stamped now later : Instant) : Prop where
  /-- The stamp lies in a leap second. -/
  leap : stamped.isLeap = true
  /-- It is the one before 23:55. -/
  fiveToMidnight : stamped.secondOfDay = 86099
  /-- The first clock is in the last second of the day. -/
  lastSecond : now.seconds = stamped.seconds + 300
  /-- By it, the stamp is more than five minutes ago. -/
  old : stamped.nanos < now.nanos + nanosPerSecond
  /-- The second clock is in the first second of the next day. -/
  firstSecond : later.seconds = stamped.seconds + 301
  /-- By it, the stamp is no more than five minutes ago, if the leap second is not counted. -/
  young : later.nanos + nanosPerSecond ≤ stamped.nanos

/-- Outside of leap seconds the nanoseconds do not make up a second. -/
theorem nanos_lt_of_isLeap {t : Instant} (h : t.isLeap = false) : t.nanos < nanosPerSecond :=
  Nat.lt_of_not_le (of_decide_eq_false h)

/-- A clock that is in no leap second counts that of a stamp with an earlier time of day. -/
theorem leapBetween_of_not_leap {later stamped : Instant} (hlater : later.isLeap = false) :
    leapBetween later stamped
      = if stamped.secondOfDay < later.secondOfDay ∧ stamped.isLeap = true then 1 else 0 := by
  unfold leapBetween
  rw [hlater]
  by_cases hearlier : stamped.secondOfDay < later.secondOfDay
  · simp only [hearlier, if_true, true_and]
  · simp only [hearlier, if_false, false_and, Bool.false_eq_true, ite_self]

/-- An age of more than five minutes stays one, except where it falls back. -/
theorem lt_since_later_iff {stamped now later : Instant} (hnow : now.isLeap = false)
    (hlater : later.isLeap = false) (hle : now.unixNanos ≤ later.unixNanos)
    (hold : 300 * nanosPerSecond < now.since stamped) :
    300 * nanosPerSecond < later.since stamped ↔ ¬ FallsBack stamped now later := by
  have hnowNanos := nanos_lt_of_isLeap hnow
  have hlaterNanos := nanos_lt_of_isLeap hlater
  have hstamped := stamped.nanos_lt
  unfold since at hold ⊢
  rw [leapBetween_of_not_leap hnow] at hold
  rw [leapBetween_of_not_leap hlater]
  unfold unixNanos at hle
  unfold nanosPerSecond at *
  cases hleap : stamped.isLeap with
  | false =>
    -- Without a leap second the age is a difference of nanoseconds, and grows with the clock.
    rw [hleap] at hold
    simp only [Bool.false_eq_true, and_false, if_false] at hold ⊢
    refine iff_of_true (by omega) fun h => ?_
    have := h.leap
    rw [hleap] at this
    cases this
  | true =>
    have hnanos : 1000000000 ≤ stamped.nanos := of_decide_eq_true hleap
    rw [hleap] at hold
    simp only [and_true] at hold ⊢
    constructor
    · intro hlaterOld h
      -- At midnight the time of day starts again.
      have hearlier : ¬ stamped.secondOfDay < later.secondOfDay := by
        have hday := h.fiveToMidnight
        have hfirst := h.firstSecond
        unfold secondOfDay at hday ⊢
        omega
      rw [if_neg hearlier] at hlaterOld
      have hfirst := h.firstSecond
      have hyoung := h.young
      unfold nanosPerSecond at hyoung
      omega
    · intro h
      refine Decidable.byContradiction fun hyoung => ?_
      -- The one second more must have been counted by the first clock, and not by the second.
      have hbefore : stamped.secondOfDay < now.secondOfDay := by
        refine Decidable.byContradiction fun hnot => ?_
        rw [if_neg hnot] at hold
        split at hyoung <;> omega
      have hafter : ¬ stamped.secondOfDay < later.secondOfDay := by
        intro hlt
        rw [if_pos hlt] at hyoung
        split at hold <;> omega
      rw [if_pos hbefore] at hold
      rw [if_neg hafter] at hyoung
      unfold secondOfDay at hbefore hafter
      refine h { leap := hleap, fiveToMidnight := ?_, lastSecond := ?_, old := ?_,
                 firstSecond := ?_, young := ?_ }
      · unfold secondOfDay
        omega
      all_goals
        unfold nanosPerSecond at *
        omega

end Instant

namespace Envelope

open EnvelopeError (onWire)

/-! ## Where an age can be complained of -/

/-- Whether a result is not that something is too old. -/
def Timeless {α : Type} (result : Except EnvelopeError α) : Prop :=
  ∀ age, result ≠ .error (.timeExpired age)

section
variable {α β : Type}

theorem Timeless.ok (a : α) : Timeless (.ok a : Except EnvelopeError α) := by
  intro age h
  cases h

theorem Timeless.onWire (result : Except LengthValue.Error α) : Timeless (onWire result) := by
  intro age h
  cases result <;> cases h

/-- An age that is complained of in two steps, of which the first complains of none, is
complained of in the second. -/
theorem Timeless.exists_of_bind {x : Except EnvelopeError α} {f : α → Except EnvelopeError β}
    (hx : Timeless x) {age : Int} (h : (x >>= f) = .error (.timeExpired age)) :
    ∃ a, x = .ok a ∧ f a = .error (.timeExpired age) := by
  cases x with
  | error err =>
    cases h
    exact absurd rfl (hx age)
  | ok a => exact ⟨a, rfl, h⟩

/-- Two steps that complain of no age do not do so together. -/
theorem Timeless.bind {x : Except EnvelopeError α} {f : α → Except EnvelopeError β}
    (hx : Timeless x) (hf : ∀ a, Timeless (f a)) : Timeless (x >>= f) := by
  intro age h
  obtain ⟨a, -, h⟩ := hx.exists_of_bind h
  exact hf a age h

theorem timeless_readHex (text : String) : Timeless (readHex text) := by
  intro age h
  unfold readHex at h
  cases hdecode : Hex.decode (Text.trim text) <;> rw [hdecode] at h <;> cases h

theorem timeless_decrypt (s : Suite) (key bytes : Bytes) :
    Timeless (Cipher.decrypt s key bytes) := by
  intro age h
  unfold Cipher.decrypt at h
  split at h
  · cases h
  · split at h
    · cases h
    · split at h
      · cases h
      · simp only at h
        split at h <;> cases h

theorem timeless_decode (bytes : Bytes) : Timeless (DataBlock.decode bytes) := by
  refine (Timeless.onWire _).bind fun value => (Timeless.onWire _).bind fun fields => ?_
  intro age h
  split at h <;> cases h

end

namespace Opening

variable {s : Suite} {o : Opening} {text : String}

theorem timeless_ciphertext (s : Suite) (o : Opening) (text : String) :
    Timeless (o.ciphertext s text) := by
  refine (timeless_readHex text).bind fun bytes => (Timeless.onWire _).bind fun value =>
    (Timeless.onWire _).bind fun elements => ?_
  intro age h
  split at h
  · split at h <;> cases h
  · cases h

/-- A data block is refused for its age exactly if its time can be read and is too long ago. -/
theorem payload_eq_timeExpired_iff {block : DataBlock} {age : Int} :
    o.payload s block = .error (.timeExpired age)
      ↔ ∃ stamped, DataBlock.readTime? block.time = some stamped
          ∧ lifetime * nanosPerSecond < o.now.since stamped
          ∧ age = (o.now.since stamped).tdiv nanosPerSecond := by
  cases htime : DataBlock.readTime? block.time with
  | none =>
    have hstamp : block.timestamp = .error .invalidTimestamp := by
      rw [DataBlock.timestamp, htime]
    rw [payload, hstamp]
    refine iff_of_false (fun h => by cases h) ?_
    rintro ⟨stamped, hread, -⟩
    cases hread
  | some stamped =>
    have hstamp : block.timestamp = .ok stamped := by
      rw [DataBlock.timestamp, htime]
    rw [payload_of_timestamp hstamp]
    simp only [Option.some.injEq, exists_eq_left']
    constructor
    · intro h
      split at h
      · next hold =>
        cases h
        exact ⟨hold, rfl⟩
      · -- What is looked at after the time complains of other things.
        split at h
        · cases h
        · split at h
          · cases h
          · exact absurd h ((Timeless.onWire _).bind (fun _ => Timeless.onWire _) age)
    · rintro ⟨hold, rfl⟩
      rw [if_pos hold]

/-- Whether a text delivers a data block that was made at some time. The clock has no part in
it. -/
def Dates (s : Suite) (o : Opening) (text : String) (stamped : Instant) : Prop :=
  ∃ message block, o.Delivers s text message ∧ DataBlock.Holds message block
    ∧ DataBlock.readTime? block.time = some stamped

/-- A text delivers one message at most. -/
theorem Delivers.unique {message message' : Bytes} (h : o.Delivers s text message)
    (h' : o.Delivers s text message') : message = message' := by
  obtain ⟨ciphertext, signature, hencloses, htrusts, hdecrypt⟩ := h
  obtain ⟨ciphertext', signature', hencloses', htrusts', hdecrypt'⟩ := h'
  have hfound := ciphertext_eq_ok_iff.2 ⟨signature, hencloses, htrusts⟩
  rw [ciphertext_eq_ok_iff.2 ⟨signature', hencloses', htrusts'⟩, Except.ok.injEq] at hfound
  rw [hfound, hdecrypt, Except.ok.injEq] at hdecrypt'
  exact hdecrypt'

/-- It was made at one time at most. -/
theorem Dates.unique {stamped stamped' : Instant} (h : o.Dates s text stamped)
    (h' : o.Dates s text stamped') : stamped = stamped' := by
  obtain ⟨message, block, hdelivers, hholds, htime⟩ := h
  obtain ⟨message', block', hdelivers', hholds', htime'⟩ := h'
  obtain rfl := hdelivers.unique hdelivers'
  obtain rfl := hholds.unique hholds'
  rw [htime, Option.some.injEq] at htime'
  exact htime'

/-- An envelope is refused for its age exactly if it delivers a data block that was made too
long ago, and then its age is told. The prekey, the hash and the payload of the block do not
matter. -/
theorem unpack_eq_timeExpired_iff {age : Int} :
    o.unpack s text = .error (.timeExpired age)
      ↔ ∃ stamped, o.Dates s text stamped ∧ lifetime * nanosPerSecond < o.now.since stamped
          ∧ age = (o.now.since stamped).tdiv nanosPerSecond := by
  constructor
  · intro h
    -- None of the steps before the last one complains of an age.
    obtain ⟨ciphertext, hciphertext, h⟩ := (timeless_ciphertext s o text).exists_of_bind h
    obtain ⟨message, hdecrypt, h⟩ := (timeless_decrypt s o.key ciphertext).exists_of_bind h
    obtain ⟨block, hdecode, h⟩ := (timeless_decode message).exists_of_bind h
    obtain ⟨signature, hencloses, htrusts⟩ := ciphertext_eq_ok_iff.1 hciphertext
    obtain ⟨stamped, htime, hold, hage⟩ := payload_eq_timeExpired_iff.1 h
    exact ⟨stamped, ⟨message, block, ⟨ciphertext, signature, hencloses, htrusts, hdecrypt⟩,
      DataBlock.decode_eq_ok_iff.1 hdecode, htime⟩, hold, hage⟩
  · rintro ⟨stamped, ⟨message, block, hdelivers, hholds, htime⟩, hold, hage⟩
    rw [unpack_of_delivers hdelivers, DataBlock.decode_eq_ok_iff.2 hholds]
    exact payload_eq_timeExpired_iff.2 ⟨stamped, htime, hold, hage⟩

/-- An envelope that is too old by one clock is too old by each later one, whatever time its
sender has stamped it with, except where its age falls back at midnight. There it is not refused
for its age. -/
theorem timeExpired_later_iff {later : Instant} {age : Int} (hnow : o.now.isLeap = false)
    (hlater : later.isLeap = false) (hle : o.now.unixNanos ≤ later.unixNanos)
    (h : o.unpack s text = .error (.timeExpired age)) :
    (∃ age', { o with now := later }.unpack s text = .error (.timeExpired age'))
      ↔ ¬ ∃ stamped, o.Dates s text stamped ∧ Instant.FallsBack stamped o.now later := by
  obtain ⟨stamped, hdates, hold, -⟩ := unpack_eq_timeExpired_iff.1 h
  have hstays : lifetime * nanosPerSecond < later.since stamped
      ↔ ¬ Instant.FallsBack stamped o.now later :=
    Instant.lt_since_later_iff hnow hlater hle hold
  constructor
  · rintro ⟨age', h'⟩ ⟨stamped', hdates', hfalls⟩
    obtain ⟨stamped₂, hdates₂, hold₂, -⟩ := unpack_eq_timeExpired_iff.1 h'
    -- The three times are that of the one block that the text delivers.
    obtain rfl := hdates.unique hdates'
    obtain rfl : stamped = stamped₂ := Dates.unique (o := o) hdates hdates₂
    exact hstays.1 hold₂ hfalls
  · intro hnone
    have hold₂ := hstays.2 fun hfalls => hnone ⟨stamped, hdates, hfalls⟩
    exact ⟨_, unpack_eq_timeExpired_iff.2 ⟨stamped, hdates, hold₂, rfl⟩⟩

/-- An envelope that was made 301 seconds ago is too old, and a hundred seconds later it still
is. -/
theorem timeExpired_later_hundred_seconds :
    ∃ text : String,
      (pack .twoSigners (.ofUnixNanos 1700000000123456789) "p1" ⟨FixedBytes.ofPrefix 32 []⟩
          nineSecondsLater.key [[1, 2], []] (.ofBytes (List.replicate 48 9))).1 = .ok text
        ∧ { nineSecondsLater with now := .ofUnixNanos 1700000301200000000 }.unpack .twoSigners text
            = .error (.timeExpired 301)
        ∧ ∃ age, { nineSecondsLater with now := .ofUnixNanos 1700000401200000000 }.unpack
            .twoSigners text = .error (.timeExpired age) := by
  have hok : (pack .twoSigners (.ofUnixNanos 1700000000123456789) "p1"
      ⟨FixedBytes.ofPrefix 32 []⟩ nineSecondsLater.key [[1, 2], []]
      (.ofBytes (List.replicate 48 9))).1.isOk = true := by
    decide +kernel
  obtain ⟨text, htext⟩ := exists_of_isOk hok
  let o : Opening := { nineSecondsLater with now := .ofUnixNanos 1700000301200000000 }
  have hold : 300 * nanosPerSecond < age o.now (.ofUnixNanos 1700000000123456789) := by
    decide +kernel
  have hage : age o.now (.ofUnixNanos 1700000000123456789) / nanosPerSecond = 301 := by
    decide +kernel
  have hexpired : o.unpack .twoSigners text = .error (.timeExpired 301) := by
    obtain ⟨block, hstamps, hunpack⟩ := exists_block_of_pack (o := o) Suite.twoSigners_deciphers
      htext (Text.Respells.refl text)
      fun ciphertext _ => trusts_of_acceptsOwn rfl Suite.twoSigners_acceptsOwn_zero ciphertext
    rw [hunpack, payload_of_stamps (by decide +kernel) (by decide +kernel) (by decide +kernel)
      (by decide +kernel) hstamps, if_pos hold, hage]
  refine ⟨text, htext, hexpired, ?_⟩
  let later : Instant := .ofUnixNanos 1700000401200000000
  have hnow : o.now.isLeap = false := by
    decide +kernel
  have hlater : later.isLeap = false := by
    decide +kernel
  have hle : o.now.unixNanos ≤ later.unixNanos := by
    decide +kernel
  refine (timeExpired_later_iff hnow hlater hle hexpired).2 ?_
  -- The two clocks are not in neighbouring seconds, so that nothing falls back.
  rintro ⟨stamped, -, hfalls⟩
  have hlast := hfalls.lastSecond
  have hfirst := hfalls.firstSecond
  simp only [o, later, Instant.ofUnixNanos, nanosPerSecond] at hlast hfirst
  omega

/-- An opening that leaves signatures unchecked, a tenth of a second before a midnight. -/
def beforeMidnight : Opening where
  prekey := "p1"
  peer := ⟨FixedBytes.ofPrefix 32 []⟩
  key := List.replicate 16 7
  now := .ofUnixNanos 1714607999900000000
  skipVerify := true

/-- A data block of two elements whose time is in the middle of the leap second at five minutes to
this midnight. -/
def leapBlock : DataBlock :=
  DataBlock.setData .standard
    { time := Utf8.encode "2024-05-01T23:54:60.5Z", nonce := List.replicate 32 0,
      prekey := Utf8.encode "p1" }
    [0, 0, 0, 10, 0, 0, 0, 2, 1, 2, 0, 0, 0, 0]

/-- The time is read as this instant. -/
theorem readTime?_leapBlock :
    DataBlock.readTime? leapBlock.time = some { seconds := 1714607699, nanos := 1500000000 } := by
  have hread : Rfc3339.read? (Text.trim "2024-05-01T23:54:60.5Z")
      = some { seconds := 1714607699, nanos := 1500000000 } := by
    decide +kernel
  rw [leapBlock, DataBlock.setData, DataBlock.readTime?, Utf8.decode?_encode, Option.bind_some,
    hread]

/-- The envelope of a block that was made in the middle of the leap second at five minutes to
midnight is refused for its age a tenth of a second before midnight, and opened a tenth of a
second after it. -/
theorem timeExpired_falls_back :
    ∃ envelope : Bytes,
      (sealBlock .standard leapBlock ⟨FixedBytes.ofPrefix 32 []⟩ beforeMidnight.key
          (.ofBytes (List.replicate 16 9))).1 = .ok envelope
        ∧ beforeMidnight.now.isLeap = false
        ∧ (Instant.ofUnixNanos 1714608000100000000).isLeap = false
        ∧ beforeMidnight.now.unixNanos ≤ (Instant.ofUnixNanos 1714608000100000000).unixNanos
        ∧ beforeMidnight.unpack .standard (Hex.encode envelope) = .error (.timeExpired 300)
        ∧ { beforeMidnight with now := .ofUnixNanos 1714608000100000000 }.unpack .standard
            (Hex.encode envelope) = .ok [[1, 2], []] := by
  have hkey : BlockKey.ofBytes? beforeMidnight.key = some ⟨List.replicate 16 7, .inl rfl⟩ := rfl
  have he : (Entropy.ofBytes (List.replicate 16 9)).has 16 = true := rfl
  have hnonce : leapBlock.nonce.length = 32 := by rw [leapBlock, DataBlock.setData]; rfl
  have hhash : leapBlock.dataHash.length = 64 := by
    rw [leapBlock, DataBlock.setData]
    exact (Suite.hash _ _).property
  have hsize : sealedLength leapBlock < LengthValue.ceiling := by
    rw [sealedLength, wireLength_fields hnonce hhash, leapBlock, DataBlock.setData]
    decide +kernel
  obtain ⟨envelope, hseal⟩ := exists_sealBlock_of_lt (s := .standard) ⟨FixedBytes.ofPrefix 32 []⟩
    hkey he hsize
  -- Both openings lead back to the block.
  have hbefore := unpack_of_sealBlock (o := beforeMidnight) Suite.standard_deciphers hseal
    (Text.Respells.refl _) fun _ => .inl rfl
  have hafter := unpack_of_sealBlock
    (o := { beforeMidnight with now := .ofUnixNanos 1714608000100000000 })
    Suite.standard_deciphers hseal (Text.Respells.refl _) fun _ => .inl rfl
  refine ⟨envelope, hseal, by decide +kernel, by decide +kernel, by decide +kernel, ?_, ?_⟩
  · rw [hbefore, payload_eq_timeExpired_iff]
    exact ⟨_, readTime?_leapBlock, by decide +kernel, by decide +kernel⟩
  · rw [hafter]
    refine payload_eq_ok_iff.2 ⟨⟨_, readTime?_leapBlock, by decide +kernel⟩, ?_, ?_, ?_⟩
    · rw [leapBlock, DataBlock.setData]
      rfl
    · rw [leapBlock, DataBlock.setData]
    · rw [leapBlock, DataBlock.setData]
      exact ⟨[0, 0, 0, 2, 1, 2, 0, 0, 0, 0], LengthValue.Begins.of_encode rfl, rfl⟩

end Opening

end Envelope

end SealedEnvelope
