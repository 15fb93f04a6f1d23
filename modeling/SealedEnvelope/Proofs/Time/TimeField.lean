import SealedEnvelope.Proofs.Time.Timestamp

/-!
# `SealedEnvelope.Proofs.Time.TimeField`: how a time field is read

A time field is text or eight bytes, and a reader that tries one after the other could take the
one for the other. It cannot: no text of an instant has fewer than twenty characters, and no
character fewer than one byte. So the two readings never meet, and a field of another length
than eight is text or nothing.

The same bound decides what becomes of a time that is stamped. In the years 0 to 9999 it is
read back; the sign of any other year is refused, and the field is too long for eight bytes.
What is read back is what the text spells, and that is another instant where a leap second does
not end its minute: the second that it is one too long for is then written as the next one.

Main statements:

* `Rfc3339.le_length_of_read?`: how long the text of an instant is at least;
* `DataBlock.timestamp_setTime_eq`: what is read of a stamped time, for every instant;
* `DataBlock.timestamp_encodings`: which fields are read as text, and which as eight bytes.
-/

set_option autoImplicit false

namespace SealedEnvelope

/-! ## Lengths -/

namespace Utf8

/-- Every character or ill-formed part takes one byte at least. -/
theorem length_units_le (bytes : Bytes) : (units bytes).length ≤ bytes.length := by
  fun_induction units bytes with
  | case1 => exact Nat.le_refl 0
  | case2 b rest unit ih =>
    rw [List.length_drop] at ih
    rw [List.length_cons, List.length_cons]
    omega

/-- Bytes that are text have no fewer bytes than the text has characters. -/
theorem length_le_of_decode? {bytes : Bytes} {text : String} (h : decode? bytes = some text) :
    text.toList.length ≤ bytes.length := by
  obtain ⟨chars, hchars, rfl⟩ := Option.map_eq_some_iff.1 h
  have hlength : ∀ (units : List (Option Char)) (chars : List Char),
      units.mapM id = some chars → chars.length = units.length := by
    intro units
    induction units with
    | nil =>
      intro chars h
      cases h
      rfl
    | cons unit units ih =>
      intro chars h
      rw [List.mapM_cons] at h
      simp only [Option.bind_eq_bind, Option.bind_eq_some_iff, Option.pure_def,
        Option.some.injEq] at h
      obtain ⟨c, -, others, hothers, rfl⟩ := h
      rw [List.length_cons, List.length_cons, ih others hothers]
  rw [String.toList_ofList, hlength _ _ hchars]
  exact length_units_le bytes

end Utf8

/-- Trimming makes no text longer. -/
theorem Text.length_trim_le (text : String) :
    (trim text).toList.length ≤ text.toList.length := by
  obtain ⟨before, after, htext, -, -⟩ := exists_append_trim text
  rw [htext, List.length_append, List.length_append]
  omega

namespace Rfc3339

section
variable {chars rest : List Char}

theorem length_of_takeDigits {count n m : Nat}
    (h : takeDigits count n chars = some (m, rest)) : chars.length = count + rest.length := by
  fun_induction takeDigits count n chars with
  | case1 =>
    cases h
    exact (Nat.zero_add _).symm
  | case2 => cases h
  | case3 n c chars count ih =>
    obtain ⟨d, -, hd⟩ := Option.bind_eq_some_iff.1 h
    rw [List.length_cons, ih d hd]
    omega

theorem length_of_skip {c : Char} (h : skip c chars = some rest) :
    chars.length = rest.length + 1 := by
  cases chars with
  | nil => cases h
  | cons d chars =>
    obtain ⟨-, hrest⟩ := Option.ite_none_right_eq_some.1 h
    rw [← Option.some.inj hrest, List.length_cons]

theorem length_of_readDate {date : Date} (h : readDate chars = some (date, rest)) :
    chars.length = 10 + rest.length := by
  simp only [readDate, Option.bind_eq_bind, Option.bind_eq_some_iff, Prod.exists,
    Option.ite_none_right_eq_some, Option.some.injEq, Prod.mk.injEq] at h
  obtain ⟨_, _, hyear, _, hskip, _, _, hmonth, _, hskip', _, _, hday, -, -, rfl⟩ := h
  have := length_of_takeDigits hyear
  have := length_of_skip hskip
  have := length_of_takeDigits hmonth
  have := length_of_skip hskip'
  have := length_of_takeDigits hday
  omega

theorem length_of_readTimeOfDay {second : Nat} {leap : Bool}
    (h : readTimeOfDay chars = some (second, leap, rest)) : chars.length = 8 + rest.length := by
  simp only [readTimeOfDay, Option.bind_eq_bind, Option.bind_eq_some_iff, Prod.exists,
    Option.ite_none_right_eq_some, Option.some.injEq, Prod.mk.injEq] at h
  obtain ⟨_, _, hhour, _, hskip, _, _, hminute, _, hskip', _, _, hsecond, -, -, -, rfl⟩ := h
  have := length_of_takeDigits hhour
  have := length_of_skip hskip
  have := length_of_takeDigits hminute
  have := length_of_skip hskip'
  have := length_of_takeDigits hsecond
  omega

theorem length_takeFraction_le (places nanos : Nat) (chars : List Char) :
    (takeFraction places nanos chars).2.length ≤ chars.length := by
  fun_induction takeFraction places nanos chars with
  | case1 => exact Nat.le_refl _
  | case2 => exact Nat.le_refl _
  | case3 nanos c rest d hd ih => exact Nat.le_succ_of_le ih
  | case4 nanos c rest d hd places ih => exact Nat.le_succ_of_le ih

theorem length_of_readFraction {nanos : Nat} (h : readFraction chars = some (nanos, rest)) :
    rest.length ≤ chars.length := by
  unfold readFraction at h
  split at h
  · next c chars =>
    obtain ⟨_, -, hread⟩ := Option.map_eq_some_iff.1 h
    have hle := length_takeFraction_le 9 0 (c :: chars)
    rw [hread] at hle
    exact Nat.le_succ_of_le hle
  · cases h
  · cases h
    exact Nat.le_refl _

theorem length_of_readOffset {offset : Int} (h : readOffset chars = some offset) :
    1 ≤ chars.length := by
  cases chars with
  | nil => cases h
  | cons c chars => exact Nat.le_add_left 1 chars.length

/-- The shortest text of an instant is a date, a `T`, a time of day and a `Z`. -/
theorem le_length_of_read? {text : String} {t : Instant} (h : read? text = some t) :
    20 ≤ text.toList.length := by
  unfold read? at h
  simp only [Option.bind_eq_bind] at h
  obtain ⟨⟨date, afterDate⟩, hdate, h⟩ := Option.bind_eq_some_iff.1 h
  cases afterDate with
  | nil => cases h
  | cons separator beforeTime =>
    have hlength := length_of_readDate hdate
    rw [List.length_cons] at hlength
    dsimp only at h
    split at h
    · simp only [Option.bind_some, Option.bind_eq_some_iff, Prod.exists] at h
      obtain ⟨second, leap, afterTime, htime, nanos, afterFraction, hfraction, offset, hoffset,
        -⟩ := h
      have := length_of_readTimeOfDay htime
      have := length_of_readFraction hfraction
      have := length_of_readOffset hoffset
      omega
    · cases h

end

/-! ## Years that are not read -/

theorem le_length_renderPadded (width n : Nat) :
    width ≤ (Numeral.renderPadded width n).toList.length := by
  rw [Numeral.renderPadded, String.toList_ofList, List.length_append, List.length_replicate]
  omega

/-- A year that needs a sign begins with no digit. -/
theorem exists_sign_of_writeYear {year : Int} (h : ¬ (0 ≤ year ∧ year ≤ 9999)) :
    ∃ sign digits, (writeYear year).toList = sign :: digits ∧ Numeral.digitValue? sign = none := by
  unfold writeYear
  split
  · exact ⟨'-', _, String.toList_append, by decide⟩
  · rw [if_neg (by omega)]
    exact ⟨'+', _, String.toList_append, by decide⟩

/-- No date begins with a sign. -/
theorem readDate_of_sign {sign : Char} (h : Numeral.digitValue? sign = none) (chars : List Char) :
    readDate (sign :: chars) = none := by
  simp only [readDate, takeDigits, h, Option.bind_eq_bind, Option.bind_none]

/-- The text of an instant outside of the years 0 to 9999 is refused. -/
theorem read?_writeMillis_eq_none {t : Instant} (h : ¬ (0 ≤ t.year ∧ t.year ≤ 9999)) :
    read? (writeMillis t) = none := by
  obtain ⟨sign, digits, hyear, hsign⟩ := exists_sign_of_writeYear h
  rw [read?, toList_writeMillis]
  show (readDate ((writeYear t.year).toList ++ _) >>= _) = none
  rw [hyear, List.cons_append, readDate_of_sign hsign]
  rfl

/-- A stamped time has more than eight bytes, also with a year of more digits. -/
theorem lt_length_writeMillis (t : Instant) : 8 < (Utf8.encode (writeMillis t)).length := by
  have hbytes := Utf8.length_le_of_decode? (Utf8.decode?_encode (writeMillis t))
  rw [toList_writeMillis] at hbytes
  simp only [List.length_append, List.length_cons] at hbytes
  have hmillis := le_length_renderPadded 3 (t.nanos % nanosPerSecond / 1000000)
  omega

end Rfc3339

namespace Instant

/-! ## Years and nanoseconds -/

/-- The second at which a year starts. -/
def startOfYear (year : Int) : Int :=
  ({ year := year, month := 1, day := 1 } : Date).toDays * 86400

/-- The year of an instant is the one between whose start and the start of the next it lies. -/
theorem year_eq_iff (t : Instant) (year : Int) :
    t.year = year ↔ startOfYear year ≤ t.seconds ∧ t.seconds < startOfYear (year + 1) := by
  have hle := Date.year_ofDays_le_iff (t.seconds / 86400) year
  have hlt := Date.year_ofDays_le_iff (t.seconds / 86400) (year - 1)
  rw [Int.sub_add_cancel] at hlt
  unfold Instant.year startOfYear
  omega

theorem unixNanos_ofUnixNanos (n : Int) : (ofUnixNanos n).unixNanos = n := by
  simp only [unixNanos, ofUnixNanos, nanosPerSecond]
  omega

/-- Numbers of nanoseconds lead into no leap second. -/
theorem isLeap_ofUnixNanos (n : Int) : (ofUnixNanos n).isLeap = false := by
  refine decide_eq_false ?_
  show ¬ 1000000000 ≤ (n % 1000000000).toNat
  omega

end Instant

namespace DataBlock

/-! ## The two readings of a field -/

/-- The instant that a time field spells as text. -/
def textTime? (time : Bytes) : Option Instant :=
  (Utf8.decode? time).bind fun text => Rfc3339.read? (Text.trim text)

/-- The instant that a time field of eight bytes is, as a signed number of nanoseconds. -/
def nanosTime? (time : Bytes) : Option Instant :=
  if time.length = 8 then
    some (Instant.ofUnixNanos (Int.bmod (ofBigEndian time) UInt64.size))
  else
    none

/-- The instant that was read, or the error that there is none. -/
def timeRead (reading : Option Instant) : Except EnvelopeError Instant :=
  reading.elim (.error .invalidTimestamp) .ok

/-- Text is tried first. -/
theorem timestamp_eq (block : DataBlock) :
    block.timestamp = timeRead ((textTime? block.time).or (nanosTime? block.time)) := by
  have hread : readTime? block.time = (textTime? block.time).or (nanosTime? block.time) := by
    unfold readTime?
    rw [← textTime?]
    cases textTime? block.time with
    | none => rfl
    | some t => rfl
  rw [timestamp, hread]
  cases (textTime? block.time).or (nanosTime? block.time) with
  | none => rfl
  | some t => rfl

/-- A field that is text has twenty bytes or more. -/
theorem le_length_of_textTime? {time : Bytes} {t : Instant} (h : textTime? time = some t) :
    20 ≤ time.length := by
  obtain ⟨text, htext, hread⟩ := Option.bind_eq_some_iff.1 h
  calc 20 ≤ (Text.trim text).toList.length := Rfc3339.le_length_of_read? hread
    _ ≤ text.toList.length := Text.length_trim_le text
    _ ≤ time.length := Utf8.length_le_of_decode? htext

theorem textTime?_of_length_lt {time : Bytes} (h : time.length < 20) : textTime? time = none :=
  Option.eq_none_iff_forall_ne_some.2 fun _ htext =>
    absurd (le_length_of_textTime? htext) (Nat.not_le.2 h)

theorem nanosTime?_of_length_ne {time : Bytes} (h : time.length ≠ 8) : nanosTime? time = none :=
  if_neg h

/-- No field has both readings. -/
theorem textTime?_or_nanosTime?_eq_none (time : Bytes) :
    textTime? time = none ∨ nanosTime? time = none := by
  by_cases h : time.length = 8
  · exact .inl (textTime?_of_length_lt (by omega))
  · exact .inr (nanosTime?_of_length_ne h)

/-- The eight bytes of a signed number are read as this number of nanoseconds. -/
theorem nanosTime?_bigEndian (n : Int64) :
    nanosTime? (bigEndian 8 n.toUInt64.toNat) = some (Instant.ofUnixNanos n.toInt) := by
  have hnumber : ofBigEndian (bigEndian 8 n.toUInt64.toNat) = n.toUInt64.toNat := by
    rw [ofBigEndian_bigEndian]
    exact Nat.mod_eq_of_lt n.toUInt64.toNat_lt
  have hsigned : Int.bmod n.toUInt64.toNat UInt64.size = n.toInt :=
    (BitVec.toInt_eq_toNat_bmod n.toBitVec).symm
  rw [nanosTime?, if_pos (length_bigEndian 8 _), hnumber, hsigned]

/-! ## Stamped times -/

/-- A time that is stamped outside of the years 0 to 9999 is not read. -/
theorem timestamp_setTime_eq_error (block : DataBlock) {t : Instant}
    (h : ¬ (0 ≤ t.year ∧ t.year ≤ 9999)) :
    (block.setTime t).timestamp = .error .invalidTimestamp := by
  have htime : (block.setTime t).time = Utf8.encode (Rfc3339.writeMillis t) := by rw [setTime]
  have htext : textTime? (Utf8.encode (Rfc3339.writeMillis t)) = none := by
    rw [textTime?, Utf8.decode?_encode, Option.bind_some,
      Text.trim_eq_self (Rfc3339.isBlank_of_mem_writeMillis t), Rfc3339.read?_writeMillis_eq_none h]
  have hlength := Nat.ne_of_gt (Rfc3339.lt_length_writeMillis t)
  rw [timestamp_eq, htime, htext, nanosTime?_of_length_ne hlength]
  rfl

/-- What is read of a time that has been stamped. A year outside of 0 to 9999 is refused; in any
other, what the instant is written as is read, with all below the millisecond cut off. That is the
instant itself, also in a leap second at the end of a minute. A leap second elsewhere has no text
of its own, and is read as the second after it. The year of an instant is the one between whose
start and the start of the next it lies. -/
theorem timestamp_setTime_eq (block : DataBlock) (t : Instant) :
    (block.setTime t).timestamp
        = (if 0 ≤ t.year ∧ t.year ≤ 9999 then .ok t.written.floorMillis
          else .error .invalidTimestamp)
      ∧ ((t.isLeap = true → t.seconds % 60 = 59) ∧ t.written = t
        ∨ (t.isLeap = true ∧ t.seconds % 60 ≠ 59) ∧ t.written.seconds = t.seconds + 1
          ∧ t.written.nanos + nanosPerSecond = t.nanos)
      ∧ ∀ year : Int, t.year = year
          ↔ Instant.startOfYear year ≤ t.seconds ∧ t.seconds < Instant.startOfYear (year + 1) := by
  refine ⟨?_, t.written_cases, t.year_eq_iff⟩
  split
  · next hyear => exact timestamp_setTime block hyear.1 hyear.2
  · next hyear => exact timestamp_setTime_eq_error block hyear

/-- A third of a second into a leap second that follows 12:00:04. -/
def strayLeap : Instant where
  seconds := 1714564804
  nanos := 1333333333

/-- It is read as a third of a second after 12:00:05. -/
theorem timestamp_setTime_strayLeap :
    (0 ≤ strayLeap.year ∧ strayLeap.year ≤ 9999)
      ∧ (({} : DataBlock).setTime strayLeap).timestamp
          = .ok { seconds := 1714564805, nanos := 333000000 }
      ∧ (({} : DataBlock).setTime strayLeap).timestamp ≠ .ok strayLeap.floorMillis := by
  have hyear : 0 ≤ strayLeap.year := by
    decide +kernel
  have hyear' : strayLeap.year ≤ 9999 := by
    decide +kernel
  have hwritten : strayLeap.written.floorMillis = { seconds := 1714564805, nanos := 333000000 } := by
    decide +kernel
  rw [timestamp_setTime _ hyear hyear', hwritten]
  refine ⟨⟨hyear, hyear'⟩, rfl, fun h => ?_⟩
  have hseconds : (1714564805 : Int) = 1714564804 := congrArg Instant.seconds (Except.ok.inj h)
  exact absurd hseconds (by decide)

/-! ## Fields of any bytes -/

/-- The two encodings of a time. Eight bytes are read as a signed number of nanoseconds since
the start of 1970, whatever they spell. A field of fewer than twenty bytes that are not eight is
refused, and one of more than eight is read as text or refused. No field has both readings, so
that the order in which they are tried makes no difference. -/
theorem timestamp_encodings :
    (∀ (block : DataBlock) (n : Int64), block.time = bigEndian 8 n.toUInt64.toNat →
        ∃ t : Instant, block.timestamp = .ok t ∧ t.unixNanos = n.toInt ∧ t.isLeap = false)
      ∧ (∀ block : DataBlock, block.time.length < 20 → block.time.length ≠ 8 →
          block.timestamp = .error .invalidTimestamp)
      ∧ (∀ block : DataBlock, 8 < block.time.length →
          block.timestamp = timeRead (textTime? block.time))
      ∧ (∀ time : Bytes, textTime? time = none ∨ nanosTime? time = none)
      ∧ ∀ block : DataBlock,
          block.timestamp = timeRead ((nanosTime? block.time).or (textTime? block.time)) := by
  refine ⟨fun block n htime => ?_, fun block hlt hne => ?_, fun block hlt => ?_,
    textTime?_or_nanosTime?_eq_none, fun block => ?_⟩
  · have htext : textTime? block.time = none := by
      rw [htime]
      exact textTime?_of_length_lt (by rw [length_bigEndian]; decide)
    refine ⟨.ofUnixNanos n.toInt, ?_, Instant.unixNanos_ofUnixNanos _,
      Instant.isLeap_ofUnixNanos _⟩
    rw [timestamp_eq, htext, Option.none_or, htime, nanosTime?_bigEndian]
    rfl
  · rw [timestamp_eq, textTime?_of_length_lt hlt, nanosTime?_of_length_ne hne]
    rfl
  · rw [timestamp_eq, nanosTime?_of_length_ne (Nat.ne_of_gt hlt), Option.or_none]
  · rw [timestamp_eq]
    cases textTime?_or_nanosTime?_eq_none block.time with
    | inl htext => rw [htext, Option.none_or, Option.or_none]
    | inr hnanos => rw [hnanos, Option.none_or, Option.or_none]

/-- Eight bytes that spell a date without hyphens are no text of an instant but a number of
nanoseconds, and a text that lacks one digit of the twenty characters is refused. -/
theorem timestamp_encodings_date :
    (let block : DataBlock := { time := Utf8.encode "20240501" }
     ∃ t : Instant, block.timestamp = .ok t ∧ t.unixNanos = 0x3230323430353031)
      ∧ ({ time := Utf8.encode "2024-05-01T12:00:0Z" } : DataBlock).timestamp
          = .error .invalidTimestamp
      ∧ ∃ t : Instant, ({ time := List.replicate 8 0xFF } : DataBlock).timestamp = .ok t
          ∧ t.unixNanos = -1 := by
  obtain ⟨hnanos, hshort, -⟩ := timestamp_encodings
  obtain ⟨t, ht, hdate, -⟩ :=
    hnanos { time := Utf8.encode "20240501" } 0x3230323430353031 (by decide)
  obtain ⟨t', ht', hbefore, -⟩ := hnanos { time := List.replicate 8 0xFF } (-1) (by decide)
  exact ⟨⟨t, ht, hdate⟩, hshort _ (by decide) (by decide), ⟨t', ht', hbefore⟩⟩

end DataBlock

end SealedEnvelope
