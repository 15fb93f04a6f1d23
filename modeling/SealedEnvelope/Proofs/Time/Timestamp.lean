import SealedEnvelope.Envelope.DataBlock
import SealedEnvelope.Proofs.Text.Spelling
import SealedEnvelope.Proofs.Time.Calendar

/-!
# `SealedEnvelope.Proofs.Time.Timestamp`: a stamped time is read back

A data block carries the time at which it was made as text. The text keeps milliseconds,
and the reader takes years of four digits only.

Main statements:

* `Rfc3339.read?_writeMillis`: the text of an instant of the years 0 to 9999 is read as
  the instant with all below the millisecond cut off (`Instant.floorMillis`), in a leap
  second at the end of a minute too, and in any other as the second that follows
  (`Instant.written`);
* `DataBlock.timestamp_setTime`: the same for the time field of a block;
* `Instant.since_eq_sub`: outside of leap seconds the age of a block is the difference of
  two numbers of nanoseconds.
-/

set_option autoImplicit false

namespace SealedEnvelope

namespace Instant

/-- The year that an instant lies in, in universal time. -/
def year (t : Instant) : Int := (Date.ofDays (t.seconds / 86400)).year

/-- The nanoseconds from the start of 1970 to an instant. -/
def unixNanos (t : Instant) : Int := t.seconds * nanosPerSecond + t.nanos

theorem secondOfDay_lt (t : Instant) : t.secondOfDay < 86400 := by
  unfold secondOfDay
  omega

/-- The instant with everything below the millisecond cut off. -/
def floorMillis (t : Instant) : Instant where
  seconds := t.seconds
  nanos := t.nanos / 1000000 * 1000000
  nanos_lt := Nat.lt_of_le_of_lt (Nat.div_mul_le_self _ _) t.nanos_lt

/-- The instant that the text of another one spells. A minute has room for a second 60 only, so
that any other leap second is written as the second after it. -/
def written (t : Instant) : Instant :=
  if t.isLeap = true ∧ t.seconds % 60 ≠ 59 then
    { seconds := t.seconds + 1
      nanos := t.nanos - nanosPerSecond
      nanos_lt := Nat.lt_of_le_of_lt (Nat.sub_le _ _) t.nanos_lt }
  else
    t

/-- The parts of an instant that has been cut off are those of an instant. -/
theorem ofParts?_floorMillis (t : Instant) :
    ofParts? t.seconds (t.nanos / 1000000 * 1000000) = some t.floorMillis :=
  dif_pos t.floorMillis.nanos_lt

/-- Cutting off milliseconds is rounding down the number of nanoseconds, before 1970 too. -/
theorem unixNanos_floorMillis (t : Instant) :
    t.floorMillis.unixNanos = t.unixNanos / 1000000 * 1000000 := by
  simp only [unixNanos, floorMillis, nanosPerSecond]
  omega

/-- What an instant is written as: itself, or the second after it if it lies in a leap second
that does not end its minute. -/
theorem written_cases (t : Instant) :
    (t.isLeap = true → t.seconds % 60 = 59) ∧ t.written = t
      ∨ (t.isLeap = true ∧ t.seconds % 60 ≠ 59) ∧ t.written.seconds = t.seconds + 1
        ∧ t.written.nanos + nanosPerSecond = t.nanos := by
  by_cases h : t.isLeap = true ∧ t.seconds % 60 ≠ 59
  · refine .inr ⟨h, ?_⟩
    rw [written, if_pos h]
    exact ⟨rfl, Nat.sub_add_cancel (of_decide_eq_true h.1)⟩
  · exact .inl ⟨fun hleap => Decidable.byContradiction fun hne => h ⟨hleap, hne⟩, if_neg h⟩

/-- Outside of leap seconds an instant is written as what it is. -/
theorem written_of_not_leap {t : Instant} (h : t.isLeap = false) : t.written = t :=
  if_neg fun hleap => absurd hleap.1 (Bool.eq_false_iff.1 h)

/-- What is written has leap seconds at the end of a minute only. -/
theorem written_minute_end (t : Instant) (h : t.written.isLeap = true) :
    t.written.seconds % 60 = 59 := by
  obtain ⟨hend, hsame⟩ | ⟨-, -, hnanos⟩ := t.written_cases
  · rw [hsame] at h ⊢
    exact hend h
  · have hle : nanosPerSecond ≤ t.written.nanos := of_decide_eq_true h
    have := t.nanos_lt
    omega

/-- What is written lies in the same minute. -/
theorem minute_written (t : Instant) : t.written.seconds / 60 = t.seconds / 60 := by
  obtain ⟨-, hsame⟩ | ⟨⟨-, hne⟩, hseconds, -⟩ := t.written_cases
  · rw [hsame]
  · omega

/-- What is written lies in the same year. -/
theorem year_written (t : Instant) : t.written.year = t.year := by
  have hday : t.written.seconds / 86400 = t.seconds / 86400 := by
    have := t.minute_written
    omega
  rw [year, hday, year]

/-- Cutting off milliseconds leads into no leap second. -/
theorem isLeap_floorMillis (t : Instant) : t.floorMillis.isLeap = t.isLeap := by
  show decide (nanosPerSecond ≤ t.nanos / 1000000 * 1000000) = decide (nanosPerSecond ≤ t.nanos)
  rw [decide_eq_decide, nanosPerSecond]
  omega

/-- Between instants outside of leap seconds lies the difference of their nanoseconds. -/
theorem since_eq_sub {later earlier : Instant} (hlater : later.isLeap = false)
    (hearlier : earlier.isLeap = false) :
    later.since earlier = later.unixNanos - earlier.unixNanos := by
  have hleap : leapBetween later earlier = 0 := by
    unfold leapBetween
    rw [hlater, hearlier]
    simp
  simp only [since, hleap, unixNanos, nanosPerSecond]
  omega

end Instant

namespace Date

/-- The parts of a date that exists have at most two digits. -/
theorem lt_of_isValid {date : Date} (h : date.isValid = true) :
    date.day < Nat.pow 10 2 ∧ date.month < Nat.pow 10 2 := by
  rw [isValid, Bool.and_eq_true, decide_eq_true_eq, decide_eq_true_eq, monthLength] at h
  obtain ⟨hlow, hhigh⟩ := h
  show date.day < 100 ∧ date.month < 100
  split at hhigh
  · split at hhigh <;> omega
  · split at hhigh
    · omega
    · split at hhigh <;> omega

end Date

namespace Numeral

/-- The characters of a padded number are digits. -/
theorem isDigit_of_mem_renderPadded {width n : Nat} {c : Char}
    (h : c ∈ (renderPadded width n).toList) : c.isDigit = true := by
  rw [renderPadded, String.toList_ofList, List.mem_append] at h
  rcases h with h | h
  · rw [(List.mem_replicate.1 h).2]
    rfl
  · exact Nat.isDigit_of_mem_toDigits (by decide) (by decide) h

/-- A padded number that fits has the width that it is padded to. -/
theorem length_renderPadded {width n : Nat} (hwidth : 0 < width) (h : n < Nat.pow 10 width) :
    (renderPadded width n).toList.length = width := by
  have hlen := (Nat.length_toDigits_le_iff (b := 10) (by decide) hwidth).2 h
  rw [renderPadded, String.toList_ofList, List.length_append, List.length_replicate]
  omega

/-- The zeros in front do not change the number. -/
theorem ofDigitChars_renderPadded (width n : Nat) :
    Nat.ofDigitChars 10 (renderPadded width n).toList 0 = n := by
  rw [renderPadded, String.toList_ofList, Nat.ofDigitChars_append,
    Nat.ofDigitChars_replicate_zero, Nat.mul_zero, Nat.ofDigitChars_ten_toDigits]

/-- The value of a digit. -/
theorem digitValue?_of_isDigit {c : Char} (h : c.isDigit = true) :
    digitValue? c = some (c.toNat - '0'.toNat) := by
  have hrange : 0x30 ≤ c.toNat ∧ c.toNat ≤ 0x39 := Char.isDigit_iff_toNat.1 h
  rw [digitValue?, if_pos hrange]
  rfl

end Numeral

namespace Rfc3339

open Numeral

/-- Reading as many digits as there are gives the number that they spell. -/
theorem takeDigits_append {digits : List Char} (h : ∀ c ∈ digits, c.isDigit = true) (n : Nat)
    (rest : List Char) :
    takeDigits digits.length n (digits ++ rest) = some (Nat.ofDigitChars 10 digits n, rest) := by
  induction digits generalizing n with
  | nil => rfl
  | cons c digits ih =>
    rw [List.cons_append, List.length_cons, takeDigits,
      digitValue?_of_isDigit (h c List.mem_cons_self), Option.bind_some,
      ih (fun c' hc' => h c' (List.mem_cons_of_mem c hc')), Nat.ofDigitChars_cons]

/-- A padded number is read back, whatever follows it. -/
theorem takeDigits_renderPadded {width n : Nat} (hwidth : 0 < width) (h : n < Nat.pow 10 width)
    (rest : List Char) :
    takeDigits width 0 ((renderPadded width n).toList ++ rest) = some (n, rest) := by
  have hdigits : ∀ c ∈ (renderPadded width n).toList, c.isDigit = true :=
    fun _ hc => isDigit_of_mem_renderPadded hc
  have hread := takeDigits_append hdigits 0 rest
  rwa [length_renderPadded hwidth h, ofDigitChars_renderPadded] at hread

/-- A fraction of at most so many digits as count is read in full, up to the first character
that is no digit. -/
theorem takeFraction_append {digits : List Char} (h : ∀ c ∈ digits, c.isDigit = true)
    (nanos places : Nat) {c : Char} (hc : digitValue? c = none) (rest : List Char) :
    takeFraction (digits.length + places) nanos (digits ++ c :: rest)
      = (Nat.ofDigitChars 10 digits nanos * Nat.pow 10 places, c :: rest) := by
  induction digits generalizing nanos with
  | nil =>
    rw [List.length_nil, Nat.zero_add, List.nil_append, takeFraction, hc]
    rfl
  | cons d digits ih =>
    rw [List.cons_append, List.length_cons, Nat.add_right_comm, takeFraction,
      digitValue?_of_isDigit (h d List.mem_cons_self), Nat.ofDigitChars_cons]
    exact ih (fun d' hd' => h d' (List.mem_cons_of_mem d hd')) _

/-- The characters of a stamped time, one part after another. -/
theorem toList_writeMillis (t : Instant) :
    (writeMillis t).toList =
      (writeYear (Date.ofDays (t.seconds / 86400)).year).toList ++ '-' ::
        ((renderPadded 2 (Date.ofDays (t.seconds / 86400)).month).toList ++ '-' ::
        ((renderPadded 2 (Date.ofDays (t.seconds / 86400)).day).toList ++ 'T' ::
        ((renderPadded 2 (t.secondOfDay / 3600)).toList ++ ':' ::
        ((renderPadded 2 (t.secondOfDay / 60 % 60)).toList ++ ':' ::
        ((renderPadded 2 (t.secondOfDay % 60 + t.nanos / nanosPerSecond)).toList ++ '.' ::
        ((renderPadded 3 (t.nanos % nanosPerSecond / 1000000)).toList ++ ['Z'])))))) := by
  simp [writeMillis, writeSeconds, String.toList_append]

/-- The characters of a padded number are not white space. -/
theorem isBlank_of_mem_renderPadded {width n : Nat} :
    ∀ c ∈ (renderPadded width n).toList, Text.isBlank c = false := by
  intro c hc
  have hdigit := Char.isDigit_iff_toNat.1 (isDigit_of_mem_renderPadded hc)
  have hlow : 0x30 ≤ c.toNat := hdigit.1
  have hhigh : c.toNat ≤ 0x39 := hdigit.2
  simp only [Text.isBlank, Bool.or_eq_false_iff, Bool.and_eq_false_iff, decide_eq_false_iff_not,
    beq_eq_false_iff_ne]
  omega

/-- The characters of a year, with or without a sign, are not white space. -/
theorem isBlank_of_mem_writeYear (year : Int) :
    ∀ c ∈ (writeYear year).toList, Text.isBlank c = false := by
  have hminus : ∀ c ∈ "-".toList, Text.isBlank c = false := by
    intro c hc
    obtain rfl : c = '-' := List.mem_singleton.1 hc
    decide
  have hplus : ∀ c ∈ "+".toList, Text.isBlank c = false := by
    intro c hc
    obtain rfl : c = '+' := List.mem_singleton.1 hc
    decide
  unfold writeYear
  split
  · rw [String.toList_append, List.forall_mem_append]
    exact ⟨hminus, isBlank_of_mem_renderPadded⟩
  · split
    · exact isBlank_of_mem_renderPadded
    · rw [String.toList_append, List.forall_mem_append]
      exact ⟨hplus, isBlank_of_mem_renderPadded⟩

/-- No character of a stamped time is white space. -/
theorem isBlank_of_mem_writeMillis (t : Instant) :
    ∀ c ∈ (writeMillis t).toList, Text.isBlank c = false := by
  rw [toList_writeMillis]
  simp only [List.forall_mem_append, List.forall_mem_cons]
  exact ⟨isBlank_of_mem_writeYear _, rfl, isBlank_of_mem_renderPadded, rfl,
    isBlank_of_mem_renderPadded, rfl, isBlank_of_mem_renderPadded, rfl,
    isBlank_of_mem_renderPadded, rfl, isBlank_of_mem_renderPadded, rfl,
    isBlank_of_mem_renderPadded, rfl, by simp⟩

/-- A date with a year of four digits is read back. -/
theorem readDate_append {date : Date} (hvalid : date.isValid = true) (hyear : 0 ≤ date.year)
    (hyear' : date.year ≤ 9999) (rest : List Char) :
    readDate ((writeYear date.year).toList ++ '-' :: ((renderPadded 2 date.month).toList ++ '-' ::
        ((renderPadded 2 date.day).toList ++ rest)))
      = some (date, rest) := by
  have hwrite : writeYear date.year = renderPadded 4 date.year.natAbs := by
    unfold writeYear
    rw [if_neg (by omega), if_pos hyear']
  have hbound : date.year.natAbs < Nat.pow 10 4 := by
    show date.year.natAbs < 10000
    omega
  obtain ⟨hday, hmonth⟩ := Date.lt_of_isValid hvalid
  have hcast : ((date.year.natAbs : Nat) : Int) = date.year := by omega
  simp only [readDate, hwrite, takeDigits_renderPadded (by decide : 0 < 4) hbound,
    takeDigits_renderPadded (by decide : 0 < 2) hmonth,
    takeDigits_renderPadded (by decide : 0 < 2) hday, skip, if_true, hcast, hvalid,
    Option.bind_eq_bind, Option.bind_some]

/-- A time of day is read back; second 60 is the last one of its minute. -/
theorem readTimeOfDay_append {second : Nat} (h : second < 86400) {leap : Bool}
    (hleap : leap = true → second % 60 = 59) (rest : List Char) :
    readTimeOfDay ((renderPadded 2 (second / 3600)).toList ++ ':' ::
        ((renderPadded 2 (second / 60 % 60)).toList ++ ':' ::
        ((renderPadded 2 (second % 60 + leap.toNat)).toList ++ rest)))
      = some (second, leap, rest) := by
  have hhour : second / 3600 < Nat.pow 10 2 := by
    show second / 3600 < 100
    omega
  have hminute : second / 60 % 60 < Nat.pow 10 2 := by
    show second / 60 % 60 < 100
    omega
  have hsecond : second % 60 + leap.toNat < Nat.pow 10 2 := by
    have := Bool.toNat_le leap
    show second % 60 + leap.toNat < 100
    omega
  have hrange : second / 3600 ≤ 23 ∧ second / 60 % 60 ≤ 59 ∧ second % 60 + leap.toNat ≤ 60 := by
    have := Bool.toNat_le leap
    omega
  -- A second 60 is taken as second 59, and the flag keeps what was written.
  have htotal : second / 3600 * 3600 + second / 60 % 60 * 60 + min (second % 60 + leap.toNat) 59
      = second := by
    cases leap with
    | false =>
      show _ + min (second % 60 + 0) 59 = second
      omega
    | true =>
      have := hleap rfl
      show _ + min (second % 60 + 1) 59 = second
      omega
  have hsixty : (second % 60 + leap.toNat == 60) = leap := by
    cases leap with
    | false =>
      rw [beq_eq_false_iff_ne]
      show second % 60 + 0 ≠ 60
      omega
    | true =>
      rw [beq_iff_eq, hleap rfl]
      rfl
  simp only [readTimeOfDay, takeDigits_renderPadded (by decide : 0 < 2) hhour,
    takeDigits_renderPadded (by decide : 0 < 2) hminute,
    takeDigits_renderPadded (by decide : 0 < 2) hsecond, skip, if_true, if_pos hrange, htotal,
    hsixty, Option.bind_eq_bind, Option.bind_some]

/-- A fraction of three digits is read back as nanoseconds. -/
theorem readFraction_append {millis : Nat} (h : millis < 1000) :
    readFraction ('.' :: ((renderPadded 3 millis).toList ++ ['Z']))
      = some (millis * 1000000, ['Z']) := by
  have hlen := length_renderPadded (by decide : 0 < 3) (show millis < Nat.pow 10 3 from h)
  have hdigits : ∀ c ∈ (renderPadded 3 millis).toList, c.isDigit = true :=
    fun _ hc => isDigit_of_mem_renderPadded hc
  -- Three digits leave six places of the nine, and the zone ends them.
  have hread := takeFraction_append hdigits 0 6 (by decide : digitValue? 'Z' = none) []
  rw [hlen, ofDigitChars_renderPadded] at hread
  cases hchars : (renderPadded 3 millis).toList with
  | nil =>
    rw [hchars] at hlen
    cases hlen
  | cons c chars =>
    rw [hchars] at hread hdigits
    rw [List.cons_append] at hread ⊢
    rw [readFraction, digitValue?_of_isDigit (hdigits c List.mem_cons_self), Option.map_some, hread]

/-- A text is read part after part. -/
theorem read?_of_parts {text : String} {date : Date} {afterDate afterTime afterFraction : List Char}
    {second nanos : Nat} {leap : Bool} {offset : Int}
    (hdate : readDate text.toList = some (date, 'T' :: afterDate))
    (htime : readTimeOfDay afterDate = some (second, leap, afterTime))
    (hfraction : readFraction afterTime = some (nanos, afterFraction))
    (hoffset : readOffset afterFraction = some offset) :
    read? text = Instant.ofParts? (date.toDays * 86400 + second - offset)
      (if leap then nanos + nanosPerSecond else nanos) := by
  unfold read?
  simp only [hdate, htime, hfraction, hoffset, Option.bind_eq_bind, Option.bind_some, true_or,
    if_true]

/-- The second that is written is one more in a leap second. -/
theorem nanos_div_eq (t : Instant) : t.nanos / nanosPerSecond = t.isLeap.toNat := by
  have hnanos := t.nanos_lt
  cases hleap : t.isLeap with
  | false =>
    have hlt : ¬ nanosPerSecond ≤ t.nanos := of_decide_eq_false hleap
    exact Nat.div_eq_of_lt (Nat.lt_of_not_le hlt)
  | true =>
    have hle : nanosPerSecond ≤ t.nanos := of_decide_eq_true hleap
    exact Nat.div_eq_of_lt_le (by rwa [Bool.toNat_true, Nat.one_mul]) hnanos

/-- An instant and the one that its text spells have the same text. -/
theorem writeMillis_written (t : Instant) : writeMillis t.written = writeMillis t := by
  obtain ⟨-, hsame⟩ | ⟨⟨-, hne⟩, hseconds, hnanos⟩ := t.written_cases
  · rw [hsame]
  · have hminute := t.minute_written
    have hday : t.written.seconds / 86400 = t.seconds / 86400 := by omega
    have hhour : t.written.secondOfDay / 3600 = t.secondOfDay / 3600 := by
      unfold Instant.secondOfDay
      omega
    have hminutes : t.written.secondOfDay / 60 % 60 = t.secondOfDay / 60 % 60 := by
      unfold Instant.secondOfDay
      omega
    -- The second that is added to the time of day is the one that the nanoseconds lose.
    have hsecond : t.written.secondOfDay % 60 + t.written.nanos / nanosPerSecond
        = t.secondOfDay % 60 + t.nanos / nanosPerSecond := by
      unfold Instant.secondOfDay
      unfold nanosPerSecond at *
      omega
    have hmillis : t.written.nanos % nanosPerSecond = t.nanos % nanosPerSecond := by
      unfold nanosPerSecond at *
      omega
    simp only [writeMillis, writeSeconds, hday, hhour, hminutes, hsecond, hmillis]

/-- The text of an instant of the years 0 to 9999 is read as the instant to the millisecond,
if a leap second is at the end of a minute. -/
theorem read?_writeMillis_of_minute_end {t : Instant} (hyear : 0 ≤ t.year)
    (hyear' : t.year ≤ 9999) (hend : t.isLeap = true → t.seconds % 60 = 59) :
    read? (writeMillis t) = some t.floorMillis := by
  have hsecond := t.secondOfDay_lt
  -- The second that is written is at most 60.
  have hleap : t.isLeap = true → t.secondOfDay % 60 = 59 := by
    intro h
    have := hend h
    unfold Instant.secondOfDay
    omega
  have hmillis : t.nanos % nanosPerSecond / 1000000 < 1000 := by
    rw [nanosPerSecond]
    omega
  have hseconds : ((Date.ofDays (t.seconds / 86400)).toDays * 86400 + t.secondOfDay - 0 : Int)
      = t.seconds := by
    rw [Date.toDays_ofDays]
    unfold Instant.secondOfDay
    omega
  -- The whole second in the nanoseconds of a leap second is written as second 60, and comes
  -- back from there.
  have hnanos : (if t.isLeap = true
      then t.nanos % nanosPerSecond / 1000000 * 1000000 + nanosPerSecond
      else t.nanos % nanosPerSecond / 1000000 * 1000000) = t.nanos / 1000000 * 1000000 := by
    have hdiv := nanos_div_eq t
    rw [nanosPerSecond] at hdiv ⊢
    cases hbool : t.isLeap with
    | false =>
      rw [hbool, Bool.toNat_false] at hdiv
      rw [if_neg Bool.false_ne_true]
      omega
    | true =>
      rw [hbool, Bool.toNat_true] at hdiv
      rw [if_pos rfl]
      omega
  have hdate := readDate_append (Date.isValid_ofDays (t.seconds / 86400)) hyear hyear'
  have htext := toList_writeMillis t
  rw [nanos_div_eq] at htext
  rw [read?_of_parts (by rw [htext, hdate]) (readTimeOfDay_append hsecond hleap _)
    (readFraction_append hmillis) (by decide : readOffset ['Z'] = some 0), hseconds, hnanos]
  exact t.ofParts?_floorMillis

/-- The text of an instant of the years 0 to 9999 is read as what it spells, to the
millisecond. -/
theorem read?_writeMillis {t : Instant} (hyear : 0 ≤ t.year) (hyear' : t.year ≤ 9999) :
    read? (writeMillis t) = some t.written.floorMillis := by
  rw [← writeMillis_written t]
  exact read?_writeMillis_of_minute_end (t.year_written ▸ hyear) (t.year_written ▸ hyear')
    t.written_minute_end

end Rfc3339

/-- The time field that is written for an instant of the years 0 to 9999 is read as what it
spells, to the millisecond. -/
theorem DataBlock.readTime?_writeMillis {t : Instant} (hyear : 0 ≤ t.year)
    (hyear' : t.year ≤ 9999) :
    readTime? (Utf8.encode (Rfc3339.writeMillis t)) = some t.written.floorMillis := by
  unfold readTime?
  rw [Utf8.decode?_encode, Option.bind_some,
    Text.trim_eq_self (Rfc3339.isBlank_of_mem_writeMillis t),
    Rfc3339.read?_writeMillis hyear hyear']

/-- A block to which a time of the years 0 to 9999 is given has the time that the text of this
one spells, to the millisecond. -/
theorem DataBlock.timestamp_setTime (block : DataBlock) {t : Instant} (hyear : 0 ≤ t.year)
    (hyear' : t.year ≤ 9999) : (block.setTime t).timestamp = .ok t.written.floorMillis := by
  simp only [timestamp, setTime, readTime?_writeMillis hyear hyear']

end SealedEnvelope
