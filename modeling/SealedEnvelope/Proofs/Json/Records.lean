import Mathlib.Data.List.Nodup
import SealedEnvelope.Call.Body
import SealedEnvelope.Http.Message
import SealedEnvelope.Proofs.Json.RoundTrip

/-!
# `SealedEnvelope.Proofs.Json.Records`: headers and bodies are read back

Headers and the bodies of the handshake are JSON objects of strings. The members of a record
may come in any order, so one lemma serves the side that writes them as they are listed and
the side that writes them in the order of their names.

Main statements:

* `Headers.whole_reading`: headers are read back;
* `JsonReader.texts_written`: a record of texts is, in whatever order it is written, and with it
  the offer, the answer and the sealed request.
-/

set_option autoImplicit false

namespace SealedEnvelope

open Utf8 (encodeChars)
open JsonReader (Gathers)

/-! ## Members in the order of their names -/

/-- An entry with a key of its own is added to the others. -/
theorem Keyed.insert_perm {α : Type} {entries : List (String × α)} {key : String}
    (h : ∀ entry ∈ entries, entry.1 ≠ key) (value : α) :
    (Keyed.insert key value entries).Perm (entries ++ [(key, value)]) := by
  induction entries with
  | nil => exact .refl _
  | cons entry rest ih =>
    have hrest := ih fun other hother => h other (List.mem_cons_of_mem entry hother)
    unfold Keyed.insert
    split
    · exact (List.perm_append_singleton _ _).symm
    · rw [if_neg (h entry List.mem_cons_self).symm]
      exact hrest.cons entry

/-- Adding entries with keys of their own puts all of them in order. -/
theorem Keyed.foldl_insert {α : Type} {entries sorted : List (String × α)}
    (hascending : Keyed.Ascending sorted) (hkeys : ((sorted ++ entries).map Prod.fst).Nodup) :
    Keyed.Ascending (entries.foldl (fun sorted entry => Keyed.insert entry.1 entry.2 sorted) sorted)
      ∧ (entries.foldl (fun sorted entry => Keyed.insert entry.1 entry.2 sorted) sorted).Perm
        (sorted ++ entries) := by
  induction entries generalizing sorted with
  | nil =>
    rw [List.append_nil]
    exact ⟨hascending, .refl sorted⟩
  | cons entry entries ih =>
    have hfresh : ∀ other ∈ sorted, other.1 ≠ entry.1 := by
      intro other hother heq
      rw [List.map_append] at hkeys
      exact (List.nodup_append.1 hkeys).2.2 other.1 (List.mem_map_of_mem hother) entry.1
        List.mem_cons_self heq
    have hperm : (Keyed.insert entry.1 entry.2 sorted ++ entries).Perm (sorted ++ entry :: entries) := by
      have h := (Keyed.insert_perm hfresh entry.2).append_right entries
      rwa [List.append_assoc] at h
    obtain ⟨hsorted, hall⟩ := ih (hascending.insert entry.1 entry.2)
      ((hperm.map Prod.fst).nodup_iff.2 hkeys)
    exact ⟨hsorted, hall.trans hperm⟩

/-- The object of some members holds them in the order of their names. -/
theorem JsonValue.ofMembers_eq {ms sorted : List (String × JsonValue)}
    (hascending : Keyed.Ascending sorted) (hperm : sorted.Perm ms) :
    JsonValue.ofMembers ms = .object sorted := by
  have hkeys : (ms.map Prod.fst).Nodup := by
    rw [← (hperm.map Prod.fst).nodup_iff]
    exact (List.pairwise_map.2 (hascending.imp fun hlt => String.ne_of_lt hlt))
  have hkeys' : (([] ++ ms).map Prod.fst).Nodup := hkeys
  obtain ⟨hfold, hall⟩ := Keyed.foldl_insert List.Pairwise.nil hkeys'
  refine congrArg JsonValue.object (List.Perm.eq_of_pairwise ?_ hfold hascending
    (hall.trans hperm.symm))
  intro a b _ _ hlt hlt'
  exact absurd hlt' (String.lt_asymm hlt)

/-- The members of an object of strings. -/
def textMembers (entries : List (String × String)) : List (String × JsonValue) :=
  entries.map fun entry => (entry.1, .string entry.2)

namespace JsonReader

/-- A string that is asked for is read back. -/
theorem string_written (s : String) (rest : Bytes) :
    string (encodeChars (JsonValue.string s).chars ++ rest) = .ok (s, rest) := by
  rw [JsonValue.chars, encodeChars_quoteChars, string, skipBlanks_cons (by decide)]
  exact stringText_written s rest

end JsonReader

/-! ## Headers -/

namespace Headers

/-- Headers are gathered from the members that are written of them. -/
theorem gathers_reading {found last : Headers} {entries : List (String × String)}
    (hlast : last.entries = found.entries ++ entries) :
    Gathers (fun (found : Headers) name => .ok fun text =>
        (JsonReader.string text).map fun value => (found.insert name value.1, value.2))
      found (textMembers entries) last := by
  induction entries generalizing found with
  | nil =>
    rw [List.append_nil] at hlast
    obtain rfl := ext hlast
    exact .nil _
  | cons entry entries ih =>
    have hascending := last.ascending
    rw [hlast] at hascending
    obtain ⟨-, -, hbefore⟩ := List.pairwise_append.1 hascending
    have hinsert : (found.insert entry.1 entry.2).entries = found.entries ++ [(entry.1, entry.2)] :=
      Keyed.insert_eq_append (fun other hother => hbefore other hother entry List.mem_cons_self)
        entry.2
    have hlast' : last.entries = (found.insert entry.1 entry.2).entries ++ entries := by
      rw [hlast, hinsert, List.append_assoc, List.singleton_append]
    refine .cons rfl (fun rest _ => ?_) (ih hlast')
    show (JsonReader.string (encodeChars (JsonValue.string entry.2).chars ++ rest)).map _ = _
    rw [JsonReader.string_written]
    rfl

/-- Headers are read back. -/
theorem whole_reading (headers : Headers) :
    JsonReader.whole reading headers.toJson.bytes = .ok headers := by
  have hgathers : Gathers _ empty (textMembers headers.entries) headers := gathers_reading rfl
  have hmembers := JsonReader.members_of_gathers hgathers []
  have htext := JsonReader.encodeChars_object (textMembers headers.entries) []
  rw [List.append_nil] at htext
  refine JsonReader.whole_eq_ok ?_
  rw [JsonValue.bytes_eq]
  show reading (encodeChars (JsonValue.object (textMembers headers.entries)).chars) = _
  rw [htext, reading, JsonReader.skipBlanks_cons (by decide)]
  exact hmembers

/-- Headers as JSON are an object of strings, in the order of their names. -/
theorem canonical_toJson (headers : Headers) : headers.toJson.Canonical := by
  refine .object _ (List.pairwise_map.2 headers.ascending) fun m hm => ?_
  obtain ⟨entry, -, rfl⟩ := List.mem_map.1 hm
  exact .string entry.2

theorem integral_toJson (headers : Headers) : headers.toJson.Integral := by
  refine .object _ fun m hm => ?_
  obtain ⟨entry, -, rfl⟩ := List.mem_map.1 hm
  exact .string entry.2

theorem depth_toJson (headers : Headers) : headers.toJson.depth = 1 := by
  have hmembers : ∀ entries : List (String × String),
      JsonValue.membersDepth (textMembers entries) = 0 := by
    intro entries
    induction entries with
    | nil => rfl
    | cons entry entries ih =>
      show max (JsonValue.string entry.2).depth (JsonValue.membersDepth (textMembers entries)) = 0
      rw [ih]
      rfl
  show JsonValue.membersDepth (textMembers headers.entries) + 1 = 1
  rw [hmembers]

end Headers

/-! ## Records -/

namespace JsonReader

/-- A name of a record of texts is the name of a field of it. -/
theorem find?_text {names : List String} {name : String} (h : name ∈ names) :
    (names.map Field.text).find? (fun field => field.name == name) = some (.text name) := by
  induction names with
  | nil => cases h
  | cons first names ih =>
    by_cases heq : first = name
    · rw [List.map_cons, heq]
      exact List.find?_cons_of_pos (beq_self_eq_true name)
    · have hne : ((Field.text first).name == name) = false := beq_eq_false_iff_ne.2 heq
      rw [List.map_cons, List.find?_cons, hne]
      exact ih ((List.mem_cons.1 h).resolve_left (Ne.symm heq))

/-- The members of a record of texts are found in the order in which they are written. -/
theorem gathers_record {room : Nat} {names : List String} {found : List (String × JsonValue)}
    {entries : List (String × String)} (hnames : ∀ entry ∈ entries, entry.1 ∈ names)
    (hkeys : (entries.map Prod.fst).Nodup)
    (hfresh : ∀ entry ∈ entries, ∀ other ∈ found, other.1 ≠ entry.1) :
    Gathers (fieldMember room (names.map Field.text)) found (textMembers entries)
      ((textMembers entries).reverse ++ found) := by
  induction entries generalizing found with
  | nil => exact .nil found
  | cons entry entries ih =>
    obtain ⟨hkey, hkeys⟩ := List.nodup_cons.1 hkeys
    have hnone : ¬ (found.any fun other => other.1 == entry.1) = true := by
      rw [List.any_eq_true]
      rintro ⟨other, hother, heq⟩
      exact hfresh entry List.mem_cons_self other hother (eq_of_beq heq)
    have hmember : fieldMember room (names.map Field.text) found entry.1 = .ok fun text =>
        ((Field.text entry.1).reading room text).map fun v => ((entry.1, v.1) :: found, v.2) := by
      rw [fieldMember, find?_text (hnames entry List.mem_cons_self)]
      exact if_neg hnone
    have hfresh' : ∀ later ∈ entries, ∀ other ∈ (entry.1, .string entry.2) :: found,
        other.1 ≠ later.1 := by
      intro later hlater other hother
      rcases List.mem_cons.1 hother with rfl | hother
      · exact fun heq => hkey (List.mem_map.2 ⟨later, hlater, heq.symm⟩)
      · exact hfresh later (List.mem_cons_of_mem entry hlater) other hother
    have hrest := ih (fun later hlater => hnames later (List.mem_cons_of_mem entry hlater)) hkeys
      hfresh'
    rw [textMembers, List.map_cons, List.reverse_cons, List.append_assoc, List.singleton_append]
    refine .cons hmember (fun rest _ => ?_) hrest
    show (Except.map _ (Except.map _ (string (encodeChars (JsonValue.string entry.2).chars ++ rest))))
      = _
    rw [string_written]
    rfl

/-- Each field is found under its name. -/
theorem mapM_fieldValue {found : List (String × JsonValue)} {names values : List String}
    (hlength : names.length = values.length)
    (h : ∀ entry ∈ names.zip values,
      found.find? (fun other => other.1 == entry.1) = some (entry.1, .string entry.2)) :
    (names.map Field.text).mapM (fieldValue found) = .ok (values.map JsonValue.string) := by
  induction names generalizing values with
  | nil =>
    obtain rfl := List.eq_nil_of_length_eq_zero hlength.symm
    rfl
  | cons name names ih =>
    cases values with
    | nil => cases hlength
    | cons value values =>
      have hvalue : fieldValue found (.text name) = .ok (.string value) := by
        have hfind := h (name, value) List.mem_cons_self
        simp only [fieldValue, Field.name, hfind]
      have hrest := ih (Nat.succ.inj hlength)
        fun entry hentry => h entry (List.mem_cons_of_mem _ hentry)
      rw [List.map_cons, List.mapM_cons, hvalue]
      show ((names.map Field.text).mapM (fieldValue found) >>= _) = _
      rw [hrest]
      rfl

/-- An entry is found under its key if no two keys are the same. -/
theorem find?_textMembers {entries : List (String × String)} (hkeys : (entries.map Prod.fst).Nodup)
    {entry : String × String} (h : entry ∈ entries) :
    (textMembers entries).reverse.find? (fun other => other.1 == entry.1)
      = some (entry.1, .string entry.2) := by
  cases hfind : (textMembers entries).reverse.find? fun other => other.1 == entry.1 with
  | none =>
    have hmem : (entry.1, .string entry.2) ∈ (textMembers entries).reverse :=
      List.mem_reverse.2 (List.mem_map.2 ⟨entry, h, rfl⟩)
    exact absurd (beq_self_eq_true entry.1) (List.find?_eq_none.1 hfind _ hmem)
  | some found =>
    have hsame := List.find?_some hfind
    obtain ⟨other, hother, rfl⟩ :=
      List.mem_map.1 (List.mem_reverse.1 (List.mem_of_find?_eq_some hfind))
    rw [List.inj_on_of_nodup_map hkeys hother h (eq_of_beq hsame)]

/-- A record of texts is read back, in whatever order its members are written. -/
theorem texts_written {names values : List String} (hlength : names.length = values.length)
    (hnames : names.Nodup) {entries : List (String × String)}
    (hentries : entries.Perm (names.zip values)) (rest : Bytes) :
    texts names (encodeChars (JsonValue.object (textMembers entries)).chars ++ rest)
      = .ok (values, rest) := by
  have hfst : (names.zip values).map Prod.fst = names := List.map_fst_zip (Nat.le_of_eq hlength)
  have hkeys : (entries.map Prod.fst).Nodup := by
    rw [(hentries.map Prod.fst).nodup_iff, hfst]
    exact hnames
  have hmem : ∀ entry ∈ entries, entry.1 ∈ names := by
    intro entry hentry
    rw [← hfst]
    exact List.mem_map_of_mem (hentries.mem_iff.1 hentry)
  have hgathers : Gathers (fieldMember (maxDepth - 1) (names.map Field.text)) []
      (textMembers entries) ((textMembers entries).reverse ++ []) :=
    gathers_record hmem hkeys nofun
  have hmembers := members_of_gathers hgathers rest
  have hvalues : (names.map Field.text).mapM (fieldValue ((textMembers entries).reverse ++ []))
      = .ok (values.map JsonValue.string) := by
    refine mapM_fieldValue hlength fun entry hentry => ?_
    rw [List.append_nil]
    exact find?_textMembers hkeys (hentries.mem_iff.2 hentry)
  have hrecord : record (names.map Field.text)
      (encodeChars (JsonValue.object (textMembers entries)).chars ++ rest)
        = .ok (values.map JsonValue.string, rest) := by
    rw [encodeChars_object, record, skipBlanks_cons (by decide)]
    show (members stringText _ _ true [] _ >>= _) = _
    rw [hmembers]
    show ((names.map Field.text).mapM (fieldValue ((textMembers entries).reverse ++ [])) >>= _) = _
    rw [hvalues]
    rfl
  have htexts : (values.map JsonValue.string).filterMap JsonValue.text? = values := by
    rw [List.filterMap_map]
    exact List.filterMap_some
  rw [texts, hrecord]
  show Except.ok ((values.map JsonValue.string).filterMap JsonValue.text?, rest) = _
  rw [htexts]

end JsonReader

/-! ## The bodies of the handshake -/

/-- What is read of a body from what is written of it. -/
theorem JsonReader.texts_bytes (names values : List String) (hlength : names.length = values.length)
    (hnames : names.Nodup) {entries : List (String × String)}
    (hentries : entries.Perm (names.zip values)) :
    JsonReader.texts names (JsonValue.object (textMembers entries)).bytes = .ok (values, []) := by
  have htexts := JsonReader.texts_written hlength hnames hentries []
  rwa [List.append_nil, ← JsonValue.bytes_eq] at htexts

/-- An offer is written in the order of its members. -/
theorem Offer.ofMembers_members (offer : Offer) :
    JsonValue.ofMembers offer.members = .object (textMembers
      [("a0", offer.signing), ("a1", offer.first), ("a2", offer.second)]) :=
  JsonValue.ofMembers_eq (.of_keys ["a0", "a1", "a2"] rfl (by decide)) (.refl _)

/-- An offer is read back. -/
theorem Offer.reading_members (offer : Offer) :
    reading (JsonValue.ofMembers offer.members).bytes = .ok (offer, []) := by
  have htexts := JsonReader.texts_bytes ["a0", "a1", "a2"]
    [offer.signing, offer.first, offer.second] rfl (by decide)
    (.refl [("a0", offer.signing), ("a1", offer.first), ("a2", offer.second)])
  rw [reading, offer.ofMembers_members, htexts]
  rfl

/-- An answer is read back. -/
theorem Answer.reading_members (answer : Answer) :
    reading (JsonValue.object answer.members).bytes = .ok (answer, []) := by
  have hobject : JsonValue.object answer.members = .object (textMembers [("i", answer.index),
      ("b0", answer.signing), ("b1", answer.first), ("b2", answer.second)]) := rfl
  have htexts := JsonReader.texts_bytes ["i", "b0", "b1", "b2"]
    [answer.index, answer.signing, answer.first, answer.second] rfl (by decide)
    (.refl [("i", answer.index), ("b0", answer.signing), ("b1", answer.first),
      ("b2", answer.second)])
  rw [reading, hobject, htexts]
  rfl

/-- A sealed request is written with its envelope first. -/
theorem SealedRequest.ofMembers_members (request : SealedRequest) :
    JsonValue.ofMembers request.members = .object (textMembers
      [("d", request.envelope), ("i", request.index)]) :=
  JsonValue.ofMembers_eq (.of_keys ["d", "i"] rfl (by decide)) (.swap ..)

/-- A sealed request is read back. -/
theorem SealedRequest.reading_members (request : SealedRequest) :
    reading (JsonValue.ofMembers request.members).bytes = .ok (request, []) := by
  have htexts := JsonReader.texts_bytes ["i", "d"] [request.index, request.envelope] rfl (by decide)
    (.swap ("i", request.index) ("d", request.envelope) [])
  rw [reading, request.ofMembers_members, htexts]
  rfl

end SealedEnvelope
