import SealedEnvelope.Proofs.Json.NumberBytes

/-!
# `SealedEnvelope.Proofs.Json.RoundTrip`: JSON values are read back

A value is written without blanks and with the members of its objects in the order of their
names. It is read back as itself if its numbers are integers (`JsonValue.Integral`), which are
kept as they are, and if the reader has room for its nesting (`JsonValue.depth`).

The members of an object may be gathered into anything. `Gathers` says what they are gathered
into one after the other, and `members_of_gathers` that the reader gets there, for objects
here and for headers and records elsewhere.

Main statements:

* `JsonReader.value_written`: a value, whatever follows it;
* `JsonValue.read_bytes`: a value that is all there is.
-/

set_option autoImplicit false

namespace SealedEnvelope

open Utf8 (encodeChar encodeChars)

namespace JsonValue

/-- All numbers in a value are integers of at most 64 bits. -/
inductive Integral : JsonValue → Prop
  | null : Integral null
  | bool (b : Bool) : Integral (bool b)
  | integer (n : Int) (bounds : -9223372036854775808 ≤ n ∧ n < 18446744073709551616) :
    Integral (number (.integer n bounds))
  | string (s : String) : Integral (string s)
  | array (elements : List JsonValue) : (∀ v ∈ elements, Integral v) → Integral (array elements)
  | object (members : List (String × JsonValue)) :
    (∀ m ∈ members, Integral m.2) → Integral (object members)

mutual

/-- How deep arrays and objects nest in a value. -/
def depth : JsonValue → Nat
  | array elements => elementsDepth elements + 1
  | object members => membersDepth members + 1
  | _ => 0

/-- How deep they nest in elements. -/
def elementsDepth : List JsonValue → Nat
  | [] => 0
  | v :: rest => max v.depth (elementsDepth rest)

/-- How deep they nest in the values of members. -/
def membersDepth : List (String × JsonValue) → Nat
  | [] => 0
  | (_, v) :: rest => max v.depth (membersDepth rest)

end

theorem depth_le_elementsDepth {v : JsonValue} {elements : List JsonValue} (h : v ∈ elements) :
    v.depth ≤ elementsDepth elements := by
  induction elements with
  | nil => cases h
  | cons first rest ih =>
    rw [elementsDepth]
    rcases List.mem_cons.1 h with rfl | h
    · exact Nat.le_max_left ..
    · exact Nat.le_trans (ih h) (Nat.le_max_right ..)

theorem depth_le_membersDepth {m : String × JsonValue} {members : List (String × JsonValue)}
    (h : m ∈ members) : m.2.depth ≤ membersDepth members := by
  induction members with
  | nil => cases h
  | cons first rest ih =>
    rw [membersDepth]
    rcases List.mem_cons.1 h with rfl | h
    · exact Nat.le_max_left ..
    · exact Nat.le_trans (ih h) (Nat.le_max_right ..)

/-! ## What is written between the brackets -/

/-- The characters of a member. -/
def memberText (m : String × JsonValue) : List Char := quoteChars m.1 ++ ':' :: m.2.chars

theorem elementChars_cons (v : JsonValue) (rest : List JsonValue) :
    elementChars (v :: rest) = v.chars ++ rest.flatMap fun next => ',' :: next.chars := by
  induction rest generalizing v with
  | nil => rw [elementChars, List.flatMap_nil, List.append_nil]
  | cons next rest ih => rw [elementChars, ih, List.flatMap_cons, List.cons_append]

theorem memberChars_cons (m : String × JsonValue) (rest : List (String × JsonValue)) :
    memberChars (m :: rest) = memberText m ++ rest.flatMap fun next => ',' :: memberText next := by
  induction rest generalizing m with
  | nil => rw [memberChars, List.flatMap_nil, List.append_nil, memberText]
  | cons next rest ih =>
    rw [memberChars, ih, List.flatMap_cons, List.cons_append]
    rfl

/-- The bytes of a value are those of its characters. -/
theorem bytes_eq (v : JsonValue) : v.bytes = encodeChars v.chars := by
  rw [bytes, text, Utf8.encode, String.toList_ofList]
  rfl

end JsonValue

namespace JsonReader

/-- A text that begins with a byte that is no blank has no blanks in front. -/
theorem skipBlanks_cons {b : UInt8} (h : 0x20 < b.toNat) (rest : Bytes) :
    skipBlanks (b :: rest) = b :: rest := by
  refine List.dropWhile_cons_of_neg ?_
  simp only [Bool.or_eq_true, beq_iff_eq, not_or]
  refine ⟨⟨⟨?_, ?_⟩, ?_⟩, ?_⟩ <;> rintro rfl <;> exact absurd h (by decide)

/-! ## The front of a value -/

/-- Whether a text begins like a value: with no blank, no comma and no closing bracket. -/
def BeginsValue (text : Bytes) : Prop :=
  ∃ b rest, text = b :: rest ∧ 0x20 < b.toNat ∧ b ≠ 0x2C ∧ b ≠ 0x5D ∧ b ≠ 0x7D

/-- A value begins like one. -/
theorem beginsValue_written (v : JsonValue) (rest : Bytes) :
    BeginsValue (encodeChars v.chars ++ rest) := by
  cases v with
  | null => exact ⟨0x6E, _, rfl, by decide, by decide, by decide, by decide⟩
  | bool b =>
    cases b with
    | true => exact ⟨0x74, _, rfl, by decide, by decide, by decide, by decide⟩
    | false => exact ⟨0x66, _, rfl, by decide, by decide, by decide, by decide⟩
  | number n =>
    obtain ⟨b, bytes, htext, hb⟩ := n.exists_eq_cons
    obtain ⟨hblank, hcomma, hbracket, hbrace, -⟩ := NumberText.ne_of_isNumberByte b hb
    exact ⟨b, bytes ++ rest, congrArg (· ++ rest) htext, hblank, hcomma, hbracket, hbrace⟩
  | string s => exact ⟨0x22, _, rfl, by decide, by decide, by decide, by decide⟩
  | array elements => exact ⟨0x5B, _, rfl, by decide, by decide, by decide, by decide⟩
  | object members => exact ⟨0x7B, _, rfl, by decide, by decide, by decide, by decide⟩

theorem BeginsValue.skipBlanks {text : Bytes} (h : BeginsValue text) : skipBlanks text = text := by
  obtain ⟨b, rest, rfl, hblank, -⟩ := h
  exact skipBlanks_cons hblank rest

/-- A value that is no array and no object is read back. -/
theorem scalar_written {v : JsonValue} (h : v.Integral) (hdepth : v.depth = 0) {rest : Bytes}
    (hrest : Delimits rest) : scalar strict (encodeChars v.chars ++ rest) = .ok (v, rest) := by
  cases h with
  | null => rfl
  | bool b => cases b <;> rfl
  | integer n bounds =>
    have hnumber := strict_number_written n bounds hrest
    obtain ⟨b, digits, htext, hb⟩ := NumberText.renderInt_begins n
    change strict.number (encodeChars (Numeral.renderInt n).toList ++ rest) = _ at hnumber
    show scalar strict (encodeChars (Numeral.renderInt n).toList ++ rest) = _
    rw [htext, List.cons_append] at hnumber ⊢
    -- The first byte tells what kind of value it is.
    have hother : b ≠ 0x22 ∧ b ≠ 0x6E ∧ b ≠ 0x74 ∧ b ≠ 0x66 := by
      rcases hb with rfl | hdigit
      · decide
      · have hrange := NumberText.range_of_digit? hdigit
        refine ⟨?_, ?_, ?_, ?_⟩ <;> rintro rfl <;> revert hrange <;> decide
    rw [scalar, if_neg hother.1, if_neg hother.2.1, if_neg hother.2.2.1, if_neg hother.2.2.2,
      if_pos hb, hnumber]
    rfl
  | string s =>
    show scalar strict (encodeChars (quoteChars s) ++ rest) = _
    rw [encodeChars_quoteChars, scalar, if_pos rfl]
    show (stringText (encodeChars (s.toList.flatMap escapeChar) ++ 0x22 :: rest)).map _ = _
    rw [stringText_written]
    rfl
  | array elements helements => cases hdepth
  | object members hmembers => cases hdepth

/-! ## Arrays -/

/-- A value does not begin with a bracket that ends a list. -/
theorem BeginsValue.exists_ne_close {text : Bytes} (h : BeginsValue text) {close : UInt8}
    (hclose : close = 0x5D ∨ close = 0x7D) : ∃ b rest, text = b :: rest ∧ b ≠ close := by
  obtain ⟨b, rest, rfl, -, -, hbracket, hbrace⟩ := h
  refine ⟨b, rest, rfl, ?_⟩
  rcases hclose with rfl | rfl
  · exact hbracket
  · exact hbrace

/-- What comes before the first item of a list. -/
theorem nextItem_first {text : Bytes} (h : BeginsValue text) {close : UInt8}
    (hclose : close = 0x5D ∨ close = 0x7D) : nextItem close true text = .ok (some text, []) := by
  rw [nextItem, h.skipBlanks]
  obtain ⟨b, rest, rfl, hne⟩ := h.exists_ne_close hclose
  show (if b = close then _ else _) = _
  rw [if_neg hne, if_pos rfl]

/-- What comes before any other item. -/
theorem nextItem_comma {text : Bytes} (h : BeginsValue text) {close : UInt8}
    (hclose : close = 0x5D ∨ close = 0x7D) :
    nextItem close false (0x2C :: text) = .ok (some text, []) := by
  have hcomma : (0x2C : UInt8) ≠ close := by
    rcases hclose with rfl | rfl <;> decide
  rw [nextItem, skipBlanks_cons (by decide)]
  show (if (0x2C : UInt8) = close then _ else _) = _
  rw [if_neg hcomma, if_neg Bool.false_ne_true, if_pos rfl, h.skipBlanks]
  obtain ⟨b, rest, rfl, hne⟩ := h.exists_ne_close hclose
  show (if b = close then _ else _) = _
  rw [if_neg hne]

/-- What comes after the last item. -/
theorem nextItem_close {close : UInt8} (hclose : close = 0x5D ∨ close = 0x7D) (first : Bool)
    (rest : Bytes) : nextItem close first (close :: rest) = .ok (none, rest) := by
  have hblank : 0x20 < close.toNat := by
    rcases hclose with rfl | rfl <;> decide
  rw [nextItem, skipBlanks_cons hblank]
  exact if_pos rfl

/-- The bracket that ends an array. -/
theorem elements_close {α : Type} (element : Reading α) (steps : Nat) (first : Bool) (rest : Bytes) :
    elements element (steps + 1) first (0x5D :: rest) = .ok ([], rest) := by
  rw [elements, nextItem_close (Or.inl rfl)]
  rfl

/-- The brace that ends an object. -/
theorem members_close {σ : Type} (member : σ → String → Except Fault (Reading σ)) (steps : Nat)
    (first : Bool) (found : σ) (rest : Bytes) :
    members stringText member (steps + 1) first found (0x7D :: rest) = .ok (found, rest) := by
  rw [members, nextItem_close (Or.inr rfl)]
  rfl

theorem delimits_cons {b : UInt8} (h : b = 0x2C ∨ b = 0x5D ∨ b = 0x7D) (rest : Bytes) :
    Delimits (b :: rest) := by
  rintro b' ⟨⟩
  exact h

/-- What is written of the items after the first one. -/
theorem encodeChars_items {α : Type} (item : α) (items : List α) (text : α → List Char)
    (rest : Bytes) :
    encodeChars ((item :: items).flatMap fun item => ',' :: text item) ++ rest
      = 0x2C :: (encodeChars (text item)
        ++ (encodeChars (items.flatMap fun item => ',' :: text item) ++ rest)) := by
  rw [List.flatMap_cons, Utf8.encodeChars_append, List.append_assoc, Utf8.encodeChars_cons,
    List.append_assoc]
  rfl

/-- What follows an item: a comma and more items, or the bracket at the end. -/
theorem delimits_flatMap {α : Type} (items : List α) (text : α → List Char) {close : UInt8}
    (hclose : close = 0x5D ∨ close = 0x7D) (rest : Bytes) :
    Delimits (encodeChars (items.flatMap fun item => ',' :: text item) ++ close :: rest) := by
  cases items with
  | nil => exact delimits_cons (Or.inr hclose) rest
  | cons item items => exact delimits_cons (Or.inl rfl) _

section
variable {α : Type} {element : Reading α} {text : α → List Char}

/-- Whether a reading finds an item in what is written of it. -/
def ReadsBack (element : Reading α) (text : α → List Char) (item : α) : Prop :=
  (∀ rest, BeginsValue (encodeChars (text item) ++ rest))
    ∧ ∀ rest, Delimits rest → element (encodeChars (text item) ++ rest) = .ok (item, rest)

/-- The elements after the first one. -/
theorem elements_rest {items : List α} (h : ∀ item ∈ items, ReadsBack element text item) {steps : Nat}
    (hsteps : items.length < steps) (rest : Bytes) :
    elements element steps false
        (encodeChars (items.flatMap fun item => ',' :: text item) ++ 0x5D :: rest)
      = .ok (items, rest) := by
  induction items generalizing steps with
  | nil =>
    cases steps with
    | zero => cases hsteps
    | succ steps => exact elements_close element steps false rest
  | cons item items ih =>
    cases steps with
    | zero => cases hsteps
    | succ steps =>
      obtain ⟨hbegins, hreads⟩ := h item List.mem_cons_self
      have hlater := ih (fun item' hitem' => h item' (List.mem_cons_of_mem item hitem'))
        (Nat.lt_of_succ_lt_succ hsteps)
      have hdelimits := delimits_flatMap items text (Or.inl rfl : (0x5D : UInt8) = 0x5D ∨ _) rest
      rw [encodeChars_items, elements, nextItem_comma (hbegins _) (Or.inl rfl)]
      show (element _ >>= _) = _
      rw [hreads _ hdelimits]
      show (elements element steps false _ >>= _) = _
      rw [hlater]
      rfl

/-- The elements of an array. -/
theorem elements_written {item : α} {items : List α}
    (h : ∀ item' ∈ item :: items, ReadsBack element text item') {steps : Nat}
    (hsteps : items.length + 1 < steps) (rest : Bytes) :
    elements element steps true
        (encodeChars (text item ++ items.flatMap fun item => ',' :: text item) ++ 0x5D :: rest)
      = .ok (item :: items, rest) := by
  cases steps with
  | zero => cases hsteps
  | succ steps =>
    obtain ⟨hbegins, hreads⟩ := h item List.mem_cons_self
    have hlater := elements_rest (fun item' hitem' => h item' (List.mem_cons_of_mem item hitem'))
      (Nat.lt_of_succ_lt_succ hsteps) rest
    have hdelimits := delimits_flatMap items text (Or.inl rfl : (0x5D : UInt8) = 0x5D ∨ _) rest
    rw [Utf8.encodeChars_append, List.append_assoc, elements, nextItem_first (hbegins _) (Or.inl rfl)]
    show (element _ >>= _) = _
    rw [hreads _ hdelimits]
    show (elements element steps false _ >>= _) = _
    rw [hlater]
    rfl

/-- There are no more items than bytes. -/
theorem length_le_length_items (items : List α) (text : α → List Char) :
    items.length ≤ (encodeChars (items.flatMap fun item => ',' :: text item)).length := by
  induction items with
  | nil => exact Nat.le_refl 0
  | cons item items ih =>
    have hlength := congrArg List.length (encodeChars_items item items text [])
    rw [List.append_nil, List.append_nil, List.length_cons, List.length_append] at hlength
    rw [hlength, List.length_cons]
    omega

end

/-! ## Objects -/

section
variable {σ : Type}

/-- What the members of an object are gathered into, one after the other. -/
inductive Gathers (member : σ → String → Except Fault (Reading σ)) :
    σ → List (String × JsonValue) → σ → Prop
  | nil (found : σ) : Gathers member found [] found
  | cons {found next last : σ} {m : String × JsonValue} {ms : List (String × JsonValue)}
    {value : Reading σ} :
    member found m.1 = .ok value →
    (∀ rest, Delimits rest → value (encodeChars m.2.chars ++ rest) = .ok (next, rest)) →
    Gathers member next ms last → Gathers member found (m :: ms) last

variable {member : σ → String → Except Fault (Reading σ)}

/-- A member is its name in marks, a colon and its value. -/
theorem encodeChars_memberText (m : String × JsonValue) (rest : Bytes) :
    encodeChars (JsonValue.memberText m) ++ rest
      = 0x22 :: (encodeChars (m.1.toList.flatMap escapeChar)
        ++ 0x22 :: 0x3A :: (encodeChars m.2.chars ++ rest)) := by
  rw [JsonValue.memberText, Utf8.encodeChars_append, List.append_assoc, encodeChars_quoteChars]
  rfl

theorem beginsValue_memberText (m : String × JsonValue) (rest : Bytes) :
    BeginsValue (encodeChars (JsonValue.memberText m) ++ rest) := by
  rw [encodeChars_memberText]
  exact ⟨0x22, _, rfl, by decide, by decide, by decide, by decide⟩

/-- A colon has been found between the name and the value. -/
theorem afterColon_written (rest : Bytes) : afterColon (0x3A :: rest) = .ok rest := by
  rw [afterColon, skipBlanks_cons (by decide)]
  rfl

/-- One member, given what `nextItem` finds in front of it. -/
theorem members_step {found next last : σ} {m : String × JsonValue} {value : Reading σ}
    {first : Bool} {text tail rest : Bytes} {steps : Nat}
    (hnext : nextItem 0x7D first text
      = .ok (some (encodeChars (JsonValue.memberText m) ++ tail), []))
    (hmember : member found m.1 = .ok value)
    (hvalue : value (encodeChars m.2.chars ++ tail) = .ok (next, tail))
    (htail : members stringText member steps false next tail = .ok (last, rest)) :
    members stringText member (steps + 1) first found text = .ok (last, rest) := by
  rw [members, hnext, encodeChars_memberText]
  show (stringText (encodeChars (m.1.toList.flatMap escapeChar) ++ 0x22 :: _) >>= _) = _
  rw [stringText_written]
  show (member found m.1 >>= _) = _
  rw [hmember]
  show (afterColon (0x3A :: (encodeChars m.2.chars ++ tail)) >>= fun rest =>
    value rest >>= fun found => members stringText member steps false found.1 found.2) = _
  rw [afterColon_written]
  show (value (encodeChars m.2.chars ++ tail) >>= _) = _
  rw [hvalue]
  exact htail

/-- The members after the first one. -/
theorem members_rest {found last : σ} {ms : List (String × JsonValue)}
    (h : Gathers member found ms last) {steps : Nat} (hsteps : ms.length < steps) (rest : Bytes) :
    members stringText member steps false found
        (encodeChars (ms.flatMap fun m => ',' :: JsonValue.memberText m) ++ 0x7D :: rest)
      = .ok (last, rest) := by
  induction h generalizing steps with
  | nil found =>
    cases steps with
    | zero => cases hsteps
    | succ steps => exact members_close member steps false found rest
  | @cons found next last m ms value hmember hvalue _ ih =>
    cases steps with
    | zero => cases hsteps
    | succ steps =>
      rw [encodeChars_items]
      exact members_step (nextItem_comma (beginsValue_memberText m _) (Or.inr rfl)) hmember
        (hvalue _ (delimits_flatMap ms _ (Or.inr rfl) rest)) (ih (Nat.lt_of_succ_lt_succ hsteps))

/-- The members of an object are gathered up to its end. -/
theorem members_of_gathers {found last : σ} {ms : List (String × JsonValue)}
    (h : Gathers member found ms last) (rest : Bytes) :
    members stringText member ((encodeChars (JsonValue.memberChars ms) ++ 0x7D :: rest).length + 1)
        true found (encodeChars (JsonValue.memberChars ms) ++ 0x7D :: rest)
      = .ok (last, rest) := by
  cases h with
  | nil => exact members_close member _ true found rest
  | @cons _ next _ m ms value hmember hvalue hrest =>
    have hlength := length_le_length_items ms JsonValue.memberText
    have hsteps : ms.length < (encodeChars (JsonValue.memberText m)
        ++ (encodeChars (ms.flatMap fun next => ',' :: JsonValue.memberText next) ++ 0x7D :: rest)).length := by
      rw [List.length_append, List.length_append, List.length_cons]
      omega
    rw [JsonValue.memberChars_cons, Utf8.encodeChars_append, List.append_assoc]
    exact members_step (nextItem_first (beginsValue_memberText m _) (Or.inr rfl)) hmember
      (hvalue _ (delimits_flatMap ms _ (Or.inr rfl) rest)) (members_rest hrest hsteps rest)

end

/-! ## Values -/

/-- A value that begins with no bracket is read as one that is no array and no object. -/
theorem value_eq_scalar {b : UInt8} (hblank : 0x20 < b.toNat) (hbracket : b ≠ 0x5B)
    (hbrace : b ≠ 0x7B) (room : Nat) (rest : Bytes) :
    value strict room (b :: rest) = scalar strict (b :: rest) := by
  cases room with
  | zero =>
    rw [value, skipBlanks_cons hblank]
    split
    · next heq => exact absurd (List.cons.inj heq).1 hbracket
    · next heq => exact absurd (List.cons.inj heq).1 hbrace
    · rfl
  | succ room =>
    rw [value, skipBlanks_cons hblank]
    split
    · next heq => exact absurd (List.cons.inj heq).1 hbracket
    · next heq => exact absurd (List.cons.inj heq).1 hbrace
    · rfl

theorem value_of_scalar {text : Bytes} {v : JsonValue} {rest : Bytes} (hbegins : BeginsValue text)
    (h : scalar strict text = .ok (v, rest)) (room : Nat) :
    value strict room text = .ok (v, rest) := by
  obtain ⟨b, after, rfl, hblank, -⟩ := hbegins
  have hbracket : b ≠ 0x5B := by
    rintro rfl
    cases h
  have hbrace : b ≠ 0x7B := by
    rintro rfl
    cases h
  rw [value_eq_scalar hblank hbracket hbrace, h]

theorem value_of_depth_eq_zero {v : JsonValue} (h : v.Integral) (hdepth : v.depth = 0)
    {rest : Bytes} (hrest : Delimits rest) (room : Nat) :
    value strict room (encodeChars v.chars ++ rest) = .ok (v, rest) :=
  value_of_scalar (beginsValue_written v rest) (scalar_written h hdepth hrest) room

/-- An array is a bracket, its elements, and a bracket. -/
theorem encodeChars_array (items : List JsonValue) (rest : Bytes) :
    encodeChars (JsonValue.array items).chars ++ rest
      = 0x5B :: (encodeChars (JsonValue.elementChars items) ++ 0x5D :: rest) := by
  rw [JsonValue.chars, List.cons_append, Utf8.encodeChars_cons, Utf8.encodeChars_append,
    List.append_assoc, List.append_assoc]
  rfl

/-- An object is a brace, its members, and a brace. -/
theorem encodeChars_object (ms : List (String × JsonValue)) (rest : Bytes) :
    encodeChars (JsonValue.object ms).chars ++ rest
      = 0x7B :: (encodeChars (JsonValue.memberChars ms) ++ 0x7D :: rest) := by
  rw [JsonValue.chars, List.cons_append, Utf8.encodeChars_cons, Utf8.encodeChars_append,
    List.append_assoc, List.append_assoc]
  rfl

/-- A bracket opens an array, which takes one of the room. -/
theorem value_bracket (room : Nat) (rest : Bytes) :
    value strict (room + 1) (0x5B :: rest)
      = (elements (value strict room) (rest.length + 1) true rest).map fun found =>
          (.array found.1, found.2) := by
  rw [value, skipBlanks_cons (by decide)]
  rfl

/-- The value of a member is put among those that have been found. -/
def memberOf (room : Nat) (found : List (String × JsonValue)) (name : String) :
    Except Fault (Reading (List (String × JsonValue))) :=
  .ok fun text => (value strict room text).map fun v => (Keyed.insert name v.1 found, v.2)

/-- A brace opens an object, which takes one of the room. -/
theorem value_brace (room : Nat) (rest : Bytes) :
    value strict (room + 1) (0x7B :: rest)
      = (members stringText (memberOf room) (rest.length + 1) true [] rest).map fun found =>
          (.object found.1, found.2) := by
  rw [value, skipBlanks_cons (by decide)]
  rfl

/-- An array is read back if its elements are. -/
theorem value_array {items : List JsonValue} {room : Nat}
    (h : ∀ v ∈ items, ReadsBack (value strict room) JsonValue.chars v) (rest : Bytes) :
    value strict (room + 1) (encodeChars (JsonValue.array items).chars ++ rest)
      = .ok (.array items, rest) := by
  have hitems : elements (value strict room)
      ((encodeChars (JsonValue.elementChars items) ++ 0x5D :: rest).length + 1) true
      (encodeChars (JsonValue.elementChars items) ++ 0x5D :: rest) = .ok (items, rest) := by
    cases items with
    | nil => exact elements_close _ _ true rest
    | cons v items =>
      have hlength := length_le_length_items items JsonValue.chars
      rw [JsonValue.elementChars_cons]
      refine elements_written h ?_ rest
      rw [Utf8.encodeChars_append, List.length_append, List.length_append, List.length_cons]
      omega
  rw [encodeChars_array, value_bracket, hitems]
  rfl

/-- The members of an object are gathered into themselves. -/
theorem gathers_members {room : Nat} {found ms : List (String × JsonValue)}
    (hascending : Keyed.Ascending (found ++ ms))
    (h : ∀ m ∈ ms, ReadsBack (value strict room) JsonValue.chars m.2) :
    Gathers (memberOf room) found ms (found ++ ms) := by
  induction ms generalizing found with
  | nil =>
    rw [List.append_nil]
    exact .nil found
  | cons m ms ih =>
    -- The name comes after all that were found so far, and is put at their end.
    obtain ⟨-, -, hbefore⟩ := List.pairwise_append.1 hascending
    have hinsert := Keyed.insert_eq_append
      (fun entry hentry => hbefore entry hentry m List.mem_cons_self) m.2
    have hsplit : found ++ m :: ms = (found ++ [m]) ++ ms := by
      rw [List.append_assoc, List.singleton_append]
    rw [hsplit] at hascending ⊢
    refine .cons rfl (fun rest hrest => ?_)
      (ih hascending fun m' hm' => h m' (List.mem_cons_of_mem m hm'))
    rw [(h m List.mem_cons_self).2 rest hrest]
    show Except.ok (Keyed.insert m.1 m.2 found, rest) = _
    rw [hinsert]

theorem gathers_object {room : Nat} {ms : List (String × JsonValue)}
    (hascending : Keyed.Ascending ms)
    (h : ∀ m ∈ ms, ReadsBack (value strict room) JsonValue.chars m.2) :
    Gathers (memberOf room) [] ms ms :=
  gathers_members hascending h

/-- An object is read back if its values are. -/
theorem value_object {ms : List (String × JsonValue)} (hascending : Keyed.Ascending ms) {room : Nat}
    (h : ∀ m ∈ ms, ReadsBack (value strict room) JsonValue.chars m.2) (rest : Bytes) :
    value strict (room + 1) (encodeChars (JsonValue.object ms).chars ++ rest)
      = .ok (.object ms, rest) := by
  have hgathers := gathers_object hascending h
  have hmembers := members_of_gathers hgathers rest
  rw [encodeChars_object, value_brace, hmembers]
  rfl

/-- A value is read back, whatever follows it. -/
theorem value_written {v : JsonValue} (hcanonical : v.Canonical) (hintegral : v.Integral) {room : Nat}
    (hroom : v.depth ≤ room) {rest : Bytes} (hrest : Delimits rest) :
    value strict room (encodeChars v.chars ++ rest) = .ok (v, rest) := by
  -- Each bracket takes one of the room, so that the induction is on that.
  induction room generalizing v rest with
  | zero => exact value_of_depth_eq_zero hintegral (Nat.le_zero.1 hroom) hrest 0
  | succ room ih =>
    cases hcanonical with
    | null | bool | number | string => exact value_of_depth_eq_zero hintegral rfl hrest _
    | array items hcanonical =>
      cases hintegral with
      | array _ hintegral =>
        refine value_array (fun v hv => ⟨beginsValue_written v,
          fun rest hrest => ih (hcanonical v hv) (hintegral v hv) ?_ hrest⟩) rest
        exact Nat.le_trans (JsonValue.depth_le_elementsDepth hv) (Nat.le_of_succ_le_succ hroom)
    | object ms hascending hcanonical =>
      cases hintegral with
      | object _ hintegral =>
        refine value_object hascending (fun m hm => ⟨beginsValue_written m.2,
          fun rest hrest => ih (hcanonical m hm) (hintegral m hm) ?_ hrest⟩) rest
        exact Nat.le_trans (JsonValue.depth_le_membersDepth hm) (Nat.le_of_succ_le_succ hroom)

theorem delimits_nil : Delimits [] := nofun

/-- What a reading makes of a text that holds one thing and nothing else. -/
theorem whole_eq_ok {α : Type} {reading : Reading α} {text : Bytes} {found : α}
    (h : reading text = .ok (found, [])) : whole reading text = .ok found := by
  rw [whole, h]
  rfl

end JsonReader

/-- A value that is all there is in a text is read back. -/
theorem JsonValue.read_bytes {v : JsonValue} (hcanonical : v.Canonical) (hintegral : v.Integral)
    (hdepth : v.depth ≤ JsonReader.maxDepth) : JsonValue.read v.bytes = .ok v := by
  have hvalue := JsonReader.value_written hcanonical hintegral hdepth JsonReader.delimits_nil
  rw [List.append_nil, ← JsonValue.bytes_eq] at hvalue
  exact JsonReader.whole_eq_ok hvalue

end SealedEnvelope
