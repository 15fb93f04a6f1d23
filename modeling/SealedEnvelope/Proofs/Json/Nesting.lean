import SealedEnvelope.Proofs.Json.RoundTrip
import SealedEnvelope.Proofs.Outcome

/-!
# `SealedEnvelope.Proofs.Json.Nesting`: values that nest too deep are refused

The writer has no limit to how deep arrays and objects nest, and the reader has one. A value that
goes beyond it is refused, whatever else there is in it.

The reader goes through the text from the front, so it has to be shown that it gets to the bracket
that is one too many. It passes over every value before that bracket as it was written, except
that a number which is no integer may be read as another one, or only in part. What is left of
such a number cannot be gone on from: neither a comma nor a bracket is in it (`StopsAt`).

Main statements:

* `JsonReader.confines_value`: a value that is read nests no deeper than there is room for;
* `JsonValue.depth_le_of_read`: the same of a value that is all there is in a text.
-/

set_option autoImplicit false

namespace SealedEnvelope

open Utf8 (encodeChar encodeChars)
open NumberText (isNumberByte)

namespace JsonValue

/-! ## Depth -/

theorem elementsDepth_le {room : Nat} {items : List JsonValue} (h : ∀ v ∈ items, v.depth ≤ room) :
    elementsDepth items ≤ room := by
  induction items with
  | nil => exact Nat.zero_le room
  | cons v items ih =>
    rw [elementsDepth]
    exact Nat.max_le.2 ⟨h v List.mem_cons_self, ih fun v' hv' => h v' (List.mem_cons_of_mem v hv')⟩

theorem membersDepth_le {room : Nat} {ms : List (String × JsonValue)}
    (h : ∀ m ∈ ms, m.2.depth ≤ room) : membersDepth ms ≤ room := by
  induction ms with
  | nil => exact Nat.zero_le room
  | cons m ms ih =>
    rw [membersDepth]
    exact Nat.max_le.2 ⟨h m List.mem_cons_self, ih fun m' hm' => h m' (List.mem_cons_of_mem m hm')⟩

end JsonValue

namespace JsonReader

/-! ## Where a number leaves the reader -/

/-- Whether a reader that has read what was written before `rest` has come to `rest`, or else
stands within a number. -/
def StopsAt (rest after : Bytes) : Prop :=
  after = rest ∨ ∃ b text, after = b :: text ∧ isNumberByte b = true

/-- No item of a list begins within a number, and no list ends there. -/
theorem nextItem_of_isNumberByte {b : UInt8} (hb : isNumberByte b = true) {close : UInt8}
    (hclose : close = 0x5D ∨ close = 0x7D) (text : Bytes) :
    nextItem close false (b :: text) = .error .malformed := by
  obtain ⟨hblank, hcomma, hbracket, hbrace, -⟩ := NumberText.ne_of_isNumberByte b hb
  have hne : b ≠ close := by
    rcases hclose with rfl | rfl
    · exact hbracket
    · exact hbrace
  rw [nextItem, skipBlanks_cons hblank]
  show (if b = close then _ else _) = _
  rw [if_neg hne, if_neg Bool.false_ne_true, if_neg hcomma]

/-- The reader stops behind a number or within it. -/
theorem stopsAt_of_number {n found : JsonNumber} {rest after : Bytes} (hrest : Delimits rest)
    (h : strict.number (encodeChars n.text.toList ++ rest) = .ok (found, after)) :
    StopsAt rest after := by
  have hscan : ∃ number, NumberText.scan? (encodeChars n.text.toList ++ rest)
      = some (number, after) := by
    simp only [strict] at h
    split at h
    · cases h
    · next number after' hscan =>
      split at h
      · cases h
      · cases h
        exact ⟨number, hscan⟩
  obtain ⟨number, hscan⟩ := hscan
  obtain ⟨passed, htext, hpassed⟩ := NumberText.passes_scan? hscan
  -- What has been passed is the number and some of the rest, or else a part of the number.
  rcases List.append_eq_append_iff.1 htext with ⟨extra, hpassed', hrest'⟩ | ⟨extra, hwritten, hafter⟩
  · cases extra with
    | nil => exact Or.inl hrest'.symm
    | cons b extra =>
      have hb : isNumberByte b = true := by
        refine hpassed b ?_
        rw [hpassed']
        exact List.mem_append_right _ List.mem_cons_self
      obtain ⟨-, hcomma, hbracket, hbrace, -⟩ := NumberText.ne_of_isNumberByte b hb
      rw [hrest'] at hrest
      rcases hrest b rfl with heq | heq | heq
      · exact absurd heq hcomma
      · exact absurd heq hbracket
      · exact absurd heq hbrace
  · cases extra with
    | nil => exact Or.inl hafter
    | cons b extra =>
      refine Or.inr ⟨b, extra ++ rest, hafter, (IsNumberText.text n).isNumberByte_of_mem ?_⟩
      rw [hwritten]
      exact List.mem_append_right _ List.mem_cons_self

/-! ## Lists -/

section
variable {α : Type}

/-- Whether a reading that gets through what is written of a value has had the room for it. -/
def Confines (reading : Reading α) (room : Nat) (v : JsonValue) : Prop :=
  ∀ (rest : Bytes) (found : α) (after : Bytes), Delimits rest →
    reading (encodeChars v.chars ++ rest) = .ok (found, after) →
      v.depth ≤ room ∧ StopsAt rest after

variable {element : Reading α} {room : Nat}

/-- One element, given what `nextItem` finds in front of it. -/
theorem of_elements_step {v : JsonValue} (hv : Confines element room v) {first : Bool}
    {text tail after : Bytes} {steps : Nat} {found : List α} (htail : Delimits tail)
    (hnext : nextItem 0x5D first text = .ok (some (encodeChars v.chars ++ tail), []))
    (h : elements element (steps + 1) first text = .ok (found, after)) :
    v.depth ≤ room ∧ ∃ later, elements element steps false tail = .ok (later, after) := by
  rw [elements, hnext] at h
  change (element (encodeChars v.chars ++ tail) >>= fun first =>
    elements element steps false first.2 >>= fun later =>
      pure (first.1 :: later.1, later.2)) = _ at h
  obtain ⟨⟨value, middle⟩, hvalue, h⟩ := exists_of_bind_eq_ok h
  obtain ⟨⟨values, last⟩, hvalues, h⟩ := exists_of_bind_eq_ok h
  have hlast : last = after := (Prod.mk.inj (Except.ok.inj h)).2
  obtain ⟨hdepth, hstops⟩ := hv tail value middle htail hvalue
  rcases hstops with rfl | ⟨b, text', rfl, hb⟩
  · exact ⟨hdepth, values, hlast ▸ hvalues⟩
  · -- The reader stands within a number.
    cases steps with
    | zero => cases hvalues
    | succ steps =>
      rw [elements, nextItem_of_isNumberByte hb (Or.inl rfl)] at hvalues
      cases hvalues

/-- The elements after the first one. -/
theorem of_elements_rest {items : List JsonValue} (hitems : ∀ v ∈ items, Confines element room v)
    {steps : Nat} {rest after : Bytes} {found : List α}
    (h : elements element steps false
        (encodeChars (items.flatMap fun v => ',' :: v.chars) ++ 0x5D :: rest) = .ok (found, after)) :
    (∀ v ∈ items, v.depth ≤ room) ∧ after = rest := by
  induction items generalizing steps found with
  | nil =>
    cases steps with
    | zero => cases h
    | succ steps =>
      have hclose := (elements_close element steps false rest).symm.trans h
      exact ⟨nofun, (Prod.mk.inj (Except.ok.inj hclose)).2.symm⟩
  | cons v items ih =>
    cases steps with
    | zero => cases h
    | succ steps =>
      rw [encodeChars_items] at h
      have hnext := nextItem_comma (beginsValue_written v
        (encodeChars (items.flatMap fun v => ',' :: v.chars) ++ 0x5D :: rest))
        (Or.inl rfl : (0x5D : UInt8) = 0x5D ∨ _)
      obtain ⟨hdepth, later, hlater⟩ := of_elements_step (hitems v List.mem_cons_self)
        (delimits_flatMap items _ (Or.inl rfl) rest) hnext h
      obtain ⟨hdepths, hafter⟩ :=
        ih (fun v' hv' => hitems v' (List.mem_cons_of_mem v hv')) hlater
      exact ⟨List.forall_mem_cons.2 ⟨hdepth, hdepths⟩, hafter⟩

/-- The elements of an array. -/
theorem of_elements {items : List JsonValue} (hitems : ∀ v ∈ items, Confines element room v)
    {steps : Nat} {rest after : Bytes} {found : List α}
    (h : elements element (steps + 1) true
        (encodeChars (JsonValue.elementChars items) ++ 0x5D :: rest) = .ok (found, after)) :
    (∀ v ∈ items, v.depth ≤ room) ∧ after = rest := by
  cases items with
  | nil =>
    have hclose := (elements_close element steps true rest).symm.trans h
    exact ⟨nofun, (Prod.mk.inj (Except.ok.inj hclose)).2.symm⟩
  | cons v items =>
    rw [JsonValue.elementChars_cons, Utf8.encodeChars_append, List.append_assoc] at h
    have hnext := nextItem_first (beginsValue_written v
      (encodeChars (items.flatMap fun v => ',' :: v.chars) ++ 0x5D :: rest))
      (Or.inl rfl : (0x5D : UInt8) = 0x5D ∨ _)
    obtain ⟨hdepth, later, hlater⟩ := of_elements_step (hitems v List.mem_cons_self)
      (delimits_flatMap items _ (Or.inl rfl) rest) hnext h
    obtain ⟨hdepths, hafter⟩ :=
      of_elements_rest (fun v' hv' => hitems v' (List.mem_cons_of_mem v hv')) hlater
    exact ⟨List.forall_mem_cons.2 ⟨hdepth, hdepths⟩, hafter⟩

end

section
variable {σ : Type} {member : σ → String → Except Fault (Reading σ)} {room : Nat}

/-- One member, given what `nextItem` finds in front of it. -/
theorem of_members_step {m : String × JsonValue} {found last : σ}
    (hm : ∃ reading, member found m.1 = .ok reading ∧ Confines reading room m.2) {first : Bool}
    {text tail after : Bytes} {steps : Nat} (htail : Delimits tail)
    (hnext : nextItem 0x7D first text
      = .ok (some (encodeChars (JsonValue.memberText m) ++ tail), []))
    (h : members stringText member (steps + 1) first found text = .ok (last, after)) :
    m.2.depth ≤ room
      ∧ ∃ next, members stringText member steps false next tail = .ok (last, after) := by
  obtain ⟨reading, hmember, hconfines⟩ := hm
  rw [members, hnext, encodeChars_memberText] at h
  change (stringText (encodeChars (m.1.toList.flatMap escapeChar)
    ++ 0x22 :: 0x3A :: (encodeChars m.2.chars ++ tail)) >>= _) = _ at h
  rw [stringText_written] at h
  change (member found m.1 >>= fun value =>
    afterColon (0x3A :: (encodeChars m.2.chars ++ tail)) >>= fun rest =>
      value rest >>= fun found => members stringText member steps false found.1 found.2) = _ at h
  rw [hmember, afterColon_written] at h
  change (reading (encodeChars m.2.chars ++ tail) >>= _) = _ at h
  obtain ⟨⟨next, middle⟩, hvalue, hmembers⟩ := exists_of_bind_eq_ok h
  obtain ⟨hdepth, hstops⟩ := hconfines tail next middle htail hvalue
  rcases hstops with rfl | ⟨b, text', rfl, hb⟩
  · exact ⟨hdepth, next, hmembers⟩
  · -- The reader stands within a number.
    cases steps with
    | zero => cases hmembers
    | succ steps =>
      change members stringText member (steps + 1) false next (b :: text') = _ at hmembers
      rw [members, nextItem_of_isNumberByte hb (Or.inr rfl)] at hmembers
      cases hmembers

/-- The members after the first one. -/
theorem of_members_rest {ms : List (String × JsonValue)}
    (hms : ∀ m ∈ ms, ∀ found, ∃ reading, member found m.1 = .ok reading
      ∧ Confines reading room m.2)
    {steps : Nat} {found last : σ} {rest after : Bytes}
    (h : members stringText member steps false found
        (encodeChars (ms.flatMap fun m => ',' :: JsonValue.memberText m) ++ 0x7D :: rest)
      = .ok (last, after)) :
    (∀ m ∈ ms, m.2.depth ≤ room) ∧ after = rest := by
  induction ms generalizing steps found with
  | nil =>
    cases steps with
    | zero => cases h
    | succ steps =>
      have hclose := (members_close member steps false found rest).symm.trans h
      exact ⟨nofun, (Prod.mk.inj (Except.ok.inj hclose)).2.symm⟩
  | cons m ms ih =>
    cases steps with
    | zero => cases h
    | succ steps =>
      rw [encodeChars_items] at h
      have hnext := nextItem_comma (beginsValue_memberText m
        (encodeChars (ms.flatMap fun m => ',' :: JsonValue.memberText m) ++ 0x7D :: rest))
        (Or.inr rfl : (0x7D : UInt8) = 0x5D ∨ _)
      obtain ⟨hdepth, next, hlater⟩ := of_members_step (hms m List.mem_cons_self found)
        (delimits_flatMap ms _ (Or.inr rfl) rest) hnext h
      obtain ⟨hdepths, hafter⟩ := ih (fun m' hm' => hms m' (List.mem_cons_of_mem m hm')) hlater
      exact ⟨List.forall_mem_cons.2 ⟨hdepth, hdepths⟩, hafter⟩

/-- The members of an object. -/
theorem of_members {ms : List (String × JsonValue)}
    (hms : ∀ m ∈ ms, ∀ found, ∃ reading, member found m.1 = .ok reading
      ∧ Confines reading room m.2)
    {steps : Nat} {found last : σ} {rest after : Bytes}
    (h : members stringText member (steps + 1) true found
        (encodeChars (JsonValue.memberChars ms) ++ 0x7D :: rest) = .ok (last, after)) :
    (∀ m ∈ ms, m.2.depth ≤ room) ∧ after = rest := by
  cases ms with
  | nil =>
    have hclose := (members_close member steps true found rest).symm.trans h
    exact ⟨nofun, (Prod.mk.inj (Except.ok.inj hclose)).2.symm⟩
  | cons m ms =>
    rw [JsonValue.memberChars_cons, Utf8.encodeChars_append, List.append_assoc] at h
    have hnext := nextItem_first (beginsValue_memberText m
      (encodeChars (ms.flatMap fun m => ',' :: JsonValue.memberText m) ++ 0x7D :: rest))
      (Or.inr rfl : (0x7D : UInt8) = 0x5D ∨ _)
    obtain ⟨hdepth, next, hlater⟩ := of_members_step (hms m List.mem_cons_self found)
      (delimits_flatMap ms _ (Or.inr rfl) rest) hnext h
    obtain ⟨hdepths, hafter⟩ :=
      of_members_rest (fun m' hm' => hms m' (List.mem_cons_of_mem m hm')) hlater
    exact ⟨List.forall_mem_cons.2 ⟨hdepth, hdepths⟩, hafter⟩

end

/-! ## Values -/

/-- A number that is read may be followed by no more than what was written of it. -/
theorem confines_number (n : JsonNumber) (room : Nat) :
    Confines (value strict room) room (.number n) := by
  intro rest found after hrest h
  obtain ⟨b, bytes, htext, hb⟩ := n.exists_eq_cons
  obtain ⟨hblank, -, -, -, hbracket, hbrace, hmark, hn, ht, hf⟩ :=
    NumberText.ne_of_isNumberByte b hb
  change value strict room (encodeChars n.text.toList ++ rest) = _ at h
  rw [htext, List.cons_append, value_eq_scalar hblank hbracket hbrace, scalar, if_neg hmark,
    if_neg hn, if_neg ht, if_neg hf] at h
  split at h
  · obtain ⟨⟨number, middle⟩, hnumber, heq⟩ := exists_of_map_eq_ok h
    rw [← List.cons_append, ← htext] at hnumber
    have hmiddle : middle = after := (Prod.mk.inj heq).2
    exact ⟨Nat.zero_le room, hmiddle ▸ stopsAt_of_number hrest hnumber⟩
  · cases h

/-- A value that is read back as itself is followed by what was written after it. -/
theorem confines_of_depth_eq_zero {v : JsonValue} (h : v.Integral) (hdepth : v.depth = 0)
    (room : Nat) : Confines (value strict room) room v := by
  intro rest found after hrest hread
  rw [value_of_depth_eq_zero h hdepth hrest] at hread
  have hafter : rest = after := (Prod.mk.inj (Except.ok.inj hread)).2
  refine ⟨?_, Or.inl hafter.symm⟩
  rw [hdepth]
  exact Nat.zero_le room

/-- A value that is read nests no deeper than there is room for. -/
theorem confines_value (room : Nat) (v : JsonValue) : Confines (value strict room) room v := by
  -- Each bracket takes one of the room, so that the induction is on that.
  induction room generalizing v with
  | zero =>
    cases v with
    | null => exact confines_of_depth_eq_zero .null rfl 0
    | bool b => exact confines_of_depth_eq_zero (.bool b) rfl 0
    | number n => exact confines_number n 0
    | string s => exact confines_of_depth_eq_zero (.string s) rfl 0
    | array items =>
      intro rest found after hrest h
      rw [encodeChars_array, value, skipBlanks_cons (by decide)] at h
      cases h
    | object ms =>
      intro rest found after hrest h
      rw [encodeChars_object, value, skipBlanks_cons (by decide)] at h
      cases h
  | succ room ih =>
    cases v with
    | null => exact confines_of_depth_eq_zero .null rfl _
    | bool b => exact confines_of_depth_eq_zero (.bool b) rfl _
    | number n => exact confines_number n _
    | string s => exact confines_of_depth_eq_zero (.string s) rfl _
    | array items =>
      intro rest found after hrest h
      rw [encodeChars_array, value_bracket] at h
      obtain ⟨⟨values, last⟩, helements, heq⟩ := exists_of_map_eq_ok h
      obtain ⟨hdepths, hlast⟩ := of_elements (fun v _ => ih v) helements
      rw [JsonValue.depth]
      exact ⟨Nat.succ_le_succ (JsonValue.elementsDepth_le hdepths),
        Or.inl ((Prod.mk.inj heq).2.symm.trans hlast)⟩
    | object ms =>
      intro rest found after hrest h
      rw [encodeChars_object, value_brace] at h
      obtain ⟨⟨values, last⟩, hmembers, heq⟩ := exists_of_map_eq_ok h
      -- Where a value is put among the others makes no difference to what follows it.
      have hms : ∀ m ∈ ms, ∀ found, ∃ reading, memberOf room found m.1 = .ok reading
          ∧ Confines reading room m.2 := by
        intro m _ found
        refine ⟨_, rfl, ?_⟩
        intro rest found' after hrest h
        obtain ⟨⟨value, middle⟩, hvalue, heq⟩ := exists_of_map_eq_ok h
        have hmiddle : middle = after := (Prod.mk.inj heq).2
        exact hmiddle ▸ ih m.2 rest value middle hrest hvalue
      obtain ⟨hdepths, hlast⟩ := of_members hms hmembers
      rw [JsonValue.depth]
      exact ⟨Nat.succ_le_succ (JsonValue.membersDepth_le hdepths),
        Or.inl ((Prod.mk.inj heq).2.symm.trans hlast)⟩

end JsonReader

/-- A value that is all there is in a text is read only if the reader has room for it. -/
theorem JsonValue.depth_le_of_read {v found : JsonValue} (h : JsonValue.read v.bytes = .ok found) :
    v.depth ≤ JsonReader.maxDepth := by
  obtain ⟨⟨value, rest⟩, hvalue, -⟩ := exists_of_bind_eq_ok h
  rw [JsonValue.bytes_eq, ← List.append_nil (encodeChars v.chars)] at hvalue
  exact (JsonReader.confines_value JsonReader.maxDepth v [] value rest JsonReader.delimits_nil
    hvalue).1

end SealedEnvelope
