import SealedEnvelope.Call.Payload
import SealedEnvelope.Proofs.Json.Nesting
import SealedEnvelope.Proofs.Json.Records
import SealedEnvelope.Proofs.Outcome
import SealedEnvelope.Proofs.Text.Base64

/-!
# `SealedEnvelope.Proofs.Call.Payload`: requests and responses are read back

A reader looks each element up by its place, so that elements after the last one it needs make
no difference to it. A text that is empty stands for something of its own, but no JSON text is
empty.

A body that nests too deep is written like any other one, and refused where it is read.

A byte string has one base64 text only. So the status and the body of a response have one
spelling each, and the headers have as many as they have JSON texts, and an empty one if there
are none.

Main statements:

* `Payload.decodeRequest_encodeRequest`: a request is read back from its payload;
* `Payload.decodeRequest_of_maxDepth_lt`: a request that nests too deep is not, and
  `Payload.encode_decode_request` the two together;
* `Payload.decodeResponse_encodeResponse`: a response is;
* `Payload.decodeResponse_eq_ok_iff`: which payloads are read as a response;
* `Payload.encode_decode_response`: the last two together.
-/

set_option autoImplicit false

namespace SealedEnvelope

/-- The text of a value is not empty. -/
theorem JsonValue.bytes_ne_nil (v : JsonValue) : v.bytes ≠ [] := by
  obtain ⟨b, rest, hbegins, -⟩ := JsonReader.beginsValue_written v []
  rw [List.append_nil, ← JsonValue.bytes_eq] at hbegins
  rw [hbegins]
  exact List.cons_ne_nil b rest

namespace Payload

/-! ## Elements -/

/-- An element holds the bytes whose base64 text it is. -/
theorem unwrap_eq_ok_iff {text bytes : Bytes} :
    unwrap text = .ok bytes ↔ text = Base64.encode bytes := by
  rw [← Base64.decode?_eq_some_iff, unwrap]
  cases Base64.decode? text with
  | none => simp
  | some found => rw [Except.ok.injEq, Option.some.injEq]

/-- Bytes are found again in their base64 text. -/
theorem unwrap_encode (bytes : Bytes) : unwrap (Base64.encode bytes) = .ok bytes :=
  unwrap_eq_ok_iff.2 rfl

theorem element_zero (first : Bytes) (payload : List Bytes) (name : String) :
    element (first :: payload) 0 name = .ok first :=
  rfl

/-- The elements after the first one are those of the rest. -/
theorem element_succ (first : Bytes) (payload : List Bytes) (place : Nat) (name : String) :
    element (first :: payload) (place + 1) name = element payload place name :=
  rfl

/-- An element is there if the payload has it. -/
theorem element_eq_ok_iff {payload : List Bytes} {place : Nat} {name : String} {bytes : Bytes} :
    element payload place name = .ok bytes ↔ payload[place]? = some bytes := by
  rw [element]
  cases payload[place]? with
  | none => simp
  | some found => rw [Except.ok.injEq, Option.some.injEq]

/-- A payload with elements at the first three places begins with them. -/
theorem exists_eq_cons {payload : List Bytes} {first second third : Bytes}
    (hfirst : payload[0]? = some first) (hsecond : payload[1]? = some second)
    (hthird : payload[2]? = some third) :
    ∃ more, payload = first :: second :: third :: more := by
  match payload with
  | [] => cases hfirst
  | [_] => cases hsecond
  | [_, _] => cases hthird
  | a :: b :: c :: more =>
    cases hfirst
    cases hsecond
    cases hthird
    exact ⟨more, rfl⟩

/-! ## Requests -/

/-- The headers are read back, and the body if its JSON text is. -/
theorem decodeRequest_encodeRequest_eq (headers : Headers) (body : JsonValue) (more : List Bytes) :
    decodeRequest (encodeRequest headers body ++ more)
      = (CallError.onJson (JsonValue.read body.bytes)).map fun found => (headers, found) := by
  have hempty : ¬ body.bytes.isEmpty = true := fun h => body.bytes_ne_nil (List.isEmpty_iff.1 h)
  rw [decodeRequest, encodeRequest, List.cons_append, List.cons_append, element_zero, element_succ,
    element_zero]
  simp only [bind, Except.bind, unwrap_encode, Headers.whole_reading, CallError.onJson_ok, hempty]
  cases JsonValue.read body.bytes <;> rfl

/-- A request is read back from its payload, and from every payload that begins with it. -/
theorem decodeRequest_encodeRequest (headers : Headers) {body : JsonValue}
    (hcanonical : body.Canonical) (hintegral : body.Integral)
    (hdepth : body.depth ≤ JsonReader.maxDepth) (more : List Bytes) :
    decodeRequest (encodeRequest headers body ++ more) = .ok (headers, body) := by
  rw [decodeRequest_encodeRequest_eq, JsonValue.read_bytes hcanonical hintegral hdepth]
  rfl

/-- A request whose body nests too deep is refused for its JSON text, and so is every payload that
begins with it. -/
theorem decodeRequest_of_maxDepth_lt (headers : Headers) {body : JsonValue}
    (hdepth : JsonReader.maxDepth < body.depth) (more : List Bytes) :
    ∃ reason, decodeRequest (encodeRequest headers body ++ more) = .error (.json reason) := by
  rw [decodeRequest_encodeRequest_eq]
  cases hread : JsonValue.read body.bytes with
  | ok found => exact absurd (JsonValue.depth_le_of_read hread) (Nat.not_le.2 hdepth)
  | error fault => exact ⟨fault.message, rfl⟩

/-- Requests and payloads. A request is read back from its payload if all numbers in its body are
integers of at most 64 bits and the body nests at most 127 deep. A request whose body nests deeper,
whatever else there is in it, is refused for its JSON text. It makes no difference what elements
follow in the payload. -/
theorem encode_decode_request (headers : Headers) (more : List Bytes) :
    (∀ body : JsonValue, body.Canonical → body.Integral → body.depth ≤ 127 →
        decodeRequest (encodeRequest headers body ++ more) = .ok (headers, body))
      ∧ ∀ body : JsonValue, 128 ≤ body.depth →
          ∃ reason, decodeRequest (encodeRequest headers body ++ more) = .error (.json reason) := by
  constructor
  · intro body hcanonical hintegral hdepth
    exact decodeRequest_encodeRequest headers hcanonical hintegral hdepth more
  · intro body hdepth
    exact decodeRequest_of_maxDepth_lt headers hdepth more

/-- An array in an array, and so on, with nothing in the last one. -/
def nested : (depth : Nat) → JsonValue
  | 0 => .array []
  | depth + 1 => .array [nested depth]

theorem depth_nested (depth : Nat) : (nested depth).depth = depth + 1 := by
  induction depth with
  | zero => rfl
  | succ depth ih =>
    show max (nested depth).depth 0 + 1 = depth + 2
    rw [ih, Nat.max_eq_left (Nat.zero_le _)]

/-- A header whose name and value are not all letters. -/
def unusualHeaders : Headers := Headers.empty.insert "\u540d\u524d" "\"quoted\"\n\u0001\u00e9"

/-- The integers of both signs that are as far from zero as any, and brackets with nothing in them. -/
def unusualBody : JsonValue :=
  .array
    [.number (.integer (-9223372036854775808) (by decide)),
      .number (.integer 18446744073709551615 (by decide)), .object [("", .array []), ("\\", .null)]]

/-- A request that is read back, and one that nests one level too deep. -/
theorem encode_decode_request_unusual :
    decodeRequest (encodeRequest unusualHeaders unusualBody ++ [[0xFF]])
        = .ok (unusualHeaders, unusualBody)
      ∧ ∃ reason, decodeRequest (encodeRequest unusualHeaders (nested 127) ++ [[0xFF]])
          = .error (.json reason) := by
  obtain ⟨hread, hdeep⟩ := encode_decode_request unusualHeaders [[0xFF]]
  refine ⟨hread unusualBody ?_ ?_ (by decide),
    hdeep (nested 127) (Nat.le_of_eq (depth_nested 127).symm)⟩
  · refine .array _ (List.forall_mem_cons.2 ⟨.number _, List.forall_mem_cons.2 ⟨.number _,
      List.forall_mem_singleton.2 (.object _ (by decide) ?_)⟩⟩)
    exact List.forall_mem_cons.2 ⟨.array [] nofun, List.forall_mem_singleton.2 .null⟩
  · refine .array _ (List.forall_mem_cons.2 ⟨.integer _ _, List.forall_mem_cons.2 ⟨.integer _ _,
      List.forall_mem_singleton.2 (.object _ ?_)⟩⟩)
    exact List.forall_mem_cons.2 ⟨.array [] nofun, List.forall_mem_singleton.2 .null⟩

/-! ## Responses -/

/-- The eight bytes of a status are read as the status. -/
theorem readStatus_bigEndian (status : UInt16) :
    readStatus (bigEndian 8 status.toNat) = .ok status := by
  have hlt := status.toNat_lt_size
  have hnumber : ofBigEndian (bigEndian 8 status.toNat) = status.toNat := by
    rw [ofBigEndian_bigEndian]
    exact Nat.mod_eq_of_lt (Nat.lt_trans hlt (by decide))
  rw [readStatus, hnumber, if_pos ⟨length_bigEndian 8 _, hlt⟩, UInt16.ofNat_toNat]

/-- Bytes spell a status exactly if they are the eight bytes of it: a number above 65535 is
none. -/
theorem readStatus_eq_ok_iff {bytes : Bytes} {status : UInt16} :
    readStatus bytes = .ok status ↔ bytes = bigEndian 8 status.toNat := by
  refine ⟨fun h => ?_, fun h => h ▸ readStatus_bigEndian status⟩
  rw [readStatus] at h
  split at h
  · next hbytes =>
    obtain ⟨hlength, hlt⟩ := hbytes
    obtain rfl := Except.ok.inj h
    have hnumber : (UInt16.ofNat (ofBigEndian bytes)).toNat = ofBigEndian bytes := by
      rw [UInt16.toNat_ofNat']
      exact Nat.mod_eq_of_lt hlt
    rw [hnumber, ← hlength, bigEndian_ofBigEndian]
  · cases h

/-- Whether bytes stand for the headers of a response: none at all for no headers, or a JSON
text that is read as them. -/
def SpellsHeaders (text : Bytes) (headers : Headers) : Prop :=
  (text = [] ∧ headers = Headers.empty) ∨ JsonReader.whole Headers.reading text = .ok headers

/-- Three elements are read as the response that they spell, whatever follows them. -/
theorem decodeResponse_of_spells {response : HttpResponse} {text : Bytes}
    (h : SpellsHeaders text response.headers) (more : List Bytes) :
    decodeResponse (Base64.encode (bigEndian 8 response.status.toNat) :: Base64.encode text
        :: Base64.encode response.body :: more) = .ok response := by
  rw [decodeResponse, element_zero, element_succ, element_zero, element_succ, element_succ,
    element_zero]
  simp only [bind, Except.bind, unwrap_encode, readStatus_bigEndian]
  rcases h with ⟨rfl, hempty⟩ | hread
  · rw [if_pos (by rfl)]
    simp only [pure, Except.pure, ← hempty]
  · -- No JSON text is empty, so that these headers are not taken for none.
    have htext : ¬ text.isEmpty = true := by
      intro hnil
      rw [List.isEmpty_iff.1 hnil] at hread
      cases hread
    rw [if_neg htext]
    simp only [hread, CallError.onJson_ok]
    rfl

/-- A response is read back from its payload, and from every payload that begins with it. -/
theorem decodeResponse_encodeResponse (response : HttpResponse) (more : List Bytes) :
    decodeResponse (encodeResponse response ++ more) = .ok response :=
  decodeResponse_of_spells (.inr (Headers.whole_reading response.headers)) more

/-- A payload is read as a response exactly if its first three elements are the base64 texts of
the status, of bytes that stand for the headers, and of the body. -/
theorem decodeResponse_eq_ok_iff {payload : List Bytes} {response : HttpResponse} :
    decodeResponse payload = .ok response
      ↔ ∃ (text : Bytes) (more : List Bytes),
          payload = Base64.encode (bigEndian 8 response.status.toNat) :: Base64.encode text
              :: Base64.encode response.body :: more
            ∧ SpellsHeaders text response.headers := by
  constructor
  · intro h
    obtain ⟨first, hfirst, h₁⟩ := exists_of_bind_eq_ok h
    obtain ⟨second, hsecond, h₂⟩ := exists_of_bind_eq_ok h₁
    obtain ⟨third, hthird, h₃⟩ := exists_of_bind_eq_ok h₂
    obtain ⟨bytes, hbytes, h₄⟩ := exists_of_bind_eq_ok h₃
    obtain ⟨status, hstatus, h₅⟩ := exists_of_bind_eq_ok h₄
    obtain ⟨text, htext, h₆⟩ := exists_of_bind_eq_ok h₅
    obtain ⟨more, hpayload⟩ := exists_eq_cons (element_eq_ok_iff.1 hfirst)
      (element_eq_ok_iff.1 hsecond) (element_eq_ok_iff.1 hthird)
    rw [hpayload, unwrap_eq_ok_iff.1 hbytes, readStatus_eq_ok_iff.1 hstatus,
      unwrap_eq_ok_iff.1 htext]
    -- An empty text and any other lead to the headers in two ways, and to the body in one.
    cases text with
    | nil =>
      obtain ⟨headers, hheaders, h₇⟩ := exists_of_bind_eq_ok h₆
      obtain ⟨body, hbody, h₈⟩ := exists_of_bind_eq_ok h₇
      rw [unwrap_eq_ok_iff.1 hbody, ← Except.ok.inj h₈]
      exact ⟨[], more, rfl, .inl ⟨rfl, (Except.ok.inj hheaders).symm⟩⟩
    | cons b text =>
      obtain ⟨headers, hheaders, h₇⟩ := exists_of_bind_eq_ok h₆
      obtain ⟨body, hbody, h₈⟩ := exists_of_bind_eq_ok h₇
      rw [unwrap_eq_ok_iff.1 hbody, ← Except.ok.inj h₈]
      exact ⟨b :: text, more, rfl, .inr (CallError.onJson_eq_ok_iff.1 hheaders)⟩
  · rintro ⟨text, more, rfl, h⟩
    exact decodeResponse_of_spells h more

/-- Responses and payloads. Every response is read back from its payload. A payload is read as
a response exactly if it has three elements or more and the first three are the base64 texts of
the eight bytes of the status, of bytes that stand for the headers, and of the body. -/
theorem encode_decode_response :
    (∀ response : HttpResponse, decodeResponse (encodeResponse response) = .ok response)
      ∧ ∀ (payload : List Bytes) (response : HttpResponse),
          decodeResponse payload = .ok response
            ↔ ∃ (text : Bytes) (more : List Bytes),
                payload = Base64.encode (bigEndian 8 response.status.toNat) :: Base64.encode text
                    :: Base64.encode response.body :: more
                  ∧ SpellsHeaders text response.headers := by
  refine ⟨fun response => ?_, fun payload response => decodeResponse_eq_ok_iff⟩
  have h := decodeResponse_encodeResponse response []
  rwa [List.append_nil] at h

end Payload

end SealedEnvelope
