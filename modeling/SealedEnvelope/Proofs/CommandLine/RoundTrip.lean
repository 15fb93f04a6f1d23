import SealedEnvelope.CommandLine.Run
import SealedEnvelope.Proofs.CommandLine.Arguments
import SealedEnvelope.Proofs.Envelope.InTime
import SealedEnvelope.Proofs.Envelope.Size
import SealedEnvelope.Proofs.Handshake.PeerKeys

/-!
# `SealedEnvelope.Proofs.CommandLine.RoundTrip`: what is printed can be opened

The two commands that seal and open an envelope are the two functions of the library between a
reader of arguments and a writer of lines. Texts go into the payload as their bytes, and come out of
it as the texts that they were, because bytes that are text are read as it.

Main statements:

* `fst_pack_of_holds` and `unpack_of_holds`: either command once its arguments have been read;
* `run_opening_of_sealing`: an envelope is printed, and whoever gives it back in time with the keys
  that belong to it finds the payload printed, line by line.
-/

set_option autoImplicit false

namespace SealedEnvelope

namespace CommandLine

open Setting (prekey signingKey peerKey cipherKey)

/-- Hexadecimal text is no option in any spelling, because there is no hyphen in it. -/
theorem IsPlain.of_respells {spelling : String} {bytes : Bytes}
    (h : Text.Respells spelling (Hex.encode bytes)) : IsPlain spelling := by
  have hblank : Text.isBlank '-' = false := by decide
  have hdigit : ∀ n < 16, '-'.toLower ≠ Hex.digit n := by decide
  refine .of_not_mem fun hmem => ?_
  rcases h.isBlank_or_exists_digit hmem with hmem | ⟨n, hn, hmem⟩
  · rw [hblank] at hmem
    cases hmem
  · exact hdigit n hn hmem

/-! ## The commands -/

section
variable {s : Suite} {arguments : List String} {result : Arguments}

theorem readArguments_of_read (h : Arguments.read arguments = .ok result) :
    readArguments arguments = .ok result := by
  rw [readArguments, h]
  rfl

theorem needed_of_value? {setting : Setting} {value : String}
    (h : result.value? setting = some value) : needed result setting = .ok value := by
  rw [needed, h]

theorem readHexBytes_of_decode {text : String} {bytes : Bytes} (h : Hex.decode text = .ok bytes) :
    readHexBytes text = .ok bytes := by
  rw [readHexBytes, h]
  rfl

theorem onEnvelope_of_eq_ok {α : Type} {read : Except EnvelopeError α} {a : α} (h : read = .ok a) :
    onEnvelope read = .ok a := by
  rw [h]
  rfl

/-- The text of an envelope is the only operand, or else what is on the standard input. -/
def Presents (text : String) (input : Bytes) (operands : List String) : Prop :=
  operands = [text] ∨ operands = [] ∧ input = Utf8.encode text

theorem readEnvelope_of_presents {text : String} {input : Bytes} {operands : List String}
    (h : Presents text input operands) : readEnvelope input operands = .ok (Text.trim text) := by
  rcases h with rfl | ⟨rfl, rfl⟩
  · rfl
  · rw [readEnvelope, Utf8.decode?_encode]

/-- Sealing with the settings that were read makes the envelope of the operands. -/
theorem fst_pack_of_holds {now : Instant} {index signingText keyText : String}
    {operands : List String}
    (hread : Arguments.read arguments = .ok result)
    (hholds : result.Holds [(prekey, index), (signingKey, signingText), (cipherKey, keyText)] operands)
    {signingBytes : Bytes} (hsigningText : Hex.decode signingText = .ok signingBytes)
    {signing : SigningKey} (hsigning : SigningKey.ofBytes s signingBytes = .ok signing)
    {key : Bytes} (hkey : Hex.decode keyText = .ok key) {e : Entropy} {envelope : String}
    (hpack : (Envelope.pack s now index signing key (operands.map Utf8.encode) e).1 = .ok envelope) :
    (pack s now arguments e).1 = .ok (unlines [envelope]) := by
  have hindex := needed_of_value? (hholds.given prekey index (by simp))
  have hsigner := needed_of_value? (hholds.given signingKey signingText (by simp))
  have hcipher := needed_of_value? (hholds.given cipherKey keyText (by simp))
  have harguments := readArguments_of_read hread
  -- Whatever is read of the arguments draws nothing.
  have hlift {α : Type} {read : Except Fault α} {a : α} (h : read = .ok a) :
      (liftM read : Drawing Fault α) e = (.ok a, e) := Drawing.lift_eq_ok_iff.2 ⟨h, rfl⟩
  obtain ⟨e', hpack⟩ := Drawing.exists_of_fst_eq_ok hpack
  rw [← hholds.operands_eq] at hpack
  have hsigningBytes := hlift (readHexBytes_of_decode hsigningText)
  have hsigningKey := hlift (onEnvelope_of_eq_ok hsigning)
  have hkeyBytes := hlift (readHexBytes_of_decode hkey)
  -- The steps are those of the command, in their order.
  rw [pack, Drawing.bind_of_eq_ok (hlift harguments), Drawing.bind_of_eq_ok (hlift hindex),
    Drawing.bind_of_eq_ok (hlift hsigner), Drawing.bind_of_eq_ok hsigningBytes,
    Drawing.bind_of_eq_ok hsigningKey, Drawing.bind_of_eq_ok (hlift hcipher),
    Drawing.bind_of_eq_ok hkeyBytes, Drawing.bind_of_eq_ok (Drawing.mapError_of_eq_ok hpack _)]
  rfl

/-- Opening with the settings that were read prints the payload of the envelope. -/
theorem unpack_of_holds {now : Instant} {index peerText keyText text : String} {input : Bytes}
    {operands : List String}
    (hread : Arguments.read arguments = .ok result)
    (hholds : result.Holds [(prekey, index), (peerKey, peerText), (cipherKey, keyText)] operands)
    (hpresents : Presents text input operands)
    {peer : VerifyingKey} (hpeer : VerifyingKey.ofHex s peerText = .ok peer)
    {key : Bytes} (hkey : Hex.decode keyText = .ok key) {payload : List Bytes}
    (hunpack : Envelope.Opening.unpack s { prekey := index, peer := peer, key := key, now := now }
      (Text.trim text) = .ok payload) :
    unpack s now input arguments = .ok (unlines (payload.map Utf8.decodeLossy)) := by
  have hindex := needed_of_value? (hholds.given prekey index (by simp))
  have hverifier := needed_of_value? (hholds.given peerKey peerText (by simp))
  have hcipher := needed_of_value? (hholds.given cipherKey keyText (by simp))
  have harguments := readArguments_of_read hread
  have htext : readEnvelope input result.operands = .ok (Text.trim text) := by
    rw [hholds.operands_eq]
    exact readEnvelope_of_presents hpresents
  simp only [unpack, harguments, hindex, hverifier, onEnvelope_of_eq_ok hpeer, hcipher,
    readHexBytes_of_decode hkey, htext, hholds.verifies, onEnvelope_of_eq_ok hunpack, bind, Except.bind]
  rfl

end

/-! ## A run and another one -/

variable {s : Suite}

theorem unlines_singleton (line : String) : unlines [line] = line ++ "\n" := by
  simp [unlines, String.join]

theorem fst_run_pack {now : Instant} {input : Bytes} {arguments : List String} {e : Entropy}
    {output : String} (h : (pack s now arguments e).1 = .ok output) :
    (run s now input ("pack" :: arguments) e).1 = { output := output } := by
  have hrun : (run s now input ("pack" :: arguments) e).1
      = Ending.ofResult (pack s now arguments e).1 := rfl
  rw [hrun, h]
  rfl

theorem run_unpack {now : Instant} {input : Bytes} {arguments : List String} {output : String}
    (h : unpack s now input arguments = .ok output) (e : Entropy) :
    run s now input ("unpack" :: arguments) e = ({ output := output }, e) := by
  have hrun : run s now input ("unpack" :: arguments) e
      = (Ending.ofResult (unpack s now input arguments), e) := rfl
  rw [hrun, h]
  rfl

/-- The standard input is asked for if there is no operand. -/
theorem asksForInput_unpack {arguments : List String} {result : Arguments}
    (h : Arguments.read arguments = .ok result) :
    asksForInput ("unpack" :: arguments) = result.operands.isEmpty := by
  rw [asksForInput, h]

/-- A command line that seals a payload: it gives the prekey, the signing key and the cipher key, and
each element of the payload as an operand. -/
structure SealingLine (s : Suite) (signing : SigningKey) (key : BlockKey) (index : String)
    (payload : List String) where
  signingText : String
  signingBytes : Bytes
  keyText : String
  arguments : List String
  signing_decodes : Hex.decode signingText = .ok signingBytes
  signing_is_key : SigningKey.ofBytes s signingBytes = .ok signing
  key_decodes : Hex.decode keyText = .ok key.val
  plain : ∀ argument ∈ payload, IsPlain argument
  gives : Gives [(prekey, index), (signingKey, signingText), (cipherKey, keyText)] payload arguments

/-- A command line that opens an envelope: it gives the same prekey and cipher key and the public key
of the signer, and the envelope in any spelling, as an operand or on the standard input. -/
structure OpeningLine (s : Suite) (signing : SigningKey) (key : BlockKey)
    (index envelope : String) where
  peerText : String
  keyText : String
  text : String
  input : Bytes
  operands : List String
  arguments : List String
  peer_spells : Text.Respells peerText (signing.verifyingKey s).hex
  key_decodes : Hex.decode keyText = .ok key.val
  text_spells : Text.Respells text envelope
  presents : Presents text input operands
  gives : Gives [(prekey, index), (peerKey, peerText), (cipherKey, keyText)] operands arguments

theorem OpeningLine.plain {signing : SigningKey} {key : BlockKey} {index : String} {bytes : Bytes}
    (line : OpeningLine s signing key index (Hex.encode bytes)) :
    ∀ operand ∈ line.operands, IsPlain operand := by
  rcases line.presents with hoperand | ⟨hnone, -⟩
  · rw [hoperand, List.forall_mem_singleton]
    exact .of_respells line.text_spells
  · rw [hnone]
    exact nofun

/-- Sealing prints one line, the text of an envelope, and nothing else. Whoever opens that with the
keys that belong to it, at most 299 seconds later, has the payload printed: its texts in order, each
of them followed by the end of a line. The standard input is asked for only if the envelope is no
operand. -/
theorem run_opening_of_sealing (hdeciphers : s.Deciphers) {signing : SigningKey}
    (haccepts : s.AcceptsOwn signing.seed) (hpoint : s.isPoint (s.signingPublic signing.seed) = true)
    {key : BlockKey} {index : String} {payload : List String}
    (sealing : SealingLine s signing key index payload) {now : Instant} (hnow : now.isLeap = false)
    (hyear : 0 ≤ now.year) (hyear' : now.year ≤ 9999)
    (hsize : Envelope.valueLength index (payload.map Utf8.encode) < LengthValue.ceiling)
    {e : Entropy} (he : e.has 48 = true) (input : Bytes) :
    ∃ envelope : String,
      (∀ c ∈ envelope.toList, c ∈ "0123456789abcdef".toList)
        ∧ (run s now input ("pack" :: sealing.arguments) e).1 = { output := envelope ++ "\n" }
        ∧ ∀ (opening : OpeningLine s signing key index envelope) (later : Instant),
            later.isLeap = false → later.unixNanos - now.unixNanos ≤ 299 * nanosPerSecond →
              asksForInput ("unpack" :: opening.arguments) = opening.operands.isEmpty
                ∧ ∀ e', run s later opening.input ("unpack" :: opening.arguments) e'
                    = ({ output := unlines payload }, e') := by
  obtain ⟨result, hread, hholds⟩ := sealing.gives.exists_read (by simp) sealing.plain
  have hcipherKey : BlockKey.ofBytes? key.val = some key := dif_pos key.property
  obtain ⟨bytes, hpack, -⟩ := Envelope.exists_pack_of_lt signing hyear hyear' hcipherKey he hsize
  refine ⟨Hex.encode bytes, fun c hc => Envelope.mem_digits_of_mem_encode hc, ?_, ?_⟩
  · have hsealed := fst_pack_of_holds hread hholds sealing.signing_decodes sealing.signing_is_key
      sealing.key_decodes hpack
    rw [unlines_singleton] at hsealed
    exact fst_run_pack hsealed
  · intro opening later hlater hage
    obtain ⟨result', hread', hholds'⟩ := opening.gives.exists_read (by simp) opening.plain
    have hpeer : VerifyingKey.ofHex s opening.peerText = .ok (signing.verifyingKey s) :=
      VerifyingKey.ofHex_of_spells ⟨opening.peer_spells, hpoint⟩
    let o : Envelope.Opening :=
      { prekey := index, peer := signing.verifyingKey s, key := key.val, now := later }
    have hopened : o.unpack s (Text.trim opening.text) = .ok (payload.map Utf8.encode) :=
      (Envelope.Opening.unpack_pack_eq_ok_iff (o := o) hdeciphers haccepts rfl hpack
        opening.text_spells.trim).2 ⟨rfl, Envelope.inTime_of_le hnow hyear hyear' hlater hage⟩
    have hprinted := unpack_of_holds hread' hholds' opening.presents hpeer opening.key_decodes hopened
    -- The bytes of a text are read as the text.
    have hlines : (payload.map Utf8.encode).map Utf8.decodeLossy = payload := by
      simp [Function.comp_def]
    rw [hlines] at hprinted
    refine ⟨?_, run_unpack hprinted⟩
    rw [asksForInput_unpack hread', hholds'.operands_eq]

/-- Three texts are sealed, one of them empty and one that looks like a short flag, for a prekey that
looks like a flag. -/
def sealedTexts : SealingLine .twoSigners ⟨FixedBytes.ofPrefix 32 []⟩ ⟨List.replicate 16 7, .inl rfl⟩
    "--key" ["", "é", "-x"] where
  signingText := String.ofList (List.replicate 64 '0')
  signingBytes := List.replicate 32 0
  keyText := "07070707070707070707070707070707"
  arguments := ["", "-p", "--key", "é", "--signing-key", String.ofList (List.replicate 64 '0'), "-x",
    "-k", "07070707070707070707070707070707"]
  signing_decodes := Hex.decode_eq_ok_iff.2 (by decide +kernel)
  signing_is_key := rfl
  key_decodes := Hex.decode_eq_ok_iff.2 (by decide +kernel)
  plain := by decide +kernel
  gives := ⟨_, .refl _, .operand "" (.setting prekey "--key" (.inr rfl) (.operand "é"
    (.setting signingKey _ (.inl rfl) (.operand "-x" (.setting cipherKey _ (.inr rfl) .nil)))))⟩

/-- They are opened from the standard input, where a line end follows the envelope. -/
def openedTexts (envelope : String) : OpeningLine .twoSigners ⟨FixedBytes.ofPrefix 32 []⟩
    ⟨List.replicate 16 7, .inl rfl⟩ "--key" envelope where
  peerText := (SigningKey.verifyingKey .twoSigners ⟨FixedBytes.ofPrefix 32 []⟩).hex
  keyText := "07070707070707070707070707070707"
  text := envelope ++ "\n"
  input := Utf8.encode (envelope ++ "\n")
  operands := []
  arguments := ["--key", "07070707070707070707070707070707", "-P",
    (SigningKey.verifyingKey .twoSigners ⟨FixedBytes.ofPrefix 32 []⟩).hex, "--prekey", "--key"]
  peer_spells := Text.Respells.refl _
  key_decodes := Hex.decode_eq_ok_iff.2 (by decide +kernel)
  text_spells := ⟨[], envelope.toList, ['\n'], by simp, nofun, List.forall_mem_singleton.2 (by decide),
    rfl⟩
  presents := .inr ⟨rfl, rfl⟩
  gives := by
    refine ⟨_, List.reverse_perm _, ?_⟩
    exact .setting cipherKey _ (.inl rfl)
      (.setting peerKey _ (.inr rfl) (.setting prekey _ (.inl rfl) .nil))

/-- Nine seconds later the three texts are printed. -/
theorem run_opening_of_sealing_threeTexts :
    ∃ envelope : String,
      (run .twoSigners (.ofUnixNanos 1700000000123456789) [] ("pack" :: sealedTexts.arguments)
          (.ofBytes (List.replicate 48 9))).1 = { output := envelope ++ "\n" }
        ∧ ∀ e', run .twoSigners (.ofUnixNanos 1700000009000000000) (Utf8.encode (envelope ++ "\n"))
            ("unpack" :: (openedTexts envelope).arguments) e' = ({ output := "\né\n-x\n" }, e') := by
  have hpoint : Suite.twoSigners.isPoint (Suite.twoSigners.signingPublic (FixedBytes.ofPrefix 32 []))
      = true := by
    decide +kernel
  have hnow : (Instant.ofUnixNanos 1700000000123456789).isLeap = false := by decide +kernel
  have hyear : 0 ≤ (Instant.ofUnixNanos 1700000000123456789).year := by decide +kernel
  have hyear' : (Instant.ofUnixNanos 1700000000123456789).year ≤ 9999 := by decide +kernel
  have hsize : Envelope.valueLength "--key" (["", "é", "-x"].map Utf8.encode) < LengthValue.ceiling := by
    decide +kernel
  obtain ⟨envelope, -, hsealed, hopened⟩ := run_opening_of_sealing Suite.twoSigners_deciphers
    Suite.twoSigners_acceptsOwn_zero hpoint sealedTexts hnow hyear hyear' hsize
    (e := .ofBytes (List.replicate 48 9)) (by decide) []
  refine ⟨envelope, hsealed, ?_⟩
  exact (hopened (openedTexts envelope) (.ofUnixNanos 1700000009000000000) (by decide +kernel)
    (by decide +kernel)).2

end CommandLine

end SealedEnvelope
