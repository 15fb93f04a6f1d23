import SealedEnvelope.CommandLine.Arguments
import SealedEnvelope.CommandLine.Outline
import SealedEnvelope.Handshake.Bundle
import SealedEnvelope.Json.Writer
import SealedEnvelope.Text.Blank

/-!
# `SealedEnvelope.CommandLine.Run`: the commands

`run` takes the arguments and what is on the standard input, and gives what is written and
whether the command failed. A command that fails writes nothing but the reason.

An envelope is read from the first operand, or from the standard input if there is none.
The blanks around it do not matter. Keys other than that of the peer may have no blanks
around them.
-/

set_option autoImplicit false

namespace SealedEnvelope.CommandLine

/-- Why a command fails. -/
inductive Fault where
  | arguments (error : ArgumentError)
  /-- A setting that the command needs is not given. -/
  | settingMissing (setting : Setting)
  /-- A key or an envelope is not hexadecimal. -/
  | hex (error : Hex.Error)
  /-- An envelope is not made or not opened. -/
  | envelope (error : EnvelopeError)
  /-- The standard input is no text. -/
  | inputNotText
  deriving DecidableEq, Repr

/-- The sentence that tells what is wrong. -/
def Fault.message : Fault → String
  | arguments error => error.message
  | settingMissing setting => "missing " ++ setting.flag
  | hex .oddLength => "Odd number of digits"
  | hex (.invalidDigit byte position) =>
    "Invalid character " ++ Quoted.character (Char.ofNat byte.toNat) ++ " at position "
      ++ Numeral.render position
  | envelope error => error.message
  | inputNotText => "stream did not contain valid UTF-8"

/-- Lines as text, each with an end. -/
def unlines (lines : List String) : String := String.join (lines.map (· ++ "\n"))

/-! ## Reading what is given -/

/-- A result of the arguments as one of a command. -/
def readArguments (arguments : List String) : Except Fault Arguments :=
  (Arguments.read arguments).mapError .arguments

/-- The value of a setting that the command needs. -/
def needed (arguments : Arguments) (setting : Setting) : Except Fault String :=
  match arguments.value? setting with
  | some value => .ok value
  | none => .error (.settingMissing setting)

/-- The bytes of a hexadecimal text. -/
def readHexBytes (text : String) : Except Fault Bytes := (Hex.decode text).mapError .hex

/-- A result of envelopes as one of a command. -/
def onEnvelope {α : Type} (result : Except EnvelopeError α) : Except Fault α :=
  result.mapError .envelope

/-- The text of an envelope. -/
def readEnvelope (input : Bytes) : List String → Except Fault String
  | operand :: _ => .ok (Text.trim operand)
  | [] =>
    match Utf8.decode? input with
    | some text => .ok (Text.trim text)
    | none => .error .inputNotText

/-! ## The commands -/

/-- Fresh keys as JSON: the public ones that make an offer, and the secrets behind them. -/
def keysJson (s : Suite) (bundle : Bundle) : JsonValue :=
  .ofMembers
    [("signing_seed", .string (Hex.encode bundle.signing.seed.val)),
      ("a1_secret", .string (Hex.encode bundle.first.secret.val)),
      ("a2_secret", .string (Hex.encode bundle.second.secret.val)),
      ("a0", .string (bundle.offer s).signing),
      ("a1", .string (bundle.offer s).first),
      ("a2", .string (bundle.offer s).second)]

/-- Makes fresh keys. -/
def keygen (s : Suite) : List String → Drawing Fault String
  | argument :: _ => throw (.arguments (.unknownOption argument))
  | [] => do
    let bundle ← Drawing.mapError .envelope Bundle.draw
    return unlines [(keysJson s bundle).pretty]

/-- Seals the operands. -/
def pack (s : Suite) (now : Instant) (arguments : List String) : Drawing Fault String := do
  let arguments ← readArguments arguments
  let prekey ← needed arguments .prekey
  let signing ← needed arguments .signingKey
  let signing ← readHexBytes signing
  let signing ← onEnvelope (SigningKey.ofBytes s signing)
  let key ← needed arguments .cipherKey
  let key ← readHexBytes key
  let payload := arguments.operands.map Utf8.encode
  let envelope ← Drawing.mapError .envelope (Envelope.pack s now prekey signing key payload)
  return unlines [envelope]

/-- Opens an envelope. -/
def unpack (s : Suite) (now : Instant) (input : Bytes) (arguments : List String) :
    Except Fault String := do
  let arguments ← readArguments arguments
  let prekey ← needed arguments .prekey
  let peer ← needed arguments .peerKey
  let peer ← onEnvelope (VerifyingKey.ofHex s peer)
  let key ← needed arguments .cipherKey
  let key ← readHexBytes key
  -- A key that cannot be read is told before the envelope is looked at.
  let text ← readEnvelope input arguments.operands
  let opening : Envelope.Opening :=
    { prekey := prekey, peer := peer, key := key, now := now, skipVerify := arguments.skipVerify }
  let payload ← onEnvelope (opening.unpack s text)
  return unlines (payload.map Utf8.decodeLossy)

/-- Tells what an envelope shows without a key. -/
def inspect (input : Bytes) (arguments : List String) : Except Fault String := do
  let text ← readEnvelope input arguments
  let bytes ← readHexBytes text
  let outline ← onEnvelope (EnvelopeError.onWire (Outline.ofBytes bytes))
  return unlines outline.lines

/-! ## A run -/

/-- The name and the version of the program. -/
def version : String := "dxenv 0.1.0"

/-- How the program is used. -/
def usage : String := unlines
  ["dxenv: signed + encrypted LV envelopes",
    "",
    "USAGE:",
    "    dxenv <COMMAND> [OPTIONS]",
    "",
    "COMMANDS:",
    "    keygen      Print fresh handshake keys (public and secret) as JSON",
    "    pack        Seal UTF-8 payload strings into a hex envelope",
    "    unpack      Open a hex envelope and print its payload",
    "    inspect     Show envelope structure (no decryption)",
    "",
    "EXAMPLES:",
    "    # Seal two payload LVs",
    "    dxenv pack \\",
    "        --prekey 9f2c \\",
    "        --signing-key <ed25519 seed hex> \\",
    "        --key <32-byte AES key hex> \\",
    "        '\x7b\"Content-Type\":\"application/json\"\x7d' '\x7b\"hello\":\"world\"\x7d'",
    "",
    "    # Open it again",
    "    dxenv unpack \\",
    "        --prekey 9f2c \\",
    "        --peer-key <ed25519 public hex> \\",
    "        --key <32-byte AES key hex> \\",
    "        <envelope hex>",
    "",
    "OPTIONS:",
    "    -h, --help       Print help",
    "    -V, --version    Print version",
    ""]

/-- What a run leaves behind. -/
structure Ending where
  output : String := ""
  errors : String := ""
  failed : Bool := false
  deriving DecidableEq, Repr

namespace Ending

/-- The number by which a caller is told whether the run failed. -/
def exitCode (ending : Ending) : UInt32 := if ending.failed then 1 else 0

/-- The end of a command. -/
def ofResult : Except Fault String → Ending
  | .ok output => { output := output }
  | .error fault => { errors := unlines ["error: " ++ fault.message], failed := true }

end Ending

/-- The end of a run whose first argument names no command. -/
def unknownCommand (name : String) : Ending where
  errors := unlines ["error: unknown command '" ++ name ++ "'"] ++ usage
    ++ unlines ["error: unknown command"]
  failed := true

/-- Runs the program on the standard input and the arguments. -/
def run (s : Suite) (now : Instant) (input : Bytes) : List String → StateM Entropy Ending
  | [] => return { errors := usage, failed := true }
  | "keygen" :: arguments => return .ofResult (← (keygen s arguments).run)
  | "pack" :: arguments => return .ofResult (← (pack s now arguments).run)
  | "unpack" :: arguments => return .ofResult (unpack s now input arguments)
  | "inspect" :: arguments => return .ofResult (inspect input arguments)
  | "--help" :: _ | "-h" :: _ => return { errors := usage }
  | "--version" :: _ | "-V" :: _ => return { output := unlines [version] }
  | name :: _ => return unknownCommand name

/-- Whether the program asks for the standard input. -/
def asksForInput : List String → Bool
  | "unpack" :: arguments =>
    match Arguments.read arguments with
    | .ok arguments => arguments.operands.isEmpty
    | .error _ => false
  | "inspect" :: arguments => arguments.isEmpty
  | _ => false

end SealedEnvelope.CommandLine
