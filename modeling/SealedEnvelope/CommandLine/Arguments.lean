/-!
# `SealedEnvelope.CommandLine.Arguments`: what is asked for on the command line

A setting is a flag, long or short, and its value in the next argument, whatever that is.
An argument that is no flag is an operand, unless it begins with two hyphens. Settings and
operands may stand in any order, and of a setting that is given twice the later value
counts.
-/

set_option autoImplicit false

namespace SealedEnvelope.CommandLine

/-- Something that an argument gives the value of. -/
inductive Setting where
  | prekey
  | signingKey
  | peerKey
  | cipherKey
  deriving DecidableEq, Repr

namespace Setting

/-- The flag of a setting. -/
def flag : Setting → String
  | prekey => "--prekey"
  | signingKey => "--signing-key"
  | peerKey => "--peer-key"
  | cipherKey => "--key"

/-- The short flag of a setting. -/
def shortFlag : Setting → String
  | prekey => "-p"
  | signingKey => "-s"
  | peerKey => "-P"
  | cipherKey => "-k"

/-- What the value of a setting is. -/
def noun : Setting → String
  | prekey => "prekey id"
  | signingKey => "signing key"
  | peerKey => "peer key"
  | cipherKey => "key"

/-- All settings. -/
def all : List Setting := [prekey, signingKey, peerKey, cipherKey]

/-- The setting that an argument is the flag of. -/
def ofFlag? (argument : String) : Option Setting :=
  all.find? fun setting => argument == setting.flag || argument == setting.shortFlag

end Setting

/-- Why arguments cannot be read. -/
inductive ArgumentError where
  /-- The arguments end with the flag of a setting. -/
  | valueMissing (setting : Setting)
  /-- An argument begins with two hyphens and is no flag. -/
  | unknownOption (argument : String)
  deriving DecidableEq, Repr

/-- The sentence that tells what is wrong. -/
def ArgumentError.message : ArgumentError → String
  | valueMissing setting => "missing " ++ setting.noun
  | unknownOption argument => "unknown option: " ++ argument

/-- What arguments ask for. -/
structure Arguments where
  value? : Setting → Option String := fun _ => none
  skipVerify : Bool := false
  operands : List String := []

namespace Arguments

/-- The arguments with a value in front of them, which counts if they have none. -/
def precededBy (arguments : Arguments) (setting : Setting) (value : String) : Arguments :=
  { arguments with
    value? := fun other =>
      if other = setting then some ((arguments.value? other).getD value) else arguments.value? other }

/-- The flag that leaves signatures unchecked. -/
def skipVerifyFlag : String := "--skip-verify"

/-- Whether an argument begins with two hyphens. -/
def isOption (argument : String) : Bool := ['-', '-'].isPrefixOf argument.toList

/-- Reads arguments. -/
def read : List String → Except ArgumentError Arguments
  | [] => .ok {}
  | argument :: rest =>
    match Setting.ofFlag? argument, rest with
    | some setting, [] => .error (.valueMissing setting)
    | some setting, value :: rest => (read rest).map (·.precededBy setting value)
    | none, rest =>
      if argument = skipVerifyFlag then (read rest).map ({ · with skipVerify := true })
      else if isOption argument then .error (.unknownOption argument)
      else (read rest).map fun read => { read with operands := argument :: read.operands }

end Arguments

end SealedEnvelope.CommandLine
