/-!
# `SealedEnvelope.Http.Target`: what a request asks for

The target of a request has one of four forms: a path on the server that is asked
(`/health?x=1`), a whole address (`http://gw.test/health`), an authority alone
(`gw.test:80`) and the asterisk, which stands for the server itself.
`RequestTarget.ofText?` reads all four and refuses everything else. A fragment is
dropped unread.
-/

set_option autoImplicit false

namespace SealedEnvelope

/-- What a request asks for. The path is empty if the target is an authority alone. -/
structure RequestTarget where
  scheme : Option String := none
  authority : Option String := none
  path : String
  query : Option String := none
  deriving DecidableEq, Repr

namespace RequestTarget

/-- The largest number of bytes of a target. -/
def maxLength : Nat := 65534

/-- The largest number of characters of a scheme. -/
def maxSchemeLength : Nat := 64

/-- The largest number of colons that are counted together: seven in an address of eight
groups, and one before a port. -/
def maxColons : Nat := 8

/-- Whether a character may stand in a scheme, at any place in it. The tilde may, as it may
in every other part of an address. -/
def isSchemeChar (c : Char) : Bool := c.isAlphanum || "+-.~".toList.contains c

/-- Whether a character may stand in an authority without a meaning of its own. -/
def isAuthorityChar (c : Char) : Bool := c.isAlphanum || "!$&'()*+,-.;=_~".toList.contains c

/-- Whether a character is neither the blank nor one of the controls of ASCII. -/
def isPrinted (c : Char) : Bool := ' ' < c && c != '\x7F'

/-- Whether a character may stand in a path. -/
def isPathChar (c : Char) : Bool := isPrinted c && !"<>`?#".toList.contains c

/-- Whether a character may stand in a query. -/
def isQueryChar (c : Char) : Bool := isPrinted c && c != '\x22' && !"<>#".toList.contains c

/-- The scheme of a text, and what follows the `://` after it. -/
def splitScheme? (text : List Char) : Option (List Char × List Char) :=
  match text.dropWhile isSchemeChar with
  | ':' :: '/' :: '/' :: rest => some (text.takeWhile isSchemeChar, rest)
  | _ => none

/-- What is known of an authority after some of its characters. Colons and percent signs
are counted from the last `@` or `]`, since before it they belong to a name with its
password or to an address in brackets. -/
structure AuthorityScan where
  colons : Nat := 0
  hasPercent : Bool := false
  isOpened : Bool := false
  isClosed : Bool := false

/-- What is known after one more character. -/
def AuthorityScan.next? (s : AuthorityScan) (c : Char) : Option AuthorityScan :=
  match c with
  | ':' => if s.colons < maxColons then some { s with colons := s.colons + 1 } else none
  | '[' => if s.hasPercent || s.isOpened then none else some { s with isOpened := true }
  | ']' =>
    if s.isOpened && !s.isClosed then
      some { s with isClosed := true, colons := 0, hasPercent := false }
    else none
  | '@' => some { s with colons := 0, hasPercent := false }
  | '%' => some { s with hasPercent := true }
  | c => if isAuthorityChar c then some s else none

/-- Whether a text is an authority: perhaps a name and a password, then a host, which may
be an address in brackets, then perhaps a port. -/
def isAuthority (text : List Char) : Bool :=
  match text.foldlM AuthorityScan.next? {} with
  | none => false
  | some s =>
    s.isOpened == s.isClosed && s.colons ≤ 1 && !s.hasPercent
      && text != [] && text.getLast? != some '@'

/-- Whether a character ends an authority. -/
def endsAuthority (c : Char) : Bool := c == '/' || c == '?' || c == '#'

/-- The path of a text, and its query if a question mark announces one. -/
def splitQuery? (text : List Char) : Option (String × Option String) :=
  let text := text.takeWhile (· != '#')
  let path := text.takeWhile (· != '?')
  if !path.all isPathChar then none
  else
    match text.dropWhile (· != '?') with
    | [] => some (String.ofList path, none)
    | _ :: query =>
      if query.all isQueryChar then some (String.ofList path, some (String.ofList query)) else none

/-- The target that a text names. -/
def ofText? (text : String) : Option RequestTarget :=
  let chars := text.toList
  if maxLength < text.utf8ByteSize then none
  else if chars = ['*'] then some { path := "*" }
  else if chars.head? = some '/' then
    (splitQuery? chars).map fun place => { path := place.1, query := place.2 }
  else
    match splitScheme? chars with
    | none => if isAuthority chars then some { authority := some text, path := "" } else none
    | some (scheme, rest) =>
      let authority := rest.takeWhile (!endsAuthority ·)
      if maxSchemeLength < scheme.length || !isAuthority authority then none
      else
        (splitQuery? (rest.dropWhile (!endsAuthority ·))).map fun place =>
          { scheme := some (String.ofList scheme), authority := some (String.ofList authority)
            -- An address without a path names the root of its server.
            path := if place.1 = "" then "/" else place.1, query := place.2 }

end RequestTarget

end SealedEnvelope
