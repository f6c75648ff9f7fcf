import CellStitch.Address.BracketHost
import CellStitch.Failure
/-!
# URLs

A URL is read in five parts. Reading is lenient: leading control characters and blanks, and tabs and
line breaks anywhere, do not count; a text that names no scheme is all path. Texts are refused for
their host only, and in two cases: the host has a lone bracket, or has brackets and is not an
address in brackets with perhaps a user name in front and a number behind a colon; or one of its
characters is written with a mark that parts a URL once hosts are normalised (`Url.disguised`).

In some schemes the last segment of a path may carry parameters behind a semicolon; they do not
belong to the path.
-/

namespace CellStitch

/-- The parts of a URL that are used. The scheme is in lower case. -/
structure Url where
  scheme : Text
  host : Text
  path : Text
  fragment : Text
  deriving DecidableEq, Repr

namespace Url

/-! ### Reading -/

/-- Whether a character may stand in a scheme. -/
def isSchemeChar (c : Char) : Bool :=
  c.isAlphanum || c == '+' || c == '-' || c == '.'

/-- The text of a URL without the characters that do not count. -/
def clean (t : Text) : Text :=
  (t.dropWhile fun c ↦ c.toNat ≤ 0x20).filter fun c ↦ c ≠ '\t' && c ≠ '\r' && c ≠ '\n'

/-- The scheme in front of the first colon, in lower case, and the rest. There is no scheme if what
stands there is empty, does not start with a letter, or has a character that no scheme has. -/
def cutScheme (t : Text) : Text × Text :=
  let (name, rest) := t.cutAt ':'
  if t.contains ':' && (name.head?.map Char.isAlpha).getD false && name.all isSchemeChar then
    (name.map Char.toLower, rest)
  else ([], t)

/-- The host behind two slashes, and the rest. -/
def cutHost : Text → Text × Text
  | '/' :: '/' :: t =>
    let inHost := fun c ↦ c ≠ '/' && c ≠ '?' && c ≠ '#'
    (t.takeWhile inHost, t.dropWhile inHost)
  | t => ([], t)

/-- What stands behind the user name of a host, which ends with the last `@`. -/
def behindUser (host : Text) : Text := (host.reverse.takeWhile (· ≠ '@')).reverse

/-- Whether a host without a user name is an address in brackets, with nothing in front, and behind
it nothing or a colon. Where there is no opening bracket, what stands before the first colon must be
an address all the same. -/
def isBracketed (host : Text) : Bool :=
  if host.contains '[' then
    let (front, inner) := host.cutAt '['
    let (address, tail) := inner.cutAt ']'
    front.isEmpty && (tail.isEmpty || tail.head? = some ':') && BracketHost.isValid address
  else BracketHost.isValid (host.cutAt ':').1

/-- Whether the brackets of a host are in order. -/
def bracketsOk (host : Text) : Bool :=
  if host.contains '[' then host.contains ']' && isBracketed (behindUser host)
  else !host.contains ']'

/-- The characters beyond ASCII that compatibility normalisation (NFKC, Unicode 14) writes with one
of `/?#@:`, as `℀` is written `a/c`. No mark of these joins with a character behind it, so that a
host gets one of them exactly if it has one of these characters. -/
def disguised : Text :=
  ['\u2047', '\u2048', '\u2049', '\u2100', '\u2101', '\u2105', '\u2106', '\u2a74', '\ufe13',
    '\ufe16', '\ufe55', '\ufe56', '\ufe5f', '\ufe6b', '\uff03', '\uff0f', '\uff1a', '\uff1f',
    '\uff20']

/-- Whether a host is in order. -/
def hostOk (host : Text) : Bool := bracketsOk host && !host.any disguised.contains

/-- The schemes whose paths may carry parameters. -/
def schemesWithParams : List Text :=
  ["", "ftp", "hdl", "prospero", "http", "imap", "https", "shttp", "rtsp", "rtspu", "sip", "sips",
    "mms", "sftp", "tel"].map String.toList

/-- What stands behind the last slash of a path. -/
def lastSegment (path : Text) : Text := (path.reverse.takeWhile (· ≠ '/')).reverse

/-- A path without the parameters of its last segment. -/
def dropParams (path : Text) : Text :=
  let last := lastSegment path
  path.take (path.length - last.length) ++ (last.cutAt ';').1

/-- Reads a URL. There is none if the host is out of order. -/
def parse (uri : String) : Except Failure Url :=
  let (scheme, rest) := cutScheme (clean uri.toList)
  let (host, rest) := cutHost rest
  if hostOk host then
    let (rest, fragment) := rest.cutAt '#'
    let path := (rest.cutAt '?').1
    let path := if schemesWithParams.contains scheme then dropParams path else path
    .ok ⟨scheme, host, path, fragment⟩
  else .error (.malformedUri uri)

/-! ### Writing -/

/-- Whether URLs of a scheme are written with two slashes even if they have no host. -/
def alwaysHasHost (scheme : Text) : Bool := scheme == "file".toList

/-- Writes a URL from a scheme, a host and a path. Behind a host the path begins with a slash. -/
def render (scheme host path : Text) : Text :=
  let body :=
    if !host.isEmpty || (alwaysHasHost scheme && path.take 2 != ['/', '/']) then
      let path := if path.isEmpty || path.head? = some '/' then path else '/' :: path
      ['/', '/'] ++ host ++ path
    else path
  scheme ++ ':' :: body

end Url

end CellStitch
