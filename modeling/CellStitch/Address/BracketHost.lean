import CellStitch.Text.Lines
/-!
# Hosts in brackets

A host may stand in brackets if it is an IPv6 address or an address of a later version. An IPv6
address is eight groups of up to four hexadecimal digits with colons between them. A run of zero
groups may be left out once, the last two groups may be written as an IPv4 address, and a zone may
follow behind a percent sign.
-/

namespace CellStitch.BracketHost

/-- Whether a character is a hexadecimal digit. -/
def isHexDigit (c : Char) : Bool :=
  c.isDigit || ('a' ≤ c && c ≤ 'f') || ('A' ≤ c && c ≤ 'F')

/-- Whether a text is a number from 0 to 255, written without leading zeros. -/
def isOctet (t : Text) : Bool :=
  !t.isEmpty && t.length ≤ 3 && t.all Char.isDigit && (t.head? != some '0' || t.length == 1) &&
    t.foldl (fun n c ↦ 10 * n + (c.toNat - '0'.toNat)) 0 ≤ 255

/-- Whether a text is an IPv4 address. -/
def isIpv4 (t : Text) : Bool :=
  let octets := t.splitOn '.'
  octets.length == 4 && octets.all isOctet

/-- Whether a text is a group of an IPv6 address. -/
def isGroup (t : Text) : Bool :=
  !t.isEmpty && t.length ≤ 4 && t.all isHexDigit

/-- The parts of an IPv6 address with a trailing IPv4 address replaced by the two groups that it
stands for. There are none if what looks like an IPv4 address is none. -/
def withoutIpv4 (parts : List Text) : Option (List Text) :=
  let last := parts.getLastD []
  if last.contains '.' then
    if isIpv4 last then some (parts.dropLast ++ [['0'], ['0']]) else none
  else some parts

/-- Whether the parts between the colons make up an address. An empty part that is neither the
first nor the last stands for the left-out groups; the first or the last part may be empty only
right beside it. -/
def areGroups (parts : List Text) : Bool :=
  match ((parts.drop 1).dropLast).findIdx? List.isEmpty with
  | none => parts.length == 8 && parts.all isGroup
  | some i =>
    let above := parts.take (i + 1)
    let below := parts.drop (i + 2)
    let above := if above == [[]] then [] else above
    let below := if below == [[]] then [] else below
    above.length + below.length ≤ 7 && above.all isGroup && below.all isGroup

/-- Whether a text is an IPv6 address. -/
def isIpv6 (t : Text) : Bool :=
  let (address, zone) := t.cutAt '%'
  let zoneOk := !t.contains '%' || (!zone.isEmpty && !zone.contains '%')
  let parts := address.splitOn ':'
  zoneOk && 3 ≤ parts.length &&
    match withoutIpv4 parts with
    | none => false
    | some parts => parts.length ≤ 9 && areGroups parts

/-- Whether a text is an address of a later version: `v`, a hexadecimal number, a dot, and at least
one character. -/
def isLaterVersion (t : Text) : Bool :=
  match t with
  | 'v' :: rest =>
    let version := rest.takeWhile isHexDigit
    !version.isEmpty &&
      match rest.dropWhile isHexDigit with
      | '.' :: _ :: _ => true
      | _ => false
  | _ => false

/-- Whether a text may stand in brackets as a host. -/
def isValid (t : Text) : Bool :=
  if t.head? = some 'v' then isLaterVersion t else isIpv6 t

end CellStitch.BracketHost
