import MdxCheck.Text.CaseFold
import MdxCheck.Url.Percent
import MdxCheck.Url.Punycode

/-!
The addresses of links: their parts, which of them are refused, and how they are shown.
-/

namespace MdxCheck

/-- The parts of an address. The protocol has its colon, the query its question mark, and the
fragment its number sign. -/
structure Address where
  protocol : Text
  slashes : Bool
  user : Text
  host : Text
  port : Text
  path : Text
  query : Text
  fragment : Text
deriving DecidableEq, Repr

namespace Address

def isProtocolChar (c : Char) : Bool :=
  (Text.foldLetter c).isAlphanum || c == '.' || c == '+' || c == '-'

def splitProtocol (text : Text) : Text × Text :=
  let name := text.takeWhile isProtocolChar
  match name, text.drop name.length with
  | _ :: _, ':' :: rest => (name ++ [':'], rest)
  | _, _ => ([], text)

def isOneOf (protocols : List String) (protocol : Text) : Bool :=
  protocols.any fun other => other.toList == protocol

def endsHost (c : Char) : Bool :=
  "%/?;#'\x7b\x7d|\\^`<>\" \r\n\t".toList.contains c

/-- The user that the text names before the last at sign of its authority, and what follows. -/
def splitUser (text : Text) : Text × Text :=
  let authority := text.takeWhile fun c => !(c == '/' || c == '?' || c == '#')
  let afterSign := (authority.reverse.takeWhile (· ≠ '@')).reverse
  if afterSign.length < authority.length then
    (authority.take (authority.length - afterSign.length - 1),
      afterSign ++ text.drop authority.length)
  else ([], text)

/-- The host and the port that the text opens with, and what follows. A colon without a port is
left to what follows, or dropped where another colon comes before it. -/
def splitHost (text : Text) : Text × Text × Text :=
  let run := text.takeWhile fun c => !endsHost c
  let host := if run.getLast? = some ':' then run.dropLast else run
  let rest := text.drop host.length
  let digits := (host.reverse.takeWhile Char.isDigit).reverse
  let before := host.take (host.length - digits.length)
  if before.getLast? = some ':' then (before.dropLast, digits, rest) else (host, [], rest)

def isHostChar (c : Char) : Bool :=
  c.isAlphanum || c == '+' || c == '_' || c == '-'

/-- Whether a part of a host name is well formed; characters beyond ASCII are. -/
def isHostPart (part : Text) : Bool :=
  part.length ≤ 63 && part.all fun c => isHostChar c || 127 < c.toNat

/-- The well-formed start of a host name, and what is no longer part of it. -/
def validHost : List Text → List Text × List Text
  | [] => ([], [])
  | part :: parts =>
    if isHostPart part then
      let (valid, other) := validHost parts
      (part :: valid, other)
    else
      let start := (part.take 63).takeWhile isHostChar
      ([start], part.drop start.length :: parts)

/-- The host of an address as far as it is well formed, and what follows it. A name in square
brackets loses them; one of more than 255 characters is dropped. -/
def checkHost (host rest : Text) : Text × Text :=
  if host.head? = some '[' ∧ host.getLast? = some ']' then
    (if 255 < host.length then [] else (host.drop 1).dropLast, rest)
  else
    let (valid, other) := validHost (Text.splitOn (· == '.') host)
    let host := Text.join ['.'] valid
    (if 255 < host.length then [] else host, Text.join ['.'] other ++ rest)

def ofText (text : Text) : Address :=
  let (protocol, rest) := splitProtocol (Text.trim text)
  let hostless := isOneOf ["javascript:"] protocol
  let slashed := isOneOf ["http:", "https:", "ftp:", "gopher:", "file:"] protocol
  let slashes := Text.startsWith "//" rest && !hostless
  let rest := if slashes then rest.drop 2 else rest
  let (user, host, port, rest) :=
    if !hostless && (slashes || (!protocol.isEmpty && !slashed)) then
      let (user, rest) := splitUser rest
      let (host, port, rest) := splitHost rest
      let (host, rest) := checkHost host rest
      (user, host, port, rest)
    else ([], [], [], rest)
  let beforeFragment := rest.takeWhile (· ≠ '#')
  let path := beforeFragment.takeWhile (· ≠ '?')
  { protocol := protocol
    slashes := slashes
    user := user
    host := host
    port := port
    path := path
    query := beforeFragment.drop path.length
    fragment := rest.drop beforeFragment.length }

def toText (address : Address) : Text :=
  address.protocol ++ (if address.slashes then ['/', '/'] else []) ++
    (if address.user.isEmpty then [] else address.user ++ ['@']) ++
    (if address.host.any (· == ':') then '[' :: address.host ++ [']'] else address.host) ++
    (if address.port.isEmpty then [] else ':' :: address.port) ++
    address.path ++ address.query ++ address.fragment

def readable (address : Address) : Address :=
  if address.protocol.isEmpty || isOneOf ["http:", "https:", "mailto:"] address.protocol then
    { address with host := (Url.readableHost? address.host).getD address.host }
  else address

/-- Whether a link may lead to an address: not to scripts, files or data other than images. -/
def isAllowed (text : Text) : Bool :=
  let link := (ofText text).toText.map Char.toLower
  let startsWithAny (starts : List String) := starts.any fun start =>
    Text.startsWith start.toList link
  !startsWithAny ["vbscript:", "javascript:", "file:", "data:"] ||
    startsWithAny ["data:image/gif;", "data:image/png;", "data:image/jpeg;", "data:image/webp;"]

def shown (text : Text) : Text :=
  Url.decode (ofText text).readable.toText

end Address

end MdxCheck
