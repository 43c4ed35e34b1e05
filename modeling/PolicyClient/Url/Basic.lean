/-
The URLs of servers. A URL is read as the URL Standard has it, for the schemes `http` and `https`:
its parts are brought into one written form, and `text` writes them. Other URLs are checked as far
as they have a host, and refused by their scheme. How a domain beyond ASCII is written in ASCII is
given from outside; without that, such a domain is refused.
-/
import PolicyClient.Text.Blank
import PolicyClient.Url.Address

namespace PolicyClient

/-- A URL, its parts as they are written. The segments of the path are those behind each slash. -/
structure Url where
  scheme : String
  username : String
  password : Option String
  host : String
  port : Option Nat
  path : List String
  query : Option String
  fragment : Option String
  deriving DecidableEq, Repr

/-! ## Errors -/

/-- Why a text is no URL of a server. -/
inductive UrlFault
  | noBase
  | emptyHost
  | badDomain
  | badDomainCharacter
  | badPort
  | badIpv4
  | badIpv6
  | unsupportedScheme (scheme : String)
  deriving DecidableEq, Repr

/-- The reason that a message gives. -/
def UrlFault.reason : UrlFault → String
  | .noBase => "relative URL without a base"
  | .emptyHost => "empty host"
  | .badDomain => "invalid international domain name"
  | .badDomainCharacter => "invalid domain character"
  | .badPort => "invalid port number"
  | .badIpv4 => "invalid IPv4 address"
  | .badIpv6 => "invalid IPv6 address"
  | .unsupportedScheme scheme => s!"unsupported scheme '{scheme}', expected http or https"

namespace Url

/-! ## Schemes -/

/-- Without control characters and spaces at its ends, and without tabs and line ends. -/
def clean (s : List Char) : List Char :=
  (Text.dropEndWhile (·.toNat ≤ 0x20) (s.dropWhile (·.toNat ≤ 0x20))).filter
    fun c => c != '\t' && c != '\n' && c != '\r'

/-- The scheme before the first colon, in lower case, and what follows the colon. -/
def splitScheme? (s : List Char) : Option (String × List Char) :=
  match s.span (fun c => c.isAlphanum || c == '+' || c == '-' || c == '.') with
  | (c :: scheme, ':' :: rest) =>
    if c.isAlpha then some (Text.lower (c :: scheme), rest) else none
  | _ => none

/-- The port that a scheme implies. -/
def defaultPort? (scheme : String) : Option Nat :=
  if scheme = "http" ∨ scheme = "ws" then some 80
  else if scheme = "https" ∨ scheme = "wss" then some 443
  else if scheme = "ftp" then some 21
  else none

/-- The schemes whose URLs name a host on the network. -/
def isSpecial (scheme : String) : Bool :=
  (defaultPort? scheme).isSome

/-! ## Hosts -/

/-- The end of what stands before the path. -/
def endsAuthority (special : Bool) (c : Char) : Bool :=
  c == '/' || c == '?' || c == '#' || (special && c == '\\')

/-- The text before the last `@`, and what follows it. -/
def splitLastAt? (s : List Char) : Option (List Char × List Char) :=
  match s with
  | [] => none
  | c :: rest =>
    match splitLastAt? rest with
    | some (before, behind) => some (c :: before, behind)
    | none => if c = '@' then some ([], rest) else none

/-- The host before a colon outside brackets, and what follows it. -/
def splitHost : (bracketed : Bool) → List Char → List Char × List Char
  | _, [] => ([], [])
  | bracketed, c :: rest =>
    if c = ':' ∧ bracketed = false then ([], c :: rest)
    else
      let bracketed := if c = '[' then true else if c = ']' then false else bracketed
      (c :: (splitHost bracketed rest).1, (splitHost bracketed rest).2)

/-- An IPv6 address between brackets. -/
def bracketedHost (s : List Char) : Except UrlFault String :=
  if s.getLast? = some ']' then
    match ipv6? s.dropLast with
    | some groups => .ok ("[" ++ ipv6Text groups ++ "]")
    | none => .error .badIpv6
  else .error .badIpv6

/-- The characters that no domain holds. -/
def isForbiddenInDomain (c : Char) : Bool :=
  c.toNat ≤ 0x20 || 0x7F ≤ c.toNat || "%#/:<>?@[\\]^|".toList.contains c

/-- How a domain is written in ASCII, if it can be. -/
abbrev ToAscii := List Char → Option (List Char)

/-- The letters of ASCII in lower case, and all else as it is. -/
def lowerDomain : ToAscii :=
  fun domain => some (domain.map Char.toLower)

/-- The host of a domain in ASCII. One that ends in a number is an address. -/
def asciiHost (domain : List Char) : Except UrlFault String :=
  if domain.any isForbiddenInDomain then .error .badDomain
  else if domain = [] then .error .emptyHost
  else if endsInNumber domain then
    match ipv4? domain with
    | some address => .ok (ipv4Text address)
    | none => .error .badIpv4
  else .ok (String.ofList domain)

/-- The host of a special URL: an address, or a domain in ASCII. -/
def specialHost (s : List Char) (toAscii : ToAscii := lowerDomain) : Except UrlFault String :=
  match s with
  | [] => .error .emptyHost
  | '[' :: inner => bracketedHost inner
  | s =>
    match (Utf8.text? (decode s)).bind fun domain => toAscii domain.toList with
    | none => .error .badDomain
    | some domain => asciiHost domain

/-- Checks the host of a URL that is not special. -/
def checkOpaqueHost (s : List Char) : Except UrlFault Unit :=
  match s with
  | '[' :: inner => (bracketedHost inner).map fun _ => ()
  | s =>
    if s.any fun c => c == '\x00' || " #/:<>?@[\\]^|".toList.contains c then
      .error .badDomainCharacter
    else .ok ()

/-- The port behind a colon, up to the path. -/
def parsePort (scheme : String) (s : List Char) : Except UrlFault (Option Nat) :=
  let digits := s.takeWhile (· != '\\')
  if ¬digits.all Char.isDigit then .error .badPort
  else
    match Text.natOfDigits? 10 digits with
    | none => .error .badPort
    | some port =>
      if 65535 < port then .error .badPort
      else .ok (if digits = [] ∨ defaultPort? scheme = some port then none else some port)

/-! ## Paths -/

/-- Whether a segment is a point, which may be encoded. -/
def isDot (s : List Char) : Bool :=
  s == ['.'] || s.map Char.toLower == "%2e".toList

/-- Whether a segment stands for its own directory. -/
def isSingleDot (s : List Char) : Bool :=
  isDot s

/-- Whether a segment stands for the directory above. -/
def isDoubleDot (s : List Char) : Bool :=
  (isDot (s.take 1) && isDot (s.drop 1)) || (isDot (s.take 3) && isDot (s.drop 3))

/-- A letter and a colon or a bar: such a segment is never left by going up. -/
def isDrive (segment : String) : Bool :=
  match segment.toList with
  | [letter, mark] => letter.isAlpha && (mark == ':' || mark == '|')
  | _ => false

/-- The path without its last segment. -/
def goUp (path : List String) : List String :=
  match path.getLast? with
  | some last => if isDrive last then path else path.dropLast
  | none => path

/-- The path with raw segments behind it. A dot segment at the end leaves an empty one. -/
def addSegments (path : List String) : List (List Char) → List String
  | [] => path
  | [last] =>
    if isDoubleDot last then goUp path ++ [""]
    else if isSingleDot last then path ++ [""]
    else path ++ [String.ofList (encode inPathSet last)]
  | segment :: rest =>
    if isDoubleDot segment then addSegments (goUp path) rest
    else if isSingleDot segment then addSegments path rest
    else addSegments (path ++ [String.ofList (encode inPathSet segment)]) rest

/-- The segments of a path; backslashes are slashes, and the first slash may be missing. -/
def parsePath (s : List Char) : List String :=
  let s := s.map fun c => if c = '\\' then '/' else c
  addSegments [] (splitAt '/' (match s with
    | '/' :: rest => rest
    | s => s))

/-! ## Reading -/

/-- The parts of what follows the host: path, query and fragment. -/
def splitTail (s : List Char) : List Char × Option (List Char) × Option (List Char) :=
  let (front, fragment) :=
    match Text.splitFirst? '#' s with
    | some (front, fragment) => (front, some fragment)
    | none => (s, none)
  match Text.splitFirst? '?' front with
  | some (path, query) => (path, some query, fragment)
  | none => (front, none, fragment)

/-- A user name and a password with something in it. -/
def parseUser (s : List Char) : String × Option String :=
  match Text.splitFirst? ':' s with
  | none => (String.ofList (encode inUserSet s), none)
  | some (name, []) => (String.ofList (encode inUserSet name), none)
  | some (name, password) =>
    (String.ofList (encode inUserSet name), some (String.ofList (encode inUserSet password)))

/-- The URL of a special scheme from its host on. -/
def parseSpecial (scheme : String) (s : List Char) (toAscii : ToAscii := lowerDomain) :
    Except UrlFault Url := do
  let (authority, behind) := s.span fun c => !endsAuthority true c
  let (user, server) := (splitLastAt? authority).getD ([], authority)
  let (host, port) := splitHost false server
  let host ← specialHost host toAscii
  let port ←
    match port with
    | [] => pure none
    | _ :: digits => parsePort scheme digits
  let (path, query, fragment) := splitTail behind
  let (username, password) := parseUser user
  return {
    scheme, username, password, host, port
    path := parsePath path
    query := query.map fun q => String.ofList (encode inQuerySet q)
    fragment := fragment.map fun f => String.ofList (encode inFragmentSet f) }

/-- Checks the host of a URL with another scheme. -/
def checkOpaque (scheme : String) (s : List Char) : Except UrlFault Unit := do
  let (authority, behind) := s.span fun c => !endsAuthority false c
  let (user, server) := (splitLastAt? authority).getD ([], authority)
  if user = [] ∧ authority.contains '@' ∧ server = [] ∧ behind ≠ [] then throw .emptyHost
  let (host, port) := splitHost false server
  checkOpaqueHost host
  if host = [] ∧ port ≠ [] then throw .emptyHost
  match port with
  | [] => pure ()
  | _ :: digits => discard (parsePort scheme digits)
  if host = [] ∧ user ≠ [] ∧ user ≠ [':'] then throw .emptyHost

/-- Checks the host of a file URL, which may be missing. -/
def checkFile (s : List Char) (toAscii : ToAscii := lowerDomain) : Except UrlFault Unit :=
  match s with
  | a :: b :: rest =>
    if (a = '/' ∨ a = '\\') ∧ (b = '/' ∨ b = '\\') then
      let host := rest.takeWhile fun c => !endsAuthority true c
      if host = [] ∨ isDrive (String.ofList host) then .ok ()
      else (specialHost host toAscii).map fun _ => ()
    else .ok ()
  | _ => .ok ()

/-- Reads the URL of a server. -/
def parse (input : String) (toAscii : ToAscii := lowerDomain) : Except UrlFault Url :=
  match splitScheme? (clean input.toList) with
  | none => .error .noBase
  | some (scheme, rest) => do
    if isSpecial scheme then
      let url ← parseSpecial scheme (rest.dropWhile fun c => c == '/' || c == '\\') toAscii
      if scheme = "http" ∨ scheme = "https" then return url
    else if scheme = "file" then checkFile rest toAscii
    else
      match rest with
      | '/' :: '/' :: rest => checkOpaque scheme rest
      | _ => pure ()
    throw (.unsupportedScheme scheme)

/-! ## Writing -/

/-- The user name and the password before the host. -/
def userText (u : Url) : String :=
  match u.password with
  | some password => u.username ++ ":" ++ password ++ "@"
  | none => if u.username = "" then "" else u.username ++ "@"

/-- The path with its slashes. -/
def pathText (u : Url) : String :=
  String.join (u.path.map fun segment => "/" ++ segment)

/-- The text of a URL. -/
def text (u : Url) : String :=
  u.scheme ++ "://" ++ u.userText ++ u.host ++
    (match u.port with
      | some port => s!":{port}"
      | none => "") ++
    u.pathText ++
    (match u.query with
      | some query => "?" ++ query
      | none => "") ++
    (match u.fragment with
      | some fragment => "#" ++ fragment
      | none => "")

/-- The URL of a path below this one. Slashes between the two do not count. -/
def resolve (u : Url) (path : String) (toAscii : ToAscii := lowerDomain) :
    Except (String × UrlFault) Url :=
  let joined := String.ofList (Text.dropEndWhile (· == '/') u.text.toList ++
    '/' :: path.toList.dropWhile (· == '/'))
  (parse joined toAscii).mapError fun fault => (joined, fault)

end Url
end PolicyClient
