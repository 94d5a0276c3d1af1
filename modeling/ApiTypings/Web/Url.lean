import ApiTypings.Failure
import ApiTypings.Text.Blank
import ApiTypings.Text.Quoted
import ApiTypings.Text.Utf8
import ApiTypings.Web.HostAddress
import ApiTypings.Web.HostName

/-! Web addresses in the one form in which they are requested, and where the address of a redirect
leads. -/

namespace ApiTypings

/-- The parts of an address. -/
structure Url where
  scheme : String
  /-- Who asks, without the `@` behind it. -/
  user : String
  host : String
  /-- The number behind the host, unless the scheme stands for it. -/
  endpoint : Option Nat
  path : String
  query : Option String
  fragment : Option String
deriving DecidableEq, Repr

namespace Url

def authority (u : Url) : String :=
  (if u.user.isEmpty then "" else u.user ++ "@") ++ u.host ++
    match u.endpoint with
    | some n => ":" ++ toString n
    | none => ""

def text (u : Url) : String :=
  (if u.scheme.isEmpty then "" else u.scheme ++ ":") ++
    (if u.authority.isEmpty then "" else "//" ++ u.authority) ++ u.path ++
    (match u.query with | some q => "?" ++ q | none => "") ++
    (match u.fragment with | some f => "#" ++ f | none => "")

/-- Does the address say by itself where to ask? -/
def isAbsolute (u : Url) : Bool := !u.scheme.isEmpty && !u.host.isEmpty

/-- Why an address cannot be requested. -/
inductive Fault where
  | unprintable (c : Char) (position : Nat)
  | badEndpoint (endpoint : String)
  | badVersionFour (host : String)
  | badVersionSix (host : String)
  | badName (host : String)
  /-- A path that does not start with a slash behind a host. -/
  | pathBehindHost
  /-- A path that cannot be told from something else, by its start. -/
  | ambiguousPath (start : String)
deriving DecidableEq, Repr

def Fault.message : Fault → String
  | unprintable c position =>
    "Invalid non-printable ASCII character in URL, " ++ Text.quoted (String.singleton c) ++
      " at position " ++ toString position ++ "."
  | badEndpoint endpoint => "Invalid port: " ++ Text.quoted endpoint
  | badVersionFour host => "Invalid IPv4 address: " ++ Text.quoted host
  | badVersionSix host => "Invalid IPv6 address: " ++ Text.quoted host
  | badName host => "Invalid IDNA hostname: " ++ Text.quoted host
  | pathBehindHost => "For absolute URLs, path must be empty or begin with '/'"
  | ambiguousPath start => "Relative URLs cannot have a path starting with '" ++ start ++ "'"

/-! ## Characters -/

/-- One octet as a percent sign and two digits. -/
def percentOctet (b : UInt8) : List Char :=
  ['%', (Nat.digitChar (b.toNat / 16)).toUpper, (Nat.digitChar (b.toNat % 16)).toUpper]

/-- Characters outside the set are written as their octets. -/
def percentEncode (keep : Char → Bool) (cs : List Char) : String :=
  String.ofList (cs.flatMap fun c =>
    if keep c then [c] else (Utf8.encode (String.singleton c)).flatMap percentOctet)

/-- Printable ASCII characters but these stand for themselves. -/
def printableBut (excluded : List Char) (c : Char) : Bool :=
  0x20 < c.toNat && c.toNat < 0x7F && !excluded.contains c

def isPathChar : Char → Bool :=
  printableBut ['"', '#', '<', '>', '?', '\x60', '\x7b', '\x7d']

def isQueryChar : Char → Bool := printableBut ['"', '#', '<', '>']

def isFragmentChar : Char → Bool := printableBut ['"', '<', '>', '\x60']

def isUserChar : Char → Bool :=
  printableBut
    ['"', '#', '<', '>', '?', '\x60', '\x7b', '\x7d', '/', ';', '=', '@', '[', '\\', ']', '^', '|']

def isHostChar : Char → Bool := printableBut ['#', '/', ':', '<', '>', '?', '@', '[', ']', '^']

/-! ## Parts -/

def isSchemeChar (c : Char) : Bool := c.isAlphanum || c == '+' || c == '-' || c == '.'

/-- The scheme as it is written, without its colon, and what follows it. The scheme may be empty
before its colon. -/
def splitScheme (cs : List Char) : String × List Char :=
  let name := cs.takeWhile isSchemeChar
  match cs.drop name.length with
  | ':' :: rest =>
    if name.head?.all Char.isAlpha then (String.ofList name, rest) else ("", cs)
  | _ => ("", cs)

def isAuthorityChar (c : Char) : Bool := c != '/' && c != '?' && c != '#'

/-- What stands between two slashes and the path, if the slashes are there. -/
def splitAuthority : List Char → Option (List Char) × List Char
  | '/' :: '/' :: rest => (some (rest.takeWhile isAuthorityChar), rest.dropWhile isAuthorityChar)
  | cs => (none, cs)

/-- What stands before the last occurrence of a character and behind it. -/
def cutAtLast? (mark : Char) (cs : List Char) : Option (List Char × List Char) :=
  if cs.contains mark then
    let behind := (cs.reverse.takeWhile (· != mark)).reverse
    some (cs.take (cs.length - behind.length - 1), behind)
  else none

/-- The host, and what stands behind the colon after it. A host in brackets holds colons itself. -/
def splitEndpoint (cs : List Char) : List Char × List Char :=
  let host := match cs, cutAtLast? ']' cs with
    | '[' :: _, some (inside, _) => inside ++ [']']
    | _, _ => cs.takeWhile (· != ':')
  match cs.drop host.length with
  | ':' :: endpoint => (host, endpoint)
  | endpoint => (host, endpoint)

/-- The number behind the host, unless it is the one that the scheme, in lower case, stands for. -/
def endpointOf (scheme : String) (endpoint : List Char) : Except Fault (Option Nat) :=
  let digits := Text.trim endpoint
  if endpoint.isEmpty then .ok none
  else if digits.isEmpty || !digits.all Char.isDigit then
    .error (.badEndpoint (String.ofList endpoint))
  else
    let number := Json.natOfDigits digits
    if (scheme == "http" && number == 80) || (scheme == "https" && number == 443) then .ok none
    else .ok (some number)

/-- Four numbers between points. -/
def looksVersionFour (host : List Char) : Bool :=
  let parts := Text.split '.' host
  parts.length == 4 && parts.all fun part => !part.isEmpty && part.all Char.isDigit

/-- The host in writing. A numeric address has to be one; a name is written in lower case. -/
def hostOf (host : List Char) : Except Fault String :=
  if looksVersionFour host then
    if HostAddress.isDotted host then .ok (String.ofList host)
    else .error (.badVersionFour (String.ofList host))
  else if host.head? == some '[' && host.getLast? == some ']' then
    if HostAddress.isVersionSix (host.drop 1).dropLast then .ok (String.ofList host)
    else .error (.badVersionSix (String.ofList host))
  else if host.all HostName.isAscii then
    .ok (percentEncode isHostChar (host.map Char.toLower))
  else match HostName.ascii? host with
    | some name => .ok (String.ofList name)
    | none => .error (.badName (String.ofList host))

/-! ## Paths -/

/-- One name of a path laid on those before it, last first: a dot is left out, and two dots take
the last name away unless only the leading slash is left. -/
def pushSegment (before : List (List Char)) (name : List Char) : List (List Char) :=
  if name == ['.'] then before
  else if name == ['.', '.'] then
    match before with
    | [] | [[]] => before
    | _ :: rest => rest
  else name :: before

def removeDots (path : List Char) : List Char :=
  List.intercalate ['/'] ((Text.split '/' path).foldl pushSegment []).reverse

/-- Is a path with this start one that can stand where it does? -/
def checkPath (hasScheme hasAuthority : Bool) (path : List Char) : Except Fault Unit :=
  if hasAuthority then
    if path.isEmpty || path.head? == some '/' then .ok () else .error .pathBehindHost
  else if hasScheme then .ok ()
  else match path with
    | '/' :: '/' :: _ => .error (.ambiguousPath "//")
    | ':' :: _ => .error (.ambiguousPath ":")
    | _ => .ok ()

/-! ## Reading -/

/-- What follows a mark, if it is there, up to the next part. -/
def part? (mark : Char) (cs : List Char) : Option (List Char) :=
  match cs with
  | c :: rest => if c == mark then some rest else none
  | [] => none

def ofChars (cs : List Char) : Except Fault Url := do
  match cs.findIdx? fun c => c.toNat < 0x20 || c.toNat == 0x7F with
  | some i => throw (.unprintable (cs.getD i ' ') i)
  | none =>
    let (writtenScheme, afterScheme) := splitScheme cs
    let scheme := writtenScheme.toLower
    let (authority?, afterAuthority) := splitAuthority afterScheme
    let authority := authority?.getD []
    let (user, place) := (cutAtLast? '@' authority).getD ([], authority)
    let (hostChars, endpointChars) := splitEndpoint place
    let host ← hostOf hostChars
    let endpoint ← endpointOf writtenScheme endpointChars
    let path := afterAuthority.takeWhile fun c => c != '?' && c != '#'
    let afterPath := afterAuthority.drop path.length
    let hasAuthority := !user.isEmpty || !host.isEmpty || endpoint.isSome
    checkPath (!scheme.isEmpty) hasAuthority path
    let written := if scheme.isEmpty && !hasAuthority then path else removeDots path
    return {
      scheme, host, endpoint
      user := percentEncode isUserChar user
      path := percentEncode isPathChar written
      query := (part? '?' afterPath).map fun rest =>
        percentEncode isQueryChar (rest.takeWhile (· != '#'))
      fragment := (part? '#' (afterPath.dropWhile (· != '#'))).map (percentEncode isFragmentChar) }

def ofString (text : String) : Except Fault Url := ofChars text.toList

/-- An address that does not say where to ask names a path on no host at all. -/
def requested (u : Url) : Url :=
  if u.isAbsolute then u
  else
    { scheme := "", user := "", host := "", endpoint := none, query := u.query, fragment := none,
      path := "/" ++ String.ofList (u.path.toList.dropWhile (· == '/')) }

/-! ## Redirects -/

/-- Without its empty names, apart from the first and the last. -/
def dropEmptyInner (names : List (List Char)) : List (List Char) :=
  let others := names.drop 1
  names.take 1 ++ (others.dropLast.filter fun name => !name.isEmpty) ++ others.getLast?.toList

/-- Two dots take the last name away; a path that ends in dots ends in a slash. -/
def resolveNames (names : List (List Char)) : List (List Char) :=
  let resolved := names.foldl (fun before name =>
    if name == ['.', '.'] then before.drop 1
    else if name == ['.'] then before
    else name :: before) []
  let ends := names.getLast? == some ['.'] || names.getLast? == some ['.', '.']
  (if ends then [] :: resolved else resolved).reverse

/-- A path as seen from the page of another. -/
def resolvePath (base target : List Char) : List Char :=
  let names := Text.split '/' target
  let whole :=
    if target.head? == some '/' then names
    else
      let above := Text.split '/' base
      let kept := if above.getLast? == some [] then above else above.dropLast
      dropEmptyInner (kept ++ names)
  let joined := List.intercalate ['/'] (resolveNames whole)
  if joined.head? == some '/' then joined else '/' :: joined

/-- The fragment of the page before, if the new address has none. -/
def keepFragment (base target : Url) : Url :=
  if (nonEmpty? target.fragment).isSome || (nonEmpty? base.fragment).isNone then target
  else { target with fragment := base.fragment }

/-- The text of a query or a fragment that is not empty, behind its mark. -/
def markedText (mark : String) (part : Option String) : String :=
  match nonEmpty? part with
  | some s => mark ++ s
  | none => ""

/-- The address that is written when a relative one stands on the page of another. -/
def relativeText (base target : Url) : String :=
  let place := base.scheme ++ "://" ++
    (if target.authority.isEmpty then base.authority else target.authority)
  let path :=
    if !target.authority.isEmpty then target.path
    else if target.path.isEmpty then base.path
    else String.ofList (resolvePath base.path.toList target.path.toList)
  let query :=
    if target.authority.isEmpty && target.path.isEmpty then
      (nonEmpty? target.query).or base.query
    else target.query
  place ++ path ++ markedText "?" query ++ markedText "#" target.fragment

/-- Where a redirect leads. An address with a scheme but no host is on the host of the page. -/
def redirected (base target : Url) : Except Fault Url := do
  let placed := if target.scheme.isEmpty || !target.host.isEmpty then target
    else { target with host := base.host }
  checkPath (!placed.scheme.isEmpty) (!placed.host.isEmpty) placed.path.toList
  if placed.isAbsolute then return keepFragment base placed
  else return keepFragment base (← ofString (relativeText base placed))

end Url

end ApiTypings
