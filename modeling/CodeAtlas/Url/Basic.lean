import CodeAtlas.Url.Host

/-!
URLs.  The schemes that a browser knows always have a host and a path, take a backslash for a slash
and leave out their usual port; `file` has no port and may have no host; every other scheme may have a
path that is a mere text.  `Url.parse` brings a URL to its normal form, which `Url.text` writes.
-/

namespace CodeAtlas

namespace Url

inductive Path where
  /-- A text that is no sequence of segments. -/
  | opaqueText (text : String)
  /-- Segments, each after a slash. -/
  | segments (all : List String)
deriving DecidableEq, Repr, Inhabited

end Url

structure Url where
  scheme : String
  username : String
  password : String
  host : Option Url.Host
  port : Option Nat
  path : Url.Path
  query : Option String
  fragment : Option String
deriving DecidableEq, Repr, Inhabited

namespace Url

inductive SchemeKind where
  | known
  | file
  | other
deriving DecidableEq, Repr, Inhabited

def schemeKind (scheme : String) : SchemeKind :=
  if ["http", "https", "ws", "wss", "ftp"].contains scheme then .known
  else if scheme == "file" then .file
  else .other

/-- The port that a scheme uses when none is given. -/
def usualPort? (scheme : String) : Option Nat :=
  if scheme == "http" || scheme == "ws" then some 80
  else if scheme == "https" || scheme == "wss" then some 443
  else if scheme == "ftp" then some 21
  else none

/-! ## Text -/

def pathText (hasHost : Bool) : Path → String
  | .opaqueText s => s
  | .segments all =>
    let text := String.join (all.map ("/" ++ ·))
    match all with
    | "" :: _ :: _ => if hasHost then text else "/." ++ text
    | _ => text

/-- A URL in its normal form. -/
def text (u : Url) : String :=
  let credentials :=
    if u.username.isEmpty && u.password.isEmpty then ""
    else u.username ++ (if u.password.isEmpty then "" else ":" ++ u.password) ++ "@"
  let port := match u.port with
    | some n => ":" ++ toString n
    | none => ""
  let authority := match u.host with
    | some h => "//" ++ credentials ++ h.text ++ port
    | none => ""
  let tail (mark : String) (part : Option String) : String := match part with
    | some s => mark ++ s
    | none => ""
  u.scheme ++ ":" ++ authority ++ pathText u.host.isSome u.path ++ tail "?" u.query ++
    tail "#" u.fragment

/-! ## Reading -/

/-- A slash, or a backslash where it counts as one. -/
def isSlash (kind : SchemeKind) (c : Char) : Bool :=
  c == '/' || (kind != .other && c == '\\')

def endsPath (c : Char) : Bool := c == '?' || c == '#'

def endsAuthority (kind : SchemeKind) (c : Char) : Bool := isSlash kind c || endsPath c

/-- The scheme in lower case and the text after the colon. -/
def scheme? (cs : List Char) : Option (String × List Char) :=
  let word := cs.takeWhile (fun c => c.isAlphanum || c == '+' || c == '-' || c == '.')
  match word, cs.drop word.length with
  | first :: _, ':' :: rest =>
    if first.isAlpha then some (String.ofList (word.map Char.toLower), rest) else none
  | _, _ => none

/-- A letter and a colon or a bar. -/
def isDriveLetter (cs : List Char) : Bool :=
  match cs with
  | [a, b] => a.isAlpha && (b == ':' || b == '|')
  | _ => false

/-- One step up: the last segment goes, unless it is the drive at the start of a file's path. -/
def shorten (kind : SchemeKind) (done : List String) : List String :=
  match done with
  | [drive] => if kind = .file && isDriveLetter drive.toList then done else []
  | _ => done.dropLast

def isHere (s : String) : Bool := Text.lowerAscii s == "." || Text.lowerAscii s == "%2e"

def isUp (s : String) : Bool :=
  ["..", ".%2e", "%2e.", "%2e%2e"].contains (Text.lowerAscii s)

/-- The segments of a path: dots are worked out, and a dot at the end leaves an empty segment. -/
def resolveSegments (kind : SchemeKind) : List String → List String → List String
  | done, [] => done
  | done, s :: more =>
    let last := more.isEmpty
    if isUp s then
      let up := shorten kind done
      resolveSegments kind (if last then up ++ [""] else up) more
    else if isHere s then resolveSegments kind (if last then done ++ [""] else done) more
    else
      let s := if kind = .file && done.isEmpty && isDriveLetter s.toList
        then String.ofList (s.toList.take 1 ++ [':']) else s
      resolveSegments kind (done ++ [s]) more

def readSegments (kind : SchemeKind) (cs : List Char) : List String :=
  resolveSegments kind [] ((Text.pieces (isSlash kind) cs).map (encode pathSet))

/-- A path after a host, or none when nothing follows the host of an unknown scheme. -/
def readPath (kind : SchemeKind) (cs : List Char) : Path :=
  match cs with
  | [] => if kind = .other then .segments [] else .segments [""]
  | c :: rest => .segments (readSegments kind (if isSlash kind c then rest else c :: rest))

def readTail (kind : SchemeKind) (cs : List Char) : Option String × Option String :=
  let set := if kind = .other then querySet else specialQuerySet
  let fragmentOf (cs : List Char) : Option String := match cs with
    | '#' :: rest => some (encode fragmentSet rest)
    | _ => none
  match cs with
  | '?' :: rest =>
    let query := rest.takeWhile (· != '#')
    (some (encode set query), fragmentOf (rest.drop query.length))
  | cs => (none, fragmentOf cs)

/-- The credentials: the text before the last at sign, cut at its first colon. -/
def readCredentials (cs : List Char) : String × String :=
  let user := cs.takeWhile (· != ':')
  (encode userSet user, encode userSet (cs.drop (user.length + 1)))

/-- The host's text: up to a colon that is not inside brackets. -/
def hostChars : Bool → List Char → List Char
  | _, [] => []
  | inside, c :: cs =>
    if c == ':' && !inside then []
    else c :: hostChars (if c == '[' then true else if c == ']' then false else inside) cs

/-- A port after its colon; the usual one is left out. -/
def readPort (scheme : String) (cs : List Char) : Except Fault (Option Nat) :=
  let n := (cs.takeWhile Char.isDigit).foldl (fun n d => n * 10 + (d.toNat - 48)) 0
  if 65535 < n || !cs.all Char.isDigit then .error .invalidPort
  else if cs.isEmpty || usualPort? scheme == some n then .ok none
  else .ok (some n)

/-- A URL after the two slashes before its host. -/
def readAuthority (scheme : String) (cs : List Char) : Except Fault Url := do
  let kind := schemeKind scheme
  let authority := cs.takeWhile (fun c => !endsAuthority kind c)
  let after := cs.drop authority.length
  let reversedHost := authority.reverse.takeWhile (· != '@')
  let hostPort := reversedHost.reverse
  let hasAt := authority.contains '@'
  let user := authority.take (authority.length - hostPort.length - 1)
  if hasAt && user.isEmpty && hostPort.isEmpty && !after.isEmpty then throw .emptyHost
  let (username, password) := if hasAt then readCredentials user else ("", "")
  let hostText := hostChars false hostPort
  let portText := hostPort.drop hostText.length
  if kind = .known && hostText.isEmpty then throw .emptyHost
  let host ← if kind = .other then Host.other hostText else Host.known hostText
  if hostText.isEmpty && !portText.isEmpty then throw .emptyHost
  let port ← if portText.isEmpty then pure none else readPort scheme portText.tail
  if hostText.isEmpty && !(username.isEmpty && password.isEmpty) then throw .emptyHost
  let path := after.takeWhile (fun c => !endsPath c)
  let (query, fragment) := readTail kind (after.drop path.length)
  return ⟨scheme, username, password, some host, port, readPath kind path, query, fragment⟩

/-- The host of a file, after two slashes; the local host counts as none, and a drive is no host. -/
def fileHost (cs : List Char) : Except Fault (Host × List Char) := do
  let text := cs.takeWhile (fun c => !endsAuthority .file c)
  if isDriveLetter text then return (.name "", cs)
  let after := cs.drop text.length
  if text.isEmpty then return (.name "", after)
  let host ← Host.known text
  return (if host = .name "localhost" then .name "" else host, after)

def readFile (cs : List Char) : Except Fault Url := do
  let slashes := (cs.takeWhile (isSlash .file)).length
  let (host, rest) ← if 2 ≤ slashes then fileHost (cs.drop 2) else pure (.name "", cs)
  let path := rest.takeWhile (fun c => !endsPath c)
  let (query, fragment) := readTail .file (rest.drop path.length)
  let segments := match path with
    | [] => [""]
    | c :: more => readSegments .file (if isSlash .file c then more else c :: more)
  let trimmed := segments.dropWhile String.isEmpty
  let segments := if trimmed.isEmpty then [""] else trimmed
  let host := if segments.head?.any (fun s => isDriveLetter s.toList) then .name "" else host
  return ⟨"file", "", "", some host, none, .segments segments, query, fragment⟩

def readOther (scheme : String) (cs : List Char) : Except Fault Url :=
  match cs with
  | '/' :: '/' :: rest => readAuthority scheme rest
  | _ =>
    let path := cs.takeWhile (fun c => !endsPath c)
    let (query, fragment) := readTail .other (cs.drop path.length)
    let path := match path with
      | '/' :: rest => Path.segments (readSegments .other rest)
      | _ => .opaqueText (encode controlSet path)
    .ok ⟨scheme, "", "", none, none, path, query, fragment⟩

/-- The URL that a text denotes.  Controls and spaces around it do not count, nor do tabs and line
breaks in it. -/
def parse (s : String) : Except Fault Url :=
  let isPadding (c : Char) : Bool := c.toNat ≤ 0x20
  let cs := Text.dropTrailing isPadding (Text.dropLeading isPadding s.toList)
  let cs := cs.filter (fun c => c != '\t' && c != '\n' && c != '\r')
  match scheme? cs with
  | none => .error .noScheme
  | some (scheme, rest) =>
    match schemeKind scheme with
    | .known => readAuthority scheme (rest.dropWhile (isSlash .known))
    | .file => readFile rest
    | .other => readOther scheme rest

end Url

end CodeAtlas
