import Intake.Uri

/-!
# Reader — a URI from its text

Blanks around the text and line breaks in it do not count.  The scheme decides how the rest is
read: schemes with a registered syntax always have a host, take backslashes for slashes and have
default ports; `file` has a host but no port; other schemes have an authority only behind two
slashes, and a path that does not start with a slash is free text.  Steps `.` and `..` are
resolved.
-/

namespace Intake.Uri

/-! ## 1. Schemes -/

inductive Kind where
  | file
  | special
  | other
  deriving DecidableEq, Repr

def defaultPort? (scheme : String) : Option Nat :=
  [("http", 80), ("https", 443), ("ws", 80), ("wss", 443), ("ftp", 21)].lookup scheme

def kindOf (scheme : String) : Kind :=
  if scheme == "file" then .file
  else if (defaultPort? scheme).isSome then .special
  else .other

def Kind.foldsBackslash : Kind → Bool
  | .other => false
  | _ => true

def Kind.isSlash (k : Kind) (c : Char) : Bool := c == '/' || (c == '\\' && k.foldsBackslash)

def scheme? (cs : List Char) : Option (String × List Char) :=
  let name := cs.takeWhile fun c => c.isAlphanum || c == '+' || c == '-' || c == '.'
  match name, cs.drop name.length with
  | c :: _, ':' :: rest =>
    if c.isAlpha then some (String.ofList (name.map Char.toLower), rest) else none
  | _, _ => none

/-! ## 2. Paths -/

def isDoubleDot (segment : List Char) : Bool :=
  ["..", ".%2e", "%2e.", "%2e%2e"].contains (String.ofList (segment.map Char.toLower))

def isSingleDot (segment : List Char) : Bool :=
  [".", "%2e"].contains (String.ofList (segment.map Char.toLower))

def isDrive (segment : List Char) : Bool :=
  match segment with
  | [letter, mark] => letter.isAlpha && (mark == ':' || mark == '|')
  | _ => false

/-- One step back.  A drive stays, under every scheme, and so does a drive with a backslash behind
    it. -/
def shorten : List (List Char) → List (List Char)
  | [] => []
  | s :: rest => if isDrive (s.takeWhile (· != '\\')) then s :: rest else rest

/-- A step as it is kept: escaped, but for a drive at the root of a local path, which gets a
    colon. -/
def keep (k : Kind) (done : List (List Char)) (s : List Char) : List Char :=
  if k == .file && done.isEmpty && isDrive s then s.take 1 ++ [':']
  else Percent.escapeChars pathByte s

def resolve (k : Kind) : List (List Char) → List (List Char) → List (List Char)
  -- the steps that are done stand last one first
  | done, [] => done.reverse
  -- at the end of the path a dot step leaves the slash in front of it
  | done, [s] =>
    if isDoubleDot s then ([] :: shorten done).reverse
    else if isSingleDot s then ([] :: done).reverse
    else (keep k done s :: done).reverse
  | done, s :: rest =>
    if isDoubleDot s then resolve k (shorten done) rest
    else if isSingleDot s then resolve k done rest
    else resolve k (keep k done s :: done) rest

def stepsOf (k : Kind) (cs : List Char) : List (List Char) :=
  resolve k [] (Text.pieces k.isSlash cs)

/-- The path with these steps.  A local path starts with one slash, however many were written. -/
def hierarchy (k : Kind) (cs : List Char) : String :=
  let steps := Text.glue '/' (stepsOf k cs)
  String.ofList ('/' :: if k == .file then steps.dropWhile (· == '/') else steps)

def Kind.dropSlash (k : Kind) (cs : List Char) : List Char :=
  match cs with
  | c :: rest => if k.isSlash c then rest else c :: rest
  | [] => []

def splitTail (cs : List Char) : List Char × List Char := cs.span fun c => c != '?' && c != '#'

def readTail (k : Kind) (cs : List Char) : Option String × Option String :=
  let fragment (cs : List Char) : Option String := match cs with
    | _ :: rest => some (String.ofList (Percent.escapeChars fragmentByte rest))
    | [] => none
  match cs with
  | '?' :: rest =>
    let (query, hash) := rest.span (· != '#')
    let mayStand := if k == .other then queryByte else specialQueryByte
    (some (String.ofList (Percent.escapeChars mayStand query)), fragment hash)
  | _ => (none, fragment cs)

/-! ## 3. Authorities -/

def splitLogin (authority : List Char) : Option (List Char × List Char) :=
  if authority.contains '@' then
    let host := (authority.reverse.takeWhile (· != '@')).reverse
    some (authority.take (authority.length - host.length - 1), host)
  else none

def readLogin (cs : List Char) : String × Option String :=
  let user := cs.takeWhile (· != ':')
  let secret := (cs.drop user.length).drop 1
  let coded (cs : List Char) := String.ofList (Percent.escapeChars loginByte cs)
  (coded user, if secret.isEmpty then none else some (coded secret))

def splitPort : Bool → List Char → List Char × Option (List Char)
  | _, [] => ([], none)
  | inside, c :: rest =>
    if c == ':' && !inside then ([], some rest)
    else
      let inside := if c == '[' then true else if c == ']' then false else inside
      let (host, port) := splitPort inside rest
      (c :: host, port)

def readPort (scheme : String) (cs : List Char) : Except UriError (Option Nat) := do
  if cs.any (!·.isDigit) then throw .badPort
  let n := Nat.ofDigitChars 10 cs 0
  if n > 65535 then throw .badPort
  return if cs.isEmpty || defaultPort? scheme == some n then none else some n

def readAuthority (scheme : String) (k : Kind) (cs : List Char) : Except UriError Authority := do
  let login := splitLogin cs
  let (user, password) := match login with
    | some (l, _) => readLogin l
    | none => ("", none)
  let hostAndPort := match login with
    | some (_, rest) => rest
    | none => cs
  if login.isSome && hostAndPort.isEmpty then throw .emptyHost
  let (host, port) := splitPort false hostAndPort
  if k == .special && host.isEmpty then throw .emptyHost
  let host ← if k == .special then Host.readDomain host else Host.readOther host
  if host == .blank && port.isSome then throw .emptyHost
  let port ← match port with
    | some digits => readPort scheme digits
    | none => pure none
  if host == .blank && (!user.isEmpty || password.isSome) then throw .emptyHost
  return ⟨user, password, host, port⟩

def readFileHost (cs : List Char) : Except UriError Authority := do
  if cs.isEmpty then return .none
  let host ← Host.readDomain cs
  return if host == .name "localhost" then .none else ⟨"", none, host, none⟩

/-! ## 4. Whole texts -/

def pathAfter (k : Kind) (cs : List Char) : String :=
  if k == .other && cs.isEmpty then "" else hierarchy k (k.dropSlash cs)

def readNet (scheme : String) (k : Kind) (cs : List Char) : Except UriError Uri := do
  let authority := cs.takeWhile fun c => !(k.isSlash c || c == '?' || c == '#')
  let (path, tail) := splitTail (cs.drop authority.length)
  let (query, fragment) := readTail k tail
  let a ← readAuthority scheme k authority
  return ⟨scheme, some a, pathAfter k path, query, fragment⟩

/-- A local file from its host and what follows the root.  In front of a drive the host does not
    count. -/
def fileAt (a : Authority) (cs : List Char) : Uri :=
  let (path, tail) := splitTail cs
  let (query, fragment) := readTail .file tail
  let a := if (stepsOf .file path).head?.any isDrive then .none else a
  ⟨"file", some a, hierarchy .file path, query, fragment⟩

/-- Reads what follows `file:`.  A drive in place of the host belongs to the path. -/
def readFile (cs : List Char) : Except UriError Uri := do
  match cs with
  | c :: d :: rest =>
    if Kind.file.isSlash c && Kind.file.isSlash d then
      let host := rest.takeWhile fun c => !(Kind.file.isSlash c || c == '?' || c == '#')
      if isDrive host then return fileAt .none rest
      let a ← readFileHost host
      let path := rest.drop host.length
      -- Without a host the slash of the path is no root but an empty step in front, which keeps a
      -- drive behind it as it is written.
      return fileAt a (if a == .none then path else Kind.file.dropSlash path)
    else return fileAt .none (Kind.file.dropSlash cs)
  | _ => return fileAt .none (Kind.file.dropSlash cs)

def readOtherScheme (scheme : String) (cs : List Char) : Except UriError Uri :=
  match cs with
  | '/' :: '/' :: rest => readNet scheme .other rest
  | _ =>
    let (path, tail) := splitTail cs
    let (query, fragment) := readTail .other tail
    let path := match path with
      | '/' :: steps => hierarchy .other steps
      | free => String.ofList (Percent.escapeChars plainByte free)
    .ok ⟨scheme, none, path, query, fragment⟩

def strip (cs : List Char) : List Char :=
  let blank (c : Char) : Bool := c.toNat ≤ 0x20
  let cs := ((cs.dropWhile blank).reverse.dropWhile blank).reverse
  cs.filter fun c => c != '\t' && c != '\n' && c != '\r'

def parse (text : String) : Except UriError Uri :=
  match scheme? (strip text.toList) with
  | none => .error .noScheme
  | some (scheme, rest) =>
    match kindOf scheme with
    | .file => readFile rest
    | .special => readNet scheme .special (rest.dropWhile (Kind.special.isSlash ·))
    | .other => readOtherScheme scheme rest

end Intake.Uri
