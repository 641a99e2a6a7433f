import Intake.Path
import Intake.Uri.Host

/-!
# Uri — where a file is

A URI has a scheme, perhaps an authority, a path, and perhaps a query and a fragment.  The path is
kept as it is written: it starts with a slash if it is a hierarchy, and is free text if it is not.
`Uri.ofPath?` names a local file and `Uri.toPath?` finds it again; what lies between is percent
coding of each step of the path.
-/

namespace Intake

namespace Uri

/-- **Authority.**  Credentials, host and port; a default port is left out. -/
structure Authority where
  user : String
  password : Option String
  host : Host
  port : Option Nat
  deriving DecidableEq, Repr, Inhabited

def Authority.none : Authority := ⟨"", .none, .blank, .none⟩

def Authority.text (a : Authority) : String :=
  let login := match a.password with
    | some secret => a.user ++ ":" ++ secret ++ "@"
    | .none => if a.user.isEmpty then "" else a.user ++ "@"
  let port := match a.port with
    | some n => ":" ++ toString n
    | .none => ""
  login ++ a.host.text ++ port

end Uri

structure Uri where
  scheme : String
  authority : Option Uri.Authority
  path : String
  query : Option String
  fragment : Option String
  deriving DecidableEq, Repr, Inhabited

namespace Uri

/-! ## 1. Text -/

/-- What stands between scheme and path.  Without an authority a path that starts with two
    slashes is marked off, so that it is not read as one. -/
def middle (u : Uri) : String :=
  match u.authority with
  | some a => "//" ++ a.text
  | none => if u.path.startsWith "//" then "/." else ""

def text (u : Uri) : String :=
  u.scheme ++ ":" ++ u.middle ++ u.path ++
    (match u.query with | some q => "?" ++ q | none => "") ++
    (match u.fragment with | some f => "#" ++ f | none => "")

def segments? (u : Uri) : Option (List (List Char)) :=
  match u.path.toList with
  | '/' :: rest => some (Text.pieces (· == '/') rest)
  | _ => none

/-! ## 2. Byte sets -/

def plainByte (b : UInt8) : Bool := 0x20 ≤ b && b != 0x7F

def isOneOf (chars : String) (b : UInt8) : Bool := chars.toList.any fun c => c.toNat == b.toNat

def fragmentByte (b : UInt8) : Bool := plainByte b && !isOneOf " \"<>\x60" b

def queryByte (b : UInt8) : Bool := plainByte b && !isOneOf " \"#<>" b

def specialQueryByte (b : UInt8) : Bool := queryByte b && b != 0x27

def pathByte (b : UInt8) : Bool := fragmentByte b && !isOneOf "#?\x7b\x7d" b

def segmentByte (b : UInt8) : Bool := pathByte b && !isOneOf "/%\\" b

def loginByte (b : UInt8) : Bool := pathByte b && !isOneOf "/:;=@[\\]^|" b

/-! ## 3. Local files -/

def pathOfParts (parts : List Path.Part) : List Char :=
  match parts with
  | [] => ['/']
  | _ => parts.flatMap fun part => '/' :: Percent.escape segmentByte part.bytes

/-- **The URI of a local file.**  A relative path has none. -/
def ofPath? (p : Path) : Option Uri :=
  match p.parts with
  | .root :: rest =>
    some ⟨"file", some .none, String.ofList (pathOfParts rest), none, none⟩
  | _ => none

def isLetterByte (b : UInt8) : Bool := (0x41 ≤ b && b ≤ 0x5A) || (0x61 ≤ b && b ≤ 0x7A)

/-- A path that ends like a drive, in a letter and a colon or bar, gets a closing slash. -/
def closeDrive (bs : Bytes) : Bytes :=
  match bs.reverse with
  | mark :: letter :: _ :: _ =>
    if (mark == 0x3A || mark == 0x7C) && isLetterByte letter then bs ++ [Path.slash] else bs
  | _ => bs

def isHere (u : Uri) : Bool :=
  match u.authority with
  | none => true
  | some a => a.host == .blank || a.host == .name "localhost"

/-- **The local path** that a hierarchical URI without a foreign host spells.  The scheme does not
    matter. -/
def toPath? (u : Uri) : Option Path :=
  match u.segments? with
  | some segments =>
    if u.isHere then
      some ⟨closeDrive (segments.flatMap fun s => Path.slash :: Percent.unescape s)⟩
    else none
  | none => none

def isFile (u : Uri) : Bool := u.scheme == "file"

end Uri

end Intake
