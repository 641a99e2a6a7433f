import Intake.Text.Utf8
import Intake.Text.Pieces

/-!
# Path — names of files

A path is a run of bytes; slashes divide it.  Two paths name the same place when their parts
agree, so `/in//a`, `/in/./a` and `/in/a/` are one place with three spellings, while `..` stays a
part of its own.  The order of paths is the order of their parts.
-/

namespace Intake

/-- **Path.**  A path as it is spelled. -/
structure Path where
  bytes : Bytes
  deriving DecidableEq, Repr, Inhabited

/-- **Part.**  One step of a path, in the order in which parts sort. -/
inductive Path.Part where
  | root
  | here
  | up
  | name (bytes : Bytes)
  deriving DecidableEq, Repr, Inhabited

namespace Path

def slash : UInt8 := 0x2F

def dot : Bytes := [0x2E]

def dotDot : Bytes := [0x2E, 0x2E]

/-! ## 1. Spelling -/

def ofText (s : String) : Path := ⟨Text.encode s⟩

def text (p : Path) : String := Text.decodeLossy p.bytes

def isAbsolute (p : Path) : Bool := p.bytes.head? == some slash

def body (p : Path) : Bytes :=
  match p.bytes with
  | b :: rest => if b == slash then rest else b :: rest
  | [] => []

def pieces (p : Path) : List Bytes := Text.pieces (· == slash) p.body

/-! ## 2. Parts -/

def partOfPiece (piece : Bytes) : Option Part :=
  if piece = [] ∨ piece = dot then none
  else if piece = dotDot then some .up
  else some (.name piece)

/-- The parts of a relative path: a leading dot counts, later ones do not. -/
def relativeParts : List Bytes → List Part
  | [] => []
  | piece :: rest =>
    (if piece = dot then [.here] else (partOfPiece piece).toList) ++ rest.filterMap partOfPiece

def parts (p : Path) : List Part :=
  if p.isAbsolute then .root :: p.pieces.filterMap partOfPiece else relativeParts p.pieces

def same (p q : Path) : Bool := p.parts == q.parts

def fileName? (p : Path) : Option Bytes :=
  match p.parts.getLast? with
  | some (.name bytes) => some bytes
  | _ => none

/-! ## 3. Order -/

def Part.rank : Part → Nat
  | .root => 0
  | .here => 1
  | .up => 2
  | .name _ => 3

def compareBytes : Bytes → Bytes → Ordering
  | [], [] => .eq
  | [], _ :: _ => .lt
  | _ :: _, [] => .gt
  | a :: as, b :: bs => if a < b then .lt else if b < a then .gt else compareBytes as bs

def Part.compare : Part → Part → Ordering
  | .name a, .name b => compareBytes a b
  | a, b => Ord.compare a.rank b.rank

def compareParts : List Part → List Part → Ordering
  | [], [] => .eq
  | [], _ :: _ => .lt
  | _ :: _, [] => .gt
  | a :: as, b :: bs =>
    match a.compare b with
    | .eq => compareParts as bs
    | other => other

def sortsBefore (p q : Path) : Bool := compareParts p.parts q.parts != .gt

/-! ## 4. Parents and joins -/

/-- Removes pieces that spell no part from the end of a reversed list of pieces.  The first piece
    of a relative path counts even if it is a dot. -/
def dropBlank (absolute : Bool) : List Bytes → List Bytes
  | [] => []
  | piece :: rest =>
    if piece = [] ∨ (piece = dot ∧ (absolute ∨ rest ≠ [])) then dropBlank absolute rest
    else piece :: rest

/-- **The path above:** the spelling without its last part, and without what trails the part
    before.  The root and the empty path have none. -/
def parent? (p : Path) : Option Path :=
  match dropBlank p.isAbsolute p.pieces.reverse with
  | [] => none
  | _ :: above =>
    let kept := (dropBlank p.isAbsolute above).reverse
    let start := if p.isAbsolute then [slash] else []
    some ⟨start ++ Text.glue slash kept⟩

def ancestorsFrom : Nat → Path → List Path
  | 0, _ => []
  | n + 1, p =>
    match p.parent? with
    | none => []
    | some q => q :: ancestorsFrom n q

def ancestors (p : Path) : List Path :=
  (ancestorsFrom (p.bytes.length + 1) p).filter fun q => !q.bytes.isEmpty

def join (p q : Path) : Path :=
  if q.isAbsolute then q
  else if p.bytes.isEmpty ∨ p.bytes.getLast? = some slash then ⟨p.bytes ++ q.bytes⟩
  else ⟨p.bytes ++ slash :: q.bytes⟩

def Part.bytes : Part → Bytes
  | .root => [slash]
  | .here => dot
  | .up => dotDot
  | .name bytes => bytes

/-- **Absolute spelling** of a path as seen from the root: blank pieces and dots are removed, two
    leading slashes and a trailing one are kept.  The empty path stays empty. -/
def absolute (p : Path) : Path :=
  if p.bytes.isEmpty then p
  else
    let start := match p.bytes with
      | 0x2F :: 0x2F :: 0x2F :: _ => [slash]
      | 0x2F :: 0x2F :: _ => [slash, slash]
      | _ => [slash]
    let steps := (p.parts.filter fun part => part != .root && part != .here).map Part.bytes
    let spelled := start ++ Text.glue slash steps
    let trailing := p.bytes.getLast? == some slash && spelled.getLast? != some slash
    ⟨if trailing then spelled ++ [slash] else spelled⟩

end Path

end Intake
