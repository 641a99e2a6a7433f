import Intake.Catalog
import Intake.Error
import Intake.Instant

/-!
# Files — a tree of files in memory

The tree is a map from places to nodes.  A place is the list of parts of a path, so all spellings
of a path reach one node; the spelling under which a node was first put there is kept and is the
one that its directory lists.  Putting a node makes directories of all places above it that hold
nothing.
-/

namespace Intake

inductive Node where
  | dir
  | file (size : Nat) (modified : Instant)
  deriving DecidableEq, Repr, Inhabited

def Node.isFile : Node → Bool
  | dir => false
  | file _ _ => true

structure FileInfo where
  isDir : Bool
  isFile : Bool
  size : Nat
  modified : Option Instant
  deriving DecidableEq, Repr

def Node.info : Node → FileInfo
  | dir => ⟨true, false, 0, none⟩
  | file size modified => ⟨false, true, size, some modified⟩

abbrev Place := List Path.Part

/-- **Files.**  The nodes of a tree, each with the spelling of its place. -/
structure Files where
  nodes : Catalog Place (Path × Node)

namespace Files

/-! ## 1. Reading -/

def empty : Files := ⟨.empty⟩

instance : Inhabited Files := ⟨empty⟩

def at? (fs : Files) (place : Place) : Option Node := (fs.nodes.get? place).map Prod.snd

def find? (fs : Files) (p : Path) : Option Node := fs.at? p.parts

def contains (fs : Files) (p : Path) : Bool := fs.nodes.contains p.parts

def isBelow (above place : Place) : Bool :=
  place != [] && place != [.root] && place.dropLast == above

def children (fs : Files) (above : Place) : List Path :=
  ((fs.nodes.entries.filter fun e => isBelow above e.1).map fun e => e.2.1).mergeSort
    Path.sortsBefore

def missing (call : String) (p : Path) : IoError :=
  ⟨.notFound, call ++ " on missing path: " ++ p.text⟩

def readDir (fs : Files) (p : Path) : Except IoError (List Path) :=
  match fs.find? p with
  | some .dir => .ok (fs.children p.parts)
  | some (.file _ _) => .error ⟨.notADirectory, "read_dir on file: " ++ p.text⟩
  | none => .error (missing "read_dir" p)

def metadata (fs : Files) (p : Path) : Except IoError FileInfo :=
  match fs.find? p with
  | some n => .ok n.info
  | none => .error (missing "metadata" p)

/-! ## 2. Writing -/

/-- Puts a node at the place of a path; an earlier spelling of the place is kept. -/
def put (fs : Files) (p : Path) (n : Node) : Files :=
  let spelled := match fs.nodes.get? p.parts with
    | some (first, _) => first
    | none => p
  ⟨fs.nodes.insert p.parts (spelled, n)⟩

def ensureDir (fs : Files) (p : Path) : Files := if fs.contains p then fs else fs.put p .dir

def ensureParents (fs : Files) (p : Path) : Files := p.ancestors.foldl ensureDir fs

def addDir (fs : Files) (p : Path) : Files := (fs.ensureParents p).ensureDir p

def addFile (fs : Files) (p : Path) (size : Nat) (modified : Instant) : Files :=
  (fs.ensureParents p).put p (.file size modified)

def erase (fs : Files) (p : Path) : Files := ⟨fs.nodes.erase p.parts⟩

def removeFile (fs : Files) (p : Path) : Except IoError Files :=
  match fs.find? p with
  | some (.file _ _) => .ok (fs.erase p)
  | some .dir => .error ⟨.isADirectory, "remove_file on directory: " ++ p.text⟩
  | none => .error (missing "remove_file" p)

def rename (fs : Files) (source target : Path) : Except IoError Files :=
  match fs.find? source with
  | some (.file size modified) => .ok ((fs.erase source).addFile target size modified)
  | some .dir => .error ⟨.isADirectory, "rename of directory: " ++ source.text⟩
  | none => .error (missing "rename" source)

/-! ## 3. The view -/

theorem at?_eq_some_iff {fs : Files} {place : Place} {n : Node} :
    fs.at? place = some n ↔ ∃ spelled, fs.nodes.get? place = some (spelled, n) := by
  unfold at?
  rw [Option.map_eq_some_iff]
  constructor
  · rintro ⟨⟨spelled, n'⟩, hget, rfl⟩
    exact ⟨spelled, hget⟩
  · rintro ⟨spelled, hget⟩
    exact ⟨(spelled, n), hget, rfl⟩

theorem at?_put (fs : Files) (p : Path) (n : Node) (place : Place) :
    (fs.put p n).at? place = if place = p.parts then some n else fs.at? place := by
  simp only [at?, put, Catalog.get?_insert]
  split <;> simp

theorem at?_erase (fs : Files) (p : Path) (place : Place) :
    (fs.erase p).at? place = if place = p.parts then none else fs.at? place := by
  simp only [at?, erase, Catalog.get?_erase]
  split <;> simp

theorem find?_put (fs : Files) (p q : Path) (n : Node) :
    (fs.put p n).find? q = if q.parts = p.parts then some n else fs.find? q :=
  fs.at?_put p n q.parts

theorem find?_erase (fs : Files) (p q : Path) :
    (fs.erase p).find? q = if q.parts = p.parts then none else fs.find? q :=
  fs.at?_erase p q.parts

theorem contains_eq_isSome (fs : Files) (p : Path) : fs.contains p = (fs.find? p).isSome := by
  simp [contains, find?, at?, Catalog.contains_eq_isSome]

end Files

end Intake
