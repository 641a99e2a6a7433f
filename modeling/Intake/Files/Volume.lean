import Intake.Files.Disk

/-!
# Volume — where a monitor finds its files

A volume is a tree in memory or a disk, with faults laid over it: paths at which a call fails or
reports less than there is.  Paths match a fault by place, not by spelling.
-/

namespace Intake

/-- **Faults.**  The paths at which each call misbehaves: the first four fail, a stream of entries
    breaks off behind its last entry, a special node is neither file nor directory, and a node
    without time does not tell when it was modified. -/
structure Faults where
  readDir : List Path := []
  metadata : List Path := []
  removeFile : List Path := []
  rename : List Path := []
  nextEntry : List Path := []
  special : List Path := []
  noTime : List Path := []
  deriving Repr, Inhabited

def Faults.hit (paths : List Path) (p : Path) : Bool := paths.any p.same

def Faults.denied (call : String) : IoError := ⟨.permissionDenied, call ++ " denied"⟩

inductive Backing where
  | memory (files : Files)
  | disk (disk : Disk)
  deriving Inhabited

structure Volume where
  backing : Backing
  faults : Faults := {}
  deriving Inhabited

namespace Volume

/-! ## 1. Reading -/

def contains (v : Volume) (p : Path) : Bool :=
  match v.backing with
  | .memory files => files.contains p
  | .disk disk => disk.contains p

structure Stream where
  entries : List Path
  failure : Option IoError := none
  deriving Repr

def readDir (v : Volume) (p : Path) : Except IoError Stream := do
  if Faults.hit v.faults.readDir p then throw (Faults.denied "read_dir")
  let entries ← match v.backing with
    | .memory files => files.readDir p
    | .disk disk => disk.readDir p
  if Faults.hit v.faults.nextEntry p then return ⟨entries, some (Faults.denied "next_entry")⟩
  return ⟨entries, none⟩

def metadata (v : Volume) (p : Path) : Except IoError FileInfo := do
  if Faults.hit v.faults.metadata p then throw (Faults.denied "metadata")
  let info ← match v.backing with
    | .memory files => files.metadata p
    | .disk disk => disk.metadata p
  let special := Faults.hit v.faults.special p
  let noTime := Faults.hit v.faults.noTime p
  return ⟨info.isDir && !special, info.isFile && !special, info.size,
    if noTime then none else info.modified⟩

/-! ## 2. Writing -/

def addDir (v : Volume) (p : Path) : Volume :=
  { v with backing := match v.backing with
    | .memory files => .memory (files.addDir p)
    | .disk disk => .disk (disk.addDir p) }

def addFile (v : Volume) (p : Path) (size : Nat) (modified : Instant) : Volume :=
  { v with backing := match v.backing with
    | .memory files => .memory (files.addFile p size modified)
    | .disk disk => .disk (disk.addFile p size modified) }

def removeFile (v : Volume) (p : Path) : Volume × Except IoError Unit :=
  if Faults.hit v.faults.removeFile p then (v, .error (Faults.denied "remove_file"))
  else
    match v.backing with
    | .memory files =>
      match files.removeFile p with
      | .ok files => ({ v with backing := .memory files }, .ok ())
      | .error e => (v, .error e)
    | .disk disk =>
      match disk.removeFile p with
      | .ok disk => ({ v with backing := .disk disk }, .ok ())
      | .error e => (v, .error e)

def rename (v : Volume) (source target : Path) : Volume × Except IoError Unit :=
  if Faults.hit v.faults.rename source then (v, .error (Faults.denied "rename"))
  else
    match v.backing with
    | .memory files =>
      match files.rename source target with
      | .ok files => ({ v with backing := .memory files }, .ok ())
      | .error e => (v, .error e)
    | .disk disk =>
      let (disk, result) := disk.rename source target
      ({ v with backing := .disk disk }, result)

/-! ## 3. Overview -/

def entriesOf (v : Volume) (p : Path) : List Path :=
  match v.readDir p with
  | .ok ⟨entries, none⟩ => entries
  | _ => []

def levelsBelow (v : Volume) : Nat → List Path → List String
  | 0, _ => []
  | levels + 1, dirs =>
    let found := (dirs.flatMap v.entriesOf).map fun p =>
      match v.metadata p with
      | .ok info => (p, info.isDir)
      | .error _ => (p, false)
    let below := (found.filter (·.2)).map (·.1)
    let texts := found.map fun (p, isDir) => if isDir then p.text ++ "/" else p.text
    texts ++ (if below.isEmpty then [] else v.levelsBelow levels below)

def size (v : Volume) : Nat :=
  match v.backing with
  | .memory files => files.nodes.size
  | .disk disk => disk.nodes.size

def tree (v : Volume) (p : Path) : List String :=
  (v.levelsBelow (v.size + 1) [p]).mergeSort fun a b => a ≤ b

end Volume

end Intake
