import Intake.Files

/-!
# Disk — a tree of files as an operating system keeps it

Here a path is walked step by step: every step but the last must reach a directory, a trailing
slash asks for one, and `..` leads back.  Failures carry the system's error numbers.  Moving a file
makes the directories above its target first, and they stay if the move then fails.
-/

namespace Intake

inductive SystemError where
  | noEntry
  | busy
  | «exists»
  | notDirectory
  | isDirectory
  | invalid
  | nameTooLong
  | notEmpty
  deriving DecidableEq, Repr

namespace SystemError

def kind : SystemError → IoKind
  | noEntry => .notFound
  | busy => .resourceBusy
  | «exists» => .alreadyExists
  | notDirectory => .notADirectory
  | isDirectory => .isADirectory
  | invalid => .invalidInput
  | nameTooLong => .invalidFilename
  | notEmpty => .directoryNotEmpty

def text : SystemError → String
  | noEntry => "No such file or directory (os error 2)"
  | busy => "Device or resource busy (os error 16)"
  | «exists» => "File exists (os error 17)"
  | notDirectory => "Not a directory (os error 20)"
  | isDirectory => "Is a directory (os error 21)"
  | invalid => "Invalid argument (os error 22)"
  | nameTooLong => "File name too long (os error 36)"
  | notEmpty => "Directory not empty (os error 39)"

def toIo (e : SystemError) : IoError := ⟨e.kind, e.text⟩

def during (call : String) (p : Path) (e : SystemError) : IoError :=
  ⟨e.kind, call ++ " failed for " ++ p.text ++ ": " ++ e.text⟩

end SystemError

/-- **Disk.**  The nodes below the root, each at the list of names that leads to it. -/
structure Disk where
  nodes : Catalog (List Bytes) Node

namespace Disk

/-! ## 1. Walking -/

def empty : Disk := ⟨.empty⟩

instance : Inhabited Disk := ⟨empty⟩

def at? (d : Disk) (names : List Bytes) : Option Node :=
  if names.isEmpty then some .dir else d.nodes.get? names

def maxName : Nat := 255

def stays (piece : Bytes) : Bool := piece.isEmpty || piece == Path.dot

def walk (d : Disk) (here : List Bytes) : List Bytes → Except SystemError (List Bytes)
  | [] => .ok here
  | piece :: rest =>
    if d.at? here != some .dir then .error .notDirectory
    else if stays piece then walk d here rest
    else if piece == Path.dotDot then walk d here.dropLast rest
    else if piece.length > maxName then .error .nameTooLong
    else if (d.at? (here ++ [piece])).isSome then walk d (here ++ [piece]) rest
    else .error .noEntry

def reach (d : Disk) (p : Path) : Except SystemError (List Bytes × Node) := do
  if p.bytes.isEmpty then throw .noEntry
  let names ← d.walk [] p.pieces
  match d.at? names with
  | some n => return (names, n)
  | none => throw .noEntry

structure Entry where
  directory : List Bytes
  name : Bytes
  trailing : Bool

def Entry.names (e : Entry) : List Bytes := e.directory ++ [e.name]

def entry (d : Disk) (p : Path) : Except SystemError (Option Entry) := do
  if p.bytes.isEmpty then throw .noEntry
  let reversed := p.pieces.reverse
  let trailing := reversed.head? == some []
  match reversed.dropWhile (·.isEmpty) with
  | [] => return none
  | last :: above =>
    let directory ← d.walk [] above.reverse
    if d.at? directory != some .dir then throw .notDirectory
    if last == Path.dot || last == Path.dotDot then return none
    if last.length > maxName then throw .nameTooLong
    return some ⟨directory, last, trailing⟩

def childNames (d : Disk) (above : List Bytes) : List Bytes :=
  ((d.nodes.keys.filter fun names => !names.isEmpty && names.dropLast == above).filterMap
    List.getLast?).mergeSort fun a b => Path.compareBytes a b != .gt

/-! ## 2. Reading -/

def contains (d : Disk) (p : Path) : Bool :=
  match d.reach p with
  | .ok _ => true
  | .error _ => false

def readDir (d : Disk) (p : Path) : Except IoError (List Path) :=
  match d.reach p with
  | .ok (names, .dir) => .ok ((d.childNames names).map fun name => p.join ⟨name⟩)
  | .ok _ => .error (SystemError.during "read_dir" p .notDirectory)
  | .error e => .error (e.during "read_dir" p)

def metadata (d : Disk) (p : Path) : Except IoError FileInfo :=
  match d.reach p with
  | .ok (_, n) => .ok n.info
  | .error e => .error (e.during "metadata" p)

/-! ## 3. Writing -/

def makeDir (d : Disk) (p : Path) : Except SystemError Disk := do
  match ← d.entry p with
  | none => throw .exists
  | some e =>
    if (d.at? e.names).isSome then throw .exists
    return ⟨d.nodes.insert e.names .dir⟩

def isDir (d : Disk) (p : Path) : Bool :=
  match d.reach p with
  | .ok (_, .dir) => true
  | _ => false

/-- Makes a directory after the ones above it, nearest first, that are missing. -/
def makeDirs (d : Disk) : List Path → Except SystemError Disk
  | [] => .ok d
  | p :: above =>
    match d.makeDir p with
    | .ok made => .ok made
    | .error .noEntry =>
      match makeDirs d above with
      | .error e => .error e
      | .ok d =>
        match d.makeDir p with
        | .ok made => .ok made
        | .error e => if d.isDir p then .ok d else .error e
    | .error e => if d.isDir p then .ok d else .error e

def createDirs (d : Disk) (p : Path) : Except SystemError Disk :=
  if p.bytes.isEmpty then .ok d else d.makeDirs (p :: p.ancestors)

def addDir (d : Disk) (p : Path) : Disk :=
  match d.createDirs p with
  | .ok made => made
  | .error _ => d

def addFile (d : Disk) (p : Path) (size : Nat) (modified : Instant) : Disk :=
  let d := match p.parent? with
    | some above => d.addDir above
    | none => d
  match d.entry p with
  | .ok (some e) =>
    if e.trailing || d.at? e.names == some .dir then d
    else ⟨d.nodes.insert e.names (.file size modified)⟩
  | _ => d

def removeFile (d : Disk) (p : Path) : Except IoError Disk :=
  match d.entry p with
  | .error e => .error e.toIo
  | .ok none => .error SystemError.isDirectory.toIo
  | .ok (some e) =>
    match d.at? e.names with
    | none => .error SystemError.noEntry.toIo
    | some .dir => .error SystemError.isDirectory.toIo
    | some (.file _ _) =>
      if e.trailing then .error SystemError.notDirectory.toIo
      else .ok ⟨d.nodes.erase e.names⟩

def transplant (d : Disk) (source target : List Bytes) : Disk :=
  let rest := d.nodes.filter fun names _ => !source.isPrefixOf names && names != target
  let moved := (d.nodes.entries.filter fun e => source.isPrefixOf e.1).map fun e =>
    (target ++ e.1.drop source.length, e.2)
  ⟨rest.insertAll moved⟩

def move (d : Disk) (source target : Path) : Except SystemError Disk := do
  let sourceEntry ← d.entry source
  let targetEntry ← d.entry target
  match sourceEntry, targetEntry with
  | some s, some t =>
    match d.at? s.names with
    | none => throw .noEntry
    | some (.file _ _) =>
      -- a slash behind a name asks for a directory, at either end
      if s.trailing || t.trailing then throw .notDirectory
      if s.names == t.names then return d
      if d.at? t.names == some .dir then
        throw (if t.names.isPrefixOf s.names then .notEmpty else .isDirectory)
      return d.transplant s.names t.names
    | some .dir =>
      if s.names == t.names then return d
      -- nothing moves below itself, and what holds the source is not empty
      if s.names.isPrefixOf t.names then throw .invalid
      if t.names.isPrefixOf s.names then throw .notEmpty
      match d.at? t.names with
      | some (.file _ _) => throw .notDirectory
      | some .dir =>
        if (d.childNames t.names).isEmpty then return d.transplant s.names t.names
        throw .notEmpty
      | none => return d.transplant s.names t.names
  | _, _ => throw .busy

/-- **Moves a file or a directory.**  The directories above the target are made first; the disk
    that comes with a failure has them too. -/
def rename (d : Disk) (source target : Path) : Disk × Except IoError Unit :=
  let made : Except IoError Disk := match target.parent? with
    | some above =>
      match d.createDirs above with
      | .ok made => .ok made
      | .error e => .error (e.during "create_dir_all" above)
    | none => .ok d
  match made with
  | .error e => (d, .error e)
  | .ok d =>
    match d.move source target with
    | .ok moved => (moved, .ok ())
    | .error e => (d, .error (e.during "rename" source))

end Disk

end Intake
