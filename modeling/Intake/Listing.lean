import Intake.Event
import Intake.Files.Volume
import Intake.Filter

/-!
# Listing — the files below a directory

A listing walks the directories below its root, nearest first, and describes every regular file
that its filters accept.  What cannot be read below the root is skipped and reported; a root that
cannot be read ends the listing, and so do a stream of entries that breaks off and a file that
cannot be described.
-/

namespace Intake

/-- How an operation ends that does not succeed: with an error, or by breaking down. -/
inductive Failure where
  | error (cause : Error)
  | breakdown
  deriving Repr

structure Listing where
  root : Path
  recursive : Bool
  filters : List Filter

namespace Listing

/-! ## 1. Building -/

def name : String := "local-filesystem"

def ofRoot (root : Path) : Listing := ⟨root.absolute, true, []⟩

def withFilter (l : Listing) (f : Filter) : Listing := { l with filters := l.filters ++ [f] }

def ofConfig (c : ListingConfig) : Except ConfigFault Listing := do
  c.validate
  let named ←
    if c.includePattern.isSome || c.excludePattern.isSome then
      pure [← Filter.byName c.includePattern c.excludePattern]
    else pure []
  let sized := if c.minSizeBytes > 0 then [.minSize c.minSizeBytes] else []
  let visible := if c.ignoreHidden then [.visible] else []
  return ⟨(Path.ofText c.root).absolute, c.recursive, named ++ sized ++ visible⟩

def text (l : Listing) : String :=
  "LocalFileSystemListing \x7b root: " ++ Text.quotedPath l.root.text ++ ", recursive: " ++
    (if l.recursive then "true" else "false") ++ ", filters: [" ++
    ", ".intercalate (l.filters.map Filter.text) ++ "] \x7d"

/-! ## 2. Describing files -/

def accepts (l : Listing) (m : Metadata) : Bool := l.filters.all (·.accepts m)

/-- **Describes a file.**  A file without time counts as one of 1970; a time that no date can name
    breaks the listing down. -/
def describe (p : Path) (info : FileInfo) : Except Failure Metadata :=
  let modified := info.modified.getD .epoch
  if modified.isDated then
    match Metadata.ofLocalPath? p info.size modified with
    | .ok m => .ok m
    | .error e => .error (.error (.model e))
  else .error .breakdown

/-! ## 3. Walking -/

/-- **What a walk has seen:** files, directories that wait, events, and the failure that ended it,
    if there is one. -/
structure Sight where
  files : List Metadata := []
  waiting : List Path := []
  events : List Event := []
  failure : Option Failure := none

def Sight.failed (f : Failure) : Sight := { failure := some f }

def Sight.before (a b : Sight) : Sight :=
  ⟨a.files ++ b.files, a.waiting ++ b.waiting, a.events ++ b.events, b.failure⟩

def entrySight (l : Listing) (v : Volume) (p : Path) : Sight :=
  match v.metadata p with
  | .error e => { events := [.entrySkipped p e] }
  | .ok info =>
    if info.isDir then { waiting := if l.recursive then [p] else [] }
    else if !info.isFile then {}
    else
      match describe p info with
      | .error f => .failed f
      | .ok m => { files := if l.accepts m then [m] else [] }

def entriesSight (l : Listing) (v : Volume) : List Path → Sight
  | [] => {}
  | p :: rest =>
    let first := l.entrySight v p
    if first.failure.isSome then first else first.before (entriesSight l v rest)

def directorySight (l : Listing) (v : Volume) (dir : Path) : Sight :=
  match v.readDir dir with
  | .error e =>
    if dir.same l.root then .failed (.error (.io e)) else { events := [.directorySkipped dir e] }
  | .ok stream =>
    let seen := l.entriesSight v stream.entries
    match stream.failure with
    | some e => if seen.failure.isSome then seen else { seen with failure := some (.error (.io e)) }
    | none => seen

/-- **Walks** the directories of a queue.  The first argument bounds their number. -/
def walk (l : Listing) (v : Volume) : Nat → List Path → Sight
  | 0, _ => {}
  | _, [] => {}
  | steps + 1, dir :: queue =>
    let seen := l.directorySight v dir
    if seen.failure.isSome then seen
    else { seen with waiting := [] }.before (walk l v steps (queue ++ seen.waiting))

-- every directory is a node or the root
def reach (v : Volume) : Nat := v.size + 1

def find (l : Listing) (v : Volume) : List Event × Except Failure (List Metadata) :=
  if v.contains l.root then
    let seen := l.walk v (reach v) [l.root]
    (seen.events, match seen.failure with
      | some f => .error f
      | none => .ok seen.files)
  else ([], .error (.error (.missingRoot l.root)))

end Listing

end Intake
