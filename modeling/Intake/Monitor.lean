import Intake.Cleanup
import Intake.Candidates
import Intake.Config
import Intake.Store

/-!
# Monitor — the work that is being managed

A monitor knows the files that are handed out (`scheduled`), those that a scan found and that wait
to be handed out (`scanned`), and the records whose work has ended and that wait for cleanup
(`completed`).  It keeps a snapshot of the state log, and hears of every entry as it is applied.
-/

namespace Intake

inductive Phase where
  | notStarted
  | running
  | stopped
  deriving DecidableEq, Repr, Inhabited

def Phase.name : Phase → String
  | notStarted => "NotStarted"
  | running => "Running"
  | stopped => "Stopped"

/-- **Monitor.**  `changed` says that a scanned file was finished by someone else, `requested` that
    the host was asked to pull, and `rescanAt` when new files may be handed out next to old ones. -/
structure Monitor where
  config : Config
  keyOf : KeyRule
  listing : String
  phase : Phase := .notStarted
  scheduled : Catalog PartitionKey Metadata := .empty
  scanned : Catalog PartitionKey Metadata := .empty
  completed : List Record := []
  changed : Bool := false
  requested : Bool := false
  rescanAt : Option Nat := none
  snapshot : Snapshot := .empty

namespace Monitor

def new (config : Config) (keyOf : KeyRule) (listing : String) : Monitor :=
  { config, keyOf, listing }

instance : Inhabited Monitor := ⟨new default KeyPolicy.byUri.keyOf ""⟩

/-! ## 1. News from the log -/

/-- **Hears of an entry** of the log.  Finished work is queued for cleanup and no longer waits to be
    handed out; cleaned work is no longer handed out. -/
def observe (m : Monitor) (e : LogEntry) : Monitor × List Event :=
  match e.value with
  | none => (m, [])
  | some r =>
    if r.status.isCompleted then
      ({ m with
          completed := m.completed ++ [r.withKey e.key]
          scanned := m.scanned.erase e.key
          changed := m.changed || m.scanned.contains e.key }, [])
    else if r.status.isCleaned then
      if m.scheduled.contains e.key then ({ m with scheduled := m.scheduled.erase e.key }, [])
      else (m, [.cleanedUnscheduled e.key])
    else (m, [])

def keepSnapshot (m : Monitor) (s : Snapshot) : Monitor := { m with snapshot := s }

def recover (m : Monitor) : Monitor :=
  let finished := m.snapshot.states.entries.filter fun e => e.2.status.isCompleted
  { m with completed := m.completed ++ finished.map fun e => e.2.withKey e.1 }

/-! ## 2. Cleanup -/

def drain (m : Monitor) : Monitor × List Record := ({ m with completed := [] }, m.completed)

def requeue (m : Monitor) (r : Record) : Monitor := { m with completed := m.completed ++ [r] }

/-! ## 3. Scans -/

/-- Whether new files may be looked for: nothing is handed out, or a reconfiguration is allowed. -/
def mayScan (m : Monitor) : Bool :=
  m.scheduled.isEmpty || m.config.reconfigurationAfterTimeoutMs.isSome

def hasNews (m : Monitor) (candidates : Catalog PartitionKey Metadata) : Bool :=
  !candidates.keys.all m.scheduled.contains

def publish (m : Monitor) (candidates : Catalog PartitionKey Metadata) : Monitor :=
  { m with rescanAt := none, scanned := m.scanned.insertAll candidates.entries }

/-! ## 4. Batches -/

def candidates (m : Monitor) : List (PartitionKey × Metadata) :=
  m.scanned.entries.filter fun e => !m.scheduled.contains e.1

def staged (m : Monitor) (maxFiles : Nat) : List (PartitionKey × Metadata) :=
  let found := m.candidates
  if found.length > maxFiles then
    (found.mergeSort fun a b => a.2.precedes b.2).take maxFiles
  else found

def stage (m : Monitor) (files : List (PartitionKey × Metadata)) : Monitor :=
  { m with scheduled := m.scheduled.insertAll files }

def unstage (m : Monitor) (keys : List PartitionKey) : Monitor :=
  { m with scheduled := m.scheduled.filter fun k _ => !keys.contains k }

def settle (m : Monitor) : Monitor := { m with scanned := .empty, requested := false }

/-! ## 5. Description -/

def text (m : Monitor) : String :=
  "FileSystemMonitor \x7b phase: " ++ m.phase.name ++ ", listing: " ++ Text.quoted m.listing ++
    ", scheduled: " ++ toString m.scheduled.size ++ ", scanned: " ++ toString m.scanned.size ++
    ", completed: " ++ toString m.completed.length ++ ", log_position: " ++
    toString m.snapshot.offset ++ " \x7d"

end Monitor

end Intake
