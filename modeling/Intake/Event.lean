import Intake.Json
import Intake.Record
import Intake.Text.Quoted

/-!
# Event — what is reported on the side

Failures that do not end an operation are reported as events.  Like errors they are causes; their
level, wording and fields are functions of the cause.
-/

namespace Intake

inductive Event where
  | directorySkipped (path : Path) (cause : IoError)
  | entrySkipped (path : Path) (cause : IoError)
  | cleanupFailed (uri : Uri) (cause : Error)
  | writeDropped (offset : Nat)
  | storeAlreadyStarted
  | logEndTooSlow (timeoutMs : Nat)
  | logEndFailed (cause : StoreError)
  | cleanedUnscheduled (key : PartitionKey)
  | cleanedWithoutKey (uri : Uri)
  | cleanupPostponed (uri : Uri)
  | scanSkipped
  | listingFailed (listing : String) (cause : Error)
  | keyShared (key : PartitionKey) (uris : List String)
  | scanIgnored (conflicts : Nat) (strategy : String)
  | keyUnknown (cause : Error)
  | scheduledBehind (attempt : Nat)
  | scheduledAgain (attempt : Nat)
  | schedulingAborted (attempts : Nat)
  | nothingToSchedule
  | closePanicked
  | tickerFailed
  deriving Repr

namespace Event

inductive Level where
  | warning
  | error
  deriving DecidableEq, Repr

def Level.name : Level → String
  | warning => "WARN"
  | error => "ERROR"

inductive Field where
  | number (n : Nat)
  | text (s : String)
  deriving DecidableEq, Repr

def level : Event → Level
  | cleanedWithoutKey _ => .error
  | keyShared _ _ => .error
  | scanIgnored _ _ => .error
  | keyUnknown _ => .error
  | closePanicked => .error
  | _ => .warning

def message : Event → String
  | directorySkipped _ _ => "skipping unreadable directory"
  | entrySkipped _ _ => "skipping unreadable entry"
  | cleanupFailed _ _ => "cleanup failed; will retry on next tick"
  | writeDropped _ => "state log is closed; dropping write"
  | storeAlreadyStarted =>
    "state store is already started; expected when recovering from a crash or resuming"
  | logEndTooSlow _ => "failed to reach end of state log quickly enough"
  | logEndFailed _ => "failed to read state log to end"
  | cleanedUnscheduled _ =>
    "received cleaned status for a file that is not scheduled; expected only while recovering"
  | cleanedWithoutKey _ => "cleaned file has no partition key; cannot persist"
  | cleanupPostponed _ => "postponing cleanup"
  | scanSkipped => "state log could not be read to end; skipping file system listing"
  | listingFailed _ _ => "file system listing failed"
  | keyShared _ _ => "duplicate partition key detected"
  | scanIgnored _ _ => "scan ignored; consider a more selective partition key strategy"
  | keyUnknown _ => "scan ignored; partition key could not be derived"
  | scheduledBehind _ => "state log not read to end while scheduling"
  | scheduledAgain _ => "state updates received while preparing files to schedule"
  | schedulingAborted _ => "failed to prepare files to schedule; state kept changing"
  | nothingToSchedule =>
    "no files to schedule; the listing was not scanned in time or found nothing new"
  | closePanicked => "unexpected panic while closing file system monitor"
  | tickerFailed => "monitor ticker task failed"

def fields : Event → List (String × Field)
  | directorySkipped path cause => [("path", .text path.text), ("error", .text cause.text)]
  | entrySkipped path cause => [("path", .text path.text), ("error", .text cause.text)]
  | cleanupFailed uri cause => [("uri", .text uri.text), ("error", .text cause.message)]
  | writeDropped offset => [("offset", .number offset)]
  | logEndTooSlow timeoutMs => [("timeout_ms", .number timeoutMs)]
  | logEndFailed cause => [("error", .text cause.message)]
  | cleanedUnscheduled key => [("partition_key", .text key.text)]
  | cleanedWithoutKey uri => [("uri", .text uri.text)]
  | cleanupPostponed uri => [("uri", .text uri.text)]
  | listingFailed listing cause =>
    [("listing", .text listing), ("error", .text cause.message)]
  | keyShared key uris =>
    [("partition_key", .text key.text), ("files", .text (Text.quotedList uris))]
  | scanIgnored conflicts strategy =>
    [("conflicts", .number conflicts), ("strategy", .text strategy)]
  | keyUnknown cause => [("error", .text cause.message)]
  | scheduledBehind attempt => [("attempt", .number attempt)]
  | scheduledAgain attempt => [("attempt", .number attempt)]
  | schedulingAborted attempts => [("max_attempts", .number attempts)]
  | storeAlreadyStarted | scanSkipped | nothingToSchedule | closePanicked | tickerFailed => []

def Field.toJson : Field → Json
  | number n => .int n
  | text s => .str s

def toJson (e : Event) : Json :=
  .object <| [("level", .str e.level.name), ("message", .str e.message)] ++
    e.fields.map fun f => (f.1, f.2.toJson)

end Event

end Intake
