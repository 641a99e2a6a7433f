import Intake.Listing
import Intake.Monitor.Call
import Intake.Monitor.Gate

/-!
# Cast — what a monitor works with in a rehearsal

A monitor is rehearsed either with a real listing and cleanup over a volume or with scripted ones.
Scripts also stand in front of the state store: each refresh and each listing takes the next
script, plays its acts, and fails if the script says so.
-/

namespace Intake.Rehearsal

/-! ## 1. Scripts -/

/-- **Act** of a script: an entry for the log, news told to the listener directly, or a failure. -/
inductive Act where
  | append (entry : LogEntry)
  | notify (entry : LogEntry)
  | failRefresh (cause : StoreError)
  | failListing (text : String)
  deriving Repr

abbrev Script := List Act

def refreshFailure? (s : Script) : Option StoreError :=
  (s.filterMap fun a => match a with | .failRefresh cause => some cause | _ => none).getLast?

def listingFailure? (s : Script) : Option String :=
  (s.filterMap fun a => match a with | .failListing text => some text | _ => none).getLast?

/-! ## 2. The scripted cleanup -/

structure CleanupMode where
  failing : List String := []
  breaksDown : Bool := false
  strips : Bool := false
  deriving Repr, Inhabited

def CleanupMode.seen (mode : CleanupMode) (r : Record) : Record :=
  if mode.strips then { r with key := none } else r

def CleanupMode.outcome (mode : CleanupMode) (r : Record) : Outcome :=
  if mode.failing.contains r.metadata.name then .fail else .succeed

def CleanupMode.results (mode : CleanupMode) (batch : List Record) : CleanupResults :=
  batch.map fun r => (mode.seen r, mode.outcome r)

/-! ## 3. Seats -/

inductive Caller where
  | part (index : Nat)
  | ticker (index : Nat)
  deriving DecidableEq, Repr, Inhabited

inductive Collaborators where
  | scripted
  | real (listing : Listing) (cleanup : CleanupPolicy)

structure Seat where
  monitor : Monitor
  gate : Gate Caller := {}
  collaborators : Collaborators

instance : Inhabited Seat := ⟨⟨default, {}, .scripted⟩⟩

def Seat.scripted (c : Config) : Except Error Seat := do
  let policy ← KeyPolicy.parse c.partitionKeyStrategy
  (c.validate).mapError Error.config
  return ⟨.new c policy.keyOf "scripted", {}, .scripted⟩

def Seat.configured (c : Config) : Except Error Seat := do
  let listing ← (Listing.ofConfig c.listing).mapError Error.config
  let policy ← KeyPolicy.parse c.partitionKeyStrategy
  (c.validate).mapError Error.config
  return ⟨.new c policy.keyOf Listing.name, {}, .real listing (.ofConfig c.cleanup)⟩

end Intake.Rehearsal
