import Intake.Attempts
import Intake.Groups
import Intake.Monitor

/-!
# Call — what a monitor does when it is called

A call runs in turns.  Between two turns it waits at a stage for one thing: a refresh of the state
log, a cleanup, a listing, new files, or the gate that scans and hand-outs share.  A turn is a
function of the monitor as it is then, so calls may be interleaved between their turns in any
order.
-/

namespace Intake

/-! ## 1. Calls, stages and turns -/

inductive Call where
  | startup
  | tick
  | pull (maxGroups maxFiles : Nat)
  | cleanup
  | sync (timeoutMs : Nat)
  | close
  deriving DecidableEq, Repr, Inhabited

inductive Stage where
  | startupSync
  | tickCleanup (batch : List Record)
  | scanGate
  | scanSync (idle : Bool)
  | scanListing (idle : Bool)
  | pullFiles (maxGroups maxFiles deadline : Nat)
  | pullGate (maxGroups maxFiles : Nat)
  | pullSync (maxGroups maxFiles attempt : Nat)
  | cleanup (batch : List Record)
  | sync (timeoutMs : Nat)
  | closeSync
  | closeCleanup (batch : List Record)
  deriving DecidableEq, Repr, Inhabited

inductive Need where
  | refresh (timeoutMs : Nat)
  | cleanup (batch : List Record)
  | listing
  | files (deadline : Nat)
  | gate
  deriving Repr

/-- **What ends the wait.**  A listing comes with the snapshot of the store behind it; anything may
    break down instead. -/
inductive Answer where
  | refreshed (result : Except StoreError Snapshot)
  | cleaned (results : CleanupResults)
  | listed (result : Except Error (List Metadata)) (snapshot : Snapshot)
  | woken
  | entered
  | brokenDown

inductive Effect where
  | report (event : Event)
  | write (key : PartitionKey) (record : Record)
  | request
  deriving Repr

inductive Reply where
  | done
  | groups (groups : List (List Uri))
  | flag (value : Bool)
  | brokenDown
  deriving DecidableEq, Repr, Inhabited

inductive Next where
  | waiting (stage : Stage)
  | finished (reply : Reply)
  deriving DecidableEq, Repr, Inhabited

structure Turn where
  monitor : Monitor
  effects : List Effect := []
  next : Next
  deriving Inhabited

def Stage.holdsGate : Stage → Bool
  | scanSync _ => true
  | scanListing _ => true
  | pullSync _ _ _ => true
  | _ => false

def Next.holdsGate : Next → Bool
  | waiting stage => stage.holdsGate
  | finished _ => false

def Stage.need (c : Config) : Stage → Need
  | startupSync => .refresh c.startupReadToEndTimeoutMs
  | tickCleanup batch => .cleanup batch
  | scanGate => .gate
  | scanSync _ => .refresh c.readToEndTimeoutMs
  | scanListing _ => .listing
  | pullFiles _ _ deadline => .files deadline
  | pullGate _ _ => .gate
  | pullSync _ _ _ => .refresh c.readToEndTimeoutMs
  | cleanup batch => .cleanup batch
  | sync timeoutMs => .refresh timeoutMs
  | closeSync => .refresh c.readToEndTimeoutMs
  | closeCleanup batch => .cleanup batch

namespace Turn

def finish (m : Monitor) (reply : Reply) : Turn := ⟨m, [], .finished reply⟩

def wait (m : Monitor) (stage : Stage) : Turn := ⟨m, [], .waiting stage⟩

def after (effects : List Effect) (t : Turn) : Turn := { t with effects := effects ++ t.effects }

end Turn

namespace Monitor

/-! ## 2. Reading the log to its end -/

def synced (m : Monitor) (timeoutMs : Nat) : Except StoreError Snapshot →
    Monitor × List Effect × Bool
  | .ok s => (m.keepSnapshot s, [], true)
  | .error (.timeout _) => (m, [.report (.logEndTooSlow timeoutMs)], false)
  | .error e => (m, [.report (.logEndFailed e)], false)

/-! ## 3. Cleanup -/

def tidied (m : Monitor) : CleanupResults → Monitor × List Effect
  | [] => (m, [])
  | (r, .succeed) :: rest =>
    let (m, effects) := tidied m rest
    match r.key with
    | some key => (m, .write key (r.withStatus .cleaned) :: effects)
    | none => (m, .report (.cleanedWithoutKey r.metadata.uri) :: effects)
  | (r, .fail) :: rest =>
    let (m, effects) := tidied (m.requeue r) rest
    (m, .report (.cleanupPostponed r.metadata.uri) :: effects)

/-! ## 4. Ticks -/

def scanIfRunning (m : Monitor) : Turn :=
  if m.phase != .running || m.requested then .finish m .done else .wait m .scanGate

def beginTick (m : Monitor) : Turn :=
  if m.completed.isEmpty then m.scanIfRunning
  else .wait m.drain.1 (.tickCleanup m.drain.2)

def scanEntered (m : Monitor) : Turn :=
  if m.mayScan then .wait m (.scanSync m.scheduled.isEmpty) else .finish m .done

def scanSynced (m : Monitor) (idle : Bool) (result : Except StoreError Snapshot) : Turn :=
  let (m, effects, ok) := m.synced m.config.readToEndTimeoutMs result
  if idle && !ok then .after (effects ++ [.report .scanSkipped]) (.finish m .done)
  else .after effects (.wait m (.scanListing idle))

def publishAndRequest (m : Monitor) (candidates : Catalog PartitionKey Metadata) : Turn :=
  let m := m.publish candidates
  if !m.scanned.isEmpty && m.phase == .running then
    .after [.request] (.finish { m with requested := true } .done)
  else .finish m .done

/-- **Takes candidates.**  While files are handed out, new ones are published only after the delay
    that began when they were first seen. -/
def takeCandidates (m : Monitor) (now : Nat) (idle : Bool)
    (candidates : Catalog PartitionKey Metadata) : Turn :=
  match m.config.reconfigurationAfterTimeoutMs with
  | some delay =>
    if idle then m.publishAndRequest candidates
    else if !m.hasNews candidates then .finish m .done
    else
      -- the delay runs from the first scan that saw something new, not from this one
      let deadline := m.rescanAt.getD (now + delay)
      if now < deadline then .finish { m with rescanAt := some deadline } .done
      else m.publishAndRequest candidates
  | none => m.publishAndRequest candidates

def rejected (m : Monitor) : Rejection → List Effect
  | .conflicts all =>
    (all.map fun c => .report (.keyShared c.key c.uris)) ++
      [.report (.scanIgnored all.length m.config.partitionKeyStrategy)]
  | .noKey cause => [.report (.keyUnknown cause)]

def scanListed (m : Monitor) (now : Nat) (idle : Bool) (result : Except Error (List Metadata))
    (snapshot : Snapshot) : Turn :=
  match result with
  | .error cause => .after [.report (.listingFailed m.listing cause)] (.finish m .done)
  | .ok listed =>
    match Candidates.select m.keyOf snapshot listed with
    | .error r => .after (m.rejected r) (.finish m .done)
    | .ok candidates => m.takeCandidates now idle candidates

/-! ## 5. Pulls -/

/-- **A pull begins** by waiting for files.  The first pull only starts the monitor. -/
def beginPull (m : Monitor) (now maxGroups maxFiles : Nat) : Turn :=
  match m.phase with
  | .notStarted => .finish { m with phase := .running } (.groups [])
  | .stopped => .finish m (.groups [])
  | .running =>
    .wait m (.pullFiles maxGroups maxFiles (now + m.config.taskAssignmentWaitMs))

def endPull (m : Monitor) (groups : List (List Uri)) : Turn :=
  .after (if groups.isEmpty then [.report .nothingToSchedule] else [])
    (.finish m.settle (.groups groups))

def beginAttempt (m : Monitor) (maxGroups maxFiles attempt : Nat) : Turn :=
  .wait { m with changed := false } (.pullSync maxGroups maxFiles attempt)

def pullEntered (m : Monitor) (maxGroups maxFiles : Nat) : Turn :=
  if m.scanned.isEmpty then m.endPull [] else m.beginAttempt maxGroups maxFiles 1

def pullSynced (m : Monitor) (maxGroups maxFiles attempt : Nat)
    (result : Except StoreError Snapshot) : Turn :=
  let (m, effects, ok) := m.synced m.config.readToEndTimeoutMs result
  let effects := effects ++ if ok then [] else [.report (.scheduledBehind attempt)]
  let files := m.staged maxFiles
  let prepared := m.stage files
  let batch := Groups.byAge prepared.scheduled.values maxGroups
  -- the attempt began by clearing `changed`, so it speaks of this refresh alone
  match (Progress.preparing attempt).prepared.validated m.changed with
  | .converged => .after effects (prepared.endPull batch)
  | .preparing again =>
    .after (effects ++ [.report (.scheduledAgain attempt)])
      ((prepared.unstage (files.map Prod.fst)).beginAttempt maxGroups maxFiles again)
  | _ =>
    .after (effects ++ [.report (.schedulingAborted maxAttempts)])
      (endPull { prepared with scheduled := .empty } [])

/-! ## 6. Closing -/

def beginClose (m : Monitor) : Turn :=
  if m.phase = .stopped then .finish m .done
  else .wait { m with phase := .stopped } .closeSync

def closeSynced (m : Monitor) (result : Except StoreError Snapshot) : Turn :=
  let (m, effects, _) := m.synced m.config.readToEndTimeoutMs result
  .after effects <|
    if m.completed.isEmpty then .finish m .done else .wait m.drain.1 (.closeCleanup m.drain.2)

/-! ## 7. Running calls -/

def begin (m : Monitor) (now : Nat) : Call → Turn
  | .startup => .wait m .startupSync
  | .tick => m.beginTick
  | .pull maxGroups maxFiles => m.beginPull now maxGroups maxFiles
  | .cleanup =>
    if m.completed.isEmpty then .finish m .done else .wait m.drain.1 (.cleanup m.drain.2)
  | .sync timeoutMs => .wait m (.sync timeoutMs)
  | .close => m.beginClose

/-- **The next turn** of a call that waited at a stage.  A break-down ends every call; only a close
    survives it.  An answer that the stage did not wait for changes nothing. -/
def resume (m : Monitor) (now : Nat) (stage : Stage) (answer : Answer) : Turn :=
  match stage, answer with
  | .startupSync, .refreshed result =>
    let (m, effects, _) := m.synced m.config.startupReadToEndTimeoutMs result
    .after effects (.finish m.recover .done)
  | .tickCleanup _, .cleaned results =>
    let (m, effects) := m.tidied results
    .after effects m.scanIfRunning
  | .scanGate, .entered => m.scanEntered
  | .scanSync idle, .refreshed result => m.scanSynced idle result
  | .scanListing idle, .listed result snapshot => m.scanListed now idle result snapshot
  | .pullFiles maxGroups maxFiles _, .woken => .wait m (.pullGate maxGroups maxFiles)
  | .pullGate maxGroups maxFiles, .entered => m.pullEntered maxGroups maxFiles
  | .pullSync maxGroups maxFiles attempt, .refreshed result =>
    m.pullSynced maxGroups maxFiles attempt result
  | .cleanup _, .cleaned results =>
    let (m, effects) := m.tidied results
    .after effects (.finish m .done)
  | .sync timeoutMs, .refreshed result =>
    let (m, effects, ok) := m.synced timeoutMs result
    .after effects (.finish m (.flag ok))
  | .closeSync, .refreshed result => m.closeSynced result
  | .closeCleanup _, .cleaned results =>
    let (m, effects) := m.tidied results
    .after effects (.finish m .done)
  | .closeSync, .brokenDown => .after [.report .closePanicked] (.finish m .done)
  | .closeCleanup _, .brokenDown => .after [.report .closePanicked] (.finish m .done)
  | _, .brokenDown => .finish m .brokenDown
  | stage, _ => .wait m stage

end Monitor

end Intake
