import Intake.Rehearsal

/-!
# Job — calls of a monitor in a rehearsal

A job is polled: it goes on through its turns as long as what it waits for is there.  Cleanups and
listings answer at once; a refresh waits for the log, a pull for files, and the gate for its
holder, each no longer than it may.
-/

namespace Intake.Rehearsal

/-! ## 1. Effects of turns -/

def leaveGate (r : Rehearsal) (i : Nat) (who : Caller) : Rehearsal :=
  let r := r.onSeat i fun s => { s with gate := s.gate.leave who }
  match (r.seat i).gate.holder with
  | some (.ticker t) => r.wake (.ticker t)
  | _ => r

def playEffect (r : Rehearsal) : Effect → Rehearsal
  | .report e => r.report [e]
  | .write key record =>
    { r with writes := r.writes ++ [(key, record)] }.append ⟨key, some record⟩
  | .request => { r with requests := r.requests + 1, permit := true }

def playTurn (r : Rehearsal) (i : Nat) (who : Caller) (t : Turn) : Rehearsal :=
  let r := t.effects.foldl playEffect (r.setMonitor i t.monitor)
  if (r.seat i).gate.isHeldBy who && !t.next.holdsGate then r.leaveGate i who else r

/-! ## 2. Answers -/

def refreshScript (r : Rehearsal) : Rehearsal × Script :=
  let script := r.onRefresh.headD []
  (script.foldl play { r with onRefresh := r.onRefresh.tail }, script)

def listingScript (r : Rehearsal) : Rehearsal × Script :=
  let script := r.onListing.headD []
  let r := { r with onListing := r.onListing.tail, listings := r.listings + 1 }
  (script.foldl play r, script)

def askRefresh (r : Rehearsal) (timeoutMs : Nat) :
    Rehearsal × Except StoreError LogWait :=
  let (r, script) := r.refreshScript
  (r, match refreshFailure? script with
    | some cause => .error cause
    | none => r.store.ask r.now timeoutMs)

def logAnswer? (r : Rehearsal) (timeoutMs : Nat) (w : LogWait) :
    Option (Except StoreError Snapshot) :=
  r.store.answer? r.now timeoutMs w

def cleanBatch (r : Rehearsal) (i : Nat) (batch : List Record) : Rehearsal × Answer :=
  match (r.seat i).collaborators with
  | .scripted =>
    let r := { r with batches := r.batches ++ [batch.map r.mode.seen] }
    (r, if r.mode.breaksDown then .brokenDown else .cleaned (r.mode.results batch))
  | .real _ policy =>
    let (volume, results, events) := CleanupPolicy.batch policy.apply r.volume batch
    ({ r with volume }.report events, .cleaned results)

def listFiles (r : Rehearsal) (i : Nat) : Rehearsal × Answer :=
  match (r.seat i).collaborators with
  | .scripted =>
    let (r, script) := r.listingScript
    let result := match listingFailure? script with
      | some text => .error (.listing text)
      | none => .ok r.files
    (r, .listed result r.store.snapshot)
  | .real listing _ =>
    let (events, result) := listing.find r.volume
    (r.report events, match result with
      | .ok files => .listed (.ok files) r.store.snapshot
      | .error (.error cause) => .listed (.error cause) r.store.snapshot
      | .error .breakdown => .brokenDown)

/-- **The answer** to what a job waits for, if there is one; the job may have asked for more. -/
def answer? (r : Rehearsal) (who : Caller) (job : Job) : Rehearsal × Job × Option Answer :=
  let m := r.monitor job.seat
  match job.stage.need m.config with
  | .cleanup batch =>
    let (r, a) := r.cleanBatch job.seat batch
    (r, job, some a)
  | .listing =>
    let (r, a) := r.listFiles job.seat
    (r, job, some a)
  | .files deadline =>
    (r, job, if !m.scanned.isEmpty || deadline ≤ r.now then some .woken else none)
  | .gate =>
    let r := r.onSeat job.seat fun s => { s with gate := s.gate.ask who }
    (r, job, if (r.seat job.seat).gate.isHeldBy who then some .entered else none)
  | .refresh timeoutMs =>
    match job.asked with
    | some w => (r, job, (r.logAnswer? timeoutMs w).map .refreshed)
    | none =>
      match r.askRefresh timeoutMs with
      | (r, .error cause) => (r, job, some (.refreshed (.error cause)))
      | (r, .ok w) => (r, { job with asked := some w }, (r.logAnswer? timeoutMs w).map .refreshed)

/-! ## 3. Polling -/

-- more than a call has stages
def turnLimit : Nat := 16

def pollJob (who : Caller) : Nat → Rehearsal → Job → Rehearsal × (Job ⊕ Reply)
  | 0, r, job => (r, .inl job)
  | n + 1, r, job =>
    match r.answer? who job with
    | (r, job, none) => (r, .inl job)
    | (r, job, some a) =>
      let t := (r.monitor job.seat).resume r.now job.stage a
      let r := r.playTurn job.seat who t
      match t.next with
      | .finished reply => (r, .inr reply)
      | .waiting stage => pollJob who n r ⟨job.seat, stage, none⟩

def beginCall (r : Rehearsal) (who : Caller) (i : Nat) (c : Call) : Rehearsal × (Job ⊕ Reply) :=
  let t := (r.monitor i).begin r.now c
  let r := r.playTurn i who t
  match t.next with
  | .finished reply => (r, .inr reply)
  | .waiting stage => pollJob who turnLimit r ⟨i, stage, none⟩

def deadline? (r : Rehearsal) (job : Job) : Option Nat :=
  match job.stage.need (r.monitor job.seat).config with
  | .files deadline => some deadline
  | .refresh _ => job.asked.map (·.deadline)
  | _ => none

end Intake.Rehearsal
