import Intake.Rehearsal.Cast

/-!
# Rehearsal — monitors on a virtual clock

A rehearsal holds a state store, the monitors and tickers on it, a host, a volume and the scripts,
together with a clock and the tasks that are ready to run.  Nothing runs by itself: the clock only
advances when everyone waits, and then to the next time for which someone waits.  What is played
is the same each time.
-/

namespace Intake

inductive Rehearsal.Task where
  | replication
  | ticker (index : Nat)
  deriving DecidableEq, Repr, Inhabited

inductive Rehearsal.Listener where
  | recorder (tag : Json)
  | seat (index : Nat)
  deriving Inhabited

/-- **Job:** a call of a seat's monitor that waits at a stage; a refresh that has been asked for has
    a wait for the log. -/
structure Rehearsal.Job where
  seat : Nat
  stage : Stage
  asked : Option LogWait := none
  deriving Inhabited

inductive Rehearsal.TickerState where
  | fresh
  | asleep (due : Nat)
  | ticking (next : Nat) (job : Job)
  | ended
  | failed
  deriving Inhabited

structure Rehearsal.Ticker where
  seat : Nat
  period : Nat
  state : TickerState := .fresh
  cancelled : Bool := false
  deriving Inhabited

open Rehearsal in
/-- **Rehearsal.**  The last four fields collect what happened since they were last emptied. -/
structure Rehearsal where
  now : Nat := 0
  store : Store
  listener : Option Listener := none
  seats : List Seat := []
  tickers : List Ticker := []
  ready : List Task := []
  timers : List (Task × Nat) := []
  requests : Nat := 0
  permit : Bool := false
  volume : Volume := { backing := .memory .empty }
  files : List Metadata := []
  mode : CleanupMode := {}
  onRefresh : List Script := []
  onListing : List Script := []
  listings : Nat := 0
  heard : List (Json × LogEntry) := []
  writes : List (PartitionKey × Record) := []
  batches : List (List Record) := []
  events : List Event := []

namespace Rehearsal

/-! ## 1. Parts of the state -/

def onStore (delay : Nat) : Rehearsal := { store := { delay } }

instance : Inhabited Rehearsal := ⟨onStore 0⟩

def seat (r : Rehearsal) (i : Nat) : Seat := r.seats[i]?.getD default

def monitor (r : Rehearsal) (i : Nat) : Monitor := (r.seat i).monitor

def onSeat (r : Rehearsal) (i : Nat) (change : Seat → Seat) : Rehearsal :=
  { r with seats := r.seats.modify i change }

def setMonitor (r : Rehearsal) (i : Nat) (m : Monitor) : Rehearsal :=
  r.onSeat i fun s => { s with monitor := m }

def report (r : Rehearsal) (es : List Event) : Rehearsal := { r with events := r.events ++ es }

/-! ## 2. Tasks and timers -/

def wake (r : Rehearsal) (t : Task) : Rehearsal :=
  if r.ready.contains t then r else { r with ready := r.ready ++ [t] }

/-- Sets or clears the timer of a task.  A timer that is set anew goes behind the others. -/
def setTimer (r : Rehearsal) (t : Task) (due : Option Nat) : Rehearsal :=
  let others := r.timers.filter (·.1 != t)
  match due with
  | none => { r with timers := others }
  | some due => if r.timers.contains (t, due) then r else { r with timers := others ++ [(t, due)] }

def advanceTo (r : Rehearsal) (time : Nat) : Rehearsal :=
  let due := r.timers.filter (·.2 ≤ time)
  let r := { r with now := time, timers := r.timers.filter fun e => !(e.2 ≤ time) }
  due.foldl (fun r e => r.wake e.1) r

/-! ## 3. The store and its listener -/

def tell (r : Rehearsal) (e : LogEntry) : Rehearsal :=
  match r.listener with
  | none => r
  | some (.recorder tag) => { r with heard := r.heard ++ [(tag, e)] }
  | some (.seat i) =>
    let (m, events) := (r.monitor i).observe e
    (r.setMonitor i m).report events

def append (r : Rehearsal) (e : LogEntry) : Rehearsal :=
  let (store, events) := r.store.append e
  let r := { r with store }.report events
  if store.replication = .idle then r.wake .replication else r

def startStore (r : Rehearsal) : Except StoreError Rehearsal := do
  let store ← r.store.start
  let began := !r.store.isStarted
  let r := { r with store }
  return if began then r.wake .replication else r

def shutdownStore (r : Rehearsal) : Rehearsal :=
  let waits := r.store.isStarted && r.store.replication != .ended
  let r := { r with store := r.store.shutdown }
  if waits then r.wake .replication else r

def waitsForLog (t : Ticker) : Bool :=
  match t.state with
  | .ticking _ job => job.asked.isSome
  | _ => false

def replicate (r : Rehearsal) : Rehearsal :=
  let (store, applied) := r.store.replicate r.now
  let r := applied.foldl tell { r with store }
  let r := r.setTimer .replication store.due?
  if applied.isEmpty then r
  else
    (List.range r.tickers.length).foldl (fun r i =>
      if (r.tickers[i]?).any waitsForLog then r.wake (.ticker i) else r) r

/-! ## 4. Scripts -/

def play (r : Rehearsal) : Act → Rehearsal
  | .append e => r.append e
  | .notify e => r.tell e
  | .failRefresh _ => r
  | .failListing _ => r

end Rehearsal

end Intake
