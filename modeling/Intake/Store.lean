import Intake.Event
import Intake.Record

/-!
# Store — the replicated state log

Writes are appended to a log; replication applies its entries in order, each some time after it
took it up.  What was in the log when replication began is restored at once and told to nobody;
every later entry is told to the listener as it is applied.  The snapshot is what the applied
entries leave.  A turn of replication ends it, takes up the next entry of the log or applies it
(`turn?_cases`).
-/

namespace Intake

structure LogEntry where
  key : PartitionKey
  value : Option Record
  deriving DecidableEq, Repr, Inhabited

def LogEntry.apply (states : Catalog PartitionKey Record) (e : LogEntry) :
    Catalog PartitionKey Record :=
  match e.value with
  | some r => states.insert e.key r
  | none => states.erase e.key

inductive Replication where
  | absent
  | idle
  | holding (due : Nat)
  | ended
  deriving DecidableEq, Repr, Inhabited

structure LogWait where
  target : Nat
  deadline : Nat
  deriving DecidableEq, Repr, Inhabited

/-- **Store.**  Times are in milliseconds; `applied` entries of the log have taken effect. -/
structure Store where
  delay : Nat
  log : List LogEntry := []
  applied : Nat := 0
  states : Catalog PartitionKey Record := .empty
  replication : Replication := .absent
  closing : Bool := false
  deriving Inhabited

namespace Store

/-! ## 1. Views -/

def written (s : Store) : Nat := s.log.length

def isStarted (s : Store) : Bool := s.replication != .absent

def snapshot (s : Store) : Snapshot := ⟨s.applied, s.states⟩

def next? (s : Store) : Option LogEntry := s.log[s.applied]?

def pending (s : Store) : Nat := s.written - s.applied

def text (s : Store) (hasListener : Bool) : String :=
  let flag (b : Bool) : String := if b then "true" else "false"
  "InMemoryStateStore \x7b started: " ++ flag s.isStarted ++ ", written: " ++ toString s.written ++
    ", applied: " ++ toString s.applied ++
    ", replication_delay: " ++ (Span.ofMillis s.delay).text ++
    ", has_listener: " ++ flag hasListener ++ " \x7d"

/-! ## 2. Writing -/

def append (s : Store) (e : LogEntry) : Store × List Event :=
  if s.replication = .ended then (s, [.writeDropped (s.written + 1)])
  else ({ s with log := s.log ++ [e] }, [])

def shutdown (s : Store) : Store := { s with closing := true }

/-! ## 3. Replication -/

def start (s : Store) : Except StoreError Store :=
  if s.closing then .error .closed
  else if s.isStarted then .ok s
  else .ok { s with
    applied := s.written
    states := (s.log.drop s.applied).foldl LogEntry.apply s.states
    replication := .idle }

def applyEntry (s : Store) (e : LogEntry) : Store :=
  { s with applied := s.applied + 1, states := e.apply s.states, replication := .idle }

/-- **One turn of replication,** with the entry that it applied; `none` if it has to wait.  If
    there is an entry to go on with after the store was shut down, either may be seen first, and
    `eager` says whether the entry is. -/
def turn? (eager : Bool) (now : Nat) (s : Store) : Option (Store × Option LogEntry) :=
  let ended := { s with replication := .ended }
  match s.replication, s.next? with
  | .idle, some e =>
    if s.closing && !eager then some (ended, none)
    else if s.delay = 0 then some (s.applyEntry e, some e)
    else some ({ s with replication := .holding (now + s.delay) }, none)
  | .idle, none => if s.closing then some (ended, none) else none
  | .holding due, some e =>
    if s.closing && (!eager || now < due) then some (ended, none)
    else if now < due then none
    else some (s.applyEntry e, some e)
  | _, _ => none

def turns (eager : Bool) (now : Nat) : Nat → Store → Store × List LogEntry
  | 0, s => (s, [])
  | n + 1, s =>
    match s.turn? eager now with
    | none => (s, [])
    | some (s, applied) =>
      let (s, more) := turns eager now n s
      (s, applied.toList ++ more)

/-- **Replicates** until there is nothing to do at this time; what is ready is seen before a
    shutdown. -/
def replicate (now : Nat) (s : Store) : Store × List LogEntry :=
  turns true now (2 * s.pending + 1) s

def due? (s : Store) : Option Nat :=
  match s.replication with
  | .holding due => some due
  | _ => none

/-! ## 4. Reading to the end -/

def target? (s : Store) : Except StoreError Nat :=
  if !s.isStarted then .error .notStarted
  else if s.closing then .error .closed
  else .ok s.written

def reached (s : Store) (target : Nat) : Bool := target ≤ s.applied

def ask (s : Store) (now timeoutMs : Nat) : Except StoreError LogWait :=
  s.target?.map fun target => ⟨target, now + timeoutMs⟩

def answer? (s : Store) (now timeoutMs : Nat) (w : LogWait) :
    Option (Except StoreError Snapshot) :=
  if s.reached w.target then some (.ok s.snapshot)
  else if w.deadline ≤ now then some (.error (.timeout (.ofMillis timeoutMs)))
  else none

/-! ## 5. What a turn changes -/

/-- **A turn of replication** ends it after a shutdown, takes up the next entry, or applies it. -/
theorem turn?_cases {eager : Bool} {now : Nat} {s t : Store} {applied : Option LogEntry}
    (h : s.turn? eager now = some (t, applied)) :
    (s.closing = true ∧ applied = none ∧ t = { s with replication := .ended }) ∨
      (applied = none ∧ t = { s with replication := .holding (now + s.delay) }) ∨
      ∃ e, s.next? = some e ∧ applied = some e ∧ t = s.applyEntry e := by
  unfold turn? at h
  split at h
  next e _ hnext =>
    split at h
    next hclosing =>
      cases h
      rw [Bool.and_eq_true] at hclosing
      exact .inl ⟨hclosing.1, rfl, rfl⟩
    next =>
      split at h
      · cases h
        exact .inr (.inr ⟨e, hnext, rfl, rfl⟩)
      · cases h
        exact .inr (.inl ⟨rfl, rfl⟩)
  next =>
    split at h
    next hclosing =>
      cases h
      exact .inl ⟨hclosing, rfl, rfl⟩
    next => cases h
  next due e _ hnext =>
    split at h
    next hclosing =>
      cases h
      rw [Bool.and_eq_true] at hclosing
      exact .inl ⟨hclosing.1, rfl, rfl⟩
    next =>
      split at h
      · cases h
      · cases h
        exact .inr (.inr ⟨e, hnext, rfl, rfl⟩)
  next => cases h

/-- **A turn that applies an entry** applies the next one of the log. -/
theorem turn?_applied {eager : Bool} {now : Nat} {s t : Store} {e : LogEntry}
    (h : s.turn? eager now = some (t, some e)) : s.next? = some e ∧ t = s.applyEntry e := by
  rcases turn?_cases h with ⟨-, hnone, -⟩ | ⟨hnone, -⟩ | ⟨e', hnext, heq, ht⟩
  · cases hnone
  · cases hnone
  · cases heq
    exact ⟨hnext, ht⟩

end Store

end Intake
