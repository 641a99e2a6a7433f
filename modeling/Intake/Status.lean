/-!
# Status — how far a file has come

A file is scheduled, started and read; it ends committed, failed, completed or invalid, and is
cleaned up after it completed or failed.  Three families matter: work that may be (re)started,
work that is finished and waits for cleanup, and work that is cleaned (`isStartable`,
`isCompleted`, `isCleaned`).  They exclude each other, and `invalid` and `committed` are in none.
-/

namespace Intake

inductive Status where
  | scheduled
  | invalid
  | started
  | reading
  | committed
  | failed
  | completed
  | cleaned
  deriving DecidableEq, Repr, Inhabited

namespace Status

/-! ## 1. Families -/

def startable : List Status := [.scheduled, .started, .reading]

def finished : List Status := [.completed, .failed]

def isOneOf (s : Status) (among : List Status) : Bool := among.contains s

def isStartable (s : Status) : Bool := s.isOneOf startable

def isCompleted (s : Status) : Bool := s.isOneOf finished

def isCleaned (s : Status) : Bool := s == .cleaned

/-- The families exclude each other. -/
theorem families_disjoint (s : Status) :
    (s.isStartable && s.isCompleted) = false ∧ (s.isStartable && s.isCleaned) = false ∧
      (s.isCompleted && s.isCleaned) = false := by
  cases s <;> decide

/-- Unfinished work may be started, or has one of the other three statuses. -/
theorem isStartable_iff {s : Status} (h : s.isCompleted = false) :
    s.isStartable = true ↔ s ∉ [committed, invalid, cleaned] := by
  cases s <;> revert h <;> decide

/-! ## 2. Names -/

def name : Status → String
  | scheduled => "SCHEDULED"
  | invalid => "INVALID"
  | started => "STARTED"
  | reading => "READING"
  | committed => "COMMITTED"
  | failed => "FAILED"
  | completed => "COMPLETED"
  | cleaned => "CLEANED"

def all : List Status :=
  [.scheduled, .invalid, .started, .reading, .committed, .failed, .completed, .cleaned]

def ofName? (text : String) : Option Status := all.find? (·.name == text)

/-- Names read back. -/
@[simp] theorem ofName?_name (s : Status) : ofName? s.name = some s := by
  cases s <;> decide

end Status

end Intake
