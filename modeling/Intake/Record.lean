import Intake.Catalog
import Intake.Metadata
import Intake.Status

/-!
# Record — the state of a file

A record ties metadata to a status and to the place up to which the file has been read.  A
snapshot is the state of every known file at an offset of the state log; keys identify files in
it.
-/

namespace Intake

/-! ## 1. Keys -/

structure PartitionKey where
  text : String
  deriving DecidableEq, Repr, Inhabited

def PartitionKey.new? (text : String) : Except ModelError PartitionKey :=
  if text.isEmpty then .error .emptyKey else .ok ⟨text⟩

/-! ## 2. Records -/

structure Offset where
  position : Nat
  rows : Nat
  deriving DecidableEq, Repr, Inhabited

def Offset.zero : Offset := ⟨0, 0⟩

structure Record where
  key : Option PartitionKey
  metadata : Metadata
  offset : Offset
  status : Status
  deriving DecidableEq, Repr, Inhabited

namespace Record

def new (metadata : Metadata) (status : Status) : Record := ⟨none, metadata, .zero, status⟩

def withKey (r : Record) (key : PartitionKey) : Record := { r with key := some key }

def withStatus (r : Record) (status : Status) : Record := { r with status := status }

def withOffset (r : Record) (offset : Offset) : Record := { r with offset := offset }

end Record

/-! ## 3. Snapshots -/

/-- **Snapshot.**  The records of all keys after so many entries of the state log. -/
structure Snapshot where
  offset : Nat
  states : Catalog PartitionKey Record
  deriving DecidableEq

namespace Snapshot

def empty : Snapshot := ⟨0, .empty⟩

instance : Inhabited Snapshot := ⟨empty⟩

def get? (s : Snapshot) (key : PartitionKey) : Option Record := s.states.get? key

def contains (s : Snapshot) (key : PartitionKey) : Bool := s.states.contains key

def size (s : Snapshot) : Nat := s.states.size

/-- Whether a file may be handed out: it is unknown, or its work may be started. -/
def isSchedulable (s : Snapshot) (key : PartitionKey) : Bool :=
  match s.get? key with
  | some r => r.status.isStartable
  | none => true

end Snapshot

end Intake
