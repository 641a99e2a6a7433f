import Intake.Config
import Intake.Event
import Intake.Files.Volume

/-!
# Cleanup — what becomes of finished files

A policy treats one record; a batch treats records one after the other, and a failure concerns its
own record only.  Policies that touch files do so only through the local path of a URI, and each
may be repeated: a file that is gone counts as deleted, one that has arrived as moved.
-/

namespace Intake

inductive Outcome where
  | succeed
  | fail
  deriving DecidableEq, Repr, Inhabited

def Outcome.name : Outcome → String
  | succeed => "Succeed"
  | fail => "Fail"

/-! ## 1. Results -/

abbrev CleanupResults := List (Record × Outcome)

namespace CleanupResults

def having (rs : CleanupResults) (outcome : Outcome) : List Record :=
  (rs.filter (·.2 == outcome)).map Prod.fst

def succeeded (rs : CleanupResults) : List Record := having rs .succeed

def failed (rs : CleanupResults) : List Record := having rs .fail

end CleanupResults

/-! ## 2. Policies -/

/-- **Policy.**  A finished file stays, is deleted, or is moved; the last policy leaves files but
    refuses some by name. -/
inductive CleanupPolicy where
  | keep
  | delete
  | move (successDir failureDir : Path)
  | refuse (names : List String)
  deriving Repr, Inhabited

namespace CleanupPolicy

def ofConfig : CleanupConfig → CleanupPolicy
  | .log => keep
  | .delete => delete
  | .move success failure => move (.ofText success) (.ofText failure)

def localPath (r : Record) : Except Error Path :=
  match r.metadata.uri.toPath? with
  | some p => .ok p
  | none => .error (.notLocal r.metadata.uri)

def deleteFile (v : Volume) (p : Path) : Volume × Except Error Unit :=
  match v.removeFile p with
  | (v, .ok ()) => (v, .ok ())
  | (v, .error e) => if e.kind = .notFound then (v, .ok ()) else (v, .error (.io e))

def target (successDir failureDir : Path) (r : Record) : Path :=
  (if r.status = .completed then successDir else failureDir).join (.ofText r.metadata.name)

/-- Moves a file, unless it has arrived already. -/
def moveFile (v : Volume) (source target : Path) : Volume × Except Error Unit :=
  if !v.contains source && v.contains target then (v, .ok ())
  else
    match v.rename source target with
    | (v, .ok ()) => (v, .ok ())
    | (v, .error e) => (v, .error (.io e))

def apply (p : CleanupPolicy) (v : Volume) (r : Record) : Volume × Except Error Unit :=
  match p with
  | keep => (v, .ok ())
  | delete =>
    match localPath r with
    | .ok path => deleteFile v path
    | .error e => (v, .error e)
  | move success failure =>
    match localPath r with
    | .ok path => moveFile v path (target success failure r)
    | .error e => (v, .error e)
  | refuse names =>
    if names.contains r.metadata.name then (v, .error (.cleanup ("rejected " ++ r.metadata.name)))
    else (v, .ok ())

/-! ## 3. Batches -/

abbrev Treatment := Volume → Record → Volume × Except Error Unit

def batch (treat : Treatment) (v : Volume) : List Record → Volume × CleanupResults × List Event
  | [] => (v, [], [])
  | r :: rest =>
    let (v, result) := treat v r
    let (v, outcomes, events) := batch treat v rest
    match result with
    | .ok () => (v, (r, .succeed) :: outcomes, events)
    | .error e => (v, (r, .fail) :: outcomes, .cleanupFailed r.metadata.uri e :: events)

/-! ## 4. Descriptions -/

def text : CleanupPolicy → String
  | keep => "LogCleanupPolicy"
  | delete => "DeleteCleanupPolicy \x7b .. \x7d"
  | move success failure =>
    "MoveCleanupPolicy \x7b success_dir: " ++ Text.quotedPath success.text ++ ", failure_dir: " ++
      Text.quotedPath failure.text ++ ", .. \x7d"
  | refuse names => "RejectNamed(" ++ Text.quotedList names ++ ")"

def batchText (p : CleanupPolicy) : String := "DelegateBatchCleanupPolicy(" ++ p.text ++ ")"

end CleanupPolicy

end Intake
