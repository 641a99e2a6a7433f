import Intake.Error
import Intake.Instant
import Intake.Uri

/-!
# Metadata — what a listing says about a file

Metadata is a URI, the name that the URI gives the file, size, modification time, and a digest of
the content if one is known.  The name is derived (`Metadata.new?`), never chosen: it is the last
step of the local path, or of the URI's own path for files that are elsewhere.
-/

namespace Intake

structure Metadata where
  uri : Uri
  name : String
  size : Nat
  modified : Instant
  digest : Option String
  deriving DecidableEq, Repr, Inhabited

namespace Metadata

/-! ## 1. Names -/

def lastStep? (u : Uri) : Option String := do
  let segments ← u.segments?
  let step ← (segments.filter (!·.isEmpty)).getLast?
  return String.ofList step

def nameOf? (u : Uri) : Option String :=
  if u.isFile then
    match u.toPath? with
    | some p => p.fileName?.map Text.decodeLossy
    | none => lastStep? u
  else lastStep? u

/-! ## 2. Building -/

def new? (uri : Uri) (size : Nat) (modified : Instant) : Except ModelError Metadata :=
  match nameOf? uri with
  | some name => .ok ⟨uri, name, size, modified, none⟩
  | none => .error (.noFileName uri)

def ofLocalPath? (path : Path) (size : Nat) (modified : Instant) : Except ModelError Metadata :=
  match Uri.ofPath? path with
  | some uri => new? uri size modified
  | none => .error (.relativePath path)

def withDigest (m : Metadata) (digest : String) : Metadata := { m with digest := some digest }

/-! ## 3. Views -/

def uriText (m : Metadata) : String := m.uri.text

/-- The path: the local one for a file of this machine, the URI's own otherwise. -/
def path (m : Metadata) : String :=
  match m.uri.toPath? with
  | some p => if m.uri.isFile then p.text else m.uri.path
  | none => m.uri.path

/-- The order in which files are handed out: by modification time, then by the URI's text. -/
def precedes (a b : Metadata) : Bool :=
  match a.modified.compare b.modified with
  | .lt => true
  | .gt => false
  | .eq => a.uriText ≤ b.uriText

end Metadata

end Intake
