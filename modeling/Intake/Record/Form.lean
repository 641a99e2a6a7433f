import Intake.Instant.Reader
import Intake.Json
import Intake.Record
import Intake.Uri.Reader

/-!
# Form — how records are stored

The stored form of metadata, records and statuses as data values, with a reader beside each
writer.  Reading takes names and keys as they are written.
-/

namespace Intake

/-! ## 1. Statuses -/

def Status.toJson (s : Status) : Json := .str s.name

/-- Reads a status: its name, or an object that maps the name to nothing. -/
def Status.ofJson? : Json → Option Status
  | .str name => ofName? name
  | .obj [(name, .null)] => ofName? name
  | _ => none

/-! ## 2. Metadata -/

namespace Metadata

def toJson (m : Metadata) : Json :=
  .object <|
    [("uri", .str m.uriText), ("name", .str m.name), ("size", .int m.size),
      ("last_modified", .str m.modified.text)] ++
    (match m.digest with | some d => [("content_digest", .str d)] | none => [])

def uriOfJson? (j : Json) : Option Uri := do
  match Uri.parse (← j.asStr?) with
  | .ok uri => some uri
  | .error _ => none

def ofJson? (j : Json) : Option Metadata := do
  match ← j.fields? ["uri", "name", "size", "last_modified", "content_digest"] with
  | [some uri, some name, some size, some modified, digest] =>
    return ⟨← uriOfJson? uri, ← name.asStr?, ← size.asWord?,
      ← Instant.parse? (← modified.asStr?), ← Json.optional Json.asStr? digest⟩
  | _ => none

end Metadata

/-! ## 3. Records -/

def Offset.toJson (o : Offset) : Json :=
  .object [("position", .int o.position), ("rows", .int o.rows)]

def Offset.ofJson? (j : Json) : Option Offset := do
  match ← j.fields? ["position", "rows"] with
  | [some position, some rows] => return ⟨← position.asWord?, ← rows.asWord?⟩
  | _ => none

namespace Record

def toJson (r : Record) : Json :=
  .object <|
    (match r.key with | some k => [("key", .str k.text)] | none => []) ++
    [("metadata", r.metadata.toJson), ("offset", r.offset.toJson), ("status", r.status.toJson)]

def keyOfJson? (j : Json) : Option PartitionKey := j.asStr?.map PartitionKey.mk

def ofJson? (j : Json) : Option Record := do
  match ← j.fields? ["key", "metadata", "offset", "status"] with
  | [key, some metadata, offset, some status] =>
    return ⟨← Json.optional keyOfJson? key, ← Metadata.ofJson? metadata,
      ← Json.orDefault .zero Offset.ofJson? offset, ← Status.ofJson? status⟩
  | _ => none

end Record

end Intake
