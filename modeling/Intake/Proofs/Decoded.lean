import Intake.Cleanup
import Intake.Record.Form

/-!
# Decoded — what is built and what is read

Metadata is built from a URI, which gives it its name, and a key from a text that is not empty.
Reading the stored form is another way to make both, and it takes names and keys as they are
written: so what was read could have been built exactly if the writer kept to both rules
(`Record.decoded_as_written`).  One that did not can send a file anywhere
(`Record.decoded_elsewhere`).
-/

namespace Intake

theorem Json.asStr?_eq_some_iff {j : Json} {text : String} :
    j.asStr? = some text ↔ j = .str text := by
  cases j with
  | str s => simp [asStr?]
  | _ => exact ⟨nofun, nofun⟩

namespace Metadata

/-! ## 1. Metadata -/

/-- **Built metadata** describes a local file, or what a URI says that was read from a text. -/
inductive Built : Metadata → Prop
  | ofLocalPath {path : Path} {size : Nat} {modified : Instant} {m : Metadata}
      (made : Metadata.ofLocalPath? path size modified = .ok m) : Built m
  | ofUri {text : String} {uri : Uri} {size : Nat} {modified : Instant} {m : Metadata}
      (read : Uri.parse text = .ok uri) (made : Metadata.new? uri size modified = .ok m) : Built m
  | withDigest {m : Metadata} (built : Built m) (digest : String) : Built (m.withDigest digest)

theorem new?_eq_ok_iff {uri : Uri} {size : Nat} {modified : Instant} {m : Metadata} :
    new? uri size modified = .ok m ↔
      ∃ name, nameOf? uri = some name ∧ m = ⟨uri, name, size, modified, none⟩ := by
  unfold new?
  cases nameOf? uri with
  | none => exact ⟨nofun, nofun⟩
  | some name =>
    constructor
    · intro h
      exact ⟨name, rfl, (Except.ok.inj h).symm⟩
    · rintro ⟨_, hname, rfl⟩
      cases hname
      rfl

theorem ofLocalPath?_eq_ok_iff {path : Path} {size : Nat} {modified : Instant} {m : Metadata} :
    ofLocalPath? path size modified = .ok m ↔
      ∃ uri, Uri.ofPath? path = some uri ∧ new? uri size modified = .ok m := by
  unfold ofLocalPath?
  cases Uri.ofPath? path with
  | none => exact ⟨nofun, nofun⟩
  | some uri =>
    constructor
    · intro h
      exact ⟨uri, rfl, h⟩
    · rintro ⟨_, huri, h⟩
      cases huri
      exact h

/-- **Built metadata has the name of its URI.** -/
theorem Built.name {m : Metadata} (h : m.Built) : nameOf? m.uri = some m.name := by
  induction h with
  | ofLocalPath made =>
    obtain ⟨uri, -, hnew⟩ := ofLocalPath?_eq_ok_iff.1 made
    obtain ⟨name, hname, rfl⟩ := new?_eq_ok_iff.1 hnew
    exact hname
  | ofUri read made =>
    obtain ⟨name, hname, rfl⟩ := new?_eq_ok_iff.1 made
    exact hname
  | withDigest _ digest ih => exact ih

/-- Metadata with a URI that was read is built if it has the name of the URI. -/
theorem Built.of_name {m : Metadata} {text : String} (read : Uri.parse text = .ok m.uri)
    (h : nameOf? m.uri = some m.name) : m.Built := by
  obtain ⟨uri, name, size, modified, digest⟩ := m
  have hbare : (⟨uri, name, size, modified, none⟩ : Metadata).Built :=
    .ofUri read (new?_eq_ok_iff.2 ⟨name, h, rfl⟩)
  cases digest with
  | none => exact hbare
  | some d => exact .withDigest hbare d

/-- **The written form** of metadata: an object or an array with a URI and, beside it, a name. -/
def WrittenAs (j : Json) (uri name : String) : Prop :=
  ∃ size modified digest,
    j.fields? ["uri", "name", "size", "last_modified", "content_digest"] =
      some [some (.str uri), some (.str name), size, modified, digest]

theorem uriOfJson?_eq_some_iff {j : Json} {uri : Uri} :
    uriOfJson? j = some uri ↔ ∃ text, j = .str text ∧ Uri.parse text = .ok uri := by
  unfold uriOfJson?
  rw [Option.bind_eq_bind, Option.bind_eq_some_iff]
  constructor
  · rintro ⟨text, htext, h⟩
    refine ⟨text, Json.asStr?_eq_some_iff.1 htext, ?_⟩
    split at h
    next read hread => rw [hread, Option.some.inj h]
    next => cases h
  · rintro ⟨text, rfl, hread⟩
    refine ⟨text, rfl, ?_⟩
    rw [hread]

/-- **Reading metadata,** field by field. -/
theorem ofJson?_eq_some_iff {j : Json} {m : Metadata} :
    ofJson? j = some m ↔ ∃ uri name size modified digest,
      j.fields? ["uri", "name", "size", "last_modified", "content_digest"] =
        some [some uri, some name, some size, some modified, digest] ∧
      uriOfJson? uri = some m.uri ∧ name.asStr? = some m.name ∧ size.asWord? = some m.size ∧
      modified.asStr?.bind Instant.parse? = some m.modified ∧
      Json.optional Json.asStr? digest = some m.digest := by
  unfold ofJson?
  constructor
  · intro h
    obtain ⟨fields, hfields, h⟩ := Option.bind_eq_some_iff.1 h
    split at h
    next uri name size modified digest =>
      simp only [Option.bind_eq_bind, Option.bind_eq_some_iff, Option.pure_def,
        Option.some.injEq] at h
      obtain ⟨u, huri, n, hname, s, hsize, text, htext, t, htime, d, hdigest, rfl⟩ := h
      exact ⟨uri, name, size, modified, digest, hfields, huri, hname, hsize,
        Option.bind_eq_some_iff.2 ⟨text, htext, htime⟩, hdigest⟩
    next => cases h
  · rintro ⟨uri, name, size, modified, digest, hfields, huri, hname, hsize, htime, hdigest⟩
    obtain ⟨text, htext, htime⟩ := Option.bind_eq_some_iff.1 htime
    simp only [hfields, huri, hname, hsize, htext, htime, hdigest, Option.bind_eq_bind,
      Option.bind_some, Option.pure_def]

/-- **Reading takes the name as it is written,** and the URI for what its text says. -/
theorem writtenAs_of_ofJson? {j : Json} {m : Metadata} (h : ofJson? j = some m) :
    ∃ uri, WrittenAs j uri m.name ∧ Uri.parse uri = .ok m.uri := by
  obtain ⟨uri, name, size, modified, digest, hfields, huri, hname, -⟩ := ofJson?_eq_some_iff.1 h
  obtain ⟨text, rfl, hparse⟩ := uriOfJson?_eq_some_iff.1 huri
  rw [Json.asStr?_eq_some_iff.1 hname] at hfields
  exact ⟨text, ⟨some size, some modified, digest, hfields⟩, hparse⟩

end Metadata

/-! ## 2. Records -/

theorem PartitionKey.new?_eq_ok_iff {text : String} {key : PartitionKey} :
    new? text = .ok key ↔ text ≠ "" ∧ key = ⟨text⟩ := by
  unfold new?
  by_cases hempty : text = ""
  · rw [hempty]
    exact ⟨nofun, fun h => absurd rfl h.1⟩
  · have hnot : text.isEmpty = false := by simpa using hempty
    rw [hnot]
    constructor
    · intro h
      exact ⟨hempty, (Except.ok.inj h).symm⟩
    · rintro ⟨-, rfl⟩
      rfl

namespace Record

inductive Built : Record → Prop
  | new {m : Metadata} (built : m.Built) (status : Status) : Built (.new m status)
  | withKey {r : Record} {text : String} {key : PartitionKey} (built : Built r)
      (made : PartitionKey.new? text = .ok key) : Built (r.withKey key)
  | withStatus {r : Record} (built : Built r) (status : Status) : Built (r.withStatus status)
  | withOffset {r : Record} (built : Built r) (offset : Offset) : Built (r.withOffset offset)

/-- **Whether a record is built** is a matter of its metadata and its key. -/
theorem built_iff {r : Record} : r.Built ↔ r.metadata.Built ∧ r.key ≠ some ⟨""⟩ := by
  constructor
  · intro h
    induction h with
    | new built status => exact ⟨built, nofun⟩
    | withKey _ made ih =>
      obtain ⟨hne, rfl⟩ := PartitionKey.new?_eq_ok_iff.1 made
      refine ⟨ih.1, ?_⟩
      intro hkey
      exact hne (congrArg PartitionKey.text (Option.some.inj hkey))
    | withStatus _ status ih => exact ih
    | withOffset _ offset ih => exact ih
  · rintro ⟨hmetadata, hkey⟩
    obtain ⟨key, metadata, offset, status⟩ := r
    have hbare : (⟨none, metadata, offset, status⟩ : Record).Built :=
      .withOffset (.new hmetadata status) offset
    cases key with
    | none => exact hbare
    | some k =>
      obtain ⟨text⟩ := k
      have hne : text ≠ "" := by
        rintro rfl
        exact hkey rfl
      exact .withKey hbare (PartitionKey.new?_eq_ok_iff.2 ⟨hne, rfl⟩)

def WrittenAs (j : Json) (key : Option String) (metadata : Json) : Prop :=
  ∃ written offset status,
    j.fields? ["key", "metadata", "offset", "status"] =
        some [written, some metadata, offset, status] ∧
      match key with
      | some text => written = some (.str text)
      | none => written = none ∨ written = some .null

/-- **Reading a record,** field by field. -/
theorem ofJson?_eq_some_iff {j : Json} {r : Record} :
    ofJson? j = some r ↔ ∃ key metadata offset status,
      j.fields? ["key", "metadata", "offset", "status"] =
        some [key, some metadata, offset, some status] ∧
      Json.optional keyOfJson? key = some r.key ∧ Metadata.ofJson? metadata = some r.metadata ∧
      Json.orDefault .zero Offset.ofJson? offset = some r.offset ∧
      Status.ofJson? status = some r.status := by
  unfold ofJson?
  constructor
  · intro h
    obtain ⟨fields, hfields, h⟩ := Option.bind_eq_some_iff.1 h
    split at h
    next key metadata offset status =>
      simp only [Option.bind_eq_bind, Option.bind_eq_some_iff, Option.pure_def,
        Option.some.injEq] at h
      obtain ⟨k, hkey, m, hmetadata, o, hoffset, s, hstatus, rfl⟩ := h
      exact ⟨key, metadata, offset, status, hfields, hkey, hmetadata, hoffset, hstatus⟩
    next => cases h
  · rintro ⟨key, metadata, offset, status, hfields, hkey, hmetadata, hoffset, hstatus⟩
    simp only [hfields, hkey, hmetadata, hoffset, hstatus, Option.bind_eq_bind, Option.bind_some,
      Option.pure_def]

/-- **Reading takes the key as it is written.** -/
theorem writtenAs_of_ofJson? {j : Json} {r : Record} (h : ofJson? j = some r) :
    ∃ metadata, WrittenAs j (r.key.map PartitionKey.text) metadata ∧
      Metadata.ofJson? metadata = some r.metadata := by
  obtain ⟨key, metadata, offset, status, hfields, hkey, hmetadata, -⟩ := ofJson?_eq_some_iff.1 h
  refine ⟨metadata, ⟨key, offset, some status, hfields, ?_⟩, hmetadata⟩
  -- the key is missing, or null, or a text
  unfold Json.optional at hkey
  split at hkey
  next =>
    rw [← Option.some.inj hkey]
    exact .inl rfl
  next =>
    rw [← Option.some.inj hkey]
    exact .inr rfl
  next written _ =>
    obtain ⟨k, hread, hk⟩ := Option.map_eq_some_iff.1 hkey
    obtain ⟨text, htext, rfl⟩ := Option.map_eq_some_iff.1 hread
    rw [← hk, Json.asStr?_eq_some_iff.1 htext]
    rfl

/-- **Decoded values** have the key and the name that are written.  Metadata that was read could
    have been built exactly if that name is the one of its URI; a record, if moreover the key that
    is written is not empty. -/
theorem decoded_as_written (j : Json) :
    (∀ m, Metadata.ofJson? j = some m →
      (∃ uri, Metadata.WrittenAs j uri m.name ∧ Uri.parse uri = .ok m.uri) ∧
        (m.Built ↔ Metadata.nameOf? m.uri = some m.name)) ∧
    ∀ r, ofJson? j = some r →
      (∃ metadata, WrittenAs j (r.key.map PartitionKey.text) metadata ∧
        Metadata.ofJson? metadata = some r.metadata) ∧
        (r.Built ↔ r.key ≠ some ⟨""⟩ ∧ Metadata.nameOf? r.metadata.uri = some r.metadata.name) := by
  have hmetadata : ∀ {j m}, Metadata.ofJson? j = some m →
      (m.Built ↔ Metadata.nameOf? m.uri = some m.name) := by
    intro j m h
    obtain ⟨uri, -, hparse⟩ := Metadata.writtenAs_of_ofJson? h
    exact ⟨Metadata.Built.name, Metadata.Built.of_name hparse⟩
  refine ⟨fun m h => ⟨Metadata.writtenAs_of_ofJson? h, hmetadata h⟩, ?_⟩
  intro r h
  obtain ⟨metadata, hwritten, hread⟩ := writtenAs_of_ofJson? h
  refine ⟨⟨metadata, hwritten, hread⟩, ?_⟩
  rw [built_iff, hmetadata hread, and_comm]

/-- A record in array form, without an offset: its name is that of its URI, so it could have been
    built. -/
theorem decoded_as_written_array :
    let metadata : Json :=
      .arr [.str "file:///in/%61.csv", .str "a.csv", .int 1, .str "1970-01-01T00:00:00Z"]
    let j : Json := .arr [.str "k", metadata, .arr [.int 0, .int 0], .str "STARTED"]
    ∃ r, ofJson? j = some r ∧ r.key = some ⟨"k"⟩ ∧ r.metadata.name = "a.csv" ∧ r.Built := by
  intro metadata j
  let r := (ofJson? j).get (by decide +kernel)
  have hread : ofJson? j = some r := (Option.some_get _).symm
  have hkey : r.key = some ⟨"k"⟩ := by decide +kernel
  have hname : r.metadata.name = "a.csv" := by decide +kernel
  have hderived : Metadata.nameOf? r.metadata.uri = some r.metadata.name := by decide +kernel
  obtain ⟨-, hbuilt⟩ := (decoded_as_written j).2 r hread
  refine ⟨r, hread, hkey, hname, hbuilt.2 ⟨?_, hderived⟩⟩
  rw [hkey]
  decide

/-- **A record that was read** can have an empty key, and a name that leads elsewhere: its file
    moves out of the directory of completed files. -/
theorem decoded_elsewhere :
    let metadata : Json := .obj [("uri", .str "file:///in/a.csv"), ("name", .str "../etc/a.csv"),
      ("size", .int 1), ("last_modified", .str "1970-01-01T00:00:00Z")]
    let j : Json := .obj [("key", .str ""), ("metadata", metadata), ("status", .str "COMPLETED")]
    ∃ r, ofJson? j = some r ∧ r.key = some ⟨""⟩ ∧
      Metadata.nameOf? r.metadata.uri = some "a.csv" ∧ r.metadata.name = "../etc/a.csv" ∧
      ¬r.Built ∧
      CleanupPolicy.target (.ofText "/done") (.ofText "/error") r =
        .ofText "/done/../etc/a.csv" := by
  intro metadata j
  let r := (ofJson? j).get (by decide +kernel)
  have hread : ofJson? j = some r := (Option.some_get _).symm
  have hkey : r.key = some ⟨""⟩ := by decide +kernel
  have hderived : Metadata.nameOf? r.metadata.uri = some "a.csv" := by decide +kernel
  have hname : r.metadata.name = "../etc/a.csv" := by decide +kernel
  have hmoves : CleanupPolicy.target (.ofText "/done") (.ofText "/error") r =
      .ofText "/done/../etc/a.csv" := by decide +kernel
  refine ⟨r, hread, hkey, hderived, hname, ?_, hmoves⟩
  intro hbuilt
  exact (built_iff.1 hbuilt).2 hkey

end Record

end Intake
