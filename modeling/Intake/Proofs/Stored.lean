import Intake.KeyPolicy
import Intake.Proofs.Calendar
import Intake.Proofs.Canonical
import Intake.Proofs.Decoded
import Intake.Proofs.NormalForm

/-!
# Stored — records that are written and read

The stored form of a record gives every field back, but the URI: that is read from its text.  So a
record comes back as it was exactly if its URI reads as itself.  A URI that was read from a text
does, unless it is a drive at a host, and so does the URI of a local file whose path does not go up
(`Record.read_back_iff`); one that goes up comes back as another place
(`Record.read_back_elsewhere`).
-/

namespace Intake

namespace Json

/-! ## 1. Fields -/

theorem lookup_insertField (name : String) (value : Json) (fields : List (String × Json))
    (key : String) :
    (insertField name value fields).lookup key =
      if key = name then some value else fields.lookup key := by
  have hcons (n : String) (v : Json) (rest : List (String × Json)) :
      ((n, v) :: rest).lookup key = if key = n then some v else rest.lookup key := by
    rw [List.lookup_cons]
    by_cases hkey : key = n
    · rw [if_pos hkey, beq_iff_eq.2 hkey]
    · rw [if_neg hkey, beq_eq_false_iff_ne.2 hkey]
  induction fields with
  | nil => exact hcons name value []
  | cons f rest ih =>
    obtain ⟨n, v⟩ := f
    unfold insertField
    split
    next => rw [hcons]
    next =>
      split
      next hname =>
        rw [hcons, hcons, hname]
        split <;> rfl
      next hname =>
        rw [hcons, ih, hcons]
        by_cases hkey : key = n
        · rw [if_pos hkey, if_neg (fun h => hname (h.symm.trans hkey)), if_pos hkey]
        · rw [if_neg hkey, if_neg hkey]

/-- **Fields of an object:** of two with one name the later counts. -/
theorem get?_object (fields : List (String × Json)) (key : String) :
    (object fields).get? key = fields.reverse.lookup key := by
  have hfold : ∀ acc : List (String × Json),
      (fields.foldl (fun acc f => insertField f.1 f.2 acc) acc).lookup key =
        (fields.reverse.lookup key).or (acc.lookup key) := by
    induction fields with
    | nil => exact fun acc => rfl
    | cons f rest ih =>
      intro acc
      obtain ⟨n, v⟩ := f
      have hone : [(n, v)].lookup key = if key = n then some v else none :=
        lookup_insertField n v [] key
      rw [List.foldl_cons, ih, List.reverse_cons, List.lookup_append, Option.or_assoc, hone,
        lookup_insertField]
      by_cases hkey : key = n
      · rw [if_pos hkey, if_pos hkey, Option.some_or]
      · rw [if_neg hkey, if_neg hkey, Option.none_or]
  exact (hfold []).trans (Option.or_none)

theorem asWord?_int {n : Nat} (h : n ≤ maxWord) : (Json.int n).asWord? = some n := if_pos h

end Json

/-! ## 2. Metadata -/

namespace Metadata

theorem fields?_toJson (m : Metadata) :
    m.toJson.fields? ["uri", "name", "size", "last_modified", "content_digest"] =
      some [some (.str m.uriText), some (.str m.name), some (.int m.size),
        some (.str m.modified.text), m.digest.map .str] := by
  unfold toJson
  change some (["uri", "name", "size", "last_modified", "content_digest"].map
    (Json.object _).get?) = _
  simp only [List.map_cons, List.map_nil, Json.get?_object]
  cases m.digest <;> rfl

/-- **Reading gives metadata back,** with the URI that its text spells. -/
theorem ofJson?_toJson {m : Metadata} (hsize : m.size ≤ Json.maxWord) (htime : m.modified.IsTime)
    {place : Uri} (hplace : Uri.parse m.uriText = .ok place) :
    ofJson? m.toJson = some { m with uri := place } := by
  have hdigest : Json.optional Json.asStr? (m.digest.map .str) = some m.digest := by
    cases m.digest <;> rfl
  have htext : (Json.str m.modified.text).asStr?.bind Instant.parse? = some m.modified := by
    have hstr : (Json.str m.modified.text).asStr? = some m.modified.text := rfl
    rw [hstr, Option.bind_some, Instant.parse?_text htime]
  exact ofJson?_eq_some_iff.2 ⟨_, _, _, _, _, fields?_toJson m,
    uriOfJson?_eq_some_iff.2 ⟨_, rfl, hplace⟩, rfl, Json.asWord?_int hsize, htext, hdigest⟩

/-- Built metadata has a hierarchical URI. -/
theorem Built.segments? {m : Metadata} (h : m.Built) : m.uri.segments?.isSome = true := by
  have hname := h.name
  have hlast : ∀ {name}, lastStep? m.uri = some name → m.uri.segments?.isSome = true := by
    intro name hstep
    obtain ⟨segments, hsegments, -⟩ := Option.bind_eq_some_iff.1 hstep
    rw [hsegments]
    rfl
  unfold nameOf? at hname
  split at hname
  next =>
    split at hname
    next path hpath =>
      unfold Uri.toPath? at hpath
      split at hpath
      next segments hsegments =>
        rw [hsegments]
        rfl
      next => cases hpath
    next => exact hlast hname
  next => exact hlast hname

/-- **The URI of built metadata reads,** and as itself if it reads as its own text. -/
theorem Built.exists_place {m : Metadata} (h : m.Built) :
    ∃ place, Uri.parse m.uriText = .ok place ∧ (place.text = m.uriText → place = m.uri) := by
  have hpath := h.segments?
  induction h with
  | ofLocalPath made =>
    obtain ⟨uri, huri, hnew⟩ := ofLocalPath?_eq_ok_iff.1 made
    obtain ⟨name, -, rfl⟩ := new?_eq_ok_iff.1 hnew
    obtain ⟨place, hplace, -, hsame⟩ := Uri.parse_text_of_ofPath? huri
    exact ⟨place, hplace, hsame⟩
  | ofUri read made =>
    obtain ⟨name, -, rfl⟩ := new?_eq_ok_iff.1 made
    obtain ⟨place, hplace, -, hsame⟩ := (Uri.spelled_of_parse read hpath).exists_place
    exact ⟨place, hplace, hsame⟩
  | withDigest _ digest ih => exact ih hpath

/-- The default key tells texts of URIs apart. -/
theorem keyOf_byUri_inj {x y : Metadata} (h : KeyPolicy.byUri.keyOf x = KeyPolicy.byUri.keyOf y) :
    x.uriText = y.uriText := by
  have hkey : ∀ m : Metadata, KeyPolicy.byUri.keyOf m =
      .ok ⟨(Json.obj [("uri", .str m.uriText)]).compact⟩ := fun _ => rfl
  have hscalar : ∀ m : Metadata, ∀ f ∈ [("uri", Json.str m.uriText)], f.2.IsScalar := by
    intro m f hf
    rw [List.mem_singleton.1 hf]
    exact .str m.uriText
  rw [hkey, hkey] at h
  have htext := congrArg PartitionKey.text (Except.ok.inj h)
  have hfields := (Json.compact_obj_inj (hscalar x) (hscalar y)).1 htext
  exact Json.str.inj (Prod.mk.inj (List.cons.inj hfields).1).2

end Metadata

/-! ## 3. Records -/

theorem Offset.ofJson?_toJson {o : Offset} (hposition : o.position ≤ Json.maxWord)
    (hrows : o.rows ≤ Json.maxWord) : Offset.ofJson? o.toJson = some o := by
  have hfields : o.toJson.fields? ["position", "rows"] =
      some [some (.int o.position), some (.int o.rows)] := by
    unfold toJson
    change some (["position", "rows"].map (Json.object _).get?) = _
    simp only [List.map_cons, List.map_nil, Json.get?_object]
    rfl
  unfold ofJson?
  simp only [hfields, Json.asWord?_int hposition, Json.asWord?_int hrows, Option.bind_eq_bind,
    Option.bind_some, Option.pure_def]

namespace Record

theorem fields?_toJson (r : Record) :
    r.toJson.fields? ["key", "metadata", "offset", "status"] =
      some [r.key.map fun k => .str k.text, some r.metadata.toJson, some r.offset.toJson,
        some r.status.toJson] := by
  unfold toJson
  change some (["key", "metadata", "offset", "status"].map (Json.object _).get?) = _
  simp only [List.map_cons, List.map_nil, Json.get?_object]
  cases r.key <;> rfl

/-- **Reading gives a record back,** with the metadata that is read. -/
theorem ofJson?_toJson {r : Record} (hposition : r.offset.position ≤ Json.maxWord)
    (hrows : r.offset.rows ≤ Json.maxWord) {m : Metadata}
    (hmetadata : Metadata.ofJson? r.metadata.toJson = some m) :
    ofJson? r.toJson = some { r with metadata := m } := by
  have hkey : Json.optional keyOfJson? (r.key.map fun k => .str k.text) = some r.key := by
    cases r.key <;> rfl
  exact ofJson?_eq_some_iff.2 ⟨_, _, _, _, fields?_toJson r, hkey, hmetadata,
    Offset.ofJson?_toJson hposition hrows, Status.ofName?_name r.status⟩

/-- **What is stored comes back** with every field, but for the URI: that comes back as the place
    that its text spells.  It is the same place exactly if every policy still derives the same key.
    For a local file it is exactly if the path does not go up; for a URI that was read from a text
    it is, unless that is a drive at a host. -/
theorem read_back_iff {r : Record} (hbuilt : r.metadata.Built)
    (hsize : r.metadata.size ≤ Json.maxWord) (htime : r.metadata.modified.IsTime)
    (hposition : r.offset.position ≤ Json.maxWord) (hrows : r.offset.rows ≤ Json.maxWord) :
    ∃ place, Uri.parse r.metadata.uriText = .ok place ∧
      Metadata.ofJson? r.metadata.toJson = some { r.metadata with uri := place } ∧
      ofJson? r.toJson = some { r with metadata := { r.metadata with uri := place } } ∧
      (place = r.metadata.uri ↔ ∀ policy : KeyPolicy,
        policy.keyOf { r.metadata with uri := place } = policy.keyOf r.metadata) ∧
      (∀ text, Uri.parse text = .ok r.metadata.uri →
        (place = r.metadata.uri ↔ ¬r.metadata.uri.HostedDrive)) ∧
      ∀ path, Uri.ofPath? path = some r.metadata.uri →
        (place = r.metadata.uri ↔ Path.Part.up ∉ path.parts) := by
  obtain ⟨place, hplace, hsame⟩ := hbuilt.exists_place
  have hmetadata := Metadata.ofJson?_toJson hsize htime hplace
  refine ⟨place, hplace, hmetadata, ofJson?_toJson hposition hrows hmetadata, ?_, ?_, ?_⟩
  · constructor
    · intro hplace policy
      rw [hplace]
    · intro hkeys
      have htext := Metadata.keyOf_byUri_inj (hkeys .byUri)
      exact hsame htext
  · intro text hparse
    have hspelled := Uri.spelled_of_parse hparse hbuilt.segments?
    obtain ⟨place', hplace', hsame', -⟩ := hspelled.exists_place
    rw [Except.ok.inj (hplace.symm.trans hplace')]
    exact hsame'
  · intro path hpath
    obtain ⟨place', hplace', hup, -⟩ := Uri.parse_text_of_ofPath? hpath
    rw [Except.ok.inj (hplace.symm.trans hplace')]
    exact hup

/-- A file with a blank, a per cent sign and letters beyond ASCII in its path comes back. -/
theorem read_back_percent :
    let path := Path.ofText "/in/50% für/a b.csv"
    ∃ uri, Uri.ofPath? path = some uri ∧ uri.text = "file:///in/50%25%20f%C3%BCr/a%20b.csv" ∧
      let m : Metadata := ⟨uri, "a b.csv", 7, ⟨1700000000, 250000000⟩, some "d1"⟩
      let r : Record := ⟨some ⟨"k"⟩, m, ⟨3, 1⟩, .reading⟩
      ofJson? r.toJson = some r := by
  intro path
  let uri := (Uri.ofPath? path).get (by decide +kernel)
  have huri : Uri.ofPath? path = some uri := (Option.some_get _).symm
  have htext : uri.text = "file:///in/50%25%20f%C3%BCr/a%20b.csv" := by decide +kernel
  have hname : Metadata.nameOf? uri = some "a b.csv" := by decide +kernel
  have hup : Path.Part.up ∉ path.parts := by decide +kernel
  refine ⟨uri, huri, htext, ?_⟩
  intro m r
  have hmade : Metadata.ofLocalPath? path 7 ⟨1700000000, 250000000⟩ =
      .ok ⟨uri, "a b.csv", 7, ⟨1700000000, 250000000⟩, none⟩ :=
    Metadata.ofLocalPath?_eq_ok_iff.2 ⟨uri, huri, Metadata.new?_eq_ok_iff.2 ⟨_, hname, rfl⟩⟩
  have hbuilt : m.Built := .withDigest (.ofLocalPath hmade) "d1"
  have htime : m.modified.IsTime := ⟨by decide +kernel, .inl (by decide)⟩
  obtain ⟨place, -, -, hread, -, -, hlocal⟩ := read_back_iff (r := r) hbuilt (by decide) htime
    (by decide) (by decide)
  rw [(hlocal path huri).2 hup] at hread
  exact hread

/-- **A path that goes up** comes back as another place: with another URI, and another key. -/
theorem read_back_elsewhere :
    ∃ m place, Metadata.ofLocalPath? (.ofText "/in/../a.csv") 1 ⟨0, 0⟩ = .ok m ∧
      m.uriText = "file:///in/../a.csv" ∧ Uri.parse m.uriText = .ok place ∧
      place.text = "file:///a.csv" ∧ Metadata.ofJson? m.toJson ≠ some m ∧
      ofJson? (Record.new m .started).toJson ≠ some (Record.new m .started) ∧
      KeyPolicy.byUri.keyOf { m with uri := place } ≠ KeyPolicy.byUri.keyOf m := by
  let uri := (Uri.ofPath? (.ofText "/in/../a.csv")).get (by decide +kernel)
  have huri : Uri.ofPath? (.ofText "/in/../a.csv") = some uri := (Option.some_get _).symm
  have hname : Metadata.nameOf? uri = some "a.csv" := by decide +kernel
  let m : Metadata := ⟨uri, "a.csv", 1, ⟨0, 0⟩, none⟩
  have hmade : Metadata.ofLocalPath? (.ofText "/in/../a.csv") 1 ⟨0, 0⟩ = .ok m :=
    Metadata.ofLocalPath?_eq_ok_iff.2 ⟨uri, huri, Metadata.new?_eq_ok_iff.2 ⟨_, hname, rfl⟩⟩
  have hspelled : m.uriText = "file:///in/../a.csv" := by decide +kernel
  obtain ⟨place, hplace, -⟩ := Uri.parse_text_of_ofPath? huri
  have hfound : (Metadata.uriOfJson? (.str m.uriText)).map Uri.text = some "file:///a.csv" := by
    decide +kernel
  have hread : Metadata.uriOfJson? (.str m.uriText) = some place :=
    Metadata.uriOfJson?_eq_some_iff.2 ⟨_, rfl, hplace⟩
  have hresolved : place.text = "file:///a.csv" := by
    rw [hread] at hfound
    exact Option.some.inj hfound
  have hother : place.text ≠ m.uriText := by
    rw [hresolved, hspelled]
    decide
  have hmetadata :=
    Metadata.ofJson?_toJson (m := m) (by decide) ⟨by decide +kernel, .inl (by decide)⟩
    hplace
  have hrecord := ofJson?_toJson (r := .new m .started) (by decide) (by decide) hmetadata
  refine ⟨m, place, hmade, hspelled, hplace, hresolved, ?_, ?_, ?_⟩
  · rw [hmetadata]
    intro hsame
    exact hother (congrArg (fun m => m.uri.text) (Option.some.inj hsame))
  · rw [hrecord]
    intro hsame
    exact hother (congrArg (fun r => r.metadata.uri.text) (Option.some.inj hsame))
  · intro hsame
    have htext := Metadata.keyOf_byUri_inj hsame
    exact hother htext

end Record

end Intake
