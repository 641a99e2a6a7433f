import Mathlib.Data.List.Basic
import Intake.Proofs.Ancestry
import Intake.Proofs.Decoded
import Intake.Proofs.Steps

/-!
# LocalPaths — the URI of a local file names this file

Each part of a path is escaped when the URI is built and unescaped when the path is read back, and
nothing is resolved on the way: the path that the URI spells has the parts of the path that it was
built from (`Uri.exists_toPath?`).  So metadata of a local file leads back to the file it describes,
has its last part for a name, and cannot be built only where there is no such part, or no root
(`Metadata.local_names_file`).
-/

namespace Intake

/-! ## 1. Pieces of texts -/

namespace Text

theorem pieces_append_of_free {α : Type} {isSep : α → Bool} {xs ys p : List α}
    {ps : List (List α)} (hfree : ∀ x ∈ xs, isSep x = false) (h : pieces isSep ys = p :: ps) :
    pieces isSep (xs ++ ys) = (xs ++ p) :: ps := by
  induction xs with
  | nil => exact h
  | cons x xs ih =>
    obtain ⟨hx, hlater⟩ := List.forall_mem_cons.1 hfree
    rw [List.cons_append, pieces, ih hlater, hx]
    rfl

/-- **The pieces of a text's bytes** are the bytes of its pieces. -/
theorem pieces_encode (cs : List Char) :
    pieces (· == Path.slash) (encode (String.ofList cs)) =
      (pieces (· == '/') cs).map fun piece => encode (String.ofList piece) := by
  induction cs with
  | nil => decide
  | cons c cs ih =>
    rw [Uri.encode_cons]
    by_cases hc : c = '/'
    · have hslash : String.utf8EncodeChar '/' = [Path.slash] := by decide
      rw [hc, hslash, List.singleton_append, pieces, pieces, ih]
      rfl
    · have hfree : ∀ b ∈ String.utf8EncodeChar c, (b == Path.slash) = false := by
        intro b hb
        rw [beq_eq_false_iff_ne]
        rintro rfl
        have hone : Path.slash ∈ encode (String.ofList [c]) := by
          rw [Uri.encode_cons]
          exact List.mem_append_left _ hb
        exact hc (List.mem_singleton.1 (mem_of_slash_mem_encode hone)).symm
      have hb : (c == '/') = false := beq_eq_false_iff_ne.2 hc
      rw [pieces, hb]
      cases hps : pieces (· == '/') cs with
      | nil => exact absurd hps (pieces_ne_nil _ _)
      | cons p ps =>
        rw [hps] at ih
        rw [pieces_append_of_free hfree ih]
        show _ = encode (String.ofList (c :: p)) :: _
        rw [Uri.encode_cons]

end Text

namespace Path

/-- The pieces of a path are among those of its bytes. -/
theorem mem_pieces_bytes {p : Path} {piece : Bytes} (h : piece ∈ p.pieces) :
    piece ∈ Text.pieces (· == slash) p.bytes := by
  cases habsolute : p.isAbsolute with
  | false => rwa [pieces, body_of_relative habsolute] at h
  | true =>
    obtain ⟨bytes⟩ := p
    cases bytes with
    | nil => cases habsolute
    | cons b rest =>
      have hb : (b == slash) = true := by simpa [isAbsolute] using habsolute
      unfold pieces body at h
      simp only [hb, if_true] at h
      rw [Text.pieces, if_pos hb]
      exact List.mem_cons_of_mem [] h

/-- **The names in a path that is text** are texts. -/
theorem exists_text_of_mem_parts {text : String} {bytes : Bytes}
    (h : .name bytes ∈ (ofText text).parts) : ∃ name, bytes = Text.encode name := by
  obtain ⟨hpiece, -⟩ := mem_pieces_of_mem_parts h
  have hmem := mem_pieces_bytes hpiece
  unfold ofText at hmem
  rw [← String.ofList_toList (s := text), Text.pieces_encode] at hmem
  obtain ⟨piece, -, rfl⟩ := List.mem_map.1 hmem
  exact ⟨String.ofList piece, rfl⟩

/-- A slash behind a path adds no part. -/
theorem parts_append_slash {p : Path} (hne : p.bytes ≠ []) :
    (Path.mk (p.bytes ++ [slash])).parts = p.parts := by
  have hpieces : Text.pieces (· == slash) (p.body ++ [slash]) = p.pieces ++ [[]] :=
    Text.pieces_append_sep (by simp) p.body []
  rw [parts_append hne, hpieces, partsOfPieces_of_isBlank (.inl rfl), parts_eq p]

/-- A part below the root is spelled by one piece. -/
theorem partOfPiece_bytes {p : Path} {parts : List Part} (h : p.parts = .root :: parts)
    {part : Part} (hpart : part ∈ parts) :
    slash ∉ part.bytes ∧ partOfPiece part.bytes = some part := by
  rcases Uri.parts_below_root h part hpart with rfl | ⟨bytes, rfl, -⟩
  · decide
  · exact isName_of_mem_parts (h ▸ List.mem_cons_of_mem _ hpart)

/-- **The parts of an absolute path** can be spelled, each behind a slash. -/
theorem parts_respelled {p : Path} {parts : List Part} (h : p.parts = .root :: parts) :
    (Path.mk (slash :: Text.glue slash (parts.map Part.bytes))).parts = .root :: parts := by
  have hsolid : ∀ piece ∈ parts.map Part.bytes, slash ∉ piece := by
    intro piece hpiece
    obtain ⟨part, hpart, rfl⟩ := List.mem_map.1 hpiece
    exact (partOfPiece_bytes h hpart).1
  have hread : ∀ part ∈ parts, (partOfPiece ∘ Part.bytes) part = some part :=
    fun part hpart => (partOfPiece_bytes h hpart).2
  have hparts : (parts.map Part.bytes).filterMap partOfPiece = parts := by
    rw [List.filterMap_map, List.filterMap_congr hread, List.filterMap_some]
  have hspelled := parts_spelled hsolid fun habsolute : true = false => by cases habsolute
  exact hspelled.trans (congrArg (Part.root :: ·) hparts)

end Path

/-! ## 2. There and back -/

namespace Uri

theorem parts_closeDrive {bs : Bytes} (hne : bs ≠ []) :
    (Path.mk (closeDrive bs)).parts = (Path.mk bs).parts := by
  unfold closeDrive
  split
  · split
    · exact Path.parts_append_slash (p := ⟨bs⟩) hne
    · rfl
  · rfl

/-- A path has a URI exactly if it is absolute. -/
theorem exists_ofPath?_iff {p : Path} : (∃ u, ofPath? p = some u) ↔ p.isAbsolute = true := by
  unfold ofPath?
  constructor
  · rintro ⟨u, h⟩
    split at h
    next hparts => exact isAbsolute_of_parts hparts
    next => cases h
  · intro habsolute
    rw [Path.parts, if_pos habsolute]
    exact ⟨_, rfl⟩

/-- The segments of a path behind a slash are joined as the steps were. -/
theorem flatMap_unescape_pieces (parts : List Path.Part) :
    (Text.pieces (· == '/') (Text.glue '/' (parts.map stepOf))).flatMap
        (fun s => Path.slash :: Percent.unescape s) =
      Path.slash :: Text.glue Path.slash (parts.map Path.Part.bytes) := by
  cases parts with
  | nil => rfl
  | cons part rest =>
    have hsolid : ∀ step ∈ (part :: rest).map stepOf, '/' ∉ step := by
      intro step hstep hslash
      obtain ⟨q, -, rfl⟩ := List.mem_map.1 hstep
      cases (stands_of_mem_stepOf hslash).2
    rw [Text.pieces_glue (by simp) hsolid]
    induction rest generalizing part with
    | nil => simp [unescape_stepOf, Text.glue]
    | cons next rest ih =>
      rw [List.map_cons, List.flatMap_cons, ih next fun step hstep => ?_, unescape_stepOf]
      · rfl
      · exact hsolid step (List.mem_cons_of_mem _ hstep)

/-- **There and back:** the URI of a path spells a path with the same parts. -/
theorem exists_toPath? {p : Path} {u : Uri} (h : ofPath? p = some u) :
    ∃ found, u.toPath? = some found ∧ found.parts = p.parts := by
  unfold ofPath? at h
  split at h
  next parts hparts =>
    cases h
    have hsegments : Uri.segments?
        ⟨"file", some .none, String.ofList (pathOfParts parts), none, none⟩ =
          some (Text.pieces (· == '/') (Text.glue '/' (parts.map stepOf))) := by
      unfold segments?
      simp only [String.toList_ofList, pathOfParts_eq]
    refine ⟨⟨closeDrive (Path.slash :: Text.glue Path.slash (parts.map Path.Part.bytes))⟩, ?_, ?_⟩
    · unfold toPath?
      rw [hsegments, ← flatMap_unescape_pieces]
      rfl
    · rw [parts_closeDrive (List.cons_ne_nil _ _), Path.parts_respelled hparts, hparts]
  next => cases h

theorem isFile_of_ofPath? {p : Path} {u : Uri} (h : ofPath? p = some u) : u.isFile = true := by
  unfold ofPath? at h
  split at h
  · cases h
    rfl
  · cases h

end Uri

/-! ## 3. Metadata of local files -/

namespace Metadata

theorem nameOf?_of_ofPath? {p : Path} {u : Uri} (h : Uri.ofPath? p = some u) :
    nameOf? u = p.fileName?.map Text.decodeLossy := by
  obtain ⟨found, hfound, hparts⟩ := Uri.exists_toPath? h
  unfold nameOf? Path.fileName?
  rw [if_pos (Uri.isFile_of_ofPath? h), hfound]
  simp only [hparts]

/-- **A local file is described** by the URI and the name of its path. -/
theorem ofLocalPath?_iff {p : Path} {size : Nat} {modified : Instant} {m : Metadata} :
    ofLocalPath? p size modified = .ok m ↔
      ∃ uri name, Uri.ofPath? p = some uri ∧ p.fileName? = some name ∧
        m = ⟨uri, Text.decodeLossy name, size, modified, none⟩ := by
  rw [ofLocalPath?_eq_ok_iff]
  constructor
  · rintro ⟨uri, huri, hnew⟩
    obtain ⟨name, hname, rfl⟩ := new?_eq_ok_iff.1 hnew
    rw [nameOf?_of_ofPath? huri] at hname
    obtain ⟨bytes, hbytes, rfl⟩ := Option.map_eq_some_iff.1 hname
    exact ⟨uri, bytes, huri, hbytes, rfl⟩
  · rintro ⟨uri, name, huri, hname, rfl⟩
    refine ⟨uri, huri, new?_eq_ok_iff.2 ⟨_, ?_, rfl⟩⟩
    rw [nameOf?_of_ofPath? huri, hname]
    rfl

/-- **Only a root and a last name** are needed to describe a local file. -/
theorem exists_ofLocalPath?_iff {p : Path} {size : Nat} {modified : Instant} :
    (∃ m, ofLocalPath? p size modified = .ok m) ↔
      p.isAbsolute = true ∧ ∃ name, p.fileName? = some name := by
  rw [← Uri.exists_ofPath?_iff]
  constructor
  · rintro ⟨m, h⟩
    obtain ⟨uri, name, huri, hname, -⟩ := ofLocalPath?_iff.1 h
    exact ⟨⟨uri, huri⟩, name, hname⟩
  · rintro ⟨⟨uri, huri⟩, name, hname⟩
    exact ⟨_, ofLocalPath?_iff.2 ⟨uri, name, huri, hname, rfl⟩⟩

theorem getLast?_of_fileName? {p : Path} {name : Bytes} (h : p.fileName? = some name) :
    p.parts.getLast? = some (.name name) := by
  unfold Path.fileName? at h
  split at h
  next hlast =>
    cases h
    exact hlast
  next => cases h

/-- Metadata of a local file leads back to the path that it describes. -/
theorem exists_toPath?_of_ofLocalPath? {p : Path} {size : Nat} {modified : Instant} {m : Metadata}
    (h : ofLocalPath? p size modified = .ok m) :
    ∃ found, m.uri.toPath? = some found ∧ found.parts = p.parts := by
  obtain ⟨uri, name, huri, -, rfl⟩ := ofLocalPath?_iff.1 h
  exact Uri.exists_toPath? huri

/-- **The metadata of a local file names this file:** cleanup finds a path with the same parts, the
    name is the last part, and no other path has this URI.  There is none only for a path without a
    root, and for one that does not end in a name. -/
theorem local_names_file (text : String) (size : Nat) (modified : Instant) :
    let path := Path.ofText text
    (∀ m, ofLocalPath? path size modified = .ok m →
      (∃ found, m.uri.toPath? = some found ∧ found.parts = path.parts ∧
        ∀ r : Record, r.metadata = m → CleanupPolicy.localPath r = .ok found) ∧
      path.parts.getLast? = some (.name (Text.encode m.name)) ∧
      ∀ other size' modified' m', ofLocalPath? other size' modified' = .ok m' → m'.uri = m.uri →
        other.parts = path.parts) ∧
    ((∃ e, ofLocalPath? path size modified = .error e) ↔
      path.isAbsolute = false ∨ path.fileName? = none) := by
  intro path
  constructor
  · intro m hm
    obtain ⟨found, hfound, hparts⟩ := exists_toPath?_of_ofLocalPath? hm
    refine ⟨⟨found, hfound, hparts, ?_⟩, ?_, ?_⟩
    · rintro r rfl
      unfold CleanupPolicy.localPath
      rw [hfound]
    · -- the last part came from a text, so no byte of the name was replaced
      obtain ⟨uri, bytes, -, hname, rfl⟩ := ofLocalPath?_iff.1 hm
      have hlast := getLast?_of_fileName? hname
      obtain ⟨name, rfl⟩ := Path.exists_text_of_mem_parts (List.mem_of_getLast? hlast)
      rw [hlast, Text.decodeLossy_encode]
    · -- both paths are what the one URI leads back to
      intro other size' modified' m' hm' huri
      obtain ⟨found', hfound', hparts'⟩ := exists_toPath?_of_ofLocalPath? hm'
      rw [huri, hfound] at hfound'
      rw [← hparts', ← Option.some.inj hfound', hparts]
  · have hmade : (∃ m, ofLocalPath? path size modified = .ok m) ↔
        path.isAbsolute = true ∧ ∃ name, path.fileName? = some name := exists_ofLocalPath?_iff
    cases hresult : ofLocalPath? path size modified with
    | ok m =>
      obtain ⟨habsolute, name, hname⟩ := hmade.1 ⟨m, hresult⟩
      refine iff_of_false (fun ⟨e, he⟩ => by cases he) fun h => ?_
      rcases h with h | h
      · rw [habsolute] at h
        cases h
      · rw [hname] at h
        cases h
    | error e =>
      refine iff_of_true ⟨e, rfl⟩ ?_
      by_contra hnot
      rw [not_or, Bool.not_eq_false, ← ne_eq, Option.ne_none_iff_exists'] at hnot
      obtain ⟨m, hm⟩ := hmade.2 hnot
      rw [hresult] at hm
      cases hm

/-- Per cent signs, marks of queries and fragments, a drive, a step up, a blank and a letter beyond
    ASCII all come back. -/
theorem local_names_file_marked :
    ∃ m, ofLocalPath? (.ofText "/C:/../50%/a?b#c\\d/é %41") 1 ⟨0, 0⟩ = .ok m ∧
      m.uriText = "file:///C:/../50%25/a%3Fb%23c%5Cd/%C3%A9%20%2541" ∧ m.name = "é %41" ∧
      ∃ found, m.uri.toPath? = some found ∧
        found.parts = (Path.ofText "/C:/../50%/a?b#c\\d/é %41").parts := by
  let path := Path.ofText "/C:/../50%/a?b#c\\d/é %41"
  let uri := (Uri.ofPath? path).get (by decide +kernel)
  have huri : Uri.ofPath? path = some uri := (Option.some_get _).symm
  have htext : uri.text = "file:///C:/../50%25/a%3Fb%23c%5Cd/%C3%A9%20%2541" := by decide +kernel
  have hname : path.fileName? = some (Text.encode "é %41") := by decide +kernel
  let m : Metadata := ⟨uri, Text.decodeLossy (Text.encode "é %41"), 1, ⟨0, 0⟩, none⟩
  have hm : ofLocalPath? path 1 ⟨0, 0⟩ = .ok m := ofLocalPath?_iff.2 ⟨uri, _, huri, hname, rfl⟩
  have hread : m.name = "é %41" := Text.decodeLossy_encode "é %41"
  obtain ⟨⟨found, hfound, hparts, -⟩, -⟩ := (local_names_file _ 1 ⟨0, 0⟩).1 m hm
  exact ⟨m, hm, htext, hread, found, hfound, hparts⟩

end Metadata

end Intake
