import Intake.Proofs.Ancestry
import Intake.Proofs.Decoded
import Intake.Proofs.Elsewhere

/-!
# Footprint — which places of a tree a cleanup writes

A cleanup that fails writes nothing.  A delete writes the place of its own record; a move writes
this place, that of its target directly below one of its two directories, and places above the
target at which nothing was (`CleanupPolicy.cleanup_footprint`).  Repeated at once, a cleanup that
succeeded succeeds and writes nothing, unless a file was moved to a place below its own
(`CleanupPolicy.cleanup_repeated`).
-/

namespace Intake

/-! ## 1. Places that writing leaves alone -/

theorem Catalog.erase_insert_self {κ ν : Type} [DecidableEq κ] {c : Catalog κ ν} {k : κ} (v : ν)
    (h : c.contains k = false) : (c.insert k v).erase k = c := by
  have herase : c.entries.filter (fun e => e.1 != k) = c.entries :=
    congrArg Catalog.entries (erase_of_contains_eq_false h)
  have hself : [(k, v)].filter (fun e => e.1 != k) = [] := by simp
  apply eq_of_entries
  show (c.entries.filter (fun e => e.1 != k) ++ [(k, v)]).filter (fun e => e.1 != k) = c.entries
  rw [herase, List.filter_append, herase, hself, List.append_nil]

namespace Files

variable (fs : Files)

theorem get?_put_of_ne {p : Path} {place : Place} (h : place ≠ p.parts) (n : Node) :
    (fs.put p n).nodes.get? place = fs.nodes.get? place := by
  unfold put
  rw [Catalog.get?_insert, if_neg h]

theorem get?_erase_of_ne {p : Path} {place : Place} (h : place ≠ p.parts) :
    (fs.erase p).nodes.get? place = fs.nodes.get? place := by
  unfold erase
  rw [Catalog.get?_erase, if_neg h]

theorem get?_erase_self (p : Path) : (fs.erase p).nodes.get? p.parts = none := by
  unfold erase
  rw [Catalog.get?_erase, if_pos rfl]

theorem at?_eq_of_get?_eq {fs fs' : Files} {place : Place}
    (h : fs'.nodes.get? place = fs.nodes.get? place) : fs'.at? place = fs.at? place :=
  congrArg (Option.map Prod.snd) h

theorem get?_eq_none {p : Path} (h : fs.contains p = false) : fs.nodes.get? p.parts = none := by
  unfold contains at h
  rw [Catalog.contains_eq_isSome] at h
  exact Option.isNone_iff_eq_none.1 (Option.isSome_eq_false_iff.1 h)

/-- **Making directories** writes only places of theirs at which nothing is. -/
theorem get?_ensureDirs (above : List Path) (place : Place) :
    (above.foldl ensureDir fs).nodes.get? place = fs.nodes.get? place ∨
      (∃ q ∈ above, q.parts = place) ∧ fs.nodes.get? place = none ∧
        (above.foldl ensureDir fs).at? place = some .dir := by
  induction above generalizing fs with
  | nil => exact .inl rfl
  | cons q above ih =>
    rw [List.foldl_cons]
    have hfirst : (fs.ensureDir q).nodes.get? place = fs.nodes.get? place ∨
        q.parts = place ∧ fs.nodes.get? place = none ∧
          (fs.ensureDir q).at? place = some .dir := by
      unfold ensureDir
      split
      next => exact .inl rfl
      next hfree =>
        by_cases hplace : place = q.parts
        · right
          rw [at?_put, if_pos hplace, hplace]
          exact ⟨rfl, fs.get?_eq_none (Bool.not_eq_true _ ▸ hfree), rfl⟩
        · exact .inl (fs.get?_put_of_ne hplace .dir)
    rcases ih (fs.ensureDir q) with hsame | ⟨⟨q', hq', hplace⟩, hnone, hdir⟩
    · rw [at?_eq_of_get?_eq hsame, hsame]
      rcases hfirst with hfirst | ⟨hplace, hnone, hdir⟩
      · exact .inl hfirst
      · exact .inr ⟨⟨q, List.mem_cons_self, hplace⟩, hnone, hdir⟩
    · -- what becomes a directory later was free before
      right
      refine ⟨⟨q', List.mem_cons_of_mem q hq', hplace⟩, ?_, hdir⟩
      rcases hfirst with hfirst | ⟨-, -, hfirst⟩
      · exact hfirst.symm.trans hnone
      · rw [at?, hnone] at hfirst
        cases hfirst

theorem contains_ensureDirs {above : List Path} {q : Path} (h : fs.contains q = true ∨ q ∈ above) :
    (above.foldl ensureDir fs).contains q = true := by
  induction above generalizing fs with
  | nil => exact h.resolve_right List.not_mem_nil
  | cons first above ih =>
    rw [List.foldl_cons]
    have hstays : fs.contains q = true ∨ q = first → (fs.ensureDir first).contains q = true := by
      intro hq
      unfold ensureDir
      split
      next hthere =>
        rcases hq with hq | rfl
        · exact hq
        · exact hthere
      next =>
        rw [contains_eq_isSome, find?_put]
        split
        next => rfl
        next hplace =>
          rw [← contains_eq_isSome]
          exact hq.resolve_right fun heq => hplace (congrArg Path.parts heq)
    apply ih
    rw [List.mem_cons, ← or_assoc] at h
    exact h.imp_left hstays

theorem ensureParents_eq_self {p : Path} (h : ∀ q ∈ p.ancestors, fs.contains q = true) :
    fs.ensureParents p = fs := by
  have hdirs : ∀ above : List Path, (∀ q ∈ above, fs.contains q = true) →
      above.foldl ensureDir fs = fs := by
    intro above
    induction above with
    | nil => intro _; rfl
    | cons q above ih =>
      intro hall
      obtain ⟨hq, hlater⟩ := List.forall_mem_cons.1 hall
      rw [List.foldl_cons, ensureDir, if_pos hq]
      exact ih hlater
  exact hdirs p.ancestors h

/-- **Making the directories above a path** writes only places above it at which nothing is. -/
theorem get?_ensureParents (p : Path) (place : Place) :
    (fs.ensureParents p).nodes.get? place = fs.nodes.get? place ∨
      IsAbove place p.parts ∧ fs.nodes.get? place = none ∧
        (fs.ensureParents p).at? place = some .dir := by
  rcases fs.get?_ensureDirs p.ancestors place with hsame | ⟨⟨q, hq, rfl⟩, hnone, hdir⟩
  · exact .inl hsame
  · exact .inr ⟨Path.isAbove_of_mem_ancestors hq, hnone, hdir⟩

/-- Making directories above a path adds no file and replaces nothing. -/
theorem at?_ensureParents (p : Path) (place : Place) :
    (fs.ensureParents p).at? place = fs.at? place ∨
      fs.at? place = none ∧ (fs.ensureParents p).at? place = some .dir := by
  rcases fs.get?_ensureParents p place with hsame | ⟨-, hnone, hdir⟩
  · exact .inl (at?_eq_of_get?_eq hsame)
  · exact .inr ⟨Option.map_eq_none_iff.2 hnone, hdir⟩

/-- Directories above a path that were made are there. -/
theorem ensureParents_twice (p : Path) :
    (fs.ensureParents p).ensureParents p = fs.ensureParents p :=
  ensureParents_eq_self _ fun _ hq => contains_ensureDirs fs (.inr hq)

/-- What is above a path and was free becomes a directory. -/
theorem at?_ensureParents_above {p : Path} {place : Place} (h : IsAbove place p.parts)
    (hne : place ≠ []) (hfree : fs.nodes.get? place = none) :
    (fs.ensureParents p).at? place = some .dir := by
  obtain ⟨q, hq, rfl⟩ := Path.exists_mem_ancestors h hne
  have hthere : (fs.ensureParents p).contains q = true := contains_ensureDirs fs (.inr hq)
  rcases fs.get?_ensureParents p q.parts with hsame | ⟨-, -, hdir⟩
  · rw [contains, Catalog.contains_eq_isSome, hsame, hfree] at hthere
    cases hthere
  · exact hdir

/-- **A file that is added** writes its own place and places above it at which nothing is. -/
theorem get?_addFile (p : Path) (size : Nat) (modified : Instant) (place : Place) :
    (fs.addFile p size modified).nodes.get? place = fs.nodes.get? place ∨ place = p.parts ∨
      IsAbove place p.parts ∧ fs.nodes.get? place = none ∧
        (fs.addFile p size modified).at? place = some .dir := by
  unfold addFile
  by_cases hplace : place = p.parts
  · exact .inr (.inl hplace)
  · rw [get?_put_of_ne _ hplace, at?_put, if_neg hplace]
    rcases fs.get?_ensureParents p place with hsame | habove
    · exact .inl hsame
    · exact .inr (.inr habove)

theorem find?_addFile_self (p : Path) (size : Nat) (modified : Instant) :
    (fs.addFile p size modified).find? p = some (.file size modified) := by
  unfold addFile
  rw [find?_put, if_pos rfl]

end Files

/-! ## 2. Where a record's file moves -/

/-- **The name that built metadata has** from a local path is a name. -/
theorem Metadata.Built.isName {m : Metadata} (h : m.Built) (hfile : m.uri.isFile = true)
    {path : Path} (hpath : m.uri.toPath? = some path) : Path.IsName (Text.encode m.name) := by
  have hname := h.name
  unfold nameOf? at hname
  rw [if_pos hfile, hpath, Option.map_eq_some_iff] at hname
  obtain ⟨bytes, hbytes, hread⟩ := hname
  have hlast : .name bytes ∈ path.parts := by
    unfold Path.fileName? at hbytes
    split at hbytes
    next name hlast =>
      cases hbytes
      exact List.mem_of_getLast? hlast
    next => cases hbytes
  rw [← hread]
  exact (Path.isName_of_mem_parts hlast).decodeLossy

namespace CleanupPolicy

def targetDir (success failure : Path) (r : Record) : Path :=
  if r.status = .completed then success else failure

/-- **The target of a built record** is directly below its directory. -/
theorem parts_target (success failure : Path) {r : Record} (hbuilt : r.metadata.Built)
    (hfile : r.metadata.uri.isFile = true) {path : Path}
    (hpath : r.metadata.uri.toPath? = some path) :
    (target success failure r).parts =
      (targetDir success failure r).parts ++ [.name (Text.encode r.metadata.name)] :=
  Path.parts_join _ (hbuilt.isName hfile hpath)

/-! ## 3. One file -/

section OneFile

variable (faults : Faults) (x : Files)

theorem removeFile_memory {path : Path} (h : Faults.hit faults.removeFile path = false) :
    Volume.removeFile ⟨.memory x, faults⟩ path =
      match x.removeFile path with
      | .ok y => (⟨.memory y, faults⟩, .ok ())
      | .error e => (⟨.memory x, faults⟩, .error e) :=
  if_neg (by simp [h])

theorem rename_memory {source : Path} (goal : Path) (h : Faults.hit faults.rename source = false) :
    Volume.rename ⟨.memory x, faults⟩ source goal =
      match x.rename source goal with
      | .ok y => (⟨.memory y, faults⟩, .ok ())
      | .error e => (⟨.memory x, faults⟩, .error e) :=
  if_neg (by simp [h])

theorem deleteFile_of_none {path : Path} (hhit : Faults.hit faults.removeFile path = false)
    (h : x.find? path = none) :
    deleteFile ⟨.memory x, faults⟩ path = (⟨.memory x, faults⟩, .ok ()) := by
  unfold deleteFile
  rw [removeFile_memory faults x hhit, Files.removeFile, h]
  rfl

theorem deleteFile_of_file {path : Path} (hhit : Faults.hit faults.removeFile path = false)
    {size : Nat} {modified : Instant} (h : x.find? path = some (.file size modified)) :
    deleteFile ⟨.memory x, faults⟩ path = (⟨.memory (x.erase path), faults⟩, .ok ()) := by
  unfold deleteFile
  rw [removeFile_memory faults x hhit, Files.removeFile, h]

/-- **What deleting a file can do,** on a tree with any faults. -/
theorem deleteFile_cases (path : Path) :
    (∃ e, deleteFile ⟨.memory x, faults⟩ path = (⟨.memory x, faults⟩, .error e) ∧
        (Faults.hit faults.removeFile path = true ∨ x.find? path = some .dir)) ∨
      (Faults.hit faults.removeFile path = false ∧ x.find? path = none ∧
        deleteFile ⟨.memory x, faults⟩ path = (⟨.memory x, faults⟩, .ok ())) ∨
      (Faults.hit faults.removeFile path = false ∧
        ∃ size modified, x.find? path = some (.file size modified) ∧
          deleteFile ⟨.memory x, faults⟩ path = (⟨.memory (x.erase path), faults⟩, .ok ())) := by
  cases hhit : Faults.hit faults.removeFile path with
  | true =>
    have hremove : Volume.removeFile ⟨.memory x, faults⟩ path =
        (⟨.memory x, faults⟩, .error (Faults.denied "remove_file")) := if_pos hhit
    unfold deleteFile
    rw [hremove]
    exact .inl ⟨_, rfl, .inl rfl⟩
  | false =>
    cases hfound : x.find? path with
    | none => exact .inr (.inl ⟨rfl, rfl, deleteFile_of_none faults x hhit hfound⟩)
    | some n =>
      cases n with
      | dir =>
        unfold deleteFile
        rw [removeFile_memory faults x hhit, Files.removeFile, hfound]
        exact .inl ⟨_, rfl, .inr rfl⟩
      | file size modified =>
        exact .inr (.inr ⟨rfl, size, modified, rfl, deleteFile_of_file faults x hhit hfound⟩)

/-- A file that has arrived does not move. -/
theorem moveFile_of_arrived {source goal : Path} (hgone : x.contains source = false)
    (hthere : x.contains goal = true) :
    moveFile ⟨.memory x, faults⟩ source goal = (⟨.memory x, faults⟩, .ok ()) := by
  have harrived : (!Volume.contains ⟨.memory x, faults⟩ source &&
      Volume.contains ⟨.memory x, faults⟩ goal) = true := by
    show (!x.contains source && x.contains goal) = true
    rw [hgone, hthere]
    rfl
  exact if_pos harrived

/-- A file that has not arrived is renamed. -/
theorem moveFile_eq_rename {source goal : Path}
    (h : x.contains source = true ∨ x.contains goal = false) :
    moveFile ⟨.memory x, faults⟩ source goal =
      match Volume.rename ⟨.memory x, faults⟩ source goal with
      | (v, .ok ()) => (v, .ok ())
      | (v, .error e) => (v, .error (.io e)) := by
  have hmissing : ¬(!Volume.contains ⟨.memory x, faults⟩ source &&
      Volume.contains ⟨.memory x, faults⟩ goal) = true := by
    show ¬(!x.contains source && x.contains goal) = true
    rcases h with h | h <;> simp [h]
  exact if_neg hmissing

theorem moveFile_of_file {source goal : Path} (hhit : Faults.hit faults.rename source = false)
    {size : Nat} {modified : Instant} (h : x.find? source = some (.file size modified)) :
    moveFile ⟨.memory x, faults⟩ source goal =
      (⟨.memory ((x.erase source).addFile goal size modified), faults⟩, .ok ()) := by
  have hthere : x.contains source = true := by
    rw [Files.contains_eq_isSome, h]
    rfl
  rw [moveFile_eq_rename faults x (.inl hthere), rename_memory faults x goal hhit, Files.rename, h]

/-- **What moving a file can do,** on a tree with any faults. -/
theorem moveFile_cases (source goal : Path) :
    (∃ e, moveFile ⟨.memory x, faults⟩ source goal = (⟨.memory x, faults⟩, .error e)) ∨
      (x.contains source = false ∧ x.contains goal = true ∧
        moveFile ⟨.memory x, faults⟩ source goal = (⟨.memory x, faults⟩, .ok ())) ∨
      (Faults.hit faults.rename source = false ∧
        ∃ size modified, x.find? source = some (.file size modified) ∧
          moveFile ⟨.memory x, faults⟩ source goal =
            (⟨.memory ((x.erase source).addFile goal size modified), faults⟩, .ok ())) := by
  by_cases harrived : x.contains source = false ∧ x.contains goal = true
  · have hmove := moveFile_of_arrived faults x harrived.1 harrived.2
    exact .inr (.inl ⟨harrived.1, harrived.2, hmove⟩)
  · have hmissing : x.contains source = true ∨ x.contains goal = false := by
      rw [not_and_or, Bool.not_eq_false, Bool.not_eq_true] at harrived
      exact harrived
    cases hhit : Faults.hit faults.rename source with
    | true =>
      have hrename : Volume.rename ⟨.memory x, faults⟩ source goal =
          (⟨.memory x, faults⟩, .error (Faults.denied "rename")) := if_pos hhit
      rw [moveFile_eq_rename faults x hmissing, hrename]
      exact .inl ⟨_, rfl⟩
    | false =>
      cases hfound : x.find? source with
      | none =>
        rw [moveFile_eq_rename faults x hmissing, rename_memory faults x goal hhit, Files.rename,
          hfound]
        exact .inl ⟨_, rfl⟩
      | some n =>
        cases n with
        | dir =>
          rw [moveFile_eq_rename faults x hmissing, rename_memory faults x goal hhit, Files.rename,
            hfound]
          exact .inl ⟨_, rfl⟩
        | file size modified =>
          exact .inr (.inr ⟨rfl, size, modified, rfl, moveFile_of_file faults x hhit hfound⟩)

end OneFile

/-! ## 4. One record -/

structure Deleted (faults : Faults) (r : Record) (x y : Files) (o : Outcome) : Prop where
  fail : o = .fail → y = x
  succeed : o = .succeed → ∃ path, r.metadata.uri.toPath? = some path ∧
    y.nodes.get? path.parts = none ∧
    ∀ place, place ≠ path.parts → y.nodes.get? place = x.nodes.get? place
  missing : ∀ path, r.metadata.uri.toPath? = some path → x.contains path = false →
    y = x ∧ (o = .succeed ↔ Faults.hit faults.removeFile path = false)

structure Moved (success failure : Path) (r : Record) (x y : Files) (o : Outcome) : Prop where
  fail : o = .fail → y = x
  succeed : o = .succeed → ∃ path name, r.metadata.uri.toPath? = some path ∧
    (target success failure r).parts = (targetDir success failure r).parts ++ [.name name] ∧
    y.contains (target success failure r) = true ∧
    ∀ place, y.nodes.get? place = x.nodes.get? place ∨ place = path.parts ∨
      place = (target success failure r).parts ∨
      IsAbove place (target success failure r).parts ∧ x.nodes.get? place = none ∧
        y.at? place = some .dir
  missing : ∀ path, r.metadata.uri.toPath? = some path → x.contains path = false →
    x.contains (target success failure r) = false → o = .fail

/-- A move that fails and leaves the tree as it is. -/
theorem Moved.of_fail {success failure : Path} {r : Record} {x : Files} :
    Moved success failure r x x .fail :=
  ⟨fun _ => rfl, fun h => (by cases h), fun _ _ _ _ => rfl⟩

section OneRecord

variable (faults : Faults) (success failure : Path) (x : Files) {r : Record} {path : Path}

theorem apply_delete_eq (hpath : r.metadata.uri.toPath? = some path) (v : Volume) :
    apply .delete v r = deleteFile v path := by
  unfold apply localPath
  rw [hpath]

theorem apply_move_eq (hpath : r.metadata.uri.toPath? = some path) (v : Volume) :
    apply (.move success failure) v r = moveFile v path (target success failure r) := by
  unfold apply localPath
  rw [hpath]

theorem deleted (r : Record) :
    ∃ y, (apply .delete ⟨.memory x, faults⟩ r).1 = ⟨.memory y, faults⟩ ∧
      Deleted faults r x y (outcomeOf (apply .delete ⟨.memory x, faults⟩ r).2) := by
  cases hpath : r.metadata.uri.toPath? with
  | none =>
    rw [(apply_of_toPath?_eq_none hpath _).1]
    refine ⟨x, rfl, fun _ => rfl, fun h => (by cases h), fun path hsome => ?_⟩
    rw [hpath] at hsome
    cases hsome
  | some path =>
    have hsame : ∀ path', r.metadata.uri.toPath? = some path' → path' = path := by
      intro path' hpath'
      exact Option.some.inj (hpath'.symm.trans hpath)
    rw [apply_delete_eq hpath]
    rcases deleteFile_cases faults x path with ⟨e, hdelete, hwhy⟩ | ⟨hhit, hnone, hdelete⟩ |
      ⟨hhit, size, modified, hfound, hdelete⟩
    · rw [hdelete]
      refine ⟨x, rfl, fun _ => rfl, fun h => (by cases h), fun path' hpath' hmissing => ⟨rfl, ?_⟩⟩
      obtain rfl := hsame path' hpath'
      rw [Files.contains_eq_isSome] at hmissing
      -- nothing is there, so it was the fault
      rcases hwhy with hhit | hdir
      · rw [hhit]
        exact iff_of_false (fun h => by cases h) fun h => by cases h
      · rw [hdir] at hmissing
        cases hmissing
    · rw [hdelete]
      refine ⟨x, rfl, fun h => (by cases h), fun _ => ⟨path, hpath, ?_, fun _ _ => rfl⟩,
        fun path' hpath' _ => ⟨rfl, ?_⟩⟩
      · apply x.get?_eq_none
        rw [Files.contains_eq_isSome, hnone]
        rfl
      · obtain rfl := hsame path' hpath'
        exact iff_of_true rfl hhit
    · rw [hdelete]
      refine ⟨x.erase path, rfl, fun h => (by cases h),
        fun _ => ⟨path, hpath, ?_, fun place hplace => ?_⟩, fun path' hpath' hmissing => ?_⟩
      · exact x.get?_erase_self path
      · exact x.get?_erase_of_ne hplace
      · obtain rfl := hsame path' hpath'
        rw [Files.contains_eq_isSome, hfound] at hmissing
        cases hmissing

theorem moved (hbuilt : r.metadata.Built) (hfile : r.metadata.uri.isFile = true) :
    ∃ y, (apply (.move success failure) ⟨.memory x, faults⟩ r).1 = ⟨.memory y, faults⟩ ∧
      Moved success failure r x y
        (outcomeOf (apply (.move success failure) ⟨.memory x, faults⟩ r).2) := by
  cases hpath : r.metadata.uri.toPath? with
  | none =>
    rw [(apply_of_toPath?_eq_none hpath _).2]
    exact ⟨x, rfl, .of_fail⟩
  | some path =>
    have htarget := parts_target success failure hbuilt hfile hpath
    rw [apply_move_eq success failure hpath]
    rcases moveFile_cases faults x path (target success failure r) with ⟨e, hmove⟩ |
      ⟨hgone, harrived, hmove⟩ | ⟨-, size, modified, hfound, hmove⟩
    · -- a move that fails writes nothing
      rw [hmove]
      exact ⟨x, rfl, .of_fail⟩
    · -- a file that arrived before is left where it is
      rw [hmove]
      refine ⟨x, rfl, fun h => (by cases h),
        fun _ => ⟨path, _, hpath, htarget, harrived, fun _ => .inl rfl⟩, fun _ _ _ hmissing => ?_⟩
      rw [harrived] at hmissing
      cases hmissing
    · rw [hmove]
      refine ⟨_, rfl, fun h => (by cases h),
        fun _ => ⟨path, _, hpath, htarget, ?_, fun place => ?_⟩, fun path' hpath' hmissing _ => ?_⟩
      · rw [Files.contains_eq_isSome, Files.find?_addFile_self]
        rfl
      · -- the file leaves its place, and then writes what any file does that is added
        by_cases hsource : place = path.parts
        · exact .inr (.inl hsource)
        · rw [← x.get?_erase_of_ne hsource]
          rcases (x.erase path).get?_addFile (target success failure r) size modified place with
            hsame | hchanged
          · exact .inl hsame
          · exact .inr (.inr hchanged)
      · obtain rfl := Option.some.inj (hpath'.symm.trans hpath)
        rw [Files.contains_eq_isSome, hfound] at hmissing
        cases hmissing

theorem apply_move_memory (x : Files) (r : Record) :
    ∃ y, (apply (.move success failure) ⟨.memory x, faults⟩ r).1 = ⟨.memory y, faults⟩ := by
  cases hpath : r.metadata.uri.toPath? with
  | none =>
    rw [(apply_of_toPath?_eq_none hpath _).2]
    exact ⟨x, rfl⟩
  | some path =>
    rw [apply_move_eq success failure hpath]
    rcases moveFile_cases faults x path (target success failure r) with ⟨e, hmove⟩ |
      ⟨-, -, hmove⟩ | ⟨-, size, modified, -, hmove⟩
    · exact ⟨x, congrArg Prod.fst hmove⟩
    · exact ⟨x, congrArg Prod.fst hmove⟩
    · exact ⟨_, congrArg Prod.fst hmove⟩

end OneRecord

/-! ## 5. A batch -/

structure InTurn (treat : Treatment) (files : Files) (faults : Faults) (before : List Record)
    (r : Record) (after : List Record) (x y : Files) (o : Outcome) : Prop where
  front : (batch treat ⟨.memory files, faults⟩ before).1 = ⟨.memory x, faults⟩
  behind : (batch treat ⟨.memory files, faults⟩ (before ++ [r])).1 = ⟨.memory y, faults⟩
  outcome : (batch treat ⟨.memory files, faults⟩ (before ++ r :: after)).2.1[before.length]? =
    some (r, o)

section Batch

variable {treat : Treatment} {faults : Faults}

/-- Treatments that keep trees in memory do so in every batch. -/
theorem exists_batch_memory
    (hkeeps : ∀ x r, ∃ y, (treat ⟨.memory x, faults⟩ r).1 = ⟨.memory y, faults⟩) (x : Files)
    (records : List Record) :
    ∃ y, (batch treat ⟨.memory x, faults⟩ records).1 = ⟨.memory y, faults⟩ := by
  induction records generalizing x with
  | nil => exact ⟨x, rfl⟩
  | cons r rest ih =>
    obtain ⟨y, hy⟩ := hkeeps x r
    rw [(batch_cons ..).1, hy]
    exact ih y

/-- What holds of a record's treatment on every tree holds of its turn in every batch. -/
theorem exists_inTurn {P : Files → Files → Outcome → Prop} {r : Record}
    (hkeeps : ∀ x r, ∃ y, (treat ⟨.memory x, faults⟩ r).1 = ⟨.memory y, faults⟩)
    (hturn : ∀ x, ∃ y, (treat ⟨.memory x, faults⟩ r).1 = ⟨.memory y, faults⟩ ∧
      P x y (outcomeOf (treat ⟨.memory x, faults⟩ r).2)) (files : Files)
    (before after : List Record) :
    ∃ x y o, InTurn treat files faults before r after x y o ∧ P x y o := by
  obtain ⟨x, hx⟩ := exists_batch_memory hkeeps files before
  obtain ⟨y, hy, hP⟩ := hturn x
  refine ⟨x, y, _, ⟨hx, ?_, ?_⟩, hP⟩
  · rw [(batch_append ..).1, hx, (batch_cons ..).1, hy]
    rfl
  · rw [getElem?_batch, hx]

end Batch

/-- **The footprint of a cleanup,** for every built record of a local file in every batch: between
    the trees in front of its turn and behind it, only the places that it names may differ. -/
theorem cleanup_footprint (success failure : Path) (files : Files) (faults : Faults)
    (before : List Record) (r : Record) (after : List Record) (hbuilt : r.metadata.Built)
    (hfile : r.metadata.uri.isFile = true) :
    (∃ x y o, InTurn (apply .delete) files faults before r after x y o ∧ Deleted faults r x y o) ∧
      ∃ x y o, InTurn (apply (.move success failure)) files faults before r after x y o ∧
        Moved success failure r x y o := by
  constructor
  · refine exists_inTurn (fun x r => ?_) (fun x => deleted faults x r) files before after
    obtain ⟨y, hy, -⟩ := deleted faults x r
    exact ⟨y, hy⟩
  · exact exists_inTurn (apply_move_memory faults success failure)
      (fun x => moved faults success failure x hbuilt hfile) files before after

/-- A fault stops the first of two records, and the second moves into a directory that is not there
    yet. -/
theorem cleanup_footprint_of_two :
    let metadata (name : String) : Metadata :=
      ⟨⟨"file", some .none, "/in/" ++ name, none, none⟩, name, 1, default, none⟩
    let first : Record := .new (metadata "a.csv") .failed
    let second : Record := .new (metadata "b.csv") .completed
    let faults : Faults := { rename := [.ofText "/in/a.csv"] }
    let files : Files := (Files.empty.addFile (.ofText "/in/a.csv") 1 default).addFile
      (.ofText "/in/b.csv") 1 default
    second.metadata.Built ∧ second.metadata.uri.isFile = true ∧
      (∃ x y o, InTurn (apply .delete) files faults [first] second [] x y o ∧
        Deleted faults second x y o) ∧
      (∃ x y o, InTurn (apply (.move (.ofText "/out/done") (.ofText "/error"))) files faults [first]
        second [] x y o ∧ Moved (.ofText "/out/done") (.ofText "/error") second x y o) ∧
      (batch (apply (.move (.ofText "/out/done") (.ofText "/error"))) ⟨.memory files, faults⟩
        [first, second]).2.1 = [(first, .fail), (second, .succeed)] := by
  intro metadata first second faults files
  have hbuilt : second.metadata.Built := @Metadata.Built.ofLocalPath (.ofText "/in/b.csv") _ _ _ rfl
  obtain ⟨hdelete, hmove⟩ := cleanup_footprint (.ofText "/out/done") (.ofText "/error") files faults
    [first] second [] hbuilt rfl
  exact ⟨hbuilt, rfl, hdelete, hmove, by decide +kernel⟩

/-- **A fault comes first:** where removing is denied, the delete of a file that is not there
    fails. -/
theorem delete_denied :
    let uri : Uri := ⟨"file", some .none, "/in/a.csv", none, none⟩
    let r : Record := .new ⟨uri, "a.csv", 1, default, none⟩ .completed
    let files : Files := Files.empty.addFile (.ofText "/in/b.csv") 1 default
    let faults : Faults := { removeFile := [.ofText "/in/a.csv"] }
    r.metadata.Built ∧ uri.isFile = true ∧ uri.toPath? = some (.ofText "/in/a.csv") ∧
      files.contains (.ofText "/in/a.csv") = false ∧
      (batch (apply .delete) ⟨.memory files, faults⟩ [r]).2.1 = [(r, .fail)] := by
  intro uri r files faults
  have hbuilt : r.metadata.Built := @Metadata.Built.ofLocalPath (.ofText "/in/a.csv") _ _ _ rfl
  refine ⟨hbuilt, ?_⟩
  decide +kernel

/-! ## 6. The same cleanup again -/

theorem isAbsolute_closeDrive (rest : Bytes) :
    (Path.mk (Uri.closeDrive (Path.slash :: rest))).isAbsolute = true := by
  unfold Uri.closeDrive
  split
  · split <;> rfl
  · rfl

/-- A local path starts with the slash of its first segment. -/
theorem isAbsolute_of_toPath? {u : Uri} {path : Path} (h : u.toPath? = some path) :
    path.isAbsolute = true := by
  unfold Uri.toPath? Uri.segments? at h
  split at h
  next segments hsegments =>
    split at h
    next =>
      split at hsegments
      next steps hsteps =>
        cases hpieces : Text.pieces (· == '/') steps with
        | nil => exact absurd hpieces (Text.pieces_ne_nil _ _)
        | cons first others =>
          cases hsegments
          cases h
          rw [hpieces, List.flatMap_cons]
          exact isAbsolute_closeDrive _
      next => cases hsegments
    next => cases h
  next => cases h

theorem parts_ne_nil_of_toPath? {u : Uri} {path : Path} (h : u.toPath? = some path) :
    path.parts ≠ [] :=
  Path.parts_ne_nil_of_isAbsolute (isAbsolute_of_toPath? h)

/-- Removing a file that was added, and adding it again, writes nothing. -/
theorem addFile_again {fs : Files} {p q : Path} (h : q.parts = p.parts)
    (hfree : fs.contains p = false) (size : Nat) (modified : Instant) :
    ((fs.addFile p size modified).erase q).addFile p size modified =
      fs.addFile p size modified := by
  have hfree' : (fs.ensureParents p).contains p = false := by
    rcases fs.get?_ensureParents p p.parts with hsame | ⟨habove, -⟩
    · rw [Files.contains, Catalog.contains_eq_isSome, hsame, fs.get?_eq_none hfree]
      rfl
    · exact absurd rfl habove.2
  have herase : (fs.addFile p size modified).erase q = fs.ensureParents p := by
    unfold Files.addFile Files.put Files.erase
    rw [h]
    exact congrArg Files.mk (Catalog.erase_insert_self _ hfree')
  rw [herase]
  unfold Files.addFile
  rw [Files.ensureParents_twice]

section Again

variable (faults : Faults) {x : Files} {v : Volume}

theorem deleteFile_again {path : Path}
    (h : deleteFile ⟨.memory x, faults⟩ path = (v, .ok ())) : deleteFile v path = (v, .ok ()) := by
  rcases deleteFile_cases faults x path with ⟨e, hdelete, -⟩ | ⟨-, -, hdelete⟩ |
    ⟨hhit, size, modified, -, hdelete⟩
  · rw [hdelete] at h
    cases h
  · rw [hdelete] at h
    cases h
    exact hdelete
  · rw [hdelete] at h
    cases h
    -- nothing is left to remove
    have hnone : (x.erase path).find? path = none := by
      rw [Files.find?_erase, if_pos rfl]
    exact deleteFile_of_none faults _ hhit hnone

/-- A file that is moved to its own place moves there again. -/
theorem moveFile_in_place {source goal : Path} (hhit : Faults.hit faults.rename source = false)
    (hplace : source.parts = goal.parts) (size : Nat) (modified : Instant) :
    moveFile ⟨.memory ((x.erase source).addFile goal size modified), faults⟩ source goal =
      (⟨.memory ((x.erase source).addFile goal size modified), faults⟩, .ok ()) := by
  have hfound : ((x.erase source).addFile goal size modified).find? source =
      some (.file size modified) := by
    have harrived := Files.find?_addFile_self (x.erase source) goal size modified
    unfold Files.find? at harrived ⊢
    rw [hplace, harrived]
  have hfree : (x.erase source).contains goal = false := by
    rw [Files.contains_eq_isSome, Files.find?_erase, if_pos hplace.symm]
    rfl
  rw [moveFile_of_file faults _ hhit hfound, addFile_again hplace hfree]

/-- A file that is moved elsewhere, but not to a place below its own, is gone from its place. -/
theorem contains_of_moved {source goal : Path} (hplace : source.parts ≠ goal.parts)
    (hapart : ¬IsAbove source.parts goal.parts) (size : Nat) (modified : Instant) :
    ((x.erase source).addFile goal size modified).contains source = false := by
  rw [Files.contains, Catalog.contains_eq_isSome]
  rcases (x.erase source).get?_addFile goal size modified source.parts with
    hsame | hsame | ⟨habove, -⟩
  · rw [hsame, Files.get?_erase_self]
    rfl
  · exact absurd hsame hplace
  · exact absurd habove hapart

/-- A file that arrived at its own place moves there again; one that left its place has arrived. -/
theorem moveFile_again {source goal : Path}
    (h : moveFile ⟨.memory x, faults⟩ source goal = (v, .ok ()))
    (hapart : x.contains source = true → ¬IsAbove source.parts goal.parts) :
    moveFile v source goal = (v, .ok ()) := by
  rcases moveFile_cases faults x source goal with ⟨e, hmove⟩ | ⟨-, -, hmove⟩ |
    ⟨hhit, size, modified, hfound, hmove⟩
  · rw [hmove] at h
    cases h
  · rw [hmove] at h
    cases h
    exact hmove
  · rw [hmove] at h
    cases h
    -- at its own place the file is still there and moves again; elsewhere it has arrived
    by_cases hplace : source.parts = goal.parts
    · exact moveFile_in_place faults hhit hplace size modified
    · have hthere : x.contains source = true := by
        rw [Files.contains_eq_isSome, hfound]
        rfl
      have harrived : ((x.erase source).addFile goal size modified).contains goal = true := by
        rw [Files.contains_eq_isSome, Files.find?_addFile_self]
        rfl
      have hgone : ((x.erase source).addFile goal size modified).contains source = false :=
        contains_of_moved hplace (hapart hthere) size modified
      exact moveFile_of_arrived faults _ hgone harrived

/-- A file that moved to a place below its own left a directory there, which does not move. -/
theorem moveFile_below {source goal : Path}
    (h : moveFile ⟨.memory x, faults⟩ source goal = (v, .ok ())) (hthere : x.contains source = true)
    (hbelow : IsAbove source.parts goal.parts) (hne : source.parts ≠ []) :
    ∃ e, moveFile v source goal = (v, .error e) := by
  rcases moveFile_cases faults x source goal with ⟨e, hmove⟩ | ⟨hgone, -⟩ |
    ⟨-, size, modified, -, hmove⟩
  · rw [hmove] at h
    cases h
  · rw [hthere] at hgone
    cases hgone
  · rw [hmove] at h
    cases h
    -- the source was erased first, so it was free when the directories were made
    have hdir : ((x.erase source).addFile goal size modified).find? source = some .dir := by
      unfold Files.addFile
      rw [Files.find?_put, if_neg hbelow.2]
      exact Files.at?_ensureParents_above _ hbelow hne (x.get?_erase_self source)
    rcases moveFile_cases faults ((x.erase source).addFile goal size modified) source goal with
      ⟨e, hagain⟩ | ⟨hgone, -⟩ | ⟨-, size', modified', hfound, -⟩
    · exact ⟨e, hagain⟩
    · rw [Files.contains_eq_isSome, hdir] at hgone
      cases hgone
    · rw [hdir] at hfound
      cases hfound

end Again

theorem eq_of_isOk {treated : Volume × Except Error Unit} (h : treated.2.isOk = true) :
    treated = (treated.1, .ok ()) := by
  obtain ⟨v, result⟩ := treated
  cases result with
  | error e => cases h
  | ok _ => rfl

/-- **A cleanup that is repeated** at once, on any tree: if the first one succeeds, the second one
    succeeds too and writes nothing.  Only a file that moved to a place below its own fails to move
    again; the target of a built record is below its path if its directory is this path or below
    it. -/
theorem cleanup_repeated (success failure : Path) (files : Files) (faults : Faults) (r : Record)
    (v : Volume) :
    (apply .delete ⟨.memory files, faults⟩ r = (v, .ok ()) → apply .delete v r = (v, .ok ())) ∧
      (apply (.move success failure) ⟨.memory files, faults⟩ r = (v, .ok ()) →
        ∃ path, r.metadata.uri.toPath? = some path ∧
          (apply (.move success failure) v r = (v, .ok ()) ↔
            ¬(files.contains path = true ∧
              IsAbove path.parts (target success failure r).parts)) ∧
          (r.metadata.Built → r.metadata.uri.isFile = true →
            (IsAbove path.parts (target success failure r).parts ↔
              path.parts <+: (targetDir success failure r).parts))) := by
  cases hpath : r.metadata.uri.toPath? with
  | none =>
    obtain ⟨hdelete, hmove⟩ := apply_of_toPath?_eq_none hpath ⟨.memory files, faults⟩
    rw [hdelete, hmove]
    exact ⟨fun h => (by cases h), fun h => (by cases h)⟩
  | some path =>
    rw [apply_delete_eq hpath, apply_delete_eq hpath, apply_move_eq success failure hpath,
      apply_move_eq success failure hpath]
    refine ⟨deleteFile_again faults, fun hmove => ⟨path, rfl, ⟨?_, ?_⟩, ?_⟩⟩
    · rintro hagain ⟨hthere, hbelow⟩
      obtain ⟨e, hfail⟩ := moveFile_below faults hmove hthere hbelow (parts_ne_nil_of_toPath? hpath)
      rw [hfail] at hagain
      cases hagain
    · intro hapart
      exact moveFile_again faults hmove fun hthere hbelow => hapart ⟨hthere, hbelow⟩
    · intro hbuilt hfile
      rw [parts_target success failure hbuilt hfile hpath]
      exact isAbove_append_singleton_iff

/-- A file moves into its directory, and moves again; a file that stands where its directory is to
    be moves only once. -/
theorem cleanup_repeated_in_place :
    let metadata (path name : String) : Metadata :=
      ⟨⟨"file", some .none, path, none, none⟩, name, 1, default, none⟩
    let apart : Record := .new (metadata "/in/a.csv" "a.csv") .completed
    let inPlace : Record := .new (metadata "/done" "done") .completed
    let files : Files := (Files.empty.addFile (.ofText "/in/a.csv") 1 default).addFile
      (.ofText "/done") 1 default
    let move : Treatment := apply (.move (.ofText "/done") (.ofText "/error"))
    let behind (r : Record) : Volume := (move ⟨.memory files, {}⟩ r).1
    apart.metadata.Built ∧ inPlace.metadata.Built ∧
      move ⟨.memory files, {}⟩ apart = (behind apart, .ok ()) ∧
      move (behind apart) apart = (behind apart, .ok ()) ∧
      move ⟨.memory files, {}⟩ inPlace = (behind inPlace, .ok ()) ∧
      move (behind inPlace) inPlace ≠ (behind inPlace, .ok ()) := by
  intro metadata apart inPlace files move behind
  have hapart : move ⟨.memory files, {}⟩ apart = (behind apart, .ok ()) :=
    eq_of_isOk (by decide +kernel)
  have hinPlace : move ⟨.memory files, {}⟩ inPlace = (behind inPlace, .ok ()) :=
    eq_of_isOk (by decide +kernel)
  refine ⟨@Metadata.Built.ofLocalPath (.ofText "/in/a.csv") _ _ _ rfl,
    @Metadata.Built.ofLocalPath (.ofText "/done") _ _ _ rfl, hapart, ?_, hinPlace, ?_⟩
  · obtain ⟨path, hpath, hagain, -⟩ := (cleanup_repeated _ _ files {} apart _).2 hapart
    have hlocal : apart.metadata.uri.toPath? = some (.ofText "/in/a.csv") := by decide +kernel
    cases hpath.symm.trans hlocal
    refine hagain.2 fun hbelow => ?_
    have hnot : ¬IsAbove (Path.ofText "/in/a.csv").parts
        (target (.ofText "/done") (.ofText "/error") apart).parts := by decide +kernel
    exact hnot hbelow.2
  · obtain ⟨path, hpath, hagain, -⟩ := (cleanup_repeated _ _ files {} inPlace _).2 hinPlace
    have hlocal : inPlace.metadata.uri.toPath? = some (.ofText "/done") := by decide +kernel
    cases hpath.symm.trans hlocal
    rw [Ne, hagain, not_not]
    decide +kernel

/-- **A name may lead below the path,** in a record that is read from its stored form.  The path is
    neither the directory of completed files nor above it; but the name, which no constructor
    derives, has two steps, so the file moves to a place below its own and does not move again. -/
theorem cleanup_unrepeated_below :
    let r : Record :=
      .new ⟨⟨"file", some .none, "/done/a", none, none⟩, "a/b", 1, default, none⟩ .completed
    let files : Files := Files.empty.addFile (.ofText "/done/a") 1 default
    let move : Treatment := apply (.move (.ofText "/done") (.ofText "/error"))
    let behind : Volume := (move ⟨.memory files, {}⟩ r).1
    Record.ofJson? r.toJson = some r ∧ r.metadata.uri.isFile = true ∧
      r.metadata.uri.toPath? = some (.ofText "/done/a") ∧
      ¬(Path.ofText "/done/a").parts <+:
        (targetDir (.ofText "/done") (.ofText "/error") r).parts ∧
      move ⟨.memory files, {}⟩ r = (behind, .ok ()) ∧
      ∃ e, move behind r = (behind, .error e) := by
  intro r files move behind
  have hpath : r.metadata.uri.toPath? = some (.ofText "/done/a") := by decide +kernel
  have hmove := apply_move_eq (.ofText "/done") (.ofText "/error") hpath
  have hmoves : move ⟨.memory files, {}⟩ r = (behind, .ok ()) := eq_of_isOk (by decide +kernel)
  have hbelow : IsAbove (Path.ofText "/done/a").parts
      (target (.ofText "/done") (.ofText "/error") r).parts := by decide +kernel
  refine ⟨by decide +kernel, by decide +kernel, hpath, by decide +kernel, hmoves, ?_⟩
  show ∃ e, apply (.move (.ofText "/done") (.ofText "/error")) behind r = (behind, .error e)
  rw [hmove]
  exact moveFile_below {} ((hmove _).symm.trans hmoves) (by decide +kernel) hbelow
    (by decide +kernel)

end CleanupPolicy

end Intake
