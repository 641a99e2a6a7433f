import Intake.Proofs.Footprint
import Mathlib.Data.List.Nodup

/-!
# Relocation — what a batch of moves leaves of the files

A move takes a file to another place and replaces the file that it finds there.  So the files
behind a batch of moves are the files before it, each where the moves left it, without those that
were replaced on the way (`CleanupPolicy.files_behind_moves`).  A file is replaced when another one
is moved to where it is at that time, and then there is one file less
(`CleanupPolicy.move_replaces`).
-/

namespace Intake

/-! ## 1. The files of a tree -/

namespace Files

def all (fs : Files) : List (Place × Node) :=
  (fs.nodes.entries.filter fun e => e.2.2.isFile).map fun e => (e.1, e.2.2)

theorem mem_all_iff {fs : Files} {place : Place} {n : Node} :
    (place, n) ∈ fs.all ↔ fs.at? place = some n ∧ n.isFile = true := by
  have hat : fs.at? place = some n ↔ ∃ spelled, (place, (spelled, n)) ∈ fs.nodes.entries := by
    simp [at?, Option.map_eq_some_iff, Catalog.mem_entries_iff]
  rw [hat]
  constructor
  · intro h
    obtain ⟨⟨place', spelled, n'⟩, he, heq⟩ := List.mem_map.1 h
    cases heq
    rw [List.mem_filter] at he
    exact ⟨⟨spelled, he.1⟩, he.2⟩
  · rintro ⟨⟨spelled, he⟩, hn⟩
    exact List.mem_map.2 ⟨(place, (spelled, n)), List.mem_filter.2 ⟨he, hn⟩, rfl⟩

theorem nodup_all (fs : Files) : fs.all.Nodup := by
  have hplaces : (fs.all.map Prod.fst).Nodup := by
    have hsame : fs.all.map Prod.fst =
        (fs.nodes.entries.filter fun e => e.2.2.isFile).map Prod.fst := by
      unfold all
      rw [List.map_map]
      rfl
    rw [hsame]
    exact (List.filter_sublist.map Prod.fst).nodup fs.nodes.distinct
  exact hplaces.of_map

/-- **A file that is added** is at its place; every other file is where it was. -/
theorem mem_all_addFile {fs : Files} {p : Path} {size : Nat} {modified : Instant} {place : Place}
    {n : Node} : (place, n) ∈ (fs.addFile p size modified).all ↔
      place = p.parts ∧ n = .file size modified ∨ place ≠ p.parts ∧ (place, n) ∈ fs.all := by
  rw [mem_all_iff, mem_all_iff]
  unfold addFile
  rw [at?_put]
  by_cases hplace : place = p.parts
  · rw [if_pos hplace]
    constructor
    · rintro ⟨hn, -⟩
      exact .inl ⟨hplace, (Option.some.inj hn).symm⟩
    · rintro (⟨-, rfl⟩ | ⟨hne, -⟩)
      · exact ⟨rfl, rfl⟩
      · exact absurd hplace hne
  · rw [if_neg hplace]
    have hfile : (fs.ensureParents p).at? place = some n ∧ n.isFile = true ↔
        fs.at? place = some n ∧ n.isFile = true := by
      rcases fs.at?_ensureParents p place with hsame | ⟨hnone, hdir⟩
      · rw [hsame]
      · -- a directory that was made is no file
        rw [hnone, hdir]
        constructor
        · rintro ⟨hn, hf⟩
          cases hn
          cases hf
        · rintro ⟨hn, -⟩
          cases hn
    rw [hfile]
    simp [hplace]

theorem mem_all_erase {fs : Files} {p : Path} {place : Place} {n : Node} :
    (place, n) ∈ (fs.erase p).all ↔ place ≠ p.parts ∧ (place, n) ∈ fs.all := by
  rw [mem_all_iff, mem_all_iff, at?_erase]
  by_cases hplace : place = p.parts
  · simp [hplace]
  · simp [hplace]

end Files

namespace CleanupPolicy

variable (success failure : Path)

/-! ## 2. One move -/

def relocate (files : Files) (r : Record) : Files :=
  match r.metadata.uri.toPath? with
  | some path =>
    match files.find? path with
    | some (.file size modified) =>
      (files.erase path).addFile (target success failure r) size modified
    | _ => files
  | none => files

/-- **Where a record's move takes a file,** from place to place, if there is one to move. -/
def relocation? (files : Files) (r : Record) : Option (Place × Place) :=
  match r.metadata.uri.toPath? with
  | some path =>
    match files.find? path with
    | some (.file _ _) => some (path.parts, (target success failure r).parts)
    | _ => none
  | none => none

def follow : Option (Place × Place) → Place → Option Place
  | none, place => some place
  | some (source, target), place =>
    if place = source then some target else if place = target then none else some place

/-- **The move policy in closed form,** on a tree without faults. -/
theorem apply_move (files : Files) (r : Record) :
    (apply (.move success failure) (.ofFiles files) r).1 =
      .ofFiles (relocate success failure files r) := by
  unfold relocate
  split
  next path hpath =>
    split
    next size modified hfile =>
      rw [(apply_of_toPath?_eq_some hpath hfile).2 success failure]
    next hnofile =>
      -- there is nothing to move: the file has arrived already, or the move fails
      have hlocal : localPath r = .ok path := by
        unfold localPath
        rw [hpath]
      simp only [apply, hlocal, moveFile]
      split
      next => rfl
      next =>
        have hrename : ∃ e, files.rename path (target success failure r) = .error e := by
          unfold Files.rename
          split
          next size modified hfile => exact absurd hfile (hnofile size modified)
          next => exact ⟨_, rfl⟩
          next => exact ⟨_, rfl⟩
        obtain ⟨e, he⟩ := hrename
        simp only [Volume.rename, Volume.ofFiles, he]
        rfl
  next hpath => rw [(apply_of_toPath?_eq_none hpath (.ofFiles files)).2 success failure]

theorem relocate_eq_self {files : Files} {r : Record}
    (h : relocation? success failure files r = none) :
    relocate success failure files r = files := by
  unfold relocation? at h
  unfold relocate
  split
  next path hpath =>
    simp only [hpath] at h
    split
    next size modified hfile => simp only [hfile] at h; cases h
    next => rfl
  next => rfl

/-- **A move** takes its file along as it is. -/
theorem relocate_eq_addFile {files : Files} {r : Record} {source goal : Place}
    (h : relocation? success failure files r = some (source, goal)) :
    ∃ path size modified, source = path.parts ∧ goal = (target success failure r).parts ∧
      (source, Node.file size modified) ∈ files.all ∧
      relocate success failure files r =
        (files.erase path).addFile (target success failure r) size modified := by
  unfold relocation? at h
  split at h
  next path hpath =>
    split at h
    next size modified hfile =>
      cases h
      refine ⟨path, size, modified, rfl, rfl, ?_, ?_⟩
      · exact Files.mem_all_iff.2 ⟨hfile, rfl⟩
      · unfold relocate
        simp only [hpath, hfile]
    next => cases h
  next => cases h

theorem follow_injective {move : Option (Place × Place)} {a b q : Place}
    (ha : follow move a = some q) (hb : follow move b = some q) : a = b := by
  unfold follow at ha hb
  grind

theorem follow_eq_none_iff {move : Option (Place × Place)} {place : Place} :
    follow move place = none ↔ ∃ source, move = some (source, place) ∧ source ≠ place := by
  unfold follow
  grind

/-- **The files behind one move** are those before it, each where the move left it. -/
theorem all_relocate (files : Files) (r : Record) :
    (relocate success failure files r).all.Perm
      (files.all.filterMap fun e =>
        (follow (relocation? success failure files r) e.1).map fun q => (q, e.2)) := by
  -- no list has a file twice, so it is enough that both have the same files
  rw [List.perm_ext_iff_of_nodup (Files.nodup_all _)]
  · rintro ⟨q, n⟩
    have hfollowed : (q, n) ∈ (files.all.filterMap fun e =>
        (follow (relocation? success failure files r) e.1).map fun q => (q, e.2)) ↔
        ∃ place, (place, n) ∈ files.all ∧
          follow (relocation? success failure files r) place = some q := by
      simp only [List.mem_filterMap, Option.map_eq_some_iff, Prod.mk.injEq, Prod.exists]
      grind
    rw [hfollowed]
    cases hmove : relocation? success failure files r with
    | none =>
      rw [relocate_eq_self success failure hmove]
      simp [follow]
    | some move =>
      obtain ⟨source, goal⟩ := move
      obtain ⟨path, size, modified, rfl, rfl, hthere, hrelocate⟩ :=
        relocate_eq_addFile success failure hmove
      rw [hrelocate, Files.mem_all_addFile, Files.mem_all_erase]
      constructor
      · rintro (⟨rfl, rfl⟩ | ⟨hgoal, hsource, hq⟩)
        · -- the file that was moved
          refine ⟨path.parts, hthere, ?_⟩
          simp [follow]
        · refine ⟨q, hq, ?_⟩
          simp [follow, hgoal, hsource]
      · rintro ⟨place, hplace, hq⟩
        unfold follow at hq
        simp only at hq
        split at hq
        next hsource =>
          cases hq
          subst hsource
          rw [Files.mem_all_iff] at hplace hthere
          have hn : some n = some (.file size modified) := hplace.1.symm.trans hthere.1
          exact .inl ⟨rfl, Option.some.inj hn⟩
        next hsource =>
          split at hq
          next => cases hq
          next hgoal =>
            cases hq
            exact .inr ⟨hgoal, hsource, hplace⟩
  · -- two files never end up at one place
    apply (Files.nodup_all files).filterMap
    rintro ⟨a, n⟩ ⟨b, n'⟩ ⟨q, n''⟩ ha hb
    simp only [Option.mem_def, Option.map_eq_some_iff, Prod.mk.injEq] at ha hb
    obtain ⟨_, ha, rfl, rfl⟩ := ha
    obtain ⟨_, hb, rfl, rfl⟩ := hb
    rw [follow_injective ha hb]

/-! ## 3. Batches of moves -/

def relocateAll (files : Files) (records : List Record) : Files :=
  records.foldl (relocate success failure) files

/-- **Where a batch of moves leaves the file of a place,** unless it is replaced on the way. -/
def whereabouts : Files → List Record → Place → Option Place
  | _, [], place => some place
  | files, r :: rest, place =>
    (follow (relocation? success failure files r) place).bind
      (whereabouts (relocate success failure files r) rest)

/-- **Replaced:** when the turn of some record comes, its file is moved to where the file of this
    place, another one, is at that time. -/
def Replaced (files : Files) (records : List Record) (place : Place) : Prop :=
  ∃ before r after source goal, records = before ++ r :: after ∧
    whereabouts success failure files before place = some goal ∧
    relocation? success failure (relocateAll success failure files before) r =
      some (source, goal) ∧ source ≠ goal

theorem batch_move (files : Files) (records : List Record) :
    (batch (apply (.move success failure)) (.ofFiles files) records).1 =
      .ofFiles (relocateAll success failure files records) := by
  induction records generalizing files with
  | nil => rfl
  | cons r rest ih => rw [(batch_cons ..).1, apply_move, ih]; rfl

theorem all_relocateAll (files : Files) (records : List Record) :
    (relocateAll success failure files records).all.Perm
      (files.all.filterMap fun e =>
        (whereabouts success failure files records e.1).map fun q => (q, e.2)) := by
  induction records generalizing files with
  | nil =>
    show files.all.Perm (files.all.filterMap fun e => some (e.1, e.2))
    rw [List.filterMap_some]
  | cons r rest ih =>
    have hrest := ih (relocate success failure files r)
    have hfirst := (all_relocate success failure files r).filterMap fun e =>
      (whereabouts success failure (relocate success failure files r) rest e.1).map
        fun q => (q, e.2)
    -- what the rest leaves of the files that the first move left
    refine (hrest.trans hfirst).trans (.of_eq ?_)
    rw [List.filterMap_filterMap]
    congr 1
    funext e
    rw [whereabouts]
    cases follow (relocation? success failure files r) e.1 <;> rfl

theorem whereabouts_append (files : Files) (xs ys : List Record) (place : Place) :
    whereabouts success failure files (xs ++ ys) place =
      (whereabouts success failure files xs place).bind
        (whereabouts success failure (relocateAll success failure files xs) ys) := by
  induction xs generalizing files place with
  | nil => rfl
  | cons x xs ih =>
    rw [List.cons_append, whereabouts, whereabouts]
    cases hfirst : follow (relocation? success failure files x) place with
    | none => rfl
    | some q =>
      rw [Option.bind_some, Option.bind_some, ih]
      rfl

/-- A file stays at its place, or is where some record of the batch moves it. -/
theorem eq_or_target_of_whereabouts {files : Files} {records : List Record} {place q : Place}
    (h : whereabouts success failure files records place = some q) :
    q = place ∨ ∃ r ∈ records, q = (target success failure r).parts := by
  induction records generalizing files place with
  | nil => exact .inl (Option.some.inj h).symm
  | cons r rest ih =>
    rw [whereabouts, Option.bind_eq_some_iff] at h
    obtain ⟨next, hnext, hrest⟩ := h
    rcases ih hrest with rfl | ⟨r', hr', hq⟩
    · -- the rest leaves the file where the first move left it
      cases hmove : relocation? success failure files r with
      | none =>
        rw [hmove] at hnext
        exact .inl (Option.some.inj hnext).symm
      | some move =>
        obtain ⟨source, goal⟩ := move
        obtain ⟨_, _, _, -, hgoal, -, -⟩ := relocate_eq_addFile success failure hmove
        rw [hmove] at hnext
        unfold follow at hnext
        simp only at hnext
        split at hnext
        next =>
          right
          exact ⟨r, List.mem_cons_self, (Option.some.inj hnext).symm.trans hgoal⟩
        next =>
          split at hnext
          next => cases hnext
          next => exact .inl (Option.some.inj hnext).symm
    · exact .inr ⟨r', List.mem_cons_of_mem _ hr', hq⟩

/-- **A file is lost** just when it is replaced. -/
theorem whereabouts_eq_none_iff (files : Files) (records : List Record) (place : Place) :
    whereabouts success failure files records place = none ↔
      Replaced success failure files records place := by
  constructor
  · intro h
    -- by induction on the batch: the first move replaces the file, or a later one does
    induction records generalizing files place with
    | nil => cases h
    | cons r rest ih =>
      rw [whereabouts] at h
      cases hfirst : follow (relocation? success failure files r) place with
      | none =>
        obtain ⟨source, hmove, hne⟩ := follow_eq_none_iff.1 hfirst
        exact ⟨[], r, rest, source, place, rfl, rfl, hmove, hne⟩
      | some next =>
        rw [hfirst, Option.bind_some] at h
        obtain ⟨before, r', after, source, goal, rfl, hgoal, hmove, hne⟩ := ih _ _ h
        refine ⟨r :: before, r', after, source, goal, rfl, ?_, hmove, hne⟩
        rw [whereabouts, hfirst, Option.bind_some, hgoal]
  · rintro ⟨before, r, after, source, goal, rfl, hgoal, hmove, hne⟩
    have hlost : follow (some (source, goal)) goal = none :=
      follow_eq_none_iff.2 ⟨source, rfl, hne⟩
    rw [whereabouts_append, hgoal, Option.bind_some, whereabouts, hmove, hlost]
    rfl

/-- **The files behind a batch of moves** are the files before it, each at its own place or where a
    record moved it, but for those that were replaced by other files that were moved.  So there are
    as many files as before if and only if none was replaced. -/
theorem files_behind_moves (files : Files) (records : List Record) :
    ∃ after : Files,
      (batch (apply (.move success failure)) (.ofFiles files) records).1 = .ofFiles after ∧
      after.all.Perm (files.all.filterMap fun e =>
        (whereabouts success failure files records e.1).map fun q => (q, e.2)) ∧
      (∀ place,
        (whereabouts success failure files records place = none ↔
          Replaced success failure files records place) ∧
        ∀ q, whereabouts success failure files records place = some q →
          q = place ∨ ∃ r ∈ records, q = (target success failure r).parts) ∧
      (after.all.length = files.all.length ↔
        ∀ e ∈ files.all, ¬ Replaced success failure files records e.1) := by
  have hperm := all_relocateAll success failure files records
  refine ⟨_, batch_move success failure files records, hperm, ?_, ?_⟩
  · intro place
    exact ⟨whereabouts_eq_none_iff .., fun q => eq_or_target_of_whereabouts success failure⟩
  · -- every file that is not replaced is there once
    rw [hperm.length_eq, List.length_filterMap_eq_countP, List.countP_eq_length]
    refine forall₂_congr fun e _ => ?_
    rw [← whereabouts_eq_none_iff, Option.isSome_map, Option.isSome_iff_ne_none]

/-- **A file may be replaced:** two files with one name are moved, both moves succeed, and only the
    second file is left. -/
theorem move_replaces :
    let uri (path : String) : Uri := ⟨"file", none, path, none, none⟩
    let first : Record := .new ⟨uri "/in/x/a.csv", "a.csv", 1, default, none⟩ .completed
    let second : Record := .new ⟨uri "/in/y/a.csv", "a.csv", 2, default, none⟩ .completed
    let files : Files := (Files.empty.addFile (.ofText "/in/x/a.csv") 1 default).addFile
      (.ofText "/in/y/a.csv") 2 default
    let policy : CleanupPolicy := .move (.ofText "/done") (.ofText "/error")
    (batch policy.apply (.ofFiles files) [first, second]).2.1 =
        [(first, .succeed), (second, .succeed)] ∧
      files.all.length = 2 ∧
      ∃ after : Files, (batch policy.apply (.ofFiles files) [first, second]).1 = .ofFiles after ∧
        after.all = [((Path.ofText "/done/a.csv").parts, .file 2 default)] := by
  intro uri first second files policy
  refine ⟨by decide +kernel, by decide +kernel, _, batch_move _ _ files [first, second], ?_⟩
  decide +kernel

end CleanupPolicy

end Intake
