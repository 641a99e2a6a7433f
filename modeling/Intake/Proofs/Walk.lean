import Mathlib.Data.List.Perm.Subperm
import Intake.Listing
import Intake.Proofs.Trees

/-!
# Walk — a listing, level by level

A walk takes the first directory of its queue and puts the directories below it behind the others.
So it meets the directories level by level (`Listing.levels`), and what it shows is what their
entries show, one after another up to the first failure (`Listing.exists_walks`).  In a tree every
directory is met once, and the walk ends before its bound does (`Listing.walks_reach`).
-/

namespace Intake

namespace Listing

/-! ## 1. Sights in a row -/

namespace Sight

def join : List Sight → Sight
  | [] => {}
  | s :: rest => if s.failure.isSome then s else s.before (join rest)

def told (s : Sight) : Sight := { s with waiting := [] }

theorem join_append (ss ts : List Sight) :
    join (ss ++ ts) =
      if (join ss).failure.isSome then join ss else (join ss).before (join ts) := by
  induction ss with
  | nil => simp [join, before]
  | cons s ss ih =>
    rw [List.cons_append, join, join, ih]
    cases hs : s.failure with
    | some f => simp [hs]
    | none =>
      cases hrest : (join ss).failure with
      | some f => simp [before, hrest]
      | none => simp [before, hrest]

theorem failure_join (ss : List Sight) : (join ss).failure = ss.findSome? Sight.failure := by
  induction ss with
  | nil => rfl
  | cons s ss ih =>
    rw [join, List.findSome?_cons]
    cases hs : s.failure with
    | some f => simpa using hs
    | none => simpa [before] using ih

section Passing

variable {ss : List Sight}

theorem join_of_passes (h : ∀ s ∈ ss, s.failure = none) :
    join ss = ⟨ss.flatMap files, ss.flatMap waiting, ss.flatMap events, none⟩ := by
  induction ss with
  | nil => rfl
  | cons s ss ih =>
    obtain ⟨hs, hrest⟩ := List.forall_mem_cons.1 h
    rw [join, hs, if_neg (by simp), ih hrest]
    rfl

theorem passes_of_failure_join (h : (join ss).failure = none) : ∀ s ∈ ss, s.failure = none := by
  rw [failure_join] at h
  exact List.findSome?_eq_none_iff.1 h

end Passing

end Sight

/-! ## 2. What an entry shows -/

variable (l : Listing) (v : Volume)

theorem describe_eq_ok_iff {p : Path} {info : FileInfo} {m : Metadata} :
    describe p info = .ok m ↔ (info.modified.getD .epoch).isDated = true ∧
      Metadata.ofLocalPath? p info.size (info.modified.getD .epoch) = .ok m := by
  unfold describe
  simp only
  cases (info.modified.getD .epoch).isDated with
  | false => simp
  | true =>
    rw [if_pos rfl]
    cases Metadata.ofLocalPath? p info.size (info.modified.getD .epoch) <;> simp

theorem describe_eq_error_iff {p : Path} {info : FileInfo} {f : Failure} :
    describe p info = .error f ↔
      (f = .breakdown ∧ (info.modified.getD .epoch).isDated = false) ∨
      ∃ e, f = .error (.model e) ∧ (info.modified.getD .epoch).isDated = true ∧
        Metadata.ofLocalPath? p info.size (info.modified.getD .epoch) = .error e := by
  unfold describe
  simp only
  cases (info.modified.getD .epoch).isDated with
  | false => simp [eq_comm]
  | true =>
    rw [if_pos rfl]
    cases Metadata.ofLocalPath? p info.size (info.modified.getD .epoch) <;> simp [eq_comm]

def IsRegular (info : FileInfo) : Prop := info.isDir = false ∧ info.isFile = true

/-- **What an entry can show:** that it is skipped, that it waits, nothing, a failure, or a file. -/
inductive EntryShows (p : Path) : Sight → Prop where
  | skipped {e : IoError} (h : v.metadata p = .error e) :
      EntryShows p { events := [.entrySkipped p e] }
  | directory {info : FileInfo} (h : v.metadata p = .ok info) (hdir : info.isDir = true) :
      EntryShows p { waiting := if l.recursive then [p] else [] }
  | special {info : FileInfo} (h : v.metadata p = .ok info) (hdir : info.isDir = false)
      (hfile : info.isFile = false) : EntryShows p {}
  | failed {info : FileInfo} {f : Failure} (h : v.metadata p = .ok info) (hfile : IsRegular info)
      (hdescribe : describe p info = .error f) : EntryShows p (.failed f)
  | file {info : FileInfo} {m : Metadata} (h : v.metadata p = .ok info) (hfile : IsRegular info)
      (hdescribe : describe p info = .ok m) :
      EntryShows p { files := if l.accepts m then [m] else [] }

theorem entryShows (p : Path) : EntryShows l v p (l.entrySight v p) := by
  unfold entrySight
  split
  next e h => exact .skipped h
  next info h =>
    split
    next hdir => exact .directory h hdir
    next hdir =>
      have hother := eq_false_of_ne_true hdir
      split
      next hfile => exact .special h hother (by simpa using hfile)
      next hfile =>
        have hregular : IsRegular info := ⟨hother, by simpa using hfile⟩
        split
        next f hdescribe => exact .failed h hregular hdescribe
        next m hdescribe => exact .file h hregular hdescribe

def goesInto (p : Path) : Bool :=
  l.recursive && match v.metadata p with
    | .ok info => info.isDir
    | .error _ => false

def listedAs (p : Path) : List (Path × Metadata) :=
  (l.entrySight v p).files.map fun m => (p, m)

section Entry

variable {l v} {p : Path}

theorem goesInto_iff :
    l.goesInto v p = true ↔
      l.recursive = true ∧ ∃ info, v.metadata p = .ok info ∧ info.isDir = true := by
  unfold goesInto
  rw [Bool.and_eq_true]
  refine and_congr_right fun _ => ?_
  cases v.metadata p with
  | error e => exact iff_of_false nofun fun h => by cases h.choose_spec.1
  | ok info => simp

theorem waiting_entrySight : (l.entrySight v p).waiting = if l.goesInto v p then [p] else [] := by
  unfold goesInto
  have hshows := l.entryShows v p
  generalize l.entrySight v p = s at hshows ⊢
  cases hshows with
  | skipped h => simp [h]
  | directory h hdir => simp [h, hdir]
  | special h hdir => simp [h, hdir]
  | failed h hfile => simp [h, hfile.1, Sight.failed]
  | file h hfile => simp [h, hfile.1]

/-- **An entry is listed** if it is a regular file that can be described and every filter accepts
    it. -/
theorem mem_listedAs_iff {q : Path} {m : Metadata} :
    (q, m) ∈ l.listedAs v p ↔ q = p ∧ ∃ info, v.metadata p = .ok info ∧ IsRegular info ∧
      describe p info = .ok m ∧ l.accepts m = true := by
  unfold listedAs
  have hshows := l.entryShows v p
  generalize l.entrySight v p = s at hshows ⊢
  cases hshows with
  | skipped h => simp [h]
  | directory h hdir => simp [h, hdir, IsRegular]
  | special h hdir hfile => simp [h, hfile, IsRegular]
  | failed h hfile hdescribe => simp [h, hdescribe, Sight.failed]
  | @file info m' h hfile hdescribe =>
    rw [List.mem_map]
    constructor
    · rintro ⟨listed, hlisted, heq⟩
      cases heq
      split at hlisted
      next haccepts =>
        cases List.mem_singleton.1 hlisted
        exact ⟨rfl, info, h, hfile, hdescribe, haccepts⟩
      next => cases hlisted
    · rintro ⟨rfl, info', h', -, hdescribe', haccepts⟩
      rw [h] at h'
      cases h'
      rw [hdescribe] at hdescribe'
      cases hdescribe'
      exact ⟨m, by rw [if_pos haccepts]; exact List.mem_cons_self, rfl⟩

/-- An entry is listed once at most. -/
theorem pairwise_listedAs (R : Path × Metadata → Path × Metadata → Prop) :
    (l.listedAs v p).Pairwise R := by
  unfold listedAs
  have hshows := l.entryShows v p
  generalize l.entrySight v p = s at hshows ⊢
  cases hshows with
  | skipped => exact .nil
  | directory => exact .nil
  | special => exact .nil
  | failed => exact .nil
  | file =>
    show ((if _ then [_] else []).map _).Pairwise R
    split
    · exact List.pairwise_singleton _ _
    · exact .nil

/-- **What is told of an entry:** only that it is skipped. -/
theorem events_entrySight :
    (l.entrySight v p).events = match v.metadata p with
      | .error e => [.entrySkipped p e]
      | .ok _ => [] := by
  have hshows := l.entryShows v p
  generalize l.entrySight v p = s at hshows ⊢
  cases hshows with
  | skipped h => rw [h]
  | directory h => rw [h]
  | special h => rw [h]
  | failed h => rw [h]; rfl
  | file h => rw [h]

theorem failure_entrySight_iff {f : Failure} :
    (l.entrySight v p).failure = some f ↔
      ∃ info, v.metadata p = .ok info ∧ IsRegular info ∧ describe p info = .error f := by
  have hshows := l.entryShows v p
  generalize l.entrySight v p = s at hshows ⊢
  cases hshows with
  | skipped h => simp [h]
  | directory h hdir => simp [h, hdir, IsRegular]
  | special h hdir hfile => simp [h, hfile, IsRegular]
  | failed h hfile hdescribe => simp [h, hfile, hdescribe, Sight.failed]
  | file h hfile hdescribe => simp [h, hdescribe]

end Entry

/-! ## 3. What a directory shows -/

def shown (dir : Path) : List (Path × Sight) :=
  match v.readDir dir with
  | .error e =>
    [(dir, if dir.same l.root then .failed (.error (.io e))
      else { events := [.directorySkipped dir e] })]
  | .ok stream =>
    (stream.entries.map fun p => (p, l.entrySight v p)) ++
      stream.failure.toList.map fun e => (dir, .failed (.error (.io e)))

/-- What is shown of one kind is what the entries show, if failures show none of it. -/
theorem flatMap_shown {β : Type} (g : Sight → List β) (hfailed : ∀ f, g (.failed f) = [])
    (dir : Path) :
    ((l.shown v dir).flatMap fun e => g e.2) = match v.readDir dir with
      | .error e => if dir.same l.root then [] else g { events := [.directorySkipped dir e] }
      | .ok stream => stream.entries.flatMap fun p => g (l.entrySight v p) := by
  unfold shown
  cases v.readDir dir with
  | error e =>
    simp only [List.flatMap_singleton]
    split
    · exact hfailed _
    · rfl
  | ok stream =>
    have hfailure : ((stream.failure.toList.map fun e =>
        (dir, Sight.failed (.error (.io e)))).flatMap fun e => g e.2) = [] := by
      cases stream.failure with
      | none => rfl
      | some e => exact (List.flatMap_singleton _ _).trans (hfailed _)
    rw [List.flatMap_append, hfailure, List.append_nil, List.flatMap_map]

/-- What a directory lists is what its entries are listed as. -/
theorem files_shown (dir : Path) :
    ((l.shown v dir).flatMap fun e => e.2.files) =
      ((v.entries dir).flatMap (l.listedAs v)).map Prod.snd := by
  have hsame (p : Path) : (l.listedAs v p).map Prod.snd = (l.entrySight v p).files := by
    unfold listedAs
    rw [List.map_map]
    exact List.map_id _
  rw [l.flatMap_shown v Sight.files (fun _ => rfl), List.map_flatMap]
  simp only [hsame]
  unfold Volume.entries
  cases v.readDir dir with
  | error e => exact ite_self _
  | ok stream => rfl

/-- The directories below are the entries that the listing goes into. -/
theorem waiting_shown (dir : Path) :
    ((l.shown v dir).flatMap fun e => e.2.waiting) = (v.entries dir).filter (l.goesInto v) := by
  have hfilter (ps : List Path) :
      (ps.flatMap fun p => if l.goesInto v p then [p] else []) = ps.filter (l.goesInto v) := by
    induction ps with
    | nil => rfl
    | cons p ps ih =>
      rw [List.flatMap_cons, ih, List.filter_cons]
      split <;> rfl
  rw [l.flatMap_shown v Sight.waiting (fun _ => rfl)]
  unfold Volume.entries
  cases v.readDir dir with
  | error e => exact ite_self _
  | ok stream =>
    simp only [waiting_entrySight]
    exact hfilter stream.entries

/-- What is told of a directory: that it is skipped, or which of its entries are. -/
theorem events_shown (dir : Path) :
    ((l.shown v dir).flatMap fun e => e.2.events) = match v.readDir dir with
      | .error e => if dir.same l.root then [] else [.directorySkipped dir e]
      | .ok stream => stream.entries.flatMap fun p => (l.entrySight v p).events :=
  l.flatMap_shown v Sight.events (fun _ => rfl) dir

/-- **What fails in a directory:** the root that cannot be read, a regular file that cannot be
    described, or the stream of entries. -/
inductive Fails (dir : Path) : Path → Failure → Prop where
  | root {e : IoError} (hread : v.readDir dir = .error e) (hroot : dir.same l.root = true) :
      Fails dir dir (.error (.io e))
  | entry {p : Path} {info : FileInfo} {f : Failure} (hp : p ∈ v.entries dir)
      (hknown : v.metadata p = .ok info) (hfile : IsRegular info)
      (hdescribe : describe p info = .error f) : Fails dir p f
  | stream {stream : Volume.Stream} {e : IoError} (hread : v.readDir dir = .ok stream)
      (hbroken : stream.failure = some e) : Fails dir dir (.error (.io e))

theorem exists_failure_iff {dir p : Path} {f : Failure} :
    (∃ s, (p, s) ∈ l.shown v dir ∧ s.failure = some f) ↔ Fails l v dir p f := by
  constructor
  · rintro ⟨s, hs, hfailure⟩
    unfold shown at hs
    split at hs
    -- the directory was not read: only the root is a failure
    next e hread =>
      cases List.mem_singleton.1 hs
      split at hfailure
      next hroot =>
        cases hfailure
        exact .root hread hroot
      next => cases hfailure
    -- it was read: an entry failed, or the stream behind the entries
    next stream hread =>
      have hentries : v.entries dir = stream.entries := by
        unfold Volume.entries
        rw [hread]
      rcases List.mem_append.1 hs with hs | hs
      · obtain ⟨q, hq, heq⟩ := List.mem_map.1 hs
        cases heq
        obtain ⟨info, hknown, hfile, hdescribe⟩ := failure_entrySight_iff.1 hfailure
        exact .entry (hentries ▸ hq) hknown hfile hdescribe
      · obtain ⟨e, he, heq⟩ := List.mem_map.1 hs
        cases heq
        cases hfailure
        exact .stream hread (Option.mem_toList.1 he)
  · intro hfails
    unfold shown
    cases hfails with
    | root hread hroot =>
      rw [hread]
      exact ⟨_, List.mem_singleton.2 rfl, by rw [if_pos hroot]; rfl⟩
    | entry hp hknown hfile hdescribe =>
      unfold Volume.entries at hp
      split at hp
      next stream hread =>
        rw [hread]
        refine ⟨_, List.mem_append_left _ (List.mem_map_of_mem hp), ?_⟩
        exact failure_entrySight_iff.2 ⟨_, hknown, hfile, hdescribe⟩
      next => cases hp
    | @stream stream e hread hbroken =>
      rw [hread]
      refine ⟨.failed (.error (.io e)), List.mem_append_right _ ?_, rfl⟩
      exact List.mem_map.2 ⟨e, Option.mem_toList.2 hbroken, rfl⟩

theorem entriesSight_eq (ps : List Path) :
    l.entriesSight v ps = .join (ps.map (l.entrySight v)) := by
  induction ps with
  | nil => rfl
  | cons p ps ih =>
    rw [entriesSight, List.map_cons, Sight.join, ih]

/-- **What a walk sees in a directory** is what its entries show, one after another. -/
theorem directorySight_eq (dir : Path) :
    l.directorySight v dir = .join ((l.shown v dir).map Prod.snd) := by
  unfold directorySight shown
  cases v.readDir dir with
  | error e => by_cases hroot : dir.same l.root = true <;> simp [hroot, Sight.join, Sight.failed,
      Sight.before]
  | ok stream =>
    have hentries : (stream.entries.map fun p => (p, l.entrySight v p)).map Prod.snd =
        stream.entries.map (l.entrySight v) := by
      rw [List.map_map]
      rfl
    simp only [List.map_append, hentries, entriesSight_eq]
    cases stream.failure with
    | none => simp
    | some e =>
      rw [Sight.join_append]
      simp [Sight.join, Sight.failed, Sight.before]

/-! ## 4. The loop -/

inductive Walks : Nat → List Path → Sight → Prop where
  | done : Walks 0 [] {}
  | failed {dir : Path} {queue : List Path} (h : (l.directorySight v dir).failure.isSome) :
      Walks 1 (dir :: queue) (l.directorySight v dir)
  | step {n : Nat} {dir : Path} {queue : List Path} {rest : Sight}
      (h : (l.directorySight v dir).failure = none)
      (hrest : Walks n (queue ++ (l.directorySight v dir).waiting) rest) :
      Walks (n + 1) (dir :: queue) ((l.directorySight v dir).told.before rest)

variable {l v}

/-- A walk whose bound allows for the steps of the loop sees what the loop sees. -/
theorem Walks.walk_eq {k : Nat} {queue : List Path} {s : Sight} (h : Walks l v k queue s) {n : Nat}
    (hbound : k ≤ n) : l.walk v n queue = s := by
  induction h generalizing n with
  | done => cases n <;> rfl
  | failed hfails =>
    obtain ⟨n, rfl⟩ := Nat.exists_eq_add_of_le' hbound
    rw [walk, if_pos hfails]
  | step hpasses _ ih =>
    obtain ⟨n, rfl⟩ := Nat.exists_eq_add_of_le' (Nat.le_trans (Nat.le_add_left 1 _) hbound)
    rw [walk, if_neg (by simp [hpasses]), ih (Nat.le_of_add_le_add_right hbound)]
    rfl

/-! ## 5. Levels -/

variable (l v)

def below (dirs : List Path) : List Path := (dirs.flatMap v.entries).filter (l.goesInto v)

def level : Nat → List Path → List Path
  | 0, dirs => dirs
  | n + 1, dirs => level n (l.below v dirs)

def levels : Nat → List Path → List Path
  | 0, _ => []
  | n + 1, dirs => dirs ++ levels n (l.below v dirs)

def sight (dirs : List Path) : Sight := .join ((dirs.flatMap (l.shown v)).map Prod.snd)

theorem sight_append (dirs more : List Path) :
    l.sight v (dirs ++ more) =
      if (l.sight v dirs).failure.isSome then l.sight v dirs
      else (l.sight v dirs).before (l.sight v more) := by
  unfold sight
  rw [List.flatMap_append, List.map_append, Sight.join_append]

theorem sight_singleton (dir : Path) : l.sight v [dir] = l.directorySight v dir := by
  rw [directorySight_eq, sight, List.flatMap_singleton]

theorem waiting_directorySight {dir : Path} (h : (l.directorySight v dir).failure = none) :
    (l.directorySight v dir).waiting = l.below v [dir] := by
  rw [directorySight_eq] at h ⊢
  rw [Sight.join_of_passes (Sight.passes_of_failure_join h), below, List.flatMap_singleton]
  show ((l.shown v dir).map Prod.snd).flatMap Sight.waiting = _
  rw [List.flatMap_map]
  exact l.waiting_shown v dir

theorem below_append (dirs more : List Path) :
    l.below v (dirs ++ more) = l.below v dirs ++ l.below v more := by
  unfold below
  rw [List.flatMap_append, List.filter_append]

/-- **One level:** the loop walks the directories in front of its queue, and goes on behind them
    with those below, unless one of them fails. -/
theorem exists_walks_level {k : Nat} {s : Sight} (dirs next : List Path)
    (h : Walks l v k (next ++ l.below v dirs) s) :
    ∃ n ≤ dirs.length + k, ∃ s', Walks l v n (dirs ++ next) s' ∧
      s'.told = if (l.sight v dirs).failure.isSome then (l.sight v dirs).told
        else (l.sight v dirs).told.before s.told := by
  induction dirs generalizing next with
  | nil =>
    refine ⟨k, by simp, s, ?_, ?_⟩
    · simpa [below] using h
    · simp [sight, Sight.join, Sight.before, Sight.told]
  | cons dir dirs ih =>
    have hsplit := l.sight_append v [dir] dirs
    rw [List.singleton_append, sight_singleton] at hsplit
    cases hfailure : (l.directorySight v dir).failure with
    | some f =>
      have hfails : (l.directorySight v dir).failure.isSome := by rw [hfailure]; rfl
      refine ⟨1, by simp; omega, _, .failed hfails, ?_⟩
      rw [hsplit, if_pos hfails, if_pos hfails]
    | none =>
      have hpasses : ¬(l.directorySight v dir).failure.isSome := by rw [hfailure]; simp
      rw [← List.singleton_append, below_append, ← List.append_assoc,
        ← l.waiting_directorySight v hfailure] at h
      obtain ⟨n, hn, s', hwalks, htold⟩ := ih (next ++ (l.directorySight v dir).waiting) h
      rw [← List.append_assoc] at hwalks
      refine ⟨n + 1, by rw [List.length_cons]; omega, _, .step hfailure hwalks, ?_⟩
      rw [hsplit, if_neg hpasses]
      have hbefore : ((l.directorySight v dir).told.before s').told =
          (l.directorySight v dir).told.before s'.told := rfl
      rw [hbefore, htold]
      show _ = if (l.sight v dirs).failure.isSome then _ else _
      split
      · rfl
      · simp [Sight.before, Sight.told]

/-- **All levels:** the loop shows what the directories of all levels show, and takes a step for
    each at most. -/
theorem exists_walks {n : Nat} {dirs : List Path} (h : l.level v n dirs = []) :
    ∃ k ≤ (l.levels v n dirs).length, ∃ s, Walks l v k dirs s ∧
      s.told = (l.sight v (l.levels v n dirs)).told := by
  induction n generalizing dirs with
  | zero =>
    rw [level] at h
    cases h
    exact ⟨0, Nat.zero_le _, {}, .done, rfl⟩
  | succ n ih =>
    obtain ⟨k, hk, s, hwalks, htold⟩ := ih h
    obtain ⟨k', hk', s', hwalks', htold'⟩ := l.exists_walks_level v dirs [] hwalks
    rw [List.append_nil] at hwalks'
    refine ⟨k', ?_, s', hwalks', ?_⟩
    · rw [levels, List.length_append]
      omega
    · rw [htold', htold, levels, sight_append]
      split <;> rfl

/-! ## 6. Every directory once -/

variable {l v}

theorem below_sublist (dirs : List Path) : (l.below v dirs).Sublist (dirs.flatMap v.entries) :=
  List.filter_sublist

/-- **The directories below** those of some levels are entries of these. -/
theorem levels_below (n : Nat) (dirs : List Path) :
    l.levels v n (l.below v dirs) =
      ((l.levels v n dirs).flatMap v.entries).filter (l.goesInto v) := by
  induction n generalizing dirs with
  | zero => rfl
  | succ n ih => rw [levels, levels, ih, List.flatMap_append, List.filter_append]; rfl

theorem level_nil (n : Nat) : l.level v n [] = [] := by
  induction n with
  | zero => rfl
  | succ n ih => exact ih

theorem levels_succ (n : Nat) (dirs : List Path) :
    l.levels v (n + 1) dirs = l.levels v n dirs ++ l.level v n dirs := by
  induction n generalizing dirs with
  | zero => exact List.append_nil dirs
  | succ n ih => rw [levels, ih, levels, level, List.append_assoc]

/-- A level that has directories is behind one directory for each level above it. -/
theorem lt_length_levels {n : Nat} {dirs : List Path} (h : l.level v n dirs ≠ []) :
    n < (l.levels v (n + 1) dirs).length := by
  induction n generalizing dirs with
  | zero =>
    rw [levels, levels, List.append_nil]
    exact List.length_pos_iff.2 h
  | succ n ih =>
    have hdirs : dirs ≠ [] := by
      rintro rfl
      exact h (level_nil _)
    have hpos := List.length_pos_iff.2 hdirs
    have hbelow := ih h
    rw [levels, List.length_append]
    omega

section Charted

variable {α : Type} {Before : List α → List α → Prop} (c : Volume.Chart v α Before)

def Precedes (p q : Path) : Prop :=
  (c.position p).length < (c.position q).length ∨
    (c.position p).length = (c.position q).length ∧ Before (c.position p) (c.position q)

structure OnLevel (depth : Nat) (ps : List Path) : Prop where
  depth_eq : ∀ p ∈ ps, (c.position p).length = depth
  ordered : ps.Pairwise fun p q => Before (c.position p) (c.position q)

variable {c} {depth : Nat}

theorem Precedes.ne {p q : Path} (h : Precedes c p q) : c.position p ≠ c.position q := by
  intro heq
  rcases h with h | ⟨-, h⟩
  · rw [heq] at h
    omega
  · exact c.ne h heq

theorem OnLevel.sublist {ps qs : List Path} (h : OnLevel c depth ps) (hsub : qs.Sublist ps) :
    OnLevel c depth qs :=
  ⟨fun p hp => h.depth_eq p (hsub.subset hp), h.ordered.sublist hsub⟩

theorem OnLevel.precedes {ps : List Path} (h : OnLevel c depth ps) :
    ps.Pairwise (Precedes c) :=
  h.ordered.imp_of_mem fun hp hq hbefore =>
    .inr ⟨(h.depth_eq _ hp).trans (h.depth_eq _ hq).symm, hbefore⟩

/-- **The entries of a level** are a level. -/
theorem OnLevel.entries {dirs : List Path} (h : OnLevel c depth dirs) :
    OnLevel c (depth + 1) (dirs.flatMap v.entries) := by
  constructor
  · intro p hp
    obtain ⟨dir, hdir, hp⟩ := List.mem_flatMap.1 hp
    obtain ⟨step, hstep⟩ := c.below hp
    rw [hstep, List.length_append, h.depth_eq dir hdir, List.length_singleton]
  · refine List.pairwise_flatMap.2 ⟨fun dir _ => c.ordered dir, ?_⟩
    refine h.ordered.imp_of_mem fun {dir dir'} hdir hdir' hbefore p hp p' hp' => ?_
    obtain ⟨step, hstep⟩ := c.below hp
    obtain ⟨step', hstep'⟩ := c.below hp'
    rw [hstep, hstep']
    exact c.append hbefore ((h.depth_eq dir hdir).trans (h.depth_eq dir' hdir').symm) _ _

theorem OnLevel.lt_of_mem_entries {dirs : List Path} (h : OnLevel c depth dirs) (n : Nat) :
    ∀ p ∈ (l.levels v n dirs).flatMap v.entries, depth < (c.position p).length := by
  induction n generalizing depth dirs with
  | zero => exact fun p hp => by cases hp
  | succ n ih =>
    intro p hp
    rw [levels, List.flatMap_append] at hp
    rcases List.mem_append.1 hp with hp | hp
    · rw [h.entries.depth_eq p hp]
      omega
    · have hdeep := ih (h.entries.sublist (below_sublist dirs)) p hp
      omega

/-- **The entries of all levels** are in order: those of a level in front of those below it. -/
theorem OnLevel.precedes_entries {dirs : List Path} (h : OnLevel c depth dirs) (n : Nat) :
    ((l.levels v n dirs).flatMap v.entries).Pairwise (Precedes c) := by
  induction n generalizing depth dirs with
  | zero => exact .nil
  | succ n ih =>
    have hbelow := h.entries.sublist (below_sublist (l := l) dirs)
    rw [levels, List.flatMap_append]
    refine List.pairwise_append.2 ⟨h.entries.precedes, ih hbelow, fun p hp q hq => .inl ?_⟩
    rw [h.entries.depth_eq p hp]
    exact hbelow.lt_of_mem_entries n q hq

/-- **The directories of all levels** are in order as well. -/
theorem OnLevel.precedes_levels {dirs : List Path} (h : OnLevel c depth dirs) (n : Nat) :
    (l.levels v n dirs).Pairwise (Precedes c) := by
  cases n with
  | zero => exact .nil
  | succ n =>
    rw [levels, levels_below]
    refine List.pairwise_append.2 ⟨h.precedes, (h.precedes_entries n).filter _, ?_⟩
    intro dir hdir p hp
    have hdeep := h.lt_of_mem_entries n p (List.mem_filter.1 hp).1
    left
    rw [h.depth_eq dir hdir]
    exact hdeep

variable (c)

theorem onLevel_singleton (dir : Path) : OnLevel c (c.position dir).length [dir] :=
  ⟨fun _ hp => by rw [List.mem_singleton.1 hp], List.pairwise_singleton _ _⟩

end Charted

/-- There are no more entries below a directory than nodes. -/
theorem length_entries_le {α : Type} {Before : List α → List α → Prop}
    (c : Volume.Chart v α Before) (n : Nat) (dir : Path) :
    ((l.levels v n [dir]).flatMap v.entries).length ≤ v.size := by
  have hordered := (onLevel_singleton c dir).precedes_entries (l := l) n
  have hnodup : (((l.levels v n [dir]).flatMap v.entries).map c.position).Nodup :=
    List.pairwise_map.2 (hordered.imp fun h => h.ne)
  have hsub : ((l.levels v n [dir]).flatMap v.entries).map c.position ⊆ c.positions := by
    intro position hposition
    obtain ⟨p, hp, rfl⟩ := List.mem_map.1 hposition
    obtain ⟨above, -, hp⟩ := List.mem_flatMap.1 hp
    exact c.mem_positions hp
  have hlength := (List.subperm_of_subset hnodup hsub).length_le
  rw [List.length_map] at hlength
  exact Nat.le_trans hlength c.length_positions

variable (l v)

def visits : List Path := l.levels v (reach v) [l.root]

def shows : List (Path × Sight) := (l.visits v).flatMap (l.shown v)

def listed : List (Path × Metadata) := ((l.visits v).flatMap v.entries).flatMap (l.listedAs v)

variable {l v}

theorem length_levels_le (h : v.Made) (n : Nat) (dir : Path) :
    (l.levels v n [dir]).length ≤ reach v := by
  obtain ⟨α, Before, ⟨c⟩⟩ := h.exists_chart
  cases n with
  | zero => exact Nat.zero_le _
  | succ n =>
    rw [levels, levels_below, List.length_append]
    have hfilter := List.length_filter_le (l.goesInto v) ((l.levels v n [dir]).flatMap v.entries)
    have hentries := length_entries_le (l := l) c n dir
    rw [List.length_singleton]
    unfold reach
    omega

/-- **No level is below the last** that the bound allows for. -/
theorem level_reach (h : v.Made) (dir : Path) : l.level v (reach v) [dir] = [] := by
  by_contra hne
  have hlong := lt_length_levels hne
  have hshort := length_levels_le (l := l) h (reach v + 1) dir
  omega

/-- **The walk ends by itself,** within its bound, and has told what its directories show. -/
theorem walks_reach (h : v.Made) :
    (∃ steps ≤ reach v, Walks l v steps [l.root] (l.walk v (reach v) [l.root])) ∧
      (l.walk v (reach v) [l.root]).told = (l.sight v (l.visits v)).told := by
  obtain ⟨k, hk, s, hwalks, htold⟩ := l.exists_walks v (level_reach h l.root)
  have hbound := Nat.le_trans hk (length_levels_le h _ _)
  rw [hwalks.walk_eq hbound]
  exact ⟨⟨k, hbound, hwalks⟩, htold⟩

/-! ## 7. What is met -/

/-- **Meeting a directory:** the root is met, and below a directory that is met, each entry that the
    listing goes into. -/
inductive Visits (l : Listing) (v : Volume) : Path → Prop where
  | root : Visits l v l.root
  | inside {dir p : Path} (h : Visits l v dir) (hp : p ∈ v.entries dir) (hinto : l.goesInto v p) :
      Visits l v p

theorem visits_of_mem_levels {n : Nat} {dirs : List Path} (h : ∀ dir ∈ dirs, Visits l v dir) :
    ∀ dir ∈ l.levels v n dirs, Visits l v dir := by
  induction n generalizing dirs with
  | zero => exact fun _ hdir => by cases hdir
  | succ n ih =>
    have hbelow : ∀ p ∈ l.below v dirs, Visits l v p := by
      intro p hp
      obtain ⟨hp, hinto⟩ := List.mem_filter.1 hp
      obtain ⟨dir, hdir, hp⟩ := List.mem_flatMap.1 hp
      exact .inside (h dir hdir) hp hinto
    intro dir hdir
    rcases List.mem_append.1 hdir with hdir | hdir
    · exact h dir hdir
    · exact ih hbelow dir hdir

theorem mem_visits_iff (h : v.Made) {dir : Path} : dir ∈ l.visits v ↔ Visits l v dir := by
  constructor
  · apply visits_of_mem_levels
    intro dir hdir
    rw [List.mem_singleton.1 hdir]
    exact .root
  · intro hvisits
    have hlast : l.levels v (reach v + 1) [l.root] = l.visits v := by
      rw [levels_succ, level_reach h, List.append_nil]
      rfl
    rw [← hlast]
    induction hvisits with
    | root => exact List.mem_append_left _ List.mem_cons_self
    | @inside dir p _ hp hinto ih =>
      rw [hlast] at ih
      rw [levels, levels_below]
      refine List.mem_append_right _ (List.mem_filter.2 ⟨?_, hinto⟩)
      exact List.mem_flatMap.2 ⟨dir, ih, hp⟩

/-! ## 8. The listing -/

/-- **A listing** of a root that exists tells what the directories of its walk show. -/
theorem find_eq (h : v.Made) (hroot : v.contains l.root = true) :
    l.find v = ((l.sight v (l.visits v)).events,
      match (l.sight v (l.visits v)).failure with
      | some f => .error f
      | none => .ok (l.sight v (l.visits v)).files) := by
  have htold := (walks_reach (l := l) h).2
  unfold find
  rw [if_pos hroot]
  show ((l.walk v (reach v) [l.root]).told.events,
    match (l.walk v (reach v) [l.root]).told.failure with
    | some f => Except.error f
    | none => Except.ok (l.walk v (reach v) [l.root]).told.files) = _
  rw [htold]
  rfl

theorem failure_sight : (l.sight v (l.visits v)).failure =
    (l.shows v).findSome? fun e => e.2.failure := by
  rw [sight, Sight.failure_join, List.findSome?_map]
  rfl

/-- **A listing fails** as the first sight that fails. -/
theorem find_eq_error_iff (h : v.Made) (hroot : v.contains l.root = true) {f : Failure} :
    (l.find v).2 = .error f ↔ (l.shows v).findSome? (fun e => e.2.failure) = some f := by
  rw [find_eq h hroot, ← failure_sight]
  cases (l.sight v (l.visits v)).failure <;> simp

/-- **A listing without failures** has every file of its walk, and tells every event. -/
theorem find_of_passes (h : v.Made) (hroot : v.contains l.root = true)
    (hpasses : ∀ e ∈ l.shows v, e.2.failure = none) :
    l.find v = ((l.shows v).flatMap fun e => e.2.events, .ok ((l.listed v).map Prod.snd)) := by
  have hsights : ∀ s ∈ (l.shows v).map Prod.snd, s.failure = none := by
    intro s hs
    obtain ⟨e, he, rfl⟩ := List.mem_map.1 hs
    exact hpasses e he
  have hfiles : ((l.shows v).map Prod.snd).flatMap Sight.files = (l.listed v).map Prod.snd := by
    unfold shows listed
    rw [List.flatMap_map, List.flatMap_assoc, List.flatMap_assoc, List.map_flatMap]
    simp only [files_shown]
  have hsight : l.sight v (l.visits v) = .join ((l.shows v).map Prod.snd) := rfl
  rw [find_eq h hroot, hsight, Sight.join_of_passes hsights, hfiles]
  simp only [List.flatMap_map]

theorem passes_of_find (h : v.Made) (hroot : v.contains l.root = true) {found : List Metadata}
    (hfound : (l.find v).2 = .ok found) : ∀ e ∈ l.shows v, e.2.failure = none := by
  rw [← List.findSome?_eq_none_iff, Option.eq_none_iff_forall_ne_some]
  intro f hf
  rw [(find_eq_error_iff h hroot).2 hf] at hfound
  cases hfound

/-- A walk passes if nothing fails in a directory that it meets. -/
theorem passes_iff (h : v.Made) : (∀ e ∈ l.shows v, e.2.failure = none) ↔
    ∀ dir, Visits l v dir → ∀ p f, ¬Fails l v dir p f := by
  constructor
  · intro hpasses dir hdir p f hfails
    obtain ⟨s, hs, hfailure⟩ := (l.exists_failure_iff v).2 hfails
    rw [hpasses _ (List.mem_flatMap.2 ⟨dir, (mem_visits_iff h).2 hdir, hs⟩)] at hfailure
    cases hfailure
  · rintro hnone ⟨p, s⟩ he
    obtain ⟨dir, hdir, hs⟩ := List.mem_flatMap.1 he
    rw [Option.eq_none_iff_forall_ne_some]
    intro f hfailure
    exact hnone dir ((mem_visits_iff h).1 hdir) p f
      ((l.exists_failure_iff v).1 ⟨s, hs, hfailure⟩)

end Listing

end Intake
