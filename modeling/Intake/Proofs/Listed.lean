import Mathlib.Data.List.Induction
import Intake.Proofs.LocalPaths
import Intake.Proofs.Walk

/-!
# Listed — which files a listing of a tree in memory finds

A file is found if it is below the root and every directory between them is open: known as a
directory, and read.  So the queue of the walk and the places of the tree say the same
(`Listing.mem_entries_visits_iff`), and a listing is exactly the files that are found and that every
filter accepts, in order, with one event for each directory and each entry that it skips
(`Listing.find_exact`).
-/

namespace Intake

/-! ## 1. Absolute roots -/

namespace Path

/-- **The absolute spelling** of a path is absolute, unless the path is empty. -/
theorem isAbsolute_absolute {p : Path} (h : p.bytes ≠ []) : p.absolute.isAbsolute = true := by
  unfold absolute
  rw [if_neg (by simpa using h)]
  extract_lets start steps spelled trailing
  have hstart : ∃ rest, start = slash :: rest := by
    dsimp only [start]
    split <;> exact ⟨_, rfl⟩
  obtain ⟨rest, hrest⟩ := hstart
  have hspelled : spelled = slash :: (rest ++ Text.glue slash steps) := by
    show start ++ Text.glue slash steps = _
    rw [hrest]
    rfl
  unfold isAbsolute
  split <;> simp [hspelled]

/-- The parts of an absolute path start at the root. -/
theorem exists_parts_of_isAbsolute {p : Path} (h : p.isAbsolute = true) :
    ∃ parts, p.parts = .root :: parts := by
  rw [parts, if_pos h]
  exact ⟨_, rfl⟩

end Path

namespace Listing

/-! ## 2. What is met -/

def Opens (v : Volume) (dir : Path) : Prop :=
  (∃ info, v.metadata dir = .ok info ∧ info.isDir = true) ∧ ∃ stream, v.readDir dir = .ok stream

/-- **A listing meets** a node below its root, directly unless it is recursive, if every place
    between them has an open directory. -/
structure Meets (l : Listing) (files : Files) (faults : Faults) (p : Path) (n : Node) : Prop where
  stored : files.nodes.get? p.parts = some (p, n)
  below : IsAbove l.root.parts p.parts
  direct : l.recursive = false → ∃ part, p.parts = l.root.parts ++ [part]
  between : ∀ place, IsAbove l.root.parts place → IsAbove place p.parts →
    ∃ dir, files.nodes.get? place = some (dir, .dir) ∧ Opens ⟨.memory files, faults⟩ dir

variable {l : Listing} {files : Files} {faults : Faults}

theorem stored_of_readDir {dir p : Path} {n : Node}
    (hstored : files.nodes.get? dir.parts = some (p, n))
    (hread : ∃ stream, Volume.readDir ⟨.memory files, faults⟩ dir = .ok stream) : n = .dir := by
  obtain ⟨stream, hread⟩ := hread
  have hdir := (Files.readDir_eq_ok_iff.1 (Volume.readDir_eq_ok_iff.1 hread).2.1).1
  unfold Files.find? Files.at? at hdir
  rw [hstored] at hdir
  exact Option.some.inj hdir

/-- **Below a directory that is met,** or below the root, every entry is met. -/
theorem Visits.meets (h : files.Spelled) {dir : Path}
    (hvisits : Visits l ⟨.memory files, faults⟩ dir) {p : Path}
    (hp : p ∈ Volume.entries ⟨.memory files, faults⟩ dir) : ∃ n, Meets l files faults p n := by
  induction hvisits generalizing p with
  | root =>
    obtain ⟨-, hbelow, n, hstored⟩ := (Volume.mem_entries_memory_iff h).1 hp
    obtain ⟨-, part, hparts⟩ := Files.isBelow_iff.1 hbelow
    refine ⟨n, hstored, ?_, fun _ => ⟨part, hparts⟩, fun place hplace hplace' => ?_⟩
    · rw [hparts]
      exact isAbove_append_singleton _ _
    · -- nothing is between a directory and its entry
      rw [hparts] at hplace'
      have hstart := isAbove_append_singleton_iff.1 hplace'
      exact absurd (hplace.1.eq_of_length_le hstart.length_le) hplace.2
  | @inside above dir _ hdir hinto ih =>
    obtain ⟨n', hmeets⟩ := ih hdir
    obtain ⟨hread, hbelow, n, hstored⟩ := (Volume.mem_entries_memory_iff h).1 hp
    obtain ⟨-, part, hparts⟩ := Files.isBelow_iff.1 hbelow
    obtain ⟨hrecursive, hknown⟩ := goesInto_iff.1 hinto
    have hlast : IsAbove dir.parts p.parts := by
      rw [hparts]
      exact isAbove_append_singleton _ _
    refine ⟨n, hstored, hmeets.below.trans hlast, fun hflat => ?_, fun place hplace hplace' => ?_⟩
    · rw [hrecursive] at hflat
      cases hflat
    · rw [hparts] at hplace'
      have hstart := isAbove_append_singleton_iff.1 hplace'
      -- a place between is the directory itself, or above it and met before
      by_cases heq : place = dir.parts
      · have hkind := stored_of_readDir hmeets.stored hread
        rw [heq, hmeets.stored, hkind]
        exact ⟨dir, rfl, hknown, hread⟩
      · exact hmeets.between place hplace ⟨hstart, heq⟩

/-- **Between the root and what is met,** directories are met themselves; there are none unless the
    listing is recursive. -/
theorem Meets.above (h : files.Spelled) {p : Path} {n : Node} (hmeets : Meets l files faults p n)
    {place : Place} (hplace : IsAbove l.root.parts place) (hlast : IsAbove place p.parts) :
    l.recursive = true ∧ ∃ dir, dir.parts = place ∧ Meets l files faults dir .dir ∧
      Opens ⟨.memory files, faults⟩ dir := by
  have hrecursive : l.recursive = true := by
    by_contra hflat
    obtain ⟨part, hparts⟩ := hmeets.direct (eq_false_of_ne_true hflat)
    rw [hparts] at hlast
    have hstart := isAbove_append_singleton_iff.1 hlast
    exact hplace.2 (hplace.1.eq_of_length_le hstart.length_le)
  obtain ⟨dir, hstored, hopens⟩ := hmeets.between place hplace hlast
  have hdir := h.parts_eq hstored
  subst hdir
  have hbetween : ∀ place, IsAbove l.root.parts place → IsAbove place dir.parts →
      ∃ dir, files.nodes.get? place = some (dir, .dir) ∧ Opens ⟨.memory files, faults⟩ dir :=
    fun place hplace hplace' => hmeets.between place hplace (hplace'.trans hlast)
  have hdirect : l.recursive = false → ∃ part, dir.parts = l.root.parts ++ [part] := by
    rw [hrecursive]
    exact nofun
  exact ⟨hrecursive, dir, rfl, ⟨hstored, hplace, hdirect, hbetween⟩, hopens⟩

section Reached

variable (h : Volume.Made ⟨.memory files, faults⟩)
  (hroot : ∃ stream, Volume.readDir ⟨.memory files, faults⟩ l.root = .ok stream)
  (habsolute : l.root.isAbsolute = true)

include h hroot habsolute

/-- **What is met** is an entry of a directory of the walk. -/
theorem Meets.exists_visits {p : Path} {n : Node} (hmeets : Meets l files faults p n) :
    ∃ dir, Visits l ⟨.memory files, faults⟩ dir ∧
      p ∈ Volume.entries ⟨.memory files, faults⟩ dir := by
  obtain ⟨parts, hparts⟩ := Path.exists_parts_of_isAbsolute habsolute
  obtain ⟨rest, hrest⟩ := hmeets.below.1
  -- one directory after another, down from the root
  induction rest using List.reverseRecOn generalizing p n with
  | nil => exact absurd (by rw [← hrest, List.append_nil]) hmeets.below.2
  | append_singleton rest part ih =>
    rw [← List.append_assoc] at hrest
    have hbelow : Files.isBelow (l.root.parts ++ rest) p.parts = true := by
      refine Files.isBelow_iff.2 ⟨?_, part, hrest.symm⟩
      rw [← hrest, hparts]
      simp
    cases rest with
    | nil =>
      rw [List.append_nil] at hbelow
      refine ⟨l.root, .root, (Volume.mem_entries_memory_iff h.sound).2 ⟨hroot, hbelow, n, ?_⟩⟩
      exact hmeets.stored
    | cons first rest =>
      have hplace : IsAbove l.root.parts (l.root.parts ++ first :: rest) :=
        ⟨List.prefix_append _ _, by simp⟩
      have hlast : IsAbove (l.root.parts ++ first :: rest) p.parts := by
        rw [← hrest]
        exact isAbove_append_singleton _ _
      obtain ⟨hrecursive, dir, hdir, hmet, hknown, hread⟩ := hmeets.above h.sound hplace hlast
      obtain ⟨above, hvisits, hentry⟩ := ih hmet hdir.symm
      rw [← hdir] at hbelow
      exact ⟨dir, hvisits.inside hentry (goesInto_iff.2 ⟨hrecursive, hknown⟩),
        (Volume.mem_entries_memory_iff h.sound).2 ⟨hread, hbelow, n, hmeets.stored⟩⟩

theorem mem_entries_visits_iff {p : Path} :
    p ∈ (l.visits ⟨.memory files, faults⟩).flatMap (Volume.entries ⟨.memory files, faults⟩) ↔
      ∃ n, Meets l files faults p n := by
  rw [List.mem_flatMap]
  constructor
  · rintro ⟨dir, hdir, hp⟩
    exact ((mem_visits_iff h).1 hdir).meets h.sound hp
  · rintro ⟨n, hmeets⟩
    obtain ⟨dir, hvisits, hp⟩ := hmeets.exists_visits h hroot habsolute
    exact ⟨dir, (mem_visits_iff h).2 hvisits, hp⟩

end Reached

/-! ## 3. What is listed -/

/-- **What is listed** at a path: a regular file that is met and that every filter accepts, with its
    size, the time of its last change or else the epoch, and URI and name of its path. -/
structure Lists (l : Listing) (files : Files) (faults : Faults) (p : Path) (m : Metadata) :
    Prop where
  met : ∃ time, Meets l files faults p (.file m.size time) ∧
    m.modified = if Faults.hit faults.noTime p then .epoch else time
  regular : Faults.hit faults.metadata p = false ∧ Faults.hit faults.special p = false
  uri_eq : Uri.ofPath? p = some m.uri
  name_eq : ∃ name, p.fileName? = some name ∧ m.name = Text.decodeLossy name
  plain : m.digest = none
  accepted : ∀ f ∈ l.filters, f.accepts m = true

/-- What is known of a node that is stored. -/
theorem metadata_stored {p spelled : Path} {n : Node}
    (hstored : files.nodes.get? p.parts = some (spelled, n)) :
    Volume.metadata ⟨.memory files, faults⟩ p =
      if Faults.hit faults.metadata p then .error (Faults.denied "metadata")
      else
        let plain := !Faults.hit faults.special p
        .ok ⟨n.info.isDir && plain, n.info.isFile && plain, n.info.size,
          if Faults.hit faults.noTime p then none else n.info.modified⟩ := by
  have hfind : files.find? p = some n := by
    unfold Files.find? Files.at?
    rw [hstored]
    rfl
  have hknown : Backing.metadata (.memory files) p = .ok n.info := by
    show files.metadata p = _
    unfold Files.metadata
    rw [hfind]
  rw [Volume.metadata_eq, hknown]
  rfl

/-- A file that is known has a time, and the epoch if the time is not told. -/
theorem metadata_file {p spelled : Path} {size : Nat} {time : Instant}
    (hstored : files.nodes.get? p.parts = some (spelled, .file size time))
    (hregular : Faults.hit faults.metadata p = false ∧ Faults.hit faults.special p = false) :
    Volume.metadata ⟨.memory files, faults⟩ p =
      .ok ⟨false, true, size, if Faults.hit faults.noTime p then none else some time⟩ := by
  rw [metadata_stored hstored, hregular.1, hregular.2]
  rfl

/-- Only a file is known as one, and not at a fault. -/
theorem file_of_metadata {p spelled : Path} {n : Node} {info : FileInfo}
    (hstored : files.nodes.get? p.parts = some (spelled, n))
    (hinfo : Volume.metadata ⟨.memory files, faults⟩ p = .ok info) (hfile : info.isFile = true) :
    (∃ size time, n = .file size time) ∧
      Faults.hit faults.metadata p = false ∧ Faults.hit faults.special p = false := by
  rw [metadata_stored hstored] at hinfo
  cases hdenied : Faults.hit faults.metadata p with
  | true =>
    rw [hdenied] at hinfo
    cases hinfo
  | false =>
    rw [hdenied] at hinfo
    cases hinfo
    obtain ⟨hnode, hplain⟩ := Bool.and_eq_true_iff.1 hfile
    cases n with
    | dir => cases hnode
    | file size time => exact ⟨⟨size, time, rfl⟩, rfl, by simpa using hplain⟩

/-- The time that counts is dated, whether or not it is told. -/
theorem isDated_getD {time : Instant} (h : time.isDated = true) (hidden : Bool) :
    ((if hidden then none else some time).getD Instant.epoch).isDated = true := by
  cases hidden with
  | true =>
    show Instant.epoch.isDated = true
    decide
  | false => exact h

/-- **The files of the walk** are exactly what is to be listed. -/
theorem mem_listed_iff (h : Volume.Made ⟨.memory files, faults⟩)
    (hroot : ∃ stream, Volume.readDir ⟨.memory files, faults⟩ l.root = .ok stream)
    (habsolute : l.root.isAbsolute = true)
    (hdated : ∀ p spelled size time,
      files.nodes.get? p = some (spelled, .file size time) → time.isDated = true)
    {p : Path} {m : Metadata} :
    (p, m) ∈ l.listed ⟨.memory files, faults⟩ ↔ Lists l files faults p m := by
  have htime (time : Instant) :
      (if Faults.hit faults.noTime p then none else some time).getD .epoch =
        if Faults.hit faults.noTime p then .epoch else time := by
    split <;> rfl
  unfold listed
  rw [List.mem_flatMap]
  constructor
  · rintro ⟨q, hq, hmem⟩
    obtain ⟨rfl, info, hinfo, hfile, hdescribe, haccepts⟩ := mem_listedAs_iff.1 hmem
    obtain ⟨n, hmeets⟩ := (mem_entries_visits_iff h hroot habsolute).1 hq
    obtain ⟨⟨size, time, rfl⟩, hregular⟩ := file_of_metadata hmeets.stored hinfo hfile.2
    rw [metadata_file hmeets.stored hregular] at hinfo
    cases hinfo
    obtain ⟨-, hlocal⟩ := describe_eq_ok_iff.1 hdescribe
    rw [htime] at hlocal
    obtain ⟨uri, name, huri, hname, rfl⟩ := Metadata.ofLocalPath?_iff.1 hlocal
    exact ⟨⟨time, hmeets, rfl⟩, hregular, huri, ⟨name, hname, rfl⟩, rfl,
      List.all_eq_true.1 haccepts⟩
  · intro hlists
    obtain ⟨time, hmeets, hmodified⟩ := hlists.met
    obtain ⟨name, hname, hread⟩ := hlists.name_eq
    refine ⟨p, (mem_entries_visits_iff h hroot habsolute).2 ⟨_, hmeets⟩, ?_⟩
    refine mem_listedAs_iff.2 ⟨rfl, _, metadata_file hmeets.stored hlists.regular, ⟨rfl, rfl⟩,
      describe_eq_ok_iff.2 ⟨isDated_getD (hdated _ _ _ _ hmeets.stored) _, ?_⟩,
      List.all_eq_true.2 hlists.accepted⟩
    rw [htime, ← hmodified, Metadata.ofLocalPath?_iff]
    refine ⟨m.uri, name, hlists.uri_eq, hname, ?_⟩
    rw [← hread, ← hlists.plain]

/-! ## 4. What is told -/

/-- **What is told:** each entry that is met and about which nothing is known, and each directory
    that is met, is known as one and cannot be read. -/
inductive Tells (l : Listing) (files : Files) (faults : Faults) : Event → Prop where
  | entry {p : Path} {n : Node} {e : IoError} (hmeets : Meets l files faults p n)
      (hunknown : Volume.metadata ⟨.memory files, faults⟩ p = .error e) :
      Tells l files faults (.entrySkipped p e)
  | directory {dir : Path} {n : Node} {e : IoError} (hmeets : Meets l files faults dir n)
      (hrecursive : l.recursive = true)
      (hknown : ∃ info, Volume.metadata ⟨.memory files, faults⟩ dir = .ok info ∧ info.isDir = true)
      (hunread : Volume.readDir ⟨.memory files, faults⟩ dir = .error e) :
      Tells l files faults (.directorySkipped dir e)

/-- **A directory of the walk** is the root, or it is met and the listing goes into it. -/
theorem Visits.root_or_meets (h : files.Spelled) {dir : Path}
    (hvisits : Visits l ⟨.memory files, faults⟩ dir) :
    dir = l.root ∨
      l.goesInto ⟨.memory files, faults⟩ dir = true ∧ ∃ n, Meets l files faults dir n := by
  cases hvisits with
  | root => exact .inl rfl
  | inside habove hdir hinto => exact .inr ⟨hinto, habove.meets h hdir⟩

theorem mem_events_entrySight_iff {v : Volume} {p : Path} {event : Event} :
    event ∈ (l.entrySight v p).events ↔
      ∃ e, v.metadata p = .error e ∧ event = .entrySkipped p e := by
  rw [events_entrySight]
  cases v.metadata p <;> simp

def eventsIn (l : Listing) (v : Volume) (dir : Path) : List Event :=
  (l.shown v dir).flatMap fun e => e.2.events

theorem mem_eventsIn_iff {v : Volume} (hroot : ∃ stream, v.readDir l.root = .ok stream)
    {dir : Path} (hdir : dir = l.root ∨ dir.same l.root = false) {event : Event} :
    event ∈ l.eventsIn v dir ↔
      (∃ e, v.readDir dir = .error e ∧ event = .directorySkipped dir e) ∨
      ∃ p ∈ v.entries dir, ∃ e, v.metadata p = .error e ∧ event = .entrySkipped p e := by
  unfold eventsIn
  rw [events_shown]
  unfold Volume.entries
  cases hread : v.readDir dir with
  | error e =>
    have hother : dir.same l.root = false := by
      rcases hdir with rfl | hdir
      · obtain ⟨stream, hstream⟩ := hroot
        rw [hstream] at hread
        cases hread
      · exact hdir
    simp [hother]
  | ok stream =>
    show event ∈ stream.entries.flatMap _ ↔ _ ∨ ∃ p ∈ stream.entries, _
    simp only [List.mem_flatMap, mem_events_entrySight_iff]
    constructor
    · exact .inr
    · rintro (⟨e, he, -⟩ | hevent)
      · cases he
      · exact hevent

/-- What is met is not the root. -/
theorem Meets.same_eq_false {p : Path} {n : Node} (h : Meets l files faults p n) :
    p.same l.root = false := by
  unfold Path.same
  rw [beq_eq_false_iff_ne]
  exact h.below.2.symm

theorem Visits.root_or_other (h : files.Spelled) {dir : Path}
    (hvisits : Visits l ⟨.memory files, faults⟩ dir) : dir = l.root ∨ dir.same l.root = false := by
  rcases hvisits.root_or_meets h with hroot | ⟨-, n, hmeets⟩
  · exact .inl hroot
  · exact .inr hmeets.same_eq_false

theorem nodup_eventsIn (h : files.Spelled) (dir : Path) :
    (l.eventsIn ⟨.memory files, faults⟩ dir).Nodup := by
  unfold eventsIn
  rw [events_shown]
  have hordered := (Volume.chartMemory h faults).ordered dir
  unfold Volume.entries at hordered
  split
  next => split <;> simp
  next stream hread =>
    rw [hread] at hordered
    refine List.nodup_flatMap.2 ⟨fun p _ => ?_, hordered.imp fun {p q} hbefore => ?_⟩
    · rw [events_entrySight]
      split <;> simp
    · intro event hevent hevent'
      obtain ⟨e, -, rfl⟩ := mem_events_entrySight_iff.1 hevent
      obtain ⟨e', -, hsame⟩ := mem_events_entrySight_iff.1 hevent'
      exact hbefore.ne (congrArg Path.parts (Event.entrySkipped.inj hsame).1)

def placeOf : Event → Place
  | .directorySkipped dir _ => dir.parts
  | .entrySkipped p _ => p.parts.dropLast
  | _ => []

section Told

variable (h : Volume.Made ⟨.memory files, faults⟩)
  (hroot : ∃ stream, Volume.readDir ⟨.memory files, faults⟩ l.root = .ok stream)

include h hroot

/-- **The events of the walk** are exactly what is to be told. -/
theorem mem_events_iff (habsolute : l.root.isAbsolute = true) {event : Event} :
    event ∈ (l.visits ⟨.memory files, faults⟩).flatMap (l.eventsIn ⟨.memory files, faults⟩) ↔
      Tells l files faults event := by
  rw [List.mem_flatMap]
  constructor
  · rintro ⟨dir, hdir, hevent⟩
    have hvisits := (mem_visits_iff h).1 hdir
    have hplace := hvisits.root_or_meets h.sound
    rcases (mem_eventsIn_iff hroot (hvisits.root_or_other h.sound)).1 hevent with
      ⟨e, hunread, rfl⟩ | ⟨p, hp, e, hunknown, rfl⟩
    · rcases hplace with rfl | ⟨hinto, n, hmeets⟩
      · obtain ⟨stream, hstream⟩ := hroot
        rw [hstream] at hunread
        cases hunread
      · obtain ⟨hrecursive, hknown⟩ := goesInto_iff.1 hinto
        exact .directory hmeets hrecursive hknown hunread
    · obtain ⟨n, hmeets⟩ := hvisits.meets h.sound hp
      exact .entry hmeets hunknown
  · intro htells
    cases htells with
    | entry hmeets hunknown =>
      obtain ⟨dir, hvisits, hp⟩ := hmeets.exists_visits h hroot habsolute
      refine ⟨dir, (mem_visits_iff h).2 hvisits, ?_⟩
      exact (mem_eventsIn_iff hroot (hvisits.root_or_other h.sound)).2
        (.inr ⟨_, hp, _, hunknown, rfl⟩)
    | directory hmeets hrecursive hknown hunread =>
      obtain ⟨above, hvisits, hdir⟩ := hmeets.exists_visits h hroot habsolute
      have hinside := hvisits.inside hdir (goesInto_iff.2 ⟨hrecursive, hknown⟩)
      refine ⟨_, (mem_visits_iff h).2 hinside, ?_⟩
      exact (mem_eventsIn_iff hroot (.inr hmeets.same_eq_false)).2 (.inl ⟨_, hunread, rfl⟩)

theorem placeOf_of_mem_eventsIn {dir : Path}
    (hvisits : Visits l ⟨.memory files, faults⟩ dir) {event : Event}
    (hevent : event ∈ l.eventsIn ⟨.memory files, faults⟩ dir) : placeOf event = dir.parts := by
  rcases (mem_eventsIn_iff hroot (hvisits.root_or_other h.sound)).1 hevent with
    ⟨e, -, rfl⟩ | ⟨p, hp, e, -, rfl⟩
  · rfl
  · obtain ⟨part, hparts⟩ := h.parts_entry hp
    show p.parts.dropLast = _
    rw [hparts, List.dropLast_concat]

/-- **Nothing is told twice.** -/
theorem nodup_events :
    ((l.visits ⟨.memory files, faults⟩).flatMap (l.eventsIn ⟨.memory files, faults⟩)).Nodup := by
  have hordered := (onLevel_singleton (Volume.chartMemory h.sound faults) l.root).precedes_levels
    (l := l) (reach ⟨.memory files, faults⟩)
  refine List.nodup_flatMap.2 ⟨fun dir _ => nodup_eventsIn h.sound dir, ?_⟩
  refine hordered.imp_of_mem fun {dir dir'} hdir hdir' hprecedes event hevent hevent' => ?_
  have hplace := placeOf_of_mem_eventsIn h hroot ((mem_visits_iff h).1 hdir) hevent
  have hplace' := placeOf_of_mem_eventsIn h hroot ((mem_visits_iff h).1 hdir') hevent'
  exact hprecedes.ne (hplace.symm.trans hplace')

end Told

/-! ## 5. Exactly the files that are met -/

/-- Below an absolute root a path that does not end in a step up has a name. -/
theorem Meets.exists_ofLocalPath? {p : Path} {n : Node} (hmeets : Meets l files faults p n)
    (habsolute : l.root.isAbsolute = true) (hlast : p.parts.getLast? ≠ some .up) (size : Nat)
    (modified : Instant) : ∃ m, Metadata.ofLocalPath? p size modified = .ok m := by
  obtain ⟨parts, hroot⟩ := Path.exists_parts_of_isAbsolute habsolute
  obtain ⟨rest, hrest⟩ := hmeets.below.1
  rw [hroot, List.cons_append] at hrest
  refine Metadata.exists_ofLocalPath?_iff.2 ⟨Uri.isAbsolute_of_parts hrest.symm, ?_⟩
  have hne : parts ++ rest ≠ [] := by
    intro hnil
    apply hmeets.below.2
    rw [hroot, ← hrest, hnil, (List.append_eq_nil_iff.1 hnil).1]
  have hlast' : p.parts.getLast? = some ((parts ++ rest).getLast hne) := by
    rw [← hrest, List.getLast?_cons_of_ne_nil hne, List.getLast?_eq_some_getLast hne]
  unfold Path.fileName?
  rcases Uri.parts_below_root hrest.symm _ (List.getLast_mem hne) with hup | ⟨name, hname, -⟩
  · rw [hlast', hup] at hlast
    exact absurd rfl hlast
  · rw [hlast', hname]
    exact ⟨name, rfl⟩

/-- **Nothing fails** where the root can be read, no stream breaks off, and every file has a name
    and a date. -/
theorem not_fails (h : Volume.Made ⟨.memory files, faults⟩)
    (hroot : ∃ stream, Volume.readDir ⟨.memory files, faults⟩ l.root = .ok stream)
    (habsolute : l.root.isAbsolute = true) (hunbroken : faults.nextEntry = [])
    (hfiles : ∀ place spelled size time, files.nodes.get? place = some (spelled, .file size time) →
      time.isDated = true ∧ place.getLast? ≠ some .up)
    {dir : Path} (hvisits : Visits l ⟨.memory files, faults⟩ dir) (p : Path) (f : Failure) :
    ¬Fails l ⟨.memory files, faults⟩ dir p f := by
  intro hfails
  cases hfails with
  | root hread hsame =>
    rcases hvisits.root_or_other h.sound with rfl | hother
    · obtain ⟨stream, hstream⟩ := hroot
      rw [hstream] at hread
      cases hread
    · rw [hother] at hsame
      cases hsame
  | @entry _ info _ hp hknown hfile hdescribe =>
    obtain ⟨n, hmeets⟩ := hvisits.meets h.sound hp
    obtain ⟨⟨size, time, rfl⟩, hregular⟩ := file_of_metadata hmeets.stored hknown hfile.2
    obtain ⟨hdated, hlast⟩ := hfiles _ _ _ _ hmeets.stored
    obtain ⟨m, hm⟩ := hmeets.exists_ofLocalPath? habsolute hlast info.size
      (info.modified.getD .epoch)
    rw [metadata_file hmeets.stored hregular] at hknown
    cases hknown
    rw [describe_eq_ok_iff.2 ⟨isDated_getD hdated _, hm⟩] at hdescribe
    cases hdescribe
  | stream hread hbroken =>
    have hnone := (Volume.readDir_eq_ok_iff.1 hread).2.2
    rw [hbroken] at hnone
    simp [hunbroken, Faults.hit] at hnone

/-- **A listing of a tree in memory is exact.**  For a root that can be read and is not the empty
    path, the walk ends; it finds every file that is met and accepted, once, those higher up in
    front and each level in the order of paths; and it warns once of each directory and each entry
    that it skips. -/
theorem find_exact (root : Path) (recursive : Bool) (filters : List Filter) (files : Files)
    (faults : Faults) (hmade : Volume.Made ⟨.memory files, faults⟩) (hne : root.bytes ≠ [])
    (hroot : ∃ stream, Volume.readDir ⟨.memory files, faults⟩ root.absolute = .ok stream)
    (hunbroken : faults.nextEntry = [])
    (hfiles : ∀ place spelled size time, files.nodes.get? place = some (spelled, .file size time) →
      time.isDated = true ∧ place.getLast? ≠ some .up) :
    let l : Listing := ⟨root.absolute, recursive, filters⟩
    let v : Volume := ⟨.memory files, faults⟩
    (∃ steps ≤ reach v, Walks l v steps [l.root] (l.walk v (reach v) [l.root])) ∧
    (∃ found : List (Path × Metadata), (l.find v).2 = .ok (found.map Prod.snd) ∧
      (∀ p m, (p, m) ∈ found ↔ Lists l files faults p m) ∧
      found.Pairwise fun a b => a.1.parts.length < b.1.parts.length ∨
        a.1.parts.length = b.1.parts.length ∧ Path.PlaceBefore a.1.parts b.1.parts) ∧
    (l.find v).1.Nodup ∧ (∀ event, event ∈ (l.find v).1 ↔ Tells l files faults event) ∧
      ∀ event ∈ (l.find v).1, event.level = .warning := by
  intro l v
  have habsolute : l.root.isAbsolute = true := Path.isAbsolute_absolute hne
  have hcontains : v.contains l.root = true := by
    obtain ⟨stream, hread⟩ := hroot
    have hdir := (Files.readDir_eq_ok_iff.1 (Volume.readDir_eq_ok_iff.1 hread).2.1).1
    show files.contains l.root = true
    rw [Files.contains_eq_isSome, hdir]
    rfl
  have hpasses := (passes_iff (l := l) hmade).2 fun dir hvisits =>
    not_fails hmade hroot habsolute hunbroken hfiles hvisits
  have hfind := find_of_passes hmade hcontains hpasses
  have hsame : (l.shows v).flatMap (fun e => e.2.events) = (l.visits v).flatMap (l.eventsIn v) :=
    List.flatMap_assoc
  rw [hfind, hsame]
  have hevents (event : Event) : event ∈ (l.visits v).flatMap (l.eventsIn v) ↔
      Tells l files faults event := mem_events_iff hmade hroot habsolute
  refine ⟨(walks_reach hmade).1, ⟨l.listed v, rfl, fun p m => ?_, ?_⟩, nodup_events hmade hroot,
    hevents, fun event hevent => ?_⟩
  · exact mem_listed_iff hmade hroot habsolute
      fun place spelled size time hstored => (hfiles place spelled size time hstored).1
  · -- the files of an entry are at the place of the entry
    have hstart := onLevel_singleton (Volume.chartMemory hmade.sound faults) l.root
    have hordered := hstart.precedes_entries (l := l) (reach v)
    refine List.pairwise_flatMap.2 ⟨fun p _ => pairwise_listedAs _, ?_⟩
    refine hordered.imp fun {p q} hprecedes a ha b hb => ?_
    rw [(mem_listedAs_iff.1 ha).1, (mem_listedAs_iff.1 hb).1]
    exact hprecedes
  · cases (hevents event).1 hevent <;> rfl

/-- A file two levels below the root is found, with the epoch for a time that is not told; one
    beside the root is not. -/
theorem find_exact_two_levels :
    let files := (Files.empty.addFile (.ofText "/in/sub/a.csv") 7 ⟨60, 0⟩).addFile
      (.ofText "/out/b.csv") 7 ⟨60, 0⟩
    let faults : Faults := { noTime := [.ofText "/in/sub/a.csv"] }
    let l : Listing := ⟨(Path.ofText "in").absolute, true, [.minSize 5]⟩
    let v : Volume := ⟨.memory files, faults⟩
    ∃ found : List (Path × Metadata), (l.find v).2 = .ok (found.map Prod.snd) ∧
      (∀ p m, (p, m) ∈ found ↔ Lists l files faults p m) ∧
      found.map (fun e => (e.2.name, e.2.size, e.2.modified.seconds)) = [("a.csv", 7, 0)] := by
  intro files faults l v
  have hmade : v.Made := ((Volume.Made.memory.addFile _ _ _).addFile _ _ _).faulty faults
  have hstored : ∀ e ∈ files.nodes.entries, (match e.2.2 with
      | .file _ time => time.isDated && e.1.getLast? != some .up
      | .dir => true) = true := by decide +kernel
  have hfiles : ∀ place spelled size time,
      files.nodes.get? place = some (spelled, .file size time) →
      time.isDated = true ∧ place.getLast? ≠ some .up := by
    intro place spelled size time hget
    simpa using hstored _ ((Catalog.mem_entries_iff _).2 hget)
  obtain ⟨-, ⟨found, hfound, hlists, -⟩, -⟩ := find_exact (.ofText "in") true [.minSize 5] files
    faults hmade (by decide) (exists_of_isOk (by decide +kernel)) rfl hfiles
  have hnames : (l.find v).2.toOption.map (List.map fun m =>
      (m.name, m.size, m.modified.seconds)) = some [("a.csv", 7, 0)] := by
    decide +kernel
  refine ⟨found, hfound, hlists, ?_⟩
  rw [hfound] at hnames
  have hsame := Option.some.inj hnames
  rwa [List.map_map] at hsame

/-- **The empty path** is a root that can be read, but what is below it has no URI: the listing
    fails, though it has no file to list. -/
theorem find_below_empty_root :
    let files := (Files.empty.addDir (.ofText "")).addFile (.ofText "a.csv") 1 .epoch
    let v : Volume := ⟨.memory files, {}⟩
    let l : Listing := ⟨(Path.ofText "").absolute, true, [.minSize 100]⟩
    v.Made ∧ (∃ stream, v.readDir l.root = .ok stream) ∧
      (∀ place spelled size time, files.nodes.get? place = some (spelled, .file size time) →
        time.isDated = true ∧ place.getLast? ≠ some .up) ∧
      (¬∃ p m, Lists l files {} p m) ∧
      (l.find v).2 = .error (.error (.model (.relativePath (.ofText "a.csv")))) := by
  intro files v l
  have hstored : ∀ e ∈ files.nodes.entries, (match e.2.2 with
      | .file size time => (time.isDated && e.1.getLast? != some .up) && size < 100
      | .dir => true) = true := by decide +kernel
  have hfile {place : Place} {spelled : Path} {size : Nat} {time : Instant}
      (hget : files.nodes.get? place = some (spelled, .file size time)) :
      (time.isDated = true ∧ place.getLast? ≠ some .up) ∧ size < 100 := by
    simpa using hstored _ ((Catalog.mem_entries_iff _).2 hget)
  refine ⟨(Volume.Made.memory.addDir _).addFile _ _ _, exists_of_isOk (by decide +kernel),
    fun _ _ _ _ hget => (hfile hget).1, ?_, ?_⟩
  · rintro ⟨p, m, hlists⟩
    obtain ⟨time, hmeets, -⟩ := hlists.met
    have hsmall := (hfile hmeets.stored).2
    have hlarge := hlists.accepted (.minSize 100) List.mem_cons_self
    simp only [Filter.accepts, decide_eq_true_eq] at hlarge
    omega
  · have hcheck : (match (l.find v).2 with
        | .error (.error (.model (.relativePath p))) => p == .ofText "a.csv"
        | _ => false) = true := by decide +kernel
    split at hcheck
    next p heq => rw [heq, eq_of_beq hcheck]
    next => cases hcheck

end Listing

end Intake
