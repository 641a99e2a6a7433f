import Mathlib.Data.List.Basic
import Intake.Proofs.Listed

/-!
# Failures — how a listing ends that finds nothing

A listing ends as the first thing does that fails on its walk.  It breaks down exactly when this is
a regular file whose time no date can name (`Listing.breakdown_iff`).  Faults below a directory keep
their effects there, unless one of them breaks off a stream of entries: this failure ends the whole
listing (`Listing.find_spoiled`).
-/

namespace Intake

/-! ## 1. The first failure -/

namespace Listing

def failures (l : Listing) (v : Volume) : List (Path × Failure) :=
  (l.shows v).filterMap fun e => e.2.failure.map fun f => (e.1, f)

variable {l : Listing} {v : Volume}

theorem mem_failures_iff (h : v.Made) {p : Path} {f : Failure} :
    (p, f) ∈ l.failures v ↔ ∃ dir, Visits l v dir ∧ Fails l v dir p f := by
  unfold failures shows
  rw [List.mem_filterMap]
  constructor
  · rintro ⟨⟨q, s⟩, hs, hfailure⟩
    obtain ⟨dir, hdir, hs⟩ := List.mem_flatMap.1 hs
    obtain ⟨f', hf', heq⟩ := Option.map_eq_some_iff.1 hfailure
    cases heq
    exact ⟨dir, (mem_visits_iff h).1 hdir, (l.exists_failure_iff v).1 ⟨s, hs, hf'⟩⟩
  · rintro ⟨dir, hdir, hfails⟩
    obtain ⟨s, hs, hfailure⟩ := (l.exists_failure_iff v).2 hfails
    exact ⟨(p, s), List.mem_flatMap.2 ⟨dir, (mem_visits_iff h).2 hdir, hs⟩, by simp [hfailure]⟩

/-- **A listing fails** as the first failure of its walk. -/
theorem find_eq_error_iff_head? (h : v.Made) (hroot : v.contains l.root = true) {f : Failure} :
    (l.find v).2 = .error f ↔ ∃ p, (l.failures v).head? = some (p, f) := by
  rw [find_eq_error_iff h hroot, failures]
  induction l.shows v with
  | nil => simp
  | cons e rest ih =>
    rw [List.findSome?_cons, List.filterMap_cons]
    cases hfailure : e.2.failure with
    | some f' => simp
    | none => simpa using ih

/-- A root that is missing is an error, and no breakdown. -/
theorem find_of_missing (hroot : v.contains l.root = false) :
    (l.find v).2 = .error (.error (.missingRoot l.root)) := by
  unfold find
  rw [if_neg (by simp [hroot])]

theorem contains_of_find {found : List Metadata} (hfound : (l.find v).2 = .ok found) :
    v.contains l.root = true := by
  by_contra hmissing
  rw [find_of_missing (eq_false_of_ne_true hmissing)] at hfound
  cases hfound

def brokeDown : Except Failure (List Metadata) → Bool
  | .error .breakdown => true
  | _ => false

theorem brokeDown_iff {result : Except Failure (List Metadata)} :
    brokeDown result = true ↔ result = .error .breakdown := by
  unfold brokeDown
  split
  next => simp
  next hnot => exact iff_of_false nofun hnot

theorem fails_breakdown_iff {dir p : Path} :
    Fails l v dir p .breakdown ↔ p ∈ v.entries dir ∧ ∃ info, v.metadata p = .ok info ∧
      IsRegular info ∧ (info.modified.getD .epoch).isDated = false := by
  constructor
  · intro hfails
    cases hfails with
    | entry hp hknown hfile hdescribe =>
      rcases describe_eq_error_iff.1 hdescribe with ⟨-, hundated⟩ | ⟨e, he, -⟩
      · exact ⟨hp, _, hknown, hfile, hundated⟩
      · cases he
  · rintro ⟨hp, info, hknown, hfile, hundated⟩
    exact .entry hp hknown hfile (describe_eq_error_iff.2 (.inl ⟨rfl, hundated⟩))

/-- **A listing breaks down** exactly when the first failure of its walk is at a regular file whose
    time no date can name.  Otherwise it returns what it finds, or an error. -/
theorem breakdown_iff (l : Listing) (h : v.Made) :
    ((l.find v).2 = .error .breakdown ↔
      v.contains l.root = true ∧ ∃ p, (l.failures v).head? = some (p, .breakdown)) ∧
    ∀ p, (p, .breakdown) ∈ l.failures v ↔ ∃ dir, Visits l v dir ∧ p ∈ v.entries dir ∧
      ∃ info, v.metadata p = .ok info ∧ IsRegular info ∧
        (info.modified.getD .epoch).isDated = false := by
  constructor
  · cases hroot : v.contains l.root with
    | false =>
      rw [find_of_missing hroot]
      exact iff_of_false nofun fun hfails => by cases hfails.1
    | true =>
      rw [find_eq_error_iff_head? h hroot]
      exact (and_iff_right rfl).symm
  · intro p
    rw [mem_failures_iff h]
    exact exists_congr fun dir => and_congr_right fun _ => fails_breakdown_iff

/-- A file before all dates, two levels below the root. -/
theorem breakdown_iff_early :
    let files := Files.empty.addFile (.ofText "/in/sub/a.csv") 1 ⟨-9000000000000, 0⟩
    let v : Volume := ⟨.memory files, {}⟩
    let l : Listing := .ofRoot (.ofText "/in")
    (l.find v).2 = .error .breakdown ∧ ∃ p, (l.failures v).head? = some (p, .breakdown) := by
  intro files v l
  have hmade : v.Made := Volume.Made.memory.addFile _ _ _
  have hfind : (l.find v).2 = .error .breakdown := brokeDown_iff.1 (by decide +kernel)
  exact ⟨hfind, ((breakdown_iff l hmade).1.1 hfind).2⟩

/-- **A file behind all dates** breaks the listing of its directory down. -/
theorem find_behind_dates :
    let files := Files.empty.addFile (.ofText "/in/a.csv") 1 ⟨9000000000000, 0⟩
    let v : Volume := ⟨.memory files, {}⟩
    v.Made ∧ ((Listing.ofRoot (.ofText "/in")).find v).2 = .error .breakdown :=
  ⟨Volume.Made.memory.addFile _ _ _, brokeDown_iff.1 (by decide +kernel)⟩

end Listing

/-! ## 2. More faults below a directory -/

/-- **A spoiled volume** has more faults: paths that cannot be read, that are not known, or whose
    stream of entries breaks off. -/
def Volume.spoil (v : Volume) (readDir metadata nextEntry : List Path) : Volume :=
  { v with faults := { v.faults with
    readDir := v.faults.readDir ++ readDir
    metadata := v.faults.metadata ++ metadata
    nextEntry := v.faults.nextEntry ++ nextEntry } }

namespace Faults

theorem hit_append (ps qs : List Path) (p : Path) :
    hit (ps ++ qs) p = (hit ps p || hit qs p) := List.any_append

/-- Paths inside a place are not hit from outside. -/
theorem hit_eq_false {ps : List Path} {place : Place} (hinside : ∀ q ∈ ps, place <+: q.parts)
    {p : Path} (houtside : ¬place <+: p.parts) : hit ps p = false := by
  unfold hit
  rw [List.any_eq_false]
  intro q hq hsame
  apply houtside
  rw [eq_of_beq hsame]
  exact hinside q hq

end Faults

namespace Volume

variable {v : Volume} {readDir metadata nextEntry : List Path}

theorem Made.spoil (h : v.Made) (readDir metadata nextEntry : List Path) :
    (v.spoil readDir metadata nextEntry).Made := h.faulty _

theorem contains_spoil (readDir metadata nextEntry : List Path) (p : Path) :
    (v.spoil readDir metadata nextEntry).contains p = v.contains p := rfl

section Inside

variable {place : Place}
  (hinside : ∀ q ∈ readDir ++ metadata ++ nextEntry, place <+: q.parts)
  {p : Path} (houtside : ¬place <+: p.parts)

include hinside houtside

theorem hit_outside : Faults.hit readDir p = false ∧ Faults.hit metadata p = false ∧
    Faults.hit nextEntry p = false := by
  have hall := Faults.hit_eq_false hinside houtside
  rw [Faults.hit_append, Faults.hit_append, Bool.or_eq_false_iff, Bool.or_eq_false_iff] at hall
  exact ⟨hall.1.1, hall.1.2, hall.2⟩

/-- **Outside** nothing is spoiled. -/
theorem readDir_spoil : (v.spoil readDir metadata nextEntry).readDir p = v.readDir p := by
  obtain ⟨hread, -, hnext⟩ := hit_outside hinside houtside
  rw [readDir_eq, readDir_eq v]
  simp only [spoil, Faults.hit_append, hread, hnext, Bool.or_false]

theorem metadata_spoil : (v.spoil readDir metadata nextEntry).metadata p = v.metadata p := by
  obtain ⟨-, hknown, -⟩ := hit_outside hinside houtside
  rw [metadata_eq, metadata_eq v]
  simp only [spoil, Faults.hit_append, hknown, Bool.or_false]
  rfl

end Inside

/-- **A directory that is read in spite of it** has the entries that it had, and breaks off where it
    did and where it is spoiled. -/
theorem readDir_of_spoil {dir : Path} {stream : Stream}
    (h : (v.spoil readDir metadata nextEntry).readDir dir = .ok stream) :
    ∃ failure, v.readDir dir = .ok ⟨stream.entries, failure⟩ ∧
      stream.failure = if Faults.hit nextEntry dir then some (Faults.denied "next_entry")
        else failure := by
  obtain ⟨hread, hentries, hfailure⟩ := readDir_eq_ok_iff.1 h
  simp only [spoil, Faults.hit_append, Bool.or_eq_false_iff] at hread hentries hfailure
  refine ⟨if Faults.hit v.faults.nextEntry dir then some (Faults.denied "next_entry") else none,
    readDir_eq_ok_iff.2 ⟨hread.1, hentries, rfl⟩, ?_⟩
  rw [hfailure]
  cases Faults.hit v.faults.nextEntry dir <;> cases Faults.hit nextEntry dir <;> rfl

theorem mem_entries_of_spoil {dir p : Path}
    (hp : p ∈ (v.spoil readDir metadata nextEntry).entries dir) : p ∈ v.entries dir := by
  unfold entries at hp
  split at hp
  next stream hread =>
    obtain ⟨failure, hbefore, -⟩ := readDir_of_spoil hread
    unfold entries
    rw [hbefore]
    exact hp
  next => cases hp

theorem metadata_of_spoil {p : Path} {info : FileInfo}
    (h : (v.spoil readDir metadata nextEntry).metadata p = .ok info) : v.metadata p = .ok info := by
  rw [metadata_eq] at h ⊢
  simp only [spoil, Faults.hit_append] at h
  cases hdenied : Faults.hit v.faults.metadata p with
  | true =>
    rw [hdenied] at h
    cases h
  | false =>
    rw [hdenied] at h
    cases hmore : Faults.hit metadata p with
    | true =>
      rw [hmore] at h
      cases h
    | false =>
      rw [hmore] at h
      exact h

end Volume

namespace Listing

variable {l : Listing} {v : Volume} {readDir metadata nextEntry : List Path}

theorem goesInto_of_spoil {p : Path}
    (h : l.goesInto (v.spoil readDir metadata nextEntry) p = true) : l.goesInto v p = true := by
  unfold goesInto at h ⊢
  obtain ⟨hrecursive, hdir⟩ := Bool.and_eq_true_iff.1 h
  split at hdir
  next info hknown =>
    rw [hrecursive, Volume.metadata_of_spoil hknown]
    exact hdir
  next => cases hdir

/-- **Faults lead nowhere** that the walk does not come without them. -/
theorem Visits.of_spoil {dir : Path} (h : Visits l (v.spoil readDir metadata nextEntry) dir) :
    Visits l v dir := by
  induction h with
  | root => exact .root
  | inside _ hp hinto ih =>
    exact .inside ih (Volume.mem_entries_of_spoil hp) (goesInto_of_spoil hinto)

/-- **A stream that faults break off:** the walk opens a directory where they do. -/
def BreaksOff (l : Listing) (v : Volume) (nextEntry : List Path) : Prop :=
  ∃ dir, Visits l v dir ∧ (∃ stream, v.readDir dir = .ok stream) ∧ Faults.hit nextEntry dir = true

section Contained

variable {place : Place} (hroot : IsAbove l.root.parts place)
  (hinside : ∀ q ∈ readDir ++ metadata ++ nextEntry, place <+: q.parts)
  (hnone : ∀ dir, Visits l v dir → ∀ p f, ¬Fails l v dir p f)

include hroot hinside hnone

/-- **All that fails** where nothing failed before is a stream that breaks off. -/
theorem Fails.of_spoil {dir p : Path} {f : Failure}
    (hvisits : Visits l (v.spoil readDir metadata nextEntry) dir)
    (hfails : Fails l (v.spoil readDir metadata nextEntry) dir p f) :
    BreaksOff l (v.spoil readDir metadata nextEntry) nextEntry ∧
      f = .error (.io (Faults.denied "next_entry")) := by
  have hbefore := hnone dir hvisits.of_spoil
  cases hfails with
  | root hread hsame =>
    -- the root is outside
    have houtside : ¬place <+: dir.parts := by
      rw [eq_of_beq hsame]
      intro hstart
      exact hroot.2 (hroot.1.eq_of_length_le hstart.length_le)
    rw [Volume.readDir_spoil hinside houtside] at hread
    exact absurd (.root hread hsame) (hbefore _ _)
  | entry hp hknown hfile hdescribe =>
    exact absurd (.entry (Volume.mem_entries_of_spoil hp) (Volume.metadata_of_spoil hknown) hfile
      hdescribe) (hbefore _ _)
  | @stream stream e hread hbroken =>
    obtain ⟨failure, hread', hfailure⟩ := Volume.readDir_of_spoil hread
    cases hhit : Faults.hit nextEntry dir with
    | true =>
      rw [hbroken, hhit] at hfailure
      cases hfailure
      exact ⟨⟨dir, hvisits, ⟨stream, hread⟩, hhit⟩, rfl⟩
    | false =>
      rw [hbroken, hhit] at hfailure
      exact absurd (.stream hread' hfailure.symm) (hbefore _ _)

end Contained

/-! ### What is outside -/

def isOutside (place : Place) (p : Path) : Bool := !place.isPrefixOf p.parts

theorem isOutside_iff {place : Place} {p : Path} :
    isOutside place p = true ↔ ¬place <+: p.parts := by
  unfold isOutside
  rw [Bool.not_eq_true', ← Bool.not_eq_true, List.isPrefixOf_iff_prefix]

def describesOutside (place : Place) (m : Metadata) : Bool := m.uri.toPath?.all (isOutside place)

/-- Outside a place, entries are entries of directories outside. -/
theorem filter_entries (h : v.Made) (place : Place) (dirs : List Path) :
    (dirs.flatMap v.entries).filter (isOutside place) =
      (dirs.filter (isOutside place)).flatMap fun dir =>
        (v.entries dir).filter (isOutside place) := by
  induction dirs with
  | nil => rfl
  | cons dir dirs ih =>
    rw [List.flatMap_cons, List.filter_append, ih, List.filter_cons]
    split
    next => rfl
    next hinside =>
      rw [isOutside_iff, not_not] at hinside
      have hnil : (v.entries dir).filter (isOutside place) = [] := by
        rw [List.filter_eq_nil_iff]
        intro p hp
        obtain ⟨part, hparts⟩ := h.parts_entry hp
        rw [isOutside_iff, not_not, hparts]
        exact hinside.trans (List.prefix_append _ _)
      rw [hnil, List.nil_append]

section Outside

variable {place : Place} (hinside : ∀ q ∈ readDir ++ metadata ++ nextEntry, place <+: q.parts)

include hinside

theorem entries_spoil {dir : Path} (houtside : isOutside place dir = true) :
    (v.spoil readDir metadata nextEntry).entries dir = v.entries dir := by
  unfold Volume.entries
  rw [Volume.readDir_spoil hinside (isOutside_iff.1 houtside)]

theorem entrySight_spoil {p : Path} (houtside : isOutside place p = true) :
    l.entrySight (v.spoil readDir metadata nextEntry) p = l.entrySight v p := by
  unfold entrySight
  rw [Volume.metadata_spoil hinside (isOutside_iff.1 houtside)]

/-- **One level:** what is outside is the same if it is the same one level up. -/
theorem filter_entries_spoil (h : v.Made) {dirs dirs' : List Path}
    (hsame : dirs'.filter (isOutside place) = dirs.filter (isOutside place)) :
    (dirs'.flatMap (v.spoil readDir metadata nextEntry).entries).filter (isOutside place) =
      (dirs.flatMap v.entries).filter (isOutside place) := by
  rw [filter_entries (h.spoil readDir metadata nextEntry) place, filter_entries h place, hsame]
  refine List.flatMap_congr fun dir hdir => ?_
  rw [entries_spoil hinside (List.of_mem_filter hdir)]

theorem filter_below_spoil (h : v.Made) {dirs dirs' : List Path}
    (hsame : dirs'.filter (isOutside place) = dirs.filter (isOutside place)) :
    (l.below (v.spoil readDir metadata nextEntry) dirs').filter (isOutside place) =
      (l.below v dirs).filter (isOutside place) := by
  unfold below
  rw [List.filter_comm, filter_entries_spoil hinside h hsame, List.filter_comm _ (l.goesInto v)]
  refine List.filter_congr fun p hp => ?_
  unfold goesInto
  rw [Volume.metadata_spoil hinside (isOutside_iff.1 (List.of_mem_filter hp))]

/-- **All levels:** the entries of a walk are the same outside. -/
theorem filter_levels_spoil (h : v.Made) (n : Nat) {dirs dirs' : List Path}
    (hsame : dirs'.filter (isOutside place) = dirs.filter (isOutside place)) :
    ((l.levels (v.spoil readDir metadata nextEntry) n dirs').flatMap
        (v.spoil readDir metadata nextEntry).entries).filter (isOutside place) =
      ((l.levels v n dirs).flatMap v.entries).filter (isOutside place) := by
  induction n generalizing dirs dirs' with
  | zero => rfl
  | succ n ih =>
    rw [levels, levels, List.flatMap_append, List.flatMap_append, List.filter_append,
      List.filter_append, filter_entries_spoil hinside h hsame,
      ih (filter_below_spoil hinside h hsame)]

end Outside

/-- A file that is listed is outside a place if its path is. -/
theorem describesOutside_of_mem_listedAs {place : Place} {p q : Path} {m : Metadata}
    (hmem : (q, m) ∈ l.listedAs v p) : describesOutside place m = isOutside place p := by
  obtain ⟨-, info, -, -, hdescribe, -⟩ := mem_listedAs_iff.1 hmem
  obtain ⟨found, hfound, hparts⟩ :=
    Metadata.exists_toPath?_of_ofLocalPath? (describe_eq_ok_iff.1 hdescribe).2
  unfold describesOutside
  rw [hfound, Option.all_some, isOutside, isOutside, hparts]

theorem filter_listedAs (place : Place) (ps : List Path) :
    ((ps.flatMap (l.listedAs v)).map Prod.snd).filter (describesOutside place) =
      ((ps.filter (isOutside place)).flatMap (l.listedAs v)).map Prod.snd := by
  induction ps with
  | nil => rfl
  | cons p ps ih =>
    rw [List.flatMap_cons, List.map_append, List.filter_append, ih, List.filter_cons]
    have hsame : ∀ m ∈ (l.listedAs v p).map Prod.snd,
        describesOutside place m = isOutside place p := by
      intro m hm
      obtain ⟨⟨q, m'⟩, he, rfl⟩ := List.mem_map.1 hm
      exact describesOutside_of_mem_listedAs he
    cases hp : isOutside place p with
    | true =>
      rw [if_pos rfl, List.flatMap_cons, List.map_append,
        List.filter_eq_self.2 fun m hm => (hsame m hm).trans hp]
    | false =>
      rw [if_neg (by simp), List.filter_eq_nil_iff.2 fun m hm => by rw [hsame m hm, hp]; simp]
      rfl

section Spoiled

variable (h : v.Made) {found : List Metadata} (hfound : (l.find v).2 = .ok found)

include h hfound

theorem not_fails_of_find : ∀ dir, Visits l v dir → ∀ p f, ¬Fails l v dir p f :=
  (passes_iff h).1 (passes_of_find h (contains_of_find hfound) hfound)

variable {place : Place} (hinside : ∀ q ∈ readDir ++ metadata ++ nextEntry, place <+: q.parts)

include hinside

/-- What is found outside is what was found there before. -/
theorem filter_found_spoil {found' : List Metadata}
    (hfound' : (l.find (v.spoil readDir metadata nextEntry)).2 = .ok found') :
    found'.filter (describesOutside place) = found.filter (describesOutside place) := by
  have hmade := h.spoil readDir metadata nextEntry
  have hroot := contains_of_find hfound
  have hroot' := (Volume.contains_spoil readDir metadata nextEntry l.root).trans hroot
  rw [find_of_passes h hroot (passes_of_find h hroot hfound)] at hfound
  rw [find_of_passes hmade hroot' (passes_of_find hmade hroot' hfound')] at hfound'
  cases hfound
  cases hfound'
  have hentries := filter_levels_spoil (l := l) hinside h (reach v) (rfl : [l.root].filter _ = _)
  show ((l.listed (v.spoil readDir metadata nextEntry)).map Prod.snd).filter _ =
    ((l.listed v).map Prod.snd).filter _
  rw [listed, listed, filter_listedAs, filter_listedAs, visits, visits]
  rw [show reach (v.spoil readDir metadata nextEntry) = reach v from rfl, hentries]
  refine congrArg _ (List.flatMap_congr fun p hp => ?_)
  unfold listedAs
  rw [entrySight_spoil hinside (List.of_mem_filter hp)]

variable (hplace : IsAbove l.root.parts place)

include hplace

/-- **The listing succeeds** as before, unless a stream breaks off. -/
theorem exists_find_spoil_iff :
    (∃ found', (l.find (v.spoil readDir metadata nextEntry)).2 = .ok found') ↔
      ¬BreaksOff l (v.spoil readDir metadata nextEntry) nextEntry := by
  have hmade := h.spoil readDir metadata nextEntry
  have hroot' := (Volume.contains_spoil readDir metadata nextEntry l.root).trans
    (contains_of_find hfound)
  constructor
  · rintro ⟨found', hfound'⟩ ⟨dir, hvisits, ⟨stream, hread⟩, hhit⟩
    obtain ⟨failure, -, hfailure⟩ := Volume.readDir_of_spoil hread
    rw [hhit, if_pos rfl] at hfailure
    exact not_fails_of_find hmade hfound' dir hvisits _ _ (.stream hread hfailure)
  · intro hwhole
    have hpasses := (passes_iff (l := l) hmade).2 fun dir hvisits p f hfails =>
      hwhole (Fails.of_spoil hplace hinside (not_fails_of_find h hfound) hvisits hfails).1
    rw [find_of_passes hmade hroot' hpasses]
    exact ⟨_, rfl⟩

/-- **The listing fails,** if it does, as the stream that breaks off. -/
theorem find_spoil_eq_error {f : Failure}
    (hf : (l.find (v.spoil readDir metadata nextEntry)).2 = .error f) :
    f = .error (.io (Faults.denied "next_entry")) := by
  have hmade := h.spoil readDir metadata nextEntry
  have hroot' := (Volume.contains_spoil readDir metadata nextEntry l.root).trans
    (contains_of_find hfound)
  obtain ⟨p, hp⟩ := (find_eq_error_iff_head? hmade hroot').1 hf
  obtain ⟨dir, hvisits, hfails⟩ := (mem_failures_iff hmade).1 (List.mem_of_head? hp)
  exact (Fails.of_spoil hplace hinside (not_fails_of_find h hfound) hvisits hfails).2

end Spoiled

/-- **Faults below a directory stay there.**  A listing that finds something still does when
    directories and entries at a place below its root, or further down, are spoiled, unless a stream
    of entries breaks off in a directory that the walk opens; this alone makes it fail.  What it
    finds is the same outside the place. -/
theorem find_spoiled (l : Listing) (v : Volume) (h : v.Made) {found : List Metadata}
    (hfound : (l.find v).2 = .ok found) (readDir metadata nextEntry : List Path) {place : Place}
    (hplace : IsAbove l.root.parts place)
    (hinside : ∀ q ∈ readDir ++ metadata ++ nextEntry, place <+: q.parts) :
    let v' := v.spoil readDir metadata nextEntry
    ((∃ found', (l.find v').2 = .ok found') ↔ ¬BreaksOff l v' nextEntry) ∧
    (∀ found', (l.find v').2 = .ok found' →
      found'.filter (describesOutside place) = found.filter (describesOutside place)) ∧
    ∀ f, (l.find v').2 = .error f → f = .error (.io (Faults.denied "next_entry")) :=
  ⟨exists_find_spoil_iff h hfound hinside hplace,
    fun _ hfound' => filter_found_spoil h hfound hinside hfound',
    fun _ hf => find_spoil_eq_error h hfound hinside hplace hf⟩

def beside : Volume :=
  ⟨.memory ((Files.empty.addFile (.ofText "/in/a.csv") 1 .epoch).addDir (.ofText "/in/sub")), {}⟩

theorem made_beside : beside.Made := (Volume.Made.memory.addFile _ _ _).addDir _

/-- The file is found, and it is outside the directory. -/
theorem find_beside :
    ∃ found, ((Listing.ofRoot (.ofText "/in")).find beside).2 = .ok found ∧
      ∃ m ∈ found, describesOutside (Path.ofText "/in/sub").parts m = true := by
  let files := (Files.empty.addFile (.ofText "/in/a.csv") 1 .epoch).addDir (.ofText "/in/sub")
  let l := Listing.ofRoot (.ofText "/in")
  have hstored : ∀ e ∈ files.nodes.entries, (match e.2.2 with
      | .file _ time => time.isDated && e.1.getLast? != some .up
      | .dir => true) = true := by decide +kernel
  have hfiles : ∀ place spelled size time,
      files.nodes.get? place = some (spelled, .file size time) →
      time.isDated = true ∧ place.getLast? ≠ some .up := by
    intro place spelled size time hget
    simpa using hstored _ ((Catalog.mem_entries_iff _).2 hget)
  have hread : ∃ stream, beside.readDir l.root = .ok stream := exists_of_isOk (by decide +kernel)
  have hpasses := (passes_iff made_beside).2 fun dir hvisits =>
    not_fails made_beside hread (by decide) rfl hfiles hvisits
  have hfind := find_of_passes made_beside (by decide +kernel) hpasses
  have hentry : Path.ofText "/in/a.csv" ∈ beside.entries l.root :=
    (Volume.mem_entries_memory_iff made_beside.sound).2
      ⟨hread, by decide, .file 1 .epoch, by decide +kernel⟩
  obtain ⟨⟨q, m⟩, hm⟩ : ∃ e, e ∈ l.listedAs beside (.ofText "/in/a.csv") :=
    List.exists_mem_of_length_pos (by decide +kernel)
  have hlisted : (q, m) ∈ l.listed beside := List.mem_flatMap.2
    ⟨_, List.mem_flatMap.2 ⟨_, (mem_visits_iff made_beside).2 .root, hentry⟩, hm⟩
  refine ⟨(l.listed beside).map Prod.snd, by rw [hfind], m, List.mem_map_of_mem hlisted, ?_⟩
  rw [describesOutside_of_mem_listedAs hm]
  decide

/-- A directory that is not read takes no file beside it away. -/
theorem find_spoiled_beside :
    let l := Listing.ofRoot (.ofText "/in")
    let place := (Path.ofText "/in/sub").parts
    ∃ found found', (l.find beside).2 = .ok found ∧
      (l.find (beside.spoil [.ofText "/in/sub"] [] [])).2 = .ok found' ∧
      found'.filter (describesOutside place) = found.filter (describesOutside place) ∧
      found.filter (describesOutside place) ≠ [] := by
  intro l place
  obtain ⟨found, hfound, m, hm, houtside⟩ := find_beside
  have hplace : IsAbove l.root.parts place := by decide
  obtain ⟨hsucceeds, hsame, -⟩ :=
    find_spoiled l beside made_beside hfound [.ofText "/in/sub"] [] [] hplace (by decide)
  obtain ⟨found', hfound'⟩ := hsucceeds.2 fun ⟨dir, _, _, hhit⟩ => by cases hhit
  refine ⟨found, found', hfound, hfound', hsame found' hfound', ?_⟩
  exact List.ne_nil_of_mem (List.mem_filter.2 ⟨hm, houtside⟩)

/-- **A stream that breaks off** in one directory ends the listing, with the file beside it. -/
theorem find_broken_stream :
    let l := Listing.ofRoot (.ofText "/in")
    let place := (Path.ofText "/in/sub").parts
    beside.Made ∧ IsAbove l.root.parts place ∧
      (∃ found, (l.find beside).2 = .ok found ∧ ∃ m ∈ found, describesOutside place m = true) ∧
      (l.find (beside.spoil [] [] [.ofText "/in/sub"])).2 =
        .error (.error (.io (Faults.denied "next_entry"))) := by
  intro l place
  obtain ⟨found, hfound, hbeside⟩ := find_beside
  have hplace : IsAbove l.root.parts place := by decide
  have hinside : ∀ q ∈ [] ++ [] ++ [Path.ofText "/in/sub"], place <+: q.parts := by decide
  -- the walk opens the directory, as an entry of the root
  have hentry : Path.ofText "/in/sub" ∈ (beside.spoil [] [] [.ofText "/in/sub"]).entries l.root :=
    (Volume.mem_entries_memory_iff made_beside.sound).2
      ⟨exists_of_isOk (by decide +kernel), by decide, .dir, by decide +kernel⟩
  have hbreaks : BreaksOff l (beside.spoil [] [] [.ofText "/in/sub"]) [.ofText "/in/sub"] :=
    ⟨_, .inside .root hentry (by decide +kernel), exists_of_isOk (by decide +kernel), by decide⟩
  refine ⟨made_beside, hplace, ⟨found, hfound, hbeside⟩, ?_⟩
  cases hresult : (l.find (beside.spoil [] [] [.ofText "/in/sub"])).2 with
  | ok found' =>
    have hwhole := (exists_find_spoil_iff made_beside hfound hinside hplace).1 ⟨found', hresult⟩
    exact absurd hbreaks hwhole
  | error f => rw [find_spoil_eq_error made_beside hfound hinside hplace hresult]

end Listing

end Intake
