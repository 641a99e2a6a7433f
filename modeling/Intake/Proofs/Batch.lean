import Intake.Proofs.Course

/-!
# Batch — what a pull that settles hands out

A pull that settles adds to what is handed out the oldest files that wait, as many as it may, and
returns the URIs of everything that is handed out, by age.  Neither the order in which the catalogs
list their entries nor the attempts before the last one matter: news have taken from the sets what
they take (`Monitor.scheduled_hearAll`, `Monitor.scanned_hearAll`), and files that differ in time
or URI have one order (`Metadata.precedes_total`, `Monitor.staged_perm`).
-/

namespace Intake

/-! ## 1. The order of files -/

namespace Instant

theorem compare_eq_lt_iff {a b : Instant} :
    a.compare b = .lt ↔ a.seconds < b.seconds ∨ a.seconds = b.seconds ∧ a.nanos < b.nanos := by
  unfold Instant.compare
  cases h : Ord.compare a.seconds b.seconds with
  | lt =>
    rw [Int.compare_eq_lt] at h
    simp [h]
  | eq =>
    rw [Int.compare_eq_eq] at h
    simp [h, Nat.compare_eq_lt]
  | gt =>
    rw [Int.compare_eq_gt] at h
    simp only [reduceCtorEq, false_iff]
    omega

theorem compare_eq_eq_iff {a b : Instant} : a.compare b = .eq ↔ a = b := by
  obtain ⟨s, n⟩ := a
  obtain ⟨s', n'⟩ := b
  rw [mk.injEq]
  unfold Instant.compare
  cases h : Ord.compare s s' with
  | lt =>
    rw [Int.compare_eq_lt] at h
    simp only [reduceCtorEq, false_iff]
    omega
  | eq =>
    rw [Int.compare_eq_eq] at h
    simp [h]
  | gt =>
    rw [Int.compare_eq_gt] at h
    simp only [reduceCtorEq, false_iff]
    omega

theorem compare_trichotomy (a b : Instant) :
    a.compare b = .lt ∨ a = b ∨ b.compare a = .lt := by
  obtain ⟨s, n⟩ := a
  obtain ⟨s', n'⟩ := b
  rw [compare_eq_lt_iff, compare_eq_lt_iff, mk.injEq]
  dsimp only
  omega

end Instant

namespace Metadata

/-- **A file precedes** another one if it is older, or as old and not behind it by its URI. -/
theorem precedes_iff {a b : Metadata} :
    a.precedes b = true ↔
      a.modified.compare b.modified = .lt ∨ a.modified = b.modified ∧ a.uriText ≤ b.uriText := by
  unfold precedes
  cases h : a.modified.compare b.modified with
  | lt => simp
  | eq => simp [Instant.compare_eq_eq_iff.1 h]
  | gt =>
    have hne : a.modified ≠ b.modified := by
      intro heq
      rw [Instant.compare_eq_eq_iff.2 heq] at h
      cases h
    simp [hne]

theorem precedes_trans {a b c : Metadata} (h : a.precedes b = true) (h' : b.precedes c = true) :
    a.precedes c = true := by
  rw [precedes_iff, Instant.compare_eq_lt_iff] at h h' ⊢
  rcases h with h | ⟨htime, htext⟩
  · rcases h' with h' | ⟨htime', -⟩
    · left
      omega
    · rw [← htime']
      exact .inl h
  · rw [htime]
    rcases h' with h' | ⟨htime', htext'⟩
    · exact .inl h'
    · exact .inr ⟨htime', String.le_trans htext htext'⟩

theorem precedes_total (a b : Metadata) : (a.precedes b || b.precedes a) = true := by
  rw [Bool.or_eq_true, precedes_iff, precedes_iff]
  rcases Instant.compare_trichotomy a.modified b.modified with hlt | heq | hgt
  · exact .inl (.inl hlt)
  · rcases String.le_total a.uriText b.uriText with htext | htext
    · exact .inl (.inr ⟨heq, htext⟩)
    · exact .inr (.inr ⟨heq.symm, htext⟩)
  · exact .inr (.inl hgt)

/-- Whatever has a file can be sorted by it. -/
theorem pairwise_mergeSort {α : Type} (fileOf : α → Metadata) (xs : List α) :
    (xs.mergeSort fun x y => (fileOf x).precedes (fileOf y)).Pairwise fun x y =>
      (fileOf x).precedes (fileOf y) = true :=
  @List.pairwise_mergeSort _ (fun x y => (fileOf x).precedes (fileOf y))
    (fun _ _ _ => precedes_trans) (fun x y => precedes_total (fileOf x) (fileOf y)) xs

theorem precedes_antisymm {a b : Metadata} (h : a.precedes b = true) (h' : b.precedes a = true) :
    a.modified = b.modified ∧ a.uriText = b.uriText := by
  rw [precedes_iff, Instant.compare_eq_lt_iff] at h h'
  rcases h with h | ⟨htime, htext⟩
  · rcases h' with h' | ⟨htime', -⟩
    · omega
    · rw [htime'] at h
      omega
  · rcases h' with h' | ⟨-, htext'⟩
    · rw [htime] at h'
      omega
    · exact ⟨htime, String.le_antisymm htext htext'⟩

def Apart (a b : Metadata) : Prop := a.modified ≠ b.modified ∨ a.uriText ≠ b.uriText

instance (a b : Metadata) : Decidable (a.Apart b) :=
  inferInstanceAs (Decidable (a.modified ≠ b.modified ∨ a.uriText ≠ b.uriText))

theorem Apart.not_both {a b : Metadata} (h : a.Apart b) (hab : a.precedes b = true) :
    ¬ b.precedes a = true := by
  intro hba
  obtain ⟨htime, htext⟩ := precedes_antisymm hab hba
  exact h.elim (fun hne => hne htime) fun hne => hne htext

/-- Files of one catalog that differ whenever their keys do, differ whenever their entries do. -/
theorem apart_of_mem {c d : Catalog PartitionKey Metadata}
    (h : ∀ {k l : PartitionKey} {x y : Metadata}, c.get? k = some x → c.get? l = some y → k ≠ l →
      x.Apart y) (hsub : ∀ e ∈ d.entries, e ∈ c.entries) :
    ∀ x ∈ d.entries, ∀ y ∈ d.entries, x ≠ y → x.2.Apart y.2 := by
  intro x hx y hy hne
  have hx' := (Catalog.mem_entries_iff c).1 (hsub x hx)
  have hy' := (Catalog.mem_entries_iff c).1 (hsub y hy)
  refine h hx' hy' fun hkey => hne (Prod.ext hkey ?_)
  -- a key has one file
  rw [hkey] at hx'
  exact Option.some.inj (hx'.symm.trans hy')

end Metadata

/-! ## 2. What news leave -/

namespace LogEntry

def finishes (e : LogEntry) (k : PartitionKey) : Bool := e.key == k && e.finished?.isSome

def cleans (e : LogEntry) (k : PartitionKey) : Bool :=
  e.key == k && e.value.any fun r => r.status.isCleaned

end LogEntry

namespace Monitor

theorem scheduled_observe_eq (m : Monitor) (e : LogEntry) :
    (m.observe e).1.scheduled = m.scheduled.filter fun k _ => !e.cleans k := by
  fun_cases observe
  case case1 hvalue =>
    exact (Catalog.filter_eq_self fun k _ => by simp [LogEntry.cleans, hvalue]).symm
  case case2 r hvalue hfinished =>
    -- finished work is not cleaned yet
    have hother : r.status.isCleaned = false := by
      have hdisjoint := r.status.families_disjoint.2.2
      rwa [hfinished, Bool.true_and] at hdisjoint
    exact (Catalog.filter_eq_self fun k _ => by simp [LogEntry.cleans, hvalue, hother]).symm
  case case3 r hvalue _ hcleaned _ =>
    have hcleans : ∀ k, (!e.cleans k) = (k != e.key) := by
      intro k
      simp [LogEntry.cleans, hvalue, hcleaned, bne, eq_comm]
    simp only [hcleans]
    rfl
  case case4 r hvalue _ hcleaned hout =>
    -- a key that is not handed out cannot be taken
    refine (Catalog.filter_eq_self fun k hk => ?_).symm
    have hne : e.key ≠ k := by
      rintro rfl
      exact hout ((Catalog.mem_keys_iff _).1 hk)
    simp [LogEntry.cleans, hne]
  case case5 r hvalue _ hother =>
    exact (Catalog.filter_eq_self fun k _ => by simp [LogEntry.cleans, hvalue, hother]).symm

theorem scanned_observe_eq (m : Monitor) (e : LogEntry) :
    (m.observe e).1.scanned = m.scanned.filter fun k _ => !e.finishes k := by
  fun_cases observe
  case case2 r hvalue hfinished =>
    have hfinishes : ∀ k, (!e.finishes k) = (k != e.key) := by
      intro k
      simp [LogEntry.finishes, LogEntry.finished?, hvalue, hfinished, bne, eq_comm]
    simp only [hfinishes]
    rfl
  all_goals
    refine (Catalog.filter_eq_self fun k _ => ?_).symm
    simp_all [LogEntry.finishes, LogEntry.finished?]

/-- **News of cleanups** take their keys from what is handed out. -/
theorem scheduled_hearAll (m : Monitor) (news : List LogEntry) :
    (m.hearAll news).scheduled = m.scheduled.filter fun k _ => !news.any (·.cleans k) := by
  induction news generalizing m with
  | nil => exact (Catalog.filter_eq_self fun _ _ => rfl).symm
  | cons e rest ih =>
    show ((m.observe e).1.hearAll rest).scheduled = _
    rw [ih, scheduled_observe_eq, Catalog.filter_filter]
    simp only [List.any_cons, Bool.not_or, Bool.and_comm]

/-- **News of finished work** take their keys from what waits to be handed out. -/
theorem scanned_hearAll (m : Monitor) (news : List LogEntry) :
    (m.hearAll news).scanned = m.scanned.filter fun k _ => !news.any (·.finishes k) := by
  induction news generalizing m with
  | nil => exact (Catalog.filter_eq_self fun _ _ => rfl).symm
  | cons e rest ih =>
    show ((m.observe e).1.hearAll rest).scanned = _
    rw [ih, scanned_observe_eq, Catalog.filter_filter]
    simp only [List.any_cons, Bool.not_or, Bool.and_comm]

/-! ## 3. What an attempt stages -/

/-- **The order of files that differ** is one, however they are listed. -/
theorem mergeSort_eq {es found : List (PartitionKey × Metadata)} (hperm : es.Perm found)
    (hsorted : es.Pairwise fun x y => x.2.precedes y.2 = true)
    (hapart : ∀ x ∈ found, ∀ y ∈ found, x ≠ y → x.2.Apart y.2) :
    found.mergeSort (fun x y => x.2.precedes y.2) = es := by
  have hmerged := Metadata.pairwise_mergeSort Prod.snd found
  have hsame := (List.mergeSort_perm found fun x y => x.2.precedes y.2).trans hperm.symm
  refine List.Perm.eq_of_pairwise (fun x y hx hy hxy hyx => ?_) hmerged hsorted hsame
  -- two files that precede each other do not differ
  by_contra hne
  have hdiffer := hapart x (List.mem_mergeSort.1 hx) y (hperm.mem_iff.1 hy) hne
  exact hdiffer.not_both hxy hyx

/-- The candidates are what waits and is not handed out, in some order. -/
theorem candidates_perm {m : Monitor} {kept waiting : Catalog PartitionKey Metadata}
    (hout : m.scheduled.entries.Perm kept.entries)
    (hwaits : m.scanned.entries.Perm waiting.entries) :
    m.candidates.Perm (waiting.filter fun k _ => !kept.contains k).entries := by
  have hcontains : ∀ k, m.scheduled.contains k = kept.contains k := fun k => hout.any_eq
  unfold candidates
  simp only [hcontains]
  exact hwaits.filter _

/-- **What an attempt stages** are the first of the candidates in their order, in whatever order
    the catalogs list them. -/
theorem staged_perm {m : Monitor} {es : List (PartitionKey × Metadata)} (f : Nat)
    (hperm : es.Perm m.candidates) (hsorted : es.Pairwise fun x y => x.2.precedes y.2 = true)
    (hapart : ∀ x ∈ m.candidates, ∀ y ∈ m.candidates, x ≠ y → x.2.Apart y.2) :
    (m.staged f).Perm (es.take f) := by
  simp only [staged]
  split
  next => rw [mergeSort_eq hperm hsorted hapart]
  next hfew =>
    -- as few as allowed are staged as they come
    have hall : es.length ≤ f := hperm.length_eq ▸ Nat.not_lt.1 hfew
    rw [List.take_of_length_le hall]
    exact hperm.symm

end Monitor

/-- **Groups list files by age** if their URIs, one group behind the other, are in that order. -/
def Groups.ListByAge (groups : List (List Uri)) (files : List Metadata) : Prop :=
  ∃ sorted : List Metadata, sorted.Perm files ∧
    sorted.Pairwise (fun x y => x.precedes y = true) ∧ groups.flatten = sorted.map (·.uri)

/-- The groups of some files list them by age, in whatever order the files come. -/
theorem Groups.listByAge_byAge {files files' : List Metadata} {most : Nat} (h : 0 < most)
    (hperm : files'.Perm files) : ListByAge (byAge files' most) files := by
  refine ⟨files'.mergeSort Metadata.precedes, ?_, ?_, flatten_byAge files' h⟩
  · exact (List.mergeSort_perm files' Metadata.precedes).trans hperm
  · exact Metadata.pairwise_mergeSort (fun file => file) files'

/-- A file is in a group exactly if there may be one. -/
theorem Groups.uri_mem_byAge_iff {files : List Metadata} {most : Nat} {file : Metadata}
    (h : file ∈ files) : file.uri ∈ (byAge files most).flatten ↔ 0 < most := by
  constructor
  · intro hin
    rw [Nat.pos_iff_ne_zero]
    rintro rfl
    rw [byAge_zero] at hin
    cases hin
  · intro hmost
    exact (mem_byAge_iff hmost).2 ⟨file, h, rfl⟩

namespace Interplay

variable {ι : Type} [DecidableEq ι] {promise : Stage → Answer → Prop} {a b : Interplay ι}
  {who : ι} {g f : Nat} {rounds : List (List (Move ι))} {t : Turn} {groups : List (List Uri)}

/-! ## 4. The batch -/

/-- **The batch of a pull** that settles.  What was handed out when the pull was let in stays handed
    out unless there were news that it was cleaned, and what waited waits unless there were news
    that it was finished.  Of what is then left, in the one order that it has, the first files are
    handed out as well, as many as allowed, and nothing else; and the groups list everything that is
    handed out by age.  None of this depends on the order in which the catalogs list entries. -/
theorem batch_of_pull (ha : a.Guarded) (h : Course promise who g f a rounds t b)
    (hwaiting : a.monitor.scanned.isEmpty = false) (hends : t.next = .finished (.groups groups))
    (hcalm : t.aborts = false) (hg : 0 < g)
    (hapart : ∀ {k l : PartitionKey} {x y : Metadata}, a.monitor.scanned.get? k = some x →
      a.monitor.scanned.get? l = some y → k ≠ l → x.Apart y) :
    let news := (rounds.map heard).flatten
    let kept := a.monitor.scheduled.filter fun k _ => !news.any (·.cleans k)
    let waiting := a.monitor.scanned.filter fun k _ => !news.any (·.finishes k)
    let left := waiting.filter fun k _ => !kept.contains k
    (∃ es : List (PartitionKey × Metadata),
      (∀ es', es'.Perm left.entries ∧ es'.Pairwise (fun x y => x.2.precedes y.2 = true) ↔
        es' = es) ∧
      b.monitor.scheduled.entries.Perm (kept.entries ++ es.take f) ∧
      ∀ m : Monitor, m.scheduled.entries.Perm kept.entries →
        m.scanned.entries.Perm waiting.entries → (m.staged f).Perm (es.take f)) ∧
    Groups.ListByAge groups b.monitor.scheduled.values ∧
    ∀ files, files.Perm b.monitor.scheduled.values →
      Groups.ListByAge (Groups.byAge files g) b.monitor.scheduled.values := by
  intro news kept waiting left
  obtain ⟨-, ⟨p, rfl⟩, hstands⟩ := h.stands ha
  obtain ⟨hgroups, hscheduled⟩ := hstands.settled hwaiting hends hcalm
  have hdiffer : ∀ x ∈ left.entries, ∀ y ∈ left.entries, x ≠ y → x.2.Apart y.2 :=
    Metadata.apart_of_mem hapart fun _ he => List.mem_of_mem_filter (List.mem_of_mem_filter he)
  -- files that stand apart have one order, whatever order the catalogs list them in
  let es := left.entries.mergeSort fun x y => x.2.precedes y.2
  have hperm : es.Perm left.entries := List.mergeSort_perm _ _
  have hsorted : es.Pairwise fun x y => x.2.precedes y.2 = true :=
    Metadata.pairwise_mergeSort Prod.snd left.entries
  have hstaged : ∀ m : Monitor, m.scheduled.entries.Perm kept.entries →
      m.scanned.entries.Perm waiting.entries → (m.staged f).Perm (es.take f) := by
    intro m hout hwaits
    have hcandidates : m.candidates.Perm left.entries := Monitor.candidates_perm hout hwaits
    refine Monitor.staged_perm f (hperm.trans hcandidates.symm) hsorted fun x hx y hy => ?_
    exact hdiffer x (hcandidates.mem_iff.1 hx) y (hcandidates.mem_iff.1 hy)
  refine ⟨⟨es, fun es' => ⟨?_, ?_⟩, ?_, hstaged⟩, ?_, fun files hfiles => ?_⟩
  · rintro ⟨hperm', hsorted'⟩
    exact (Monitor.mergeSort_eq hperm' hsorted' hdiffer).symm
  · rintro rfl
    exact ⟨hperm, hsorted⟩
  · -- the sets of the last attempt are what the news left
    have hkept : (a.monitor.hearAll news).scheduled = kept := a.monitor.scheduled_hearAll news
    have hwaits : (a.monitor.hearAll news).scanned = waiting := a.monitor.scanned_hearAll news
    show t.monitor.scheduled.entries.Perm _
    rw [hscheduled, Monitor.entries_proposed, hkept]
    refine (hstaged _ ?_ ?_).append_left kept.entries
    · rw [hkept]
    · rw [hwaits]
  · rw [hgroups]
    exact Groups.listByAge_byAge hg (.refl _)
  · exact Groups.listByAge_byAge hg hfiles

/-- Next to two files that are handed out three others wait.  During the first attempt of a pull one
    of the two is cleaned and one of the others is completed; the second attempt settles, and adds
    the older of the two that are left. -/
theorem batch_of_pull_again :
    let promise : Stage → Answer → Prop := fun _ _ => true = true
    let file : String → Metadata := sample
    let late : Metadata := { file "/b" with modified := ⟨9, 0⟩ }
    let cleaned : LogEntry := ⟨⟨"/e"⟩, some (.new (file "/e") .cleaned)⟩
    let done : LogEntry := ⟨⟨"/c"⟩, some (.new (file "/c") .completed)⟩
    let first : Interplay Nat :=
      start 0 { reconfigurationAfterTimeoutMs := some 0 } byPath "files"
    let ms : List (Move Nat) :=
      foundMoves [file "/a", file "/e"] ++ pullMoves 2 1 2 ++
        [.resume 2 (.refreshed (.ok .empty))] ++
        scanMoves 1 [late, file "/c", file "/d"] .empty ++ askMoves 2 2 1
    let rounds : List (List (Move Nat)) := [[.hear cleaned, .hear done], []]
    ∃ a t b groups, Run promise first ms a ∧ a.Guarded ∧ Course promise 2 2 1 a rounds t b ∧
      a.monitor.scanned.isEmpty = false ∧ t.next = .finished (.groups groups) ∧
      t.aborts = false ∧ 0 < 2 ∧
      (∀ {k l : PartitionKey} {x y : Metadata}, a.monitor.scanned.get? k = some x →
        a.monitor.scanned.get? l = some y → k ≠ l → x.Apart y) ∧
      b.monitor.scheduled.entries.Perm [(⟨"/a"⟩, file "/a"), (⟨"/d"⟩, file "/d")] ∧
      Groups.ListByAge groups b.monitor.scheduled.values := by
  intro promise file late cleaned done first ms rounds
  let a := (first.moves? (fun _ _ => true) ms).get (by decide +kernel)
  let entered := (a.enter? (fun _ _ => true) 2).get (by decide +kernel)
  let again := (entered.2.attempt? (fun _ _ => true) 2 rounds[0] (.ok .empty)).get
    (by decide +kernel)
  let last := (again.2.attempt? (fun _ _ => true) 2 rounds[1] (.ok .empty)).get (by decide +kernel)
  have hrun : Run promise first ms a := .of_moves? (Option.some_get _).symm
  have ha : a.Guarded := hrun.guarded (.start 0 _ byPath "files")
  have hentered : Course promise 2 2 1 a [] entered.1 entered.2 :=
    .of_enter? (by decide +kernel) (Option.some_get _).symm
  have hagain : Course promise 2 2 1 a [rounds[0]] again.1 again.2 :=
    hentered.of_attempt? (by decide) (Option.some_get _).symm
  have hcourse : Course promise 2 2 1 a rounds last.1 last.2 :=
    hagain.of_attempt? (by decide) (Option.some_get _).symm
  have hwaiting : a.monitor.scanned.isEmpty = false := by decide +kernel
  have hapart : ∀ {k l : PartitionKey} {x y : Metadata}, a.monitor.scanned.get? k = some x →
      a.monitor.scanned.get? l = some y → k ≠ l → x.Apart y := by
    have hall : ∀ x ∈ a.monitor.scanned.entries, ∀ y ∈ a.monitor.scanned.entries, x.1 ≠ y.1 →
        x.2.Apart y.2 := by decide +kernel
    intro k l x y hx hy hne
    have hk := (Catalog.mem_entries_iff _).2 hx
    have hl := (Catalog.mem_entries_iff _).2 hy
    exact hall (k, x) hk (l, y) hl hne
  obtain ⟨-, -, hstands⟩ := hcourse.stands ha
  obtain ⟨groups, hends⟩ := hstands.ends (by decide +kernel)
  have hcalm : last.1.aborts = false := by
    rw [Bool.eq_false_iff, Ne, hstands.aborts_iff]
    decide +kernel
  obtain ⟨⟨es, hes, hscheduled, -⟩, hgroups, -⟩ :=
    batch_of_pull ha hcourse hwaiting hends.reply hcalm (by decide) hapart
  -- the two files that are left, in their order
  have hleft : [(⟨"/d"⟩, file "/d"), (⟨"/b"⟩, late)] = es := (hes _).1 (by decide +kernel)
  subst hleft
  exact ⟨a, last.1, last.2, groups, hrun, ha, hcourse, hwaiting, hends.reply, hcalm, by decide,
    hapart, hscheduled.trans (by decide +kernel), hgroups⟩

/-! ## 5. Files without a group -/

/-- **A pull leaves nothing behind** if it may return a group.  A pull that returns in its first
    turn hands nothing out.  Behind any other a key that is handed out, and was not when the pull
    was let in or was cleaned since, has its URI in the groups exactly if there may be groups: an
    attempt stages its files without a look at how many groups are asked for. -/
theorem new_grouped_iff (ha : a.Guarded) :
    (∀ {b : Interplay ι}, Step promise a (.begin who (.pull g f)) b →
      b.monitor.scheduled = a.monitor.scheduled) ∧
    ∀ {rounds : List (List (Move ι))} {t : Turn} {b : Interplay ι} {groups : List (List Uri)}
      {k : PartitionKey} {file : Metadata}, Course promise who g f a rounds t b →
      t.next = .finished (.groups groups) → b.monitor.scheduled.get? k = some file →
      (a.monitor.scheduled.get? k = none ∨
        ∃ e ∈ (rounds.map heard).flatten, e.cleans k = true) →
      (file.uri ∈ groups.flatten ↔ 0 < g) := by
  constructor
  · intro b h
    cases h with
    | begin => exact (Monitor.Unmoved.begin a.monitor a.now _).scheduled
  · intro rounds t b groups k file h hends hk hnew
    obtain ⟨-, ⟨p, rfl⟩, hstands⟩ := h.stands ha
    change t.monitor.scheduled.get? k = some file at hk
    generalize hpast : rounds.map heard = past at hstands hnew
    cases hstands with
    | idle _ _ _ scheduled =>
      -- without an attempt there is nothing new
      rw [scheduled] at hk
      rcases hnew with hnone | ⟨e, he, -⟩
      · cases hnone.symm.trans hk
      · cases he
    | goesOn _ _ _ _ next => cases next.symm.trans hends
    | settles _ _ _ _ _ ends =>
      cases ends.reply.symm.trans hends
      have hmem : file ∈ t.monitor.scheduled.values :=
        List.mem_map_of_mem ((Catalog.mem_entries_iff _).2 hk)
      exact Groups.uri_mem_byAge_iff hmem
    | givesUp _ _ _ _ scheduled =>
      rw [scheduled] at hk
      cases hk

/-- A file waits, and a pull of at most one group returns it. -/
theorem new_grouped_iff_one :
    let promise : Stage → Answer → Prop := fun _ _ => true = true
    let file : Metadata := sample "/a"
    let first : Interplay Nat := start 0 {} byPath "files"
    ∃ a t b groups, Run promise first (foundMoves [file] ++ askMoves 2 1 9) a ∧ a.Guarded ∧
      Course promise 2 1 9 a [[]] t b ∧ t.next = .finished (.groups groups) ∧
      a.monitor.scheduled.get? ⟨"/a"⟩ = none ∧ b.monitor.scheduled.get? ⟨"/a"⟩ = some file ∧
      file.uri ∈ groups.flatten := by
  intro promise file first
  let a := (first.moves? (fun _ _ => true) (foundMoves [file] ++ askMoves 2 1 9)).get
    (by decide +kernel)
  let entered := (a.enter? (fun _ _ => true) 2).get (by decide +kernel)
  let last := (entered.2.attempt? (fun _ _ => true) 2 [] (.ok .empty)).get (by decide +kernel)
  have hrun : Run promise first (foundMoves [file] ++ askMoves 2 1 9) a :=
    .of_moves? (Option.some_get _).symm
  have ha : a.Guarded := hrun.guarded (.start 0 {} byPath "files")
  have hentered : Course promise 2 1 9 a [] entered.1 entered.2 :=
    .of_enter? (by decide +kernel) (Option.some_get _).symm
  have hcourse : Course promise 2 1 9 a [[]] last.1 last.2 :=
    hentered.of_attempt? (by decide) (Option.some_get _).symm
  obtain ⟨-, -, hstands⟩ := hcourse.stands ha
  obtain ⟨groups, hends⟩ := hstands.ends (by decide +kernel)
  have hnew : a.monitor.scheduled.get? ⟨"/a"⟩ = none := by decide +kernel
  have hout : last.2.monitor.scheduled.get? ⟨"/a"⟩ = some file := by decide +kernel
  exact ⟨a, last.1, last.2, groups, hrun, ha, hcourse, hends.reply, hnew, hout,
    ((new_grouped_iff ha).2 hcourse hends.reply hout (.inl hnew)).2 Nat.one_pos⟩

/-- **A pull of no groups strands what it stages:** a file waits, and a pull that may return no
    group at all returns none, but behind it the file is handed out, and nobody has it.  While that
    lasts, a monitor that may not reconfigure does not scan. -/
theorem new_ungrouped :
    let promise : Stage → Answer → Prop := fun _ _ => true = true
    let file : Metadata := sample "/a"
    let first : Interplay Nat := start 0 {} byPath "files"
    ∃ a t b, Run promise first (foundMoves [file] ++ askMoves 2 0 9) a ∧
      Course promise 2 0 9 a [[]] t b ∧
      t.next = .finished (.groups []) ∧ a.monitor.scheduled.get? ⟨"/a"⟩ = none ∧
      b.monitor.scheduled.get? ⟨"/a"⟩ = some file ∧ b.monitor.mayScan = false := by
  intro promise file first
  let a := (first.moves? (fun _ _ => true) (foundMoves [file] ++ askMoves 2 0 9)).get
    (by decide +kernel)
  let entered := (a.enter? (fun _ _ => true) 2).get (by decide +kernel)
  let last := (entered.2.attempt? (fun _ _ => true) 2 [] (.ok .empty)).get (by decide +kernel)
  have hrun : Run promise first (foundMoves [file] ++ askMoves 2 0 9) a :=
    .of_moves? (Option.some_get _).symm
  have ha : a.Guarded := hrun.guarded (.start 0 {} byPath "files")
  have hentered : Course promise 2 0 9 a [] entered.1 entered.2 :=
    .of_enter? (by decide +kernel) (Option.some_get _).symm
  have hcourse : Course promise 2 0 9 a [[]] last.1 last.2 :=
    hentered.of_attempt? (by decide) (Option.some_get _).symm
  obtain ⟨-, -, hstands⟩ := hcourse.stands ha
  obtain ⟨groups, hends⟩ := hstands.ends (by decide +kernel)
  have hcalm : last.1.aborts = false := by
    rw [Bool.eq_false_iff, Ne, hstands.aborts_iff]
    decide +kernel
  have hnone : groups = [] := by
    rw [(hstands.settled (by decide +kernel) hends.reply hcalm).1, Groups.byAge_zero]
  subst hnone
  exact ⟨a, last.1, last.2, hrun, hcourse, hends.reply, by decide +kernel, by decide +kernel,
    by decide +kernel⟩

end Interplay

end Intake
