import Intake.Proofs.Apart
import Intake.Proofs.Identity
import Mathlib.Data.List.Nodup

/-!
# Versions — files that a batch names again

Keys keep files apart, and a batch names files by their URIs.  Where a policy selects the time of
modification, the size or the digest, another version of a file is another unit of work, and a pull
may return both (`Interplay.batch_names_again`).  It returns no two files that agree on everything
selected; and a URI comes twice only if a scan found one version while another one waited or was
handed out (`Interplay.batch_versions`).
-/

namespace Intake

/-- **A pull replies** with what an attempt proposes, in groups, or with no groups. -/
theorem Monitor.groups_of_reply (m : Monitor) (now : Nat) {stage : Stage} {answer : Answer}
    {groups : List (List Uri)}
    (h : (m.resume now stage answer).next = .finished (.groups groups)) :
    groups = [] ∨ ∃ g f, groups = Groups.byAge (m.proposed f).values g := by
  rcases m.pull_of_groups now h with ⟨g, f, rfl, rfl⟩ | ⟨g, f, attempt, result, rfl, rfl⟩
  · change (m.pullEntered g f).next = _ at h
    unfold pullEntered at h
    split at h <;> cases h
    exact .inl rfl
  · change (m.pullSynced g f attempt result).next = _ at h
    rcases m.pullSynced_cases g f attempt result with
      ⟨-, -, hn⟩ | ⟨-, -, -, hn⟩ | ⟨-, -, -, hn⟩
    · cases hn.symm.trans h
      exact .inr ⟨g, f, rfl⟩
    · cases hn.symm.trans h
    · cases hn.symm.trans h
      exact .inl rfl

namespace Interplay

variable {ι : Type} [DecidableEq ι] {promise : Stage → Answer → Prop}

/-! ## 1. Where files come from -/

def Holds (w : Interplay ι) (k : PartitionKey) (file : Metadata) : Prop :=
  w.monitor.scanned.get? k = some file ∨ w.monitor.scheduled.get? k = some file

/-- **A file that is held** behind a step was held before, or a scan finds it. -/
theorem Step.holds {a b : Interplay ι} {m : Move ι} {k : PartitionKey} {file : Metadata}
    (h : Step promise a m b) (hb : b.Holds k file) : a.Finds m k file ∨ a.Holds k file := by
  rcases hb with hwaits | hout
  · exact (h.found_or_waited hwaits).imp_right .inl
  · rcases h.out_or_waited hout with hbefore | ⟨hwaited, -⟩
    · exact .inr (.inr hbefore)
    · exact .inr (.inl hwaited)

/-- **A scan finds a file beside another one,** which is held under another key by then. -/
def FindsBeside (w : Interplay ι) (m : Move ι) (x y : Metadata) : Prop :=
  ∃ k l, k ≠ l ∧ w.Finds m k x ∧ w.Holds l y

def Listed (ms : List (Move ι)) (file : Metadata) : Prop :=
  ∃ who listed snapshot, .resume who (.listed (.ok listed) snapshot) ∈ ms ∧ file ∈ listed

section Runs

variable {now : Nat} {config : Config} {keyOf : KeyRule} {listing : String} {w : Interplay ι}
  {ms : List (Move ι)} {k l : PartitionKey} {x y : Metadata}

omit [DecidableEq ι] in
theorem not_holds_start (k : PartitionKey) (x : Metadata) :
    ¬(start now config keyOf listing : Interplay ι).Holds k x := by
  rintro (h | h) <;> cases h

/-- **Whatever is held was listed,** and is held under its key. -/
theorem Run.listed_of_holds (hrun : Run promise (start now config keyOf listing) ms w)
    (hx : w.Holds k x) : Listed ms x ∧ keyOf x = .ok k := by
  have hstep : ∀ {a b : Interplay ι} {m : Move ι}, Step promise a m b → b.Holds k x →
      a.Finds m k x ∨ a.Holds k x ∧ True :=
    fun h hb => (h.holds hb).imp_right fun ha => ⟨ha, trivial⟩
  rcases hrun.since (P := fun v => v.Holds k x) hstep hx with
    ⟨hfirst, -⟩ | ⟨a, b, before, m, after, rfl, hbefore, hfinds, -⟩
  · exact absurd hfirst (not_holds_start k x)
  · obtain ⟨who, idle, listed, snapshot, c, rfl, -, hselect, hc⟩ := hfinds
    obtain ⟨hmem, hkey⟩ := Candidates.mem_of_select hselect hc
    have hkeyOf : a.monitor.keyOf = keyOf := congrArg (·.2.1) hbefore.settings
    rw [hkeyOf] at hkey
    exact ⟨⟨who, listed, snapshot, by simp, hmem⟩, hkey⟩

/-- **Two files came to be held together** where a scan found one of them, or both. -/
theorem Run.found_together (hrun : Run promise (start now config keyOf listing) ms w)
    (hx : w.Holds k x) (hy : w.Holds l y) :
    ∃ a before m after, ms = before ++ m :: after ∧
      Run promise (start now config keyOf listing) before a ∧
      (a.Finds m k x ∧ a.Holds l y ∨ a.Finds m l y ∧ a.Holds k x ∨
        a.Finds m k x ∧ a.Finds m l y) := by
  have hstep : ∀ {a b : Interplay ι} {m : Move ι}, Step promise a m b →
      b.Holds k x ∧ b.Holds l y →
      (a.Finds m k x ∧ a.Holds l y ∨ a.Finds m l y ∧ a.Holds k x ∨
        a.Finds m k x ∧ a.Finds m l y) ∨ (a.Holds k x ∧ a.Holds l y) ∧ True := by
    rintro a b m h ⟨hbx, hby⟩
    rcases h.holds hbx with hfx | hax <;> rcases h.holds hby with hfy | hay
    · exact .inl (.inr (.inr ⟨hfx, hfy⟩))
    · exact .inl (.inl ⟨hfx, hay⟩)
    · exact .inl (.inr (.inl ⟨hfy, hax⟩))
    · exact .inr ⟨⟨hax, hay⟩, trivial⟩
  rcases hrun.since (P := fun v => v.Holds k x ∧ v.Holds l y) hstep
    ⟨hx, hy⟩ with ⟨hfirst, -⟩ | ⟨a, b, before, m, after, rfl, hbefore, hbrings, -⟩
  · exact absurd hfirst.1 (not_holds_start k x)
  · exact ⟨a, before, m, after, rfl, hbefore, hbrings⟩

/-- A scan that lists no URI twice finds one of two files with one URI, so the other one is held. -/
theorem Run.found_beside (hrun : Run promise (start now config keyOf listing) ms w)
    (hlistings : ∀ who listed snapshot, .resume who (.listed (.ok listed) snapshot) ∈ ms →
      (listed.map (·.uri)).Nodup)
    (hx : w.Holds k x) (hy : w.Holds l y) (hne : k ≠ l) (huri : x.uri = y.uri) :
    ∃ a before m after, ms = before ++ m :: after ∧
      Run promise (start now config keyOf listing) before a ∧
      (a.FindsBeside m x y ∨ a.FindsBeside m y x) := by
  obtain ⟨a, before, m, after, rfl, hbefore, hfound⟩ := hrun.found_together hx hy
  refine ⟨a, before, m, after, rfl, hbefore, ?_⟩
  rcases hfound with ⟨hfx, hay⟩ | ⟨hfy, hax⟩ | ⟨hfx, hfy⟩
  · exact .inl ⟨k, l, hne, hfx, hay⟩
  · exact .inr ⟨l, k, hne.symm, hfy, hax⟩
  · -- one listing, one URI, one file: it has one key
    obtain ⟨who, idle, listed, snapshot, c, rfl, -, hselect, hc⟩ := hfx
    obtain ⟨_, _, _, _, c', heq, -, hselect', hc'⟩ := hfy
    cases heq
    have hnodup : (listed.map (·.uri)).Nodup := hlistings who listed snapshot (by simp)
    obtain ⟨hmemx, hkx⟩ := Candidates.mem_of_select hselect hc
    obtain ⟨hmemy, hky⟩ := Candidates.mem_of_select hselect' hc'
    cases List.inj_on_of_nodup_map hnodup hmemx hmemy huri
    exact absurd (Except.ok.inj (hkx.symm.trans hky)) hne

/-- If the monitor may not reconfigure, no file is handed out where a scan finds one. -/
theorem FindsBeside.isEmpty_scheduled {m : Move ι} (h : w.FindsBeside m x y) (hw : w.OneBatch) :
    w.monitor.scheduled.isEmpty = true := by
  obtain ⟨_, _, -, ⟨who, idle, _, _, _, -, hlisting, -⟩, -⟩ := h
  exact hw.idle who _ hlisting rfl

end Runs

/-! ## 2. Batches -/

/-- **The files of a batch** are held when it is built, each under a key of its own. -/
theorem files_of_reply {w : Interplay ι} {m : Move ι} {groups : List (List Uri)}
    {R : Metadata → Metadata → Prop}
    (hreply : (w.turn? m).map Turn.next = some (.finished (.groups groups)))
    (hsymm : ∀ {x y : Metadata}, R x y → R y x)
    (hR : ∀ {k l : PartitionKey} {x y : Metadata}, k ≠ l → w.Holds k x → w.Holds l y → R x y) :
    ∃ files : List Metadata, groups.flatten = files.map (·.uri) ∧
      (∀ file ∈ files, ∃ k, w.Holds k file) ∧ files.Pairwise R := by
  have hcases : groups = [] ∨ ∃ g f, groups = Groups.byAge (w.monitor.proposed f).values g := by
    cases m with
    | begin who call =>
      exact .inl (Monitor.groups_begin w.monitor w.now (Option.some.inj hreply))
    | resume who answer =>
      obtain ⟨t, ht, hnext⟩ := Option.map_eq_some_iff.1 hreply
      obtain ⟨stage, -, rfl⟩ := Option.map_eq_some_iff.1 ht
      exact Monitor.groups_of_reply w.monitor w.now hnext
    | pass | hear | ask | drop => cases hreply
  rcases hcases with rfl | ⟨g, f, rfl⟩
  · exact ⟨[], rfl, by simp, .nil⟩
  rcases Nat.eq_zero_or_pos g with rfl | hg
  · rw [Groups.byAge_zero]
    exact ⟨[], rfl, by simp, .nil⟩
  · have hperm := List.mergeSort_perm (w.monitor.proposed f).values Metadata.precedes
    refine ⟨_, Groups.flatten_byAge _ hg, fun file hfile => ?_, ?_⟩
    · obtain ⟨⟨k, _⟩, hentry, rfl⟩ := List.mem_map.1 (hperm.mem_iff.1 hfile)
      exact ⟨k, Monitor.held_of_proposed ((Catalog.mem_entries_iff _).1 hentry)⟩
    · refine (hperm.pairwise_iff hsymm).2 (Catalog.pairwise_values fun hne hx hy => ?_)
      exact hR hne (Monitor.held_of_proposed hx) (Monitor.held_of_proposed hy)

/-- **Two units of work:** files that differ in something that is selected.  If they have one URI,
    a scan found one of them while the other one waited or was handed out; it waited if the monitor
    may not reconfigure. -/
def TwoUnits (promise : Stage → Answer → Prop) (first : Interplay ι) (p : KeyPolicy)
    (ms : List (Move ι)) (x y : Metadata) : Prop :=
  (∃ c ∈ p.attributes, ¬c.Agrees x y) ∧
    (x.uri = y.uri → ∃ a before m after, ms = before ++ m :: after ∧ Run promise first before a ∧
      (a.FindsBeside m x y ∨ a.FindsBeside m y x) ∧
      (first.monitor.config.reconfigurationAfterTimeoutMs = none →
        a.monitor.scheduled.isEmpty = true))

theorem TwoUnits.symm {first : Interplay ι} {p : KeyPolicy} {ms : List (Move ι)} {x y : Metadata}
    (h : TwoUnits promise first p ms x y) : TwoUnits promise first p ms y x := by
  obtain ⟨⟨c, hc, hdiffer⟩, hagain⟩ := h
  refine ⟨⟨c, hc, fun h => hdiffer h.symm⟩, fun huri => ?_⟩
  obtain ⟨a, before, m, after, hms, hbefore, hbeside, hnone⟩ := hagain huri.symm
  exact ⟨a, before, m, after, hms, hbefore, hbeside.symm, hnone⟩

/-- **What a batch names:** files of which any two are two units of work.  With a policy that
    selects nothing but URI, name and path, and files that have the names of their URIs, it names
    no URI twice. -/
theorem batch_versions (promise : Stage → Answer → Prop) (now : Nat) (config : Config)
    (p : KeyPolicy) (listing : String) {w : Interplay ι} {ms : List (Move ι)} {m : Move ι}
    {groups : List (List Uri)} (hrun : Run promise (start now config p.keyOf listing) ms w)
    (hreply : (w.turn? m).map Turn.next = some (.finished (.groups groups)))
    (hlistings : ∀ who listed snapshot, .resume who (.listed (.ok listed) snapshot) ∈ ms →
      (listed.map (·.uri)).Nodup) :
    (∃ files : List Metadata, groups.flatten = files.map (·.uri) ∧
      (∀ file ∈ files, Listed ms file) ∧
      files.Pairwise (TwoUnits promise (start now config p.keyOf listing) p ms)) ∧
    ((∀ file, Listed ms file → Metadata.nameOf? file.uri = some file.name) →
      (∀ c ∈ p.attributes, c = .uri ∨ c = .name ∨ c = .path) → groups.flatten.Nodup) := by
  have hunits {k l : PartitionKey} {x y : Metadata} (hne : k ≠ l) (hx : w.Holds k x)
      (hy : w.Holds l y) : TwoUnits promise (start now config p.keyOf listing) p ms x y := by
    constructor
    · by_contra hall
      push Not at hall
      exact hne (KeyPolicy.keyOf_congr (hrun.listed_of_holds hx).2 (hrun.listed_of_holds hy).2 hall)
    · intro huri
      obtain ⟨a, before, m', after, hms, hbefore, hbeside⟩ :=
        hrun.found_beside hlistings hx hy hne huri
      refine ⟨a, before, m', after, hms, hbefore, hbeside, fun hnone => ?_⟩
      have ha : a.OneBatch := hbefore.keeps Step.oneBatch (.start now p.keyOf listing hnone)
      rcases hbeside with hfinds | hfinds
      · exact hfinds.isEmpty_scheduled ha
      · exact hfinds.isEmpty_scheduled ha
  obtain ⟨files, hfiles, hheld, hpair⟩ := files_of_reply hreply TwoUnits.symm hunits
  have hlisted : ∀ file ∈ files, Listed ms file := by
    intro file hfile
    obtain ⟨k, hk⟩ := hheld file hfile
    exact (hrun.listed_of_holds hk).1
  refine ⟨⟨files, hfiles, hlisted, hpair⟩, fun hnames hselects => ?_⟩
  rw [hfiles]
  refine List.pairwise_map.2 (hpair.imp_of_mem fun {x y} hx hy hxy huri => ?_)
  -- the two would agree on everything that is selected
  obtain ⟨⟨c, hc, hdiffer⟩, -⟩ := hxy
  have hname : some x.name = some y.name := by
    rw [← hnames x (hlisted x hx), ← hnames y (hlisted y hy), huri]
  exact hdiffer (Attribute.agrees_of_uri (hselects c hc) huri (Option.some.inj hname))

/-- A pull that settles replies with what it proposes. -/
theorem reply_of_settles {w : Interplay ι} {who : ι} {g f attempt : Nat}
    (hpull : w.calls.get? who = some (.pullSync g f attempt)) (hquiet : w.monitor.changed = false)
    (result : Except StoreError Snapshot) :
    (w.turn? (.resume who (.refreshed result))).map Turn.next =
      some (.finished (.groups (Groups.byAge (w.monitor.proposed f).values g))) := by
  show ((w.calls.get? who).map fun s => w.monitor.resume w.now s (.refreshed result)).map
    Turn.next = _
  rw [hpull]
  exact congrArg some (Monitor.pullSynced_settled w.monitor g f attempt result hquiet).2

def modifiedAt (second : Int) : Metadata :=
  ⟨⟨"file", none, "/a", none, none⟩, "a", 1, ⟨second, 0⟩, none⟩

def firstMoves : List (Move Nat) := foundMoves [modifiedAt 1] ++ pullMoves 2 1 1

def changeMoves : List (Move Nat) :=
  firstMoves ++
    .resume 2 (.refreshed (.ok .empty)) :: (scanMoves 1 [modifiedAt 2] .empty ++ pullMoves 2 1 1)

theorem listed_of_scanMoves {i j who : Nat} {files listed : List Metadata} {snapshot : Snapshot}
    (h : .resume who (.listed (.ok listed) snapshot) ∈
      scanMoves i files .empty ++ pullMoves j 1 1) :
    listed = files := by
  obtain ⟨-, hfiles, -⟩ : who = i ∧ listed = files ∧ snapshot = .empty := by
    simpa [scanMoves, tickMoves, pullMoves, askMoves] using h
  exact hfiles

theorem listed_of_firstMoves {who : Nat} {listed : List Metadata} {snapshot : Snapshot}
    (h : .resume who (.listed (.ok listed) snapshot) ∈ firstMoves) : listed = [modifiedAt 1] :=
  listed_of_scanMoves ((List.mem_cons.1 h).resolve_left nofun)

theorem nodup_of_changeMoves (who : Nat) (listed : List Metadata) (snapshot : Snapshot)
    (h : .resume who (.listed (.ok listed) snapshot) ∈ changeMoves) :
    (listed.map (·.uri)).Nodup := by
  rcases List.mem_append.1 h with hfirst | hlater
  · rw [listed_of_firstMoves hfirst]
    exact List.nodup_singleton _
  · rw [listed_of_scanMoves ((List.mem_cons.1 hlater).resolve_left nofun)]
    exact List.nodup_singleton _

/-- A batch of two versions, which the time of modification tells apart; and a batch of a policy
    that selects the URI. -/
theorem batch_versions_changed :
    let promise : Stage → Answer → Prop := fun _ _ => true = true
    let config : Config := { reconfigurationAfterTimeoutMs := some 0 }
    let p : KeyPolicy := ⟨[.name, .lastModified]⟩
    let first : Interplay Nat := start 0 config p.keyOf "files"
    let m : Move Nat := .resume 2 (.refreshed (.ok .empty))
    (∃ w groups, ∃ files : List Metadata, Run promise first changeMoves w ∧
      (w.turn? m).map Turn.next = some (.finished (.groups groups)) ∧
      groups.flatten = files.map (·.uri) ∧ files.length = 2 ∧
      files.Pairwise (TwoUnits promise first p changeMoves)) ∧
    ∃ w groups, Run promise (start 0 config KeyPolicy.byUri.keyOf "files") firstMoves w ∧
      (w.turn? m).map Turn.next = some (.finished (.groups groups)) ∧ groups.flatten.Nodup := by
  intro promise config p first m
  constructor
  · let w := (first.moves? (fun _ _ => true) changeMoves).get (by decide +kernel)
    have hrun : Run promise first changeMoves w := .of_moves? (Option.some_get _).symm
    have hpull : w.calls.get? 2 = some (.pullSync 1 1 1) := by decide +kernel
    have hquiet : w.monitor.changed = false := by decide +kernel
    have hreply := reply_of_settles hpull hquiet (.ok .empty)
    obtain ⟨⟨files, hfiles, -, hpair⟩, -⟩ :=
      batch_versions promise 0 config p "files" hrun hreply nodup_of_changeMoves
    refine ⟨w, _, files, hrun, hreply, hfiles, ?_, hpair⟩
    rw [Groups.flatten_byAge _ Nat.one_pos] at hfiles
    have hlength := congrArg List.length hfiles
    rw [List.length_map, List.length_map, List.length_mergeSort] at hlength
    rw [← hlength]
    decide +kernel
  · let w := ((start 0 config KeyPolicy.byUri.keyOf "files" : Interplay Nat).moves?
      (fun _ _ => true) firstMoves).get (by decide +kernel)
    have hrun : Run promise (start 0 config KeyPolicy.byUri.keyOf "files") firstMoves w :=
      .of_moves? (Option.some_get _).symm
    have hpull : w.calls.get? 2 = some (.pullSync 1 1 1) := by decide +kernel
    have hquiet : w.monitor.changed = false := by decide +kernel
    have hreply := reply_of_settles hpull hquiet (.ok .empty)
    have honce : ∀ who listed snapshot, .resume who (.listed (.ok listed) snapshot) ∈ firstMoves →
        (listed.map (·.uri)).Nodup := by
      intro who listed snapshot h
      rw [listed_of_firstMoves h]
      exact List.nodup_singleton _
    obtain ⟨-, hnodup⟩ :=
      batch_versions promise 0 config KeyPolicy.byUri "files" hrun hreply honce
    refine ⟨w, _, hrun, hreply, hnodup ?_ (by decide)⟩
    rintro file ⟨who, listed, snapshot, hmem, hfile⟩
    rw [listed_of_firstMoves hmem, List.mem_singleton] at hfile
    rw [hfile]
    decide +kernel

/-- **A batch may name a file twice:** one that was changed while it is handed out, if its time of
    modification is selected. -/
theorem batch_names_again :
    let promise : Stage → Answer → Prop := fun _ _ => true = true
    let p : KeyPolicy := ⟨[.name, .lastModified]⟩
    let first : Interplay Nat := start 0 { reconfigurationAfterTimeoutMs := some 0 } p.keyOf "files"
    ∃ w groups, Run promise first changeMoves w ∧
      (∀ who listed snapshot, .resume who (.listed (.ok listed) snapshot) ∈ changeMoves →
        (listed.map (·.uri)).Nodup) ∧
      (w.turn? (.resume 2 (.refreshed (.ok .empty)))).map Turn.next =
        some (.finished (.groups groups)) ∧ ¬groups.flatten.Nodup := by
  intro promise p first
  let w := (first.moves? (fun _ _ => true) changeMoves).get (by decide +kernel)
  have hrun : Run promise first changeMoves w := .of_moves? (Option.some_get _).symm
  have hpull : w.calls.get? 2 = some (.pullSync 1 1 1) := by decide +kernel
  have hquiet : w.monitor.changed = false := by decide +kernel
  have htwice : ¬((w.monitor.proposed 1).values.map (·.uri)).Nodup := by decide +kernel
  refine ⟨w, _, hrun, nodup_of_changeMoves, reply_of_settles hpull hquiet _, ?_⟩
  rw [Groups.flatten_byAge _ Nat.one_pos, ((List.mergeSort_perm _ _).map _).nodup_iff]
  exact htwice

end Interplay

end Intake
