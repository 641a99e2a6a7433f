import Intake.Proofs.Custody
import Intake.Proofs.Signal

/-!
# Apart — files that wait and files that are handed out

A pull stages what waits, and forgets what waits in the turn in which it ends; so no pull leaves a
key that waits and is handed out.  A scan can: next to files that are handed out it publishes its
candidates as a whole, among them those that are worked on (`Interplay.rescan_overlaps`).  This is
the only way (`Interplay.overlaps_of_rescan`), and a monitor that may not reconfigure never takes
it.
-/

namespace Intake

namespace Monitor

/-! ## 1. Scans behind the gate -/

/-- **What a scan knows behind the gate.**  One that calls itself idle: no file is handed out.  Any
    other: the monitor may reconfigure. -/
def ScanFits (m : Monitor) : Stage → Prop
  | .scanSync idle | .scanListing idle =>
    if idle then m.scheduled.isEmpty = true
    else m.config.reconfigurationAfterTimeoutMs ≠ none
  | _ => True

theorem scanFits_of_not_holdsGate {m : Monitor} {stage : Stage} (h : stage.holdsGate = false) :
    m.ScanFits stage := by
  cases stage
  case scanSync idle => cases h
  case scanListing idle => cases h
  all_goals trivial

/-- What a scan knows stays known while no file is handed out that was not before. -/
theorem ScanFits.mono {a b : Monitor} {stage : Stage} (h : a.ScanFits stage)
    (hsettings : b.settings = a.settings)
    (hempty : a.scheduled.isEmpty = true → b.scheduled.isEmpty = true) : b.ScanFits stage := by
  have hconfig : b.config = a.config := congrArg Prod.fst hsettings
  have hidle : ∀ idle : Bool,
      (if idle then a.scheduled.isEmpty = true
        else a.config.reconfigurationAfterTimeoutMs ≠ none) →
      if idle then b.scheduled.isEmpty = true
        else b.config.reconfigurationAfterTimeoutMs ≠ none := by
    intro idle h
    rw [hconfig]
    cases idle with
    | true => exact hempty h
    | false => exact h
  cases stage
  case scanSync idle => exact hidle idle h
  case scanListing idle => exact hidle idle h
  all_goals trivial

theorem scanFits_scanEntered {m : Monitor} {stage : Stage}
    (h : m.scanEntered.next = .waiting stage) : m.ScanFits stage := by
  unfold scanEntered at h
  split at h
  next hmay =>
    cases h
    show if m.scheduled.isEmpty = true then m.scheduled.isEmpty = true
      else m.config.reconfigurationAfterTimeoutMs ≠ none
    cases hout : m.scheduled.isEmpty with
    | true => rfl
    | false =>
      -- next to files that are handed out only a monitor that may reconfigure scans
      rw [mayScan, hout, Bool.false_or, Option.isSome_iff_ne_none] at hmay
      exact hmay
  next => cases h

/-- **Where a turn leads,** a scan knows what it is to know, if it did before. -/
theorem ScanFits.resume {m : Monitor} {now : Nat} {stage stage' : Stage} {answer : Answer}
    (h : m.ScanFits stage) (hnext : (m.resume now stage answer).next = .waiting stage') :
    (m.resume now stage answer).monitor.ScanFits stage' := by
  cases hholds : stage'.holdsGate with
  | false => exact scanFits_of_not_holdsGate hholds
  | true =>
    cases hs : stage.holdsGate with
    | false =>
      -- let in just now: the scan looks at what is handed out
      have hbehind : (m.resume now stage answer).next.holdsGate = true := by
        rw [hnext]
        exact hholds
      obtain ⟨rfl, ⟨rfl, -⟩ | ⟨g, f, rfl, hfiles⟩⟩ := holdsGate_resume m now hs hbehind
      · have hunmoved := Unmoved.scanEntered m
        have hfits : m.ScanFits stage' := scanFits_scanEntered hnext
        refine hfits.mono hunmoved.settings ?_
        intro hnone
        show m.scanEntered.monitor.scheduled.isEmpty = true
        rw [hunmoved.scheduled, hnone]
      · -- a pull that is let in begins its first attempt
        change (m.pullEntered g f).next = _ at hnext
        simp only [pullEntered, hfiles] at hnext
        cases hnext
        trivial
    | true =>
      -- behind the gate nothing is handed out, and settings stay
      have hbehind := m.behind_resume now answer hs
      generalize m.resume now stage answer = t at hbehind hnext ⊢
      cases hbehind with
      | scanSynced idle result =>
        have hunmoved := Unmoved.scanSynced m idle result
        have hfits : m.ScanFits stage' := by
          simp only [scanSynced, synced_eq] at hnext
          split at hnext <;> cases hnext
          exact h
        refine hfits.mono hunmoved.settings ?_
        intro hnone
        rw [hunmoved.scheduled, hnone]
      | scanListed idle result snapshot =>
        rw [next_scanListed] at hnext
        cases hnext
      | pullSynced g f attempt result =>
        rcases m.pullSynced_cases g f attempt result with
          ⟨-, -, hn⟩ | ⟨-, -, -, hn⟩ | ⟨-, -, -, hn⟩
        · cases hn.symm.trans hnext
        · cases hn.symm.trans hnext
          trivial
        · cases hn.symm.trans hnext
      | brokenDown => cases hnext
      | waiting =>
        cases hnext
        exact h

end Monitor

namespace Interplay

variable {ι : Type} [DecidableEq ι] {promise : Stage → Answer → Prop}

structure ScansFit (w : Interplay ι) : Prop where
  guarded : w.Guarded
  fits : ∀ who stage, w.calls.get? who = some stage → w.monitor.ScanFits stage

theorem ScansFit.start (now : Nat) (config : Config) (keyOf : KeyRule) (listing : String) :
    (start now config keyOf listing : Interplay ι).ScansFit where
  guarded := .start now config keyOf listing
  fits _ _ h := by simp [Interplay.start] at h

theorem Step.scansFit {a b : Interplay ι} {m : Move ι} (h : Step promise a m b)
    (ha : a.ScansFit) : b.ScansFit := by
  refine ⟨h.guarded ha.guarded, ?_⟩
  intro other stage' hstage
  cases h with
  | pass => exact ha.fits other stage' hstage
  | hear e =>
    have hfits := ha.fits other stage' hstage
    exact hfits.mono (a.monitor.settings_observe e) (Monitor.isEmpty_scheduled_observe · e)
  | @begin who call idle =>
    have hunmoved := Monitor.Unmoved.begin a.monitor a.now call
    rcases waiting_of_play hstage with ⟨-, hnext⟩ | ⟨-, hbefore⟩
    · apply Monitor.scanFits_of_not_holdsGate
      have houtside := a.monitor.holdsGate_begin a.now call
      rw [hnext] at houtside
      exact houtside
    · refine (ha.fits other stage' hbefore).mono hunmoved.settings ?_
      intro hnone
      show (a.monitor.begin a.now call).monitor.scheduled.isEmpty = true
      rw [hunmoved.scheduled, hnone]
  | ask => exact ha.fits other stage' hstage
  | @resume who stage answer waits meets ready promised =>
    rcases waiting_of_play hstage with ⟨-, hnext⟩ | ⟨hne, hbefore⟩
    · exact (ha.fits who stage waits).resume hnext
    · cases hholds : stage'.holdsGate with
      | false => exact Monitor.scanFits_of_not_holdsGate hholds
      | true =>
        -- while another call is behind the gate this one is not
        have houtside : stage.holdsGate = false := by
          rw [Bool.eq_false_iff]
          intro hs
          exact hne (ha.guarded.eq hbefore hholds waits hs)
        have hunmoved := Monitor.Unmoved.resume a.monitor a.now answer houtside
        refine (ha.fits other stage' hbefore).mono hunmoved.settings ?_
        intro hnone
        show (a.monitor.resume a.now stage answer).monitor.scheduled.isEmpty = true
        rw [hunmoved.scheduled, hnone]
  | @drop who stage waits => exact ha.fits other stage' (Catalog.get?_of_erase hstage)

/-! ## 2. Where files come from -/

def Finds (w : Interplay ι) (m : Move ι) (k : PartitionKey) (file : Metadata) : Prop :=
  ∃ who idle listed snapshot candidates, m = .resume who (.listed (.ok listed) snapshot) ∧
    w.calls.get? who = some (.scanListing idle) ∧
    Candidates.select w.monitor.keyOf snapshot listed = .ok candidates ∧
    candidates.get? k = some file

/-- **A file that waits** behind a step waited before, or a scan finds it. -/
theorem Step.found_or_waited {a b : Interplay ι} {m : Move ι} {k : PartitionKey} {file : Metadata}
    (h : Step promise a m b) (hb : b.monitor.scanned.get? k = some file) :
    a.Finds m k file ∨ a.monitor.scanned.get? k = some file := by
  cases h with
  | pass => exact .inr hb
  | hear e => exact .inr (Monitor.get?_scanned_of_observe hb)
  | @begin who call idle =>
    change (a.monitor.begin a.now call).monitor.scanned.get? k = some file at hb
    rw [(Monitor.Unmoved.begin a.monitor a.now call).scanned] at hb
    exact .inr hb
  | ask => exact .inr hb
  | @resume who stage answer waits meets ready promised =>
    change (a.monitor.resume a.now stage answer).monitor.scanned.get? k = some file at hb
    rcases a.monitor.scanned_resume a.now stage answer with
      hkept | hforgotten | ⟨idle, listed, snapshot, c, rfl, rfl, hselect, hscanned⟩
    · rw [hkept] at hb
      exact .inr hb
    · rw [hforgotten] at hb
      cases hb
    · rw [hscanned, Catalog.get?_insertAll_entries, Option.or_eq_some_iff] at hb
      rcases hb with hfound | ⟨-, hbefore⟩
      · exact .inl ⟨who, idle, listed, snapshot, c, rfl, waits, hselect, hfound⟩
      · exact .inr hbefore
  | drop => exact .inr hb

/-- **A file that is handed out** behind a step was handed out before, or waited for it; then no
    file waits any more. -/
theorem Step.out_or_waited {a b : Interplay ι} {m : Move ι} {k : PartitionKey} {file : Metadata}
    (h : Step promise a m b) (hb : b.monitor.scheduled.get? k = some file) :
    a.monitor.scheduled.get? k = some file ∨
      a.monitor.scanned.get? k = some file ∧ b.monitor.scanned = .empty := by
  cases h with
  | pass => exact .inl hb
  | hear e => exact .inl (Monitor.get?_scheduled_of_observe hb)
  | @begin who call idle =>
    change (a.monitor.begin a.now call).monitor.scheduled.get? k = some file at hb
    rw [(Monitor.Unmoved.begin a.monitor a.now call).scheduled] at hb
    exact .inl hb
  | ask => exact .inl hb
  | @resume who stage answer waits meets ready promised =>
    change (a.monitor.resume a.now stage answer).monitor.scheduled.get? k = some file at hb
    rcases a.monitor.handedOut_resume a.now stage answer with
      hsame | ⟨_, f, _, _, -, -, hscanned, -, ⟨-, hm⟩ | ⟨-, -, hm⟩⟩
    · rw [hsame] at hb
      exact .inl hb
    · rw [hm] at hb
      rcases Monitor.held_of_proposed hb with hwaited | hout
      · exact .inr ⟨hwaited, hscanned⟩
      · exact .inl hout
    · rw [hm] at hb
      cases hb
  | drop => exact .inl hb

/-! ## 3. Keys that wait and are handed out -/

/-- **A key overlaps:** it waits to be handed out, and is handed out. -/
def Overlaps (w : Interplay ι) (k : PartitionKey) : Prop :=
  w.monitor.scanned.get? k ≠ none ∧ w.monitor.scheduled.get? k ≠ none

instance (w : Interplay ι) (k : PartitionKey) : Decidable (w.Overlaps k) :=
  inferInstanceAs (Decidable (_ ∧ _))

/-- **A scan publishes a key again** that is handed out; `idle` says whether it found no file handed
    out when it began. -/
def Republishes (w : Interplay ι) (m : Move ι) (idle : Bool) (k : PartitionKey) : Prop :=
  ∃ who listed snapshot candidates, m = .resume who (.listed (.ok listed) snapshot) ∧
    w.calls.get? who = some (.scanListing idle) ∧
    Candidates.select w.monitor.keyOf snapshot listed = .ok candidates ∧
    candidates.get? k ≠ none ∧ w.monitor.scheduled.get? k ≠ none

/-- **A key that overlaps** behind a step did so before, or a scan publishes it again. -/
theorem Step.overlaps {a b : Interplay ι} {m : Move ι} {k : PartitionKey}
    (h : Step promise a m b) (hb : b.Overlaps k) :
    (∃ idle, a.Republishes m idle k) ∨ a.Overlaps k := by
  obtain ⟨x, hx⟩ := Option.ne_none_iff_exists'.1 hb.1
  obtain ⟨y, hy⟩ := Option.ne_none_iff_exists'.1 hb.2
  rcases h.out_or_waited hy with hout | ⟨-, hforgotten⟩
  · have hout' : a.monitor.scheduled.get? k ≠ none := hout ▸ Option.some_ne_none y
    rcases h.found_or_waited hx with
      ⟨who, idle, listed, snapshot, c, hm, waits, hselect, hfound⟩ | hwaits
    · have hfound' : c.get? k ≠ none := hfound ▸ Option.some_ne_none x
      exact .inl ⟨idle, who, listed, snapshot, c, hm, waits, hselect, hfound', hout'⟩
    · exact .inr ⟨hwaits ▸ Option.some_ne_none x, hout'⟩
  · -- a pull that hands something out leaves nothing waiting
    rw [hforgotten] at hx
    cases hx

/-- **Only a rescan makes a key overlap.**  If a key waits while it is handed out, the monitor may
    reconfigure; a scan that began next to files that were handed out published the key again; and
    since then the key waits and is handed out, and no pull ended. -/
theorem overlaps_of_rescan (promise : Stage → Answer → Prop) (now : Nat) (config : Config)
    (keyOf : KeyRule) (listing : String) {w : Interplay ι} {ms : List (Move ι)} {k : PartitionKey}
    (hrun : Run promise (start now config keyOf listing) ms w) (hover : w.Overlaps k) :
    config.reconfigurationAfterTimeoutMs ≠ none ∧
    ∃ p q before m after, ms = before ++ m :: after ∧
      Run promise (start now config keyOf listing) before p ∧ p.Republishes m false k ∧
      Step promise p m q ∧ q.Overlaps k ∧
      Throughout promise (fun v m' => v.Overlaps k ∧ ¬v.TakesBack m') q after w := by
  have hstep : ∀ {p q : Interplay ι} {m : Move ι}, Step promise p m q → q.Overlaps k →
      (∃ idle, p.Republishes m idle k) ∨ p.Overlaps k ∧ p.Overlaps k ∧ ¬p.TakesBack m := by
    intro p q m hpq hq
    rcases hpq.overlaps hq with hagain | hp
    · exact .inl hagain
    · refine .inr ⟨hp, hp, ?_⟩
      intro hends
      have hnothing := (Catalog.isEmpty_iff _).1 (hpq.takesBack hends).1
      exact hq.1 (hnothing k)
  rcases hrun.since (P := fun v => v.Overlaps k) hstep hover with
    ⟨hfirst, -⟩ | ⟨p, q, before, m, after, rfl, hbefore, ⟨idle, hagain⟩, hrest⟩
  · exact absurd (Catalog.get?_empty k) hfirst.1
  · have hp : p.ScansFit := hbefore.keeps Step.scansFit (.start now config keyOf listing)
    have hconfig : p.monitor.config = config := congrArg Prod.fst hbefore.settings
    obtain ⟨who, listed, snapshot, c, hm, hlisting, hselect, hk, hout⟩ := hagain
    have hfits := hp.fits who _ hlisting
    cases idle with
    | true =>
      -- a scan that began without such files finds none until it publishes
      exact absurd ((Catalog.isEmpty_iff _).1 hfits k) hout
    | false =>
      refine ⟨?_, p, q, before, m, after, rfl, hbefore,
        ⟨who, listed, snapshot, c, hm, hlisting, hselect, hk, hout⟩, hrest⟩
      rw [← hconfig]
      exact hfits

def rescanMoves : List (Move Nat) :=
  let file (name : String) : Metadata := ⟨⟨"file", none, "/" ++ name, none, none⟩, name, 1,
    default, none⟩
  foundMoves [file "a"] ++ pullMoves 2 1 1 ++ [.resume 2 (.refreshed (.ok .empty))] ++
    scanMoves 1 [file "a", file "b"] .empty

/-- The rescan is over, a third pull has come, and news say that the other file is completed: the
    first one still waits and is handed out. -/
theorem overlaps_of_rescan_meanwhile :
    let promise : Stage → Answer → Prop := fun _ _ => true = true
    let first : Interplay Nat := start 0 { reconfigurationAfterTimeoutMs := some 0 }
      (fun m => .ok ⟨m.name⟩) "files"
    let done : Record := .new ⟨⟨"file", none, "/b", none, none⟩, "b", 1, default, none⟩ .completed
    let ms : List (Move Nat) := rescanMoves ++ pullMoves 3 1 1 ++ [.hear ⟨⟨"b"⟩, some done⟩]
    ∃ w, Run promise first ms w ∧ w.Overlaps ⟨"a"⟩ ∧
      ∃ p q before m after, ms = before ++ m :: after ∧ Run promise first before p ∧
        p.Republishes m false ⟨"a"⟩ ∧ Step promise p m q ∧ q.Overlaps ⟨"a"⟩ ∧
        Throughout promise (fun v m' => v.Overlaps ⟨"a"⟩ ∧ ¬v.TakesBack m') q after w := by
  intro promise first done ms
  let w := (first.moves? (fun _ _ => true) ms).get (by decide +kernel)
  have hrun : Run promise first ms w := .of_moves? (Option.some_get _).symm
  have hover : w.Overlaps ⟨"a"⟩ := by decide +kernel
  obtain ⟨-, hrescan⟩ := overlaps_of_rescan promise 0 { reconfigurationAfterTimeoutMs := some 0 }
    (fun m => .ok ⟨m.name⟩) "files" hrun hover
  exact ⟨w, hrun, hover, hrescan⟩

/-- **A rescan makes a key overlap** while nobody holds the gate: the file that is handed out is
    published again next to a new one. -/
theorem rescan_overlaps :
    let promise : Stage → Answer → Prop := fun _ _ => true = true
    let first : Interplay Nat := start 0 { reconfigurationAfterTimeoutMs := some 0 }
      (fun m => .ok ⟨m.name⟩) "files"
    ∃ w, Run promise first rescanMoves w ∧ w.gate.holder = none ∧
      w.monitor.scanned.get? ⟨"a"⟩ ≠ none ∧ w.monitor.scheduled.get? ⟨"a"⟩ ≠ none := by
  intro promise first
  let w := (first.moves? (fun _ _ => true) rescanMoves).get (by decide +kernel)
  have hrun : Run promise first rescanMoves w := .of_moves? (Option.some_get _).symm
  have hfree : w.gate.holder = none := by decide +kernel
  have hover : w.Overlaps ⟨"a"⟩ := by decide +kernel
  exact ⟨w, hrun, hfree, hover⟩

end Interplay

end Intake
