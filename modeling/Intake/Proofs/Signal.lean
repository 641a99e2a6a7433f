import Intake.Proofs.Scan

/-!
# Signal — what waits was announced

A scan that publishes while the monitor is running asks the host to pull in the same turn, and a
pull takes the request back in the turn in which it forgets the scan.  Between them scans may
overlap, and news may take files from those that wait; but no file waits without a request, and
since that request was made no pull took it back (`Interplay.published_signalled`).  Before the
first pull nothing is scanned at all, so the start of a monitor leaves no file unannounced.
-/

namespace Intake

namespace Stage

def isScan : Stage → Bool
  | scanGate => true
  | scanSync _ => true
  | scanListing _ => true
  | _ => false

end Stage

namespace Monitor

/-! ## 1. Phases -/

/-- **The first turn** of a call keeps the phase, starts the monitor, or stops it. -/
theorem phase_begin (m : Monitor) (now : Nat) (call : Call) :
    (m.begin now call).monitor.phase = m.phase ∨
      m.phase = .notStarted ∧ (m.begin now call).monitor.phase = .running ∨
      (m.begin now call).monitor.phase = .stopped := by
  cases call with
  | startup => exact .inl rfl
  | tick =>
    left
    simp only [begin, beginTick, scanIfRunning]
    split
    · split <;> rfl
    · rfl
  | pull g f =>
    simp only [begin, beginPull]
    split
    next hphase => exact .inr (.inl ⟨hphase, rfl⟩)
    next => exact .inl rfl
    next => exact .inl rfl
  | cleanup =>
    left
    simp only [begin]
    split <;> rfl
  | sync t => exact .inl rfl
  | close =>
    simp only [begin, beginClose]
    split
    · exact .inl rfl
    · exact .inr (.inr rfl)

theorem phase_publishAndRequest (m : Monitor) (c : Catalog PartitionKey Metadata) :
    (m.publishAndRequest c).monitor.phase = m.phase := by
  simp only [publishAndRequest]
  split <;> rfl

/-- **Later turns keep the phase.** -/
theorem phase_resume (m : Monitor) (now : Nat) (stage : Stage) (answer : Answer) :
    (m.resume now stage answer).monitor.phase = m.phase := by
  unfold Monitor.resume
  split
  case h_1 => simp only [synced_eq]; rfl
  case h_2 =>
    simp only [tidied_eq, scanIfRunning, Turn.monitor_after]
    split <;> rfl
  case h_3 => unfold scanEntered; split <;> rfl
  case h_4 => simp only [scanSynced, synced_eq]; split <;> rfl
  case h_5 idle result snapshot =>
    rcases m.scanListed_cases now idle result snapshot with ⟨time, h⟩ | ⟨_, c, _, _, h⟩
    · rw [h]
    · rw [h, phase_publishAndRequest]
  case h_7 => unfold pullEntered; split <;> rfl
  case h_8 g f attempt result =>
    rcases m.pullSynced_cases g f attempt result with
      ⟨-, hm, -⟩ | ⟨-, -, hm, -⟩ | ⟨-, -, hm, -⟩
    · rw [hm]
    · rw [hm]
      rfl
    · rw [hm]
  case h_9 => simp only [tidied_eq]; rfl
  case h_10 => simp only [synced_eq]; rfl
  case h_11 => simp only [closeSynced, synced_eq]; split <;> rfl
  case h_12 => simp only [tidied_eq]; rfl
  all_goals rfl

theorem phase_observe (m : Monitor) (e : LogEntry) : (m.observe e).1.phase = m.phase := by
  fun_cases observe <;> rfl

/-! ## 2. Scans begin only while the monitor is running -/

theorem phase_of_scanIfRunning {m : Monitor} {stage : Stage}
    (h : m.scanIfRunning.next = .waiting stage) : m.phase = .running := by
  unfold scanIfRunning at h
  split at h
  · cases h
  next hno =>
    rw [Bool.or_eq_true, not_or] at hno
    simpa using hno.1

theorem phase_of_isScan_begin {m : Monitor} {now : Nat} {call : Call} {stage : Stage}
    (h : (m.begin now call).next = .waiting stage) (hscan : stage.isScan = true) :
    (m.begin now call).monitor.phase = .running := by
  cases call with
  | startup => cases h; cases hscan
  | tick =>
    simp only [begin, beginTick] at h ⊢
    split at h
    next hnone =>
      rw [if_pos hnone]
      have hrunning := phase_of_scanIfRunning h
      unfold scanIfRunning
      split
      · exact hrunning
      · exact hrunning
    next => cases h; cases hscan
  | pull g f =>
    simp only [begin, beginPull] at h
    split at h <;> cases h
    cases hscan
  | cleanup =>
    simp only [begin] at h
    split at h <;> cases h
    cases hscan
  | sync t => cases h; cases hscan
  | close =>
    simp only [begin, beginClose] at h
    split at h <;> cases h
    cases hscan

/-- **A call comes to scan** behind the cleanup of a tick, if the monitor is running; or it was
    scanning before. -/
theorem isScan_resume {m : Monitor} {now : Nat} {stage stage' : Stage} {answer : Answer}
    (h : (m.resume now stage answer).next = .waiting stage') (hscan : stage'.isScan = true) :
    stage.isScan = true ∨ m.phase = .running := by
  unfold Monitor.resume at h
  split at h
  case h_1 => simp only [synced_eq] at h; cases h
  case h_2 =>
    simp only [tidied_eq, Turn.next_after] at h
    have hrunning := phase_of_scanIfRunning h
    exact .inr hrunning
  case h_3 => exact .inl rfl
  case h_4 => exact .inl rfl
  case h_5 => exact .inl rfl
  case h_6 => cases h; cases hscan
  case h_7 =>
    unfold pullEntered at h
    split at h <;> cases h
    cases hscan
  case h_8 g f attempt result =>
    rcases m.pullSynced_cases g f attempt result with
      ⟨-, -, hn⟩ | ⟨-, -, -, hn⟩ | ⟨-, -, -, hn⟩
    · rw [hn] at h
      cases h
    · rw [hn] at h
      cases h
      cases hscan
    · rw [hn] at h
      cases h
  case h_9 => simp only [tidied_eq] at h; cases h
  case h_10 => simp only [synced_eq] at h; cases h
  case h_11 =>
    simp only [closeSynced, synced_eq] at h
    split at h <;> cases h
    cases hscan
  case h_12 => simp only [tidied_eq] at h; cases h
  -- an answer that does not fit leaves the call where it is
  case h_16 =>
    cases h
    exact .inl hscan
  all_goals cases h

/-! ## 3. Requests -/

/-- **A pull that ends** forgets the scan and the request, whether it found files or not. -/
theorem settled_of_groups (m : Monitor) (now : Nat) {stage : Stage} {answer : Answer}
    {groups : List (List Uri)}
    (h : (m.resume now stage answer).next = .finished (.groups groups)) :
    (m.resume now stage answer).monitor.scanned = .empty ∧
      (m.resume now stage answer).monitor.requested = false := by
  rcases m.pull_of_groups now h with ⟨g, f, rfl, rfl⟩ | ⟨g, f, attempt, result, rfl, rfl⟩
  · change (m.pullEntered g f).next = _ at h
    show (m.pullEntered g f).monitor.scanned = _ ∧ (m.pullEntered g f).monitor.requested = _
    unfold pullEntered at h ⊢
    split at h
    next hnone =>
      rw [if_pos hnone]
      exact ⟨rfl, rfl⟩
    next => cases h
  · change (m.pullSynced g f attempt result).next = _ at h
    show (m.pullSynced g f attempt result).monitor.scanned = _ ∧
      (m.pullSynced g f attempt result).monitor.requested = _
    rcases m.pullSynced_cases g f attempt result with
      ⟨-, hm, -⟩ | ⟨-, -, -, hn⟩ | ⟨-, -, hm, -⟩
    · rw [hm]
      exact ⟨rfl, rfl⟩
    · rw [hn] at h
      cases h
    · rw [hm]
      exact ⟨rfl, rfl⟩

/-- A pull that is let in leaves the request until it ends. -/
theorem requested_pullEntered (m : Monitor) (g f : Nat) :
    (m.pullEntered g f).monitor.requested = m.requested ∨
      (m.pullEntered g f).next = .finished (.groups []) := by
  unfold pullEntered
  split
  · exact .inr rfl
  · exact .inl rfl

/-- **What a turn does about the request.**  It ends a pull; or it publishes what a scan found; or
    it leaves the request, and what waits. -/
theorem signal_resume (m : Monitor) (now : Nat) (stage : Stage) (answer : Answer) :
    (∃ groups, (m.resume now stage answer).next = .finished (.groups groups)) ∨
      (∃ idle, stage = .scanListing idle ∧
        ∃ c, m.resume now stage answer = m.publishAndRequest c) ∨
      (m.resume now stage answer).monitor.scanned = m.scanned ∧
        (m.resume now stage answer).monitor.requested = m.requested := by
  have hquiet : ∀ t, m.Quiet t → t.monitor.scanned = m.scanned ∧
      t.monitor.requested = m.requested :=
    fun t h => ⟨congrArg Prod.snd h.sets, h.requested⟩
  cases hs : stage.holdsGate with
  | false =>
    -- in front of the gate only being let in matters
    by_cases hin : answer = .entered
    · subst hin
      cases stage
      case scanGate => exact .inr (.inr (hquiet _ (.scanEntered m)))
      case pullGate g f =>
        rcases m.requested_pullEntered g f with hsame | hends
        · exact .inr (.inr ⟨(Unmoved.pullEntered m g f).scanned, hsame⟩)
        · exact .inl ⟨[], hends⟩
      all_goals exact .inr (.inr ⟨rfl, rfl⟩)
    · exact .inr (.inr (hquiet _ (.resume m now hs hin)))
  | true =>
    have hbehind := m.behind_resume now answer hs
    generalize m.resume now stage answer = t at hbehind ⊢
    cases hbehind with
    | scanSynced idle result => exact .inr (.inr (hquiet _ (.scanSynced m idle result)))
    | scanListed idle result snapshot =>
      rcases m.scanListed_cases now idle result snapshot with ⟨time, h⟩ | ⟨_, c, _, _, h⟩
      · rw [h]
        exact .inr (.inr ⟨rfl, rfl⟩)
      · exact .inr (.inl ⟨idle, rfl, c, h⟩)
    | pullSynced g f attempt result =>
      rcases m.pullSynced_cases g f attempt result with
        ⟨-, -, hn⟩ | ⟨-, -, hm, -⟩ | ⟨-, -, -, hn⟩
      · exact .inl ⟨_, hn⟩
      · -- what an attempt stages, and takes back, waits all the time
        rw [hm]
        exact .inr (.inr ⟨rfl, rfl⟩)
      · exact .inl ⟨_, hn⟩
    | brokenDown => exact .inr (.inr ⟨rfl, rfl⟩)
    | waiting => exact .inr (.inr ⟨rfl, rfl⟩)

end Monitor

namespace Interplay

variable {ι : Type} [DecidableEq ι] {promise : Stage → Answer → Prop}

/-! ## 4. Files that wait -/

def Asks (w : Interplay ι) (m : Move ι) : Prop :=
  ∃ t, w.turn? m = some t ∧ Effect.request ∈ t.effects

/-- **A pull takes the request back:** it was let in at the gate, and ends. -/
def TakesBack (w : Interplay ι) : Move ι → Prop
  | .resume who answer => ∃ stage groups, w.calls.get? who = some stage ∧
      (w.monitor.resume w.now stage answer).next = .finished (.groups groups)
  | _ => False

/-- **No file waits unannounced.**  Before the monitor is started no file waits and nobody scans;
    while it is running no file waits unless the host was asked to pull. -/
structure Announced (w : Interplay ι) : Prop where
  asked : w.monitor.phase = .running → w.monitor.scanned.isEmpty = false →
    w.monitor.requested = true
  unopened : w.monitor.phase = .notStarted → w.monitor.scanned.isEmpty = true
  scans : ∀ who stage, w.calls.get? who = some stage → stage.isScan = true →
    w.monitor.phase ≠ .notStarted

theorem Announced.start (now : Nat) (config : Config) (keyOf : KeyRule) (listing : String) :
    (start now config keyOf listing : Interplay ι).Announced where
  asked := nofun
  unopened _ := rfl
  scans _ _ h := by simp [Interplay.start] at h

theorem Announced.hear {w : Interplay ι} (h : w.Announced) (e : LogEntry) :
    (w.hear e).Announced := by
  have hphase := w.monitor.phase_observe e
  have hempty : w.monitor.scanned.isEmpty = true → (w.hear e).monitor.scanned.isEmpty = true :=
    fun hnone => Monitor.isEmpty_scanned_observe hnone e
  refine ⟨?_, ?_, ?_⟩
  · intro hrunning hsome
    show (w.monitor.observe e).1.requested = true
    rw [Monitor.requested_observe]
    apply h.asked (hphase.symm.trans hrunning)
    rw [Bool.eq_false_iff] at hsome ⊢
    exact fun hnone => hsome (hempty hnone)
  · intro hnew
    exact hempty (h.unopened (hphase.symm.trans hnew))
  · intro who stage hstage hscan
    show (w.monitor.observe e).1.phase ≠ .notStarted
    rw [hphase]
    exact h.scans who stage hstage hscan

theorem Announced.begin {w : Interplay ι} (h : w.Announced) (who : ι) (call : Call) :
    (w.play who (w.monitor.begin w.now call)).Announced := by
  have hscanned := (Monitor.Unmoved.begin w.monitor w.now call).scanned
  have hrequested := (Monitor.Quiet.begin w.monitor w.now call).requested
  have hphase := w.monitor.phase_begin w.now call
  refine ⟨?_, ?_, ?_⟩
  · intro hrunning hsome
    show (w.monitor.begin w.now call).monitor.requested = true
    change (w.monitor.begin w.now call).monitor.phase = _ at hrunning
    change (w.monitor.begin w.now call).monitor.scanned.isEmpty = _ at hsome
    rw [hrequested]
    rw [hscanned] at hsome
    rcases hphase with hsame | ⟨hnew, -⟩ | hstopped
    · exact h.asked (hsame.symm.trans hrunning) hsome
    · -- nothing waits for the pull that starts the monitor
      rw [h.unopened hnew] at hsome
      cases hsome
    · rw [hstopped] at hrunning
      cases hrunning
  · intro hnew
    show (w.monitor.begin w.now call).monitor.scanned.isEmpty = true
    change (w.monitor.begin w.now call).monitor.phase = _ at hnew
    rw [hscanned]
    rcases hphase with hsame | ⟨hbefore, -⟩ | hstopped
    · exact h.unopened (hsame.symm.trans hnew)
    · exact h.unopened hbefore
    · rw [hstopped] at hnew
      cases hnew
  · intro other stage hstage hscan hnew
    change (w.monitor.begin w.now call).monitor.phase = _ at hnew
    rcases waiting_of_play hstage with ⟨-, hnext⟩ | ⟨-, hbefore⟩
    · -- only the first turn of a running monitor leads to a scan
      rw [Monitor.phase_of_isScan_begin hnext hscan] at hnew
      cases hnew
    · rcases hphase with hsame | ⟨-, hrunning⟩ | hstopped
      · exact h.scans other stage hbefore hscan (hsame.symm.trans hnew)
      · rw [hrunning] at hnew
        cases hnew
      · rw [hstopped] at hnew
        cases hnew

theorem Announced.resume {w : Interplay ι} (h : w.Announced) {who : ι} {stage : Stage}
    (waits : w.calls.get? who = some stage) (answer : Answer) :
    (w.play who (w.monitor.resume w.now stage answer)).Announced := by
  have hphase := w.monitor.phase_resume w.now stage answer
  have hscans : ∀ other stage', (w.play who (w.monitor.resume w.now stage answer)).calls.get?
      other = some stage' → stage'.isScan = true → w.monitor.phase ≠ .notStarted := by
    intro other stage' hstage hscan
    rcases waiting_of_play hstage with ⟨-, hnext⟩ | ⟨-, hbefore⟩
    · rcases Monitor.isScan_resume hnext hscan with hscan' | hrunning
      · exact h.scans who stage waits hscan'
      · rw [hrunning]
        nofun
    · exact h.scans other stage' hbefore hscan
  have hsignal := w.monitor.signal_resume w.now stage answer
  refine ⟨?_, ?_, ?_⟩
  · intro hrunning hsome
    change (w.monitor.resume w.now stage answer).monitor.phase = _ at hrunning
    change (w.monitor.resume w.now stage answer).monitor.scanned.isEmpty = _ at hsome
    show (w.monitor.resume w.now stage answer).monitor.requested = true
    rcases hsignal with ⟨groups, hends⟩ | ⟨idle, rfl, c, hpublish⟩ | ⟨hscanned, hrequested⟩
    · -- a pull that ends forgets the scan
      rw [(w.monitor.settled_of_groups w.now hends).1] at hsome
      cases hsome
    · -- a scan that publishes for a running monitor asks
      rw [hpublish] at hrunning hsome ⊢
      have hasks := (w.monitor.request_publishAndRequest c).2 ⟨hsome, hrunning⟩
      exact (w.monitor.requested_publishAndRequest c).2 (.inr hasks)
    · -- any other turn leaves both as they are
      rw [hrequested]
      rw [hscanned] at hsome
      exact h.asked (hphase.symm.trans hrunning) hsome
  · intro hnew
    change (w.monitor.resume w.now stage answer).monitor.phase = _ at hnew
    rw [hphase] at hnew
    show (w.monitor.resume w.now stage answer).monitor.scanned.isEmpty = true
    rcases hsignal with ⟨groups, hends⟩ | ⟨idle, rfl, -⟩ | ⟨hscanned, -⟩
    · rw [(w.monitor.settled_of_groups w.now hends).1]
      rfl
    · exact absurd hnew (h.scans who _ waits rfl)
    · rw [hscanned]
      exact h.unopened hnew
  · intro other stage' hstage hscan hnew
    change (w.monitor.resume w.now stage answer).monitor.phase = _ at hnew
    exact hscans other stage' hstage hscan (hphase.symm.trans hnew)

/-- **Every step leaves no file unannounced.** -/
theorem Step.announced {a b : Interplay ι} {m : Move ι} (h : Step promise a m b)
    (ha : a.Announced) : b.Announced := by
  cases h with
  | pass => exact ⟨ha.asked, ha.unopened, ha.scans⟩
  | hear e => exact ha.hear e
  | @begin who call idle => exact ha.begin who call
  | ask => exact ⟨ha.asked, ha.unopened, ha.scans⟩
  | @resume who stage answer waits meets ready promised => exact ha.resume waits answer
  | @drop who stage waits =>
    refine ⟨ha.asked, ha.unopened, ?_⟩
    intro other stage' hstage hscan
    exact ha.scans other stage' (Catalog.get?_of_erase hstage) hscan

/-! ## 5. Requests along a run -/

/-- **A request that stands** behind a step was made in it, or stood before and was not taken
    back. -/
theorem Step.asks_or_requested {a b : Interplay ι} {m : Move ι} (h : Step promise a m b)
    (hb : b.monitor.requested = true) :
    a.Asks m ∨ a.monitor.requested = true ∧ ¬a.TakesBack m := by
  cases h with
  | pass => exact .inr ⟨hb, not_false⟩
  | hear e =>
    right
    refine ⟨?_, not_false⟩
    rw [← a.monitor.requested_observe e]
    exact hb
  | @begin who call idle =>
    right
    refine ⟨?_, not_false⟩
    rw [← (Monitor.Quiet.begin a.monitor a.now call).requested]
    exact hb
  | ask => exact .inr ⟨hb, not_false⟩
  | @resume who stage answer waits meets ready promised =>
    have hback : a.TakesBack (.resume who answer) →
        ∃ groups, (a.monitor.resume a.now stage answer).next = .finished (.groups groups) := by
      rintro ⟨_, groups, hstage, hends⟩
      cases hstage.symm.trans waits
      exact ⟨groups, hends⟩
    change (a.monitor.resume a.now stage answer).monitor.requested = true at hb
    rcases a.monitor.signal_resume a.now stage answer with
      ⟨groups, hends⟩ | ⟨idle, -, c, hpublish⟩ | ⟨-, hrequested⟩
    · -- a pull that ends leaves no request
      rw [(a.monitor.settled_of_groups a.now hends).2] at hb
      cases hb
    · -- a scan that publishes ends no pull; it asks, or the request stood before
      rw [hpublish] at hb hback
      rcases (a.monitor.requested_publishAndRequest c).1 hb with hbefore | hasks
      · right
        refine ⟨hbefore, ?_⟩
        intro htakes
        obtain ⟨groups, hends⟩ := hback htakes
        rw [Monitor.next_publishAndRequest] at hends
        cases hends
      · left
        refine ⟨_, ?_, hasks⟩
        simp only [turn?, waits, Option.map_some, hpublish]
    · right
      rw [hrequested] at hb
      refine ⟨hb, ?_⟩
      intro htakes
      obtain ⟨groups, hends⟩ := hback htakes
      rw [(a.monitor.settled_of_groups a.now hends).2] at hrequested
      rw [← hrequested] at hb
      cases hb
  | drop => exact .inr ⟨hb, not_false⟩

theorem Step.takesBack {a b : Interplay ι} {m : Move ι} (h : Step promise a m b)
    (hback : a.TakesBack m) :
    b.monitor.scanned.isEmpty = true ∧ b.monitor.requested = false := by
  cases h with
  | @resume who stage answer waits meets ready promised =>
    obtain ⟨_, groups, hstage, hends⟩ := hback
    cases hstage.symm.trans waits
    obtain ⟨hscanned, hrequested⟩ := a.monitor.settled_of_groups a.now hends
    refine ⟨?_, hrequested⟩
    show (a.monitor.resume a.now stage answer).monitor.scanned.isEmpty = true
    rw [hscanned]
    rfl
  | _ => exact hback.elim

/-- **Only a pull takes a request back.** -/
theorem Step.takesBack_of_requested {a b : Interplay ι} {m : Move ι} (h : Step promise a m b)
    (ha : a.monitor.requested = true) (hb : b.monitor.requested = false) : a.TakesBack m := by
  have hsame : b.monitor.requested = a.monitor.requested → a.TakesBack m := by
    intro hsame
    rw [ha, hb] at hsame
    cases hsame
  cases h with
  | pass => exact hsame rfl
  | hear e => exact hsame (a.monitor.requested_observe e)
  | @begin who call idle =>
    exact hsame (Monitor.Quiet.begin a.monitor a.now call).requested
  | ask => exact hsame rfl
  | @resume who stage answer waits meets ready promised =>
    rcases a.monitor.signal_resume a.now stage answer with
      ⟨groups, hends⟩ | ⟨idle, -, c, hpublish⟩ | ⟨-, hrequested⟩
    · exact ⟨stage, groups, waits, hends⟩
    · change (a.monitor.resume a.now stage answer).monitor.requested = false at hb
      rw [hpublish] at hb
      rw [(a.monitor.requested_publishAndRequest c).2 (.inl ha)] at hb
      cases hb
    · exact hsame hrequested
  | drop => exact hsame rfl

/-- **What is published is announced.**  While the monitor is running, at the gate or behind it, no
    file waits unless the host was asked to pull, since when no pull took the request back.  A pull
    that takes it back leaves no file waiting, and nothing else takes it back. -/
theorem published_signalled (promise : Stage → Answer → Prop) (now : Nat) (config : Config)
    (keyOf : KeyRule) (listing : String) {w : Interplay ι} {ms : List (Move ι)}
    (hrun : Run promise (start now config keyOf listing) ms w) :
    (w.monitor.phase = .running → w.monitor.scanned.isEmpty = false →
      w.monitor.requested = true ∧
      ∃ p q before m after, ms = before ++ m :: after ∧
        Run promise (start now config keyOf listing) before p ∧ p.Asks m ∧ Step promise p m q ∧
        q.monitor.requested = true ∧
        Throughout promise (fun v m' => ¬v.TakesBack m') q after w) ∧
    ∀ {m : Move ι} {b : Interplay ι}, Step promise w m b →
      (w.TakesBack m → b.monitor.scanned.isEmpty = true ∧ b.monitor.requested = false) ∧
      (w.monitor.requested = true → b.monitor.requested = false → w.TakesBack m) := by
  have hw : w.Announced := hrun.keeps Step.announced (.start now config keyOf listing)
  refine ⟨?_, fun hstep => ⟨hstep.takesBack, hstep.takesBack_of_requested⟩⟩
  intro hrunning hsome
  have hrequested := hw.asked hrunning hsome
  refine ⟨hrequested, ?_⟩
  rcases hrun.since (P := fun v => v.monitor.requested = true)
    Step.asks_or_requested hrequested with ⟨hfirst, -⟩ | hlast
  · -- nobody asked before the first move
    cases hfirst
  · exact hlast

/-- Two ticks overlap, and a pull queues between them at the gate.  The pull hands out what the
    first scan found and takes its request back; the second scan finds two more files and asks
    again.  Then one of them is completed, and the other still waits. -/
theorem published_signalled_overlapping :
    let promise : Stage → Answer → Prop := fun _ _ => true = true
    let file (name : String) : Metadata := ⟨⟨"file", none, "/" ++ name, none, none⟩, name, 1,
      default, none⟩
    let first : Interplay Nat := start 0 { reconfigurationAfterTimeoutMs := some 0 }
      (fun m => .ok ⟨m.name⟩) "files"
    let scan (who : Nat) (files : List Metadata) : List (Move Nat) :=
      [.resume who .entered, .resume who (.refreshed (.ok .empty)),
        .resume who (.listed (.ok files) .empty)]
    let ms : List (Move Nat) :=
      [.begin 0 (.pull 1 1), .begin 2 (.pull 1 1), .pass 15000, .resume 2 .woken,
        .begin 1 .tick, .ask 1, .ask 2, .begin 3 .tick, .ask 3] ++
        scan 1 [file "a"] ++ [.resume 2 .entered, .resume 2 (.refreshed (.ok .empty))] ++
        scan 3 [file "a", file "b", file "c"] ++
        [.hear ⟨⟨"b"⟩, some (.new (file "b") .completed)⟩]
    ∃ w, Run promise first ms w ∧ w.gate.holder = none ∧ w.monitor.phase = .running ∧
      w.monitor.scanned.isEmpty = false ∧ w.monitor.requested = true ∧
      ∃ p q before m after, ms = before ++ m :: after ∧ Run promise first before p ∧ p.Asks m ∧
        Step promise p m q ∧ q.monitor.requested = true ∧
        Throughout promise (fun v m' => ¬v.TakesBack m') q after w := by
  intro promise file first scan ms
  let w := (first.moves? (fun _ _ => true) ms).get (by decide +kernel)
  have hrun : Run promise first ms w := .of_moves? (Option.some_get _).symm
  have hfree : w.gate.holder = none := by decide +kernel
  have hrunning : w.monitor.phase = .running := by decide +kernel
  have hsome : w.monitor.scanned.isEmpty = false := by decide +kernel
  obtain ⟨hasked, -⟩ := published_signalled promise 0 { reconfigurationAfterTimeoutMs := some 0 }
    (fun m => .ok ⟨m.name⟩) "files" hrun
  exact ⟨w, hrun, hfree, hrunning, hsome, hasked hrunning hsome⟩

end Interplay

end Intake
