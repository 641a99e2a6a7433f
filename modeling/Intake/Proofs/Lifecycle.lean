import Intake.Proofs.Signal

/-!
# Lifecycle — started by a pull, stopped by a close

The phase of a monitor follows from the calls that began: the first pull starts it, a close stops
it, and nothing else moves it (`Interplay.Run.phase`).  A close that finds it stopped does nothing,
so whoever waits for the last refresh or the last cleanup is the first close of the run
(`Interplay.Run.first_close`).  It keeps what the refresh brings, cleans up all that is queued, and
ends well even when a collaborator breaks down (`Monitor.closes_resume`).
-/

namespace Intake

/-! ## 1. Phases and calls -/

def Phase.after : Phase → Call → Phase
  | _, .close => .stopped
  | .notStarted, .pull _ _ => .running
  | p, _ => p

def Call.opens : Call → Bool
  | pull _ _ => true
  | close => true
  | _ => false

def Stage.isClose : Stage → Bool
  | closeSync => true
  | closeCleanup _ => true
  | _ => false

namespace Phase

theorem after_close (p : Phase) : p.after .close = .stopped := by
  cases p <;> rfl

theorem after_eq_stopped_iff {p : Phase} {call : Call} :
    p.after call = .stopped ↔ p = .stopped ∨ call = .close := by
  cases p <;> cases call <;> simp [after]

theorem after_eq_notStarted_iff {p : Phase} {call : Call} :
    p.after call = .notStarted ↔ p = .notStarted ∧ call.opens = false := by
  cases p <;> cases call <;> simp [after, Call.opens]

/-- Once stopped, or by a close. -/
theorem foldl_after_eq_stopped_iff (p : Phase) (calls : List Call) :
    calls.foldl after p = .stopped ↔ p = .stopped ∨ .close ∈ calls := by
  induction calls generalizing p with
  | nil => simp
  | cons call calls ih =>
    rw [List.foldl_cons, ih, after_eq_stopped_iff, List.mem_cons, or_assoc, eq_comm (a := call)]

theorem foldl_after_eq_notStarted_iff (p : Phase) (calls : List Call) :
    calls.foldl after p = .notStarted ↔
      p = .notStarted ∧ ∀ call ∈ calls, call.opens = false := by
  induction calls generalizing p with
  | nil => simp
  | cons call calls ih =>
    rw [List.foldl_cons, ih, after_eq_notStarted_iff, List.forall_mem_cons, and_assoc]

end Phase

namespace Monitor

theorem phase_begin_eq (m : Monitor) (now : Nat) (call : Call) :
    (m.begin now call).monitor.phase = m.phase.after call := by
  cases call with
  | startup => cases h : m.phase <;> exact h
  | tick =>
    have hsame : (m.begin now .tick).monitor.phase = m.phase := by
      simp only [begin, beginTick, scanIfRunning]
      split
      · split <;> rfl
      · rfl
    rw [hsame]
    cases m.phase <;> rfl
  | pull g f =>
    simp only [begin, beginPull]
    cases h : m.phase <;> first | exact h | rfl
  | cleanup =>
    have hsame : (m.begin now .cleanup).monitor.phase = m.phase := by
      simp only [begin]
      split <;> rfl
    rw [hsame]
    cases m.phase <;> rfl
  | sync t => cases h : m.phase <;> exact h
  | close =>
    rw [Phase.after_close]
    simp only [begin, beginClose]
    split
    next hstopped => exact hstopped
    next => rfl

/-! ## 2. Closing -/

/-- **Only a close comes to close,** and only if nobody closed before it. -/
theorem close_of_isClose_begin {m : Monitor} {now : Nat} {call : Call} {stage : Stage}
    (h : (m.begin now call).next = .waiting stage) (hclose : stage.isClose = true) :
    call = .close ∧ m.phase ≠ .stopped := by
  cases call with
  | startup => cases h; cases hclose
  | tick =>
    simp only [begin, beginTick, scanIfRunning] at h
    split at h
    · split at h <;> cases h
      cases hclose
    · cases h; cases hclose
  | pull g f =>
    simp only [begin, beginPull] at h
    split at h <;> cases h
    cases hclose
  | cleanup =>
    simp only [begin] at h
    split at h <;> cases h
    cases hclose
  | sync t => cases h; cases hclose
  | close =>
    simp only [begin, beginClose] at h
    split at h
    next => cases h
    next hnot => exact ⟨rfl, hnot⟩

theorem isClose_resume {m : Monitor} {now : Nat} {stage stage' : Stage} {answer : Answer}
    (h : (m.resume now stage answer).next = .waiting stage') (hclose : stage'.isClose = true) :
    stage.isClose = true := by
  unfold Monitor.resume at h
  split at h
  case h_1 => simp only [synced_eq] at h; cases h
  case h_2 =>
    simp only [tidied_eq, Turn.next_after, scanIfRunning] at h
    split at h <;> cases h
    cases hclose
  case h_3 =>
    unfold scanEntered at h
    split at h <;> cases h
    cases hclose
  case h_4 =>
    simp only [scanSynced, synced_eq] at h
    split at h <;> cases h
    cases hclose
  case h_5 => rw [next_scanListed] at h; cases h
  case h_6 => cases h; cases hclose
  case h_7 =>
    unfold pullEntered at h
    split at h <;> cases h
    cases hclose
  case h_8 g f attempt result =>
    rcases m.pullSynced_cases g f attempt result with
      ⟨-, -, hn⟩ | ⟨-, -, -, hn⟩ | ⟨-, -, -, hn⟩
    · rw [hn] at h
      cases h
    · rw [hn] at h
      cases h
      cases hclose
    · rw [hn] at h
      cases h
  case h_9 => simp only [tidied_eq] at h; cases h
  case h_10 => simp only [synced_eq] at h; cases h
  case h_11 => rfl
  case h_12 => rfl
  -- an answer that does not fit leaves the call where it is
  case h_16 =>
    cases h
    exact hclose
  all_goals cases h

/-- **What a close does** with an answer.  The last refresh brings its snapshot, if it succeeds, and
    all that is queued goes into the last cleanup.  Behind that what succeeded is written, what
    failed is queued again, and the close ends.  A break-down ends it at once, with a report. -/
def Closes (m : Monitor) : Stage → Answer → Turn → Prop
  | .closeSync, .refreshed result, t =>
    t.monitor = { m with snapshot := m.newest result, completed := [] } ∧
      t.effects = syncEffects m.config.readToEndTimeoutMs result ∧
      t.next = if m.completed = [] then .finished .done else .waiting (.closeCleanup m.completed)
  | .closeCleanup _, .cleaned results, t =>
    t.monitor = { m with completed := m.completed ++ results.failed } ∧
      t.effects = results.map tidyEffect ∧ t.next = .finished .done
  | .closeSync, .brokenDown, t => t = .after [.report .closePanicked] (.finish m .done)
  | .closeCleanup _, .brokenDown, t => t = .after [.report .closePanicked] (.finish m .done)
  | _, _, _ => False

theorem closes_closeSynced (m : Monitor) (result : Except StoreError Snapshot) :
    m.Closes .closeSync (.refreshed result) (m.closeSynced result) := by
  simp only [Closes, closeSynced, synced_eq]
  split
  next hempty =>
    have hnone : m.completed = [] := List.isEmpty_iff.1 hempty
    refine ⟨?_, List.append_nil _, ?_⟩
    · show m.keepSnapshot (m.newest result) =
        { m with snapshot := m.newest result, completed := [] }
      rw [← hnone]
      rfl
    · rw [if_pos hnone]
      rfl
  next hsome =>
    have hqueued : m.completed ≠ [] := fun hnone => hsome (List.isEmpty_iff.2 hnone)
    refine ⟨rfl, List.append_nil _, ?_⟩
    rw [if_neg hqueued]
    rfl

/-- **Who closes does what a close does,** whatever it was answered. -/
theorem closes_resume (m : Monitor) (now : Nat) {stage : Stage} {answer : Answer}
    (hclose : stage.isClose = true) (meets : answer.meets (stage.need m.config) = true) :
    m.Closes stage answer (m.resume now stage answer) := by
  cases stage
  case closeSync =>
    cases answer
    case refreshed result => exact m.closes_closeSynced result
    case brokenDown => rfl
    all_goals cases meets
  case closeCleanup batch =>
    cases answer
    case cleaned results =>
      simp only [Closes, resume, tidied_eq]
      exact ⟨rfl, List.append_nil _, rfl⟩
    case brokenDown => rfl
    all_goals cases meets
  all_goals cases hclose

end Monitor

namespace Interplay

variable {ι : Type} [DecidableEq ι] {promise : Stage → Answer → Prop}

/-! ## 3. The phase along a run -/

def Move.call? : Move ι → Option Call
  | .begin _ call => some call
  | _ => none

/-- **A step moves the phase** only as a call begins. -/
theorem Step.phase {a b : Interplay ι} {m : Move ι} (h : Step promise a m b) :
    b.monitor.phase = m.call?.elim a.monitor.phase a.monitor.phase.after := by
  cases h with
  | pass => rfl
  | hear e => exact a.monitor.phase_observe e
  | begin call => exact a.monitor.phase_begin_eq a.now call
  | ask => rfl
  | @resume who stage answer => exact a.monitor.phase_resume a.now stage answer
  | drop => rfl

/-- **The phase of a run** follows from the calls that began in it. -/
theorem Run.phase {a b : Interplay ι} {ms : List (Move ι)} (h : Run promise a ms b) :
    b.monitor.phase = (ms.filterMap Move.call?).foldl Phase.after a.monitor.phase := by
  induction h with
  | nil => rfl
  | @cons a c b m ms first rest ih =>
    rw [ih, first.phase, List.filterMap_cons]
    cases m.call? <;> rfl

def Starts (w : Interplay ι) (m : Move ι) : Prop :=
  w.monitor.phase = .notStarted ∧ (∃ who g f, m = .begin who (.pull g f)) ∧
    w.turn? m = some (.finish { w.monitor with phase := .running } (.groups []))

def Stops (w : Interplay ι) (m : Move ι) : Prop :=
  w.monitor.phase ≠ .stopped ∧ (∃ who, m = .begin who .close) ∧
    w.turn? m = some (.wait { w.monitor with phase := .stopped } .closeSync)

theorem starts_of_pull {w : Interplay ι} (who : ι) (g f : Nat)
    (hnew : w.monitor.phase = .notStarted) : w.Starts (.begin who (.pull g f)) := by
  refine ⟨hnew, ⟨who, g, f, rfl⟩, ?_⟩
  show some (w.monitor.beginPull w.now g f) = _
  simp only [Monitor.beginPull, hnew]

theorem stops_of_close {w : Interplay ι} (who : ι) (hopen : w.monitor.phase ≠ .stopped) :
    w.Stops (.begin who .close) := by
  refine ⟨hopen, ⟨who, rfl⟩, ?_⟩
  show some w.monitor.beginClose = _
  rw [Monitor.beginClose, if_neg hopen]

/-- **Every step** keeps the phase, starts the monitor, or stops it. -/
theorem Step.phase_cases {a b : Interplay ι} {m : Move ι} (h : Step promise a m b) :
    b.monitor.phase = a.monitor.phase ∨
      a.Starts m ∧ b.monitor.phase = .running ∨ a.Stops m ∧ b.monitor.phase = .stopped := by
  have hphase := h.phase
  cases m with
  | begin who call =>
    change b.monitor.phase = a.monitor.phase.after call at hphase
    cases call with
    | pull g f =>
      by_cases hnew : a.monitor.phase = .notStarted
      · rw [hnew] at hphase
        exact .inr (.inl ⟨starts_of_pull who g f hnew, hphase⟩)
      · left
        rw [hphase]
        cases hp : a.monitor.phase <;> first | rfl | exact absurd hp hnew
    | close =>
      rw [Phase.after_close] at hphase
      by_cases hstopped : a.monitor.phase = .stopped
      · exact .inl (hphase.trans hstopped.symm)
      · exact .inr (.inr ⟨stops_of_close who hstopped, hphase⟩)
    | _ =>
      left
      rw [hphase]
      cases a.monitor.phase <;> rfl
  | _ => exact .inl hphase

/-! ## 4. The first close -/

def Closing (w : Interplay ι) (who : ι) : Prop :=
  ∃ stage, w.calls.get? who = some stage ∧ stage.isClose = true

/-- Who closes behind a step has just begun to, before anyone else did, or was closing. -/
theorem Step.closing {a b : Interplay ι} {m : Move ι} {who : ι} (h : Step promise a m b)
    (hb : b.Closing who) :
    (m = .begin who .close ∧ a.monitor.phase ≠ .stopped) ∨ a.Closing who := by
  obtain ⟨stage', hstage', hclose⟩ := hb
  cases h with
  | pass => exact .inr ⟨stage', hstage', hclose⟩
  | hear => exact .inr ⟨stage', hstage', hclose⟩
  | @begin other call idle =>
    rcases waiting_of_play hstage' with ⟨rfl, hnext⟩ | ⟨-, hbefore⟩
    · obtain ⟨rfl, hopen⟩ := Monitor.close_of_isClose_begin hnext hclose
      exact .inl ⟨rfl, hopen⟩
    · exact .inr ⟨stage', hbefore, hclose⟩
  | ask => exact .inr ⟨stage', hstage', hclose⟩
  | @resume other stage answer waits meets ready promised =>
    right
    rcases waiting_of_play hstage' with ⟨rfl, hnext⟩ | ⟨-, hbefore⟩
    · exact ⟨stage, waits, Monitor.isClose_resume hnext hclose⟩
    · exact ⟨stage', hbefore, hclose⟩
  | drop => exact .inr ⟨stage', Catalog.get?_of_erase hstage', hclose⟩

/-- **Who closes is the first that did.** -/
theorem Run.first_close {now : Nat} {config : Config} {keyOf : KeyRule} {listing : String}
    {w : Interplay ι} {ms : List (Move ι)}
    (h : Run promise (start now config keyOf listing) ms w) {who : ι} {stage : Stage}
    (waits : w.calls.get? who = some stage) (hclose : stage.isClose = true) :
    ∃ before after, ms = before ++ .begin who .close :: after ∧
      ∀ other, .begin other .close ∉ before := by
  have hstep : ∀ {p q : Interplay ι} {m : Move ι}, Step promise p m q → q.Closing who →
      (m = .begin who .close ∧ p.monitor.phase ≠ .stopped) ∨ p.Closing who ∧ p.Closing who := by
    intro p q m hpq hq
    exact (hpq.closing hq).imp_right fun hp => ⟨hp, hp⟩
  rcases h.since (P := fun v => v.Closing who) hstep ⟨stage, waits, hclose⟩ with
    ⟨⟨s, hs, -⟩, -⟩ | ⟨p, q, before, m, after, rfl, hbefore, ⟨rfl, hopen⟩, -⟩
  · -- nobody calls before the first move
    simp [start] at hs
  · refine ⟨before, after, rfl, ?_⟩
    intro other hmem
    apply hopen
    rw [hbefore.phase, Phase.foldl_after_eq_stopped_iff]
    exact .inr (List.mem_filterMap.2 ⟨_, hmem, rfl⟩)

/-! ## 5. The lifecycle of a monitor -/

/-- **Lifecycle.**  A monitor is stopped once a close began, and started once a pull did.  Before
    that nothing was scanned and nobody scans.  A step moves the phase only as `Starts` and `Stops`
    say; a call that comes later than the close returns at once and changes nothing.  Only the first
    close goes on to a last refresh and a last cleanup, and each answer to it does what `Closes`
    says: it ends well, even if they break down. -/
theorem phase_history (promise : Stage → Answer → Prop) (now : Nat) (config : Config)
    (keyOf : KeyRule) (listing : String) {w : Interplay ι} {ms : List (Move ι)}
    (hrun : Run promise (start now config keyOf listing) ms w) :
    (w.monitor.phase = .stopped ↔ .close ∈ ms.filterMap Move.call?) ∧
    (w.monitor.phase = .notStarted ↔ ∀ call ∈ ms.filterMap Move.call?, call.opens = false) ∧
    (w.monitor.phase = .notStarted → w.monitor.scanned = .empty ∧
      ∀ who stage, w.calls.get? who = some stage → stage.isScan = false) ∧
    (∀ who stage, w.calls.get? who = some stage → stage.isClose = true →
      ∃ before after, ms = before ++ .begin who .close :: after ∧
        ∀ other, .begin other .close ∉ before) ∧
    ∀ {m : Move ι} {b : Interplay ι}, Step promise w m b →
      (b.monitor.phase = w.monitor.phase ∨
        w.Starts m ∧ b.monitor.phase = .running ∨ w.Stops m ∧ b.monitor.phase = .stopped) ∧
      (∀ who g f, m = .begin who (.pull g f) →
        (w.monitor.phase = .notStarted → w.Starts m) ∧
        (w.monitor.phase = .stopped → w.turn? m = some (.finish w.monitor (.groups [])))) ∧
      (∀ who, m = .begin who .close → w.monitor.phase = .stopped →
        w.turn? m = some (.finish w.monitor .done)) ∧
      ∀ who stage answer, m = .resume who answer → w.calls.get? who = some stage →
        stage.isClose = true → b.monitor.phase = .stopped ∧
          ∃ t, w.turn? m = some t ∧ b = w.play who t ∧ w.monitor.Closes stage answer t := by
  have hstopped : w.monitor.phase = .stopped ↔ .close ∈ ms.filterMap Move.call? := by
    rw [hrun.phase, Phase.foldl_after_eq_stopped_iff]
    exact or_iff_right nofun
  have hnew : w.monitor.phase = .notStarted ↔
      ∀ call ∈ ms.filterMap Move.call?, call.opens = false := by
    rw [hrun.phase, Phase.foldl_after_eq_notStarted_iff]
    exact and_iff_right rfl
  have hannounced : w.Announced :=
    hrun.keeps Step.announced (.start now config keyOf listing)
  refine ⟨hstopped, hnew, ?_, fun who stage => hrun.first_close, ?_⟩
  · intro hphase
    refine ⟨Catalog.eq_empty_of_isEmpty (hannounced.unopened hphase), ?_⟩
    intro who stage waits
    rw [Bool.eq_false_iff]
    intro hscan
    exact hannounced.scans who stage waits hscan hphase
  · intro m b hstep
    refine ⟨hstep.phase_cases, ?_, ?_, ?_⟩
    · rintro who g f rfl
      refine ⟨starts_of_pull who g f, ?_⟩
      intro hphase
      show some (w.monitor.beginPull w.now g f) = _
      simp only [Monitor.beginPull, hphase]
    · rintro who rfl hphase
      show some w.monitor.beginClose = _
      rw [Monitor.beginClose, if_pos hphase]
    · rintro who stage answer rfl waits hclose
      -- who closes began to, and no step starts the monitor again
      have hphase : w.monitor.phase = .stopped := by
        obtain ⟨before, after, rfl, -⟩ := hrun.first_close waits hclose
        rw [hstopped]
        exact List.mem_filterMap.2 ⟨.begin who .close, by simp, rfl⟩
      have hturn : w.turn? (.resume who answer) =
          some (w.monitor.resume w.now stage answer) := by
        simp only [turn?, waits, Option.map_some]
      refine ⟨hstep.phase.trans hphase, _, hturn, ?_⟩
      cases hstep with
      | resume waits' meets =>
        cases waits.symm.trans waits'
        exact ⟨rfl, w.monitor.closes_resume w.now hclose meets⟩

/-- Two closes race with a tick and a late pull, while a file waits for cleanup.  The last refresh
    brings a snapshot, or breaks down; the last cleanup has one success. -/
theorem phase_history_race :
    let promise : Stage → Answer → Prop := fun _ _ => true = true
    let first : Interplay Nat := start 0 {} byPath "files"
    let done : Record := .new (sample "/a") .completed
    let queued : Record := done.withKey ⟨"/a"⟩
    let s : Snapshot := ⟨1, Catalog.empty.insert ⟨"/a"⟩ done⟩
    let ms : List (Move Nat) :=
      [.begin 0 (.pull 1 1), .begin 1 .tick, .hear ⟨⟨"/a"⟩, some done⟩, .begin 2 .close,
        .begin 3 .close, .ask 1, .begin 4 (.pull 1 1)]
    ∃ w broken read gone, Run promise first ms w ∧ w.monitor.phase = .stopped ∧
      w.calls.get? 2 = some .closeSync ∧ w.calls.get? 3 = none ∧ w.calls.get? 4 = none ∧
      (∃ before after, ms = before ++ .begin 2 .close :: after ∧
        ∀ other, .begin other .close ∉ before) ∧
      Step promise w (.resume 2 .brokenDown) broken ∧ broken.calls.get? 2 = none ∧
      broken.monitor.phase = .stopped ∧ broken.monitor.completed = [queued] ∧
      Step promise w (.resume 2 (.refreshed (.ok s))) read ∧ read.monitor.snapshot = s ∧
      read.monitor.completed = [] ∧ read.calls.get? 2 = some (.closeCleanup [queued]) ∧
      Step promise read (.resume 2 (.cleaned [(queued, .succeed)])) gone ∧
      gone.calls.get? 2 = none ∧ gone.monitor.phase = .stopped ∧
      ∃ t, read.turn? (.resume 2 (.cleaned [(queued, .succeed)])) = some t ∧
        t.effects = [.write ⟨"/a"⟩ (queued.withStatus .cleaned)] ∧ t.next = .finished .done := by
  intro promise first done queued s ms
  let w := (first.moves? (fun _ _ => true) ms).get (by decide +kernel)
  let broken := (w.move? (fun _ _ => true) (.resume 2 .brokenDown)).get (by decide +kernel)
  let read := (w.move? (fun _ _ => true) (.resume 2 (.refreshed (.ok s)))).get (by decide +kernel)
  let gone := (read.move? (fun _ _ => true) (.resume 2 (.cleaned [(queued, .succeed)]))).get
    (by decide +kernel)
  have hrun : Run promise first ms w := .of_moves? (Option.some_get _).symm
  have hbreaks : Step promise w (.resume 2 .brokenDown) broken := .of_move? (Option.some_get _).symm
  have hreads : Step promise w (.resume 2 (.refreshed (.ok s))) read :=
    .of_move? (Option.some_get _).symm
  have hcleans : Step promise read (.resume 2 (.cleaned [(queued, .succeed)])) gone :=
    .of_move? (Option.some_get _).symm
  have hcloses : w.calls.get? 2 = some .closeSync := by decide +kernel
  have hlate : w.calls.get? 3 = none ∧ w.calls.get? 4 = none := by decide +kernel
  have hqueued : w.monitor.completed = [queued] := by decide +kernel
  have hbegan : Call.close ∈ ms.filterMap Move.call? := by decide
  obtain ⟨hstopped, -, -, hfirst, hsteps⟩ := phase_history promise 0 {} byPath "files" hrun
  obtain ⟨-, -, -, hbroken⟩ := hsteps hbreaks
  obtain ⟨-, -, -, hread⟩ := hsteps hreads
  obtain ⟨hbrokenPhase, t, -, hbrokenPlay, rfl⟩ :=
    hbroken 2 .closeSync .brokenDown rfl hcloses rfl
  obtain ⟨-, u, -, hreadPlay, hreadMonitor, -, hreadNext⟩ :=
    hread 2 .closeSync (.refreshed (.ok s)) rfl hcloses rfl
  rw [hqueued] at hreadNext
  have hwaits : read.calls.get? 2 = some (.closeCleanup [queued]) := by
    rw [hreadPlay, get?_calls_play_self, hreadNext]
    rfl
  -- the run goes on with the last refresh, up to the last cleanup
  obtain ⟨-, -, -, -, hlater⟩ := phase_history promise 0 {} byPath "files"
    (hrun.append (.cons hreads (.nil read)))
  obtain ⟨-, -, -, hover⟩ := hlater hcleans
  obtain ⟨hphase, v, hturn, hoverPlay, -, heffects, hnext⟩ :=
    hover 2 (.closeCleanup [queued]) (.cleaned [(queued, .succeed)]) rfl hwaits rfl
  refine ⟨w, broken, read, gone, hrun, hstopped.2 hbegan, hcloses, hlate.1, hlate.2,
    hfirst 2 .closeSync hcloses rfl, hbreaks, ?_, hbrokenPhase, ?_, hreads, ?_, ?_, hwaits, hcleans,
    ?_, hphase, v, hturn, heffects, hnext⟩
  · rw [hbrokenPlay, get?_calls_play_self]
    rfl
  · rw [hbrokenPlay]
    exact hqueued
  · rw [hreadPlay]
    exact congrArg Monitor.snapshot hreadMonitor
  · rw [hreadPlay]
    exact congrArg Monitor.completed hreadMonitor
  · rw [hoverPlay, get?_calls_play_self, hnext]

end Interplay

end Intake
