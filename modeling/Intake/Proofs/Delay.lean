import Intake.Proofs.Custody
import Intake.Proofs.Signal

/-!
# Delay — when a rescan publishes

Next to files that are handed out, new ones are published only when the delay of the configuration
is over.  It runs from the first scan that found something new since files were last published
(`Interplay.FirstNews`): a scan arms the deadline only if none is armed, a publication clears it,
and nothing else touches it (`Monitor.rescan_resume`).  So the time that a monitor keeps is a
function of the moves so far (`Interplay.Run.firstNews_iff`).
-/

namespace Intake

namespace Stage

def idle? : Stage → Option Bool
  | scanSync idle => some idle
  | scanListing idle => some idle
  | _ => none

theorem holdsGate_of_idle? {stage : Stage} {idle : Bool} (h : stage.idle? = some idle) :
    stage.holdsGate = true := by
  cases stage <;> first | rfl | cases h

end Stage

namespace Monitor

/-! ## 1. Listings that give candidates -/

def Lists (m : Monitor) (stage : Stage) (answer : Answer) (idle : Bool)
    (candidates : Catalog PartitionKey Metadata) : Prop :=
  ∃ listed snapshot, stage = .scanListing idle ∧ answer = .listed (.ok listed) snapshot ∧
    Candidates.select m.keyOf snapshot listed = .ok candidates

def FindsNews (m : Monitor) (stage : Stage) (answer : Answer) : Prop :=
  ∃ candidates, m.Lists stage answer false candidates ∧
    ∃ k, candidates.get? k ≠ none ∧ m.scheduled.get? k = none

/-- **A scan publishes** its candidates.  One that began next to files that are handed out does so
    only with news; without them it ends and leaves the monitor alone. -/
def Publishes (m : Monitor) (now : Nat) (stage : Stage) (answer : Answer) : Prop :=
  ∃ idle candidates, m.Lists stage answer idle candidates ∧
    (idle = false → ∃ k, candidates.get? k ≠ none ∧ m.scheduled.get? k = none) ∧
    m.resume now stage answer = m.publishAndRequest candidates

def due (m : Monitor) (now delay : Nat) : Nat := m.rescanAt.getD (now + delay)

section Candidates

variable {m : Monitor} {now delay : Nat} {stage : Stage} {answer : Answer} {idle : Bool}
  {c : Catalog PartitionKey Metadata}

theorem Lists.unique (h : m.Lists stage answer idle c) {idle' : Bool}
    {c' : Catalog PartitionKey Metadata} (h' : m.Lists stage answer idle' c') :
    idle' = idle ∧ c' = c := by
  obtain ⟨listed, snapshot, rfl, rfl, hselect⟩ := h
  obtain ⟨_, _, hstage, hanswer, hselect'⟩ := h'
  cases hstage
  cases hanswer
  cases hselect.symm.trans hselect'
  exact ⟨rfl, rfl⟩

theorem Lists.resume (h : m.Lists stage answer idle c) (now : Nat) :
    m.resume now stage answer = m.takeCandidates now idle c := by
  obtain ⟨listed, snapshot, rfl, rfl, hselect⟩ := h
  show m.scanListed now idle (.ok listed) snapshot = _
  simp only [scanListed, hselect]

theorem Lists.findsNews_iff (h : m.Lists stage answer idle c) :
    m.FindsNews stage answer ↔ idle = false ∧ m.hasNews c = true := by
  rw [hasNews_iff]
  constructor
  · rintro ⟨c', hlists, hnews⟩
    obtain ⟨rfl, rfl⟩ := hlists.unique h
    exact ⟨rfl, hnews⟩
  · rintro ⟨rfl, hnews⟩
    exact ⟨c, h, hnews⟩

theorem Lists.publishes_iff (h : m.Lists stage answer idle c) :
    m.Publishes now stage answer ↔
      (idle = false → m.hasNews c = true) ∧
        m.takeCandidates now idle c = m.publishAndRequest c := by
  rw [hasNews_iff, ← h.resume now]
  constructor
  · rintro ⟨idle', c', hlists, hnews, hpublish⟩
    obtain ⟨rfl, rfl⟩ := hlists.unique h
    exact ⟨hnews, hpublish⟩
  · rintro ⟨hnews, hpublish⟩
    exact ⟨idle, c, h, hnews, hpublish⟩

theorem rescanAt_publishAndRequest (m : Monitor) (c : Catalog PartitionKey Metadata) :
    (m.publishAndRequest c).monitor.rescanAt = none := by
  simp only [publishAndRequest]
  split <;> rfl

/-- **Next to files that are handed out** candidates are left alone, or wait, or are published. -/
theorem takeCandidates_busy (hdelay : m.config.reconfigurationAfterTimeoutMs = some delay)
    (now : Nat) (c : Catalog PartitionKey Metadata) :
    m.takeCandidates now false c =
      if m.hasNews c = true then
        if now < m.due now delay then .finish { m with rescanAt := some (m.due now delay) } .done
        else m.publishAndRequest c
      else .finish m .done := by
  simp only [takeCandidates, hdelay, due]
  cases m.hasNews c <;> rfl

/-- A scan without candidates leaves the monitor as it is, and asks for nothing. -/
theorem resume_unlisted (now : Nat) (h : ∀ c, ¬m.Lists (.scanListing idle) answer idle c) :
    (m.resume now (.scanListing idle) answer).monitor = m ∧
      Effect.request ∉ (m.resume now (.scanListing idle) answer).effects := by
  cases answer with
  | listed result snapshot =>
    change (m.scanListed now idle result snapshot).monitor = m ∧
      Effect.request ∉ (m.scanListed now idle result snapshot).effects
    cases result with
    | error cause => exact ⟨rfl, by simp [scanListed]⟩
    | ok listed =>
      cases hselect : Candidates.select m.keyOf snapshot listed with
      | error r =>
        have hsilent := request_notMem_rejected m r
        simp only [scanListed, hselect]
        exact ⟨rfl, by simpa using hsilent⟩
      | ok c => exact absurd ⟨listed, snapshot, rfl, rfl, hselect⟩ (h c)
  | _ => exact ⟨rfl, List.not_mem_nil⟩

/-- **A scan that does not publish** is quiet, however it ends. -/
theorem quiet_of_not_publishes (hdelay : m.config.reconfigurationAfterTimeoutMs = some delay)
    (h : ¬m.Publishes now (.scanListing false) answer) :
    m.Quiet (m.resume now (.scanListing false) answer) := by
  by_cases hlists : ∃ c, m.Lists (.scanListing false) answer false c
  · obtain ⟨c, hc⟩ := hlists
    rw [hc.publishes_iff] at h
    rw [hc.resume now]
    rw [takeCandidates_busy hdelay] at h ⊢
    by_cases hnews : m.hasNews c = true
    · by_cases hearly : now < m.due now delay
      · rw [if_pos hnews, if_pos hearly]
        exact ⟨rfl, rfl, List.not_mem_nil⟩
      · rw [if_pos hnews, if_neg hearly] at h
        exact absurd ⟨fun _ => hnews, rfl⟩ h
    · rw [if_neg hnews]
      exact ⟨rfl, rfl, List.not_mem_nil⟩
  · obtain ⟨hsame, hsilent⟩ := m.resume_unlisted now (not_exists.1 hlists)
    refine ⟨?_, ?_, hsilent⟩
    · rw [hsame]
    · rw [hsame]

end Candidates

/-! ## 2. The deadline -/

/-- A turn without candidates leaves the deadline. -/
theorem rescanAt_unlisted {m : Monitor} (now : Nat) {stage : Stage} {answer : Answer}
    (h : ∀ idle c, ¬m.Lists stage answer idle c) :
    (m.resume now stage answer).monitor.rescanAt = m.rescanAt := by
  cases hs : stage.holdsGate with
  | false => exact (Unmoved.resume m now answer hs).rescanAt
  | true =>
    cases stage
    case scanListing idle => rw [(resume_unlisted now (h idle)).1]
    case scanSync idle =>
      cases answer
      case refreshed result => exact (Unmoved.scanSynced m idle result).rescanAt
      all_goals rfl
    case pullSync g f attempt =>
      cases answer
      case refreshed result =>
        change (m.pullSynced g f attempt result).monitor.rescanAt = m.rescanAt
        rcases m.pullSynced_cases g f attempt result with
          ⟨-, hm, -⟩ | ⟨-, -, hm, -⟩ | ⟨-, -, hm, -⟩ <;> exact (congrArg rescanAt hm :)
      all_goals rfl
    all_goals cases hs

/-- **What a turn does to the deadline.**  A scan publishes and clears it, with news only when it is
    due; or it finds news too early and arms it, unless it is armed; or the turn leaves it. -/
theorem rescan_resume {m : Monitor} {delay : Nat}
    (hdelay : m.config.reconfigurationAfterTimeoutMs = some delay) (now : Nat) (stage : Stage)
    (answer : Answer) :
    (m.Publishes now stage answer ∧ (m.resume now stage answer).monitor.rescanAt = none ∧
      (m.FindsNews stage answer → m.due now delay ≤ now)) ∨
    (¬m.Publishes now stage answer ∧ m.FindsNews stage answer ∧ now < m.due now delay ∧
      (m.resume now stage answer).monitor.rescanAt = some (m.due now delay)) ∨
    (¬m.Publishes now stage answer ∧ ¬m.FindsNews stage answer ∧
      (m.resume now stage answer).monitor.rescanAt = m.rescanAt) := by
  by_cases hlists : ∃ idle c, m.Lists stage answer idle c
  · obtain ⟨idle, c, hc⟩ := hlists
    rw [hc.publishes_iff, hc.findsNews_iff, hc.resume now]
    have hcleared := m.rescanAt_publishAndRequest c
    cases idle with
    | true =>
      have htake : m.takeCandidates now true c = m.publishAndRequest c := by
        simp only [takeCandidates, hdelay, if_true]
      rw [htake]
      have hidle : ¬true = false := by decide
      exact .inl ⟨⟨fun h => absurd h hidle, rfl⟩, hcleared, fun h => absurd h.1 hidle⟩
    | false =>
      rw [takeCandidates_busy hdelay]
      by_cases hnews : m.hasNews c = true
      · by_cases hearly : now < m.due now delay
        · rw [if_pos hnews, if_pos hearly]
          refine .inr (.inl ⟨?_, ⟨rfl, hnews⟩, hearly, rfl⟩)
          -- one arms the deadline, the other clears it
          rintro ⟨-, hpublish⟩
          rw [← hpublish] at hcleared
          cases hcleared
        · rw [if_pos hnews, if_neg hearly]
          exact .inl ⟨⟨fun _ => hnews, rfl⟩, hcleared, fun _ => Nat.le_of_not_lt hearly⟩
      · rw [if_neg hnews]
        exact .inr (.inr ⟨fun h => hnews (h.1 rfl), fun h => hnews h.2, rfl⟩)
  · have hnone : ∀ idle c, ¬m.Lists stage answer idle c := by
      intro idle c hc
      exact hlists ⟨idle, c, hc⟩
    refine .inr (.inr ⟨?_, ?_, rescanAt_unlisted now hnone⟩)
    · rintro ⟨idle, c, hc, -⟩
      exact hnone idle c hc
    · rintro ⟨c, hc, -⟩
      exact hnone false c hc

/-! ## 3. How a scan began -/

/-- **A scan behind the gate** was let in there, and said then whether files were handed out. -/
theorem idle_of_resume {m : Monitor} {now : Nat} {stage stage' : Stage} {answer : Answer}
    {idle : Bool} (h : (m.resume now stage answer).next = .waiting stage')
    (hidle : stage'.idle? = some idle) :
    (stage = .scanGate ∧ answer = .entered ∧ m.scheduled.isEmpty = idle) ∨
      stage.idle? = some idle := by
  cases hs : stage.holdsGate with
  | false =>
    -- the call was just let in
    have hholds := Stage.holdsGate_of_idle? hidle
    rw [← Next.holdsGate, ← h] at hholds
    obtain ⟨rfl, ⟨rfl, hmay⟩ | ⟨g, f, rfl, hfiles⟩⟩ := holdsGate_resume m now hs hholds
    · change m.scanEntered.next = _ at h
      rw [scanEntered, if_pos hmay] at h
      cases h
      exact .inl ⟨rfl, rfl, Option.some.inj hidle⟩
    · -- a pull that is let in does not scan
      change (m.pullEntered g f).next = _ at h
      simp only [pullEntered, hfiles] at h
      cases h
      cases hidle
  | true =>
    right
    -- behind the gate only the refresh of a scan leads to a stage of a scan
    have hbehind := m.behind_resume now answer hs
    generalize m.resume now stage answer = t at hbehind h
    cases hbehind with
    | scanSynced idle' result =>
      simp only [scanSynced, synced_eq] at h
      split at h <;> cases h
      exact hidle
    | scanListed idle' result snapshot =>
      rw [next_scanListed] at h
      cases h
    | pullSynced g f attempt result =>
      rcases m.pullSynced_cases g f attempt result with
        ⟨-, -, hn⟩ | ⟨-, -, -, hn⟩ | ⟨-, -, -, hn⟩
      · cases hn.symm.trans h
      · cases hn.symm.trans h
        cases hidle
      · cases hn.symm.trans h
    | brokenDown => cases h
    | waiting =>
      cases h
      exact hidle

end Monitor

namespace Interplay

variable {ι : Type} [DecidableEq ι] {promise : Stage → Answer → Prop}

/-! ## 4. News and publications along a run -/

def FindsNews (w : Interplay ι) : Move ι → Prop
  | .resume who answer => ∃ stage, w.calls.get? who = some stage ∧ w.monitor.FindsNews stage answer
  | _ => False

def Publishes (w : Interplay ι) : Move ι → Prop
  | .resume who answer => ∃ stage, w.calls.get? who = some stage ∧
      w.monitor.Publishes w.now stage answer
  | _ => False

theorem findsNews_resume {w : Interplay ι} {who : ι} {stage : Stage}
    (waits : w.calls.get? who = some stage) {answer : Answer} :
    w.FindsNews (.resume who answer) ↔ w.monitor.FindsNews stage answer := by
  constructor
  · rintro ⟨_, waits', hnews⟩
    cases waits.symm.trans waits'
    exact hnews
  · intro hnews
    exact ⟨stage, waits, hnews⟩

theorem publishes_resume {w : Interplay ι} {who : ι} {stage : Stage}
    (waits : w.calls.get? who = some stage) {answer : Answer} :
    w.Publishes (.resume who answer) ↔ w.monitor.Publishes w.now stage answer := by
  constructor
  · rintro ⟨_, waits', hpublishes⟩
    cases waits.symm.trans waits'
    exact hpublishes
  · intro hpublishes
    exact ⟨stage, waits, hpublishes⟩

def due (w : Interplay ι) (delay : Nat) : Nat := w.monitor.due w.now delay

/-- **What a step does to the deadline,** as `Monitor.rescan_resume` says of a turn. -/
theorem Step.rescan {a b : Interplay ι} {m : Move ι} {delay : Nat} (h : Step promise a m b)
    (hdelay : a.monitor.config.reconfigurationAfterTimeoutMs = some delay) :
    (a.Publishes m ∧ b.monitor.rescanAt = none ∧ (a.FindsNews m → a.due delay ≤ a.now)) ∨
    (¬a.Publishes m ∧ a.FindsNews m ∧ a.now < a.due delay ∧
      b.monitor.rescanAt = some (a.due delay)) ∨
    (¬a.Publishes m ∧ ¬a.FindsNews m ∧ b.monitor.rescanAt = a.monitor.rescanAt) := by
  cases h with
  | pass => exact .inr (.inr ⟨not_false, not_false, rfl⟩)
  | hear e =>
    refine .inr (.inr ⟨not_false, not_false, ?_⟩)
    show (a.monitor.observe e).1.rescanAt = a.monitor.rescanAt
    fun_cases Monitor.observe <;> rfl
  | @begin who call idle =>
    exact .inr (.inr ⟨not_false, not_false, (Monitor.Unmoved.begin a.monitor a.now call).rescanAt⟩)
  | ask => exact .inr (.inr ⟨not_false, not_false, rfl⟩)
  | @resume who stage answer waits meets ready promised =>
    rw [publishes_resume waits, findsNews_resume waits]
    exact Monitor.rescan_resume hdelay a.now stage answer
  | drop => exact .inr (.inr ⟨not_false, not_false, rfl⟩)

def Unseen (promise : Stage → Answer → Prop) (first : Interplay ι) (ms : List (Move ι))
    (w : Interplay ι) : Prop :=
  Throughout promise (fun v m => ¬v.Publishes m ∧ ¬v.FindsNews m) first ms w ∨
    ∃ p q before m after, ms = before ++ m :: after ∧ Run promise first before p ∧
      p.Publishes m ∧ Step promise p m q ∧
      Throughout promise (fun v m => ¬v.Publishes m ∧ ¬v.FindsNews m) q after w

/-- **Something new was seen at a time** for the first time since files were last published, and it
    was not published since. -/
def SeenAt (promise : Stage → Answer → Prop) (first : Interplay ι) (ms : List (Move ι))
    (w : Interplay ι) (time : Nat) : Prop :=
  ∃ p q before m after, ms = before ++ m :: after ∧ Run promise first before p ∧
    Unseen promise first before p ∧ ¬p.Publishes m ∧ p.FindsNews m ∧ p.now = time ∧
    Step promise p m q ∧ Throughout promise (fun v m => ¬v.Publishes m) q after w

/-- **The first news** that a scan could publish which finds some now: they were seen before, or are
    seen now. -/
def FirstNews (promise : Stage → Answer → Prop) (first : Interplay ι) (ms : List (Move ι))
    (w : Interplay ι) (time : Nat) : Prop :=
  SeenAt promise first ms w time ∨ Unseen promise first ms w ∧ time = w.now

/-! ## 5. The deadline is the history -/

structure Deadline (delay : Nat) (time? : Option Nat) (w : Interplay ι) : Prop where
  delay : w.monitor.config.reconfigurationAfterTimeoutMs = some delay
  rescanAt : w.monitor.rescanAt = time?

omit [DecidableEq ι] in
theorem Deadline.due_none {w : Interplay ι} {delay : Nat} (h : w.Deadline delay none) :
    w.due delay = w.now + delay := by
  rw [due, Monitor.due, h.rescanAt]
  rfl

omit [DecidableEq ι] in
theorem Deadline.due_some {w : Interplay ι} {delay time : Nat} (h : w.Deadline delay (some time)) :
    w.due delay = time := by
  rw [due, Monitor.due, h.rescanAt]
  rfl

section History

variable {a b first w : Interplay ι} {m : Move ι} {ms : List (Move ι)} {d due : Nat}

theorem Step.sameDelay (h : Step promise a m b) :
    b.monitor.config.reconfigurationAfterTimeoutMs =
      a.monitor.config.reconfigurationAfterTimeoutMs := by
  have hconfig : b.monitor.config = a.monitor.config := congrArg Prod.fst h.settings
  rw [hconfig]

theorem Run.sameDelay (h : Run promise a ms b) :
    b.monitor.config.reconfigurationAfterTimeoutMs =
      a.monitor.config.reconfigurationAfterTimeoutMs := by
  have hconfig : b.monitor.config = a.monitor.config := congrArg Prod.fst h.settings
  rw [hconfig]

/-- A publication clears the deadline. -/
theorem Step.cleared (h : Step promise a m b)
    (hdelay : a.monitor.config.reconfigurationAfterTimeoutMs = some d) (hm : a.Publishes m) :
    b.Deadline d none := by
  rcases h.rescan hdelay with ⟨-, hcleared, -⟩ | ⟨hnot, -⟩ | ⟨hnot, -⟩
  · exact ⟨h.sameDelay.trans hdelay, hcleared⟩
  · exact absurd hm hnot
  · exact absurd hm hnot

/-- News that are not published arm it, and it runs from now. -/
theorem Step.arms (h : Step promise a m b) (ha : a.Deadline d none) (hm : ¬a.Publishes m)
    (hnews : a.FindsNews m) : b.Deadline d (some (a.now + d)) := by
  rcases h.rescan ha.delay with ⟨hpublishes, -⟩ | ⟨-, -, -, harms⟩ | ⟨-, hold, -⟩
  · exact absurd hpublishes hm
  · rw [ha.due_none] at harms
    exact ⟨h.sameDelay.trans ha.delay, harms⟩
  · exact absurd hnews hold

/-- Anything else leaves it unarmed. -/
theorem Step.unarmed (h : Step promise a m b) (ha : a.Deadline d none) (hm : ¬a.Publishes m)
    (hold : ¬a.FindsNews m) : b.Deadline d none := by
  rcases h.rescan ha.delay with ⟨hpublishes, -⟩ | ⟨-, hnews, -⟩ | ⟨-, -, hsame⟩
  · exact absurd hpublishes hm
  · exact absurd hnews hold
  · exact ⟨h.sameDelay.trans ha.delay, hsame.trans ha.rescanAt⟩

/-- **Once armed** the deadline stays until a publication. -/
theorem Step.armed (h : Step promise a m b) (ha : a.Deadline d (some due))
    (hm : ¬a.Publishes m) : b.Deadline d (some due) := by
  rcases h.rescan ha.delay with ⟨hpublishes, -⟩ | ⟨-, -, -, harms⟩ | ⟨-, -, hsame⟩
  · exact absurd hpublishes hm
  · rw [ha.due_some] at harms
    exact ⟨h.sameDelay.trans ha.delay, harms⟩
  · exact ⟨h.sameDelay.trans ha.delay, hsame.trans ha.rescanAt⟩

theorem Throughout.unarmed
    (h : Throughout promise (fun v m => ¬v.Publishes m ∧ ¬v.FindsNews m) a ms b)
    (ha : a.Deadline d none) : b.Deadline d none := by
  induction h with
  | nil => exact ha
  | cons here first _ ih => exact ih (first.unarmed ha here.1 here.2)

theorem Throughout.armed (h : Throughout promise (fun v m => ¬v.Publishes m) a ms b)
    (ha : a.Deadline d (some due)) : b.Deadline d (some due) := by
  induction h with
  | nil => exact ha
  | cons here first _ ih => exact ih (first.armed ha here)

/-- **Where no deadline is armed** files were just published, or none was armed before and nothing
    new was seen. -/
theorem Step.of_unarmed (h : Step promise a m b) (hb : b.Deadline d none) :
    a.Publishes m ∨ a.Deadline d none ∧ ¬a.Publishes m ∧ ¬a.FindsNews m := by
  have hdelay := h.sameDelay.symm.trans hb.delay
  rcases h.rescan hdelay with ⟨hpublishes, -⟩ | ⟨-, -, -, harms⟩ | ⟨hnot, hold, hsame⟩
  · exact .inl hpublishes
  · rw [hb.rescanAt] at harms
    cases harms
  · exact .inr ⟨⟨hdelay, hsame.symm.trans hb.rescanAt⟩, hnot, hold⟩

/-- **Where a deadline is armed** it was armed before, or news just armed it. -/
theorem Step.of_armed (h : Step promise a m b) (hb : b.Deadline d (some due)) :
    (a.Deadline d none ∧ ¬a.Publishes m ∧ a.FindsNews m ∧ a.now + d = due) ∨
      a.Deadline d (some due) ∧ ¬a.Publishes m := by
  have hdelay := h.sameDelay.symm.trans hb.delay
  rcases h.rescan hdelay with ⟨-, hcleared, -⟩ | ⟨hnot, hnews, -, harms⟩ | ⟨hnot, -, hsame⟩
  · rw [hb.rescanAt] at hcleared
    cases hcleared
  · have hdue : a.due d = due := Option.some.inj (harms.symm.trans hb.rescanAt)
    cases hearlier : a.monitor.rescanAt with
    | none =>
      have ha : a.Deadline d none := ⟨hdelay, hearlier⟩
      exact .inl ⟨ha, hnot, hnews, ha.due_none.symm.trans hdue⟩
    | some earlier =>
      have ha : a.Deadline d (some earlier) := ⟨hdelay, hearlier⟩
      rw [← ha.due_some, hdue] at ha
      exact .inr ⟨ha, hnot⟩
  · exact .inr ⟨⟨hdelay, hsame.symm.trans hb.rescanAt⟩, hnot⟩

/-- **No deadline is armed** exactly while nothing new was seen. -/
theorem Run.unarmed_iff (h : Run promise first ms w) (hfirst : first.Deadline d none) :
    w.Deadline d none ↔ Unseen promise first ms w := by
  constructor
  · intro hw
    rcases h.since Step.of_unarmed hw with
      ⟨-, hall⟩ | ⟨p, q, before, m, after, hms, hbefore, hpublishes, hstep, -, hall⟩
    · exact .inl hall
    · exact .inr ⟨p, q, before, m, after, hms, hbefore, hpublishes, hstep, hall⟩
  · rintro (hall | ⟨p, q, before, m, after, rfl, hbefore, hpublishes, hstep, hall⟩)
    · exact hall.unarmed hfirst
    · have hdelay := hbefore.sameDelay.trans hfirst.delay
      exact hall.unarmed (hstep.cleared hdelay hpublishes)

/-- **The deadline that is armed** runs from the first news that were seen. -/
theorem Run.armed_iff (h : Run promise first ms w) (hfirst : first.Deadline d none) :
    w.Deadline d (some due) ↔ ∃ time, SeenAt promise first ms w time ∧ time + d = due := by
  constructor
  · intro hw
    rcases h.since Step.of_armed hw with ⟨hearlier, -⟩ |
      ⟨p, q, before, m, after, hms, hbefore, ⟨hp, hnot, hnews, hdue⟩, hstep, -, hall⟩
    · cases hfirst.rescanAt.symm.trans hearlier.rescanAt
    · have hunseen := (hbefore.unarmed_iff hfirst).1 hp
      exact ⟨p.now, ⟨p, q, before, m, after, hms, hbefore, hunseen, hnot, hnews, rfl, hstep, hall⟩,
        hdue⟩
  · rintro ⟨_, ⟨p, q, before, m, after, rfl, hbefore, hunseen, hnot, hnews, rfl, hstep, hall⟩, rfl⟩
    have hp := (hbefore.unarmed_iff hfirst).2 hunseen
    exact hall.armed (hstep.arms hp hnot hnews)

/-- **When news are due** follows from the first news. -/
theorem Run.firstNews_iff (h : Run promise first ms w) (hfirst : first.Deadline d none)
    {time : Nat} : FirstNews promise first ms w time ↔ w.due d = time + d := by
  have hdelay := h.sameDelay.trans hfirst.delay
  rw [FirstNews, ← h.unarmed_iff hfirst]
  cases hat : w.monitor.rescanAt with
  | none =>
    have hw : w.Deadline d none := ⟨hdelay, hat⟩
    rw [hw.due_none]
    constructor
    · rintro (hseen | ⟨-, rfl⟩)
      · have harmed := (h.armed_iff hfirst).2 ⟨time, hseen, rfl⟩
        cases hat.symm.trans harmed.rescanAt
      · rfl
    · intro hnow
      exact .inr ⟨hw, by omega⟩
  | some due =>
    have hw : w.Deadline d (some due) := ⟨hdelay, hat⟩
    obtain ⟨earlier, hseen, rfl⟩ := (h.armed_iff hfirst).1 hw
    rw [hw.due_some]
    constructor
    · rintro (hseen' | ⟨hnone, -⟩)
      · have harmed := (h.armed_iff hfirst).2 ⟨time, hseen', rfl⟩
        exact Option.some.inj (hat.symm.trans harmed.rescanAt)
      · cases hat.symm.trans hnone.rescanAt
    · intro hsame
      have htime : earlier = time := by omega
      rw [htime] at hseen
      exact .inl hseen

theorem Run.exists_firstNews (h : Run promise first ms w) (hfirst : first.Deadline d none) :
    ∃ time, FirstNews promise first ms w time := by
  have hdelay := h.sameDelay.trans hfirst.delay
  cases hat : w.monitor.rescanAt with
  | none =>
    have hunseen := (h.unarmed_iff hfirst).1 ⟨hdelay, hat⟩
    exact ⟨w.now, .inr ⟨hunseen, rfl⟩⟩
  | some due =>
    obtain ⟨time, hseen, -⟩ := (h.armed_iff hfirst).1 ⟨hdelay, hat⟩
    exact ⟨time, .inl hseen⟩

end History

/-! ## 6. When a rescan publishes -/

def Scans (w : Interplay ι) (who : ι) (idle : Bool) : Prop :=
  ∃ stage, w.calls.get? who = some stage ∧ stage.idle? = some idle

/-- Who scans behind the gate has just been let in, or was scanning. -/
theorem Step.idle {a b : Interplay ι} {m : Move ι} {who : ι} {idle : Bool}
    (h : Step promise a m b) (hb : b.Scans who idle) :
    (m = .resume who .entered ∧ a.calls.get? who = some .scanGate ∧
        a.monitor.scheduled.isEmpty = idle) ∨
      a.Scans who idle := by
  obtain ⟨stage', hstage', hidle⟩ := hb
  cases h with
  | pass => exact .inr ⟨stage', hstage', hidle⟩
  | hear => exact .inr ⟨stage', hstage', hidle⟩
  | @begin other call _ =>
    rcases waiting_of_play hstage' with ⟨-, hnext⟩ | ⟨-, hbefore⟩
    · -- no call begins behind the gate
      have hholds := Stage.holdsGate_of_idle? hidle
      have houtside := a.monitor.holdsGate_begin a.now call
      rw [hnext] at houtside
      cases hholds.symm.trans houtside
    · exact .inr ⟨stage', hbefore, hidle⟩
  | ask => exact .inr ⟨stage', hstage', hidle⟩
  | @resume other stage answer waits meets ready promised =>
    rcases waiting_of_play hstage' with ⟨rfl, hnext⟩ | ⟨-, hbefore⟩
    · rcases Monitor.idle_of_resume hnext hidle with ⟨rfl, rfl, hempty⟩ | hbehind
      · exact .inl ⟨rfl, waits, hempty⟩
      · exact .inr ⟨stage, waits, hbehind⟩
    · exact .inr ⟨stage', hbefore, hidle⟩
  | drop => exact .inr ⟨stage', Catalog.get?_of_erase hstage', hidle⟩

/-- **Who scans was let in,** and scans ever since. -/
theorem Run.entered {now : Nat} {config : Config} {keyOf : KeyRule} {listing : String}
    {w : Interplay ι} {ms : List (Move ι)}
    (h : Run promise (start now config keyOf listing) ms w) {who : ι} {idle : Bool}
    (hscans : w.Scans who idle) :
    ∃ p q before after, ms = before ++ .resume who .entered :: after ∧
      Run promise (start now config keyOf listing) before p ∧
      p.calls.get? who = some .scanGate ∧ p.monitor.scheduled.isEmpty = idle ∧
      Step promise p (.resume who .entered) q ∧
      Throughout promise (fun v _ => v.Scans who idle) q after w := by
  have hkeeps : ∀ {p q : Interplay ι} {m : Move ι}, Step promise p m q → q.Scans who idle →
      (m = .resume who .entered ∧ p.calls.get? who = some .scanGate ∧
          p.monitor.scheduled.isEmpty = idle) ∨
        p.Scans who idle ∧ p.Scans who idle := by
    intro p q m hpq hq
    exact (hpq.idle hq).imp_right fun hp => ⟨hp, hp⟩
  rcases h.since (P := fun v => v.Scans who idle) hkeeps hscans with
    ⟨⟨_, hnone, -⟩, -⟩ | ⟨p, q, before, m, after, hms, hbefore, ⟨rfl, hgate, hidle⟩, hstep, -, hall⟩
  · -- nobody calls before the first move
    simp [start] at hnone
  · exact ⟨p, q, before, after, hms, hbefore, hgate, hidle, hstep, hall⟩

/-- **A scan next to files that are handed out publishes** exactly if it has news, and they are
    due. -/
theorem Run.publishes_iff {first w b : Interplay ι} {ms : List (Move ι)} {d : Nat}
    (h : Run promise first ms w) (hfirst : first.Deadline d none) {who : ι} {answer : Answer}
    (hstep : Step promise w (.resume who answer) b)
    (hlisting : w.calls.get? who = some (.scanListing false)) :
    w.Publishes (.resume who answer) ↔ w.FindsNews (.resume who answer) ∧
      ∃ time, FirstNews promise first ms w time ∧ time + d ≤ w.now := by
  have hw := h.sameDelay.trans hfirst.delay
  constructor
  · intro hpublishes
    have hnews : w.FindsNews (.resume who answer) := by
      obtain ⟨idle, c, hlists, hnews, -⟩ := (publishes_resume hlisting).1 hpublishes
      obtain ⟨listed, snapshot, hidle, hanswer, hselect⟩ := hlists
      cases hidle
      exact (findsNews_resume hlisting).2
        ⟨c, ⟨listed, snapshot, rfl, hanswer, hselect⟩, hnews rfl⟩
    obtain ⟨time, htime⟩ := h.exists_firstNews hfirst
    have hdue := (h.firstNews_iff hfirst).1 htime
    refine ⟨hnews, time, htime, ?_⟩
    rcases hstep.rescan hw with ⟨-, -, hover⟩ | ⟨hnot, -⟩ | ⟨hnot, -⟩
    · rw [← hdue]
      exact hover hnews
    · exact absurd hpublishes hnot
    · exact absurd hpublishes hnot
  · rintro ⟨hnews, time, htime, hover⟩
    have hdue := (h.firstNews_iff hfirst).1 htime
    rcases hstep.rescan hw with ⟨hpublishes, -⟩ | ⟨-, -, hearly, -⟩ | ⟨-, hold, -⟩
    · exact hpublishes
    · omega
    · exact absurd hnews hold

/-- **Reconfiguration delay.**  A scan that began next to files that are handed out publishes
    exactly if its listing could be selected and names a key that is not handed out, and the delay
    is over since the first such scan behind the last publication; else it is quiet.  There is one
    such first time.  No step but a publication moves a deadline that is armed, and every
    publication clears it. -/
theorem published_iff_due (promise : Stage → Answer → Prop) (now : Nat) (config : Config)
    (keyOf : KeyRule) (listing : String) {w : Interplay ι} {ms : List (Move ι)} {delay : Nat}
    (hdelay : config.reconfigurationAfterTimeoutMs = some delay)
    (hrun : Run promise (start now config keyOf listing) ms w) :
    (∃ time, FirstNews promise (start now config keyOf listing) ms w time ∧
      ∀ other, FirstNews promise (start now config keyOf listing) ms w other → other = time) ∧
    (∀ who idle, w.calls.get? who = some (.scanListing idle) →
      ∃ p q before after, ms = before ++ .resume who .entered :: after ∧
        Run promise (start now config keyOf listing) before p ∧
        p.calls.get? who = some .scanGate ∧ p.monitor.scheduled.isEmpty = idle ∧
        Step promise p (.resume who .entered) q ∧
        Throughout promise (fun v _ => v.Scans who idle) q after w) ∧
    ∀ {m : Move ι} {b : Interplay ι}, Step promise w m b →
      (∀ who answer, m = .resume who answer → w.calls.get? who = some (.scanListing false) →
        (w.Publishes m ↔ w.FindsNews m ∧
          ∃ time, FirstNews promise (start now config keyOf listing) ms w time ∧
            time + delay ≤ w.now) ∧
        (¬w.Publishes m → ∃ t, w.turn? m = some t ∧ w.monitor.Quiet t)) ∧
      (w.Publishes m → b.monitor.rescanAt = none) ∧
      (¬w.Publishes m → ∀ deadline, w.monitor.rescanAt = some deadline →
        b.monitor.rescanAt = some deadline) := by
  have hfirst : (start now config keyOf listing : Interplay ι).Deadline delay none := ⟨hdelay, rfl⟩
  have hw := hrun.sameDelay.trans hfirst.delay
  refine ⟨?_, ?_, ?_⟩
  · obtain ⟨time, hnews⟩ := hrun.exists_firstNews hfirst
    refine ⟨time, hnews, ?_⟩
    intro other hother
    have hdue := (hrun.firstNews_iff hfirst).1 hnews
    have hdue' := (hrun.firstNews_iff hfirst).1 hother
    omega
  · intro who idle hlisting
    exact hrun.entered ⟨_, hlisting, rfl⟩
  · intro m b hstep
    refine ⟨?_, ?_, ?_⟩
    · rintro who answer rfl hlisting
      refine ⟨hrun.publishes_iff hfirst hstep hlisting, ?_⟩
      intro hnot
      rw [publishes_resume hlisting] at hnot
      refine ⟨w.monitor.resume w.now (.scanListing false) answer, ?_, ?_⟩
      · simp only [turn?, hlisting, Option.map_some]
      · exact Monitor.quiet_of_not_publishes hw hnot
    · intro hpublishes
      exact (hstep.cleared hw hpublishes).rescanAt
    · intro hnot deadline hat
      exact (hstep.armed ⟨hw, hat⟩ hnot).rescanAt

/-- A file is handed out.  A scan finds another one at 100 and waits; one that breaks down at 150,
    and one that finds a third file at 170, move nothing; at 200 all three are published. -/
theorem published_iff_due_later :
    let promise : Stage → Answer → Prop := fun _ _ => true = true
    let file (name : String) : Metadata := ⟨⟨"file", none, "/" ++ name, none, none⟩, name, 1,
      default, none⟩
    let config : Config := { reconfigurationAfterTimeoutMs := some 100 }
    let first : Interplay Nat := start 0 config (fun m => .ok ⟨m.name⟩) "files"
    let ms : List (Move Nat) :=
      foundMoves [file "a"] ++ pullMoves 2 1 1 ++
        [.resume 2 (.refreshed (.ok .empty)), .pass 100] ++
        scanMoves 1 [file "a", file "b"] .empty ++
        [.pass 150] ++ tickMoves 1 .empty ++ [.resume 1 .brokenDown, .pass 170] ++
        scanMoves 1 [file "a", file "b", file "c"] .empty ++ [.pass 200] ++ tickMoves 1 .empty
    let m : Move Nat := .resume 1 (.listed (.ok [file "a", file "b", file "c"]) .empty)
    ∃ w b, Run promise first ms w ∧ Step promise w m b ∧ w.Publishes m ∧ w.FindsNews m ∧
      FirstNews promise first ms w 100 ∧ 100 + 100 ≤ w.now ∧ b.monitor.rescanAt = none := by
  intro promise file config first ms m
  let w := (first.moves? (fun _ _ => true) ms).get (by decide +kernel)
  let b := (w.move? (fun _ _ => true) m).get (by decide +kernel)
  have hrun : Run promise first ms w := .of_moves? (Option.some_get _).symm
  have hstep : Step promise w m b := .of_move? (Option.some_get _).symm
  have hlisting : w.calls.get? 1 = some (.scanListing false) := by decide +kernel
  have harmed : w.monitor.rescanAt = some 200 := by decide +kernel
  have hcleared : b.monitor.rescanAt = none := by decide +kernel
  have hover : 100 + 100 ≤ w.now := by decide +kernel
  have hdelay : config.reconfigurationAfterTimeoutMs = some 100 := rfl
  obtain ⟨-, -, hsteps⟩ :=
    published_iff_due promise 0 config (fun m => .ok ⟨m.name⟩) "files" hdelay hrun
  obtain ⟨hlaw, -, hkept⟩ := hsteps hstep
  have hpublishes : w.Publishes m := by
    apply Classical.byContradiction
    intro hnot
    cases hcleared.symm.trans (hkept hnot 200 harmed)
  have hnews := ((hlaw 1 _ rfl hlisting).1.1 hpublishes).1
  have hfirst : first.Deadline 100 none := ⟨hdelay, rfl⟩
  have hdue : w.due 100 = 100 + 100 :=
    Deadline.due_some ⟨hrun.sameDelay.trans hfirst.delay, harmed⟩
  exact ⟨w, b, hrun, hstep, hpublishes, hnews, (hrun.firstNews_iff hfirst).2 hdue, hover, hcleared⟩

end Interplay

end Intake
