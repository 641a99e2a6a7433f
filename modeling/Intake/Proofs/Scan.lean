import Intake.Proofs.HandOver

/-!
# Scan — all or nothing

A scan lasts from when it is let in at the gate to the turn that ends it.  While it is under way the
files that are handed out, and those that wait for it, change by news from the log alone
(`Scanning.sets`).  Its last turn either skips the scan and changes nothing, or publishes what it
found (`Monitor.ScanTurn`).
-/

namespace Intake

namespace Monitor

/-! ## 1. Quiet turns -/

def sets (m : Monitor) : Catalog PartitionKey Metadata × Catalog PartitionKey Metadata :=
  (m.scheduled, m.scanned)

theorem scheduled_of_sets {m m' : Monitor} (h : m.sets = m'.sets) : m.scheduled = m'.scheduled :=
  congrArg Prod.fst h

def hearAll (m : Monitor) (es : List LogEntry) : Monitor :=
  es.foldl (fun m e => (m.observe e).1) m

theorem hearAll_append (m : Monitor) (es : List LogEntry) (e : LogEntry) :
    m.hearAll (es ++ [e]) = ((m.hearAll es).observe e).1 := List.foldl_append

/-- What news do to the sets does not depend on anything else. -/
theorem sets_observe {m m' : Monitor} (h : m.sets = m'.sets) (e : LogEntry) :
    (m.observe e).1.sets = (m'.observe e).1.sets := by
  have hscheduled : m.scheduled = m'.scheduled := scheduled_of_sets h
  have hscanned : m.scanned = m'.scanned := congrArg Prod.snd h
  unfold observe
  cases e.value with
  | none => exact h
  | some r =>
    by_cases hfinished : r.status.isCompleted = true
    · simp [sets, hfinished, hscheduled, hscanned]
    · by_cases hcleaned : r.status.isCleaned = true
      · by_cases hout : m'.scheduled.contains e.key = true
        · simp [sets, hfinished, hcleaned, hout, hscheduled, hscanned]
        · simp [sets, hfinished, hcleaned, hout, hscheduled, hscanned]
      · simp [sets, hfinished, hcleaned, hscheduled, hscanned]

theorem isEmpty_scheduled_hearAll {m : Monitor} (h : m.scheduled.isEmpty = true)
    (es : List LogEntry) : (m.hearAll es).scheduled.isEmpty = true := by
  induction es generalizing m with
  | nil => exact h
  | cons e es ih => exact ih (isEmpty_scheduled_observe h e)

theorem requested_observe (m : Monitor) (e : LogEntry) :
    (m.observe e).1.requested = m.requested := by
  fun_cases observe <;> rfl

structure Quiet (m : Monitor) (t : Turn) : Prop where
  sets : t.monitor.sets = m.sets
  requested : t.monitor.requested = m.requested
  silent : Effect.request ∉ t.effects

theorem Unmoved.sets {m m' : Monitor} (h : Unmoved m m') : m'.sets = m.sets := by
  unfold Monitor.sets
  rw [h.scheduled, h.scanned]

theorem request_notMem_syncEffects (timeoutMs : Nat) (result : Except StoreError Snapshot) :
    Effect.request ∉ syncEffects timeoutMs result := by
  unfold syncEffects
  split <;> simp

theorem request_notMem_tidyEffect (rs : CleanupResults) :
    Effect.request ∉ rs.map tidyEffect := by
  intro h
  obtain ⟨⟨r, outcome⟩, -, heffect⟩ := List.mem_map.1 h
  cases outcome with
  | succeed =>
    unfold tidyEffect at heffect
    split at heffect
    · split at heffect <;> cases heffect
    · cases heffect
  | fail => cases heffect

theorem request_notMem_rejected (m : Monitor) (r : Rejection) :
    Effect.request ∉ m.rejected r := by
  cases r <;> simp [rejected]

theorem Quiet.scanIfRunning (m : Monitor) : m.Quiet m.scanIfRunning := by
  unfold Monitor.scanIfRunning
  split <;> exact ⟨rfl, rfl, List.not_mem_nil⟩

theorem Quiet.begin (m : Monitor) (now : Nat) (call : Call) : m.Quiet (m.begin now call) := by
  cases call with
  | startup => exact ⟨rfl, rfl, List.not_mem_nil⟩
  | tick =>
    simp only [Monitor.begin, beginTick]
    split
    · exact .scanIfRunning m
    · exact ⟨rfl, rfl, List.not_mem_nil⟩
  | pull g f =>
    simp only [Monitor.begin, beginPull]
    split <;> exact ⟨rfl, rfl, List.not_mem_nil⟩
  | cleanup =>
    simp only [Monitor.begin]
    split <;> exact ⟨rfl, rfl, List.not_mem_nil⟩
  | sync t => exact ⟨rfl, rfl, List.not_mem_nil⟩
  | close =>
    simp only [Monitor.begin, beginClose]
    split <;> exact ⟨rfl, rfl, List.not_mem_nil⟩

theorem Quiet.scanEntered (m : Monitor) : m.Quiet m.scanEntered := by
  unfold Monitor.scanEntered
  split <;> exact ⟨rfl, rfl, List.not_mem_nil⟩

theorem Quiet.scanSynced (m : Monitor) (idle : Bool) (result : Except StoreError Snapshot) :
    m.Quiet (m.scanSynced idle result) := by
  have hsync := request_notMem_syncEffects m.config.readToEndTimeoutMs result
  simp only [Monitor.scanSynced, synced_eq]
  split
  · refine ⟨rfl, rfl, ?_⟩
    simp [hsync]
  · refine ⟨rfl, rfl, ?_⟩
    simp [hsync]

/-- **Away from the gate** every turn is quiet. -/
theorem Quiet.resume (m : Monitor) (now : Nat) {stage : Stage} {answer : Answer}
    (h : stage.holdsGate = false) (hout : answer ≠ .entered) :
    m.Quiet (m.resume now stage answer) := by
  have hsets := (Unmoved.resume m now answer h).sets
  unfold Monitor.resume at hsets ⊢
  split at hsets
  case h_1 result =>
    have hsync := request_notMem_syncEffects m.config.startupReadToEndTimeoutMs result
    simp only [synced_eq] at hsets ⊢
    exact ⟨hsets, rfl, by simpa using hsync⟩
  case h_2 results =>
    have htidy := request_notMem_tidyEffect results
    simp only [tidied_eq] at hsets ⊢
    have hscan := Quiet.scanIfRunning { m with completed := m.completed ++ results.failed }
    exact ⟨hsets, hscan.requested, by simp [htidy, hscan.silent]⟩
  case h_3 => exact absurd rfl hout
  case h_4 => cases h
  case h_5 => cases h
  case h_6 => exact ⟨rfl, rfl, List.not_mem_nil⟩
  case h_7 => exact absurd rfl hout
  case h_8 => cases h
  case h_9 results =>
    have htidy := request_notMem_tidyEffect results
    simp only [tidied_eq] at hsets ⊢
    exact ⟨hsets, rfl, by simpa using htidy⟩
  case h_10 timeoutMs result =>
    have hsync := request_notMem_syncEffects timeoutMs result
    simp only [synced_eq] at hsets ⊢
    exact ⟨hsets, rfl, by simpa using hsync⟩
  case h_11 result =>
    have hsync := request_notMem_syncEffects m.config.readToEndTimeoutMs result
    simp only [closeSynced, synced_eq] at hsets ⊢
    split
    · exact ⟨rfl, rfl, by simpa using hsync⟩
    · exact ⟨rfl, rfl, by simpa using hsync⟩
  case h_12 results =>
    have htidy := request_notMem_tidyEffect results
    simp only [tidied_eq] at hsets ⊢
    exact ⟨hsets, rfl, by simpa using htidy⟩
  -- break-downs, and answers that do not fit
  case h_13 => exact ⟨rfl, rfl, by simp⟩
  case h_14 => exact ⟨rfl, rfl, by simp⟩
  all_goals exact ⟨rfl, rfl, List.not_mem_nil⟩

/-! ## 2. Turns of a scan -/

/-- **Why a scan is skipped:** next to files that are handed out it may not look for others, or
    finds none, or is too early; without such files the log could not be read to its end; or the
    listing is missing, or is rejected as a whole.  A scan that breaks down is skipped, too. -/
inductive Skips (m : Monitor) (now : Nat) : Stage → Answer → Prop where
  | busy (out : m.scheduled.isEmpty = false)
      (fixed : m.config.reconfigurationAfterTimeoutMs = none) : Skips m now .scanGate .entered
  | unread (cause : StoreError) : Skips m now (.scanSync true) (.refreshed (.error cause))
  | unlisted (idle : Bool) (cause : Error) (snapshot : Snapshot) :
      Skips m now (.scanListing idle) (.listed (.error cause) snapshot)
  | noKey (idle : Bool) {listed : List Metadata} {snapshot : Snapshot} {cause : Error}
      (selected : Candidates.select m.keyOf snapshot listed = .error (.noKey cause)) :
      Skips m now (.scanListing idle) (.listed (.ok listed) snapshot)
  | conflicts (idle : Bool) {listed : List Metadata} {snapshot : Snapshot}
      {all : List KeyConflict}
      (selected : Candidates.select m.keyOf snapshot listed = .error (.conflicts all)) :
      Skips m now (.scanListing idle) (.listed (.ok listed) snapshot)
  | nothingNew {listed : List Metadata} {snapshot : Snapshot}
      {candidates : Catalog PartitionKey Metadata} {delay : Nat}
      (selected : Candidates.select m.keyOf snapshot listed = .ok candidates)
      (allowed : m.config.reconfigurationAfterTimeoutMs = some delay)
      (known : ∀ k, candidates.get? k ≠ none → m.scheduled.get? k ≠ none) :
      Skips m now (.scanListing false) (.listed (.ok listed) snapshot)
  | early {listed : List Metadata} {snapshot : Snapshot}
      {candidates : Catalog PartitionKey Metadata} {delay : Nat}
      (selected : Candidates.select m.keyOf snapshot listed = .ok candidates)
      (allowed : m.config.reconfigurationAfterTimeoutMs = some delay)
      (waits : now < m.rescanAt.getD (now + delay)) :
      Skips m now (.scanListing false) (.listed (.ok listed) snapshot)
  | brokenDown (stage : Stage) : Skips m now stage .brokenDown

theorem hasNews_iff {m : Monitor} {candidates : Catalog PartitionKey Metadata} :
    m.hasNews candidates = true ↔ ∃ k, candidates.get? k ≠ none ∧ m.scheduled.get? k = none := by
  have hhas : ∀ (c : Catalog PartitionKey Metadata) k, c.contains k = true ↔ c.get? k ≠ none := by
    intro c k
    rw [Catalog.contains_eq_isSome, Option.isSome_iff_ne_none]
  simp only [hasNews, Bool.not_eq_true', List.all_eq_false, Catalog.mem_keys_iff, hhas,
    Classical.not_not]

/-- **What becomes of candidates:** there is nothing new, it is too early, or they are published. -/
theorem takeCandidates_cases (m : Monitor) (now : Nat) (idle : Bool)
    (candidates : Catalog PartitionKey Metadata) :
    (∃ delay, idle = false ∧ m.config.reconfigurationAfterTimeoutMs = some delay ∧
      m.hasNews candidates = false ∧ m.takeCandidates now idle candidates = .finish m .done) ∨
    (∃ delay time, idle = false ∧ m.config.reconfigurationAfterTimeoutMs = some delay ∧
      now < m.rescanAt.getD (now + delay) ∧
      m.takeCandidates now idle candidates = .finish { m with rescanAt := time } .done) ∨
    ((∀ delay, idle = false → m.config.reconfigurationAfterTimeoutMs = some delay →
        m.hasNews candidates = true ∧ ¬now < m.rescanAt.getD (now + delay)) ∧
      m.takeCandidates now idle candidates = m.publishAndRequest candidates) := by
  unfold takeCandidates
  cases hallowed : m.config.reconfigurationAfterTimeoutMs with
  | none => exact .inr (.inr ⟨nofun, rfl⟩)
  | some delay =>
    cases idle with
    | true => exact .inr (.inr ⟨nofun, rfl⟩)
    | false =>
      cases hnews : m.hasNews candidates with
      | false => exact .inl ⟨delay, rfl, rfl, rfl, rfl⟩
      | true =>
        by_cases hwaits : now < m.rescanAt.getD (now + delay)
        · exact .inr (.inl ⟨delay, some (m.rescanAt.getD (now + delay)), rfl, rfl, hwaits,
            by simp [hwaits]⟩)
        · refine .inr (.inr ⟨?_, by simp [hwaits]⟩)
          rintro _ - ⟨⟩
          exact ⟨rfl, hwaits⟩

/-- **The stages of a scan** that holds the gate since the monitor was `m`.  A scan that calls
    itself idle has no file handed out; any other began next to such files, and is allowed to. -/
def ScanStage (m m' : Monitor) : Stage → Prop
  | .scanGate => True
  | .scanSync idle | .scanListing idle =>
    if idle then m'.scheduled.isEmpty = true
    else m.scheduled.isEmpty = false ∧ m'.config.reconfigurationAfterTimeoutMs ≠ none
  | _ => False

theorem ScanStage.mono {m a b : Monitor} {stage : Stage} (h : ScanStage m a stage)
    (hconfig : b.config = a.config)
    (hempty : a.scheduled.isEmpty = true → b.scheduled.isEmpty = true) : ScanStage m b stage := by
  have hidle : ∀ idle : Bool,
      (if idle then a.scheduled.isEmpty = true
        else m.scheduled.isEmpty = false ∧ a.config.reconfigurationAfterTimeoutMs ≠ none) →
      if idle then b.scheduled.isEmpty = true
        else m.scheduled.isEmpty = false ∧ b.config.reconfigurationAfterTimeoutMs ≠ none := by
    intro idle h
    rw [hconfig]
    cases idle with
    | true => exact hempty h
    | false => exact h
  cases stage
  case scanGate => exact h
  case scanSync idle => exact hidle idle h
  case scanListing idle => exact hidle idle h
  all_goals exact h

inductive ScanTurn (m : Monitor) (now : Nat) (stage : Stage) (answer : Answer) : Turn → Prop where
  | enters {t : Turn} (gate : stage = .scanGate) (may : m.mayScan = true)
      (next : t.next = .waiting (.scanSync m.scheduled.isEmpty)) (quiet : m.Quiet t) :
      ScanTurn m now stage answer t
  | reads {t : Turn} {idle : Bool} (sync : stage = .scanSync idle)
      (next : t.next = .waiting (.scanListing idle)) (quiet : m.Quiet t) :
      ScanTurn m now stage answer t
  | skips {t : Turn} {reply : Reply} (next : t.next = .finished reply)
      (skips : m.Skips now stage answer) (quiet : m.Quiet t) : ScanTurn m now stage answer t
  | publishes {idle : Bool} {listed : List Metadata} {snapshot : Snapshot}
      {candidates : Catalog PartitionKey Metadata} (listing : stage = .scanListing idle)
      (listed_eq : answer = .listed (.ok listed) snapshot)
      (selected : Candidates.select m.keyOf snapshot listed = .ok candidates)
      (taken : ¬m.Skips now stage answer) :
      ScanTurn m now stage answer (m.publishAndRequest candidates)

theorem scanTurn_scanEntered (m : Monitor) (now : Nat) :
    m.ScanTurn now .scanGate .entered m.scanEntered := by
  have hquiet := Quiet.scanEntered m
  unfold scanEntered at hquiet ⊢
  by_cases hmay : m.mayScan = true
  · rw [if_pos hmay] at hquiet ⊢
    exact .enters rfl hmay rfl hquiet
  · rw [if_neg hmay] at hquiet ⊢
    rw [Bool.not_eq_true, mayScan, Bool.or_eq_false_iff, Option.isSome_eq_false_iff,
      Option.isNone_iff_eq_none] at hmay
    exact .skips rfl (.busy hmay.1 hmay.2) hquiet

theorem scanTurn_scanSynced (m : Monitor) (now : Nat) (idle : Bool)
    (result : Except StoreError Snapshot) :
    m.ScanTurn now (.scanSync idle) (.refreshed result) (m.scanSynced idle result) := by
  have hquiet := Quiet.scanSynced m idle result
  have hnext : (m.scanSynced idle result).next =
      if idle && !result.isOk then .finished .done else .waiting (.scanListing idle) := by
    simp only [scanSynced, synced_eq]
    split <;> rfl
  cases hskip : idle && !result.isOk with
  | false =>
    rw [hskip] at hnext
    exact .reads rfl hnext hquiet
  | true =>
    rw [hskip] at hnext
    cases result with
    | ok s => simp [Except.isOk, Except.toBool] at hskip
    | error cause =>
      obtain ⟨rfl, -⟩ := Bool.and_eq_true_iff.1 hskip
      exact .skips hnext (.unread cause) hquiet

theorem scanTurn_scanListed (m : Monitor) (now : Nat) (idle : Bool)
    (result : Except Error (List Metadata)) (snapshot : Snapshot) :
    m.ScanTurn now (.scanListing idle) (.listed result snapshot)
      (m.scanListed now idle result snapshot) := by
  unfold scanListed
  cases result with
  | error cause => exact .skips rfl (.unlisted idle cause snapshot) ⟨rfl, rfl, by simp⟩
  | ok listed =>
    cases hselect : Candidates.select m.keyOf snapshot listed with
    | error r =>
      have hsilent := request_notMem_rejected m r
      simp only [hselect]
      refine .skips rfl ?_ ⟨rfl, rfl, by simpa using hsilent⟩
      cases r with
      | conflicts all => exact .conflicts idle hselect
      | noKey cause => exact .noKey idle hselect
    | ok candidates =>
      simp only [hselect]
      rcases m.takeCandidates_cases now idle candidates with
        ⟨delay, rfl, hallowed, hnews, htake⟩ | ⟨delay, time, rfl, hallowed, hwaits, htake⟩ |
        ⟨htaken, htake⟩
      · rw [htake]
        refine .skips rfl (.nothingNew hselect hallowed ?_) ⟨rfl, rfl, List.not_mem_nil⟩
        intro k hk hout
        rw [hasNews_iff.2 ⟨k, hk, hout⟩] at hnews
        cases hnews
      · rw [htake]
        exact .skips rfl (.early hselect hallowed hwaits) ⟨rfl, rfl, List.not_mem_nil⟩
      · rw [htake]
        refine .publishes rfl rfl hselect ?_
        -- the listing was selected, and the delay is over
        intro hskips
        cases hskips with
        | noKey _ selected =>
          rw [hselect] at selected
          cases selected
        | conflicts _ selected =>
          rw [hselect] at selected
          cases selected
        | nothingNew selected allowed known =>
          cases hselect.symm.trans selected
          obtain ⟨k, hk, hout⟩ := hasNews_iff.1 (htaken _ rfl allowed).1
          exact known k hk hout
        | early _ allowed waits => exact (htaken _ rfl allowed).2 waits

/-- **Every turn of a scan** is one of these. -/
theorem scanTurn_resume (m : Monitor) (now : Nat) {m₀ : Monitor} {stage : Stage} {answer : Answer}
    (hstage : ScanStage m₀ m stage) (hmeets : answer.meets (stage.need m.config) = true) :
    m.ScanTurn now stage answer (m.resume now stage answer) := by
  have hbroken : ∀ stage, m.ScanTurn now stage .brokenDown (.finish m .brokenDown) :=
    fun stage => .skips rfl (.brokenDown stage) ⟨rfl, rfl, List.not_mem_nil⟩
  cases stage
  case scanGate =>
    cases answer with
    | entered => exact m.scanTurn_scanEntered now
    | _ => cases hmeets
  case scanSync idle =>
    cases answer with
    | refreshed result => exact m.scanTurn_scanSynced now idle result
    | brokenDown => exact hbroken _
    | _ => cases hmeets
  case scanListing idle =>
    cases answer with
    | listed result snapshot => exact m.scanTurn_scanListed now idle result snapshot
    | brokenDown => exact hbroken _
    | _ => cases hmeets
  all_goals exact hstage.elim

/-- **A scan that goes on** holds the gate, at a stage of a scan. -/
theorem ScanTurn.next_stage {m₀ m : Monitor} {now : Nat} {stage stage' : Stage} {answer : Answer}
    {t : Turn} (h : m.ScanTurn now stage answer t) (hstage : ScanStage m₀ m stage)
    (hempty : m₀.scheduled.isEmpty = true → m.scheduled.isEmpty = true)
    (hnext : t.next = .waiting stage') :
    m.Quiet t ∧ stage'.holdsGate = true ∧ ScanStage m₀ m stage' := by
  cases h with
  | enters gate may next quiet =>
    cases hnext.symm.trans next
    refine ⟨quiet, rfl, ?_⟩
    cases hout : m.scheduled.isEmpty with
    | true => simp only [ScanStage, hout, if_true]
    | false =>
      refine ⟨?_, ?_⟩
      · rw [Bool.eq_false_iff]
        intro hearlier
        rw [hempty hearlier] at hout
        cases hout
      · -- next to files that are handed out only a monitor that may reconfigure scans
        rw [mayScan, hout, Bool.false_or, Option.isSome_iff_ne_none] at may
        exact may
  | reads sync next quiet =>
    subst sync
    cases hnext.symm.trans next
    exact ⟨quiet, rfl, hstage⟩
  | skips next => cases hnext.symm.trans next
  | publishes =>
    rw [next_publishAndRequest] at hnext
    cases hnext

theorem request_publishAndRequest (m : Monitor) (c : Catalog PartitionKey Metadata) :
    Effect.request ∈ (m.publishAndRequest c).effects ↔
      (m.publishAndRequest c).monitor.scanned.isEmpty = false ∧
        (m.publishAndRequest c).monitor.phase = .running := by
  simp only [publishAndRequest]
  split
  next hask =>
    rw [Bool.and_eq_true, Bool.not_eq_true', beq_iff_eq] at hask
    simpa using hask
  next hask =>
    rw [Bool.and_eq_true, Bool.not_eq_true', beq_iff_eq] at hask
    simpa using hask

theorem requested_publishAndRequest (m : Monitor) (c : Catalog PartitionKey Metadata) :
    (m.publishAndRequest c).monitor.requested = true ↔
      m.requested = true ∨ Effect.request ∈ (m.publishAndRequest c).effects := by
  simp only [publishAndRequest]
  split
  next => simp
  next =>
    show m.requested = true ↔ _
    simp

end Monitor

namespace Deployment

open Interplay (byPath sample scanMoves)

variable {ι : Type} [DecidableEq ι] {promise : Stage → Answer → Prop} {a b : Deployment ι}

/-! ## 3. While a scan is under way -/

def turn? (d : Deployment ι) : Move ι → Option Turn
  | .begin who call => d.world.turn? (.begin who call)
  | .resume who answer => d.world.turn? (.resume who answer)
  | _ => none

theorem turn?_resume {d : Deployment ι} {who : ι} {stage : Stage}
    (h : d.world.calls.get? who = some stage) (answer : Answer) :
    d.turn? (.resume who answer) = some (d.world.monitor.resume d.world.now stage answer) := by
  simp only [turn?, Interplay.turn?, h, Option.map_some]

structure Scanning (who : ι) (m : Monitor) (since : Nat) (d : Deployment ι) : Prop where
  reachable : d.store.Reachable
  guarded : d.world.Guarded
  holder : d.world.gate.holder = some who
  stage : ∃ stage, d.world.calls.get? who = some stage ∧ m.ScanStage d.world.monitor stage
  since_le : since ≤ d.store.applied
  sets : d.world.monitor.sets = (m.hearAll (d.store.appliedSince since)).sets
  requested : d.world.monitor.requested = m.requested

theorem Step.config {m : Move ι} (h : Step promise a m b) :
    b.world.monitor.config = a.world.monitor.config := by
  have hkeeps := h.keeps_world (P := fun w => w.monitor.settings = a.world.monitor.settings)
    (fun hstep hw => hstep.settings.trans hw) rfl
  exact congrArg Prod.fst hkeeps

theorem Scanning.isEmpty_scheduled {who : ι} {m : Monitor} {since : Nat}
    (ha : a.Scanning who m since) (h : m.scheduled.isEmpty = true) :
    a.world.monitor.scheduled.isEmpty = true := by
  rw [Monitor.scheduled_of_sets ha.sets]
  exact Monitor.isEmpty_scheduled_hearAll h _

section Steps

variable {who i : ι} {m : Monitor} {since : Nat} {mv : Move ι} {stage : Stage} {t : Turn}

/-- A step during which the monitor hears of nothing, and at most quiet turns are played. -/
theorem Scanning.of_quiet (ha : a.Scanning who m since) (h : Step promise a mv b)
    (hholder : b.world.gate.holder = some who)
    (hstage : ∃ stage, b.world.calls.get? who = some stage ∧ m.ScanStage a.world.monitor stage)
    (hsets : b.world.monitor.sets = a.world.monitor.sets)
    (hrequested : b.world.monitor.requested = a.world.monitor.requested)
    (happlied : b.store.applied = a.store.applied)
    (hheard : b.store.appliedSince since = a.store.appliedSince since) :
    b.Scanning who m since where
  reachable := h.reachable ha.reachable
  guarded := h.guarded ha.guarded
  holder := hholder
  stage := by
    obtain ⟨stage, hcalls, hscans⟩ := hstage
    refine ⟨stage, hcalls, hscans.mono h.config ?_⟩
    intro hempty
    rw [Monitor.scheduled_of_sets hsets, hempty]
  since_le := by
    rw [happlied]
    exact ha.since_le
  sets := by
    rw [hsets, hheard]
    exact ha.sets
  requested := hrequested.trans ha.requested

theorem Scanning.heard (ha : a.Scanning who m since) {e : LogEntry}
    (hnext : a.store.next? = some e)
    (h : Step promise a mv (a.replicated (a.store.applyEntry e) (some e))) :
    (a.replicated (a.store.applyEntry e) (some e)).Scanning who m since where
  reachable := h.reachable ha.reachable
  guarded := h.guarded ha.guarded
  holder := ha.holder
  stage := by
    obtain ⟨stage, hstage, hscans⟩ := ha.stage
    exact ⟨stage, hstage, hscans.mono h.config (Monitor.isEmpty_scheduled_observe · e)⟩
  since_le := Nat.le_succ_of_le ha.since_le
  sets := by
    show (a.world.monitor.observe e).1.sets =
      (m.hearAll ((a.store.applyEntry e).appliedSince since)).sets
    rw [Store.appliedSince_applyEntry hnext ha.since_le, Monitor.hearAll_append]
    exact Monitor.sets_observe ha.sets e
  requested := (a.world.monitor.requested_observe e).trans ha.requested

/-- A quiet turn after which the scan still holds the gate, at a stage of a scan. -/
theorem Scanning.play (ha : a.Scanning who m since) (h : Step promise a mv (a.play i t))
    (hquiet : a.world.monitor.Quiet t) (hholder : (a.world.play i t).gate.holder = some who)
    (hcalls : (a.world.play i t).calls.get? who = some stage)
    (hscans : m.ScanStage a.world.monitor stage) : (a.play i t).Scanning who m since := by
  have happlied := a.store.applied_appendAll t.writes
  have hheard := Store.appliedSince_appendAll ha.reachable.sound t.writes since
  exact ha.of_quiet h hholder ⟨stage, hcalls, hscans⟩ hquiet.sets hquiet.requested happlied hheard

theorem Scanning.play_of_ne (ha : a.Scanning who m since) (h : Step promise a mv (a.play i t))
    (hne : who ≠ i) (hquiet : a.world.monitor.Quiet t) : (a.play i t).Scanning who m since := by
  obtain ⟨stage, hstage, hscans⟩ := ha.stage
  have hholder := Interplay.holder_play_of_ne a.world t hne ha.holder
  have hcalls := (Interplay.get?_calls_play_of_ne a.world t hne).trans hstage
  exact ha.play h hquiet hholder hcalls hscans

/-- Who is not behind the gate, and is not let in, plays a quiet turn. -/
theorem Scanning.quiet_of_ne {answer : Answer} (ha : a.Scanning who m since) (hne : who ≠ i)
    (hwaits : a.world.calls.get? i = some stage)
    (hmeets : answer.meets (stage.need a.world.monitor.config) = true)
    (hready : a.world.isReady i (stage.need a.world.monitor.config) = true) :
    a.world.monitor.Quiet (a.world.monitor.resume a.world.now stage answer) := by
  obtain ⟨hout, hlet⟩ := ha.guarded.outside ha.holder hne hwaits hmeets hready
  exact .resume _ _ hout hlet

/-- **A step during a scan** keeps it under way and asks the host for nothing, unless it ends it. -/
theorem Step.scanning (h : Step promise a mv b) (ha : a.Scanning who m since)
    (hstill : b.world.calls.get? who ≠ none) :
    b.Scanning who m since ∧ ∀ t, a.turn? mv = some t → Effect.request ∉ t.effects := by
  have hstep := h
  have hnone : ∀ t, (none : Option Turn) = some t → Effect.request ∉ t.effects := by
    intro t ht
    cases ht
  have hplayed : ∀ {t}, a.world.monitor.Quiet t → ∀ t', some t = some t' →
      Effect.request ∉ t'.effects := by
    intro t hquiet t' ht
    rw [← Option.some.inj ht]
    exact hquiet.silent
  cases h with
  | pass => exact ⟨ha.of_quiet hstep ha.holder ha.stage rfl rfl rfl rfl, hnone⟩
  | write e =>
    have happlied := a.store.applied_appendAll [e]
    have hheard := Store.appliedSince_appendAll ha.reachable.sound [e] since
    exact ⟨ha.of_quiet hstep ha.holder ha.stage rfl rfl happlied hheard, hnone⟩
  | @replicate eager store applied turned =>
    refine ⟨?_, hnone⟩
    rcases Store.turn?_cases turned with ⟨-, rfl, rfl⟩ | ⟨rfl, rfl⟩ | ⟨e, hnext, rfl, rfl⟩
    · exact ha.of_quiet hstep ha.holder ha.stage rfl rfl rfl rfl
    · exact ha.of_quiet hstep ha.holder ha.stage rfl rfl rfl rfl
    · exact ha.heard hnext hstep
  | shutdown => exact ⟨ha.of_quiet hstep ha.holder ha.stage rfl rfl rfl rfl, hnone⟩
  | @begin i call idle isOpen again =>
    -- the caller of the scan waits, so somebody else begins
    have hne : who ≠ i := by
      rintro rfl
      obtain ⟨stage, hstage, -⟩ := ha.stage
      rw [idle] at hstage
      cases hstage
    have hquiet := Monitor.Quiet.begin a.world.monitor a.world.now call
    exact ⟨ha.play_of_ne hstep hne hquiet, hplayed hquiet⟩
  | @enqueue i stage waits needs =>
    -- who asks for the gate does not move its holder
    refine ⟨ha.of_quiet hstep ?_ ha.stage rfl rfl rfl rfl, hnone⟩
    show (a.world.gate.ask i).holder = some who
    rw [Gate.holder_ask, ha.holder]
    rfl
  | read => exact ⟨ha.of_quiet hstep ha.holder ha.stage rfl rfl rfl rfl, hnone⟩
  | @resume i stage answer waits meets ready agreed promised =>
    rw [turn?_resume waits]
    by_cases hne : who = i
    · -- the scan's own turn, which goes on
      subst hne
      obtain ⟨stage', hstage', hscans⟩ := ha.stage
      cases hstage'.symm.trans waits
      have hturn := a.world.monitor.scanTurn_resume a.world.now hscans meets
      change (a.world.play who _).calls.get? who ≠ none at hstill
      generalize a.world.monitor.resume a.world.now stage answer = t at *
      rw [Interplay.get?_calls_play_self] at hstill
      cases hnext : t.next with
      | waiting next =>
        obtain ⟨hquiet, hholds, hscans'⟩ := hturn.next_stage hscans ha.isEmpty_scheduled hnext
        have hgate : (a.world.play who t).gate = a.world.gate := by
          apply Interplay.gate_play_of_holdsGate
          rw [hnext]
          exact hholds
        have hcalls : (a.world.play who t).calls.get? who = some next := by
          rw [Interplay.get?_calls_play_self, hnext]
        have hholder : (a.world.play who t).gate.holder = some who := by
          rw [hgate, ha.holder]
        exact ⟨ha.play hstep hquiet hholder hcalls hscans', hplayed hquiet⟩
      | finished reply =>
        -- a turn that ends the scan leaves nobody at a stage
        rw [hnext] at hstill
        exact absurd rfl hstill
    · -- somebody else is outside the gate, and is not let in
      have hquiet := ha.quiet_of_ne hne waits meets ready
      exact ⟨ha.play_of_ne hstep hne hquiet, hplayed hquiet⟩
  | @drop i stage waits started =>
    have hne : who ≠ i := by
      rintro rfl
      simp [Catalog.get?_erase] at hstill
    obtain ⟨stage', hstage', hscans⟩ := ha.stage
    refine ⟨ha.of_quiet hstep ?_ ⟨stage', ?_, hscans⟩ rfl rfl rfl rfl, hnone⟩
    · have hother : a.world.gate.holder ≠ some i := by
        rw [ha.holder]
        exact fun heq => hne (Option.some.inj heq)
      show (a.world.gate.leave i).holder = some who
      rw [Gate.holder_leave_of_ne hother, ha.holder]
    · show (a.world.calls.erase i).get? who = some stage'
      rw [Catalog.get?_erase, if_neg hne, hstage']

end Steps

theorem Throughout.scanning {who : ι} {m : Monitor} {since : Nat} {ms : List (Move ι)}
    (h : Throughout promise (fun d => d.world.calls.get? who ≠ none) a ms b)
    (ha : a.Scanning who m since) : b.Scanning who m since := by
  induction h with
  | nil => exact ha
  | cons _ first rest ih => exact ih (first.scanning ha rest.here).1

/-! ## 4. The end of a scan -/

/-- **A scan is taken:** the candidates of the whole listing, selected by what the store has applied
    at this moment, join those that wait; and the host is asked to pull if files wait and the
    monitor is running. -/
structure Taken (a : Deployment ι) (stage : Stage) (answer : Answer) (t : Turn)
    (b : Deployment ι) : Prop where
  selected : ∃ idle listed candidates, stage = .scanListing idle ∧
    answer = .listed (.ok listed) b.store.snapshot ∧
    Candidates.select a.world.monitor.keyOf b.store.snapshot listed = .ok candidates ∧
    ∀ k, b.world.monitor.scanned.get? k =
      (candidates.get? k).or (a.world.monitor.scanned.get? k)
  scheduled : b.world.monitor.scheduled = a.world.monitor.scheduled
  asked : Effect.request ∈ t.effects ↔
    b.world.monitor.scanned.isEmpty = false ∧ b.world.monitor.phase = .running
  requested : b.world.monitor.requested = true ↔
    a.world.monitor.requested = true ∨ Effect.request ∈ t.effects

/-- **The last turn of a scan** skips it and is quiet, or takes it. -/
theorem Step.scan_ends {who : ι} {m : Monitor} {since : Nat} {answer : Answer}
    (h : Step promise a (.resume who answer) b) (ha : a.Scanning who m since)
    (hover : b.world.calls.get? who = none) :
    ∃ stage t, a.world.calls.get? who = some stage ∧ a.turn? (.resume who answer) = some t ∧
      b = a.play who t ∧
      (a.world.monitor.Skips a.world.now stage answer ∧ a.world.monitor.Quiet t ∨
        ¬a.world.monitor.Skips a.world.now stage answer ∧ a.Taken stage answer t b) := by
  cases h with
  | @resume _ stage _ waits meets ready agreed promised =>
    obtain ⟨stage', hstage', hscans⟩ := ha.stage
    cases hstage'.symm.trans waits
    have hturn := a.world.monitor.scanTurn_resume a.world.now hscans meets
    refine ⟨stage, _, waits, turn?_resume waits answer, rfl, ?_⟩
    generalize a.world.monitor.resume a.world.now stage answer = t at *
    change (a.world.play who t).calls.get? who = none at hover
    rw [Interplay.get?_calls_play_self] at hover
    cases hturn with
    | enters _ _ hnext =>
      rw [hnext] at hover
      cases hover
    | reads _ hnext =>
      rw [hnext] at hover
      cases hover
    | skips _ hskips hquiet => exact .inl ⟨hskips, hquiet⟩
    | @publishes idle listed snapshot candidates hlisting hlisted hselect htaken =>
      right
      subst hlisting hlisted
      -- what the listing came with is the snapshot of the store, then and behind the turn
      have hsnapshot : snapshot = a.store.snapshot := eq_of_beq agreed
      have hsame : (a.play who (a.world.monitor.publishAndRequest candidates)).store.snapshot =
          snapshot := (a.snapshot_play _ _).trans hsnapshot.symm
      refine ⟨htaken, ?_, Monitor.scheduled_publishAndRequest _ _,
        Monitor.request_publishAndRequest _ _, Monitor.requested_publishAndRequest _ _⟩
      rw [hsame]
      refine ⟨idle, listed, candidates, rfl, rfl, hselect, ?_⟩
      intro k
      show (a.world.monitor.publishAndRequest candidates).monitor.scanned.get? k = _
      rw [Monitor.scanned_publishAndRequest, Catalog.get?_insertAll_entries]

/-- **All or nothing.**  From when a scan holds the gate the monitor changes its sets as the news
    from the log say, and by nothing else, and asks the host for nothing.  The turn that ends the
    scan skips it and is quiet; or it adds the candidates of the whole listing, as the store has the
    keys at this moment, to the files that wait, and asks the host to pull exactly if files wait
    then and the monitor is running.  While no files are handed out a scan is taken even if it
    offers nothing. -/
theorem scan_all_or_nothing {who i : ι} {now : Nat} {config : Config} {keyOf : KeyRule}
    {listing : String} {store : Store} {d a c : Deployment ι} {ms ns : List (Move ι)}
    (hstore : store.Reachable) (hlaunch : launch who now config keyOf listing store = .ok d)
    (hrun : Run promise d ms a) (hgate : a.world.calls.get? i = some .scanGate)
    (hholder : a.world.gate.holder = some i)
    (hscan : Throughout promise (fun p => p.world.calls.get? i ≠ none) a ns c) :
    c.world.monitor.sets =
      (a.world.monitor.hearAll (c.store.appliedSince a.store.applied)).sets ∧
    c.world.monitor.requested = a.world.monitor.requested ∧
    (∀ stage, c.world.calls.get? i = some stage →
      a.world.monitor.ScanStage c.world.monitor stage) ∧
    (∀ m b t, Step promise c m b → b.world.calls.get? i ≠ none → c.turn? m = some t →
      Effect.request ∉ t.effects) ∧
    ∀ answer b, Step promise c (.resume i answer) b → b.world.calls.get? i = none →
      ∃ stage t, c.world.calls.get? i = some stage ∧ c.turn? (.resume i answer) = some t ∧
        (c.world.monitor.Skips c.world.now stage answer ∧
            b.world.monitor.sets = c.world.monitor.sets ∧
            b.world.monitor.requested = c.world.monitor.requested ∧
            Effect.request ∉ t.effects ∨
          ¬c.world.monitor.Skips c.world.now stage answer ∧ c.Taken stage answer t b) := by
  have ha : a.Scanning i a.world.monitor a.store.applied := by
    have hreachable := hrun.keeps Step.reachable (reachable_launch hstore hlaunch)
    have hguarded := hrun.keeps Step.guarded (guarded_launch hlaunch)
    refine ⟨hreachable, hguarded, hholder, ⟨_, hgate, trivial⟩, Nat.le_refl _, ?_, rfl⟩
    -- nothing was heard of yet
    rw [Store.appliedSince_self]
    rfl
  have hc : c.Scanning i a.world.monitor a.store.applied := hscan.scanning ha
  refine ⟨hc.sets, hc.requested, ?_, ?_, ?_⟩
  · intro stage hstage
    obtain ⟨stage', hstage', hscans⟩ := hc.stage
    cases hstage.symm.trans hstage'
    exact hscans
  · intro m b t hstep hstill ht
    exact (hstep.scanning hc hstill).2 t ht
  · intro answer b hstep hover
    obtain ⟨stage, t, hstage, ht, rfl, hend⟩ := hstep.scan_ends hc hover
    refine ⟨stage, t, hstage, ht, ?_⟩
    rcases hend with ⟨hskips, hquiet⟩ | htaken
    · exact .inl ⟨hskips, hquiet.sets, hquiet.requested, hquiet.silent⟩
    · exact .inr htaken

/-- Two ticks scan one after the other.  While the second one is under way a file of the first is
    completed.  A listing in which different files share a key is rejected; another one is taken,
    next to the file that waits, but without the one that was completed. -/
theorem scan_all_or_nothing_conflict :
    let promise : Stage → Answer → Prop := fun _ _ => true = true
    let done : Record := .new (sample "/b") .completed
    let s : Snapshot := ⟨1, Catalog.empty.insert ⟨"/b"⟩ done⟩
    let ms : List (Move Nat) := onStore (openingMoves ++ [.begin 3 .tick] ++
      scanMoves 1 [sample "/a", sample "/b"] .empty ++ [.ask 3])
    let ns : List (Move Nat) := onStore
      [.resume 3 .entered, .resume 3 (.refreshed (.ok .empty)), .hear ⟨⟨"/b"⟩, some done⟩]
    let shared : Answer := .listed (.ok [sample "/c", { sample "/c" with size := 2 }]) s
    let found : Answer := .listed (.ok [sample "/b", sample "/c"]) s
    ∃ d a c p q t, launch 0 0 {} byPath "files" { delay := 0 } = .ok d ∧ Run promise d ms a ∧
      Throughout promise (fun p => p.world.calls.get? 3 ≠ none) a ns c ∧
      c.world.monitor.scanned.get? ⟨"/b"⟩ = none ∧
      Step promise c (.resume 3 shared) p ∧ p.world.monitor.sets = c.world.monitor.sets ∧
      Step promise c (.resume 3 found) q ∧ c.turn? (.resume 3 found) = some t ∧
      c.Taken (.scanListing true) found t q ∧
      q.world.monitor.scanned.get? ⟨"/a"⟩ = some (sample "/a") ∧
      q.world.monitor.scanned.get? ⟨"/b"⟩ = none ∧
      q.world.monitor.scanned.get? ⟨"/c"⟩ = some (sample "/c") := by
  intro promise done s ms ns shared found
  let d : Deployment Nat := launched 0 0 {} byPath "files" { delay := 0, replication := .idle }
  let a := (d.moves? (fun _ _ => true) ms).get (by decide +kernel)
  let c := (a.moves? (fun _ _ => true) ns).get (by decide +kernel)
  let p := (c.move? (fun _ _ => true) (.resume 3 shared)).get (by decide +kernel)
  let q := (c.move? (fun _ _ => true) (.resume 3 found)).get (by decide +kernel)
  have hlaunch : launch 0 0 {} byPath "files" { delay := 0 } = .ok d := rfl
  have hrun : Run promise d ms a := .of_moves? (Option.some_get _).symm
  have hscan : Throughout promise (fun p => p.world.calls.get? 3 ≠ none) a ns c :=
    .of_moves? (Option.some_get _).symm (by decide +kernel)
  have hcp : Step promise c (.resume 3 shared) p := .of_move? (Option.some_get _).symm
  have hcq : Step promise c (.resume 3 found) q := .of_move? (Option.some_get _).symm
  have hlisting : c.world.calls.get? 3 = some (.scanListing true) := by decide +kernel
  obtain ⟨-, -, -, -, hends⟩ := scan_all_or_nothing (.fresh 0) hlaunch hrun (i := 3)
    (by decide +kernel) (by decide +kernel) hscan
  have hskips : c.world.monitor.Skips c.world.now (.scanListing true) shared := by
    have hshared : (match Candidates.select c.world.monitor.keyOf s
        [sample "/c", { sample "/c" with size := 2 }] with
      | .error (.conflicts _) => true
      | _ => false) = true := by decide +kernel
    split at hshared
    next all hselect => exact .conflicts true hselect
    next => cases hshared
  have hkept : p.world.monitor.sets = c.world.monitor.sets := by
    have hover : p.world.calls.get? 3 = none := by decide +kernel
    obtain ⟨stage, t, hstage, -, ⟨-, hsets, -⟩ | ⟨htaken, -⟩⟩ := hends shared p hcp hover
    · exact hsets
    · cases hlisting.symm.trans hstage
      exact absurd hskips htaken
  have hover : q.world.calls.get? 3 = none := by decide +kernel
  obtain ⟨stage, t, hstage, ht, ⟨-, hsets, -⟩ | ⟨-, htaken⟩⟩ := hends found q hcq hover
  · -- a scan that is skipped adds no file
    have hmore : q.world.monitor.sets ≠ c.world.monitor.sets := by decide +kernel
    exact absurd hsets hmore
  · cases hlisting.symm.trans hstage
    have hold : q.world.monitor.scanned.get? ⟨"/a"⟩ = some (sample "/a") := by decide +kernel
    have hgone : q.world.monitor.scanned.get? ⟨"/b"⟩ = none := by decide +kernel
    have hnew : q.world.monitor.scanned.get? ⟨"/c"⟩ = some (sample "/c") := by decide +kernel
    have hheard : c.world.monitor.scanned.get? ⟨"/b"⟩ = none := by decide +kernel
    exact ⟨d, a, c, p, q, t, hlaunch, hrun, hscan, hheard, hcp, hkept, hcq, ht, htaken, hold, hgone,
      hnew⟩

end Deployment

end Intake
