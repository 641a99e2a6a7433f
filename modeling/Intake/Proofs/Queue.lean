import Intake.Proofs.Turns
import Mathlib.Data.List.Nodup

/-!
# Queue — where finished records are

A finished record is queued when the monitor hears of it.  A cleanup takes the whole queue as its
batch; afterwards what failed is queued again, and what succeeded is written as cleaned.  So a turn
moves records between the queue and a batch, and adds what a cleanup gives back
(`completed_begin`, `completed_resume`).
-/

namespace Intake

/-! ## 1. Batches and writes -/

def Stage.batch : Stage → List Record
  | tickCleanup batch => batch
  | cleanup batch => batch
  | closeCleanup batch => batch
  | _ => []

theorem Stage.need_of_mem_batch {stage : Stage} {r : Record} (h : r ∈ stage.batch)
    (config : Config) : stage.need config = .cleanup stage.batch := by
  cases stage <;> first | rfl | cases h

def Next.batch : Next → List Record
  | waiting stage => stage.batch
  | finished _ => []

def Answer.requeued : Answer → List Record
  | cleaned results => results.failed
  | _ => []

def Effect.entry? : Effect → Option LogEntry
  | write key record => some ⟨key, some record⟩
  | _ => none

def Turn.writes (t : Turn) : List LogEntry := t.effects.filterMap Effect.entry?

def LogEntry.finished? (e : LogEntry) : Option Record :=
  match e.value with
  | some r => if r.status.isCompleted then some (r.withKey e.key) else none
  | none => none

theorem LogEntry.finished?_eq_some_iff {e : LogEntry} {q : Record} :
    e.finished? = some q ↔
      ∃ r, e.value = some r ∧ r.status.isCompleted = true ∧ q = r.withKey e.key := by
  obtain ⟨key, value⟩ := e
  cases value with
  | none => simp [finished?]
  | some r =>
    by_cases hr : r.status.isCompleted = true
    · simp only [finished?, hr, if_true, Option.some.injEq, exists_eq_left', true_and]
      exact eq_comm
    · simp [finished?, hr]

namespace Monitor

def Queued (m : Monitor) (k : PartitionKey) : Prop := ∃ r ∈ m.completed, r.key = some k

instance (m : Monitor) (k : PartitionKey) : Decidable (m.Queued k) :=
  inferInstanceAs (Decidable (∃ r ∈ m.completed, r.key = some k))

/-! ## 2. News and recovery -/

/-- **News of finished work** are queued, in order; other news are not. -/
theorem completed_observe (m : Monitor) (e : LogEntry) :
    (m.observe e).1.completed = m.completed ++ e.finished?.toList := by
  fun_cases observe
  case case1 hvalue => simp [LogEntry.finished?, hvalue]
  case case2 r hvalue hfinished => simp [LogEntry.finished?, hvalue, hfinished]
  all_goals simp_all [LogEntry.finished?]

/-- A queue that holds only news has a record of every key with news of finished work. -/
theorem queued_iff_of_news {m : Monitor} {es : List LogEntry}
    (h : m.completed = es.filterMap LogEntry.finished?) (k : PartitionKey) :
    m.Queued k ↔ ∃ e ∈ es, e.key = k ∧ e.finished?.isSome = true := by
  unfold Queued
  rw [h]
  constructor
  · rintro ⟨q, hq, hkey⟩
    obtain ⟨e, he, hnews⟩ := List.mem_filterMap.1 hq
    obtain ⟨r, -, -, rfl⟩ := LogEntry.finished?_eq_some_iff.1 hnews
    exact ⟨e, he, Option.some.inj hkey, by rw [hnews]; rfl⟩
  · rintro ⟨e, he, rfl, hnews⟩
    obtain ⟨q, hq⟩ := Option.isSome_iff_exists.1 hnews
    refine ⟨q, List.mem_filterMap.2 ⟨e, he, hq⟩, ?_⟩
    obtain ⟨r, -, -, rfl⟩ := LogEntry.finished?_eq_some_iff.1 hq
    rfl

theorem snapshot_observe (m : Monitor) (e : LogEntry) : (m.observe e).1.snapshot = m.snapshot := by
  fun_cases observe <;> rfl

def finishedIn (states : Catalog PartitionKey Record) : List Record :=
  (states.entries.filter fun e => e.2.status.isCompleted).map fun e => e.2.withKey e.1

theorem completed_recover (m : Monitor) :
    m.recover.completed = m.completed ++ finishedIn m.snapshot.states := rfl

theorem mem_finishedIn {states : Catalog PartitionKey Record} {k : PartitionKey} {r : Record}
    (hk : states.get? k = some r) (hr : r.status.isCompleted = true) :
    r.withKey k ∈ finishedIn states := by
  have hmem : (k, r) ∈ states.entries := (Catalog.mem_entries_iff states).2 hk
  exact List.mem_map.2 ⟨(k, r), List.mem_filter.2 ⟨hmem, hr⟩, rfl⟩

theorem mem_finishedIn_iff {states : Catalog PartitionKey Record} {q : Record} :
    q ∈ finishedIn states ↔
      ∃ k r, states.get? k = some r ∧ r.status.isCompleted = true ∧ q = r.withKey k := by
  constructor
  · intro hq
    obtain ⟨⟨k, r⟩, hmem, rfl⟩ := List.mem_map.1 hq
    obtain ⟨hentry, hfinished⟩ := List.mem_filter.1 hmem
    exact ⟨k, r, (Catalog.mem_entries_iff states).1 hentry, hfinished, rfl⟩
  · rintro ⟨k, r, hk, hfinished, rfl⟩
    exact mem_finishedIn hk hfinished

/-- A recovery queues one record for each key. -/
theorem nodup_finishedIn (states : Catalog PartitionKey Record) : (finishedIn states).Nodup := by
  have hkeys : (finishedIn states).map Record.key =
      ((states.entries.filter fun e => e.2.status.isCompleted).map Prod.fst).map some := by
    unfold finishedIn
    rw [List.map_map, List.map_map]
    rfl
  refine List.Nodup.of_map Record.key ?_
  rw [hkeys]
  exact ((List.filter_sublist.map Prod.fst).nodup states.distinct).map fun _ _ => Option.some.inj

/-! ## 3. Turns -/

theorem completed_scanIfRunning (m : Monitor) :
    m.scanIfRunning.monitor.completed ++ m.scanIfRunning.next.batch = m.completed := by
  unfold scanIfRunning
  split <;> exact List.append_nil _

/-- **The first turn** leaves the queue, or takes all of it as a batch. -/
theorem completed_begin (m : Monitor) (now : Nat) (call : Call) :
    (m.begin now call).monitor.completed ++ (m.begin now call).next.batch = m.completed := by
  cases call with
  | startup => exact List.append_nil _
  | tick =>
    simp only [begin, beginTick]
    split
    · exact completed_scanIfRunning m
    · rfl
  | pull g f =>
    simp only [begin, beginPull]
    split <;> exact List.append_nil _
  | cleanup =>
    simp only [begin]
    split
    · exact List.append_nil _
    · rfl
  | sync t => exact List.append_nil _
  | close =>
    simp only [begin, beginClose]
    split <;> exact List.append_nil _

theorem completed_scanListed (m : Monitor) (now : Nat) (idle : Bool)
    (result : Except Error (List Metadata)) (snapshot : Snapshot) :
    (m.scanListed now idle result snapshot).monitor.completed = m.completed := by
  rcases scanListed_cases m now idle result snapshot with ⟨time, h⟩ | ⟨_, c, _, _, h⟩
  · rw [h]
  · rw [h]
    simp only [publishAndRequest]
    split <;> rfl

theorem completed_pullSynced (m : Monitor) (g f attempt : Nat)
    (result : Except StoreError Snapshot) :
    (m.pullSynced g f attempt result).monitor.completed = m.completed ∧
      (m.pullSynced g f attempt result).next.batch = [] := by
  rcases m.pullSynced_cases g f attempt result with
    ⟨-, hm, hn⟩ | ⟨-, -, hm, hn⟩ | ⟨-, -, hm, hn⟩
  · rw [hm, hn]
    exact ⟨rfl, rfl⟩
  · rw [hm, hn]
    exact ⟨rfl, rfl⟩
  · rw [hm, hn]
    exact ⟨rfl, rfl⟩

/-- **The next turn** of a call other than startup leaves the queue, or takes all of it as a batch;
    behind a cleanup what failed is queued first. -/
theorem completed_resume (m : Monitor) (now : Nat) {stage : Stage} {answer : Answer}
    (hmeets : answer.meets (stage.need m.config) = true) (hstage : stage ≠ .startupSync) :
    (m.resume now stage answer).monitor.completed ++ (m.resume now stage answer).next.batch =
      m.completed ++ answer.requeued := by
  unfold Monitor.resume
  split
  case h_1 => exact absurd rfl hstage
  case h_2 results =>
    -- what failed is queued before the scan, which leaves the queue
    simp only [tidied_eq, Turn.monitor_after, Turn.next_after]
    exact completed_scanIfRunning _
  case h_3 =>
    unfold scanEntered
    split <;> rfl
  case h_4 idle result =>
    simp only [scanSynced, synced_eq]
    split <;> rfl
  case h_5 idle result snapshot =>
    rw [completed_scanListed, next_scanListed]
    rfl
  case h_6 => rfl
  case h_7 g f =>
    unfold pullEntered
    split <;> rfl
  case h_8 g f attempt result =>
    obtain ⟨hm, hn⟩ := completed_pullSynced m g f attempt result
    rw [hm, hn]
    rfl
  case h_9 =>
    simp only [tidied_eq]
    exact List.append_nil _
  case h_10 => simp only [synced_eq]; rfl
  case h_11 result =>
    -- a close takes the queue as its last batch, unless it is empty
    simp only [closeSynced, synced_eq]
    split
    · rfl
    · exact (List.append_nil _).symm
  case h_12 =>
    simp only [tidied_eq]
    exact List.append_nil _
  case h_13 => rfl
  case h_14 => rfl
  case h_15 => rfl
  case h_16 =>
    -- no answer that meets the need of its stage is left
    exfalso
    cases stage <;> cases answer <;> grind [Answer.meets, Stage.need]

/-- **No turn forgets** what is queued, or what a cleanup gives back. -/
theorem mem_queue_resume (m : Monitor) (now : Nat) {stage : Stage} {answer : Answer}
    (hmeets : answer.meets (stage.need m.config) = true) {r : Record}
    (hr : r ∈ m.completed ++ answer.requeued) :
    r ∈ (m.resume now stage answer).monitor.completed ++
      (m.resume now stage answer).next.batch := by
  by_cases hstage : stage = .startupSync
  · -- a startup only adds to the queue
    subst hstage
    cases answer with
    | refreshed result =>
      simp only [Answer.requeued, List.append_nil] at hr
      simp only [resume, synced_eq, Turn.monitor_after, Turn.monitor_finish, completed_recover]
      exact List.mem_append_left _ (List.mem_append_left _ hr)
    | brokenDown => exact hr
    | cleaned => cases hmeets
    | listed => cases hmeets
    | woken => cases hmeets
    | entered => cases hmeets
  · rw [completed_resume m now hmeets hstage]
    exact hr

theorem effects_resume_cleaned (m : Monitor) (now : Nat) {stage : Stage} {results : CleanupResults}
    (hmeets : (Answer.cleaned results).meets (stage.need m.config) = true) :
    (m.resume now stage (.cleaned results)).effects = results.map tidyEffect := by
  have hquiet : ∀ m' : Monitor, m'.scanIfRunning.effects = [] := by
    intro m'
    unfold scanIfRunning
    split <;> rfl
  cases stage
  case tickCleanup batch =>
    simp only [resume, tidied_eq, Turn.effects_after, hquiet, List.append_nil]
  case cleanup batch =>
    simp only [resume, tidied_eq, Turn.effects_after, Turn.effects_finish, List.append_nil]
  case closeCleanup batch =>
    simp only [resume, tidied_eq, Turn.effects_after, Turn.effects_finish, List.append_nil]
  all_goals cases hmeets

/-- **A success is written** as cleaned, under its own key. -/
theorem mem_writes_resume (m : Monitor) (now : Nat) {stage : Stage} {results : CleanupResults}
    (hmeets : (Answer.cleaned results).meets (stage.need m.config) = true) {r : Record}
    {k : PartitionKey} (hr : (r, Outcome.succeed) ∈ results) (hk : r.key = some k) :
    ⟨k, some (r.withStatus .cleaned)⟩ ∈ (m.resume now stage (.cleaned results)).writes := by
  rw [Turn.writes, effects_resume_cleaned m now hmeets, List.mem_filterMap]
  refine ⟨.write k (r.withStatus .cleaned), List.mem_map.2 ⟨_, hr, ?_⟩, rfl⟩
  simp only [tidyEffect, hk]

end Monitor

end Intake
