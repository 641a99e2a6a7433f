import Intake.Proofs.Deployment

/-!
# Completion — no finished work is forgotten

Work that the log calls finished is on its way to be cleaned up: a record of it is queued, is being
cleaned up, or its cleanup is written and not yet applied (`Deployment.Tracked`).  A step may move a
record along this way, and only the application of the written cleanup takes it off, when the log
does not call the work finished any more.
-/

namespace Intake

namespace Deployment

variable {ι : Type} [DecidableEq ι] {promise : Stage → Answer → Prop}

/-! ## 1. Ways to a cleanup -/

def InCleanup (d : Deployment ι) (k : PartitionKey) : Prop :=
  ∃ who stage, d.world.calls.get? who = some stage ∧ ∃ r ∈ stage.batch, r.key = some k

def BeingWritten (d : Deployment ι) (k : PartitionKey) : Prop :=
  ∃ i ∈ d.own, d.store.applied ≤ i ∧
    ∃ r : Record, d.store.log[i]? = some ⟨k, some r⟩ ∧ r.status = .cleaned

def Tracked (d : Deployment ι) (k : PartitionKey) : Prop :=
  d.world.monitor.Queued k ∨ d.InCleanup k ∨ d.BeingWritten k

def AllTracked (d : Deployment ι) : Prop :=
  ∀ k r, d.store.states.get? k = some r → r.status.isCompleted = true → d.Tracked k

/-- **A policy that conserves records:** it does not break down, and gives back every record of a
    batch once, with an outcome. -/
def Conserves (promise : Stage → Answer → Prop) : Prop :=
  ∀ (config : Config) (stage : Stage) (batch : List Record) (answer : Answer),
    stage.need config = .cleanup batch → promise stage answer →
    ∃ results : CleanupResults, answer = .cleaned results ∧ (results.map Prod.fst).Perm batch

/-! ## 2. Turns -/

/-- What a turn leaves in the queue or takes as its batch is tracked. -/
theorem tracked_of_mem_queue (d : Deployment ι) (who : ι) {t : Turn} {r : Record}
    {k : PartitionKey} (hr : r ∈ t.monitor.completed ++ t.next.batch) (hk : r.key = some k) :
    (d.play who t).Tracked k := by
  rcases List.mem_append.1 hr with hqueue | hbatch
  · exact .inl ⟨r, hqueue, hk⟩
  · right
    left
    cases hnext : t.next with
    | waiting stage =>
      rw [hnext] at hbatch
      refine ⟨who, stage, ?_, r, hbatch, hk⟩
      show (d.world.play who t).calls.get? who = some stage
      rw [Interplay.get?_calls_play_self, hnext]
    | finished reply =>
      rw [hnext] at hbatch
      cases hbatch

/-- What a turn writes as cleaned is tracked, if the store takes it. -/
theorem tracked_of_mem_writes {d : Deployment ι} (hsound : d.store.Sound)
    (hopen : d.store.closing = false) (who : ι) {t : Turn} {r : Record} {k : PartitionKey}
    (hr : ⟨k, some r⟩ ∈ t.writes) (hcleaned : r.status = .cleaned) : (d.play who t).Tracked k := by
  have hlog := hsound.log_appendAll hopen t.writes
  have hwritten : (d.store.appendAll t.writes).written = d.store.written + t.writes.length := by
    unfold Store.written
    rw [hlog, List.length_append]
  obtain ⟨j, hj, hget⟩ := List.mem_iff_getElem.1 hr
  -- the place of the entry is its place among the writes, behind the old log
  right
  right
  refine ⟨d.store.written + j, ?_, ?_, r, ?_, hcleaned⟩
  · show d.store.written + j ∈ d.own ++ List.range' d.store.written
      ((d.store.appendAll t.writes).written - d.store.written)
    rw [hwritten, List.mem_append, List.mem_range'_1]
    right
    omega
  · show (d.store.appendAll t.writes).applied ≤ d.store.written + j
    have hle := hsound.applied_le
    rw [Store.applied_appendAll]
    omega
  · show (d.store.appendAll t.writes).log[d.store.written + j]? = some ⟨k, some r⟩
    have hplace : d.store.written ≤ d.store.written + j := Nat.le_add_right _ _
    rw [hlog, List.getElem?_append_right hplace]
    show t.writes[d.store.written + j - d.store.written]? = some ⟨k, some r⟩
    rw [Nat.add_sub_cancel_left, List.getElem?_eq_getElem hj, hget]

omit [DecidableEq ι] in
/-- What is being written stays so while the log only grows. -/
theorem BeingWritten.grow {a b : Deployment ι} {k : PartitionKey} (h : a.BeingWritten k)
    (hlog : a.store.log <+: b.store.log) (happlied : b.store.applied = a.store.applied)
    (hown : ∀ i ∈ a.own, i ∈ b.own) : b.BeingWritten k := by
  obtain ⟨i, hi, hle, r, hget, hcleaned⟩ := h
  refine ⟨i, hown i hi, ?_, r, ?_, hcleaned⟩
  · rw [happlied]
    exact hle
  · obtain ⟨hlt, hr⟩ := List.getElem?_eq_some_iff.1 hget
    rw [← hr, ← List.getElem?_eq_getElem hlt]
    exact (List.prefix_iff_getElem?.1 hlog i hlt).trans (List.getElem?_eq_getElem hlt).symm

/-- **A turn keeps track of a key** if it keeps the queue, as queue or as batch, and what the caller
    was cleaning up comes back to the queue or is written. -/
theorem Tracked.play {d : Deployment ι} {k : PartitionKey} (h : d.Tracked k)
    (hsound : d.store.Sound) (hopen : d.store.closing = false) {who : ι} {t : Turn}
    (hqueue : ∀ r ∈ d.world.monitor.completed, r ∈ t.monitor.completed ++ t.next.batch)
    (hbatch : ∀ stage, d.world.calls.get? who = some stage → ∀ r ∈ stage.batch, r.key = some k →
      r ∈ t.monitor.completed ++ t.next.batch ∨
        ∃ q : Record, ⟨k, some q⟩ ∈ t.writes ∧ q.status = .cleaned) :
    (d.play who t).Tracked k := by
  rcases h with ⟨r, hr, hk⟩ | ⟨other, stage, hstage, r, hr, hk⟩ | hwritten
  · exact d.tracked_of_mem_queue who (hqueue r hr) hk
  · by_cases hne : other = who
    · subst hne
      rcases hbatch stage hstage r hr hk with hback | ⟨q, hq, hcleaned⟩
      · exact d.tracked_of_mem_queue other hback hk
      · exact tracked_of_mem_writes hsound hopen other hq hcleaned
    · -- what others are cleaning up is left alone
      right
      left
      refine ⟨other, stage, ?_, r, hr, hk⟩
      show (d.world.play who t).calls.get? other = some stage
      rw [Interplay.get?_calls_play_of_ne _ _ hne, hstage]
  · right
    right
    apply hwritten.grow (d.store.prefix_log_appendAll t.writes)
    · exact d.store.applied_appendAll t.writes
    · intro i hi
      exact List.mem_append_left _ hi

/-! ## 3. Steps -/

theorem Tracked.grow {a b : Deployment ι} {k : PartitionKey} (h : a.Tracked k)
    (hworld : b.world = a.world) (hlog : a.store.log <+: b.store.log)
    (happlied : b.store.applied = a.store.applied) (hown : b.own = a.own) : b.Tracked k := by
  rcases h with hqueued | hcleanup | hwritten
  · left
    rw [hworld]
    exact hqueued
  · right
    left
    unfold InCleanup
    rw [hworld]
    exact hcleanup
  · right
    right
    apply hwritten.grow hlog happlied
    intro i hi
    rw [hown]
    exact hi

/-- **Applying an entry keeps track:** finished work is heard of, and a written cleanup of another
    key is not the entry that is applied. -/
theorem AllTracked.applied {d : Deployment ι} (h : d.AllTracked) {e : LogEntry}
    (hnext : d.store.next? = some e) :
    (d.replicated (d.store.applyEntry e) (some e)).AllTracked := by
  intro k r hstate hfinished
  have hqueue : (d.world.monitor.observe e).1.completed =
      d.world.monitor.completed ++ e.finished?.toList := Monitor.completed_observe _ e
  change (e.apply d.store.states).get? k = some r at hstate
  rw [LogEntry.get?_apply] at hstate
  split at hstate
  next hkey =>
    -- the record is the one that was just applied, so the monitor heard of it
    left
    refine ⟨r.withKey k, ?_, rfl⟩
    show r.withKey k ∈ (d.world.monitor.observe e).1.completed
    have hnews : e.finished? = some (r.withKey k) :=
      LogEntry.finished?_eq_some_iff.2 ⟨r, hstate, hfinished, by rw [hkey]⟩
    rw [hqueue, hnews, Option.toList_some]
    exact List.mem_append_right _ List.mem_cons_self
  next hkey =>
    rcases h k r hstate hfinished with ⟨q, hq, hk⟩ | hcleanup | ⟨i, hi, hle, q, hget, hcleaned⟩
    · left
      refine ⟨q, ?_, hk⟩
      show q ∈ (d.world.monitor.observe e).1.completed
      rw [hqueue]
      exact List.mem_append_left _ hq
    · exact .inr (.inl hcleanup)
    · right
      right
      refine ⟨i, hi, ?_, q, hget, hcleaned⟩
      -- the entry that was applied is of another key, so the cleanup still waits
      have hne : i ≠ d.store.applied := by
        rintro rfl
        rw [show d.store.log[d.store.applied]? = some e from hnext] at hget
        cases hget
        exact hkey rfl
      show d.store.applied + 1 ≤ i
      omega

/-- **Every step keeps track of finished work.** -/
theorem Step.allTracked {a b : Deployment ι} {m : Move ι} (h : Step promise a m b)
    (hpolicy : Conserves promise) (hkept : ∀ who, m ≠ .drop who) (hsound : a.store.Sound)
    (hopen : a.store.closing = false) (ha : a.AllTracked) : b.AllTracked := by
  cases h with
  | pass => exact ha
  | write e =>
    intro k r hstate hfinished
    have hsame : (a.store.append e).1 = a.store.appendAll [e] := rfl
    have hstates : a.store.states.get? k = some r := by
      rw [← a.store.states_appendAll [e]]
      exact hstate
    exact (ha k r hstates hfinished).grow rfl (a.store.prefix_log_appendAll [e])
      (a.store.applied_appendAll [e]) rfl
  | @replicate eager store applied turned =>
    rcases Store.turn?_cases turned with ⟨-, rfl, rfl⟩ | ⟨rfl, rfl⟩ | ⟨e, hnext, rfl, rfl⟩
    · exact ha
    · exact ha
    · exact ha.applied hnext
  | shutdown => exact ha
  | @begin who call idle isOpen again =>
    intro k r hstate hfinished
    change (a.store.appendAll _).states.get? k = some r at hstate
    rw [Store.states_appendAll] at hstate
    apply (ha k r hstate hfinished).play hsound hopen
    · intro q hq
      rw [Monitor.completed_begin]
      exact hq
    · intro stage hstage
      rw [idle] at hstage
      cases hstage
  | enqueue => exact ha
  | read => exact ha
  | @resume who stage answer waits meets ready agreed promised =>
    intro k r hstate hfinished
    change (a.store.appendAll _).states.get? k = some r at hstate
    rw [Store.states_appendAll] at hstate
    apply (ha k r hstate hfinished).play hsound hopen
    · intro q hq
      exact Monitor.mem_queue_resume _ _ meets (List.mem_append_left _ hq)
    · intro stage' hstage q hq hk
      cases hstage.symm.trans waits
      -- the policy gives every record of the batch back: what succeeded is written, what failed
      -- is queued again
      have hneed := Stage.need_of_mem_batch hq a.world.monitor.config
      obtain ⟨results, rfl, hperm⟩ := hpolicy _ stage stage.batch answer hneed promised
      obtain ⟨⟨q', outcome⟩, hmem, hfst⟩ := List.mem_map.1 (hperm.mem_iff.2 hq)
      change q' = q at hfst
      subst hfst
      cases outcome with
      | succeed =>
        right
        exact ⟨_, Monitor.mem_writes_resume _ _ meets hmem hk, rfl⟩
      | fail =>
        left
        apply Monitor.mem_queue_resume _ _ meets
        apply List.mem_append_right
        exact List.mem_map.2 ⟨(q', .fail), List.mem_filter.2 ⟨hmem, rfl⟩, rfl⟩
  | drop => exact absurd rfl (hkept _)

theorem Run.allTracked {a b : Deployment ι} {ms : List (Move ι)} (h : Run promise a ms b)
    (hpolicy : Conserves promise) (hkept : ∀ who, .drop who ∉ ms) (hreach : a.store.Reachable)
    (hopen : b.store.closing = false) (ha : a.AllTracked) : b.AllTracked := by
  induction h with
  | nil => exact ha
  | @cons a b c m ms first rest ih =>
    -- a store that is open at the end was open at every step
    have hopen' : a.store.closing = false := first.open_of_open (rest.open_of_open hopen)
    have hm : ∀ who, m ≠ .drop who := by
      rintro who rfl
      exact hkept who List.mem_cons_self
    apply ih
    · intro who hmem
      exact hkept who (List.mem_cons_of_mem _ hmem)
    · exact first.reachable hreach
    · exact hopen
    · exact first.allTracked hpolicy hm hreach.sound hopen' ha

/-! ## 4. Startup -/

/-- **A startup that reads the log to its end** queues everything that is finished. -/
theorem Step.allTracked_of_startup {a b : Deployment ι} {who : ι} {s : Snapshot}
    (h : Step promise a (.resume who (.refreshed (.ok s))) b)
    (hstartup : a.world.calls.get? who = some .startupSync) : b.AllTracked := by
  cases h with
  | @resume _ stage _ waits meets ready agreed promised =>
    cases hstartup.symm.trans waits
    have hs : s = a.store.snapshot := eq_snapshot_of_agrees agreed
    intro k r hstate hfinished
    change (a.store.appendAll _).states.get? k = some r at hstate
    rw [Store.states_appendAll] at hstate
    apply a.tracked_of_mem_queue who _ (r := r.withKey k) rfl
    show r.withKey k ∈ (a.world.monitor.completed ++ Monitor.finishedIn s.states) ++ []
    rw [List.append_nil, hs]
    exact List.mem_append_right _ (Monitor.mem_finishedIn hstate hfinished)

/-- **No finished work is forgotten.**  After a startup that read the log to its end, and while
    the store is not shut down, all work that the log calls finished is on its way to be cleaned
    up, in whatever order workers write, replication applies, and calls go on. -/
theorem finished_tracked {who : ι} {now : Nat} {config : Config} {keyOf : KeyRule}
    {listing : String} {store : Store} {d a b c : Deployment ι} {ms ns : List (Move ι)}
    {s : Snapshot} (hpolicy : Conserves promise) (hstore : store.Reachable)
    (hlaunch : launch who now config keyOf listing store = .ok d) (hbefore : Run promise d ms a)
    (hstartup : a.world.calls.get? who = some .startupSync)
    (hsynced : Step promise a (.resume who (.refreshed (.ok s))) b) (hafter : Run promise b ns c)
    (hopen : c.store.closing = false) (hkept : ∀ i, .drop i ∉ ns) {k : PartitionKey} {r : Record}
    (hk : c.store.states.get? k = some r) (hfinished : r.status.isCompleted = true) :
    c.Tracked k := by
  have hd : d.store.Reachable := reachable_launch hstore hlaunch
  have ha : a.store.Reachable := hbefore.keeps Step.reachable hd
  have hb : b.store.Reachable := hsynced.reachable ha
  have htracked : b.AllTracked := hsynced.allTracked_of_startup hstartup
  exact hafter.allTracked hpolicy hkept hb hopen htracked k r hk hfinished

def inOrder (stage : Stage) (answer : Answer) : Bool :=
  match stage.need {}, answer with
  | .cleanup batch, .cleaned results => results.map Prod.fst == batch
  | .cleanup _, _ => false
  | _, _ => true

theorem conserves_inOrder : Conserves fun stage answer => inOrder stage answer = true := by
  intro config stage batch answer hneed hcheck
  have hneed' : stage.need {} = .cleanup batch := by
    cases stage <;> cases hneed <;> rfl
  unfold inOrder at hcheck
  rw [hneed'] at hcheck
  cases answer with
  | cleaned results => exact ⟨results, rfl, .of_eq (eq_of_beq hcheck)⟩
  | _ => cases hcheck

/-- A file was completed before the start, and another is while the first is cleaned up; the log
    does not have the cleanup yet. -/
theorem finished_tracked_behind :
    let promise : Stage → Answer → Prop := fun stage answer => inOrder stage answer = true
    let file : Metadata := ⟨⟨"file", none, "/a", none, none⟩, "a", 1, default, none⟩
    let done : Record := .new file .completed
    let store : Store := (Store.append { delay := 0 } ⟨⟨"a"⟩, some done⟩).1
    let ns : List (Move Nat) :=
      [.write ⟨⟨"b"⟩, some done⟩, .begin 1 .tick, .replicate false,
        .resume 1 (.cleaned [(done.withKey ⟨"a"⟩, .succeed)])]
    ∃ d a b c, launch 0 0 {} (fun m => .ok ⟨m.name⟩) "files" store = .ok d ∧
      Run promise d [.ask 0] a ∧ Step promise a (.resume 0 (.refreshed (.ok a.store.snapshot))) b ∧
      Run promise b ns c ∧ c.store.states.get? ⟨"a"⟩ = some done ∧ c.Tracked ⟨"a"⟩ ∧
      c.Tracked ⟨"b"⟩ := by
  intro promise file done store ns
  let started : Store := { store with
    applied := 1, states := Catalog.empty.insert ⟨"a"⟩ done, replication := .idle }
  let d : Deployment Nat := launched 0 0 {} (fun m => .ok ⟨m.name⟩) "files" started
  let a := (d.moves? inOrder [.ask 0]).get (by decide +kernel)
  let b := (a.move? inOrder (.resume 0 (.refreshed (.ok a.store.snapshot)))).get
    (by decide +kernel)
  let c := (b.moves? inOrder ns).get (by decide +kernel)
  have hlaunch : launch 0 0 {} (fun m => .ok ⟨m.name⟩) "files" store = .ok d := rfl
  have hstore : store.Reachable := .append _ (.fresh 0)
  have hda : Run promise d [.ask 0] a := .of_moves? (Option.some_get _).symm
  have hab : Step promise a (.resume 0 (.refreshed (.ok a.store.snapshot))) b :=
    .of_move? (Option.some_get _).symm
  have hbc : Run promise b ns c := .of_moves? (Option.some_get _).symm
  have hstartup : a.world.calls.get? 0 = some .startupSync := by decide +kernel
  have hopen : c.store.closing = false := by decide +kernel
  have hkept : ∀ i, .drop i ∉ ns := by
    intro i
    simp [ns]
  have hfirst : c.store.states.get? ⟨"a"⟩ = some done := by decide +kernel
  have hsecond : c.store.states.get? ⟨"b"⟩ = some done := by decide +kernel
  exact ⟨d, a, b, c, hlaunch, hda, hab, hbc, hfirst,
    finished_tracked conserves_inOrder hstore hlaunch hda hstartup hab hbc hopen hkept hfirst rfl,
    finished_tracked conserves_inOrder hstore hlaunch hda hstartup hab hbc hopen hkept hsecond rfl⟩

end Deployment

end Intake
