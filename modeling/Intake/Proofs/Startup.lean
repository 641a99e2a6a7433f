import Intake.Proofs.Deployment
import Mathlib.Data.List.Perm.Subperm

/-!
# Startup — what a new monitor recovers

While a monitor starts it hears of what replication applies, and at the end it recovers the finished
records of the snapshot that it read.  If the log was not read to its end in time there is no such
snapshot, and only what was heard of is queued (`Deployment.completed_startup`).  What was finished
before the monitor listened is then forgotten (`Deployment.startup_forgets`).  If it was, what was
heard of may be recovered as well, and the queue has more records than the log has finished entries
(`Deployment.Matched`).
-/

namespace Intake

namespace Deployment

variable {ι : Type} [DecidableEq ι] {promise : Stage → Answer → Prop}

/-! ## 1. While the startup is under way -/

/-- **A startup under way:** nobody else calls, no snapshot was read, and the finished work that was
    heard of is queued. -/
structure Starting (who : ι) (since : Nat) (d : Deployment ι) : Prop where
  alone : ∀ i stage, d.world.calls.get? i = some stage → i = who ∧ stage = .startupSync
  started : d.world.calls.get? who = some .startupSync
  unread : d.world.monitor.snapshot = .empty
  since_le : since ≤ d.store.applied
  queue : d.world.monitor.completed = (d.store.appliedSince since).filterMap LogEntry.finished?

theorem Starting.launched (who : ι) (now : Nat) (config : Config) (keyOf : KeyRule)
    (listing : String) (store : Store) :
    (launched who now config keyOf listing store).Starting who store.applied where
  alone i stage h := by
    have hcalls : (Catalog.empty.insert who Stage.startupSync).get? i = some stage := h
    rw [Catalog.get?_insert] at hcalls
    split at hcalls
    next hi =>
      cases hcalls
      exact ⟨hi, rfl⟩
    next => cases hcalls
  started := by
    show (Catalog.empty.insert who Stage.startupSync).get? who = some .startupSync
    rw [Catalog.get?_insert, if_pos rfl]
  unread := rfl
  since_le := Nat.le_refl _
  queue := by
    show [] = (store.appliedSince store.applied).filterMap LogEntry.finished?
    rw [Store.appliedSince_self]
    rfl

/-- **A startup under way** at the store that it was launched on. -/
theorem starting_of_launch {who : ι} {now : Nat} {config : Config} {keyOf : KeyRule}
    {listing : String} {store : Store} {d : Deployment ι}
    (h : launch who now config keyOf listing store = .ok d) :
    d.Starting who d.store.applied := by
  obtain ⟨opened, rfl, -⟩ := launch_cases h
  exact .launched who now config keyOf listing opened

/-- A startup at which nothing happened but in the log. -/
theorem Starting.of_store {who : ι} {since : Nat} {a b : Deployment ι} (h : a.Starting who since)
    (hcalls : b.world.calls = a.world.calls) (hmonitor : b.world.monitor = a.world.monitor)
    (happlied : b.store.applied = a.store.applied)
    (hheard : b.store.appliedSince since = a.store.appliedSince since) : b.Starting who since where
  alone := by
    rw [hcalls]
    exact h.alone
  started := by
    rw [hcalls]
    exact h.started
  unread := by
    rw [hmonitor]
    exact h.unread
  since_le := by
    rw [happlied]
    exact h.since_le
  queue := by
    rw [hmonitor, hheard]
    exact h.queue

theorem Starting.applied {who : ι} {since : Nat} {d : Deployment ι} {e : LogEntry}
    (h : d.Starting who since) (hnext : d.store.next? = some e) :
    (d.replicated (d.store.applyEntry e) (some e)).Starting who since where
  alone := h.alone
  started := h.started
  unread := (d.world.monitor.snapshot_observe e).trans h.unread
  since_le := Nat.le_succ_of_le h.since_le
  queue := by
    show (d.world.monitor.observe e).1.completed =
      ((d.store.applyEntry e).appliedSince since).filterMap LogEntry.finished?
    rw [Monitor.completed_observe, Store.appliedSince_applyEntry hnext h.since_le,
      List.filterMap_append, h.queue]
    cases hfinished : e.finished? <;> simp [hfinished]

/-- **Until its own turn** a startup stays under way. -/
theorem Step.starting {who : ι} {since : Nat} {a b : Deployment ι} {m : Move ι}
    (h : Step promise a m b) (hsound : a.store.Sound) (hm : ∀ answer, m ≠ .resume who answer)
    (ha : a.Starting who since) : b.Starting who since := by
  cases h with
  | pass => exact ha.of_store rfl rfl rfl rfl
  | write e =>
    have happlied := a.store.applied_appendAll [e]
    have hheard := Store.appliedSince_appendAll hsound [e] since
    exact ha.of_store rfl rfl happlied hheard
  | @replicate eager store applied turned =>
    rcases Store.turn?_cases turned with ⟨-, rfl, rfl⟩ | ⟨rfl, rfl⟩ | ⟨e, hnext, rfl, rfl⟩
    · exact ha.of_store rfl rfl rfl rfl
    · exact ha.of_store rfl rfl rfl rfl
    · exact ha.applied hnext
  | shutdown => exact ha.of_store rfl rfl rfl rfl
  -- nobody else calls a monitor before its startup is over
  | begin idle isOpen again => exact absurd ha.started (isOpen who)
  | enqueue => exact ha.of_store rfl rfl rfl rfl
  | read => exact ha.of_store rfl rfl rfl rfl
  | @resume i stage answer waits meets ready agreed promised =>
    obtain ⟨rfl, -⟩ := ha.alone _ _ waits
    exact absurd rfl (hm answer)
  | drop waits started =>
    obtain ⟨-, rfl⟩ := ha.alone _ _ waits
    exact absurd rfl started

theorem Run.starting {who : ι} {since : Nat} {a b : Deployment ι} {ms : List (Move ι)}
    (h : Run promise a ms b) (hreach : a.store.Reachable)
    (hms : ∀ answer, .resume who answer ∉ ms) (ha : a.Starting who since) :
    b.Starting who since := by
  induction h with
  | nil => exact ha
  | @cons a b c m ms first rest ih =>
    have hm : ∀ answer, m ≠ .resume who answer := by
      rintro answer rfl
      exact hms answer List.mem_cons_self
    apply ih (first.reachable hreach)
    · intro answer hmem
      exact hms answer (List.mem_cons_of_mem _ hmem)
    · exact first.starting hreach.sound hm ha

/-! ## 2. The end of a startup -/

def recovered (d : Deployment ι) : Except StoreError Snapshot → List Record
  | .ok _ => Monitor.finishedIn d.store.states
  | .error _ => []

/-- **The queue behind a startup:** what was heard of, and what was recovered. -/
theorem Step.completed_startup {who : ι} {since : Nat} {a b : Deployment ι}
    {result : Except StoreError Snapshot} (h : Step promise a (.resume who (.refreshed result)) b)
    (ha : a.Starting who since) :
    b.world.monitor.completed =
      (a.store.appliedSince since).filterMap LogEntry.finished? ++ a.recovered result := by
  cases h with
  | @resume _ stage _ waits meets ready agreed promised =>
    cases ha.started.symm.trans waits
    rw [← ha.queue]
    cases result with
    | ok s =>
      have hs : s = a.store.snapshot := eq_snapshot_of_agrees agreed
      subst hs
      rfl
    | error cause =>
      have hkept : ((a.world.monitor.resume a.world.now .startupSync
          (.refreshed (.error cause))).monitor).completed =
          a.world.monitor.completed ++ Monitor.finishedIn a.world.monitor.snapshot.states := by
        simp only [Monitor.resume, Monitor.synced_eq]
        rfl
      show ((a.world.monitor.resume a.world.now .startupSync
          (.refreshed (.error cause))).monitor).completed = _
      rw [hkept, ha.unread]
      rfl

/-- **What a startup recovers.**  All finished work is queued if and only if the log was read to its
    end, or of all finished work a finished entry was applied while the monitor started. -/
theorem recovers_iff {who : ι} {now : Nat} {config : Config} {keyOf : KeyRule} {listing : String}
    {store : Store} {d a b : Deployment ι} {ms : List (Move ι)}
    {result : Except StoreError Snapshot} (hstore : store.Reachable)
    (hlaunch : launch who now config keyOf listing store = .ok d) (hbefore : Run promise d ms a)
    (hms : ∀ answer, .resume who answer ∉ ms)
    (hend : Step promise a (.resume who (.refreshed result)) b) :
    (∀ k r, b.store.states.get? k = some r → r.status.isCompleted = true →
      b.world.monitor.Queued k) ↔
    result.isOk = true ∨
      ∀ k r, b.store.states.get? k = some r → r.status.isCompleted = true →
        ∃ e ∈ a.store.appliedSince d.store.applied, e.key = k ∧ e.finished?.isSome = true := by
  have hreach : d.store.Reachable := reachable_launch hstore hlaunch
  have hd : d.Starting who d.store.applied := by
    obtain ⟨opened, rfl, -⟩ := launch_cases hlaunch
    exact .launched who now config keyOf listing opened
  have ha : a.Starting who d.store.applied := hbefore.starting hreach hms hd
  have hqueue := hend.completed_startup ha
  rw [hend.states_resume]
  cases result with
  | ok s =>
    refine iff_of_true ?_ (.inl rfl)
    intro k r hk hfinished
    refine ⟨r.withKey k, ?_, rfl⟩
    rw [hqueue]
    exact List.mem_append_right _ (Monitor.mem_finishedIn hk hfinished)
  | error cause =>
    -- the snapshot is still the empty one, so nothing but news was queued
    rw [recovered, List.append_nil] at hqueue
    have hheard := Monitor.queued_iff_of_news hqueue
    constructor
    · intro h
      right
      intro k r hk hfinished
      exact (hheard k).1 (h k r hk hfinished)
    · rintro (hok | h)
      · cases hok
      · intro k r hk hfinished
        exact (hheard k).2 (h k r hk hfinished)

def laggingStore (file : Metadata) : Store where
  delay := 100
  log := [⟨⟨"a"⟩, some (.new file .completed)⟩, ⟨⟨"b"⟩, some (.new file .started)⟩]
  applied := 1
  states := Catalog.empty.insert ⟨"a"⟩ (.new file .completed)
  replication := .idle

theorem reachable_laggingStore (file : Metadata) : (laggingStore file).Reachable := by
  have hfresh : Store.Reachable { delay := 100 } := .fresh 100
  have hstarted : Store.Reachable { delay := 100, replication := .idle } := .start rfl hfresh
  have hwritten := hstarted.append ⟨⟨"a"⟩, some (.new file .completed)⟩
  have hheld := @Store.Reachable.turn _ _ false 0 _ rfl hwritten
  have happlied := @Store.Reachable.turn _ _ false 100 _ rfl hheld
  exact happlied.append ⟨⟨"b"⟩, some (.new file .started)⟩

/-- **A startup may forget** finished work: the refresh is over before the news of the other file
    are applied, and the completed file was applied before the monitor listened. -/
theorem startup_forgets :
    let promise : Stage → Answer → Prop := fun _ _ => true = true
    let config : Config := { startupReadToEndTimeoutMs := 50 }
    let file : Metadata := ⟨⟨"file", none, "/a", none, none⟩, "a", 1, default, none⟩
    let tooSlow : Except StoreError Snapshot := .error (.timeout (.ofMillis 50))
    ∃ d a b : Deployment Nat,
      launch 0 100 config (fun m => .ok ⟨m.name⟩) "files" (laggingStore file) = .ok d ∧
      Run promise d [.ask 0, .pass 150] a ∧ Step promise a (.resume 0 (.refreshed tooSlow)) b ∧
      b.store.states.get? ⟨"a"⟩ = some (.new file .completed) ∧
      ¬ b.world.monitor.Queued ⟨"a"⟩ := by
  intro promise config file tooSlow
  let d : Deployment Nat := launched 0 100 config (fun m => .ok ⟨m.name⟩) "files"
    (laggingStore file)
  let a := (d.moves? (fun _ _ => true) [.ask 0, .pass 150]).get (by decide +kernel)
  let b := (a.move? (fun _ _ => true) (.resume 0 (.refreshed tooSlow))).get (by decide +kernel)
  have hda : Run promise d [.ask 0, .pass 150] a := .of_moves? (Option.some_get _).symm
  have hab : Step promise a (.resume 0 (.refreshed tooSlow)) b :=
    .of_move? (Option.some_get _).symm
  have hstate : b.store.states.get? ⟨"a"⟩ = some (.new file .completed) := by decide +kernel
  have hforgotten : ¬ b.world.monitor.Queued ⟨"a"⟩ := by decide +kernel
  exact ⟨d, a, b, launch_of_isStarted (by decide +kernel) rfl, hda, hab, hstate, hforgotten⟩

/-- With more time the startup reads the log to its end, and recovers the completed file. -/
theorem startup_recovers :
    let promise : Stage → Answer → Prop := fun _ _ => true = true
    let config : Config := { startupReadToEndTimeoutMs := 500 }
    let file : Metadata := ⟨⟨"file", none, "/a", none, none⟩, "a", 1, default, none⟩
    let ms : List (Move Nat) := [.ask 0, .replicate false, .pass 200, .replicate false]
    ∃ d a b : Deployment Nat,
      launch 0 100 config (fun m => .ok ⟨m.name⟩) "files" (laggingStore file) = .ok d ∧
      Run promise d ms a ∧ Step promise a (.resume 0 (.refreshed (.ok a.store.snapshot))) b ∧
      ∀ k r, b.store.states.get? k = some r → r.status.isCompleted = true →
        b.world.monitor.Queued k := by
  intro promise config file ms
  let d : Deployment Nat := launched 0 100 config (fun m => .ok ⟨m.name⟩) "files"
    (laggingStore file)
  let a := (d.moves? (fun _ _ => true) ms).get (by decide +kernel)
  let b := (a.move? (fun _ _ => true) (.resume 0 (.refreshed (.ok a.store.snapshot)))).get
    (by decide +kernel)
  have hlaunch : launch 0 100 config (fun m => .ok ⟨m.name⟩) "files" (laggingStore file) = .ok d :=
    launch_of_isStarted (by decide +kernel) rfl
  have hda : Run promise d ms a := .of_moves? (Option.some_get _).symm
  have hab : Step promise a (.resume 0 (.refreshed (.ok a.store.snapshot))) b :=
    .of_move? (Option.some_get _).symm
  have hms : ∀ answer, .resume 0 answer ∉ ms := by
    intro answer
    simp [ms]
  exact ⟨d, a, b, hlaunch, hda, hab,
    (recovers_iff (reachable_laggingStore file) hlaunch hda hms hab).2 (.inl rfl)⟩

/-! ## 3. Work that is queued twice -/

/-- **Matched:** every queued record has a finished entry of the log to itself. -/
def Matched (d : Deployment ι) : Prop :=
  d.world.monitor.completed.Subperm (d.store.log.filterMap LogEntry.finished?)

/-- The turn that ends a startup writes nothing. -/
theorem Step.store_startup {who : ι} {a b : Deployment ι} {result : Except StoreError Snapshot}
    (h : Step promise a (.resume who (.refreshed result)) b)
    (hstarted : a.world.calls.get? who = some .startupSync) : b.store = a.store := by
  cases h with
  | @resume _ stage _ waits meets ready agreed promised =>
    cases hstarted.symm.trans waits
    have hwrites : (a.world.monitor.resume a.world.now .startupSync (.refreshed result)).writes =
        [] := by
      rcases result with (_ | _ | _) | s <;> rfl
    show a.store.appendAll _ = a.store
    rw [hwrites]
    rfl

omit [DecidableEq ι] in
/-- What was recovered is not more than one entry of the log says. -/
theorem mem_log_of_recovered {d : Deployment ι} (hstore : d.store.Reachable)
    {result : Except StoreError Snapshot} {q : Record} (h : q ∈ d.recovered result) :
    q ∈ d.store.log.filterMap LogEntry.finished? := by
  cases result with
  | error cause => cases h
  | ok s =>
    obtain ⟨k, r, hk, hfinished, rfl⟩ := Monitor.mem_finishedIn_iff.1 h
    rw [hstore.states_eq] at hk
    obtain ⟨e, he, rfl, hvalue⟩ := Store.mem_of_get?_after hk
    exact List.mem_filterMap.2
      ⟨e, List.mem_of_mem_take he, LogEntry.finished?_eq_some_iff.2 ⟨r, hvalue, hfinished, rfl⟩⟩

omit [DecidableEq ι] in
theorem nodup_recovered (d : Deployment ι) (result : Except StoreError Snapshot) :
    (d.recovered result).Nodup := by
  cases result with
  | error cause => exact .nil
  | ok s => exact Monitor.nodup_finishedIn d.store.states

/-- **What a startup queues,** and when no entry of the log is queued twice.  The queue is what was
    heard of and what was recovered; it matches the log if and only if every recovered record stands
    in an entry that was not heard of.  If the finished entries of the log differ from each other,
    that is so if nothing was both heard of and recovered. -/
theorem matched_iff {who : ι} {now : Nat} {config : Config} {keyOf : KeyRule} {listing : String}
    {store : Store} {d a b : Deployment ι} {ms : List (Move ι)}
    {result : Except StoreError Snapshot} (hstore : store.Reachable)
    (hlaunch : launch who now config keyOf listing store = .ok d) (hbefore : Run promise d ms a)
    (hms : ∀ answer, .resume who answer ∉ ms)
    (hend : Step promise a (.resume who (.refreshed result)) b) :
    let heard := (b.store.appliedSince d.store.applied).filterMap LogEntry.finished?
    let unheard := b.store.log.take d.store.applied ++ b.store.log.drop b.store.applied
    b.world.monitor.completed = heard ++ b.recovered result ∧
    (b.Matched ↔ result.isOk = false ∨
      ∀ k r, b.store.states.get? k = some r → r.status.isCompleted = true →
        ∃ e ∈ unheard, e.finished? = some (r.withKey k)) ∧
    ((b.store.log.filterMap LogEntry.finished?).Nodup →
      (b.Matched ↔ heard.Disjoint (b.recovered result))) := by
  intro heard unheard
  have hd : d.store.Reachable := reachable_launch hstore hlaunch
  have ha : a.Starting who d.store.applied :=
    hbefore.starting hd hms (starting_of_launch hlaunch)
  have hsame : b.store = a.store := hend.store_startup ha.started
  have hreach : b.store.Reachable := by
    rw [hsame]
    exact hbefore.keeps Step.reachable hd
  have hqueue : b.world.monitor.completed = heard ++ b.recovered result := by
    have hends := hend.completed_startup ha
    unfold recovered at hends ⊢
    rw [← hsame] at hends
    exact hends
  -- the log is what was heard of, and the rest
  have hsince : d.store.applied ≤ b.store.applied := by
    rw [hsame]
    exact ha.since_le
  have hlog : (b.store.log.filterMap LogEntry.finished?).Perm
      (heard ++ unheard.filterMap LogEntry.finished?) := by
    rw [Store.log_eq_append_appliedSince hsince, List.filterMap_append, List.filterMap_append,
      List.filterMap_append]
    exact List.perm_append_comm_assoc _ _ _
  have hmatched : b.Matched ↔ b.recovered result ⊆ unheard.filterMap LogEntry.finished? := by
    unfold Matched
    rw [hqueue, hlog.subperm_left, List.subperm_append_left]
    exact ⟨List.Subperm.subset, List.subperm_of_subset (b.nodup_recovered result)⟩
  refine ⟨hqueue, hmatched.trans ?_, ?_⟩
  · cases result with
    | error cause => exact iff_of_true (List.nil_subset _) (.inl rfl)
    | ok s =>
      constructor
      · intro h
        right
        intro k r hk hfinished
        exact List.mem_filterMap.1 (h (Monitor.mem_finishedIn hk hfinished))
      · rintro (hfailed | h) q hq
        · cases hfailed
        · obtain ⟨k, r, hk, hfinished, rfl⟩ := Monitor.mem_finishedIn_iff.1 hq
          exact List.mem_filterMap.2 (h k r hk hfinished)
  · intro hnodup
    have hapart : heard.Disjoint (unheard.filterMap LogEntry.finished?) :=
      List.disjoint_of_nodup_append (hlog.nodup_iff.1 hnodup)
    rw [hmatched]
    constructor
    · intro h q hheard hrecovered
      exact hapart hheard (h hrecovered)
    · intro h q hq
      -- a recovered record stands in the log, and not in what was heard of
      have hmem := hlog.mem_iff.1 (mem_log_of_recovered hreach hq)
      exact (List.mem_append.1 hmem).resolve_left fun hheard => h hheard hq

/-- A file was completed before the start.  While the monitor starts another one is completed, and
    then cleaned, so it is heard of and not recovered: each file is queued once. -/
theorem matched_iff_cleaned :
    let promise : Stage → Answer → Prop := fun _ _ => true = true
    let file : Metadata := ⟨⟨"file", none, "/a", none, none⟩, "a", 1, default, none⟩
    let done : Record := .new file .completed
    let store : Store := (Store.append { delay := 0 } ⟨⟨"b"⟩, some done⟩).1
    let ms : List (Move Nat) :=
      [.write ⟨⟨"a"⟩, some done⟩, .write ⟨⟨"a"⟩, some (.new file .cleaned)⟩, .ask 0,
        .replicate false, .replicate false]
    ∃ d a b : Deployment Nat, launch 0 0 {} (fun m => .ok ⟨m.name⟩) "files" store = .ok d ∧
      Run promise d ms a ∧ Step promise a (.resume 0 (.refreshed (.ok a.store.snapshot))) b ∧
      b.world.monitor.completed = [done.withKey ⟨"a"⟩, done.withKey ⟨"b"⟩] ∧ b.Matched := by
  intro promise file done store ms
  let started : Store := { store with
    applied := 1, states := Catalog.empty.insert ⟨"b"⟩ done, replication := .idle }
  let d : Deployment Nat := launched 0 0 {} (fun m => .ok ⟨m.name⟩) "files" started
  let a := (d.moves? (fun _ _ => true) ms).get (by decide +kernel)
  let b := (a.move? (fun _ _ => true) (.resume 0 (.refreshed (.ok a.store.snapshot)))).get
    (by decide +kernel)
  have hlaunch : launch 0 0 {} (fun m => .ok ⟨m.name⟩) "files" store = .ok d := rfl
  have hstore : store.Reachable := .append _ (.fresh 0)
  have hda : Run promise d ms a := .of_moves? (Option.some_get _).symm
  have hab : Step promise a (.resume 0 (.refreshed (.ok a.store.snapshot))) b :=
    .of_move? (Option.some_get _).symm
  have hms : ∀ answer, .resume 0 answer ∉ ms := by
    intro answer
    simp [ms]
  have hqueue : b.world.monitor.completed = [done.withKey ⟨"a"⟩, done.withKey ⟨"b"⟩] := by
    decide +kernel
  -- the only finished record that is left was written before the start
  have hleft : ∀ e ∈ b.store.states.entries, e.2.status.isCompleted = true →
      ∃ e' ∈ b.store.log.take d.store.applied ++ b.store.log.drop b.store.applied,
        e'.finished? = some (e.2.withKey e.1) := by
    decide +kernel
  obtain ⟨-, hmatched, -⟩ := matched_iff hstore hlaunch hda hms hab
  refine ⟨d, a, b, hlaunch, hda, hab, hqueue, hmatched.2 (.inr ?_)⟩
  intro k r hk hfinished
  exact hleft (k, r) ((Catalog.mem_entries_iff _).2 hk) hfinished

/-- **A startup may queue work twice:** the store is started already, and the one entry of its log,
    which says that a file is completed, is applied while the monitor starts.  So the file is heard
    of, and it is recovered. -/
theorem startup_queues_twice :
    let promise : Stage → Answer → Prop := fun _ _ => true = true
    let file : Metadata := ⟨⟨"file", none, "/a", none, none⟩, "a", 1, default, none⟩
    let done : Record := .new file .completed
    let store : Store :=
      (Store.append { delay := 0, replication := .idle } ⟨⟨"a"⟩, some done⟩).1
    ∃ d a b : Deployment Nat, store.Reachable ∧
      launch 0 0 {} (fun m => .ok ⟨m.name⟩) "files" store = .ok d ∧
      Run promise d [.ask 0, .replicate false] a ∧
      Step promise a (.resume 0 (.refreshed (.ok a.store.snapshot))) b ∧
      b.store.log.filterMap LogEntry.finished? = [done.withKey ⟨"a"⟩] ∧
      b.world.monitor.completed = [done.withKey ⟨"a"⟩, done.withKey ⟨"a"⟩] ∧ ¬ b.Matched := by
  intro promise file done store
  let d : Deployment Nat := launched 0 0 {} (fun m => .ok ⟨m.name⟩) "files" store
  let a := (d.moves? (fun _ _ => true) [.ask 0, .replicate false]).get (by decide +kernel)
  let b := (a.move? (fun _ _ => true) (.resume 0 (.refreshed (.ok a.store.snapshot)))).get
    (by decide +kernel)
  have hstore : store.Reachable := by
    have hfresh : Store.Reachable { delay := 0 } := .fresh 0
    have hstarted : Store.Reachable { delay := 0, replication := .idle } := .start rfl hfresh
    exact hstarted.append _
  have hlaunch : launch 0 0 {} (fun m => .ok ⟨m.name⟩) "files" store = .ok d :=
    launch_of_isStarted (by decide +kernel) rfl
  have hda : Run promise d [.ask 0, .replicate false] a := .of_moves? (Option.some_get _).symm
  have hab : Step promise a (.resume 0 (.refreshed (.ok a.store.snapshot))) b :=
    .of_move? (Option.some_get _).symm
  have hlog : b.store.log.filterMap LogEntry.finished? = [done.withKey ⟨"a"⟩] := by decide +kernel
  have hqueue : b.world.monitor.completed = [done.withKey ⟨"a"⟩, done.withKey ⟨"a"⟩] := by
    decide +kernel
  refine ⟨d, a, b, hstore, hlaunch, hda, hab, hlog, hqueue, ?_⟩
  intro hmatched
  have hlength := hmatched.length_le
  rw [hqueue, hlog] at hlength
  exact absurd hlength (by decide)

end Deployment

end Intake
