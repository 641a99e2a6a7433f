import Intake.Store

/-!
# Log — stores that writes and replication lead to

Whatever is written, replicated, started or shut down, in any order: no more entries are applied
than were written, and replication ends only after a shutdown (`Reachable.sound`).  A store that
still replicates takes every write.  The records are what the applied entries leave
(`Reachable.states_eq`).
-/

namespace Intake

/-- An entry concerns its own key only. -/
theorem LogEntry.get?_apply (states : Catalog PartitionKey Record) (e : LogEntry)
    (k : PartitionKey) :
    (e.apply states).get? k = if k = e.key then e.value else states.get? k := by
  unfold apply
  cases e.value with
  | none => exact Catalog.get?_erase states e.key k
  | some r => exact Catalog.get?_insert states e.key k r

namespace Store

/-! ## 1. Writes and starts -/

/-- A write is taken, or dropped with a report because replication has ended. -/
theorem append_cases (s : Store) (e : LogEntry) :
    s.replication ≠ .ended ∧ s.append e = ({ s with log := s.log ++ [e] }, []) ∨
      s.replication = .ended ∧ s.append e = (s, [.writeDropped (s.written + 1)]) := by
  unfold append
  by_cases h : s.replication = .ended
  · rw [if_pos h]
    exact .inr ⟨h, rfl⟩
  · rw [if_neg h]
    exact .inl ⟨h, rfl⟩

def restore (s : Store) : Store := { s with
  applied := s.written
  states := (s.log.drop s.applied).foldl LogEntry.apply s.states
  replication := .idle }

/-- A start is refused, changes nothing, or begins replication. -/
theorem start_cases (s : Store) :
    s.closing = true ∧ s.start = .error .closed ∨
      s.closing = false ∧ s.isStarted = true ∧ s.start = .ok s ∨
      s.closing = false ∧ s.isStarted = false ∧ s.start = .ok s.restore := by
  unfold Store.start
  cases hclosing : s.closing with
  | true => exact .inl ⟨rfl, rfl⟩
  | false =>
    cases hstarted : s.isStarted with
    | true => exact .inr (.inl ⟨rfl, rfl, rfl⟩)
    | false =>
      right
      right
      refine ⟨rfl, rfl, ?_⟩
      unfold restore
      rw [hclosing]
      rfl

/-- What a start makes of a store. -/
theorem start_ok {s t : Store} (h : s.start = .ok t) :
    s.isStarted = true ∧ t = s ∨ s.isStarted = false ∧ t = s.restore := by
  rcases s.start_cases with ⟨-, heq⟩ | ⟨-, hstarted, heq⟩ | ⟨-, hunstarted, heq⟩
  · cases heq.symm.trans h
  · cases heq.symm.trans h
    exact .inl ⟨hstarted, rfl⟩
  · cases heq.symm.trans h
    exact .inr ⟨hunstarted, rfl⟩

/-! ## 2. Writing many entries -/

def appendAll (s : Store) : List LogEntry → Store
  | [] => s
  | e :: es => (s.append e).1.appendAll es

theorem appendAll_eq {s : Store} (h : s.replication ≠ .ended) (es : List LogEntry) :
    s.appendAll es = { s with log := s.log ++ es } := by
  induction es generalizing s with
  | nil =>
    rw [List.append_nil]
    rfl
  | cons e es ih =>
    have happend : (s.append e).1 = { s with log := s.log ++ [e] } := by
      unfold append
      rw [if_neg h]
    show (s.append e).1.appendAll es = _
    rw [happend, ih (s := { s with log := s.log ++ [e] }) h, List.append_assoc]
    rfl

theorem appendAll_of_ended {s : Store} (h : s.replication = .ended) (es : List LogEntry) :
    s.appendAll es = s := by
  induction es with
  | nil => rfl
  | cons e es ih =>
    have happend : (s.append e).1 = s := by
      unfold append
      rw [if_pos h]
    show (s.append e).1.appendAll es = s
    -- an ended store drops the first entry, and stays ended for the others
    rw [happend, ih]

/-- **Writes are additions** at the end of the log, if they are taken at all. -/
theorem appendAll_cases (s : Store) (es : List LogEntry) :
    s.appendAll es = { s with log := s.log ++ es } ∨
      s.replication = .ended ∧ s.appendAll es = s := by
  by_cases h : s.replication = .ended
  · exact .inr ⟨h, appendAll_of_ended h es⟩
  · exact .inl (appendAll_eq h es)

section Frame

variable (s : Store) (es : List LogEntry)

@[simp] theorem applied_appendAll : (s.appendAll es).applied = s.applied := by
  rcases s.appendAll_cases es with h | ⟨-, h⟩ <;> rw [h]

@[simp] theorem states_appendAll : (s.appendAll es).states = s.states := by
  rcases s.appendAll_cases es with h | ⟨-, h⟩ <;> rw [h]

@[simp] theorem closing_appendAll : (s.appendAll es).closing = s.closing := by
  rcases s.appendAll_cases es with h | ⟨-, h⟩ <;> rw [h]

@[simp] theorem replication_appendAll : (s.appendAll es).replication = s.replication := by
  rcases s.appendAll_cases es with h | ⟨-, h⟩ <;> rw [h]

theorem prefix_log_appendAll : s.log <+: (s.appendAll es).log := by
  rcases s.appendAll_cases es with h | ⟨-, h⟩
  · exact ⟨es, by rw [h]⟩
  · exact ⟨[], by rw [h, List.append_nil]⟩

end Frame

theorem written_appendAll_le (s : Store) (es : List LogEntry) :
    s.written ≤ (s.appendAll es).written :=
  (s.prefix_log_appendAll es).length_le

/-! ## 3. Reachable stores -/

inductive Reachable : Store → Prop where
  | fresh (delay : Nat) : Reachable { delay }
  | append {s : Store} (e : LogEntry) (h : Reachable s) : Reachable (s.append e).1
  | start {s t : Store} (started : s.start = .ok t) (h : Reachable s) : Reachable t
  | turn {s t : Store} {eager : Bool} {now : Nat} {applied : Option LogEntry}
      (turned : s.turn? eager now = some (t, applied)) (h : Reachable s) : Reachable t
  | shutdown {s : Store} (h : Reachable s) : Reachable s.shutdown

/-- **Sound:** replication is not ahead of the log, and it ended only after a shutdown. -/
structure Sound (s : Store) : Prop where
  applied_le : s.applied ≤ s.written
  closing : s.replication = .ended → s.closing = true

theorem Sound.appendAll {s : Store} (h : s.Sound) (es : List LogEntry) :
    (s.appendAll es).Sound where
  applied_le := by
    have hgrows := s.written_appendAll_le es
    have hle := h.applied_le
    rw [applied_appendAll]
    omega
  closing := by
    rw [replication_appendAll, closing_appendAll]
    exact h.closing

theorem Sound.start {s t : Store} (h : s.Sound) (started : s.start = .ok t) : t.Sound := by
  rcases start_ok started with ⟨-, rfl⟩ | ⟨-, rfl⟩
  · exact h
  · refine ⟨Nat.le_refl _, ?_⟩
    intro hended
    cases hended

theorem Sound.turn {s t : Store} (h : s.Sound) {eager : Bool} {now : Nat}
    {applied : Option LogEntry} (turned : s.turn? eager now = some (t, applied)) : t.Sound := by
  rcases turn?_cases turned with ⟨hclosing, -, rfl⟩ | ⟨-, rfl⟩ | ⟨e, hnext, -, rfl⟩
  · -- only here replication ends, and it does so because of a shutdown
    exact ⟨h.applied_le, fun _ => hclosing⟩
  · refine ⟨h.applied_le, ?_⟩
    intro hended
    cases hended
  · refine ⟨?_, ?_⟩
    · -- there is a next entry, so not all are applied
      obtain ⟨hlt, -⟩ := List.getElem?_eq_some_iff.1 hnext
      show s.applied + 1 ≤ s.log.length
      omega
    · intro hended
      cases hended

theorem Sound.shutdown {s : Store} (h : s.Sound) : s.shutdown.Sound :=
  ⟨h.applied_le, fun _ => rfl⟩

/-- **Every reachable store is sound.** -/
theorem Reachable.sound {s : Store} (h : s.Reachable) : s.Sound := by
  induction h with
  | fresh delay =>
    refine ⟨Nat.le_refl 0, ?_⟩
    intro hended
    cases hended
  | append e _ ih => exact ih.appendAll [e]
  | start started _ ih => exact ih.start started
  | turn turned _ ih => exact ih.turn turned
  | shutdown _ ih => exact ih.shutdown

theorem Reachable.appendAll {s : Store} (h : s.Reachable) (es : List LogEntry) :
    (s.appendAll es).Reachable := by
  induction es generalizing s with
  | nil => exact h
  | cons e es ih => exact ih (.append e h)

/-- A store that was not shut down takes every write. -/
theorem Sound.log_appendAll {s : Store} (h : s.Sound) (hopen : s.closing = false)
    (es : List LogEntry) : (s.appendAll es).log = s.log ++ es := by
  have hrunning : s.replication ≠ .ended := by
    intro hended
    have hclosing := h.closing hended
    rw [hopen] at hclosing
    cases hclosing
  rw [appendAll_eq hrunning]

theorem closing_turn {s t : Store} {eager : Bool} {now : Nat} {applied : Option LogEntry}
    (turned : s.turn? eager now = some (t, applied)) : t.closing = s.closing := by
  rcases turn?_cases turned with ⟨-, -, rfl⟩ | ⟨-, rfl⟩ | ⟨_, -, -, rfl⟩ <;> rfl

/-! ## 4. What was applied lately -/

def appliedSince (s : Store) (since : Nat) : List LogEntry := (s.log.take s.applied).drop since

theorem appliedSince_self (s : Store) : s.appliedSince s.applied = [] := by
  apply List.drop_eq_nil_of_le
  rw [List.length_take]
  exact Nat.min_le_left _ _

theorem appliedSince_appendAll {s : Store} (h : s.Sound) (es : List LogEntry) (since : Nat) :
    (s.appendAll es).appliedSince since = s.appliedSince since := by
  have hle : s.applied ≤ s.log.length := h.applied_le
  rcases s.appendAll_cases es with heq | ⟨-, heq⟩
  · rw [heq]
    show ((s.log ++ es).take s.applied).drop since = (s.log.take s.applied).drop since
    rw [List.take_append_of_le_length hle]
  · rw [heq]

theorem appliedSince_applyEntry {s : Store} {e : LogEntry} {since : Nat}
    (hnext : s.next? = some e) (hsince : since ≤ s.applied) :
    (s.applyEntry e).appliedSince since = s.appliedSince since ++ [e] := by
  -- what is applied is a prefix of the log, which grows by its next entry
  have hget : s.log[s.applied]? = some e := hnext
  obtain ⟨hlt, -⟩ := List.getElem?_eq_some_iff.1 hget
  have hlength : since ≤ (s.log.take s.applied).length := by
    rw [List.length_take]
    omega
  show (s.log.take (s.applied + 1)).drop since = (s.log.take s.applied).drop since ++ [e]
  rw [List.take_add_one, hget, Option.toList_some, List.drop_append_of_le_length hlength]

/-- **A log in three parts:** what was applied first, what was applied since, and what waits. -/
theorem log_eq_append_appliedSince {s : Store} {since : Nat} (h : since ≤ s.applied) :
    s.log = s.log.take since ++ (s.appliedSince since ++ s.log.drop s.applied) := by
  have hfirst : (s.log.take s.applied).take since = s.log.take since := by
    rw [List.take_take, Nat.min_eq_left h]
  unfold appliedSince
  rw [← hfirst, ← List.append_assoc, List.take_append_drop, List.take_append_drop]

/-! ## 5. Snapshots of a log -/

def after (log : List LogEntry) (n : Nat) : Catalog PartitionKey Record :=
  (log.take n).foldl LogEntry.apply .empty

theorem after_append {log : List LogEntry} {n : Nat} (h : n ≤ log.length) (es : List LogEntry) :
    after (log ++ es) n = after log n := by
  unfold after
  rw [List.take_append_of_le_length h]

theorem after_succ {log : List LogEntry} {n : Nat} {e : LogEntry} (h : log[n]? = some e) :
    after log (n + 1) = e.apply (after log n) := by
  unfold after
  rw [List.take_add_one, h, Option.toList_some, List.foldl_append]
  rfl

/-- A record that a log leaves stands in one of its entries. -/
theorem mem_of_get?_after {log : List LogEntry} {n : Nat} {k : PartitionKey} {r : Record}
    (h : (after log n).get? k = some r) : ∃ e ∈ log.take n, e.key = k ∧ e.value = some r := by
  suffices hfold : ∀ (es : List LogEntry) (states : Catalog PartitionKey Record),
      (es.foldl LogEntry.apply states).get? k = some r →
        (∃ e ∈ es, e.key = k ∧ e.value = some r) ∨ states.get? k = some r by
    rcases hfold _ _ h with hentry | hempty
    · exact hentry
    · rw [Catalog.get?_empty] at hempty
      cases hempty
  intro es
  induction es with
  | nil => exact fun states hstates => .inr hstates
  | cons e es ih =>
    intro states hstates
    rcases ih _ hstates with ⟨e', he', hentry⟩ | hbefore
    · exact .inl ⟨e', List.mem_cons_of_mem e he', hentry⟩
    · rw [LogEntry.get?_apply] at hbefore
      split at hbefore
      next hk => exact .inl ⟨e, List.mem_cons_self, hk.symm, hbefore⟩
      next => exact .inr hbefore

/-- Replication that has not begun has applied nothing. -/
theorem Reachable.applied_of_unstarted {s : Store} (h : s.Reachable)
    (hs : s.isStarted = false) : s.applied = 0 := by
  have habsent : ∀ t : Store, t.isStarted = false ↔ t.replication = .absent := by
    intro t
    simp [isStarted]
  rw [habsent] at hs
  induction h with
  | fresh => rfl
  | @append s e _ ih =>
    have hreplication := s.replication_appendAll [e]
    have happlied := s.applied_appendAll [e]
    have hstill : s.replication = .absent := hreplication.symm.trans hs
    exact happlied.trans (ih hstill)
  | @start s t started _ ih =>
    rcases start_ok started with ⟨-, rfl⟩ | ⟨-, rfl⟩
    · exact ih hs
    · cases hs
  | @turn s t eager now applied turned _ ih =>
    -- replication that has begun or ended is not absent
    rcases turn?_cases turned with ⟨-, -, rfl⟩ | ⟨-, rfl⟩ | ⟨e, -, -, rfl⟩ <;> cases hs
  | shutdown _ ih => exact ih hs

/-- **The records are what the applied entries leave.** -/
theorem Reachable.states_eq {s : Store} (h : s.Reachable) : s.states = after s.log s.applied := by
  induction h with
  | fresh => rfl
  | @append s e h ih =>
    rcases s.append_cases e with ⟨-, heq⟩ | ⟨-, heq⟩
    · rw [heq]
      exact ih.trans (after_append h.sound.applied_le [e]).symm
    · rw [heq]
      exact ih
  | @start s t started h ih =>
    rcases start_ok started with ⟨-, rfl⟩ | ⟨-, rfl⟩
    · exact ih
    · -- the backlog is folded onto what the entries before it left
      show (s.log.drop s.applied).foldl LogEntry.apply s.states = after s.log s.log.length
      rw [ih, after, after, ← List.foldl_append, List.take_append_drop, List.take_length]
  | @turn s t eager now applied turned _ ih =>
    rcases turn?_cases turned with ⟨-, -, rfl⟩ | ⟨-, rfl⟩ | ⟨e, hnext, -, rfl⟩
    · exact ih
    · exact ih
    · show e.apply s.states = after s.log (s.applied + 1)
      rw [after_succ hnext, ih]
  | shutdown _ ih => exact ih

/-! ## 6. Reading to the end -/

/-- A wait for the log is a wait for its end, at a store that runs. -/
theorem ask_ok {s : Store} {now timeoutMs : Nat} {w : LogWait}
    (h : s.ask now timeoutMs = .ok w) : s.isStarted = true ∧ w.target = s.written := by
  unfold ask target? at h
  split at h
  · cases h
  · split at h
    · cases h
    · cases h
      exact ⟨by simp_all, rfl⟩

/-- A wait that ends well ends with the snapshot, when the target is applied. -/
theorem answer?_ok {s : Store} {now timeoutMs : Nat} {w : LogWait} {snapshot : Snapshot}
    (h : s.answer? now timeoutMs w = some (.ok snapshot)) :
    w.target ≤ s.applied ∧ snapshot = s.snapshot := by
  unfold answer? at h
  split at h
  next hreached =>
    cases h
    exact ⟨of_decide_eq_true hreached, rfl⟩
  next => split at h <;> cases h

/-! ## 7. Growing -/

structure Grows (s t : Store) : Prop where
  log : s.log <+: t.log
  applied : s.applied ≤ t.applied

theorem Grows.refl (s : Store) : Grows s s := ⟨List.prefix_refl _, Nat.le_refl _⟩

theorem Grows.trans {s t u : Store} (h : Grows s t) (h' : Grows t u) : Grows s u :=
  ⟨h.log.trans h'.log, Nat.le_trans h.applied h'.applied⟩

theorem Grows.written_le {s t : Store} (h : Grows s t) : s.written ≤ t.written := h.log.length_le

theorem grows_appendAll (s : Store) (es : List LogEntry) : Grows s (s.appendAll es) :=
  ⟨s.prefix_log_appendAll es, Nat.le_of_eq (s.applied_appendAll es).symm⟩

theorem grows_turn {s t : Store} {eager : Bool} {now : Nat} {applied : Option LogEntry}
    (turned : s.turn? eager now = some (t, applied)) : Grows s t := by
  rcases turn?_cases turned with ⟨-, -, rfl⟩ | ⟨-, rfl⟩ | ⟨_, -, -, rfl⟩
  · exact ⟨List.prefix_refl _, Nat.le_refl _⟩
  · exact ⟨List.prefix_refl _, Nat.le_refl _⟩
  · exact ⟨List.prefix_refl _, Nat.le_succ _⟩

end Store

end Intake
