import Intake.Proofs.Deployment

/-!
# Waiting — finished work does not wait to be handed out

A scan admits what the store's snapshot admits at that time, and a monitor hears of an entry in the
step in which the store applies it.  So no key that waits to be handed out is finished in the store,
whatever happens between scan and pull (`Deployment.NoneFinished`).  A key leaves for the workers
only in the step in which a pull returns, and is not finished there
(`Deployment.finished_not_waiting`).
-/

namespace Intake

/-! ## 1. Finished keys and replies -/

def Snapshot.isFinished (s : Snapshot) (key : PartitionKey) : Bool :=
  match s.get? key with
  | some r => r.status.isCompleted
  | none => false

theorem Snapshot.isFinished_of_isSchedulable {s : Snapshot} {k : PartitionKey}
    (h : s.isSchedulable k = true) : s.isFinished k = false := by
  unfold isSchedulable at h
  unfold isFinished
  cases hk : s.get? k with
  | none => rfl
  | some r =>
    rw [hk] at h
    simpa [show r.status.isStartable = true from h] using r.status.families_disjoint.1

theorem Store.isFinished_of_states {s t : Store} (h : t.states = s.states) (k : PartitionKey) :
    t.snapshot.isFinished k = s.snapshot.isFinished k := by
  unfold Snapshot.isFinished Snapshot.get? snapshot
  rw [h]

def Turn.reply? (t : Turn) : Option Reply :=
  match t.next with
  | .finished reply => some reply
  | .waiting _ => none

theorem Turn.reply?_eq_some_iff {t : Turn} {reply : Reply} :
    t.reply? = some reply ↔ t.next = .finished reply := by
  unfold reply?
  cases t.next <;> simp

namespace Monitor

theorem scanned_observe_of_isCompleted (m : Monitor) {e : LogEntry} {r : Record}
    (hvalue : e.value = some r) (hr : r.status.isCompleted = true) :
    (m.observe e).1.scanned = m.scanned.erase e.key := by
  unfold observe
  rw [hvalue]
  simp only [hr, if_true]

end Monitor

namespace Deployment

open Interplay (byPath pullMoves sample scanMoves)

variable {ι : Type} [DecidableEq ι] {promise : Stage → Answer → Prop}

def reply? (d : Deployment ι) : Move ι → Option Reply
  | .begin _ call => (d.world.monitor.begin d.world.now call).reply?
  | .resume who answer =>
    match d.world.calls.get? who with
    | some stage => (d.world.monitor.resume d.world.now stage answer).reply?
    | none => none
  | _ => none

/-- **Handing over:** a key that waited to be handed out is handed out now, and was not before. -/
structure HandsOver (a b : Deployment ι) (k : PartitionKey) : Prop where
  waited : a.world.monitor.scanned.get? k ≠ none
  before : a.world.monitor.scheduled.get? k = none
  after : b.world.monitor.scheduled.get? k ≠ none

instance (a b : Deployment ι) (k : PartitionKey) : Decidable (a.HandsOver b k) :=
  decidable_of_iff
    (a.world.monitor.scanned.get? k ≠ none ∧ a.world.monitor.scheduled.get? k = none ∧
      b.world.monitor.scheduled.get? k ≠ none)
    ⟨fun ⟨waited, before, after⟩ => ⟨waited, before, after⟩,
      fun h => ⟨h.waited, h.before, h.after⟩⟩

/-! ## 2. What waits is not finished -/

def NoneFinished (d : Deployment ι) : Prop :=
  ∀ k, d.world.monitor.scanned.get? k ≠ none → d.store.snapshot.isFinished k = false

theorem noneFinished_of_launch {who : ι} {now : Nat} {config : Config} {keyOf : KeyRule}
    {listing : String} {store : Store} {d : Deployment ι}
    (h : launch who now config keyOf listing store = .ok d) : d.NoneFinished := by
  obtain ⟨opened, rfl, -⟩ := launch_cases h
  intro k hk
  exact absurd (Catalog.get?_empty k) hk

omit [DecidableEq ι] in
/-- While the records stay, what waits may only become less. -/
theorem NoneFinished.of_subset {a b : Deployment ι} (h : a.NoneFinished)
    (hstates : b.store.states = a.store.states)
    (hscanned : ∀ k, b.world.monitor.scanned.get? k ≠ none →
      a.world.monitor.scanned.get? k ≠ none) : b.NoneFinished := by
  intro k hk
  rw [Store.isFinished_of_states hstates]
  exact h k (hscanned k hk)

omit [DecidableEq ι] in
/-- **Applying an entry:** the key of finished work is taken from what waits in the same step. -/
theorem NoneFinished.applied {d : Deployment ι} (h : d.NoneFinished) (e : LogEntry) :
    (d.replicated (d.store.applyEntry e) (some e)).NoneFinished := by
  intro k hk
  change (d.world.monitor.observe e).1.scanned.get? k ≠ none at hk
  have hget : (d.store.applyEntry e).snapshot.get? k =
      if k = e.key then e.value else d.store.snapshot.get? k :=
    LogEntry.get?_apply d.store.states e k
  show (d.store.applyEntry e).snapshot.isFinished k = false
  unfold Snapshot.isFinished
  rw [hget]
  by_cases hkey : k = e.key
  · rw [if_pos hkey]
    cases hvalue : e.value with
    | none => rfl
    | some r =>
      show r.status.isCompleted = false
      rw [Bool.eq_false_iff]
      intro hfinished
      -- the monitor would have heard of it
      rw [Monitor.scanned_observe_of_isCompleted _ hvalue hfinished, Catalog.get?_erase,
        if_pos hkey] at hk
      exact hk rfl
  · rw [if_neg hkey]
    apply h k
    rcases d.world.monitor.scanned_observe e with hsame | ⟨-, herased⟩
    · rw [hsame] at hk
      exact hk
    · rw [herased, Catalog.get?_erase, if_neg hkey] at hk
      exact hk

omit [DecidableEq ι] in
/-- **Publishing a scan:** its candidates were selected by the snapshot that the store has now. -/
theorem NoneFinished.published {a b : Deployment ι} (h : a.NoneFinished)
    (hstates : b.store.states = a.store.states) {listed : List Metadata} {keyOf : KeyRule}
    {candidates : Catalog PartitionKey Metadata}
    (hselect : Candidates.select keyOf a.store.snapshot listed = .ok candidates)
    (hscanned : b.world.monitor.scanned =
      a.world.monitor.scanned.insertAll candidates.entries) : b.NoneFinished := by
  intro k hk
  rw [Store.isFinished_of_states hstates]
  by_cases hbefore : a.world.monitor.scanned.get? k = none
  · -- the key is new, so it is one of the candidates
    rw [hscanned] at hk
    have hmem : k ∈ candidates.keys := Catalog.mem_of_get?_insertAll hbefore hk
    rw [Catalog.mem_keys_iff, Catalog.contains_eq_isSome, Option.isSome_iff_ne_none] at hmem
    exact Snapshot.isFinished_of_isSchedulable (Candidates.isSchedulable_of_select hselect hmem)
  · exact h k hbefore

/-- **Every step keeps finished work from waiting.** -/
theorem Step.noneFinished {a b : Deployment ι} {m : Move ι} (h : Step promise a m b)
    (ha : a.NoneFinished) : b.NoneFinished := by
  cases h with
  | pass => exact ha
  | write e => exact ha.of_subset (a.store.states_appendAll [e]) fun _ hk => hk
  | @replicate eager store applied turned =>
    rcases Store.turn?_cases turned with ⟨-, rfl, rfl⟩ | ⟨rfl, rfl⟩ | ⟨e, -, rfl, rfl⟩
    · exact ha
    · exact ha
    · exact ha.applied e
  | shutdown => exact ha
  | @begin who call idle isOpen again =>
    -- a first turn moves no work
    apply ha.of_subset (a.store.states_appendAll _)
    intro k hk
    rw [← (Monitor.Unmoved.begin a.world.monitor a.world.now call).scanned]
    exact hk
  | enqueue => exact ha
  | read => exact ha
  | @resume who stage answer waits meets ready agreed promised =>
    have hstates := a.store.states_appendAll
      (a.world.monitor.resume a.world.now stage answer).writes
    rcases a.world.monitor.scanned_resume a.world.now stage answer with
      hsame | hempty | ⟨idle, listed, snapshot, candidates, rfl, rfl, hselect, hscanned⟩
    · apply ha.of_subset hstates
      intro k hk
      rw [← hsame]
      exact hk
    · -- a pull that ends forgets the scan
      apply ha.of_subset hstates
      intro k hk
      change (a.world.monitor.resume a.world.now stage answer).monitor.scanned.get? k ≠ none at hk
      rw [hempty] at hk
      exact absurd (Catalog.get?_empty k) hk
    · -- the store agrees that the listing came with its snapshot
      have hsnapshot : snapshot = a.store.snapshot := eq_of_beq agreed
      rw [hsnapshot] at hselect
      exact ha.published hstates hselect hscanned
  | drop => exact ha

/-! ## 3. What is handed over -/

/-- **A step that hands a key over** is the last turn of a pull, at which no scanned file was
    finished since its refresh began. -/
theorem Step.handsOver {a b : Deployment ι} {m : Move ι} {k : PartitionKey}
    (h : Step promise a m b) (hbefore : a.world.monitor.scheduled.get? k = none)
    (hafter : b.world.monitor.scheduled.get? k ≠ none) :
    a.HandsOver b k ∧ a.world.monitor.changed = false ∧
      ∃ who g f attempt result, m = .resume who (.refreshed result) ∧
        a.world.calls.get? who = some (.pullSync g f attempt) := by
  cases h with
  | pass => exact absurd hbefore hafter
  | write => exact absurd hbefore hafter
  | @replicate eager store applied turned =>
    cases applied with
    | none => exact absurd hbefore hafter
    | some e =>
      -- news only take from what is handed out
      exfalso
      apply hafter
      show (a.world.monitor.observe e).1.scheduled.get? k = none
      rcases a.world.monitor.scheduled_observe e with hsame | ⟨-, herased⟩
      · rw [hsame, hbefore]
      · rw [herased, Catalog.get?_erase, hbefore, ite_self]
  | shutdown => exact absurd hbefore hafter
  | @begin who call idle isOpen again =>
    change (a.world.monitor.begin a.world.now call).monitor.scheduled.get? k ≠ none at hafter
    rw [(Monitor.Unmoved.begin _ _ _).scheduled] at hafter
    exact absurd hbefore hafter
  | enqueue => exact absurd hbefore hafter
  | read => exact absurd hbefore hafter
  | @resume who stage answer waits meets ready agreed promised =>
    obtain ⟨hwaited, hchanged, g, f, attempt, result, rfl, rfl⟩ :=
      Monitor.settles_of_handedOver a.world.monitor a.world.now hbefore hafter
    exact ⟨⟨hwaited, hbefore, hafter⟩, hchanged, who, g, f, attempt, result, rfl, waits⟩
  | drop => exact absurd hbefore hafter

theorem reply?_of_settles {d : Deployment ι} {who : ι} {g f attempt : Nat}
    (hpull : d.world.calls.get? who = some (.pullSync g f attempt))
    (hchanged : d.world.monitor.changed = false) (result : Except StoreError Snapshot) :
    d.reply? (.resume who (.refreshed result)) =
      some (.groups (Groups.byAge (d.world.monitor.proposed f).values g)) := by
  unfold reply?
  simp only [hpull]
  show (d.world.monitor.pullSynced g f attempt result).reply? = _
  unfold Turn.reply?
  rw [(Monitor.pullSynced_settled d.world.monitor g f attempt result hchanged).2]

theorem Step.replies_of_handsOver {a b : Deployment ι} {m : Move ι} {k : PartitionKey}
    (h : Step promise a m b) (hk : a.HandsOver b k) :
    ∃ groups, a.reply? m = some (.groups groups) := by
  obtain ⟨-, hchanged, who, g, f, attempt, result, rfl, hpull⟩ := h.handsOver hk.before hk.after
  exact ⟨_, reply?_of_settles hpull hchanged result⟩

/-- **What is handed over is not finished** in the store behind the step. -/
theorem Step.isFinished_of_handsOver {a b : Deployment ι} {m : Move ι} {k : PartitionKey}
    (h : Step promise a m b) (ha : a.NoneFinished) (hk : a.HandsOver b k) :
    b.store.snapshot.isFinished k = false := by
  obtain ⟨-, -, who, g, f, attempt, result, rfl, -⟩ := h.handsOver hk.before hk.after
  rw [Store.isFinished_of_states h.states_resume]
  exact ha k hk.waited

/-- **Finished work does not wait to be handed out.**  No key that waits is finished in the store;
    and a key comes to be handed out only in the step in which a pull returns, from those that
    waited, and is not finished then. -/
theorem finished_not_waiting {who : ι} {now : Nat} {config : Config} {keyOf : KeyRule}
    {listing : String} {store : Store} {d a : Deployment ι} {ms : List (Move ι)}
    (hlaunch : launch who now config keyOf listing store = .ok d) (hrun : Run promise d ms a) :
    (∀ k, a.world.monitor.scanned.get? k ≠ none → a.store.snapshot.isFinished k = false) ∧
    ∀ {m : Move ι} {b : Deployment ι} {k : PartitionKey}, Step promise a m b →
      a.world.monitor.scheduled.get? k = none → b.world.monitor.scheduled.get? k ≠ none →
      a.HandsOver b k ∧ (∃ groups, a.reply? m = some (.groups groups)) ∧
        b.store.snapshot.isFinished k = false := by
  have ha : a.NoneFinished := hrun.keeps Step.noneFinished (noneFinished_of_launch hlaunch)
  refine ⟨ha, ?_⟩
  intro m b k hstep hbefore hafter
  obtain ⟨hk, -⟩ := hstep.handsOver hbefore hafter
  exact ⟨hk, hstep.replies_of_handsOver hk, hstep.isFinished_of_handsOver ha hk⟩

/-- Two files wait when a pull begins, and one is completed before its attempt settles: the pull
    makes another attempt, and hands the other file over. -/
theorem finished_not_waiting_again :
    let promise : Stage → Answer → Prop := fun _ _ => true = true
    let done : Record := .new (sample "/b") .completed
    let s : Snapshot := ⟨1, Catalog.empty.insert ⟨"/b"⟩ done⟩
    let m : Move Nat := .resume 2 (.refreshed (.ok s))
    let ms : List (Move Nat) :=
      onStore (openingMoves ++ scanMoves 1 [sample "/a", sample "/b"] .empty ++ pullMoves 2 1 2) ++
        .ask 2 :: (onStore [.hear ⟨⟨"/b"⟩, some done⟩] ++ [m, .ask 2])
    ∃ d a b, launch 0 0 {} byPath "files" { delay := 0 } = .ok d ∧
      Run promise d ms a ∧ Step promise a m b ∧ a.store.snapshot.isFinished ⟨"/b"⟩ = true ∧
      (∀ k, a.world.monitor.scanned.get? k ≠ none → a.store.snapshot.isFinished k = false) ∧
      a.HandsOver b ⟨"/a"⟩ ∧ (∃ groups, a.reply? m = some (.groups groups)) ∧
      b.store.snapshot.isFinished ⟨"/a"⟩ = false := by
  intro promise done s m ms
  let d : Deployment Nat := launched 0 0 {} byPath "files" { delay := 0, replication := .idle }
  let a := (d.moves? (fun _ _ => true) ms).get (by decide +kernel)
  let b := (a.move? (fun _ _ => true) m).get (by decide +kernel)
  have hlaunch : launch 0 0 {} byPath "files" { delay := 0 } = .ok d := rfl
  have hrun : Run promise d ms a := .of_moves? (Option.some_get _).symm
  have hstep : Step promise a m b := .of_move? (Option.some_get _).symm
  have hfinished : a.store.snapshot.isFinished ⟨"/b"⟩ = true := by decide +kernel
  -- the first attempt was taken back
  have hbefore : a.world.monitor.scheduled.get? ⟨"/a"⟩ = none := by decide +kernel
  have hafter : b.world.monitor.scheduled.get? ⟨"/a"⟩ ≠ none := by decide +kernel
  obtain ⟨hwaiting, hhanded⟩ := finished_not_waiting hlaunch hrun
  exact ⟨d, a, b, hlaunch, hrun, hstep, hfinished, hwaiting, hhanded hstep hbefore hafter⟩

end Deployment

end Intake
