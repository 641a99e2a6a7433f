import Intake.Proofs.Exclusive
import Intake.Proofs.Waiting

/-!
# HandOver — which work a pull hands over

A pull reads the log to its end before it settles, but selects by what waits alone: what it hands
over may be started again unless the snapshot that it just read has it as committed, invalid or
cleaned (`Deployment.handsOver_schedulable_iff`).  With what it hands over it returns everything
that was handed over before.  Finished work is among this only if the monitor may reconfigure, and
then it was finished after it had been handed over (`Deployment.finished_after_handedOver`).
-/

namespace Intake

namespace Deployment

open Interplay (byPath pullMoves sample scanMoves)

variable {ι : Type} [DecidableEq ι] {promise : Stage → Answer → Prop}

/-! ## 1. What is selected -/

/-- **A pull goes on** when its refresh is over: with the snapshot of the store, if that ended
    well. -/
theorem Step.pulled {a b : Deployment ι} {who : ι} {g f attempt : Nat}
    {result : Except StoreError Snapshot} (h : Step promise a (.resume who (.refreshed result)) b)
    (hpull : a.world.calls.get? who = some (.pullSync g f attempt)) :
    b = a.play who (a.world.monitor.pullSynced g f attempt result) ∧
      ∀ s, result = .ok s → s = a.store.snapshot := by
  cases h with
  | @resume _ stage _ waits meets ready agreed promised =>
    cases hpull.symm.trans waits
    refine ⟨rfl, ?_⟩
    rintro s rfl
    exact eq_snapshot_of_agrees agreed

theorem handsOver_iff {a b : Deployment ι} {who : ι} {g f attempt : Nat}
    {result : Except StoreError Snapshot} {k : PartitionKey}
    (h : Step promise a (.resume who (.refreshed result)) b)
    (hpull : a.world.calls.get? who = some (.pullSync g f attempt)) :
    a.HandsOver b k ↔
      a.world.monitor.changed = false ∧ k ∈ (a.world.monitor.staged f).map Prod.fst := by
  have hsettled := Monitor.pullSynced_settled a.world.monitor g f attempt result
  constructor
  · intro hk
    obtain ⟨-, hchanged, -⟩ := h.handsOver hk.before hk.after
    refine ⟨hchanged, ?_⟩
    obtain ⟨rfl, -⟩ := h.pulled hpull
    have hafter : (a.world.monitor.pullSynced g f attempt result).monitor.scheduled.get? k ≠ none :=
      hk.after
    rw [(hsettled hchanged).1] at hafter
    exact Catalog.mem_of_get?_insertAll hk.before hafter
  · rintro ⟨hchanged, hstaged⟩
    have hafter : (a.world.monitor.proposed f).get? k ≠ none :=
      Catalog.get?_insertAll_of_mem _ hstaged
    -- only files that are not handed out are staged
    have hbefore : a.world.monitor.scheduled.get? k = none := by
      obtain ⟨e, he, rfl⟩ := List.mem_map.1 hstaged
      exact Monitor.get?_scheduled_of_mem_staged he
    obtain ⟨rfl, -⟩ := h.pulled hpull
    refine ⟨Monitor.scanned_of_proposed hbefore hafter, hbefore, ?_⟩
    show (a.world.monitor.pullSynced g f attempt result).monitor.scheduled.get? k ≠ none
    rw [(hsettled hchanged).1]
    exact hafter

/-- **A pull reads the log but selects by what waits:** it hands over what it staged, if no scanned
    file was finished meanwhile, and this is schedulable in the snapshot that it read unless the
    snapshot has it as committed, invalid or cleaned. -/
theorem handsOver_schedulable_iff {who : ι} {now : Nat} {config : Config} {keyOf : KeyRule}
    {listing : String} {store : Store} {d a b : Deployment ι} {ms : List (Move ι)} {i : ι}
    {g f attempt : Nat} {s : Snapshot}
    (hlaunch : launch who now config keyOf listing store = .ok d) (hrun : Run promise d ms a)
    (hpull : a.world.calls.get? i = some (.pullSync g f attempt))
    (hstep : Step promise a (.resume i (.refreshed (.ok s))) b) :
    b.world.monitor.snapshot = s ∧
    (∀ k, a.HandsOver b k ↔
      a.world.monitor.changed = false ∧ k ∈ (a.world.monitor.staged f).map Prod.fst) ∧
    ∀ k, a.HandsOver b k → (s.isSchedulable k = true ↔
      ∀ r, s.get? k = some r → r.status ∉ [.committed, .invalid, .cleaned]) := by
  have ha : a.NoneFinished := hrun.keeps Step.noneFinished (noneFinished_of_launch hlaunch)
  obtain ⟨hb, hs⟩ := hstep.pulled hpull
  have hkept : b.world.monitor.snapshot = s := by
    rw [hb]
    exact a.world.monitor.snapshot_pullSynced g f attempt (.ok s)
  refine ⟨hkept, fun k => handsOver_iff hstep hpull, ?_⟩
  intro k hk
  have hunfinished : s.isFinished k = false := by
    rw [hs s rfl]
    exact ha k hk.waited
  unfold Snapshot.isFinished at hunfinished
  unfold Snapshot.isSchedulable
  cases hget : s.get? k with
  | none => simp
  | some r =>
    rw [hget] at hunfinished
    -- of the five statuses that are not startable, two are finished
    show r.status.isStartable = true ↔ ∀ r', some r = some r' → _
    rw [Status.isStartable_iff hunfinished]
    constructor
    · rintro h _ ⟨⟩
      exact h
    · intro h
      exact h r rfl

/-- Of two files that wait, one is started by someone else, and one is cleaned.  A pull hands both
    over, and only the first should be handed over. -/
theorem handsOver_schedulable_started :
    let promise : Stage → Answer → Prop := fun _ _ => true = true
    let started : Record := .new (sample "/a") .started
    let cleaned : Record := .new (sample "/b") .cleaned
    let s : Snapshot := ⟨2, .ofList [(⟨"/a"⟩, started), (⟨"/b"⟩, cleaned)]⟩
    let ms : List (Move Nat) :=
      onStore (openingMoves ++ scanMoves 1 [sample "/a", sample "/b"] .empty ++
        [.hear ⟨⟨"/a"⟩, some started⟩, .hear ⟨⟨"/b"⟩, some cleaned⟩] ++ pullMoves 2 1 2) ++ [.ask 2]
    ∃ d a b, launch 0 0 {} byPath "files" { delay := 0 } = .ok d ∧
      Run promise d ms a ∧ a.world.calls.get? 2 = some (.pullSync 1 2 1) ∧
      Step promise a (.resume 2 (.refreshed (.ok s))) b ∧ b.world.monitor.snapshot = s ∧
      a.HandsOver b ⟨"/a"⟩ ∧ s.isSchedulable ⟨"/a"⟩ = true ∧
      a.HandsOver b ⟨"/b"⟩ ∧ ¬ s.isSchedulable ⟨"/b"⟩ = true := by
  intro promise started cleaned s ms
  let d : Deployment Nat := launched 0 0 {} byPath "files" { delay := 0, replication := .idle }
  let a := (d.moves? (fun _ _ => true) ms).get (by decide +kernel)
  let b := (a.move? (fun _ _ => true) (.resume 2 (.refreshed (.ok s)))).get (by decide +kernel)
  have hlaunch : launch 0 0 {} byPath "files" { delay := 0 } = .ok d := rfl
  have hrun : Run promise d ms a := .of_moves? (Option.some_get _).symm
  have hpull : a.world.calls.get? 2 = some (.pullSync 1 2 1) := by decide +kernel
  have hstep : Step promise a (.resume 2 (.refreshed (.ok s))) b :=
    .of_move? (Option.some_get _).symm
  have hchanged : a.world.monitor.changed = false := by decide +kernel
  obtain ⟨hs, hover, hiff⟩ := handsOver_schedulable_iff hlaunch hrun hpull hstep
  have hfirst : a.HandsOver b ⟨"/a"⟩ := (hover _).2 ⟨hchanged, by decide +kernel⟩
  have hsecond : a.HandsOver b ⟨"/b"⟩ := (hover _).2 ⟨hchanged, by decide +kernel⟩
  have hstarted : ∀ r, s.get? ⟨"/a"⟩ = some r → r.status ∉ [.committed, .invalid, .cleaned] := by
    rintro r ⟨⟩
    decide
  have hcleaned : ¬ ∀ r, s.get? ⟨"/b"⟩ = some r → r.status ∉ [.committed, .invalid, .cleaned] := by
    intro h
    exact h cleaned rfl (by decide)
  exact ⟨d, a, b, hlaunch, hrun, hpull, hstep, hs, hfirst, (hiff _ hfirst).2 hstarted, hsecond,
    mt (hiff _ hsecond).1 hcleaned⟩

/-- **Work that has ended may be handed over:** three files wait when news come that they are
    committed, invalid and cleaned.  A pull reads this, and hands all of them over. -/
theorem handsOver_ended :
    let promise : Stage → Answer → Prop := fun _ _ => true = true
    let ended : List (PartitionKey × Record) :=
      [(⟨"/a"⟩, .new (sample "/a") .committed), (⟨"/b"⟩, .new (sample "/b") .invalid),
        (⟨"/c"⟩, .new (sample "/c") .cleaned)]
    let s : Snapshot := ⟨3, .ofList ended⟩
    let m : Move Nat := .resume 2 (.refreshed (.ok s))
    let ms : List (Move Nat) :=
      onStore (openingMoves ++ scanMoves 1 [sample "/a", sample "/b", sample "/c"] .empty ++
        ended.map (fun e => .hear ⟨e.1, some e.2⟩) ++ pullMoves 2 1 3) ++ [.ask 2]
    ∃ d a b, launch 0 0 {} byPath "files" { delay := 0 } = .ok d ∧
      Run promise d ms a ∧ Step promise a m b ∧ b.world.monitor.snapshot = s ∧
      (∃ groups, a.reply? m = some (.groups groups) ∧
        ∀ e ∈ ended, e.2.metadata.uri ∈ groups.flatten) ∧
      ∀ e ∈ ended, a.HandsOver b e.1 ∧ s.get? e.1 = some e.2 ∧ s.isSchedulable e.1 = false := by
  intro promise ended s m ms
  let d : Deployment Nat := launched 0 0 {} byPath "files" { delay := 0, replication := .idle }
  let a := (d.moves? (fun _ _ => true) ms).get (by decide +kernel)
  let b := (a.move? (fun _ _ => true) m).get (by decide +kernel)
  have hlaunch : launch 0 0 {} byPath "files" { delay := 0 } = .ok d := rfl
  have hrun : Run promise d ms a := .of_moves? (Option.some_get _).symm
  have hstep : Step promise a m b := .of_move? (Option.some_get _).symm
  have hs : b.world.monitor.snapshot = s := by decide +kernel
  have hpull : a.world.calls.get? 2 = some (.pullSync 1 3 1) := by decide +kernel
  have hchanged : a.world.monitor.changed = false := by decide +kernel
  have hreply := reply?_of_settles hpull hchanged (.ok s)
  have hbatch : ∀ e ∈ ended, ∃ file ∈ (a.world.monitor.proposed 3).values,
      file.uri = e.2.metadata.uri := by decide +kernel
  have hended : ∀ e ∈ ended,
      a.HandsOver b e.1 ∧ s.get? e.1 = some e.2 ∧ s.isSchedulable e.1 = false := by
    decide +kernel
  refine ⟨d, a, b, hlaunch, hrun, hstep, hs, ⟨_, hreply, ?_⟩, hended⟩
  intro e he
  exact (Groups.mem_byAge_iff Nat.one_pos).2 (hbatch e he)

/-! ## 2. What is handed over again -/

/-- A monitor that may not reconfigure has one batch at a time, on a store as without one. -/
theorem oneBatch_of_launch {who : ι} {now : Nat} {config : Config} {keyOf : KeyRule}
    {listing : String} {store : Store} {d : Deployment ι}
    (h : launch who now config keyOf listing store = .ok d)
    (hfixed : config.reconfigurationAfterTimeoutMs = none) : d.world.OneBatch := by
  have hstart : (Interplay.start now config keyOf listing : Interplay ι).OneBatch :=
    .start now keyOf listing hfixed
  exact (step_launch h).oneBatch hstart

theorem Step.oneBatch {a b : Deployment ι} {m : Move ι} (h : Step promise a m b)
    (ha : a.world.OneBatch) : b.world.OneBatch :=
  h.keeps_world Interplay.Step.oneBatch ha

theorem holdsGate_of_reply {d : Deployment ι} {m : Move ι} {groups : List (List Uri)}
    (h : d.reply? m = some (.groups groups)) (hne : groups ≠ []) :
    ∃ who stage, d.world.calls.get? who = some stage ∧ stage.holdsGate = true := by
  unfold reply? at h
  split at h
  next who call =>
    exact absurd (Monitor.groups_begin _ _ (Turn.reply?_eq_some_iff.1 h)) hne
  next who answer =>
    split at h
    next stage hstage =>
      obtain ⟨g, f, attempt, rfl⟩ :=
        Monitor.pullSync_of_groups _ _ hne (Turn.reply?_eq_some_iff.1 h)
      exact ⟨who, _, hstage, rfl⟩
    next => cases h
  next => cases h

def IsOut (k : PartitionKey) (d : Deployment ι) : Prop :=
  d.world.monitor.scheduled.get? k ≠ none

/-- **Finished work is handed out only again.**  If finished work is in a batch, the monitor may
    reconfigure, and an earlier pull handed the work over before it was finished, since when it is
    handed out. -/
theorem finished_after_handedOver {who : ι} {now : Nat} {config : Config} {keyOf : KeyRule}
    {listing : String} {store : Store} {d a b : Deployment ι} {ms : List (Move ι)} {m : Move ι}
    {groups : List (List Uri)} {k : PartitionKey} {file : Metadata}
    (hlaunch : launch who now config keyOf listing store = .ok d) (hrun : Run promise d ms a)
    (hstep : Step promise a m b) (hreply : a.reply? m = some (.groups groups))
    (hk : b.world.monitor.scheduled.get? k = some file) (hout : file.uri ∈ groups.flatten)
    (hfinished : b.store.snapshot.isFinished k = true) :
    config.reconfigurationAfterTimeoutMs ≠ none ∧
    ∃ p q before m' after groups', ms = before ++ m' :: after ∧ Run promise d before p ∧
      Step promise p m' q ∧ p.reply? m' = some (.groups groups') ∧ p.HandsOver q k ∧
      q.store.snapshot.isFinished k = false ∧ Throughout promise (IsOut k) q after a := by
  have hd : d.NoneFinished := noneFinished_of_launch hlaunch
  have ha : a.NoneFinished := hrun.keeps Step.noneFinished hd
  -- what is handed over only now waited until now, so it is not finished
  have hbefore : IsOut k a := by
    intro hnone
    have hafter : b.world.monitor.scheduled.get? k ≠ none := by
      rw [hk]
      exact Option.some_ne_none file
    obtain ⟨hover, -⟩ := hstep.handsOver hnone hafter
    rw [hstep.isFinished_of_handsOver ha hover] at hfinished
    cases hfinished
  constructor
  · intro hfixed
    have hone : a.world.OneBatch := hrun.keeps Step.oneBatch (oneBatch_of_launch hlaunch hfixed)
    have hne : groups ≠ [] := by
      rintro rfl
      cases hout
    -- with one batch at a time nothing is handed out while a pull is behind the gate
    obtain ⟨i, stage, hstage, hholds⟩ := holdsGate_of_reply hreply hne
    exact hbefore ((Catalog.isEmpty_iff _).1 (hone.idle i stage hstage hholds) k)
  · rcases hrun.throughout_or_last hbefore with
      hever | ⟨p, q, before, m', after, rfl, hdp, hp, hpq, hqa⟩
    · -- nothing is handed out behind a launch
      obtain ⟨opened, rfl, -⟩ := launch_cases hlaunch
      exact absurd (Catalog.get?_empty k) hever.here
    · have hnone : p.world.monitor.scheduled.get? k = none := Classical.not_not.1 hp
      obtain ⟨hover, -⟩ := hpq.handsOver hnone hqa.here
      obtain ⟨groups', hreply'⟩ := hpq.replies_of_handsOver hover
      have hunfinished : q.store.snapshot.isFinished k = false :=
        hpq.isFinished_of_handsOver (hdp.keeps Step.noneFinished hd) hover
      exact ⟨p, q, before, m', after, groups', rfl, hdp, hpq, hreply', hover, hunfinished, hqa⟩

def reconfiguring : Config := { reconfigurationAfterTimeoutMs := some 0 }

/-- A file is handed over and another one is found; the first is completed while the second pull
    reads the log. -/
theorem finished_after_handedOver_meanwhile :
    let promise : Stage → Answer → Prop := fun _ _ => true = true
    let done : Record := .new (sample "/a") .completed
    let m : Move Nat := .resume 2 (.refreshed (.ok ⟨1, Catalog.empty.insert ⟨"/a"⟩ done⟩))
    let ms : List (Move Nat) :=
      onStore (openingMoves ++ scanMoves 1 [sample "/a"] .empty ++ pullMoves 2 1 1 ++
        [.resume 2 (.refreshed (.ok .empty))] ++ scanMoves 1 [sample "/b"] .empty ++
        pullMoves 2 1 1) ++ .ask 2 :: onStore [.hear ⟨⟨"/a"⟩, some done⟩]
    ∃ d a b groups,
      launch 0 0 reconfiguring byPath "files" { delay := 0 } = .ok d ∧
      Run promise d ms a ∧ Step promise a m b ∧ a.reply? m = some (.groups groups) ∧
      b.world.monitor.scheduled.get? ⟨"/a"⟩ = some (sample "/a") ∧
      (sample "/a").uri ∈ groups.flatten ∧
      b.store.snapshot.isFinished ⟨"/a"⟩ = true ∧
      ∃ p q m' after groups', Step promise p m' q ∧ p.reply? m' = some (.groups groups') ∧
        p.HandsOver q ⟨"/a"⟩ ∧ q.store.snapshot.isFinished ⟨"/a"⟩ = false ∧
        Throughout promise (IsOut ⟨"/a"⟩) q after a := by
  intro promise done m ms
  let d : Deployment Nat := launched 0 0 reconfiguring byPath "files"
    { delay := 0, replication := .idle }
  let a := (d.moves? (fun _ _ => true) ms).get (by decide +kernel)
  let b := (a.move? (fun _ _ => true) m).get (by decide +kernel)
  have hlaunch : launch 0 0 reconfiguring byPath "files" { delay := 0 } = .ok d := rfl
  have hrun : Run promise d ms a := .of_moves? (Option.some_get _).symm
  have hstep : Step promise a m b := .of_move? (Option.some_get _).symm
  have hpull : a.world.calls.get? 2 = some (.pullSync 1 1 1) := by decide +kernel
  have hchanged : a.world.monitor.changed = false := by decide +kernel
  have hreply := reply?_of_settles hpull hchanged (.ok ⟨1, Catalog.empty.insert ⟨"/a"⟩ done⟩)
  have hk : b.world.monitor.scheduled.get? ⟨"/a"⟩ = some (sample "/a") := by decide +kernel
  have hout : (sample "/a").uri ∈ (Groups.byAge (a.world.monitor.proposed 1).values 1).flatten :=
    (Groups.mem_byAge_iff Nat.one_pos).2 ⟨sample "/a", by decide +kernel, rfl⟩
  have hfinished : b.store.snapshot.isFinished ⟨"/a"⟩ = true := by decide +kernel
  obtain ⟨-, p, q, before, m', after, groups', -, -, hpq, hreply', hover, hunfinished, hqa⟩ :=
    finished_after_handedOver hlaunch hrun hstep hreply hk hout hfinished
  exact ⟨d, a, b, _, hlaunch, hrun, hstep, hreply, hk, hout, hfinished, p, q, m', after, groups',
    hpq, hreply', hover, hunfinished, hqa⟩

/-- **Finished work may be handed out again:** next to a file that is handed out another one is
    found, and the first is completed.  The next pull returns both. -/
theorem finished_handedOut_again :
    let promise : Stage → Answer → Prop := fun _ _ => true = true
    let done : Record := .new (sample "/a") .completed
    let s : Snapshot := ⟨1, Catalog.empty.insert ⟨"/a"⟩ done⟩
    let m : Move Nat := .resume 2 (.refreshed (.ok s))
    let ms : List (Move Nat) :=
      onStore (openingMoves ++ scanMoves 1 [sample "/a"] .empty ++ pullMoves 2 1 9 ++
        [.resume 2 (.refreshed (.ok .empty))] ++ scanMoves 1 [sample "/a", sample "/b"] .empty ++
        [.hear ⟨⟨"/a"⟩, some done⟩] ++ pullMoves 2 1 9) ++ [.ask 2]
    ∃ d a b groups,
      launch 0 0 reconfiguring byPath "files" { delay := 0 } = .ok d ∧
      Run promise d ms a ∧ Step promise a m b ∧ a.reply? m = some (.groups groups) ∧
      b.world.monitor.scheduled.get? ⟨"/a"⟩ = some (sample "/a") ∧
      (sample "/a").uri ∈ groups.flatten ∧
      b.store.snapshot.get? ⟨"/a"⟩ = some done := by
  intro promise done s m ms
  let d : Deployment Nat := launched 0 0 reconfiguring byPath "files"
    { delay := 0, replication := .idle }
  let a := (d.moves? (fun _ _ => true) ms).get (by decide +kernel)
  let b := (a.move? (fun _ _ => true) m).get (by decide +kernel)
  have hlaunch : launch 0 0 reconfiguring byPath "files" { delay := 0 } = .ok d := rfl
  have hrun : Run promise d ms a := .of_moves? (Option.some_get _).symm
  have hstep : Step promise a m b := .of_move? (Option.some_get _).symm
  have hpull : a.world.calls.get? 2 = some (.pullSync 1 9 1) := by decide +kernel
  have hchanged : a.world.monitor.changed = false := by decide +kernel
  have hreply := reply?_of_settles hpull hchanged (.ok s)
  have hk : b.world.monitor.scheduled.get? ⟨"/a"⟩ = some (sample "/a") := by decide +kernel
  have hout : (sample "/a").uri ∈ (Groups.byAge (a.world.monitor.proposed 9).values 1).flatten :=
    (Groups.mem_byAge_iff Nat.one_pos).2 ⟨sample "/a", by decide +kernel, rfl⟩
  have hdone : b.store.snapshot.get? ⟨"/a"⟩ = some done := by decide +kernel
  exact ⟨d, a, b, _, hlaunch, hrun, hstep, hreply, hk, hout, hdone⟩

end Deployment

end Intake
