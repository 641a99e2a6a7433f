import Intake.Proofs.Feed

/-!
# Shutdown — whether anything happens behind it

Replication looks for a shutdown and for work at once.  If both are there, either may be seen first:
an entry of the log that need not wait, or one that has waited long enough, can slip past the
shutdown.  A shutdown is final on a run exactly if none does (`Feed.Closed.final_iff`).  None can if
replication was not begun or had ended (`Feed.not_slipsIn_of_stopped`).  If it goes on without a
delay, or holds an entry, then one does on some run (`Feed.Sound.exists_slipsIn`).
-/

namespace Intake

/-! ## 1. Turns that slip past a shutdown -/

namespace Store

/-- **An entry slips past:** a turn sees it before the shutdown, and it may be applied, either
    because there is no delay or because the delay is over. -/
def Slips (s : Store) (eager : Bool) (now : Nat) : Prop :=
  eager = true ∧ (∃ e, s.next? = some e) ∧
    (s.replication = .idle ∧ s.delay = 0 ∨ ∃ due ≤ now, s.replication = .holding due)

/-- **A turn behind a shutdown** applies an entry exactly if one slips past. -/
theorem turn?_applies_iff {s : Store} (h : s.closing = true) {eager : Bool} {now : Nat} :
    (∃ t e, s.turn? eager now = some (t, some e)) ↔ s.Slips eager now := by
  constructor
  · rintro ⟨t, e, hturn⟩
    have hnext : s.next? = some e := (turn?_applied hturn).1
    unfold turn? at hturn
    cases hstate : s.replication with
    | absent => simp [hstate] at hturn
    | ended => simp [hstate] at hturn
    | idle =>
      cases eager with
      | false => simp [hstate, hnext, h] at hturn
      | true =>
        by_cases hdelay : s.delay = 0
        · exact ⟨rfl, ⟨e, hnext⟩, .inl ⟨hstate, hdelay⟩⟩
        · simp [hstate, hnext, hdelay] at hturn
    | holding due =>
      cases eager with
      | false => simp [hstate, hnext, h] at hturn
      | true =>
        by_cases hdue : now < due
        · simp [hstate, hnext, h, hdue] at hturn
        · exact ⟨rfl, ⟨e, hnext⟩, .inr ⟨due, Nat.not_lt.1 hdue, hstate⟩⟩
  · rintro ⟨rfl, ⟨e, hnext⟩, ⟨hidle, hdelay⟩ | ⟨due, hdue, hholding⟩⟩
    · refine ⟨s.applyEntry e, e, ?_⟩
      simp [turn?, hidle, hnext, hdelay]
    · refine ⟨s.applyEntry e, e, ?_⟩
      simp [turn?, hholding, hnext, Nat.not_lt.2 hdue]

theorem start_of_closing {s : Store} (h : s.closing = true) : s.start = .error .closed := by
  unfold start
  rw [if_pos h]

structure Stopped (s : Store) : Prop where
  closing : s.closing = true
  stopped : s.replication = .absent ∨ s.replication = .ended

theorem Stopped.turn?_eq_none {s : Store} (h : s.Stopped) (eager : Bool) (now : Nat) :
    s.turn? eager now = none := by
  unfold turn?
  rcases h.stopped with hstopped | hstopped <;> rw [hstopped]

end Store

/-! ## 2. Operations behind a shutdown -/

namespace Feed

variable {ρ : Type}

structure Closed (f : Feed ρ) : Prop where
  sound : f.Sound
  closing : f.store.closing = true

theorem Closed.play {f : Feed ρ} (h : f.Closed) (op : Op ρ) : (f.play op).Closed := by
  refine ⟨h.sound.play op, ?_⟩
  have hplay := f.outcome_play op
  generalize f.play op = g at hplay ⊢
  cases hplay with
  | accepted => exact h.closing
  | restored started _ =>
    rw [Store.start_of_closing h.closing] at started
    cases started
  | applied => exact h.closing
  | quiet _ _ hidles => exact hidles.closing h.closing

/-- An entry that slips past is applied. -/
theorem applied_play_of_slips {f : Feed ρ} (h : f.Closed) {eager : Bool} {now : Nat}
    (hslips : f.store.Slips eager now) :
    (f.play (.replicate eager now)).store.applied = f.store.applied + 1 := by
  obtain ⟨t, e, hturn⟩ := (Store.turn?_applies_iff h.closing).2 hslips
  obtain ⟨-, rfl⟩ := Store.turn?_applied hturn
  simp only [Feed.play, hturn]
  rfl

/-- **Unless an entry slips past,** an operation tells nothing and keeps the snapshot. -/
theorem Closed.play_quiet {f : Feed ρ} (h : f.Closed) {op : Op ρ}
    (hno : ∀ eager now, op = .replicate eager now → ¬f.store.Slips eager now) :
    (f.play op).store.snapshot = f.store.snapshot ∧ (f.play op).told = f.told := by
  have hplay := f.outcome_play op
  generalize f.play op = g at hplay ⊢
  cases hplay with
  | accepted => exact ⟨rfl, rfl⟩
  | restored started _ =>
    rw [Store.start_of_closing h.closing] at started
    cases started
  | @applied eager now e hnext turned =>
    have hslips := (Store.turn?_applies_iff h.closing).1 ⟨_, e, turned⟩
    exact absurd hslips (hno eager now rfl)
  | @quiet op store listener hidles =>
    have hstates : store.states = f.store.states := by
      rw [(hidles.reachable h.sound.reachable).states_eq, h.sound.reachable.states_eq, hidles.log,
        hidles.applied]
    refine ⟨?_, rfl⟩
    show Snapshot.mk store.applied store.states = ⟨f.store.applied, f.store.states⟩
    rw [hidles.applied, hstates]

/-! ## 3. Runs behind a shutdown -/

/-- **Final:** in every state of a run the snapshot and what was told are as they were. -/
def Final (f : Feed ρ) (after : List (Op ρ)) : Prop :=
  ∀ before rest, after = before ++ rest →
    (f.playAll before).store.snapshot = f.store.snapshot ∧ (f.playAll before).told = f.told

def SlipsIn (f : Feed ρ) (after : List (Op ρ)) : Prop :=
  ∃ before eager now rest, after = before ++ .replicate eager now :: rest ∧
    (f.playAll before).store.Slips eager now

theorem SlipsIn.cons {f : Feed ρ} {op : Op ρ} {after : List (Op ρ)}
    (h : (f.play op).SlipsIn after) : f.SlipsIn (op :: after) := by
  obtain ⟨before, eager, now, rest, rfl, hslips⟩ := h
  exact ⟨op :: before, eager, now, rest, rfl, hslips⟩

theorem Closed.playAll {f : Feed ρ} (h : f.Closed) (ops : List (Op ρ)) :
    (f.playAll ops).Closed := by
  induction ops generalizing f with
  | nil => exact h
  | cons op ops ih => exact ih (h.play op)

/-- **A run in which nothing slips past** ends as it began. -/
theorem Closed.playAll_quiet {f : Feed ρ} (h : f.Closed) {after : List (Op ρ)}
    (hno : ¬f.SlipsIn after) :
    (f.playAll after).store.snapshot = f.store.snapshot ∧ (f.playAll after).told = f.told := by
  induction after generalizing f with
  | nil => exact ⟨rfl, rfl⟩
  | cons op ops ih =>
    have hquiet : ∀ eager now, op = .replicate eager now → ¬f.store.Slips eager now := by
      rintro eager now rfl hslips
      exact hno ⟨[], eager, now, ops, rfl, hslips⟩
    have hfirst := h.play_quiet hquiet
    obtain ⟨hsnapshot, htold⟩ := ih (h.play op) (fun hslips => hno hslips.cons)
    exact ⟨hsnapshot.trans hfirst.1, htold.trans hfirst.2⟩

/-- **A shutdown is final** on a run exactly if no entry slips past. -/
theorem Closed.final_iff {f : Feed ρ} (h : f.Closed) (after : List (Op ρ)) :
    f.Final after ↔ ¬f.SlipsIn after := by
  constructor
  · rintro hfinal ⟨before, eager, now, rest, rfl, hslips⟩
    have hbefore := (hfinal before _ rfl).1
    have hturn := (hfinal (before ++ [.replicate eager now]) rest (by simp)).1
    rw [playAll_append] at hturn
    have hstill : ((f.playAll before).play (.replicate eager now)).store.applied =
        (f.playAll before).store.applied :=
      congrArg Snapshot.offset (hturn.trans hbefore.symm)
    rw [applied_play_of_slips (h.playAll before) hslips] at hstill
    omega
  · rintro hno before rest rfl
    apply h.playAll_quiet
    rintro ⟨first, eager, now, later, rfl, hslips⟩
    exact hno ⟨first, eager, now, later ++ rest, by simp, hslips⟩

/-! ## 4. What replication does at a shutdown -/

/-- What was stopped stays so. -/
theorem stopped_play {f : Feed ρ} (h : f.store.Stopped) (op : Op ρ) :
    (f.play op).store.Stopped := by
  have hwrite (e : LogEntry) : (f.write e).store.Stopped := by
    unfold write
    rcases f.store.append_cases e with ⟨-, heq⟩ | ⟨-, heq⟩
    · rw [heq]
      exact ⟨h.closing, h.stopped⟩
    · rw [heq]
      exact h
  cases op with
  | put key record => exact hwrite _
  | delete key => exact hwrite _
  | start =>
    simp only [Feed.play, Store.start_of_closing h.closing]
    exact h
  | listen listener => exact h
  | refresh => exact h
  | shutdown => exact ⟨rfl, h.stopped⟩
  | replicate eager now =>
    simp only [Feed.play, h.turn?_eq_none eager now]
    exact h

theorem stopped_playAll {f : Feed ρ} (h : f.store.Stopped) (ops : List (Op ρ)) :
    (f.playAll ops).store.Stopped := by
  induction ops generalizing f with
  | nil => exact h
  | cons op ops ih => exact ih (stopped_play h op)

/-- Past replication that is stopped nothing slips. -/
theorem not_slipsIn_of_stopped {f : Feed ρ} (h : f.store.Stopped) (after : List (Op ρ)) :
    ¬f.SlipsIn after := by
  rintro ⟨before, eager, now, rest, -, hslips⟩
  have hstopped := stopped_playAll h before
  obtain ⟨t, e, hturn⟩ := (Store.turn?_applies_iff hstopped.closing).2 hslips
  rw [hstopped.turn?_eq_none] at hturn
  cases hturn

/-- Behind a write that is accepted there is an entry to go on with. -/
theorem exists_next?_write {f : Feed ρ} (h : f.Sound) (hopen : f.store.replication ≠ .ended)
    (e : LogEntry) : ∃ e', (f.write e).store.next? = some e' := by
  unfold write
  rcases f.store.append_cases e with ⟨-, heq⟩ | ⟨hended, -⟩
  · rw [heq]
    have hle : f.store.applied ≤ f.store.log.length := h.reachable.sound.applied_le
    have hlt : f.store.applied < (f.store.log ++ [e]).length := by
      rw [List.length_append, List.length_singleton]
      omega
    exact ⟨_, List.getElem?_eq_getElem hlt⟩
  · exact absurd hended hopen

/-- **Replication that goes on** lets an entry slip past that is ready. -/
theorem Sound.exists_slipsIn {f : Feed ρ} (h : f.Sound)
    (hready : f.store.replication = .idle ∧ f.store.delay = 0 ∨
      ∃ due, f.store.replication = .holding due) :
    ∃ after, f.SlipsIn after := by
  let e : LogEntry := ⟨⟨"a"⟩, none⟩
  have hopen : f.store.replication ≠ .ended := by
    rintro hended
    rcases hready with ⟨hidle, -⟩ | ⟨due, hholding⟩
    · cases hidle.symm.trans hended
    · cases hholding.symm.trans hended
  have hnext := exists_next?_write h hopen e
  have hsame : (f.write e).store.replication = f.store.replication ∧
      (f.write e).store.delay = f.store.delay := by
    unfold write
    rcases f.store.append_cases e with ⟨-, heq⟩ | ⟨-, heq⟩ <;> rw [heq] <;> exact ⟨rfl, rfl⟩
  rcases hready with ⟨hidle, hdelay⟩ | ⟨due, hholding⟩
  · refine ⟨[.delete ⟨"a"⟩, .replicate true 0], [.delete ⟨"a"⟩], true, 0, [], rfl, rfl, hnext, ?_⟩
    exact .inl ⟨hsame.1.trans hidle, hsame.2.trans hdelay⟩
  · refine ⟨[.delete ⟨"a"⟩, .replicate true due], [.delete ⟨"a"⟩], true, due, [], rfl, rfl,
      hnext, ?_⟩
    exact .inr ⟨due, Nat.le_refl due, hsame.1.trans hholding⟩

/-- **When a shutdown is final.**  Whatever was done to a new store before it was shut down: on a
    run behind the shutdown nothing is applied, nobody is told and the snapshot stays, exactly if in
    no turn an entry that is ready is seen before the shutdown.  That is so on every run if
    replication was not begun or had ended.  It is not if replication goes on without a delay, or
    holds an entry. -/
theorem shutdown_final_iff (delay : Nat) (before : List (Op ρ)) :
    let f := (fresh delay).playAll (before ++ [.shutdown])
    (∀ after, f.Final after ↔ ¬f.SlipsIn after) ∧
    (f.store.replication = .absent ∨ f.store.replication = .ended → ∀ after, f.Final after) ∧
    (f.store.replication = .idle ∧ f.store.delay = 0 ∨ (∃ due, f.store.replication = .holding due) →
      ∃ after, ¬f.Final after) := by
  intro f
  have hclosed : f.Closed := by
    refine ⟨(Sound.fresh delay).playAll _, ?_⟩
    show ((fresh delay).playAll (before ++ [.shutdown])).store.closing = true
    rw [playAll_append]
    rfl
  refine ⟨hclosed.final_iff, ?_, ?_⟩
  · intro hstopped after
    rw [hclosed.final_iff]
    exact not_slipsIn_of_stopped ⟨hclosed.closing, hstopped⟩ after
  · intro hready
    obtain ⟨after, hslips⟩ := hclosed.sound.exists_slipsIn hready
    exact ⟨after, fun hfinal => (hclosed.final_iff after).1 hfinal hslips⟩

/-- A shutdown before the start is final; one behind a start without a delay is not. -/
theorem shutdown_final_iff_started :
    let unstarted : Feed Nat := (fresh 0).playAll ([.delete ⟨"a"⟩] ++ [.shutdown])
    let started : Feed Nat := (fresh 0).playAll ([.start] ++ [.shutdown])
    unstarted.store.replication = .absent ∧ (∀ after, unstarted.Final after) ∧
      (started.store.replication = .idle ∧ started.store.delay = 0) ∧
      ∃ after, ¬started.Final after := by
  intro unstarted started
  obtain ⟨-, hfinal, -⟩ := shutdown_final_iff 0 ([.delete ⟨"a"⟩] : List (Op Nat))
  obtain ⟨-, -, hovertaken⟩ := shutdown_final_iff 0 ([.start] : List (Op Nat))
  have hidle : started.store.replication = .idle ∧ started.store.delay = 0 := ⟨rfl, rfl⟩
  exact ⟨rfl, hfinal (.inl rfl), hidle, hovertaken (.inl hidle)⟩

/-- **Two shutdowns that are not final.**  An entry is in the log when the store is shut down; and
    an entry is held whose time has come.  Each is applied behind the shutdown and told to the
    listener. -/
theorem shutdown_overtaken :
    let file : Record := .new ⟨⟨"file", none, "/a", none, none⟩, "a", 1, default, none⟩ .started
    let pending : Feed Nat :=
      (fresh 0).playAll [.listen 1, .start, .put ⟨"a"⟩ file, .shutdown]
    let held : Feed Nat :=
      (fresh 10).playAll [.listen 1, .start, .put ⟨"a"⟩ file, .replicate false 0, .shutdown]
    (pending.store.snapshot.offset = 0 ∧ pending.told = [] ∧
      (pending.play (.replicate true 0)).store.snapshot.offset = 1 ∧
      (pending.play (.replicate true 0)).told = [⟨1, 1, ⟨⟨"a"⟩, some file⟩⟩]) ∧
    (held.store.snapshot.offset = 0 ∧ held.told = [] ∧
      (held.play (.replicate true 10)).store.snapshot.offset = 1 ∧
      (held.play (.replicate true 10)).told = [⟨1, 1, ⟨⟨"a"⟩, some file⟩⟩]) := by
  decide +kernel

end Feed

end Intake
