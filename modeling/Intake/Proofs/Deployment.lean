import Intake.Proofs.Interplay
import Intake.Proofs.Log
import Intake.Proofs.Queue

/-!
# Deployment — a monitor on its store

A monitor that is the listener of a store.  Workers write to the log, replication applies it and
tells the monitor, and the calls of the monitor go on in any order: what they write goes to the
log, and what they learn of the log is what the store says.  Listings and cleanups answer as a
promise admits.  Seen without its store a deployment is an interplay (`Step.world`).
-/

namespace Intake

instance decidableEqExcept {ε α : Type} [DecidableEq ε] [DecidableEq α] :
    DecidableEq (Except ε α)
  | .ok a, .ok b => decidable_of_iff (a = b) ⟨congrArg Except.ok, Except.ok.inj⟩
  | .error a, .error b => decidable_of_iff (a = b) ⟨congrArg Except.error, Except.error.inj⟩
  | .ok _, .error _ => isFalse nofun
  | .error _, .ok _ => isFalse nofun

/-- **Deployment.**  Calls that read the log to its end have a wait for it; `own` are the places of
    the log at which the monitor's own entries are. -/
structure Deployment (ι : Type) where
  world : Interplay ι
  store : Store
  waits : Catalog ι LogWait := .empty
  own : List Nat := []

/-- **Move.**  Replication turns are `eager` if they prefer entries to a shutdown. -/
inductive Deployment.Move (ι : Type) where
  | pass (time : Nat)
  | write (entry : LogEntry)
  | replicate (eager : Bool)
  | shutdown
  | begin (who : ι) (call : Call)
  | ask (who : ι)
  | resume (who : ι) (answer : Answer)
  | drop (who : ι)

namespace Deployment

variable {ι : Type} [DecidableEq ι]

/-! ## 1. Moves -/

def launched (who : ι) (now : Nat) (config : Config) (keyOf : KeyRule) (listing : String)
    (store : Store) : Deployment ι where
  world :=
    let world := Interplay.start now config keyOf listing
    world.play who (world.monitor.begin now .startup)
  store := store

def launch (who : ι) (now : Nat) (config : Config) (keyOf : KeyRule) (listing : String)
    (store : Store) : Except Error (Deployment ι) := do
  config.validate.mapError Error.config
  let store ← if store.isStarted then .ok store else store.start.mapError Error.store
  return launched who now config keyOf listing store

def logAnswer? (d : Deployment ι) (who : ι) (timeoutMs : Nat) :
    Option (Except StoreError Snapshot) :=
  match d.waits.get? who with
  | some wait => d.store.answer? d.world.now timeoutMs wait
  | none =>
    match d.store.ask d.world.now timeoutMs with
    | .error cause => some (.error cause)
    | .ok _ => none

/-- **Whether the store agrees** with an answer: a refresh ends as the log says, and a listing
    comes with the snapshot of the store behind it. -/
def agrees (d : Deployment ι) (who : ι) : Need → Answer → Bool
  | .refresh timeoutMs, .refreshed result => d.logAnswer? who timeoutMs == some result
  | .refresh _, _ => false
  | .listing, .listed _ snapshot => snapshot == d.store.snapshot
  | _, _ => true

def replicated (d : Deployment ι) (store : Store) : Option LogEntry → Deployment ι
  | none => { d with store }
  | some e => { d with store, world := d.world.hear e }

def play (d : Deployment ι) (who : ι) (t : Turn) : Deployment ι where
  world := d.world.play who t
  store := d.store.appendAll t.writes
  waits := d.waits.erase who
  own := d.own ++ List.range' d.store.written
    ((d.store.appendAll t.writes).written - d.store.written)

def IsOpen (d : Deployment ι) : Prop := ∀ who, d.world.calls.get? who ≠ some .startupSync

inductive Step (promise : Stage → Answer → Prop) :
    Deployment ι → Move ι → Deployment ι → Prop where
  | pass (d : Deployment ι) {time : Nat} (later : d.world.now ≤ time) :
      Step promise d (.pass time) { d with world := { d.world with now := time } }
  | write (d : Deployment ι) (e : LogEntry) :
      Step promise d (.write e) { d with store := (d.store.append e).1 }
  | replicate (d : Deployment ι) {eager : Bool} {store : Store} {applied : Option LogEntry}
      (turned : d.store.turn? eager d.world.now = some (store, applied)) :
      Step promise d (.replicate eager) (d.replicated store applied)
  | shutdown (d : Deployment ι) : Step promise d .shutdown { d with store := d.store.shutdown }
  | begin (d : Deployment ι) {who : ι} {call : Call} (idle : d.world.calls.get? who = none)
      (isOpen : d.IsOpen) (again : call ≠ .startup) :
      Step promise d (.begin who call) (d.play who (d.world.monitor.begin d.world.now call))
  | enqueue (d : Deployment ι) {who : ι} {stage : Stage}
      (waits : d.world.calls.get? who = some stage)
      (needs : stage.need d.world.monitor.config = .gate) :
      Step promise d (.ask who) { d with world := { d.world with gate := d.world.gate.ask who } }
  | read (d : Deployment ι) {who : ι} {stage : Stage} {timeoutMs : Nat} {wait : LogWait}
      (waits : d.world.calls.get? who = some stage)
      (needs : stage.need d.world.monitor.config = .refresh timeoutMs)
      (unasked : d.waits.get? who = none)
      (asked : d.store.ask d.world.now timeoutMs = .ok wait) :
      Step promise d (.ask who) { d with waits := d.waits.insert who wait }
  | resume (d : Deployment ι) {who : ι} {stage : Stage} {answer : Answer}
      (waits : d.world.calls.get? who = some stage)
      (meets : answer.meets (stage.need d.world.monitor.config) = true)
      (ready : d.world.isReady who (stage.need d.world.monitor.config) = true)
      (agreed : d.agrees who (stage.need d.world.monitor.config) answer = true)
      (promised : promise stage answer) :
      Step promise d (.resume who answer)
        (d.play who (d.world.monitor.resume d.world.now stage answer))
  | drop (d : Deployment ι) {who : ι} {stage : Stage}
      (waits : d.world.calls.get? who = some stage) (started : stage ≠ .startupSync) :
      Step promise d (.drop who)
        { d with
          world := { d.world with
            gate := d.world.gate.leave who, calls := d.world.calls.erase who }
          waits := d.waits.erase who }

inductive Run (promise : Stage → Answer → Prop) :
    Deployment ι → List (Move ι) → Deployment ι → Prop where
  | nil (d : Deployment ι) : Run promise d [] d
  | cons {a b c : Deployment ι} {m : Move ι} {ms : List (Move ι)} (first : Step promise a m b)
      (rest : Run promise b ms c) : Run promise a (m :: ms) c

inductive Throughout (promise : Stage → Answer → Prop) (P : Deployment ι → Prop) :
    Deployment ι → List (Move ι) → Deployment ι → Prop where
  | nil {d : Deployment ι} (here : P d) : Throughout promise P d [] d
  | cons {a b c : Deployment ι} {m : Move ι} {ms : List (Move ι)} (here : P a)
      (first : Step promise a m b) (rest : Throughout promise P b ms c) :
      Throughout promise P a (m :: ms) c

/-! ## 2. Runs -/

section Runs

variable {promise : Stage → Answer → Prop} {a b : Deployment ι} {ms : List (Move ι)}

/-- **What every step keeps, every run keeps.** -/
theorem Run.keeps {P : Deployment ι → Prop}
    (keeps : ∀ {a b : Deployment ι} {m : Move ι}, Step promise a m b → P a → P b)
    (h : Run promise a ms b) (ha : P a) : P b := by
  induction h with
  | nil => exact ha
  | cons first _ ih => exact ih (keeps first ha)

theorem Throughout.here {P : Deployment ι → Prop} (h : Throughout promise P a ms b) : P a := by
  cases h with
  | nil here => exact here
  | cons here => exact here

/-- **What holds behind a run** held throughout it, or a last step made it hold. -/
theorem Run.throughout_or_last {P : Deployment ι → Prop} (h : Run promise a ms b) (hb : P b) :
    Throughout promise P a ms b ∨
      ∃ p q before m after, ms = before ++ m :: after ∧ Run promise a before p ∧ ¬ P p ∧
        Step promise p m q ∧ Throughout promise P q after b := by
  induction h with
  | nil => exact .inl (.nil hb)
  | @cons a c b m ms first rest ih =>
    rcases ih hb with hrest | ⟨p, q, before, m', after, rfl, hbefore, hp, hstep, hafter⟩
    · by_cases ha : P a
      · exact .inl (.cons ha first hrest)
      · -- from the first step on it holds, so this is the last that made it hold
        exact .inr ⟨a, c, [], m, ms, rfl, .nil a, ha, first, hrest⟩
    · exact .inr ⟨p, q, m :: before, m', after, rfl, .cons first hbefore, hp, hstep, hafter⟩

/-- **Seen without its store** a step of a deployment is a step of an interplay, or none. -/
theorem Step.world {m : Move ι} (h : Step promise a m b) :
    b.world = a.world ∨ ∃ m', Interplay.Step promise a.world m' b.world := by
  cases h with
  | pass later => exact .inr ⟨_, .pass a.world later⟩
  | write => exact .inl rfl
  | @replicate eager store applied turned =>
    cases applied with
    | none => exact .inl rfl
    | some e => exact .inr ⟨_, .hear a.world e⟩
  | shutdown => exact .inl rfl
  | @begin who call idle => exact .inr ⟨_, .begin a.world call idle⟩
  | enqueue waits needs => exact .inr ⟨_, .ask a.world waits needs⟩
  | read => exact .inl rfl
  | resume waits meets ready _ promised =>
    exact .inr ⟨_, .resume a.world waits meets ready promised⟩
  | drop waits => exact .inr ⟨_, .drop a.world waits⟩

/-- **What every step of an interplay keeps,** every step of a deployment keeps. -/
theorem Step.keeps_world {P : Interplay ι → Prop}
    (keeps : ∀ {v w : Interplay ι} {m : Interplay.Move ι}, Interplay.Step promise v m w → P v → P w)
    {m : Move ι} (h : Step promise a m b) (ha : P a.world) : P b.world := by
  rcases h.world with hsame | ⟨m', hstep⟩
  · rw [hsame]
    exact ha
  · exact keeps hstep ha

theorem Step.guarded {m : Move ι} (h : Step promise a m b) (ha : a.world.Guarded) :
    b.world.Guarded :=
  h.keeps_world Interplay.Step.guarded ha

theorem Step.reachable {m : Move ι} (h : Step promise a m b) (ha : a.store.Reachable) :
    b.store.Reachable := by
  cases h with
  | pass => exact ha
  | write e => exact .append e ha
  | @replicate eager store applied turned =>
    cases applied <;> exact .turn turned ha
  | shutdown => exact .shutdown ha
  | begin => exact ha.appendAll _
  | enqueue => exact ha
  | read => exact ha
  | resume => exact ha.appendAll _
  | drop => exact ha

/-- What a turn writes is not applied yet. -/
theorem snapshot_play (d : Deployment ι) (who : ι) (t : Turn) :
    (d.play who t).store.snapshot = d.store.snapshot := by
  show Snapshot.mk (d.store.appendAll t.writes).applied (d.store.appendAll t.writes).states = _
  rw [Store.applied_appendAll, Store.states_appendAll]
  rfl

/-- A turn of a call changes no record. -/
theorem Step.states_resume {who : ι} {answer : Answer}
    (h : Step promise a (.resume who answer) b) : b.store.states = a.store.states := by
  cases h with
  | resume => exact a.store.states_appendAll _

/-- A store that is not shut down was not shut down before. -/
theorem Step.open_of_open {m : Move ι} (h : Step promise a m b) (hb : b.store.closing = false) :
    a.store.closing = false := by
  cases h with
  | pass => exact hb
  | write e =>
    have happend : (a.store.append e).1.closing = a.store.closing := a.store.closing_appendAll [e]
    rw [← happend]
    exact hb
  | @replicate eager store applied turned =>
    rw [← Store.closing_turn turned]
    cases applied <;> exact hb
  | shutdown => cases hb
  -- writing to the log neither shuts it down nor opens it
  | begin =>
    have hsame := a.store.closing_appendAll
    rw [← hsame]
    exact hb
  | enqueue => exact hb
  | read => exact hb
  | resume =>
    have hsame := a.store.closing_appendAll
    rw [← hsame]
    exact hb
  | drop => exact hb

theorem Run.open_of_open (h : Run promise a ms b) (hb : b.store.closing = false) :
    a.store.closing = false := by
  induction h with
  | nil => exact hb
  | cons first _ ih => exact first.open_of_open (ih hb)

end Runs

/-- **A refresh ends well** only if there is a wait for the log, whose target the store has
    applied; its answer is the snapshot of the store. -/
theorem reached_of_agrees {d : Deployment ι} {who : ι} {timeoutMs : Nat} {s : Snapshot}
    (h : d.agrees who (.refresh timeoutMs) (.refreshed (.ok s)) = true) :
    s = d.store.snapshot ∧ ∃ w, d.waits.get? who = some w ∧ w.target ≤ d.store.applied := by
  have hresult : d.logAnswer? who timeoutMs = some (.ok s) := eq_of_beq h
  unfold logAnswer? at hresult
  split at hresult
  next w hwait =>
    obtain ⟨hreached, hs⟩ := Store.answer?_ok hresult
    exact ⟨hs, w, hwait, hreached⟩
  next => split at hresult <;> cases hresult

theorem eq_snapshot_of_agrees {d : Deployment ι} {who : ι} {timeoutMs : Nat} {s : Snapshot}
    (h : d.agrees who (.refresh timeoutMs) (.refreshed (.ok s)) = true) :
    s = d.store.snapshot := (reached_of_agrees h).1

/-! ## 3. Launches -/

section Launches

variable {who : ι} {now : Nat} {config : Config} {keyOf : KeyRule} {listing : String}
  {store : Store} {d : Deployment ι}

/-- **A launch** leaves a store as it is if it is started, and starts it if it is not. -/
theorem launch_cases (h : launch who now config keyOf listing store = .ok d) :
    ∃ opened, d = launched who now config keyOf listing opened ∧
      (store.isStarted = true ∧ opened = store ∨
        store.isStarted = false ∧ store.start = .ok opened) := by
  unfold launch at h
  cases hvalid : config.validate with
  | error fault => rw [hvalid] at h; cases h
  | ok _ =>
    cases hstarted : store.isStarted with
    | true =>
      rw [hvalid, hstarted] at h
      cases h
      exact ⟨store, rfl, .inl ⟨rfl, rfl⟩⟩
    | false =>
      cases hstart : store.start with
      | error cause => rw [hvalid, hstarted, hstart] at h; cases h
      | ok opened =>
        rw [hvalid, hstarted, hstart] at h
        cases h
        exact ⟨opened, rfl, .inr ⟨rfl, rfl⟩⟩

theorem launch_of_isStarted (hvalid : config.validate = .ok ())
    (hstarted : store.isStarted = true) :
    launch who now config keyOf listing store =
      .ok (launched who now config keyOf listing store) := by
  unfold launch
  rw [hvalid, hstarted]
  rfl

theorem reachable_launch (hstore : store.Reachable)
    (h : launch who now config keyOf listing store = .ok d) : d.store.Reachable := by
  obtain ⟨opened, rfl, ⟨-, rfl⟩ | ⟨-, hstart⟩⟩ := launch_cases h
  · exact hstore
  · exact .start hstart hstore

/-- **Seen without its store** a launch is the first turn of a startup. -/
theorem step_launch (h : launch who now config keyOf listing store = .ok d) :
    Interplay.Step (fun _ _ => True) (Interplay.start now config keyOf listing)
      (.begin who .startup) d.world := by
  obtain ⟨opened, rfl, -⟩ := launch_cases h
  exact .begin _ .startup (Catalog.get?_empty who)

theorem guarded_launch (h : launch who now config keyOf listing store = .ok d) :
    d.world.Guarded :=
  (step_launch h).guarded (.start now config keyOf listing)

end Launches

/-! ## 4. Making moves -/

instance (d : Deployment ι) : Decidable d.IsOpen :=
  decidable_of_iff (∀ e ∈ d.world.calls.entries, e.2 ≠ .startupSync) (by
    constructor
    · intro h who hwho
      exact h (who, .startupSync) ((Catalog.mem_entries_iff _).2 hwho) rfl
    · rintro h ⟨who, stage⟩ he rfl
      exact h who ((Catalog.mem_entries_iff _).1 he))

def move? (check : Stage → Answer → Bool) (d : Deployment ι) : Move ι → Option (Deployment ι)
  | .pass time =>
    if d.world.now ≤ time then some { d with world := { d.world with now := time } } else none
  | .write e => some { d with store := (d.store.append e).1 }
  | .replicate eager =>
    match d.store.turn? eager d.world.now with
    | some (store, applied) => some (d.replicated store applied)
    | none => none
  | .shutdown => some { d with store := d.store.shutdown }
  | .begin who call =>
    if d.world.calls.get? who = none ∧ d.IsOpen ∧ call ≠ .startup then
      some (d.play who (d.world.monitor.begin d.world.now call))
    else none
  | .ask who =>
    match d.world.calls.get? who with
    | some stage =>
      match stage.need d.world.monitor.config with
      | .gate => some { d with world := { d.world with gate := d.world.gate.ask who } }
      | .refresh timeoutMs =>
        match d.waits.get? who, d.store.ask d.world.now timeoutMs with
        | none, .ok wait => some { d with waits := d.waits.insert who wait }
        | _, _ => none
      | _ => none
    | none => none
  | .resume who answer =>
    match d.world.calls.get? who with
    | some stage =>
      let need := stage.need d.world.monitor.config
      if answer.meets need && d.world.isReady who need && d.agrees who need answer &&
          check stage answer then
        some (d.play who (d.world.monitor.resume d.world.now stage answer))
      else none
    | none => none
  | .drop who =>
    match d.world.calls.get? who with
    | some stage =>
      if stage = .startupSync then none
      else some { d with
        world := { d.world with
          gate := d.world.gate.leave who, calls := d.world.calls.erase who }
        waits := d.waits.erase who }
    | none => none

def moves? (check : Stage → Answer → Bool) (d : Deployment ι) :
    List (Move ι) → Option (Deployment ι)
  | [] => some d
  | m :: ms =>
    match d.move? check m with
    | some d' => d'.moves? check ms
    | none => none

theorem Step.of_move? {check : Stage → Answer → Bool} {a b : Deployment ι} {m : Move ι}
    (h : a.move? check m = some b) :
    Step (fun stage answer => check stage answer = true) a m b := by
  -- what `move?` checks of a move are the premises of its step
  cases m with
  | pass time =>
    simp only [move?] at h
    split at h
    next later =>
      cases h
      exact .pass a later
    next => cases h
  | write e =>
    cases h
    exact .write a e
  | replicate eager =>
    simp only [move?] at h
    split at h
    next store applied turned =>
      cases h
      exact .replicate a turned
    next => cases h
  | shutdown =>
    cases h
    exact .shutdown a
  | begin who call =>
    simp only [move?] at h
    split at h
    next hbegin =>
      cases h
      exact .begin a hbegin.1 hbegin.2.1 hbegin.2.2
    next => cases h
  | ask who =>
    simp only [move?] at h
    split at h
    next stage waits =>
      split at h
      next needs =>
        cases h
        exact .enqueue a waits needs
      next timeoutMs needs =>
        split at h
        next wait unasked asked =>
          cases h
          exact .read a waits needs unasked asked
        next => cases h
      next => cases h
    next => cases h
  | resume who answer =>
    simp only [move?] at h
    split at h
    next stage waits =>
      split at h
      next hresume =>
        cases h
        simp only [Bool.and_eq_true] at hresume
        exact .resume a waits hresume.1.1.1 hresume.1.1.2 hresume.1.2 hresume.2
      next => cases h
    next => cases h
  | drop who =>
    simp only [move?] at h
    split at h
    next stage waits =>
      split at h
      next => cases h
      next started =>
        cases h
        exact .drop a waits started
    next => cases h

theorem Run.of_moves? {check : Stage → Answer → Bool} {a b : Deployment ι} {ms : List (Move ι)}
    (h : a.moves? check ms = some b) :
    Run (fun stage answer => check stage answer = true) a ms b := by
  induction ms generalizing a with
  | nil =>
    cases h
    exact .nil _
  | cons m ms ih =>
    simp only [moves?] at h
    split at h
    next d' hd' => exact .cons (.of_move? hd') (ih h)
    next => cases h

/-- Moves that are made with something holding each time. -/
theorem Throughout.of_moves? {check : Stage → Answer → Bool} {P : Deployment ι → Prop}
    [DecidablePred P] {a b : Deployment ι} {ms : List (Move ι)} (h : a.moves? check ms = some b)
    (hP : ∀ k ≤ ms.length, (a.moves? check (ms.take k)).all fun d => decide (P d)) :
    Throughout (fun stage answer => check stage answer = true) P a ms b := by
  have ha : P a := of_decide_eq_true (hP 0 (Nat.zero_le _))
  induction ms generalizing a with
  | nil =>
    cases h
    exact .nil ha
  | cons m ms ih =>
    simp only [moves?] at h
    split at h
    next d' hd' =>
      have hrest : ∀ k ≤ ms.length, (d'.moves? check (ms.take k)).all fun d => decide (P d) := by
        intro k hk
        have hnext := hP (k + 1) (Nat.succ_le_succ hk)
        rw [List.take_succ_cons] at hnext
        simpa only [moves?, hd'] using hnext
      exact .cons ha (.of_move? hd') (ih h hrest (of_decide_eq_true (hrest 0 (Nat.zero_le _))))
    next => cases h

/-- **On a store** the moves of a monitor take more: a call that refreshes has asked for the end of
    the log, and news have been written and are applied. -/
def onStore (ms : List (Interplay.Move ι)) : List (Move ι) :=
  ms.flatMap fun
    | .pass time => [.pass time]
    | .hear e => [.write e, .replicate false]
    | .begin who call => [.begin who call]
    | .ask who => [.ask who]
    | .resume who (.refreshed result) => [.ask who, .resume who (.refreshed result)]
    | .resume who answer => [.resume who answer]
    | .drop who => [.drop who]

def openingMoves : List (Interplay.Move Nat) :=
  [.resume 0 (.refreshed (.ok .empty)), .begin 1 (.pull 1 1)]

end Deployment

end Intake
