import Intake.Monitor.Gate
import Intake.Proofs.Turns

/-!
# Interplay — the calls of a monitor in any order

A monitor, its gate, and the calls that are under way.  A step is one move: time passes, the
monitor hears of an entry, a call begins, queues at the gate, goes on through one turn, or is
dropped while it waits.  Nothing is said about which move comes next, and the answers of listing,
store and cleanup are any that a promise `Stage → Answer → Prop` admits.

Only the gate orders the calls: who waits at a stage that holds the gate holds it
(`Run.guarded`), so no two calls are at such stages at once (`Guarded.eq`).
-/

namespace Intake

/-- **Interplay.**  The stage at which each call waits is kept under the caller. -/
structure Interplay (ι : Type) where
  now : Nat := 0
  monitor : Monitor
  gate : Gate ι := {}
  calls : Catalog ι Stage := .empty

inductive Interplay.Move (ι : Type) where
  | pass (time : Nat)
  | hear (entry : LogEntry)
  | begin (who : ι) (call : Call)
  | ask (who : ι)
  | resume (who : ι) (answer : Answer)
  | drop (who : ι)

namespace Interplay

variable {ι : Type} [DecidableEq ι]

/-! ## 1. Moves -/

def start (now : Nat) (config : Config) (keyOf : KeyRule) (listing : String) : Interplay ι :=
  { now, monitor := .new config keyOf listing }

def hear (w : Interplay ι) (e : LogEntry) : Interplay ι :=
  { w with monitor := (w.monitor.observe e).1 }

def play (w : Interplay ι) (who : ι) (t : Turn) : Interplay ι where
  now := w.now
  monitor := t.monitor
  gate := if w.gate.isHeldBy who && !t.next.holdsGate then w.gate.leave who else w.gate
  calls := match t.next with
    | .waiting stage => w.calls.insert who stage
    | .finished _ => w.calls.erase who

def turn? (w : Interplay ι) : Move ι → Option Turn
  | .begin _ call => some (w.monitor.begin w.now call)
  | .resume who answer => (w.calls.get? who).map fun s => w.monitor.resume w.now s answer
  | _ => none

/-- Whether the monitor's side of a need is there: the gate is held, or there are files, or they
    were waited for long enough. -/
def isReady (w : Interplay ι) (who : ι) : Need → Bool
  | .gate => w.gate.isHeldBy who
  | .files deadline => !w.monitor.scanned.isEmpty || deadline ≤ w.now
  | _ => true

inductive Step (promise : Stage → Answer → Prop) :
    Interplay ι → Move ι → Interplay ι → Prop where
  | pass (w : Interplay ι) {time : Nat} (later : w.now ≤ time) :
      Step promise w (.pass time) { w with now := time }
  | hear (w : Interplay ι) (e : LogEntry) : Step promise w (.hear e) (w.hear e)
  | begin (w : Interplay ι) {who : ι} (call : Call) (idle : w.calls.get? who = none) :
      Step promise w (.begin who call) (w.play who (w.monitor.begin w.now call))
  | ask (w : Interplay ι) {who : ι} {stage : Stage} (waits : w.calls.get? who = some stage)
      (needs : stage.need w.monitor.config = .gate) :
      Step promise w (.ask who) { w with gate := w.gate.ask who }
  | resume (w : Interplay ι) {who : ι} {stage : Stage} {answer : Answer}
      (waits : w.calls.get? who = some stage)
      (meets : answer.meets (stage.need w.monitor.config) = true)
      (ready : w.isReady who (stage.need w.monitor.config) = true)
      (promised : promise stage answer) :
      Step promise w (.resume who answer) (w.play who (w.monitor.resume w.now stage answer))
  | drop (w : Interplay ι) {who : ι} {stage : Stage} (waits : w.calls.get? who = some stage) :
      Step promise w (.drop who)
        { w with gate := w.gate.leave who, calls := w.calls.erase who }

inductive Run (promise : Stage → Answer → Prop) :
    Interplay ι → List (Move ι) → Interplay ι → Prop where
  | nil (w : Interplay ι) : Run promise w [] w
  | cons {a b c : Interplay ι} {m : Move ι} {ms : List (Move ι)} (first : Step promise a m b)
      (rest : Run promise b ms c) : Run promise a (m :: ms) c

inductive Throughout (promise : Stage → Answer → Prop) (P : Interplay ι → Move ι → Prop) :
    Interplay ι → List (Move ι) → Interplay ι → Prop where
  | nil (w : Interplay ι) : Throughout promise P w [] w
  | cons {a b c : Interplay ι} {m : Move ι} {ms : List (Move ι)} (here : P a m)
      (first : Step promise a m b) (rest : Throughout promise P b ms c) :
      Throughout promise P a (m :: ms) c

/-! ## 2. Runs -/

section Runs

variable {promise : Stage → Answer → Prop} {a b c : Interplay ι} {ms ns : List (Move ι)}

theorem Run.append (h : Run promise a ms b) (h' : Run promise b ns c) :
    Run promise a (ms ++ ns) c := by
  induction h with
  | nil => exact h'
  | cons first _ ih => exact .cons first (ih h')

/-- **What every step keeps, every run keeps.** -/
theorem Run.keeps {P : Interplay ι → Prop}
    (keeps : ∀ {a b : Interplay ι} {m : Move ι}, Step promise a m b → P a → P b)
    (h : Run promise a ms b) (ha : P a) : P b := by
  induction h with
  | nil => exact ha
  | cons first _ ih => exact ih (keeps first ha)

/-- **What holds behind a run** held ever since its beginning, or since a move that brought it
    about. -/
theorem Run.since {P : Interplay ι → Prop} {brings leaves : Interplay ι → Move ι → Prop}
    (hstep : ∀ {p q : Interplay ι} {m : Move ι}, Step promise p m q → P q →
      brings p m ∨ P p ∧ leaves p m)
    (h : Run promise a ms b) (hb : P b) :
    P a ∧ Throughout promise leaves a ms b ∨
      ∃ p q before m after, ms = before ++ m :: after ∧ Run promise a before p ∧ brings p m ∧
        Step promise p m q ∧ P q ∧ Throughout promise leaves q after b := by
  induction h with
  | nil w => exact .inl ⟨hb, .nil w⟩
  | @cons a c b m ms first rest ih =>
    rcases ih hb with ⟨hc, hrest⟩ | ⟨p, q, before, m', after, rfl, hbefore, hlast⟩
    · rcases hstep first hc with hbrings | ⟨ha, hleaves⟩
      · exact .inr ⟨a, c, [], m, ms, rfl, .nil a, hbrings, first, hc, hrest⟩
      · exact .inl ⟨ha, .cons hleaves first hrest⟩
    · exact .inr ⟨p, q, m :: before, m', after, rfl, .cons first hbefore, hlast⟩

end Runs

/-- **No step changes the settings.** -/
theorem Step.settings {promise : Stage → Answer → Prop} {a b : Interplay ι} {m : Move ι}
    (h : Step promise a m b) : b.monitor.settings = a.monitor.settings := by
  cases h with
  | pass => rfl
  | hear e => exact a.monitor.settings_observe e
  | begin call => exact (Monitor.Unmoved.begin a.monitor a.now call).settings
  | ask => rfl
  | @resume who stage answer => exact a.monitor.settings_resume a.now stage answer
  | drop => rfl

theorem Run.settings {promise : Stage → Answer → Prop} {a b : Interplay ι} {ms : List (Move ι)}
    (h : Run promise a ms b) : b.monitor.settings = a.monitor.settings := by
  induction h with
  | nil => rfl
  | cons first _ ih => exact ih.trans first.settings

/-! ## 3. The gate -/

def Guarded (w : Interplay ι) : Prop :=
  ∀ who stage, w.calls.get? who = some stage → stage.holdsGate = true →
    w.gate.holder = some who

/-- No two calls are behind the gate. -/
theorem Guarded.eq {w : Interplay ι} (h : w.Guarded) {i j : ι} {s t : Stage}
    (hi : w.calls.get? i = some s) (hs : s.holdsGate = true)
    (hj : w.calls.get? j = some t) (ht : t.holdsGate = true) : i = j :=
  Option.some.inj ((h i s hi hs).symm.trans (h j t hj ht))

/-- While somebody holds the gate, nobody else is behind it, or is let in. -/
theorem Guarded.outside {w : Interplay ι} (h : w.Guarded) {who other : ι} {stage : Stage}
    {answer : Answer} (hholder : w.gate.holder = some who) (hne : who ≠ other)
    (hwaits : w.calls.get? other = some stage)
    (hmeets : answer.meets (stage.need w.monitor.config) = true)
    (hready : w.isReady other (stage.need w.monitor.config) = true) :
    stage.holdsGate = false ∧ answer ≠ .entered := by
  have hother : ¬w.gate.holder = some other := by
    rw [hholder]
    exact fun heq => hne (Option.some.inj heq)
  constructor
  · rw [Bool.eq_false_iff]
    intro hholds
    exact hother (h other stage hwaits hholds)
  · rintro rfl
    -- to be let in is to hold the gate
    cases hneed : stage.need w.monitor.config <;> rw [hneed] at hmeets hready
    case gate => exact hother (by simpa [isReady, Gate.isHeldBy] using hready)
    all_goals cases hmeets

/-- The stage of the caller is that to which the turn leads. -/
theorem get?_calls_play_self (w : Interplay ι) (who : ι) (t : Turn) :
    (w.play who t).calls.get? who =
      match t.next with
      | .waiting stage => some stage
      | .finished _ => none := by
  cases h : t.next <;> simp [play, h, Catalog.get?_insert, Catalog.get?_erase]

theorem get?_calls_play_of_ne (w : Interplay ι) {who other : ι} (t : Turn) (hne : other ≠ who) :
    (w.play who t).calls.get? other = w.calls.get? other := by
  cases h : t.next <;> simp [play, h, Catalog.get?_insert, Catalog.get?_erase, hne]

/-- Who waits behind a turn waited before it, or played it. -/
theorem waiting_of_play {w : Interplay ι} {who other : ι} {t : Turn} {stage : Stage}
    (h : (w.play who t).calls.get? other = some stage) :
    other = who ∧ t.next = .waiting stage ∨ other ≠ who ∧ w.calls.get? other = some stage := by
  by_cases hne : other = who
  · subst hne
    rw [get?_calls_play_self] at h
    cases hnext : t.next with
    | waiting s =>
      rw [hnext] at h
      cases h
      exact .inl ⟨rfl, rfl⟩
    | finished r => rw [hnext] at h; cases h
  · rw [get?_calls_play_of_ne w t hne] at h
    exact .inr ⟨hne, h⟩

/-- A turn takes the gate from nobody but its caller. -/
theorem holder_play_of_ne (w : Interplay ι) {who other : ι} (t : Turn) (hne : other ≠ who)
    (h : w.gate.holder = some other) : (w.play who t).gate.holder = some other := by
  have hheld : w.gate.isHeldBy who = false := by
    simp [Gate.isHeldBy, h, hne]
  simp [play, hheld, h]

/-- A turn that leads behind the gate changes the gate for nobody. -/
theorem gate_play_of_holdsGate (w : Interplay ι) (who : ι) {t : Turn}
    (h : t.next.holdsGate = true) : (w.play who t).gate = w.gate := by
  simp [play, h]

theorem Guarded.start (now : Nat) (config : Config) (keyOf : KeyRule) (listing : String) :
    (start now config keyOf listing : Interplay ι).Guarded := by
  intro who stage h
  simp [Interplay.start] at h

/-- A turn keeps the gate guarded if it leads behind the gate only for its holder. -/
theorem Guarded.play {w : Interplay ι} (hw : w.Guarded) (who : ι) {t : Turn}
    (ht : t.next.holdsGate = true → w.gate.holder = some who) : (w.play who t).Guarded := by
  intro other stage hstage hholds
  rcases waiting_of_play hstage with ⟨rfl, hn⟩ | ⟨hne, hbefore⟩
  · -- the caller stays behind the gate, so the turn does not let it go
    have hnext : t.next.holdsGate = true := by
      rw [hn]
      exact hholds
    rw [gate_play_of_holdsGate w other hnext]
    exact ht hnext
  · exact holder_play_of_ne w t hne (hw other stage hbefore hholds)

/-- **Every step keeps the gate guarded.** -/
theorem Step.guarded {promise : Stage → Answer → Prop} {a b : Interplay ι} {m : Move ι}
    (h : Step promise a m b) (ha : a.Guarded) : b.Guarded := by
  cases h with
  | pass => exact ha
  | hear => exact ha
  | @begin who call idle =>
    apply ha.play
    intro hnext
    rw [Monitor.holdsGate_begin] at hnext
    cases hnext
  | @ask who stage waits needs =>
    -- who asks does not move a holder
    intro other stage' hstage hholds
    show (a.gate.ask who).holder = some other
    rw [Gate.holder_ask, ha other stage' hstage hholds]
    rfl
  | @resume who stage answer waits meets ready promised =>
    apply ha.play
    intro hnext
    -- the caller was behind the gate before, or was let in just now, when it was ready
    by_cases hs : stage.holdsGate = true
    · exact ha who stage waits hs
    · obtain ⟨rfl, -⟩ := Monitor.holdsGate_resume _ _ (Bool.eq_false_iff.2 hs) hnext
      cases hneed : stage.need a.monitor.config <;> rw [hneed] at meets ready
      case gate => simpa [isReady, Gate.isHeldBy] using ready
      all_goals cases meets
  | @drop who stage waits =>
    intro other stage' hstage hholds
    have hne : other ≠ who := by
      rintro rfl
      simp [Catalog.get?_erase] at hstage
    have hold : a.gate.holder = some other := by
      apply ha other stage' _ hholds
      simpa [Catalog.get?_erase, hne] using hstage
    show (a.gate.leave who).holder = some other
    rw [Gate.holder_leave_of_ne (by simp [hold, hne]), hold]

/-- **Every run keeps the gate guarded.** -/
theorem Run.guarded {promise : Stage → Answer → Prop} {a b : Interplay ι} {ms : List (Move ι)}
    (h : Run promise a ms b) (ha : a.Guarded) : b.Guarded :=
  h.keeps Step.guarded ha

/-! ## 4. Making moves -/

def move? (check : Stage → Answer → Bool) (w : Interplay ι) : Move ι → Option (Interplay ι)
  | .pass time => if w.now ≤ time then some { w with now := time } else none
  | .hear e => some (w.hear e)
  | .begin who call =>
    match w.calls.get? who with
    | none => some (w.play who (w.monitor.begin w.now call))
    | some _ => none
  | .ask who =>
    match w.calls.get? who with
    | some stage =>
      match stage.need w.monitor.config with
      | .gate => some { w with gate := w.gate.ask who }
      | _ => none
    | none => none
  | .resume who answer =>
    match w.calls.get? who with
    | some stage =>
      let need := stage.need w.monitor.config
      if answer.meets need && w.isReady who need && check stage answer then
        some (w.play who (w.monitor.resume w.now stage answer))
      else none
    | none => none
  | .drop who =>
    match w.calls.get? who with
    | some _ => some { w with gate := w.gate.leave who, calls := w.calls.erase who }
    | none => none

def moves? (check : Stage → Answer → Bool) (w : Interplay ι) : List (Move ι) → Option (Interplay ι)
  | [] => some w
  | m :: ms =>
    match w.move? check m with
    | some w' => w'.moves? check ms
    | none => none

theorem Step.of_move? {check : Stage → Answer → Bool} {a b : Interplay ι} {m : Move ι}
    (h : a.move? check m = some b) :
    Step (fun stage answer => check stage answer = true) a m b := by
  -- what `move?` checks of a move are the premises of its step
  cases m with
  | pass time =>
    simp only [move?] at h
    split at h
    next later =>
      cases h
      exact .pass a later
    next => cases h
  | hear e =>
    cases h
    exact .hear a e
  | begin who call =>
    simp only [move?] at h
    split at h
    next idle =>
      cases h
      exact .begin a call idle
    next => cases h
  | ask who =>
    simp only [move?] at h
    split at h
    next stage waits =>
      split at h
      next needs =>
        cases h
        exact .ask a waits needs
      next => cases h
    next => cases h
  | resume who answer =>
    simp only [move?] at h
    split at h
    next stage waits =>
      split at h
      next hready =>
        cases h
        simp only [Bool.and_eq_true] at hready
        exact .resume a waits hready.1.1 hready.1.2 hready.2
      next => cases h
    next => cases h
  | drop who =>
    simp only [move?] at h
    split at h
    next stage waits =>
      cases h
      exact .drop a waits
    next => cases h

theorem Run.of_moves? {check : Stage → Answer → Bool} {a b : Interplay ι} {ms : List (Move ι)}
    (h : a.moves? check ms = some b) :
    Run (fun stage answer => check stage answer = true) a ms b := by
  induction ms generalizing a with
  | nil =>
    cases h
    exact .nil _
  | cons m ms ih =>
    simp only [moves?] at h
    split at h
    next w' hw' => exact .cons (.of_move? hw') (ih h)
    next => cases h

/-! ## 5. The moves of whole calls -/

def sample (path : String) : Metadata :=
  ⟨⟨"file", none, path, none, none⟩, path, 1, default, none⟩

def byPath : KeyRule := fun file => .ok ⟨file.name⟩

def tickMoves (who : ι) (s : Snapshot) : List (Move ι) :=
  [.begin who .tick, .ask who, .resume who .entered, .resume who (.refreshed (.ok s))]

def scanMoves (who : ι) (files : List Metadata) (s : Snapshot) : List (Move ι) :=
  tickMoves who s ++ [.resume who (.listed (.ok files) s)]

def askMoves (who : ι) (maxGroups maxFiles : Nat) : List (Move ι) :=
  [.begin who (.pull maxGroups maxFiles), .resume who .woken, .ask who]

def pullMoves (who : ι) (maxGroups maxFiles : Nat) : List (Move ι) :=
  askMoves who maxGroups maxFiles ++ [.resume who .entered]

def foundMoves (files : List Metadata) : List (Move Nat) :=
  .begin 0 (.pull 1 1) :: scanMoves 1 files .empty

end Interplay

end Intake
