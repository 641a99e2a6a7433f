import Intake.Proofs.Interplay

/-!
# Exclusive — hand-outs without reconfiguration

If a monitor may not reconfigure, it scans only when nothing is handed out.  Then what is scanned
and what is handed out are never both there (`OneBatch.apart`), although a scan tests this long
before it publishes: between the test and the publication it holds the gate, and only a holder of
the gate hands something out (`OneBatch.idle`).  So a key is handed out again only after news that
it was cleaned.
-/

namespace Intake

namespace Interplay

variable {ι : Type} [DecidableEq ι] {promise : Stage → Answer → Prop}

/-! ## 1. One batch at a time -/

/-- **One batch at a time.**  New files are found only when none are handed out, and while a call
    is behind the gate none are. -/
structure OneBatch (w : Interplay ι) : Prop where
  fixed : w.monitor.config.reconfigurationAfterTimeoutMs = none
  guarded : w.Guarded
  apart : w.monitor.scheduled.isEmpty = true ∨ w.monitor.scanned.isEmpty = true
  idle : ∀ who stage, w.calls.get? who = some stage → stage.holdsGate = true →
    w.monitor.scheduled.isEmpty = true

theorem OneBatch.start (now : Nat) {config : Config} (keyOf : KeyRule) (listing : String)
    (h : config.reconfigurationAfterTimeoutMs = none) :
    (start now config keyOf listing : Interplay ι).OneBatch where
  fixed := h
  guarded := .start now config keyOf listing
  apart := .inl rfl
  idle _ _ h := by simp [Interplay.start] at h

theorem OneBatch.play {w : Interplay ι} (h : w.OneBatch) {who : ι} {t : Turn}
    (hguarded : (w.play who t).Guarded) (ht : t.monitor.settings = w.monitor.settings)
    (hapart : t.monitor.scheduled.isEmpty = true ∨ t.monitor.scanned.isEmpty = true)
    (hself : t.next.holdsGate = true → t.monitor.scheduled.isEmpty = true)
    (hothers : ∀ other stage, other ≠ who → w.calls.get? other = some stage →
      stage.holdsGate = true → t.monitor.scheduled.isEmpty = true) :
    (w.play who t).OneBatch where
  fixed := by
    have hconfig : t.monitor.config = w.monitor.config := congrArg Prod.fst ht
    show t.monitor.config.reconfigurationAfterTimeoutMs = none
    rw [hconfig, h.fixed]
  guarded := hguarded
  apart := hapart
  idle other stage hstage hholds := by
    rcases waiting_of_play hstage with ⟨rfl, hnext⟩ | ⟨hne, hbefore⟩
    · rw [hnext] at hself
      exact hself hholds
    · exact hothers other stage hne hbefore hholds

/-- A turn that leaves the work alone keeps one batch if it leads behind the gate only while
    nothing is handed out. -/
theorem OneBatch.play_of_unmoved {w : Interplay ι} (h : w.OneBatch) {who : ι} {t : Turn}
    (hguarded : (w.play who t).Guarded) (ht : w.monitor.Unmoved t.monitor)
    (hself : t.next.holdsGate = true → w.monitor.scheduled.isEmpty = true) :
    (w.play who t).OneBatch := by
  apply h.play hguarded ht.settings
  · rw [ht.scheduled, ht.scanned]
    exact h.apart
  · rw [ht.scheduled]
    exact hself
  · intro other stage _ hstage hholds
    rw [ht.scheduled]
    exact h.idle other stage hstage hholds

/-- Outside the gate a turn leads behind it as a scan that may scan, or as a pull that finds
    files.  Both are there only while nothing is handed out. -/
theorem OneBatch.resume_outside {w : Interplay ι} (h : w.OneBatch) {who : ι} {stage : Stage}
    {answer : Answer} (hstage : stage.holdsGate = false)
    (hguarded : (w.play who (w.monitor.resume w.now stage answer)).Guarded) :
    (w.play who (w.monitor.resume w.now stage answer)).OneBatch := by
  apply h.play_of_unmoved hguarded (Monitor.Unmoved.resume _ _ _ hstage)
  intro hnext
  obtain ⟨-, ⟨-, hmay⟩ | ⟨_, _, -, hscanned⟩⟩ := Monitor.holdsGate_resume _ _ hstage hnext
  · simpa [Monitor.mayScan, h.fixed] using hmay
  · rcases h.apart with hempty | hempty
    · exact hempty
    · rw [hscanned] at hempty
      cases hempty

/-- Behind the gate a scan may publish, and a pull may hand out what was scanned. -/
theorem OneBatch.resume_behind {w : Interplay ι} (h : w.OneBatch) {who : ι} {stage : Stage}
    {answer : Answer} (hwho : w.calls.get? who = some stage) (hstage : stage.holdsGate = true)
    (hguarded : (w.play who (w.monitor.resume w.now stage answer)).Guarded) :
    (w.play who (w.monitor.resume w.now stage answer)).OneBatch := by
  have hempty := (Catalog.isEmpty_iff _).1 (h.idle who stage hwho hstage)
  have hsettings := Monitor.settings_resume w.monitor w.now stage answer
  -- nobody else is behind the gate
  have halone : ∀ other s, other ≠ who → w.calls.get? other = some s → s.holdsGate = true →
      (w.monitor.resume w.now stage answer).monitor.scheduled.isEmpty = true := by
    intro other s hne hs hholds
    exact absurd (h.guarded.eq hs hholds hwho hstage) hne
  rcases Monitor.scheduled_resume w.monitor w.now stage answer with hsame | ⟨hscanned, hnext⟩
  · -- a scan may have published, while nothing is handed out
    have hstill : (w.monitor.resume w.now stage answer).monitor.scheduled.isEmpty = true := by
      rw [Catalog.isEmpty_iff]
      intro k
      rw [hsame, hempty]
    exact h.play hguarded hsettings (.inl hstill) (fun _ => hstill) halone
  · -- a pull may have handed out, and forgot the scan
    have hnothing : (w.monitor.resume w.now stage answer).monitor.scanned.isEmpty = true := by
      rw [hscanned]
      rfl
    apply h.play hguarded hsettings (.inr hnothing) _ halone
    intro hholds
    rw [hnext] at hholds
    cases hholds

theorem OneBatch.hear {w : Interplay ι} (h : w.OneBatch) (e : LogEntry)
    (hguarded : (w.hear e).Guarded) : (w.hear e).OneBatch := by
  refine ⟨?_, hguarded, ?_, ?_⟩
  · have hconfig := congrArg Prod.fst (w.monitor.settings_observe e)
    show (w.monitor.observe e).1.config.reconfigurationAfterTimeoutMs = none
    rw [show (w.monitor.observe e).1.config = w.monitor.config from hconfig, h.fixed]
  · rcases h.apart with hempty | hempty
    · exact .inl (Monitor.isEmpty_scheduled_observe hempty e)
    · exact .inr (Monitor.isEmpty_scanned_observe hempty e)
  · intro who stage hstage hholds
    exact Monitor.isEmpty_scheduled_observe (h.idle who stage hstage hholds) e

/-- **Every step keeps one batch.** -/
theorem Step.oneBatch {a b : Interplay ι} {m : Move ι} (h : Step promise a m b)
    (ha : a.OneBatch) : b.OneBatch := by
  have hguarded : b.Guarded := h.guarded ha.guarded
  cases h with
  | pass => exact ⟨ha.fixed, hguarded, ha.apart, ha.idle⟩
  | hear e => exact ha.hear e hguarded
  | @begin who call idle =>
    apply ha.play_of_unmoved hguarded (Monitor.Unmoved.begin _ _ _)
    intro hnext
    rw [Monitor.holdsGate_begin] at hnext
    cases hnext
  | ask => exact ⟨ha.fixed, hguarded, ha.apart, ha.idle⟩
  | @resume who stage answer waits meets ready promised =>
    cases hstage : stage.holdsGate with
    | false => exact ha.resume_outside hstage hguarded
    | true => exact ha.resume_behind waits hstage hguarded
  | @drop who stage waits =>
    refine ⟨ha.fixed, hguarded, ha.apart, ?_⟩
    intro other s hs hholds
    exact ha.idle other s (Catalog.get?_of_erase hs) hholds

/-! ## 2. Hand-outs -/

def handedOut (w : Interplay ι) : Move ι → List PartitionKey
  | .resume who answer =>
    match w.calls.get? who with
    | some stage => (w.monitor.resume w.now stage answer).handedOut
    | none => []
  | _ => []

theorem mem_handedOut_iff {w : Interplay ι} {m : Move ι} {k : PartitionKey} :
    k ∈ w.handedOut m ↔ ∃ who answer stage, m = .resume who answer ∧
      w.calls.get? who = some stage ∧ k ∈ (w.monitor.resume w.now stage answer).handedOut := by
  constructor
  · intro hk
    unfold handedOut at hk
    split at hk
    next who answer =>
      split at hk
      next stage hwho => exact ⟨who, answer, stage, rfl, hwho, hk⟩
      next => cases hk
    next => cases hk
  · rintro ⟨who, answer, stage, rfl, hwho, hk⟩
    simpa only [handedOut, hwho] using hk

/-- A hand-out happens behind the gate. -/
theorem holdsGate_of_mem_handedOut {w : Interplay ι} {m : Move ι} {k : PartitionKey}
    (h : k ∈ w.handedOut m) :
    ∃ who stage, w.calls.get? who = some stage ∧ stage.holdsGate = true := by
  obtain ⟨who, answer, stage, -, hwho, hk⟩ := mem_handedOut_iff.1 h
  obtain ⟨groups, file, hnext, -, hmem⟩ := Turn.mem_handedOut_iff.1 hk
  have hne : groups ≠ [] := by
    rintro rfl
    simp at hmem
  obtain ⟨g, f, attempt, rfl⟩ := Monitor.pullSync_of_groups _ _ hne hnext
  exact ⟨who, _, hwho, rfl⟩

theorem Step.scheduled_of_mem_handedOut {a b : Interplay ι} {m : Move ι} {k : PartitionKey}
    (hstep : Step promise a m b) (h : k ∈ a.handedOut m) :
    b.monitor.scheduled.get? k ≠ none := by
  obtain ⟨who, answer, stage, rfl, hwho, hk⟩ := mem_handedOut_iff.1 h
  obtain ⟨groups, file, -, hfile, -⟩ := Turn.mem_handedOut_iff.1 hk
  cases hstep with
  | @resume _ stage' _ waits meets ready promised =>
    cases hwho.symm.trans waits
    show (a.monitor.resume a.now stage answer).monitor.scheduled.get? k ≠ none
    rw [hfile]
    exact Option.some_ne_none file

/-- **A key stays handed out** until there are news that it was cleaned. -/
theorem Step.scheduled_or_cleaned {a b : Interplay ι} {m : Move ι} {k : PartitionKey}
    (h : Step promise a m b) (ha : a.OneBatch) (hk : a.monitor.scheduled.get? k ≠ none) :
    b.monitor.scheduled.get? k ≠ none ∨
      ∃ r : Record, m = .hear ⟨k, some r⟩ ∧ r.status = .cleaned := by
  cases h with
  | pass => exact .inl hk
  | hear e =>
    rcases a.monitor.scheduled_observe e with hsame | ⟨⟨r, hr, hcleaned⟩, herased⟩
    · left
      show (a.monitor.observe e).1.scheduled.get? k ≠ none
      rw [hsame]
      exact hk
    · by_cases hkey : k = e.key
      · right
        refine ⟨r, ?_, hcleaned⟩
        rw [hkey, ← hr]
      · left
        show (a.monitor.observe e).1.scheduled.get? k ≠ none
        rw [herased, Catalog.get?_erase, if_neg hkey]
        exact hk
  | @begin who call idle =>
    left
    show (a.monitor.begin a.now call).monitor.scheduled.get? k ≠ none
    rw [(Monitor.Unmoved.begin _ _ _).scheduled]
    exact hk
  | ask => exact .inl hk
  | @resume who stage answer waits meets ready promised =>
    left
    -- while something is handed out nobody is behind the gate
    have houtside : stage.holdsGate = false := by
      rw [Bool.eq_false_iff]
      intro hholds
      exact hk ((Catalog.isEmpty_iff _).1 (ha.idle who stage waits hholds) k)
    show (a.monitor.resume a.now stage answer).monitor.scheduled.get? k ≠ none
    rw [(Monitor.Unmoved.resume _ _ _ houtside).scheduled]
    exact hk
  | drop => exact .inl hk

theorem Run.scheduled_or_cleaned {a b : Interplay ι} {ms : List (Move ι)} {k : PartitionKey}
    (h : Run promise a ms b) (ha : a.OneBatch) (hk : a.monitor.scheduled.get? k ≠ none) :
    b.monitor.scheduled.get? k ≠ none ∨
      ∃ r : Record, .hear ⟨k, some r⟩ ∈ ms ∧ r.status = .cleaned := by
  induction h with
  | nil => exact .inl hk
  | cons first rest ih =>
    rcases first.scheduled_or_cleaned ha hk with hstill | ⟨r, rfl, hcleaned⟩
    · rcases ih (first.oneBatch ha) hstill with hend | ⟨r, hmem, hcleaned⟩
      · exact .inl hend
      · exact .inr ⟨r, List.mem_cons_of_mem _ hmem, hcleaned⟩
    · exact .inr ⟨r, List.mem_cons_self, hcleaned⟩

/-- **Exclusive hand-out.**  Without reconfiguration nothing waits to be handed out while
    something is handed out, and between two hand-outs of a key there are news that it was
    cleaned. -/
theorem exclusive_handOut (promise : Stage → Answer → Prop) (now : Nat) {config : Config}
    (keyOf : KeyRule) (listing : String) (h : config.reconfigurationAfterTimeoutMs = none) :
    (∀ {w : Interplay ι} {ms : List (Move ι)}, Run promise (start now config keyOf listing) ms w →
      w.monitor.scanned.isEmpty = false → w.monitor.scheduled.isEmpty = true) ∧
    ∀ {a b c : Interplay ι} {ms ns : List (Move ι)} {m m' : Move ι} {k : PartitionKey},
      Run promise (start now config keyOf listing) ms a → k ∈ a.handedOut m →
      Step promise a m b → Run promise b ns c → k ∈ c.handedOut m' →
      ∃ r : Record, .hear ⟨k, some r⟩ ∈ ns ∧ r.status = .cleaned := by
  have hstart : (start now config keyOf listing : Interplay ι).OneBatch := .start now keyOf _ h
  constructor
  · intro w ms hrun hscanned
    have hw : w.OneBatch := hrun.keeps Step.oneBatch hstart
    rcases hw.apart with hempty | hempty
    · exact hempty
    · rw [hscanned] at hempty
      cases hempty
  · intro a b c ms ns m m' k hrun hout hstep hbetween hagain
    have ha : a.OneBatch := hrun.keeps Step.oneBatch hstart
    have hb : b.OneBatch := hstep.oneBatch ha
    have hc : c.OneBatch := hbetween.keeps Step.oneBatch hb
    -- the second hand-out happens behind the gate, where the key cannot be handed out still
    rcases hbetween.scheduled_or_cleaned hb (hstep.scheduled_of_mem_handedOut hout) with
      hstill | hcleaned
    · obtain ⟨who, stage, hwho, hholds⟩ := holdsGate_of_mem_handedOut hagain
      exact absurd ((Catalog.isEmpty_iff _).1 (hc.idle who stage hwho hholds) k) hstill
    · exact hcleaned

/-- A file is found, handed out, cleaned, found again, and handed out again. -/
theorem exclusive_handOut_twice :
    let promise : Stage → Answer → Prop := fun _ _ => true = true
    let file : Metadata := ⟨⟨"file", none, "/a", none, none⟩, "a", 1, default, none⟩
    let first : Interplay Nat := start 0 {} (fun m => .ok ⟨m.name⟩) "files"
    let ms : List (Move Nat) := foundMoves [file] ++ pullMoves 2 1 1
    let ns : List (Move Nat) :=
      .hear ⟨⟨"a"⟩, some (.new file .cleaned)⟩ :: (scanMoves 1 [file] .empty ++ pullMoves 2 1 1)
    let m : Move Nat := .resume 2 (.refreshed (.ok .empty))
    ∃ a b c, Run promise first ms a ∧ ⟨"a"⟩ ∈ a.handedOut m ∧ Step promise a m b ∧
      Run promise b ns c ∧ ⟨"a"⟩ ∈ c.handedOut m ∧
      ∃ r : Record, .hear ⟨⟨"a"⟩, some r⟩ ∈ ns ∧ r.status = .cleaned := by
  intro promise file first ms ns m
  let a := (first.moves? (fun _ _ => true) ms).get (by decide +kernel)
  let b := (a.move? (fun _ _ => true) m).get (by decide +kernel)
  let c := (b.moves? (fun _ _ => true) ns).get (by decide +kernel)
  have hab : Run promise first ms a := .of_moves? (Option.some_get _).symm
  have hm : Step promise a m b := .of_move? (Option.some_get _).symm
  have hbc : Run promise b ns c := .of_moves? (Option.some_get _).symm
  have hout : ⟨"a"⟩ ∈ a.handedOut m := by decide +kernel
  have hagain : ⟨"a"⟩ ∈ c.handedOut m := by decide +kernel
  exact ⟨a, b, c, hab, hout, hm, hbc, hagain,
    (exclusive_handOut promise 0 (fun m => .ok ⟨m.name⟩) "files" rfl).2 hab hout hm hbc hagain⟩

end Interplay

end Intake
