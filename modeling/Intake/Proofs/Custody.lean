import Intake.Proofs.Exclusive

/-!
# Custody — work that was handed out stays handed out

With reconfiguration a key may wait to be handed out while it is handed out, and a pull that tries
again takes back what it staged.  It staged only keys that were not handed out, so it takes back no
others (`Monitor.scheduled_kept`).  What a pull returned is released by news that it was cleaned, or
by a later pull that gives up, and by nothing else.
-/

namespace Intake

namespace Monitor

/-! ## 1. Turns -/

theorem get?_proposed_of_scheduled {m : Monitor} {k : PartitionKey} {file : Metadata} (f : Nat)
    (h : m.scheduled.get? k = some file) : (m.proposed f).get? k = some file := by
  have hnot : k ∉ (m.staged f).map Prod.fst := by
    intro hk
    obtain ⟨e, he, rfl⟩ := List.mem_map.1 hk
    rw [get?_scheduled_of_mem_staged he] at h
    cases h
  rw [proposed, Catalog.get?_insertAll_of_notMem _ hnot, h]

/-- **A turn keeps what is handed out,** unless it is the last attempt of a pull and some file was
    finished meanwhile. -/
theorem scheduled_kept (m : Monitor) (now : Nat) (stage : Stage) (answer : Answer)
    {k : PartitionKey} {file : Metadata} (hk : m.scheduled.get? k = some file) :
    (m.resume now stage answer).monitor.scheduled.get? k = some file ∨
      m.changed = true ∧ ∃ g f attempt result, stage = .pullSync g f attempt ∧
        answer = .refreshed result ∧ maxAttempts ≤ attempt := by
  rcases m.handedOut_resume now stage answer with
    hsame | ⟨g, f, attempt, result, rfl, rfl, -, -, hends⟩
  · rw [hsame]
    exact .inl hk
  · rcases hends with ⟨-, hm⟩ | ⟨hchanged, hlast, -⟩
    · rw [hm]
      exact .inl (get?_proposed_of_scheduled f hk)
    · exact .inr ⟨hchanged, g, f, attempt, result, rfl, rfl, hlast⟩

/-- A call comes to an attempt that is not beyond the last, or it was at this attempt before. -/
theorem attempt_resume (m : Monitor) (now : Nat) {stage : Stage} {answer : Answer}
    {g f attempt : Nat}
    (h : (m.resume now stage answer).next = .waiting (.pullSync g f attempt)) :
    attempt ≤ maxAttempts ∨ stage = .pullSync g f attempt := by
  cases hs : stage.holdsGate with
  | false =>
    have hnext : (m.resume now stage answer).next.holdsGate = true := by
      rw [h]
      rfl
    obtain ⟨rfl, ⟨rfl, hmay⟩ | ⟨g', f', rfl, hfiles⟩⟩ := holdsGate_resume m now hs hnext
    · simp [resume, scanEntered, hmay] at h
    · -- behind the gate the first attempt begins
      simp only [resume, pullEntered, hfiles, beginAttempt, Bool.false_eq_true, if_false,
        Turn.next_wait, Next.waiting.injEq, Stage.pullSync.injEq] at h
      left
      rw [← h.2.2]
      decide
  | true =>
    have hbehind := m.behind_resume now answer hs
    generalize m.resume now stage answer = t at hbehind h
    cases hbehind with
    | scanSynced idle result =>
      simp only [scanSynced, synced_eq] at h
      split at h <;> cases h
    | scanListed idle result snapshot =>
      rw [next_scanListed] at h
      cases h
    | pullSynced g' f' before result =>
      -- the check of an attempt leads to another one only if one is left
      rcases m.pullSynced_cases g' f' before result with
        ⟨-, -, hn⟩ | ⟨-, hleft, -, hn⟩ | ⟨-, -, -, hn⟩
      · rw [hn] at h
        cases h
      · rw [hn] at h
        cases h
        exact .inl hleft
      · rw [hn] at h
        cases h
    | brokenDown => cases h
    | waiting =>
      cases h
      exact .inr rfl

end Monitor

namespace Interplay

variable {ι : Type} [DecidableEq ι] {promise : Stage → Answer → Prop}

/-! ## 2. Attempts and batches -/

def Counted (w : Interplay ι) : Prop :=
  ∀ who g f attempt, w.calls.get? who = some (.pullSync g f attempt) → attempt ≤ maxAttempts

theorem Counted.start (now : Nat) (config : Config) (keyOf : KeyRule) (listing : String) :
    (start now config keyOf listing : Interplay ι).Counted := by
  intro who g f attempt h
  simp [Interplay.start] at h

theorem Counted.play {w : Interplay ι} (hw : w.Counted) (who : ι) {t : Turn}
    (ht : ∀ g f attempt, t.next = .waiting (.pullSync g f attempt) → attempt ≤ maxAttempts) :
    (w.play who t).Counted := by
  intro other g f attempt hstage
  rcases waiting_of_play hstage with ⟨rfl, hnext⟩ | ⟨-, hbefore⟩
  · exact ht g f attempt hnext
  · exact hw other g f attempt hbefore

theorem Step.counted {a b : Interplay ι} {m : Move ι} (h : Step promise a m b)
    (ha : a.Counted) : b.Counted := by
  cases h with
  | pass => exact ha
  | hear => exact ha
  | @begin who call idle =>
    apply ha.play
    intro g f attempt hnext
    have houtside := a.monitor.holdsGate_begin a.now call
    rw [hnext] at houtside
    cases houtside
  | ask => exact ha
  | @resume who stage answer waits meets ready promised =>
    apply ha.play
    intro g f attempt hnext
    rcases a.monitor.attempt_resume a.now hnext with hle | rfl
    · exact hle
    · exact ha who g f attempt waits
  | @drop who stage waits =>
    intro other g f attempt hstage
    exact ha other g f attempt (Catalog.get?_of_erase hstage)

def Returns (w : Interplay ι) (m : Move ι) (maxGroups : Nat)
    (out : Catalog PartitionKey Metadata) : Prop :=
  ∃ who f attempt result, m = .resume who (.refreshed result) ∧
    w.calls.get? who = some (.pullSync maxGroups f attempt) ∧
    w.monitor.changed = false ∧ out = w.monitor.proposed f

/-- **A pull gives up:** it is at its last attempt, and some file was finished meanwhile. -/
def GivesUp (w : Interplay ι) (m : Move ι) : Prop :=
  ∃ who g f result, m = .resume who (.refreshed result) ∧
    w.calls.get? who = some (.pullSync g f maxAttempts) ∧ w.monitor.changed = true

/-- **What releases a key:** news that it was cleaned, or a pull that gives up. -/
def Releases (w : Interplay ι) (m : Move ι) (k : PartitionKey) : Prop :=
  (∃ r : Record, m = .hear ⟨k, some r⟩ ∧ r.status = .cleaned) ∨ w.GivesUp m

/-! ## 3. Steps and runs -/

/-- **Every step keeps what is handed out,** unless it releases it. -/
theorem Step.kept_or_releases {a b : Interplay ι} {m : Move ι} {k : PartitionKey}
    {file : Metadata} (h : Step promise a m b) (ha : a.Counted)
    (hk : a.monitor.scheduled.get? k = some file) :
    b.monitor.scheduled.get? k = some file ∨ a.Releases m k := by
  cases h with
  | pass => exact .inl hk
  | hear e =>
    show (a.monitor.observe e).1.scheduled.get? k = some file ∨ _
    rcases a.monitor.scheduled_observe e with hsame | ⟨⟨r, hr, hcleaned⟩, herased⟩
    · left
      rw [hsame, hk]
    · by_cases hkey : k = e.key
      · right
        left
        refine ⟨r, ?_, hcleaned⟩
        rw [hkey, ← hr]
      · left
        rw [herased, Catalog.get?_erase, if_neg hkey, hk]
  | @begin who call idle =>
    left
    show (a.monitor.begin a.now call).monitor.scheduled.get? k = some file
    rw [(Monitor.Unmoved.begin _ _ _).scheduled, hk]
  | ask => exact .inl hk
  | @resume who stage answer waits meets ready promised =>
    rcases a.monitor.scheduled_kept a.now stage answer hk with
      hkept | ⟨hchanged, g, f, attempt, result, rfl, rfl, hlast⟩
    · exact .inl hkept
    · -- no attempt is beyond the last, so this one is it
      have hattempt : attempt = maxAttempts := Nat.le_antisymm (ha who g f attempt waits) hlast
      rw [hattempt] at waits
      exact .inr (.inr ⟨who, g, f, result, rfl, waits, hchanged⟩)
  | drop => exact .inl hk

theorem Run.kept_or_releases {a b : Interplay ι} {ms : List (Move ι)} {k : PartitionKey}
    {file : Metadata} (h : Run promise a ms b) (ha : a.Counted)
    (hk : a.monitor.scheduled.get? k = some file) :
    b.monitor.scheduled.get? k = some file ∨
      ∃ before m after p q, ms = before ++ m :: after ∧ Run promise a before p ∧
        Step promise p m q ∧ Run promise q after b ∧ p.Releases m k := by
  induction h with
  | nil => exact .inl hk
  | @cons a c b m ms first rest ih =>
    rcases first.kept_or_releases ha hk with hstill | hreleases
    · rcases ih (first.counted ha) hstill with
        hend | ⟨before, m', after, p, q, rfl, hbefore, hstep, hafter, hreleases⟩
      · exact .inl hend
      · exact .inr ⟨m :: before, m', after, p, q, rfl, .cons first hbefore, hstep, hafter,
          hreleases⟩
    · exact .inr ⟨[], m, ms, a, c, rfl, .nil a, first, rest, hreleases⟩

/-- **Handed-out work stays handed out.**  When a pull returns the groups of what was handed out as
    its batch was built, no other pull is making attempts; and every key among it stays handed out,
    with its file, until there are news that it was cleaned, or a pull that came later gives up. -/
theorem handedOut_until_released (promise : Stage → Answer → Prop) (now : Nat) (config : Config)
    (keyOf : KeyRule) (listing : String) {a b : Interplay ι} {ms : List (Move ι)} {m : Move ι}
    {maxGroups : Nat} {out : Catalog PartitionKey Metadata}
    (hrun : Run promise (start now config keyOf listing) ms a)
    (hreturns : a.Returns m maxGroups out) (hstep : Step promise a m b) :
    (a.turn? m).map Turn.next =
      some (.finished (.groups (Groups.byAge out.values maxGroups))) ∧
    (∀ i g f attempt, b.calls.get? i ≠ some (.pullSync g f attempt)) ∧
    ∀ {c : Interplay ι} {ns : List (Move ι)} {k : PartitionKey} {file : Metadata},
      Run promise b ns c → out.get? k = some file →
      c.monitor.scheduled.get? k = some file ∨
        ∃ before m' after p q, ns = before ++ m' :: after ∧ Run promise b before p ∧
          Step promise p m' q ∧ Run promise q after c ∧ p.Releases m' k := by
  have hguarded : a.Guarded := hrun.guarded (.start now config keyOf listing)
  have hcounted : a.Counted := hrun.keeps Step.counted (.start now config keyOf listing)
  have hcounted' : b.Counted := hstep.counted hcounted
  obtain ⟨who, f, attempt, result, rfl, hpull, hchanged, rfl⟩ := hreturns
  obtain ⟨hm, hn⟩ :=
    Monitor.pullSynced_settled a.monitor maxGroups f attempt result hchanged
  cases hstep with
  | @resume _ stage _ waits meets ready promised =>
    cases hpull.symm.trans waits
    refine ⟨?_, ?_, ?_⟩
    · show ((a.calls.get? who).map fun s => a.monitor.resume a.now s (.refreshed result)).map
        Turn.next = _
      rw [hpull]
      exact congrArg some hn
    · intro i g f' attempt' hi
      by_cases hne : i = who
      · -- the pull itself has returned
        subst hne
        have hnext : (a.monitor.resume a.now (.pullSync maxGroups f attempt)
            (.refreshed result)).next = _ := hn
        rw [get?_calls_play_self, hnext] at hi
        cases hi
      · rw [get?_calls_play_of_ne a _ hne] at hi
        exact hne (hguarded.eq hi rfl hpull rfl)
    · intro c ns k file hlater hk
      apply hlater.kept_or_releases hcounted'
      show (a.monitor.pullSynced maxGroups f attempt result).monitor.scheduled.get? k = some file
      rw [hm]
      exact hk

/-- A file is handed out.  It is found again next to two others, one of which is finished while the
    next pull makes its first attempt; the second attempt settles.  Then the file is completed and
    cleaned, which releases it. -/
theorem handedOut_until_released_cleaned :
    let promise : Stage → Answer → Prop := fun _ _ => true = true
    let file (name : String) : Metadata := ⟨⟨"file", none, "/" ++ name, none, none⟩, name, 1,
      default, none⟩
    let first : Interplay Nat := start 0 { reconfigurationAfterTimeoutMs := some 0 }
      (fun m => .ok ⟨m.name⟩) "files"
    let news (name : String) (status : Status) : Move Nat :=
      .hear ⟨⟨name⟩, some (.new (file name) status)⟩
    let m : Move Nat := .resume 2 (.refreshed (.ok .empty))
    let ms : List (Move Nat) := foundMoves [file "a"] ++ pullMoves 2 1 1
    let ns : List (Move Nat) :=
      scanMoves 1 [file "a", file "b", file "c"] .empty ++ pullMoves 2 1 1 ++
        [news "c" .completed, m, m, news "a" .completed, news "a" .cleaned]
    ∃ a b c out, Run promise first ms a ∧ a.Returns m 1 out ∧ Step promise a m b ∧
      (a.turn? m).map Turn.next = some (.finished (.groups (Groups.byAge out.values 1))) ∧
      Run promise b ns c ∧ out.get? ⟨"a"⟩ = some (file "a") ∧
      c.monitor.scheduled.get? ⟨"b"⟩ = some (file "b") ∧
      c.monitor.scheduled.get? ⟨"a"⟩ = none ∧
      ∃ before m' after p q, ns = before ++ m' :: after ∧ Run promise b before p ∧
        Step promise p m' q ∧ Run promise q after c ∧ p.Releases m' ⟨"a"⟩ := by
  intro promise file first news m ms ns
  let a := (first.moves? (fun _ _ => true) ms).get (by decide +kernel)
  let b := (a.move? (fun _ _ => true) m).get (by decide +kernel)
  let c := (b.moves? (fun _ _ => true) ns).get (by decide +kernel)
  have hrun : Run promise first ms a := .of_moves? (Option.some_get _).symm
  have hstep : Step promise a m b := .of_move? (Option.some_get _).symm
  have hlater : Run promise b ns c := .of_moves? (Option.some_get _).symm
  have hreturns : a.Returns m 1 (a.monitor.proposed 1) :=
    ⟨2, 1, 1, .ok .empty, rfl, by decide +kernel, by decide +kernel, rfl⟩
  have hout : (a.monitor.proposed 1).get? ⟨"a"⟩ = some (file "a") := by decide +kernel
  have hother : c.monitor.scheduled.get? ⟨"b"⟩ = some (file "b") := by decide +kernel
  have hgone : c.monitor.scheduled.get? ⟨"a"⟩ = none := by decide +kernel
  obtain ⟨hreply, -, hkept⟩ := handedOut_until_released promise 0
    { reconfigurationAfterTimeoutMs := some 0 } (fun m => .ok ⟨m.name⟩) "files" hrun hreturns hstep
  refine ⟨a, b, c, a.monitor.proposed 1, hrun, hreturns, hstep, hreply, hlater, hout, hother,
    hgone, ?_⟩
  rcases hkept hlater hout with hstill | hreleased
  · rw [hgone] at hstill
    cases hstill
  · exact hreleased

end Interplay

end Intake
