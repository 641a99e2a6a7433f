import Intake.Proofs.Queue
import Intake.Proofs.Signal

/-!
# Course — the attempts of a pull

A pull that was let in at the gate makes attempts, each with one refresh of the log.  During a
refresh time passes, other calls go on, and the monitor hears of entries; of all this only the news
matter (`Run.outlook_meanwhile`).  News that take a file from those that wait make the attempt
void, and what it staged is taken back; so an attempt begins with what news alone have left
(`Monitor.Stands`).  The first attempt without such news settles, and the third with them gives up.
-/

namespace Intake

/-! ## 1. News that take a file -/

namespace Monitor

theorem hearAll_hearAll (m : Monitor) (es es' : List LogEntry) :
    (m.hearAll es).hearAll es' = m.hearAll (es ++ es') := List.foldl_append.symm

def loses (m : Monitor) (news : List LogEntry) : Bool :=
  decide ((m.hearAll news).scanned.size < m.scanned.size)

def losses (m : Monitor) : List (List LogEntry) → List Bool
  | [] => []
  | news :: later => m.loses news :: (m.hearAll news).losses later

@[simp] theorem length_losses (m : Monitor) (past : List (List LogEntry)) :
    (m.losses past).length = past.length := by
  induction past generalizing m with
  | nil => rfl
  | cons news later ih => simp [losses, ih]

theorem losses_concat (m : Monitor) (past : List (List LogEntry)) (news : List LogEntry) :
    m.losses (past ++ [news]) = m.losses past ++ [(m.hearAll past.flatten).loses news] := by
  induction past generalizing m with
  | nil => rfl
  | cons first later ih =>
    simp only [List.cons_append, losses, ih, hearAll_hearAll, List.flatten_cons]

/-- **An entry** takes a file from those that wait, and marks this, or does neither. -/
theorem changed_observe_cases (m : Monitor) (e : LogEntry) :
    ((m.observe e).1.scanned = m.scanned ∧ (m.observe e).1.changed = m.changed) ∨
      (m.observe e).1.scanned.size < m.scanned.size ∧ (m.observe e).1.changed = true := by
  fun_cases observe
  case case2 r hvalue hfinished =>
    cases hwaits : m.scanned.contains e.key with
    | false =>
      left
      exact ⟨Catalog.erase_of_contains_eq_false hwaits, Bool.or_false _⟩
    | true =>
      right
      exact ⟨Catalog.size_erase_lt hwaits, Bool.or_true _⟩
  all_goals exact .inl ⟨rfl, rfl⟩

theorem size_scanned_hearAll (m : Monitor) (news : List LogEntry) :
    (m.hearAll news).scanned.size ≤ m.scanned.size := by
  induction news generalizing m with
  | nil => exact Nat.le_refl _
  | cons e rest ih =>
    have hrest : (m.hearAll (e :: rest)).scanned.size ≤ (m.observe e).1.scanned.size := ih _
    rcases m.changed_observe_cases e with ⟨hsame, -⟩ | ⟨hless, -⟩
    · rwa [hsame] at hrest
    · exact Nat.le_trans hrest (Nat.le_of_lt hless)

/-- **The mark** says that news took a file since it was cleared. -/
theorem changed_hearAll (m : Monitor) (news : List LogEntry) :
    (m.hearAll news).changed = (m.changed || m.loses news) := by
  induction news generalizing m with
  | nil => simp [hearAll, loses]
  | cons e rest ih =>
    have hrest : (m.hearAll (e :: rest)).changed =
        ((m.observe e).1.changed || (m.observe e).1.loses rest) := ih _
    have hsize : ((m.observe e).1.hearAll rest).scanned.size ≤ (m.observe e).1.scanned.size :=
      size_scanned_hearAll _ rest
    rcases m.changed_observe_cases e with ⟨hsame, hmark⟩ | ⟨hless, hmark⟩
    · -- the files that wait are the same before the other entries
      have hloses : m.loses (e :: rest) = (m.observe e).1.loses rest := by
        unfold loses
        rw [hsame]
        rfl
      rw [hrest, hmark, hloses]
    · -- the other entries bring no file back
      have hloses : m.loses (e :: rest) = true :=
        decide_eq_true (Nat.lt_of_le_of_lt hsize hless)
      rw [hrest, hmark, hloses, Bool.true_or, Bool.or_true]

def outlook (m : Monitor) :
    (Catalog PartitionKey Metadata × Catalog PartitionKey Metadata) × Bool :=
  (m.sets, m.changed)

theorem changed_observe (m : Monitor) (e : LogEntry) :
    (m.observe e).1.changed = (m.changed || e.finished?.isSome && m.scanned.contains e.key) := by
  fun_cases observe
  case case1 hvalue => simp [LogEntry.finished?, hvalue]
  case case2 r hvalue hfinished => simp [LogEntry.finished?, hvalue, hfinished]
  all_goals simp_all [LogEntry.finished?]

theorem outlook_observe {m m' : Monitor} (h : m.outlook = m'.outlook) (e : LogEntry) :
    (m.observe e).1.outlook = (m'.observe e).1.outlook := by
  have hsets : m.sets = m'.sets := congrArg Prod.fst h
  have hscanned : m.scanned = m'.scanned := congrArg Prod.snd hsets
  have hmark : m.changed = m'.changed := congrArg Prod.snd h
  refine Prod.ext (sets_observe hsets e) ?_
  show (m.observe e).1.changed = (m'.observe e).1.changed
  rw [changed_observe, changed_observe, hscanned, hmark]

theorem outlook_hearAll {m m' : Monitor} (h : m.outlook = m'.outlook) (news : List LogEntry) :
    (m.hearAll news).outlook = (m'.hearAll news).outlook := by
  induction news generalizing m m' with
  | nil => exact h
  | cons e rest ih => exact ih (outlook_observe h e)

/-! ## 2. Turns of other calls -/

theorem changed_begin (m : Monitor) (now : Nat) (call : Call) :
    (m.begin now call).monitor.changed = m.changed := by
  cases call with
  | startup => rfl
  | tick =>
    simp only [begin, beginTick, scanIfRunning]
    split
    · split <;> rfl
    · rfl
  | pull g f =>
    simp only [begin, beginPull]
    split <;> rfl
  | cleanup =>
    simp only [begin]
    split <;> rfl
  | sync t => rfl
  | close =>
    simp only [begin, beginClose]
    split <;> rfl

/-- Away from the gate nobody clears the mark. -/
theorem changed_resume (m : Monitor) (now : Nat) {stage : Stage} {answer : Answer}
    (h : stage.holdsGate = false) (hout : answer ≠ .entered) :
    (m.resume now stage answer).monitor.changed = m.changed := by
  unfold Monitor.resume
  split
  case h_1 => simp only [synced_eq]; rfl
  case h_2 =>
    simp only [tidied_eq, scanIfRunning, Turn.monitor_after]
    split <;> rfl
  case h_3 => exact absurd rfl hout
  case h_4 => cases h
  case h_5 => cases h
  case h_7 => exact absurd rfl hout
  case h_8 => cases h
  case h_9 => simp only [tidied_eq]; rfl
  case h_10 => simp only [synced_eq]; rfl
  case h_11 => simp only [closeSynced, synced_eq]; split <;> rfl
  case h_12 => simp only [tidied_eq]; rfl
  all_goals rfl

theorem outlook_begin (m : Monitor) (now : Nat) (call : Call) :
    (m.begin now call).monitor.outlook = m.outlook :=
  Prod.ext (Quiet.begin m now call).sets (m.changed_begin now call)

theorem outlook_resume (m : Monitor) (now : Nat) {stage : Stage} {answer : Answer}
    (h : stage.holdsGate = false) (hout : answer ≠ .entered) :
    (m.resume now stage answer).monitor.outlook = m.outlook :=
  Prod.ext (Quiet.resume m now h hout).sets (m.changed_resume now h hout)

end Monitor

namespace Interplay

variable {ι : Type}

def Move.caller? : Move ι → Option ι
  | pass _ => none
  | hear _ => none
  | begin who _ => some who
  | ask who => some who
  | resume who _ => some who
  | drop who => some who

def Move.news : Move ι → List LogEntry
  | hear e => [e]
  | _ => []

def heard (ms : List (Move ι)) : List LogEntry := ms.flatMap Move.news

variable [DecidableEq ι] {promise : Stage → Answer → Prop} {a b c : Interplay ι} {who : ι}
  {ms : List (Move ι)} {stage : Stage}

theorem Step.get?_calls_of_others {m : Move ι} (h : Step promise a m b)
    (hothers : m.caller? ≠ some who) : b.calls.get? who = a.calls.get? who := by
  cases h with
  | pass => rfl
  | hear => rfl
  | begin => exact get?_calls_play_of_ne a _ fun heq => hothers (congrArg some heq.symm)
  | ask => rfl
  | resume => exact get?_calls_play_of_ne a _ fun heq => hothers (congrArg some heq.symm)
  | drop =>
    rw [Catalog.get?_erase, if_neg fun heq => hothers (congrArg some heq.symm)]

/-- While others move, a call stays where it is. -/
theorem Run.get?_calls_of_others (h : Run promise a ms b)
    (hothers : ∀ m ∈ ms, m.caller? ≠ some who) : b.calls.get? who = a.calls.get? who := by
  induction h with
  | nil => rfl
  | cons first _ ih =>
    obtain ⟨hm, hms⟩ := List.forall_mem_cons.1 hothers
    exact (ih hms).trans (first.get?_calls_of_others hm)

/-- **A move of anybody else** than the call behind the gate changes what a pull goes by through
    news alone. -/
theorem Step.outlook_meanwhile {m : Move ι} (h : Step promise a m b) (ha : a.Guarded)
    (hwho : a.calls.get? who = some stage) (hholds : stage.holdsGate = true)
    (hothers : m.caller? ≠ some who) :
    b.monitor.outlook = (a.monitor.hearAll m.news).outlook := by
  cases h with
  | pass => rfl
  | hear => rfl
  | begin call => exact a.monitor.outlook_begin a.now call
  | ask => rfl
  | @resume other stage' answer waits meets ready promised =>
    -- the gate is held, so the turn is played away from it
    have hne : who ≠ other := fun heq => hothers (congrArg some heq.symm)
    have hholder := ha who stage hwho hholds
    obtain ⟨hout, hlet⟩ := ha.outside hholder hne waits meets ready
    exact a.monitor.outlook_resume a.now hout hlet
  | drop => rfl

/-- **While others move,** what the pull behind the gate goes by changes through news alone. -/
theorem Run.outlook_meanwhile (h : Run promise a ms b) (ha : a.Guarded)
    (hwho : a.calls.get? who = some stage) (hholds : stage.holdsGate = true)
    (hothers : ∀ m ∈ ms, m.caller? ≠ some who) :
    b.monitor.outlook = (a.monitor.hearAll (heard ms)).outlook := by
  induction h with
  | nil => rfl
  | @cons a c b m ms first rest ih =>
    obtain ⟨hm, hms⟩ := List.forall_mem_cons.1 hothers
    have hfirst := first.outlook_meanwhile ha hwho hholds hm
    have hstays := (first.get?_calls_of_others hm).trans hwho
    rw [ih (first.guarded ha) hstays hms, Monitor.outlook_hearAll hfirst, Monitor.hearAll_hearAll]
    rfl

end Interplay

/-! ## 3. Attempts -/

def Effect.isAbort : Effect → Bool
  | report (.schedulingAborted _) => true
  | _ => false

namespace Turn

def aborts (t : Turn) : Bool := t.effects.any Effect.isAbort

structure Ends (t : Turn) (groups : List (List Uri)) : Prop where
  reply : t.next = .finished (.groups groups)
  scanned : t.monitor.scanned = .empty
  requested : t.monitor.requested = false

end Turn

namespace Monitor

theorem proposed_of_sets {m m' : Monitor} (h : m.sets = m'.sets) (f : Nat) :
    m.proposed f = m'.proposed f := by
  have hscheduled : m.scheduled = m'.scheduled := scheduled_of_sets h
  have hscanned : m.scanned = m'.scanned := congrArg Prod.snd h
  unfold proposed staged candidates
  rw [hscheduled, hscanned]

theorem sets_hearAll {m m' : Monitor} (h : m.sets = m'.sets) (news : List LogEntry) :
    (m.hearAll news).sets = (m'.hearAll news).sets := by
  induction news generalizing m m' with
  | nil => exact h
  | cons e rest ih => exact ih (sets_observe h e)

theorem loses_of_sets {m m' : Monitor} (h : m.sets = m'.sets) (news : List LogEntry) :
    m.loses news = m'.loses news := by
  have hbefore : m.scanned = m'.scanned := congrArg Prod.snd h
  have hafter : (m.hearAll news).scanned = (m'.hearAll news).scanned :=
    congrArg Prod.snd (sets_hearAll h news)
  unfold loses
  rw [hbefore, hafter]

theorem isAbort_syncEffects (timeoutMs : Nat) (result : Except StoreError Snapshot) :
    (syncEffects timeoutMs result).any Effect.isAbort = false := by
  unfold syncEffects
  split <;> rfl

/-- **A pull is given up** in the last attempt, if a scanned file was finished meanwhile. -/
theorem aborts_pullSynced (m : Monitor) (g f attempt : Nat) (result : Except StoreError Snapshot) :
    (m.pullSynced g f attempt result).aborts = (m.changed && decide (maxAttempts ≤ attempt)) := by
  have hsync := isAbort_syncEffects m.config.readToEndTimeoutMs result
  have hmark : (m.keepSnapshot (m.newest result)).changed = m.changed := rfl
  unfold pullSynced
  simp only [synced_eq, hmark, Progress.prepared, Progress.validated]
  cases m.changed with
  | false => cases result.isOk <;> simp [Turn.aborts, endPull, Effect.isAbort, hsync]
  | true =>
    by_cases hlast : maxAttempts ≤ attempt
    · simp [Turn.aborts, endPull, Effect.isAbort, hlast]
    · simp [Turn.aborts, beginAttempt, Effect.isAbort, hlast, hsync]

/-- **Where a pull stands** behind some attempts, by the news of their refreshes.  It found no file
    that waits; or all its attempts were void, and it waits for another one, or gave up; or the
    last of them settled. -/
inductive Stands (m : Monitor) (g f : Nat) : List (List LogEntry) → Turn → Prop where
  | idle {t : Turn} (vacant : m.scanned.isEmpty = true) (calm : t.aborts = false) (ends : t.Ends [])
      (scheduled : t.monitor.scheduled = m.scheduled) : Stands m g f [] t
  | goesOn {past : List (List LogEntry)} {t : Turn} (waiting : m.scanned.isEmpty = false)
      (lost : m.losses past = List.replicate past.length true) (left : past.length < maxAttempts)
      (calm : t.aborts = false) (next : t.next = .waiting (.pullSync g f (past.length + 1)))
      (outlook : t.monitor.outlook = ((m.hearAll past.flatten).sets, false)) :
      Stands m g f past t
  | settles {past : List (List LogEntry)} {news : List LogEntry} {t : Turn}
      (waiting : m.scanned.isEmpty = false)
      (lost : m.losses past = List.replicate past.length true) (left : past.length < maxAttempts)
      (kept : (m.hearAll past.flatten).loses news = false) (calm : t.aborts = false)
      (ends : t.Ends (Groups.byAge t.monitor.scheduled.values g))
      (scheduled : t.monitor.scheduled = (m.hearAll (past ++ [news]).flatten).proposed f) :
      Stands m g f (past ++ [news]) t
  | givesUp {past : List (List LogEntry)} {t : Turn} (waiting : m.scanned.isEmpty = false)
      (lost : m.losses past = List.replicate maxAttempts true) (aborts : t.aborts = true)
      (ends : t.Ends []) (scheduled : t.monitor.scheduled = .empty) : Stands m g f past t

theorem stands_pullEntered (m : Monitor) (g f : Nat) : m.Stands g f [] (m.pullEntered g f) := by
  unfold pullEntered
  cases hvacant : m.scanned.isEmpty with
  | true => exact .idle hvacant rfl ⟨rfl, rfl, rfl⟩ rfl
  | false => exact .goesOn hvacant rfl (by decide) rfl rfl rfl

section Standing

variable {m m' : Monitor} {g f : Nat} {past : List (List LogEntry)} {t : Turn}

/-- **One more attempt,** after the news of its refresh. -/
theorem Stands.attempt {n : Nat} {news : List LogEntry} (h : m.Stands g f past t)
    (hnext : t.next = .waiting (.pullSync g f n))
    (hm : m'.outlook = (t.monitor.hearAll news).outlook) (result : Except StoreError Snapshot) :
    m.Stands g f (past ++ [news]) (m'.pullSynced g f n result) := by
  cases h with
  | idle _ _ ends => cases ends.reply.symm.trans hnext
  | settles _ _ _ _ _ ends => cases ends.reply.symm.trans hnext
  | givesUp _ _ _ ends => cases ends.reply.symm.trans hnext
  | goesOn waiting lost left calm next outlook =>
    cases next.symm.trans hnext
    have hsets : t.monitor.sets = (m.hearAll past.flatten).sets := congrArg Prod.fst outlook
    have hfresh : t.monitor.changed = false := congrArg Prod.snd outlook
    -- the mark was cleared when the attempt began, so it speaks of this news alone
    have hmark : m'.changed = (m.hearAll past.flatten).loses news := by
      have hheard : m'.changed = (t.monitor.hearAll news).changed := congrArg Prod.snd hm
      rw [hheard, changed_hearAll, hfresh, Bool.false_or, loses_of_sets hsets]
    have hwork : m'.sets = (m.hearAll (past ++ [news]).flatten).sets := by
      have hheard : m'.sets = (t.monitor.hearAll news).sets := congrArg Prod.fst hm
      rw [hheard, sets_hearAll hsets, hearAll_hearAll, List.flatten_concat]
    have hlosses : m'.changed = true →
        m.losses (past ++ [news]) = List.replicate (past.length + 1) true := by
      intro hchanged
      rw [losses_concat, lost, ← hmark, hchanged, List.replicate_succ']
    have haborts := m'.aborts_pullSynced g f (past.length + 1) result
    rcases m'.pullSynced_cases g f (past.length + 1) result with
      ⟨hquiet, hmonitor, hreply⟩ | ⟨hchanged, hleft, hmonitor, hreply⟩ |
      ⟨hchanged, hlast, hmonitor, hreply⟩
    · -- the attempt settles, so what it proposed is handed out
      rw [hquiet, Bool.false_and] at haborts
      refine .settles waiting lost left (hmark.symm.trans hquiet) haborts ⟨?_, ?_, ?_⟩ ?_
      · rw [hreply, hmonitor]
      · rw [hmonitor]
      · rw [hmonitor]
      · rw [hmonitor]
        exact proposed_of_sets hwork f
    · -- the attempt is void, and what it staged is taken back
      rw [hchanged, Bool.true_and, decide_eq_false (Nat.not_le.2 hleft)] at haborts
      have hlength : (past ++ [news]).length = past.length + 1 := List.length_append
      refine .goesOn waiting ?_ ?_ haborts ?_ ?_
      · rw [hlength, hlosses hchanged]
      · rwa [hlength]
      · rw [hlength, hreply]
      · rw [hmonitor, ← hwork]
        exact Prod.ext (Prod.ext (scheduled_unstage_stage m' f) rfl) rfl
    · -- the attempt is void, and was the last
      rw [hchanged, Bool.true_and, decide_eq_true hlast] at haborts
      have hall : past.length + 1 = maxAttempts := Nat.le_antisymm left hlast
      refine .givesUp waiting ?_ haborts ⟨hreply, ?_, ?_⟩ ?_
      · rw [← hall, hlosses hchanged]
      · rw [hmonitor]
      · rw [hmonitor]
      · rw [hmonitor]

/-- A pull ended, or an attempt is left and the pull waits for its refresh. -/
theorem Stands.ends_or_waits (h : m.Stands g f past t) :
    (∃ groups, t.Ends groups) ∨
      past.length < maxAttempts ∧ t.next = .waiting (.pullSync g f (past.length + 1)) := by
  cases h with
  | idle _ _ ends => exact .inl ⟨_, ends⟩
  | goesOn _ _ left _ next => exact .inr ⟨left, next⟩
  | settles _ _ _ _ _ ends => exact .inl ⟨_, ends⟩
  | givesUp _ _ _ ends => exact .inl ⟨_, ends⟩

/-- **How many attempts a pull makes:** none if no file waits, else up to the first during whose
    refresh no such file was taken away, and never more than `maxAttempts`. -/
def attempts (m : Monitor) (news : List (List LogEntry)) : Nat :=
  if m.scanned.isEmpty then 0 else min ((m.losses news).findIdx (!·) + 1) maxAttempts

theorem findIdx_replicate_true (n : Nat) : (List.replicate n true).findIdx (!·) = n := by
  induction n with
  | zero => rfl
  | succ n ih => simp [List.replicate_succ, List.findIdx_cons, ih]

theorem findIdx_replicate_concat (n : Nat) :
    (List.replicate n true ++ [false]).findIdx (!·) = n := by
  simp [List.findIdx_append, findIdx_replicate_true]

/-- **The attempts of a pull** are those that it made, and the one for which it waits. -/
theorem Stands.attempts_eq (h : m.Stands g f past t) :
    m.attempts past = past.length + if t.next.holdsGate then 1 else 0 := by
  unfold attempts
  cases h with
  | idle vacant _ ends =>
    rw [vacant, ends.reply]
    rfl
  | goesOn waiting lost left _ next =>
    rw [waiting, next, lost, findIdx_replicate_true]
    exact Nat.min_eq_left left
  | settles waiting lost left kept _ ends =>
    rw [waiting, ends.reply, losses_concat, lost, kept, findIdx_replicate_concat,
      List.length_append]
    exact Nat.min_eq_left left
  | givesUp waiting lost _ ends =>
    have hlength : past.length = maxAttempts := by
      rw [← m.length_losses past, lost, List.length_replicate]
    rw [waiting, ends.reply, lost, findIdx_replicate_true, hlength]
    rfl

/-- A pull that made all its attempts ended. -/
theorem Stands.ends (h : m.Stands g f past t) (hdone : past.length = m.attempts past) :
    ∃ groups, t.Ends groups := by
  rcases h.ends_or_waits with hends | ⟨-, hnext⟩
  · exact hends
  · rw [h.attempts_eq, hnext] at hdone
    exact absurd hdone (Nat.ne_of_lt (Nat.lt_succ_self _))

/-- **A pull gives up** if all its attempts were void, and there were as many as there may be. -/
theorem Stands.aborts_iff (h : m.Stands g f past t) :
    t.aborts = true ↔ m.losses past = List.replicate maxAttempts true := by
  have hcalm : t.aborts = false → m.losses past ≠ List.replicate maxAttempts true →
      (t.aborts = true ↔ m.losses past = List.replicate maxAttempts true) := by
    intro hcalm hother
    rw [hcalm]
    exact ⟨nofun, fun heq => absurd heq hother⟩
  cases h with
  | idle _ calm => exact hcalm calm nofun
  | goesOn _ _ left calm =>
    refine hcalm calm fun hall => Nat.ne_of_lt left ?_
    rw [← m.length_losses past, hall, List.length_replicate]
  | @settles past news t _ _ _ kept calm =>
    refine hcalm calm fun hall => ?_
    -- the last attempt was not void
    have hlast : false ∈ m.losses (past ++ [news]) := by
      rw [losses_concat, kept]
      exact List.mem_concat_self
    rw [hall] at hlast
    cases List.eq_of_mem_replicate hlast
  | givesUp _ lost aborts => exact ⟨fun _ => lost, fun _ => aborts⟩

/-- **A pull that settles** hands out what its last attempt proposed, and returns all of it. -/
theorem Stands.settled {groups : List (List Uri)} (h : m.Stands g f past t)
    (hwaiting : m.scanned.isEmpty = false) (hends : t.next = .finished (.groups groups))
    (hcalm : t.aborts = false) :
    groups = Groups.byAge t.monitor.scheduled.values g ∧
      t.monitor.scheduled = (m.hearAll past.flatten).proposed f := by
  cases h with
  | idle vacant => cases vacant.symm.trans hwaiting
  | goesOn _ _ _ _ next => cases next.symm.trans hends
  | settles _ _ _ _ _ ends scheduled =>
    cases ends.reply.symm.trans hends
    exact ⟨rfl, scheduled⟩
  | givesUp _ _ aborts => cases aborts.symm.trans hcalm

/-- A pull that gives up hands nothing out, and takes back what was handed out before. -/
theorem Stands.of_aborts (h : m.Stands g f past t) (haborts : t.aborts = true) :
    t.next = .finished (.groups []) ∧ t.monitor.scheduled = .empty := by
  cases h with
  | idle _ calm => cases calm.symm.trans haborts
  | goesOn _ _ _ calm => cases calm.symm.trans haborts
  | settles _ _ _ _ calm => cases calm.symm.trans haborts
  | givesUp _ _ _ ends scheduled => exact ⟨ends.reply, scheduled⟩

end Standing

end Monitor

namespace Interplay

variable {ι : Type} [DecidableEq ι] {promise : Stage → Answer → Prop} {a b c : Interplay ι}
  {who : ι} {g f : Nat} {rounds : List (List (Move ι))} {t : Turn}

/-! ## 4. The course of a pull -/

/-- **The course of a pull** that was let in at the gate, where every pull comes that began while
    the monitor was running: the moves of others during each of its refreshes, the turn that it
    played last, and what that left. -/
inductive Course (promise : Stage → Answer → Prop) (who : ι) (g f : Nat) (a : Interplay ι) :
    List (List (Move ι)) → Turn → Interplay ι → Prop where
  | entered {t : Turn} {b : Interplay ι} (waits : a.calls.get? who = some (.pullGate g f))
      (turn : a.turn? (.resume who .entered) = some t)
      (step : Step promise a (.resume who .entered) b) : Course promise who g f a [] t b
  | attempt {rounds : List (List (Move ι))} {ms : List (Move ι)} {t u : Turn}
      {b c d : Interplay ι} {result : Except StoreError Snapshot}
      (before : Course promise who g f a rounds t b) (meanwhile : Run promise b ms c)
      (others : ∀ m ∈ ms, m.caller? ≠ some who)
      (turn : c.turn? (.resume who (.refreshed result)) = some u)
      (step : Step promise c (.resume who (.refreshed result)) d) :
      Course promise who g f a (rounds ++ [ms]) u d

def enter? (check : Stage → Answer → Bool) (w : Interplay ι) (who : ι) :
    Option (Turn × Interplay ι) := do
  let t ← w.turn? (.resume who .entered)
  let b ← w.move? check (.resume who .entered)
  return (t, b)

def attempt? (check : Stage → Answer → Bool) (w : Interplay ι) (who : ι) (ms : List (Move ι))
    (result : Except StoreError Snapshot) : Option (Turn × Interplay ι) := do
  let c ← w.moves? check ms
  let t ← c.turn? (.resume who (.refreshed result))
  let d ← c.move? check (.resume who (.refreshed result))
  return (t, d)

theorem Course.of_enter? {check : Stage → Answer → Bool} {e : Turn × Interplay ι}
    (hwho : a.calls.get? who = some (.pullGate g f)) (h : a.enter? check who = some e) :
    Course (fun stage answer => check stage answer = true) who g f a [] e.1 e.2 := by
  simp only [enter?, Option.bind_eq_bind, Option.bind_eq_some_iff, Option.pure_def] at h
  obtain ⟨t, ht, b, hb, ⟨⟩⟩ := h
  exact .entered hwho ht (.of_move? hb)

theorem Course.of_attempt? {check : Stage → Answer → Bool} {ms : List (Move ι)}
    {result : Except StoreError Snapshot} {e : Turn × Interplay ι}
    (h : Course (fun stage answer => check stage answer = true) who g f a rounds t b)
    (hothers : ∀ m ∈ ms, m.caller? ≠ some who)
    (hattempt : b.attempt? check who ms result = some e) :
    Course (fun stage answer => check stage answer = true) who g f a (rounds ++ [ms]) e.1 e.2 := by
  simp only [attempt?, Option.bind_eq_bind, Option.bind_eq_some_iff, Option.pure_def] at hattempt
  obtain ⟨c, hc, u, hu, d, hd, ⟨⟩⟩ := hattempt
  exact h.attempt (.of_moves? hc) hothers hu (.of_move? hd)

/-- A step of a call plays the turn that the call is about to play. -/
theorem Step.eq_play {answer : Answer} (h : Step promise a (.resume who answer) b)
    (ht : a.turn? (.resume who answer) = some t) :
    ∃ stage, a.calls.get? who = some stage ∧ t = a.monitor.resume a.now stage answer ∧
      b = a.play who t := by
  cases h with
  | @resume _ stage _ waits meets ready promised =>
    simp only [turn?, waits, Option.map_some, Option.some.injEq] at ht
    subst ht
    exact ⟨stage, waits, rfl, rfl⟩

/-- Only a pull that waits makes another attempt. -/
theorem attempt_eq {m : Monitor} {past : List (List LogEntry)} {u : Turn} {p d : Interplay ι}
    {ms : List (Move ι)} {result : Except StoreError Snapshot} (hstands : m.Stands g f past t)
    (hmeanwhile : Run promise (p.play who t) ms c) (hothers : ∀ m ∈ ms, m.caller? ≠ some who)
    (hturn : c.turn? (.resume who (.refreshed result)) = some u)
    (hstep : Step promise c (.resume who (.refreshed result)) d) :
    t.next = .waiting (.pullSync g f (past.length + 1)) ∧
      u = c.monitor.pullSynced g f (past.length + 1) result ∧ d = c.play who u := by
  obtain ⟨stage, hstage, rfl, rfl⟩ := hstep.eq_play hturn
  -- the pull has waited since its last turn
  have hcalls := hmeanwhile.get?_calls_of_others hothers
  rw [get?_calls_play_self, hstage] at hcalls
  rcases hstands.ends_or_waits with ⟨groups, hends⟩ | ⟨-, hnext⟩
  · rw [hends.reply] at hcalls
    cases hcalls
  · rw [hnext] at hcalls
    cases hcalls
    exact ⟨hnext, rfl, rfl⟩

/-- **A pull stands** where the news of its refreshes have left it. -/
theorem Course.stands (h : Course promise who g f a rounds t b) (ha : a.Guarded) :
    b.Guarded ∧ (∃ p : Interplay ι, b = p.play who t) ∧
      a.monitor.Stands g f (rounds.map heard) t := by
  induction h with
  | entered waits turn step =>
    obtain ⟨stage, hstage, rfl, rfl⟩ := step.eq_play turn
    cases waits.symm.trans hstage
    exact ⟨step.guarded ha, ⟨a, rfl⟩, a.monitor.stands_pullEntered g f⟩
  | @attempt rounds ms t u b c d result before meanwhile others turn step ih =>
    obtain ⟨hb, ⟨p, rfl⟩, hstands⟩ := ih
    have hd := step.guarded (meanwhile.guarded hb)
    obtain ⟨hnext, rfl, rfl⟩ := attempt_eq hstands meanwhile others turn step
    -- the pull is behind the gate until its next turn
    have hwaits : (p.play who t).calls.get? who =
        some (.pullSync g f ((rounds.map heard).length + 1)) := by
      rw [get?_calls_play_self, hnext]
    have houtlook := meanwhile.outlook_meanwhile hb hwaits rfl others
    rw [List.map_append]
    exact ⟨hd, ⟨c, rfl⟩, hstands.attempt hnext houtlook result⟩

/-- **Whatever its next refresh comes to,** a pull that waits makes the attempt. -/
theorem Course.goesOn {n : Nat} {ms : List (Move ι)} {result : Except StoreError Snapshot}
    (h : Course promise who g f a rounds t b) (ha : a.Guarded)
    (hnext : t.next = .waiting (.pullSync g f n)) (hmeanwhile : Run promise b ms c)
    (hothers : ∀ m ∈ ms, m.caller? ≠ some who)
    (hpromised : promise (.pullSync g f n) (.refreshed result)) :
    ∃ u d, Course promise who g f a (rounds ++ [ms]) u d := by
  obtain ⟨-, ⟨p, rfl⟩, -⟩ := h.stands ha
  have hwaits : c.calls.get? who = some (.pullSync g f n) := by
    rw [hmeanwhile.get?_calls_of_others hothers, get?_calls_play_self, hnext]
  have hturn : c.turn? (.resume who (.refreshed result)) =
      some (c.monitor.resume c.now (.pullSync g f n) (.refreshed result)) := by
    simp only [turn?, hwaits, Option.map_some]
  exact ⟨_, _, h.attempt hmeanwhile hothers hturn (.resume c hwaits rfl rfl hpromised)⟩

theorem run_hear (w : Interplay ι) (news : List LogEntry) :
    ∃ w', Run promise w (news.map .hear) w' := by
  induction news generalizing w with
  | nil => exact ⟨w, .nil w⟩
  | cons e rest ih =>
    obtain ⟨w', hrest⟩ := ih (w.hear e)
    exact ⟨w', .cons (.hear w e) hrest⟩

/-- **A pull ends** whatever its refreshes come to, and whatever the news meanwhile. -/
theorem Course.ends {n : Nat} {t : Turn} {b : Interplay ι} (news : Nat → List LogEntry)
    (results : Nat → Except StoreError Snapshot)
    (hpromised : ∀ n, promise (.pullSync g f (n + 1)) (.refreshed (results n))) (ha : a.Guarded)
    (h : Course promise who g f a ((List.range n).map fun i => (news i).map .hear) t b) :
    ∃ n t b groups, Course promise who g f a ((List.range n).map fun i => (news i).map .hear) t b ∧
      t.next = .finished (.groups groups) := by
  obtain ⟨-, -, hstands⟩ := h.stands ha
  rcases hstands.ends_or_waits with ⟨groups, hends⟩ | ⟨hleft, hnext⟩
  · exact ⟨n, t, b, groups, h, hends.reply⟩
  · have hmore : n < maxAttempts := by simpa using hleft
    rw [List.length_map, List.length_map, List.length_range] at hnext
    obtain ⟨c, hmeanwhile⟩ := run_hear b (news n)
    have hothers : ∀ m ∈ (news n).map (Move.hear : LogEntry → Move ι), m.caller? ≠ some who := by
      intro m hm
      obtain ⟨e, -, rfl⟩ := List.mem_map.1 hm
      exact nofun
    obtain ⟨u, d, hagain⟩ := h.goesOn ha hnext hmeanwhile hothers (hpromised n)
    have hnow : Course promise who g f a ((List.range (n + 1)).map fun i => (news i).map .hear)
        u d := by
      rw [List.range_succ, List.map_append]
      exact hagain
    exact hnow.ends news results hpromised ha
-- every attempt leaves one less
termination_by maxAttempts - n
decreasing_by omega

theorem Run.completed_of_alone (h : Run promise a ms b) (halone : ∀ m ∈ ms, m.caller? = none) :
    b.monitor.completed = a.monitor.completed ++ (heard ms).filterMap LogEntry.finished? := by
  induction h with
  | nil => exact (List.append_nil _).symm
  | @cons a c b m ms first rest ih =>
    obtain ⟨hm, hms⟩ := List.forall_mem_cons.1 halone
    have hnews : heard (m :: ms) = m.news ++ heard ms := rfl
    rw [ih hms, hnews, List.filterMap_append, ← List.append_assoc]
    congr 1
    -- as nobody calls, a move passes time or brings news
    cases first with
    | pass => exact (List.append_nil _).symm
    | hear e =>
      show (a.monitor.observe e).1.completed = _ ++ [e].filterMap LogEntry.finished?
      rw [Monitor.completed_observe]
      cases hnews : e.finished? <;> simp [hnews]
    | begin => cases hm
    | ask => cases hm
    | resume => cases hm
    | drop => cases hm

/-- **The queue behind a pull** during which nobody else calls: one record more for every entry of
    finished work that the monitor heard of. -/
theorem Course.completed (h : Course promise who g f a rounds t b) (ha : a.Guarded)
    (halone : ∀ ms ∈ rounds, ∀ m ∈ ms, m.caller? = none) :
    b.monitor.completed =
      a.monitor.completed ++ (rounds.map heard).flatten.filterMap LogEntry.finished? := by
  induction h with
  | entered waits turn step =>
    obtain ⟨stage, hstage, rfl, rfl⟩ := step.eq_play turn
    cases waits.symm.trans hstage
    show (a.monitor.pullEntered g f).monitor.completed = a.monitor.completed ++ []
    rw [List.append_nil, Monitor.pullEntered]
    split <;> rfl
  | @attempt rounds ms t u b c d result before meanwhile others turn step ih =>
    obtain ⟨-, ⟨p, rfl⟩, hstands⟩ := before.stands ha
    obtain ⟨hearlier, hlast⟩ := List.forall_mem_append.1 halone
    have hqueue := meanwhile.completed_of_alone (hlast ms List.mem_cons_self)
    obtain ⟨-, rfl, rfl⟩ := attempt_eq hstands meanwhile others turn step
    show (c.monitor.pullSynced g f _ result).monitor.completed = _
    rw [(c.monitor.completed_pullSynced g f _ result).1, hqueue, ih hearlier, List.map_append,
      List.flatten_append, List.filterMap_append, List.append_assoc, List.map_singleton,
      List.flatten_singleton]

/-- **The course of a pull** that was let in at the gate.  By the news of its refreshes it makes as
    many attempts as `Monitor.attempts` says: before the last it waits for another refresh, and
    behind the last it ends, and the scan and the request are forgotten.  It gives up if and only if
    `maxAttempts` attempts were all void; then it returns no group, and nothing is handed out.
    Every entry of finished work that the monitor hears of is queued once.  And the pull does end,
    whatever its refreshes come to and whatever is heard meanwhile. -/
theorem pull_course (ha : a.Guarded) (hwho : a.calls.get? who = some (.pullGate g f)) :
    (∀ {rounds : List (List (Move ι))} {t : Turn} {b : Interplay ι},
      Course promise who g f a rounds t b →
        let news := rounds.map heard
        rounds.length ≤ a.monitor.attempts news ∧
        (rounds.length < a.monitor.attempts news →
          b.calls.get? who = some (.pullSync g f (rounds.length + 1))) ∧
        (rounds.length = a.monitor.attempts news →
          b.calls.get? who = none ∧ (∃ groups, t.next = .finished (.groups groups)) ∧
            b.monitor.scanned = .empty ∧ b.monitor.requested = false) ∧
        (t.aborts = true ↔ a.monitor.losses news = List.replicate maxAttempts true) ∧
        (t.aborts = true → t.next = .finished (.groups []) ∧ b.monitor.scheduled = .empty) ∧
        ((∀ ms ∈ rounds, ∀ m ∈ ms, m.caller? = none) → b.monitor.completed =
          a.monitor.completed ++ news.flatten.filterMap LogEntry.finished?)) ∧
    (∀ {p q : Interplay ι} {e : LogEntry}, Step promise p (.hear e) q →
      q.monitor.completed = p.monitor.completed ++ e.finished?.toList) ∧
    (a.gate.holder = some who → promise (.pullGate g f) .entered →
      ∀ (news : Nat → List LogEntry) (results : Nat → Except StoreError Snapshot),
        (∀ n, promise (.pullSync g f (n + 1)) (.refreshed (results n))) →
          ∃ n t b groups,
            Course promise who g f a ((List.range n).map fun i => (news i).map .hear) t b ∧
              t.next = .finished (.groups groups)) := by
  refine ⟨?_, ?_, ?_⟩
  · intro rounds t b h news
    -- where the pull stands says all of it
    obtain ⟨-, ⟨p, rfl⟩, hstands⟩ := h.stands ha
    have hattempts : a.monitor.attempts news =
        rounds.length + if t.next.holdsGate then 1 else 0 := by
      rw [hstands.attempts_eq, List.length_map]
    have hqueue := h.completed ha
    rcases hstands.ends_or_waits with ⟨groups, hends⟩ | ⟨-, hnext⟩
    · -- all attempts were made
      rw [hends.reply] at hattempts
      refine ⟨Nat.le_of_eq hattempts.symm, fun hmore => absurd hattempts.symm (Nat.ne_of_lt hmore),
        fun _ => ⟨?_, ⟨groups, hends.reply⟩, hends.scanned, hends.requested⟩, hstands.aborts_iff,
        hstands.of_aborts, hqueue⟩
      rw [get?_calls_play_self, hends.reply]
    · -- one more attempt is due
      rw [hnext] at hattempts
      rw [List.length_map] at hnext
      refine ⟨hattempts ▸ Nat.le_succ _, fun _ => ?_, fun hdone => ?_, hstands.aborts_iff,
        hstands.of_aborts, hqueue⟩
      · rw [get?_calls_play_self, hnext]
      · exact absurd (hdone.trans hattempts) (Nat.ne_of_lt (Nat.lt_succ_self _))
  · intro p q e h
    cases h with
    | hear => exact p.monitor.completed_observe e
  · intro hholder hentered news results hpromised
    have hready : a.isReady who .gate = true := by
      simp [isReady, Gate.isHeldBy, hholder]
    have hturn : a.turn? (.resume who .entered) =
        some (a.monitor.resume a.now (.pullGate g f) .entered) := by
      simp only [turn?, hwho, Option.map_some]
    have hcourse : Course promise who g f a [] _ _ :=
      .entered hwho hturn (.resume a hwho rfl hready hentered)
    exact hcourse.ends (n := 0) news results hpromised ha

/-- A pull of two files that wait: during its first refresh one of them is completed, so it makes
    another attempt, and this one settles. -/
theorem pull_course_again :
    let promise : Stage → Answer → Prop := fun _ _ => true = true
    let files : List Metadata := [sample "/a", sample "/b"]
    let done : Record := .new (sample "/b") .completed
    let first : Interplay Nat := start 0 {} byPath "files"
    let ms : List (Move Nat) := foundMoves files ++ askMoves 2 1 2
    let rounds : List (List (Move Nat)) := [[.hear ⟨⟨"/b"⟩, some done⟩], [.pass 5]]
    ∃ a t b, Run promise first ms a ∧ a.Guarded ∧ a.calls.get? 2 = some (.pullGate 1 2) ∧
      Course promise 2 1 2 a rounds t b ∧ a.monitor.losses (rounds.map heard) = [true, false] ∧
      rounds.length = a.monitor.attempts (rounds.map heard) ∧
      (∃ groups, t.next = .finished (.groups groups)) ∧ b.monitor.scanned = .empty ∧
      b.monitor.requested = false ∧ ¬ t.aborts = true ∧
      b.monitor.completed = a.monitor.completed ++ [done.withKey ⟨"/b"⟩] := by
  intro promise files done first ms rounds
  let a := (first.moves? (fun _ _ => true) ms).get (by decide +kernel)
  let entered := (a.enter? (fun _ _ => true) 2).get (by decide +kernel)
  let again := (entered.2.attempt? (fun _ _ => true) 2 rounds[0] (.ok .empty)).get
    (by decide +kernel)
  let last := (again.2.attempt? (fun _ _ => true) 2 rounds[1] (.ok .empty)).get (by decide +kernel)
  have hrun : Run promise first ms a := .of_moves? (Option.some_get _).symm
  have ha : a.Guarded := hrun.guarded (.start 0 {} byPath "files")
  have hwho : a.calls.get? 2 = some (.pullGate 1 2) := by decide +kernel
  have hentered : Course promise 2 1 2 a [] entered.1 entered.2 :=
    .of_enter? hwho (Option.some_get _).symm
  have hagain : Course promise 2 1 2 a [rounds[0]] again.1 again.2 :=
    hentered.of_attempt? (by decide) (Option.some_get _).symm
  have hcourse : Course promise 2 1 2 a rounds last.1 last.2 :=
    hagain.of_attempt? (by decide) (Option.some_get _).symm
  have hlosses : a.monitor.losses (rounds.map heard) = [true, false] := by decide +kernel
  have hattempts : rounds.length = a.monitor.attempts (rounds.map heard) := by decide +kernel
  obtain ⟨-, -, hends, haborts, -, hqueue⟩ := (pull_course ha hwho).1 hcourse
  obtain ⟨-, hgroups, hscanned, hrequested⟩ := hends hattempts
  have hcalm : ¬ last.1.aborts = true := by
    rw [haborts, hlosses]
    decide
  exact ⟨a, last.1, last.2, hrun, ha, hwho, hcourse, hlosses, hattempts, hgroups, hscanned,
    hrequested, hcalm, hqueue (by decide)⟩

end Interplay

end Intake
