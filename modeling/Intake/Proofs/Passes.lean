import Intake.Proofs.Completion
import Intake.Proofs.Elsewhere

/-!
# Passes — what cleanups do to the records of the queue

A pass takes the whole queue as its batch, waits for the policy, writes what succeeded and queues
again what failed.  Passes of ticks, of closes and of calls for a cleanup overlap, and meanwhile the
log brings news.  The queue is served in its order, and every record that came in is queued, in one
batch, or cleaned (`Interplay.passes_conserve`).
-/

namespace Intake

/-! ## 1. Turns -/

def Effect.tidies : Effect → Bool
  | write _ _ => true
  | report (.cleanedWithoutKey _) => true
  | _ => false

namespace Turn

def Plain (t : Turn) : Prop := ∀ e ∈ t.effects, e.tidies = false

theorem Plain.finish (m : Monitor) (r : Reply) : (Turn.finish m r).Plain := List.forall_mem_nil _

theorem Plain.wait (m : Monitor) (s : Stage) : (Turn.wait m s).Plain := List.forall_mem_nil _

theorem Plain.after {t : Turn} (h : t.Plain) {es : List Effect}
    (hes : ∀ e ∈ es, e.tidies = false) : (t.after es).Plain :=
  List.forall_mem_append.2 ⟨hes, h⟩

/-- A turn stays plain behind one effect that does not belong to the end of a pass. -/
theorem Plain.report {t : Turn} (h : t.Plain) {e : Effect} (he : e.tidies = false) :
    (t.after [e]).Plain := h.after (List.forall_mem_singleton.2 he)

theorem Plain.writes {t : Turn} (h : t.Plain) : t.writes = [] := by
  refine List.filterMap_eq_nil_iff.2 fun e he => ?_
  have hplain := h e he
  cases e with
  | write key record => cases hplain
  | report => rfl
  | request => rfl

end Turn

namespace Monitor

open Turn

theorem plain_scanIfRunning (m : Monitor) : m.scanIfRunning.Plain := by
  unfold scanIfRunning
  split
  · exact .finish m .done
  · exact .wait m .scanGate

theorem plain_begin (m : Monitor) (now : Nat) (call : Call) : (m.begin now call).Plain := by
  cases call with
  | startup => exact .wait m _
  | tick =>
    simp only [begin, beginTick]
    split
    · exact plain_scanIfRunning m
    · exact .wait _ _
  | pull g f =>
    simp only [begin, beginPull]
    split
    · exact .finish _ _
    · exact .finish _ _
    · exact .wait _ _
  | cleanup =>
    simp only [begin]
    split
    · exact .finish _ _
    · exact .wait _ _
  | sync t => exact .wait m _
  | close =>
    simp only [begin, beginClose]
    split
    · exact .finish _ _
    · exact .wait _ _

theorem tidies_syncEffects (timeoutMs : Nat) (result : Except StoreError Snapshot) :
    ∀ e ∈ syncEffects timeoutMs result, e.tidies = false := by
  unfold syncEffects
  split
  · exact List.forall_mem_nil _
  · exact List.forall_mem_singleton.2 rfl
  · exact List.forall_mem_singleton.2 rfl

theorem plain_endPull (m : Monitor) (groups : List (List Uri)) : (m.endPull groups).Plain := by
  unfold endPull
  refine .after (.finish _ _) ?_
  split
  · exact List.forall_mem_singleton.2 rfl
  · exact List.forall_mem_nil _

theorem plain_publishAndRequest (m : Monitor) (c : Catalog PartitionKey Metadata) :
    (m.publishAndRequest c).Plain := by
  simp only [publishAndRequest]
  split
  · exact .report (.finish _ _) rfl
  · exact .finish _ _

theorem plain_scanListed (m : Monitor) (now : Nat) (idle : Bool)
    (result : Except Error (List Metadata)) (snapshot : Snapshot) :
    (m.scanListed now idle result snapshot).Plain := by
  unfold scanListed
  split
  · exact .report (.finish _ _) rfl
  · split
    next r _ =>
      cases r with
      | conflicts all =>
        refine .after (.finish _ _) (List.forall_mem_append.2 ⟨?_, List.forall_mem_singleton.2 rfl⟩)
        intro e he
        obtain ⟨c, -, rfl⟩ := List.mem_map.1 he
        rfl
      | noKey cause => exact .report (.finish _ _) rfl
    next candidates _ =>
      unfold takeCandidates
      split
      · split
        · exact plain_publishAndRequest m candidates
        · split
          · exact .finish _ _
          · dsimp only
            split
            · exact .finish _ _
            · exact plain_publishAndRequest m candidates
      · exact plain_publishAndRequest m candidates

theorem plain_pullSynced (m : Monitor) (g f attempt : Nat) (result : Except StoreError Snapshot) :
    (m.pullSynced g f attempt result).Plain := by
  have hsync := tidies_syncEffects m.config.readToEndTimeoutMs result
  have heffects : ∀ e ∈ syncEffects m.config.readToEndTimeoutMs result ++
      (if result.isOk then [] else [.report (.scheduledBehind attempt)]), e.tidies = false := by
    refine List.forall_mem_append.2 ⟨hsync, ?_⟩
    split
    · exact List.forall_mem_nil _
    · exact List.forall_mem_singleton.2 rfl
  simp only [pullSynced, synced_eq]
  split
  · exact .after (plain_endPull _ _) heffects
  · refine .after (.wait _ _) (List.forall_mem_append.2 ⟨heffects, ?_⟩)
    exact List.forall_mem_singleton.2 rfl
  · refine .after (plain_endPull _ _) (List.forall_mem_append.2 ⟨heffects, ?_⟩)
    exact List.forall_mem_singleton.2 rfl

/-- **Every turn but the end of a pass** is plain. -/
theorem plain_resume (m : Monitor) (now : Nat) (stage : Stage) {answer : Answer}
    (h : ∀ results, answer ≠ .cleaned results) : (m.resume now stage answer).Plain := by
  unfold resume
  split
  case h_1 result =>
    simp only [synced_eq]
    exact .after (.finish _ _) (tidies_syncEffects _ result)
  -- a cleanup that is answered ends a pass, at each of its three stages
  case h_2 results => exact absurd rfl (h results)
  case h_3 =>
    unfold scanEntered
    split
    · exact .wait _ _
    · exact .finish _ _
  case h_4 idle result =>
    simp only [scanSynced, synced_eq]
    split
    · refine .after (.finish _ _) (List.forall_mem_append.2 ⟨tidies_syncEffects _ result, ?_⟩)
      exact List.forall_mem_singleton.2 rfl
    · exact .after (.wait _ _) (tidies_syncEffects _ result)
  case h_5 idle result snapshot => exact plain_scanListed m now idle result snapshot
  case h_6 => exact .wait _ _
  case h_7 =>
    unfold pullEntered
    split
    · exact plain_endPull m []
    · exact .wait _ _
  case h_8 g f attempt result => exact plain_pullSynced m g f attempt result
  case h_9 results => exact absurd rfl (h results)
  case h_10 timeoutMs result =>
    simp only [synced_eq]
    exact .after (.finish _ _) (tidies_syncEffects timeoutMs result)
  case h_11 result =>
    simp only [closeSynced, synced_eq]
    refine .after ?_ (tidies_syncEffects _ result)
    split
    · exact .finish _ _
    · exact .wait _ _
  case h_12 results => exact absurd rfl (h results)
  case h_13 =>
    exact .report (.finish _ _) rfl
  case h_14 =>
    exact .report (.finish _ _) rfl
  case h_15 => exact .finish _ _
  case h_16 => exact .wait _ _

theorem tidyEffect_succeed {r : Record} {k : PartitionKey} (h : r.key = some k) :
    tidyEffect (r, .succeed) = .write k (r.withStatus .cleaned) := by
  unfold tidyEffect
  simp only [h]

/-- **The end of a pass** writes each success as cleaned, under its own key and in order. -/
theorem writes_resume_cleaned (m : Monitor) (now : Nat) {stage : Stage} {results : CleanupResults}
    (hmeets : (Answer.cleaned results).meets (stage.need m.config) = true)
    (hkeys : ∀ e ∈ results, e.1.key.isSome = true) :
    (m.resume now stage (.cleaned results)).writes.map (fun e => (some e.key, e.value)) =
      results.succeeded.map fun r => (r.key, some (r.withStatus .cleaned)) := by
  rw [writes, effects_resume_cleaned m now hmeets]
  clear hmeets
  induction results with
  | nil => rfl
  | cons e rest ih =>
    obtain ⟨hfirst, hlater⟩ := List.forall_mem_cons.1 hkeys
    obtain ⟨r, outcome⟩ := e
    cases outcome with
    | succeed =>
      obtain ⟨k, hk⟩ := Option.isSome_iff_exists.1 hfirst
      have hkey : r.key = some k := hk
      have hresult : CleanupResults.succeeded ((r, .succeed) :: rest) =
          r :: CleanupResults.succeeded rest := rfl
      rw [List.map_cons, tidyEffect_succeed hkey, hresult, List.map_cons, hkey, ← ih hlater]
      rfl
    | fail => exact ih hlater

/-- The end of a pass of records with keys reports no record without one. -/
theorem keyed_resume_cleaned (m : Monitor) (now : Nat) {stage : Stage} {results : CleanupResults}
    (hmeets : (Answer.cleaned results).meets (stage.need m.config) = true)
    (hkeys : ∀ e ∈ results, e.1.key.isSome = true) (uri : Uri) :
    .report (.cleanedWithoutKey uri) ∉ (m.resume now stage (.cleaned results)).effects := by
  rw [effects_resume_cleaned m now hmeets, List.mem_map]
  rintro ⟨⟨r, outcome⟩, hr, heffect⟩
  cases outcome with
  | succeed =>
    obtain ⟨k, hk⟩ := Option.isSome_iff_exists.1 (hkeys _ hr)
    rw [tidyEffect_succeed hk] at heffect
    cases heffect
  | fail => cases heffect

/-! ## 2. The queue of a turn -/

def recovered (m : Monitor) : Stage → Answer → List Record
  | .startupSync, .refreshed result => finishedIn (m.newest result).states
  | _, _ => []

/-- **The next turn** of a call leaves in the queue, or takes from it as a batch, what was there,
    what a startup found, and what a cleanup gave back, in this order. -/
theorem queue_resume (m : Monitor) (now : Nat) {stage : Stage} {answer : Answer}
    (hmeets : answer.meets (stage.need m.config) = true) :
    (m.resume now stage answer).monitor.completed ++ (m.resume now stage answer).next.batch =
      m.completed ++ (m.recovered stage answer ++ answer.requeued) := by
  by_cases hstage : stage = .startupSync
  · subst hstage
    cases answer with
    | refreshed result =>
      simp only [resume, synced_eq, Turn.monitor_after, Turn.monitor_finish, completed_recover,
        Turn.next_after, Turn.next_finish, recovered, Answer.requeued, Next.batch, List.append_nil]
      rfl
    | brokenDown => rfl
    | cleaned => cases hmeets
    | listed => cases hmeets
    | woken => cases hmeets
    | entered => cases hmeets
  · have hnone : m.recovered stage answer = [] := by
      unfold recovered
      split
      · exact absurd rfl hstage
      · rfl
    rw [completed_resume m now hmeets hstage, hnone]
    rfl

/-- A call that begins takes the whole queue as its batch, or none of it. -/
theorem batch_begin (m : Monitor) (now : Nat) (call : Call) :
    (m.begin now call).next.batch = [] ∨ (m.begin now call).monitor.completed = [] := by
  cases call with
  | startup => exact .inl rfl
  | tick =>
    simp only [begin, beginTick]
    split
    next hempty =>
      left
      unfold scanIfRunning
      split <;> rfl
    next => exact .inr rfl
  | pull g f =>
    left
    simp only [begin, beginPull]
    split <;> rfl
  | cleanup =>
    simp only [begin]
    split
    · exact .inl rfl
    · exact .inr rfl
  | sync t => exact .inl rfl
  | close =>
    left
    simp only [begin, beginClose]
    split <;> rfl

/-- Of the later turns, only that of a close behind its refresh takes the queue. -/
theorem batch_resume (m : Monitor) (now : Nat) {stage : Stage} {answer : Answer}
    (hmeets : answer.meets (stage.need m.config) = true) :
    (m.resume now stage answer).next.batch = [] ∨
      stage = .closeSync ∧ (m.resume now stage answer).monitor.completed = [] := by
  have hscan : ∀ m' : Monitor, m'.scanIfRunning.next.batch = [] := by
    intro m'
    unfold scanIfRunning
    split <;> rfl
  unfold resume
  split
  case h_1 => simp only [synced_eq]; exact .inl rfl
  case h_2 => simp only [tidied_eq]; exact .inl (hscan _)
  case h_3 => left; unfold scanEntered; split <;> rfl
  case h_4 => left; simp only [scanSynced, synced_eq]; split <;> rfl
  case h_5 => left; rw [next_scanListed]; rfl
  case h_7 => left; unfold pullEntered; split <;> rfl
  case h_8 g f attempt result => exact .inl (m.completed_pullSynced g f attempt result).2
  case h_9 => simp only [tidied_eq]; exact .inl rfl
  case h_10 => simp only [synced_eq]; exact .inl rfl
  case h_11 =>
    simp only [closeSynced, synced_eq]
    split
    · exact .inl rfl
    · exact .inr ⟨trivial, rfl⟩
  case h_12 => simp only [tidied_eq]; exact .inl rfl
  case h_16 =>
    -- no answer that meets the need of its stage is left
    exfalso
    cases stage <;> cases answer <;> grind [Answer.meets, Stage.need]
  all_goals exact .inl rfl

/-- **The end of a pass** queues the failures behind what came meanwhile, and takes no batch. -/
theorem completed_resume_cleaned (m : Monitor) (now : Nat) {stage : Stage}
    {results : CleanupResults}
    (hmeets : (Answer.cleaned results).meets (stage.need m.config) = true) :
    (m.resume now stage (.cleaned results)).monitor.completed = m.completed ++ results.failed := by
  have hstage : stage ≠ .startupSync := by
    rintro rfl
    cases hmeets
  have hnone : (m.resume now stage (.cleaned results)).next.batch = [] := by
    refine (m.batch_resume now hmeets).resolve_right ?_
    rintro ⟨rfl, -⟩
    cases hmeets
  have hqueue := m.completed_resume now hmeets hstage
  rw [hnone, List.append_nil] at hqueue
  exact hqueue

end Monitor

/-! ## 3. Records under way -/

/-- The entry of a key is one of the entries, beside those of the other keys. -/
theorem Catalog.entries_perm_erase {κ ν : Type} [DecidableEq κ] {c : Catalog κ ν}
    {k : κ} {v : ν} (h : c.get? k = some v) : c.entries.Perm ((k, v) :: (c.erase k).entries) := by
  have hnodup : ∀ d : Catalog κ ν, d.entries.Nodup := fun d => .of_map Prod.fst d.distinct
  have hout : (k, v) ∉ (c.erase k).entries := by
    rw [Catalog.mem_entries_iff, Catalog.get?_erase, if_pos rfl]
    intro hkept
    cases hkept
  rw [List.perm_ext_iff_of_nodup (hnodup c) (List.nodup_cons.2 ⟨hout, hnodup _⟩)]
  rintro ⟨k', v'⟩
  rw [List.mem_cons, Catalog.mem_entries_iff, Catalog.mem_entries_iff, Catalog.get?_erase]
  by_cases hk : k' = k
  · subst hk
    rw [if_pos rfl, h]
    simp [eq_comm]
  · rw [if_neg hk]
    simp [hk]

namespace Interplay

variable {ι : Type} [DecidableEq ι]

def batchOf (w : Interplay ι) (who : ι) : List Record :=
  match w.calls.get? who with
  | some stage => stage.batch
  | none => []

/-- **The records in passes** that are under way. -/
def inPasses (calls : Catalog ι Stage) : List Record := calls.entries.flatMap fun e => e.2.batch

/-- The batch of one caller, and those of the others. -/
theorem inPasses_perm (w : Interplay ι) (who : ι) :
    (inPasses w.calls).Perm (w.batchOf who ++ inPasses (w.calls.erase who)) := by
  unfold batchOf
  cases hstage : w.calls.get? who with
  | none =>
    have hcontains : w.calls.contains who = false := by
      rw [Catalog.contains_eq_isSome, hstage]
      rfl
    rw [Catalog.erase_of_contains_eq_false hcontains]
    exact .refl _
  | some stage => exact (Catalog.entries_perm_erase hstage).flatMap_right _

/-- **A turn** changes the batch of its caller only. -/
theorem inPasses_play (w : Interplay ι) (who : ι) (t : Turn) :
    (inPasses (w.play who t).calls).Perm (t.next.batch ++ inPasses (w.calls.erase who)) := by
  unfold play
  cases t.next with
  | waiting stage =>
    show (((w.calls.erase who).entries ++ [(who, stage)]).flatMap fun e => e.2.batch).Perm _
    rw [List.flatMap_append, List.flatMap_singleton]
    exact List.perm_append_comm
  | finished reply => exact .refl _

/-! ## 4. What a move does with records -/

def make (w : Interplay ι) : Move ι → Interplay ι
  | .pass time => { w with now := time }
  | .hear e => w.hear e
  | .begin who call => w.play who (w.monitor.begin w.now call)
  | .ask who => { w with gate := w.gate.ask who }
  | .resume who answer =>
    match w.calls.get? who with
    | some stage => w.play who (w.monitor.resume w.now stage answer)
    | none => w
  | .drop who => { w with gate := w.gate.leave who, calls := w.calls.erase who }

theorem Step.make_eq {promise : Stage → Answer → Prop} {a b : Interplay ι} {m : Move ι}
    (h : Step promise a m b) : a.make m = b := by
  cases h with
  | pass => rfl
  | hear => rfl
  | begin => rfl
  | ask => rfl
  | resume waits =>
    unfold make
    simp only [waits]
  | drop => rfl

def news (w : Interplay ι) : Move ι → List Record
  | .hear e => e.finished?.toList
  | .resume who answer =>
    match w.calls.get? who with
    | some stage => w.monitor.recovered stage answer
    | none => []
  | _ => []

def queued (w : Interplay ι) (m : Move ι) : List Record :=
  w.news m ++
    match m with
    | .resume _ answer => answer.requeued
    | _ => []

def taken (w : Interplay ι) (m : Move ι) : List Record :=
  match w.turn? m with
  | some t => t.next.batch
  | none => []

def cleaned (_ : Interplay ι) : Move ι → List Record
  | .resume _ (.cleaned results) => results.succeeded
  | _ => []

def dropped (w : Interplay ι) : Move ι → List Record
  | .drop who => w.batchOf who
  | _ => []

section Steps

variable {promise : Stage → Answer → Prop} {a b : Interplay ι} {m : Move ι}

/-- **The queue is served in order:** what a move takes was in front. -/
theorem Step.fifo (h : Step promise a m b) :
    a.monitor.completed ++ a.queued m = a.taken m ++ b.monitor.completed := by
  -- a turn takes the whole queue or nothing of it
  have hwhole : ∀ t : Turn, t.next.batch = [] ∨ t.monitor.completed = [] →
      t.monitor.completed ++ t.next.batch = t.next.batch ++ t.monitor.completed := by
    rintro t (hnone | hnone)
    · rw [hnone, List.append_nil, List.nil_append]
    · rw [hnone, List.append_nil, List.nil_append]
  cases h with
  | pass => exact List.append_nil _
  | hear e =>
    show a.monitor.completed ++ (e.finished?.toList ++ []) = (a.monitor.observe e).1.completed
    rw [List.append_nil, Monitor.completed_observe]
  | @begin who call idle =>
    show a.monitor.completed ++ [] = (a.monitor.begin a.now call).next.batch ++
      (a.monitor.begin a.now call).monitor.completed
    rw [← hwhole _ (a.monitor.batch_begin a.now call), Monitor.completed_begin, List.append_nil]
  | ask => exact List.append_nil _
  | @resume who stage answer waits meets ready promised =>
    have htake := a.monitor.batch_resume a.now meets
    have hqueued : a.queued (.resume who answer) =
        a.monitor.recovered stage answer ++ answer.requeued := by
      unfold queued news
      simp only [waits]
    have htaken : a.taken (.resume who answer) =
        (a.monitor.resume a.now stage answer).next.batch := by
      unfold taken turn?
      simp only [waits, Option.map_some]
    rw [hqueued, htaken, ← Monitor.queue_resume a.monitor a.now meets]
    exact hwhole _ (htake.imp_right And.right)
  | drop => exact List.append_nil _

omit [DecidableEq ι] in
/-- **A policy that conserves records** gives each of a batch back as failed or as succeeded. -/
theorem perm_batch (hpolicy : Deployment.Conserves promise) {who : ι} {stage : Stage}
    {answer : Answer} (hmeets : answer.meets (stage.need a.monitor.config) = true)
    (hpromised : promise stage answer) :
    stage.batch.Perm (answer.requeued ++ a.cleaned (.resume who answer)) := by
  have hsplit : ∀ results : CleanupResults,
      (results.failed ++ results.succeeded).Perm (results.map Prod.fst) := by
    intro results
    have hother : (fun e : Record × Outcome => e.2 == .succeed) = fun e => !(e.2 == .fail) := by
      funext e
      cases e.2 <;> rfl
    have hfilter := (List.filter_append_perm (fun e : Record × Outcome => e.2 == .fail) results).map
      Prod.fst
    rw [List.map_append, ← hother] at hfilter
    exact hfilter
  by_cases hcleanup : stage.need a.monitor.config = .cleanup stage.batch
  · obtain ⟨results, rfl, hperm⟩ := hpolicy a.monitor.config stage stage.batch answer hcleanup
      hpromised
    exact hperm.symm.trans (hsplit results).symm
  · -- no other stage has a batch, or takes back records
    cases stage <;> cases answer <;> first
      | exact .nil
      | exact absurd rfl hcleanup
      | cases hmeets

/-- **A turn balances** if it queues or takes what it found, the news and what its own pass gives
    back. -/
theorem balance_play {who : ι} {t : Turn} {fresh : List Record} (back done : List Record)
    (hqueue : t.monitor.completed ++ t.next.batch = a.monitor.completed ++ (fresh ++ back))
    (hbatch : (a.batchOf who).Perm (back ++ done)) :
    (fresh ++ (a.monitor.completed ++ inPasses a.calls)).Perm
      (t.monitor.completed ++ inPasses (a.play who t).calls ++ done) := by
  have hbefore := a.inPasses_perm who
  have hbehind := a.inPasses_play who t
  -- the passes of the others are the same in front and behind: count each record
  rw [List.perm_iff_count] at hbefore hbehind hbatch ⊢
  intro q
  have hbefore := hbefore q
  have hbehind := hbehind q
  have hbatch := hbatch q
  have hqueue := congrArg (List.count q) hqueue
  simp only [List.count_append] at *
  omega

/-- **No record is lost or made:** those that a move finds or brings are afterwards queued or in a
    pass, unless it reports them as cleaned or drops them. -/
theorem Step.balance (hpolicy : Deployment.Conserves promise) (h : Step promise a m b) :
    (a.news m ++ (a.monitor.completed ++ inPasses a.calls)).Perm
      (b.monitor.completed ++ inPasses b.calls ++ (a.cleaned m ++ a.dropped m)) := by
  cases h with
  | pass => exact .of_eq (List.append_nil _).symm
  | hear e =>
    show (e.finished?.toList ++ (a.monitor.completed ++ inPasses a.calls)).Perm
      ((a.monitor.observe e).1.completed ++ inPasses a.calls ++ [])
    -- news that finish work go to the end of the queue
    rw [Monitor.completed_observe, List.append_nil, ← List.append_assoc]
    exact List.perm_append_comm.append_right _
  | @begin who call idle =>
    have hqueue := a.monitor.completed_begin a.now call
    refine balance_play [] [] ?_ ?_
    · rw [hqueue]
      exact (List.append_nil _).symm
    · unfold batchOf
      rw [idle]
      exact .nil
  | ask => exact .of_eq (List.append_nil _).symm
  | @resume who stage answer waits meets ready promised =>
    -- a cleanup that conserves splits its batch into what comes back and what was cleaned
    have hbatch : stage.batch.Perm (answer.requeued ++ a.cleaned (.resume who answer)) :=
      perm_batch hpolicy meets promised
    have hdropped : a.cleaned (.resume who answer) ++ a.dropped (.resume who answer) =
        a.cleaned (.resume who answer) := List.append_nil _
    rw [hdropped]
    refine balance_play answer.requeued _ ?_ ?_
    · rw [Monitor.queue_resume a.monitor a.now meets]
      unfold news
      simp only [waits]
    · unfold batchOf
      rw [waits]
      exact hbatch
  | @drop who stage waits =>
    show (a.monitor.completed ++ inPasses a.calls).Perm
      (a.monitor.completed ++ inPasses (a.calls.erase who) ++ a.batchOf who)
    rw [List.append_assoc]
    exact ((a.inPasses_perm who).trans List.perm_append_comm).append_left _

structure Handles (a : Interplay ι) (m : Move ι) (b : Interplay ι) : Prop where
  ends : ∀ who results, m = .resume who (.cleaned results) →
    ∃ stage t, a.calls.get? who = some stage ∧ a.turn? m = some t ∧
      (results.map Prod.fst).Perm stage.batch ∧
      t.writes.map (fun e => (some e.key, e.value)) =
        (results.succeeded.map fun r => (r.key, some (r.withStatus .cleaned))) ∧
      b.monitor.completed = a.monitor.completed ++ results.failed
  quiet : (∀ who results, m ≠ .resume who (.cleaned results)) →
    ∀ t, a.turn? m = some t → t.writes = []
  keyed : ∀ t uri, a.turn? m = some t → .report (.cleanedWithoutKey uri) ∉ t.effects

def Tagged (r : Record) : Prop :=
  r.key.isSome = true ∧ (r.status = .completed ∨ r.status = .failed)

omit [DecidableEq ι] in
theorem tagged_withKey {r : Record} (h : r.status.isCompleted = true) (k : PartitionKey) :
    Tagged (r.withKey k) := by
  refine ⟨rfl, ?_⟩
  show r.status = .completed ∨ r.status = .failed
  revert h
  cases r.status <;> decide

/-- **What comes in** is tagged. -/
theorem tagged_news {r : Record} (h : r ∈ a.news m) : Tagged r := by
  unfold news at h
  split at h
  next e =>
    obtain ⟨q, -, hfinished, rfl⟩ := LogEntry.finished?_eq_some_iff.1 (Option.mem_toList.1 h)
    exact tagged_withKey hfinished e.key
  next who answer =>
    split at h
    next stage _ =>
      unfold Monitor.recovered at h
      split at h
      next result =>
        obtain ⟨k, q, -, hfinished, rfl⟩ := Monitor.mem_finishedIn_iff.1 h
        exact tagged_withKey hfinished k
      next => cases h
    next => cases h
  next => cases h

/-- A turn that ends a pass of records with keys. -/
theorem Handles.of_cleaned (hpolicy : Deployment.Conserves promise) {who : ι} {stage : Stage}
    {results : CleanupResults} (waits : a.calls.get? who = some stage)
    (hmeets : (Answer.cleaned results).meets (stage.need a.monitor.config) = true)
    (hpromised : promise stage (.cleaned results)) (htagged : ∀ r ∈ inPasses a.calls, Tagged r)
    (hb : b.monitor = (a.monitor.resume a.now stage (.cleaned results)).monitor) :
    Handles a (.resume who (.cleaned results)) b := by
  have hturn : a.turn? (.resume who (.cleaned results)) =
      some (a.monitor.resume a.now stage (.cleaned results)) := by
    unfold turn?
    simp only [waits, Option.map_some]
  have hneed : stage.need a.monitor.config = .cleanup stage.batch := by
    cases stage <;> first | rfl | cases hmeets
  obtain ⟨_, hsame, hperm⟩ := hpolicy a.monitor.config stage stage.batch _ hneed hpromised
  cases hsame
  -- the results are records of the pass, and these are tagged
  have hkeys : ∀ e ∈ results, e.1.key.isSome = true := by
    intro e he
    have hbatch := hperm.mem_iff.1 (List.mem_map_of_mem he)
    have hentry := (Catalog.mem_entries_iff a.calls).2 waits
    exact (htagged e.1 (List.mem_flatMap.2 ⟨_, hentry, hbatch⟩)).1
  refine ⟨fun who' results' hm => ?_, fun hno => absurd rfl (hno who results), fun t uri ht => ?_⟩
  · cases hm
    rw [hb]
    exact ⟨stage, _, waits, hturn, hperm, a.monitor.writes_resume_cleaned a.now hmeets hkeys,
      a.monitor.completed_resume_cleaned a.now hmeets⟩
  · cases ht.symm.trans hturn
    exact a.monitor.keyed_resume_cleaned a.now hmeets hkeys uri

/-- A turn that writes nothing, where no pass ends. -/
theorem Handles.of_plain (hother : ∀ who results, m ≠ .resume who (.cleaned results))
    (hplain : ∀ t, a.turn? m = some t → t.Plain) : Handles a m b := by
  refine ⟨fun who results hm => absurd hm (hother who results),
    fun _ t ht => (hplain t ht).writes, fun t uri ht hmem => ?_⟩
  cases hplain t ht _ hmem

theorem Step.handles (hpolicy : Deployment.Conserves promise) (h : Step promise a m b)
    (htagged : ∀ r ∈ inPasses a.calls, Tagged r) : Handles a m b := by
  cases h with
  | pass => exact .of_plain (fun _ _ hm => by cases hm) fun _ ht => by cases ht
  | hear => exact .of_plain (fun _ _ hm => by cases hm) fun _ ht => by cases ht
  | @begin who call idle =>
    refine .of_plain (fun _ _ hm => by cases hm) fun t ht => ?_
    cases ht
    exact a.monitor.plain_begin a.now call
  | ask => exact .of_plain (fun _ _ hm => by cases hm) fun _ ht => by cases ht
  | @resume who stage answer waits meets ready promised =>
    by_cases hcleaned : ∃ results, answer = .cleaned results
    · obtain ⟨results, rfl⟩ := hcleaned
      exact .of_cleaned hpolicy waits meets promised htagged rfl
    · have hother : ∀ results, answer ≠ .cleaned results := fun results heq =>
        hcleaned ⟨results, heq⟩
      refine .of_plain (fun who' results hm => ?_) fun t ht => ?_
      · cases hm
        exact hother results rfl
      · unfold turn? at ht
        simp only [waits, Option.map_some] at ht
        cases ht
        exact a.monitor.plain_resume a.now stage hother
  | drop => exact .of_plain (fun _ _ hm => by cases hm) fun _ ht => by cases ht

end Steps

/-! ## 5. Runs -/

def along {α : Type} (shows : Interplay ι → Move ι → List α) :
    Interplay ι → List (Move ι) → List α
  | _, [] => []
  | w, m :: ms => shows w m ++ along shows (w.make m) ms

section Runs

variable {promise : Stage → Answer → Prop} {a b : Interplay ι} {ms : List (Move ι)}

theorem mem_along {α : Type} {shows : Interplay ι → Move ι → List α} {x : α}
    (h : x ∈ along shows a ms) : ∃ w m, x ∈ shows w m := by
  induction ms generalizing a with
  | nil => cases h
  | cons m ms ih =>
    rcases List.mem_append.1 h with hfirst | hlater
    · exact ⟨a, m, hfirst⟩
    · exact ih hlater

/-- **Nothing is dropped** where no caller gives up. -/
theorem along_dropped (h : ∀ who, .drop who ∉ ms) : along dropped a ms = [] := by
  induction ms generalizing a with
  | nil => rfl
  | cons m ms ih =>
    have hlater : ∀ who, .drop who ∉ ms := fun who hmem => h who (List.mem_cons_of_mem m hmem)
    have hfirst : a.dropped m = [] := by
      cases m with
      | drop who => exact absurd List.mem_cons_self (h who)
      | pass | hear | begin | ask | resume => rfl
    rw [along, hfirst, ih hlater]
    rfl

theorem Run.fifo (h : Run promise a ms b) :
    a.monitor.completed ++ along queued a ms = along taken a ms ++ b.monitor.completed := by
  induction h with
  | nil w => exact List.append_nil _
  | @cons a c b m ms first rest ih =>
    rw [along, along, first.make_eq, ← List.append_assoc, first.fifo, List.append_assoc, ih,
      List.append_assoc]

theorem Run.balance (hpolicy : Deployment.Conserves promise) (h : Run promise a ms b) :
    (along news a ms ++ (a.monitor.completed ++ inPasses a.calls)).Perm
      (b.monitor.completed ++ inPasses b.calls ++ (along cleaned a ms ++ along dropped a ms)) := by
  induction h with
  | nil w => exact .of_eq (List.append_nil _).symm
  | @cons a c b m ms first rest ih =>
    have hfirst := first.balance hpolicy
    rw [along, along, along, first.make_eq]
    rw [List.perm_iff_count] at ih hfirst ⊢
    intro q
    have hrest := ih q
    have hfirst := hfirst q
    simp only [List.count_append] at hrest hfirst ⊢
    omega

theorem Run.split {before after : List (Move ι)} {m : Move ι}
    (h : Run promise a (before ++ m :: after) b) :
    ∃ c d, Run promise a before c ∧ Step promise c m d ∧ Run promise d after b := by
  induction before generalizing a with
  | nil =>
    cases h with
    | cons first rest => exact ⟨a, _, .nil a, first, rest⟩
  | cons m' before ih =>
    cases h with
    | cons first rest =>
      obtain ⟨c, d, hbefore, hstep, hafter⟩ := ih rest
      exact ⟨c, d, .cons first hbefore, hstep, hafter⟩

/-- **A pass that is under way** has the batch that a move of the run took. -/
theorem Run.took (h : Run promise a ms b) (hidle : a.calls = .empty) {who : ι} {stage : Stage}
    (hstage : b.calls.get? who = some stage) :
    ∃ before m after c, ms = before ++ m :: after ∧ Run promise a before c ∧
      c.taken m = stage.batch := by
  have hplay : ∀ {p : Interplay ι} {m : Move ι} {other : ι} {t : Turn}, p.turn? m = some t →
      (p.play other t).calls.get? who = some stage →
      p.taken m = stage.batch ∨ p.calls.get? who = some stage ∧ True := by
    intro p m other t hturn hwaits
    rcases waiting_of_play hwaits with ⟨-, hnext⟩ | ⟨-, hbefore⟩
    · left
      unfold taken
      simp only [hturn, hnext, Next.batch]
    · exact .inr ⟨hbefore, trivial⟩
  have hstep : ∀ {p q : Interplay ι} {m : Move ι}, Step promise p m q →
      q.calls.get? who = some stage →
      p.taken m = stage.batch ∨ p.calls.get? who = some stage ∧ True := by
    intro p q m hstep hq
    cases hstep with
    | pass => exact .inr ⟨hq, trivial⟩
    | hear => exact .inr ⟨hq, trivial⟩
    | begin => exact hplay rfl hq
    | ask => exact .inr ⟨hq, trivial⟩
    | resume waits =>
      refine hplay ?_ hq
      unfold turn?
      simp only [waits, Option.map_some]
    | drop => exact .inr ⟨Catalog.get?_of_erase hq, trivial⟩
  -- the last move that led to the stage took its batch
  rcases h.since hstep hstage with ⟨ha, -⟩ | ⟨p, q, before, m, after, hms, hbefore, htook, -⟩
  · rw [hidle] at ha
    cases ha
  · exact ⟨before, m, after, p, hms, hbefore, htook⟩

/-- From a start on, what is queued or in a pass came in. -/
theorem Run.tagged (hpolicy : Deployment.Conserves promise) (h : Run promise a ms b)
    (hqueue : a.monitor.completed = []) (hcalls : inPasses a.calls = []) {r : Record}
    (hr : r ∈ b.monitor.completed ++ inPasses b.calls) : Tagged r := by
  have hbalance := h.balance hpolicy
  rw [hqueue, hcalls] at hbalance
  have hnews : r ∈ along news a ms := by
    have hmem := hbalance.mem_iff.2 (List.mem_append_left _ hr)
    rwa [List.append_nil, List.append_nil] at hmem
  obtain ⟨w, m, hw⟩ := mem_along hnews
  exact tagged_news hw

end Runs

/-! ## 6. Policies that treat one record at a time -/

/-- **A policy that delegates** treats the records of a batch one after the other. -/
def Delegates (treat : CleanupPolicy.Treatment) (stage : Stage) (answer : Answer) : Prop :=
  ∀ config records, stage.need config = .cleanup records →
    ∃ v, answer = .cleaned (CleanupPolicy.batch treat v records).2.1

theorem conserves_delegates (treat : CleanupPolicy.Treatment) :
    Deployment.Conserves (Delegates treat) := by
  intro config stage records answer hneed hdelegates
  obtain ⟨v, rfl⟩ := hdelegates config records hneed
  exact ⟨_, rfl, .of_eq (CleanupPolicy.map_fst_batch treat v records)⟩

/-- **Passes conserve records,** in every run of a monitor from its start, with a policy that gives
    each record of a batch back once.  What is queued or in a pass is tagged.  The queue is served
    in its order: the batches that were taken, and then what is still queued, are all that was put
    into it.  What came in is queued, in a pass or cleaned, or its caller gave up the pass it was
    in.  Each pass that ends writes its successes and queues its failures again, other turns write
    nothing, and no record without a key is ever met; every pass has a batch that was taken.  A
    policy that treats one record at a time gives the records back in their order, each with the
    outcome of its own treatment. -/
theorem passes_conserve {promise : Stage → Answer → Prop} (hpolicy : Deployment.Conserves promise)
    {now : Nat} {config : Config} {keyOf : KeyRule} {listing : String} {ms : List (Move ι)}
    {b : Interplay ι} (h : Run promise (start now config keyOf listing) ms b) :
    let a : Interplay ι := start now config keyOf listing
    (∀ r ∈ b.monitor.completed ++ inPasses b.calls, Tagged r) ∧
      along queued a ms = along taken a ms ++ b.monitor.completed ∧
      (along news a ms).Perm
        (b.monitor.completed ++ inPasses b.calls ++ (along cleaned a ms ++ along dropped a ms)) ∧
      ((∀ who, .drop who ∉ ms) → along dropped a ms = []) ∧
      (∀ before m after, ms = before ++ m :: after →
        ∃ c d, Run promise a before c ∧ Step promise c m d ∧ Run promise d after b ∧
          Handles c m d ∧
          ∀ who stage, c.calls.get? who = some stage → ∃ earlier m' later e,
            before = earlier ++ m' :: later ∧ Run promise a earlier e ∧
              e.taken m' = stage.batch) ∧
      ∀ treat : CleanupPolicy.Treatment, Deployment.Conserves (Delegates treat) ∧
        ∀ v xs r ys,
          (CleanupPolicy.batch treat v (xs ++ r :: ys)).2.1.map Prod.fst = xs ++ r :: ys ∧
          (CleanupPolicy.batch treat v (xs ++ r :: ys)).2.1[xs.length]? =
            some (r, CleanupPolicy.outcomeOf (treat (CleanupPolicy.batch treat v xs).1 r).2) := by
  intro a
  refine ⟨fun r hr => h.tagged hpolicy rfl rfl hr, h.fifo, ?_, along_dropped, ?_, fun treat => ?_⟩
  · have hbalance : (along news a ms ++ []).Perm _ := h.balance hpolicy
    rwa [List.append_nil] at hbalance
  · rintro before m after rfl
    obtain ⟨c, d, hbefore, hstep, hafter⟩ := h.split
    refine ⟨c, d, hbefore, hstep, hafter, hstep.handles hpolicy fun r hr => ?_,
      fun who stage hstage => hbefore.took rfl hstage⟩
    exact hbefore.tagged hpolicy rfl rfl (List.mem_append_right _ hr)
  · refine ⟨conserves_delegates treat, fun v xs r ys => ⟨?_, ?_⟩⟩
    · exact CleanupPolicy.map_fst_batch treat v _
    · exact CleanupPolicy.getElem?_batch treat v r xs ys

/-- Two passes overlap: the first fails for one of its records, behind the news of a third. -/
theorem passes_conserve_overlapping :
    let promise : Stage → Answer → Prop := fun stage answer =>
      Deployment.inOrder stage answer = true
    let done (name : String) : Record :=
      .new ⟨⟨"file", none, "/" ++ name, none, none⟩, name, 1, default, none⟩ .completed
    let kept (name : String) : Record := (done name).withKey ⟨name⟩
    let heard (name : String) : Move Nat := .hear ⟨⟨name⟩, some (done name)⟩
    let ms : List (Move Nat) :=
      [heard "a", heard "b", .begin 0 .tick, heard "c", .begin 1 .cleanup, heard "d",
        .resume 0 (.cleaned [(kept "a", .succeed), (kept "b", .fail)]),
        .resume 1 (.cleaned [(kept "c", .succeed)])]
    let a : Interplay Nat := start 0 {} (fun m => .ok ⟨m.name⟩) "files"
    ∃ b, Deployment.Conserves promise ∧ Run promise a ms b ∧
      b.monitor.completed = [kept "d", kept "b"] ∧
      along queued a ms = along taken a ms ++ [kept "d", kept "b"] ∧
      along cleaned a ms = [kept "a", kept "c"] ∧
      (along news a ms).Perm
        (b.monitor.completed ++ inPasses b.calls ++ along cleaned a ms) := by
  intro promise done kept heard ms a
  let b := (a.moves? Deployment.inOrder ms).get (by decide +kernel)
  have hrun : Run promise a ms b := .of_moves? (Option.some_get _).symm
  have hqueue : b.monitor.completed = [kept "d", kept "b"] := by decide +kernel
  have hcleaned : along cleaned a ms = [kept "a", kept "c"] := by decide +kernel
  obtain ⟨-, hfifo, hbalance, hdropped, -⟩ := passes_conserve Deployment.conserves_inOrder hrun
  have hstays : ∀ who, .drop who ∉ ms := by
    intro who hmem
    simp [ms, heard] at hmem
  rw [hdropped hstays, List.append_nil] at hbalance
  refine ⟨b, Deployment.conserves_inOrder, hrun, hqueue, ?_, hcleaned, hbalance⟩
  rw [← hqueue]
  exact hfifo

end Interplay

end Intake
