import Intake.Monitor.Call

/-!
# Turns — what one turn of a call changes

Whatever a call waits for, its next turn changes little.  The settings never change; the work that
is scanned and handed out changes only in turns of calls that hold the gate
(`Unmoved.resume`), and there in few ways (`pullSynced_settled`, `pullSynced_again`,
`pullSynced_aborted`, `scanListed_cases`).
-/

namespace Intake

/-! ## 1. Turns, refreshes and cleanups in closed form -/

def Answer.meets : Answer → Need → Bool
  | refreshed _, .refresh _ => true
  | cleaned _, .cleanup _ => true
  | listed _ _, .listing => true
  | woken, .files _ => true
  | entered, .gate => true
  | brokenDown, .refresh _ => true
  | brokenDown, .cleanup _ => true
  | brokenDown, .listing => true
  | _, _ => false

namespace Turn

variable (m : Monitor) (es : List Effect) (t : Turn)

@[simp] theorem monitor_finish (r : Reply) : (finish m r).monitor = m := rfl
@[simp] theorem monitor_wait (s : Stage) : (wait m s).monitor = m := rfl
@[simp] theorem monitor_after : (t.after es).monitor = t.monitor := rfl
@[simp] theorem next_finish (r : Reply) : (finish m r).next = .finished r := rfl
@[simp] theorem next_wait (s : Stage) : (wait m s).next = .waiting s := rfl
@[simp] theorem next_after : (t.after es).next = t.next := rfl
@[simp] theorem effects_finish (r : Reply) : (finish m r).effects = [] := rfl
@[simp] theorem effects_wait (s : Stage) : (wait m s).effects = [] := rfl
@[simp] theorem effects_after : (t.after es).effects = es ++ t.effects := rfl

/-- **What a turn hands out:** if it ends a pull, the keys whose scheduled files are in the batch
    that the pull returns. -/
def handedOut : List PartitionKey :=
  match t.next with
  | .finished (.groups groups) =>
    (t.monitor.scheduled.filter fun _ file => groups.flatten.contains file.uri).keys
  | _ => []

theorem mem_handedOut_iff {t : Turn} {k : PartitionKey} :
    k ∈ t.handedOut ↔ ∃ groups file, t.next = .finished (.groups groups) ∧
      t.monitor.scheduled.get? k = some file ∧ file.uri ∈ groups.flatten := by
  constructor
  · intro hk
    unfold handedOut at hk
    split at hk
    next groups hnext =>
      rw [Catalog.mem_keys_iff, Catalog.contains_eq_isSome, Catalog.get?_filter,
        Option.isSome_iff_exists] at hk
      obtain ⟨file, hfile⟩ := hk
      rw [Option.filter_eq_some_iff] at hfile
      exact ⟨groups, file, hnext, hfile.1, List.contains_iff_mem.1 hfile.2⟩
    next => cases hk
  · rintro ⟨groups, file, hnext, hfile, hmem⟩
    have hin : groups.flatten.contains file.uri = true := List.contains_iff_mem.2 hmem
    simp only [handedOut, hnext]
    rw [Catalog.mem_keys_iff, Catalog.contains_eq_isSome, Catalog.get?_filter, hfile,
      Option.filter_some, if_pos hin]
    rfl

end Turn

namespace Monitor

def newest (m : Monitor) : Except StoreError Snapshot → Snapshot
  | .ok s => s
  | .error _ => m.snapshot

def syncEffects (timeoutMs : Nat) : Except StoreError Snapshot → List Effect
  | .ok _ => []
  | .error (.timeout _) => [.report (.logEndTooSlow timeoutMs)]
  | .error e => [.report (.logEndFailed e)]

theorem synced_eq (m : Monitor) (timeoutMs : Nat) (result : Except StoreError Snapshot) :
    m.synced timeoutMs result =
      (m.keepSnapshot (m.newest result), syncEffects timeoutMs result, result.isOk) := by
  cases result with
  | ok s => rfl
  | error cause => cases cause <;> rfl

def tidyEffect : Record × Outcome → Effect
  | (r, .succeed) =>
    match r.key with
    | some key => .write key (r.withStatus .cleaned)
    | none => .report (.cleanedWithoutKey r.metadata.uri)
  | (r, .fail) => .report (.cleanupPostponed r.metadata.uri)

/-- **A cleanup in closed form:** failures are queued again in their order, and every result has
    one effect. -/
theorem tidied_eq (m : Monitor) (rs : CleanupResults) :
    m.tidied rs = ({ m with completed := m.completed ++ rs.failed }, rs.map tidyEffect) := by
  induction rs generalizing m with
  | nil => simp [tidied, CleanupResults.failed, CleanupResults.having]
  | cons e rest ih =>
    obtain ⟨r, outcome⟩ := e
    cases outcome with
    | succeed =>
      cases hk : r.key <;>
        simp [tidied, ih, tidyEffect, hk, CleanupResults.failed, CleanupResults.having]
    | fail =>
      simp [tidied, ih, tidyEffect, requeue, CleanupResults.failed, CleanupResults.having]

/-! ## 2. Turns outside the gate -/

def settings (m : Monitor) : Config × KeyRule × String := (m.config, m.keyOf, m.listing)

/-- **What only the holder of the gate changes,** and the settings, which nobody changes. -/
structure Unmoved (m m' : Monitor) : Prop where
  settings : m'.settings = m.settings
  scheduled : m'.scheduled = m.scheduled
  scanned : m'.scanned = m.scanned
  rescanAt : m'.rescanAt = m.rescanAt

theorem Unmoved.refl (m : Monitor) : Unmoved m m := ⟨rfl, rfl, rfl, rfl⟩

theorem Unmoved.trans {a b c : Monitor} (h : Unmoved a b) (h' : Unmoved b c) : Unmoved a c where
  settings := h'.settings.trans h.settings
  scheduled := h'.scheduled.trans h.scheduled
  scanned := h'.scanned.trans h.scanned
  rescanAt := h'.rescanAt.trans h.rescanAt

theorem Unmoved.scanIfRunning (m : Monitor) : Unmoved m m.scanIfRunning.monitor := by
  unfold Monitor.scanIfRunning
  split <;> exact .refl m

theorem Unmoved.begin (m : Monitor) (now : Nat) (call : Call) :
    Unmoved m (m.begin now call).monitor := by
  cases call with
  | startup => exact .refl m
  | tick =>
    simp only [Monitor.begin, beginTick]
    split
    · exact .scanIfRunning m
    · exact ⟨rfl, rfl, rfl, rfl⟩
  | pull g f =>
    simp only [Monitor.begin, beginPull]
    split <;> exact ⟨rfl, rfl, rfl, rfl⟩
  | cleanup =>
    simp only [Monitor.begin]
    split <;> exact ⟨rfl, rfl, rfl, rfl⟩
  | sync t => exact .refl m
  | close =>
    simp only [Monitor.begin, beginClose]
    split <;> exact ⟨rfl, rfl, rfl, rfl⟩

theorem Unmoved.scanEntered (m : Monitor) : Unmoved m m.scanEntered.monitor := by
  unfold Monitor.scanEntered
  split <;> exact .refl m

theorem Unmoved.scanSynced (m : Monitor) (idle : Bool) (result : Except StoreError Snapshot) :
    Unmoved m (m.scanSynced idle result).monitor := by
  simp only [Monitor.scanSynced, synced_eq]
  split <;> exact ⟨rfl, rfl, rfl, rfl⟩

/-- A pull that finds nothing forgets a scan that is empty anyway. -/
theorem Unmoved.pullEntered (m : Monitor) (g f : Nat) : Unmoved m (m.pullEntered g f).monitor := by
  unfold Monitor.pullEntered
  split
  next hempty =>
    have hscanned : m.scanned = .empty := Catalog.eq_empty_of_isEmpty hempty
    exact ⟨rfl, rfl, hscanned.symm, rfl⟩
  next => exact ⟨rfl, rfl, rfl, rfl⟩

theorem Unmoved.closeSynced (m : Monitor) (result : Except StoreError Snapshot) :
    Unmoved m (m.closeSynced result).monitor := by
  simp only [Monitor.closeSynced, synced_eq]
  split <;> exact ⟨rfl, rfl, rfl, rfl⟩

/-- **A turn from a stage that does not hold the gate** leaves the work alone. -/
theorem Unmoved.resume (m : Monitor) (now : Nat) {stage : Stage} (answer : Answer)
    (h : stage.holdsGate = false) : Unmoved m (m.resume now stage answer).monitor := by
  unfold Monitor.resume
  -- one case for each stage with the answer that it waits for
  split
  case h_1 => simp only [synced_eq]; exact ⟨rfl, rfl, rfl, rfl⟩
  case h_2 results =>
    -- a tick may go on to a scan behind its cleanup
    simp only [tidied_eq]
    exact .trans (b := { m with completed := m.completed ++ results.failed })
      ⟨rfl, rfl, rfl, rfl⟩ (.scanIfRunning _)
  case h_3 => exact .scanEntered m
  case h_4 idle result => exact .scanSynced m idle result
  -- the listing of a scan and the refresh of a pull hold the gate
  case h_5 => exact absurd h (by simp [Stage.holdsGate])
  case h_6 => exact .refl m
  case h_7 g f => exact .pullEntered m g f
  case h_8 => exact absurd h (by simp [Stage.holdsGate])
  case h_9 => simp only [tidied_eq]; exact ⟨rfl, rfl, rfl, rfl⟩
  case h_10 => simp only [synced_eq]; exact ⟨rfl, rfl, rfl, rfl⟩
  case h_11 result => exact .closeSynced m result
  case h_12 => simp only [tidied_eq]; exact ⟨rfl, rfl, rfl, rfl⟩
  -- break-downs, and answers that do not fit
  all_goals exact .refl m

/-! ## 3. Coming to hold the gate -/

theorem holdsGate_scanIfRunning (m : Monitor) : m.scanIfRunning.next.holdsGate = false := by
  unfold Monitor.scanIfRunning
  split <;> rfl

theorem holdsGate_begin (m : Monitor) (now : Nat) (call : Call) :
    (m.begin now call).next.holdsGate = false := by
  cases call with
  | startup => rfl
  | tick =>
    simp only [begin, beginTick]
    split
    · exact holdsGate_scanIfRunning m
    · rfl
  | pull g f => simp only [begin, beginPull]; split <;> rfl
  | cleanup => simp only [begin]; split <;> rfl
  | sync t => rfl
  | close => simp only [begin, beginClose]; split <;> rfl

/-- **A call comes to hold the gate** by being let in: as a scan that may scan, or as a pull that
    finds files. -/
theorem holdsGate_resume (m : Monitor) (now : Nat) {stage : Stage} {answer : Answer}
    (hs : stage.holdsGate = false) (hn : (m.resume now stage answer).next.holdsGate = true) :
    answer = .entered ∧
      ((stage = .scanGate ∧ m.mayScan = true) ∨
        ∃ g f, stage = .pullGate g f ∧ m.scanned.isEmpty = false) := by
  unfold Monitor.resume at hn
  split at hn
  case h_1 => simp only [synced_eq] at hn; cases hn
  case h_2 =>
    simp only [tidied_eq, Turn.next_after, holdsGate_scanIfRunning] at hn
    cases hn
  case h_3 =>
    -- a scan is let in
    refine ⟨rfl, .inl ⟨rfl, ?_⟩⟩
    cases hmay : m.mayScan with
    | true => rfl
    | false => simp [scanEntered, hmay, Next.holdsGate] at hn
  case h_7 g f =>
    -- a pull is let in
    refine ⟨rfl, .inr ⟨g, f, rfl, ?_⟩⟩
    cases hempty : m.scanned.isEmpty with
    | false => rfl
    | true => simp [pullEntered, hempty, endPull, Next.holdsGate] at hn
  case h_11 =>
    simp only [closeSynced, synced_eq] at hn
    split at hn <;> cases hn
  -- stages that hold the gate already
  case h_4 => cases hs
  case h_5 => cases hs
  case h_8 => cases hs
  case h_9 => simp only [tidied_eq] at hn; cases hn
  case h_10 => simp only [synced_eq] at hn; cases hn
  case h_12 => simp only [tidied_eq] at hn; cases hn
  case h_16 => exact absurd (hn.symm.trans hs) (by decide)
  all_goals cases hn

/-! ## 4. Scans behind the gate -/

@[simp] theorem scheduled_publishAndRequest (m : Monitor) (c : Catalog PartitionKey Metadata) :
    (m.publishAndRequest c).monitor.scheduled = m.scheduled := by
  simp only [publishAndRequest]
  split <;> rfl

@[simp] theorem settings_publishAndRequest (m : Monitor) (c : Catalog PartitionKey Metadata) :
    (m.publishAndRequest c).monitor.settings = m.settings := by
  simp only [publishAndRequest]
  split <;> rfl

@[simp] theorem scanned_publishAndRequest (m : Monitor) (c : Catalog PartitionKey Metadata) :
    (m.publishAndRequest c).monitor.scanned = m.scanned.insertAll c.entries := by
  simp only [publishAndRequest]
  split <;> rfl

@[simp] theorem next_publishAndRequest (m : Monitor) (c : Catalog PartitionKey Metadata) :
    (m.publishAndRequest c).next = .finished .done := by
  simp only [publishAndRequest]
  split <;> rfl

/-- **After a listing** a scan leaves the work alone, perhaps setting the time of the next
    publication, or it publishes the candidates of the listing. -/
theorem scanListed_cases (m : Monitor) (now : Nat) (idle : Bool)
    (result : Except Error (List Metadata)) (snapshot : Snapshot) :
    (∃ time, (m.scanListed now idle result snapshot).monitor = { m with rescanAt := time }) ∨
      ∃ listed candidates, result = .ok listed ∧
        Candidates.select m.keyOf snapshot listed = .ok candidates ∧
        m.scanListed now idle result snapshot = m.publishAndRequest candidates := by
  unfold scanListed
  split
  next cause => exact .inl ⟨m.rescanAt, rfl⟩
  next listed =>
    cases hselect : Candidates.select m.keyOf snapshot listed with
    | error r => exact .inl ⟨m.rescanAt, rfl⟩
    | ok candidates =>
      have hpublish : ∃ listed' candidates', Except.ok (ε := Error) listed = .ok listed' ∧
          Candidates.select m.keyOf snapshot listed' = .ok candidates' ∧
          m.publishAndRequest candidates = m.publishAndRequest candidates' :=
        ⟨listed, candidates, rfl, hselect, rfl⟩
      simp only [takeCandidates]
      split
      · -- next to files that are handed out, new ones are published only when their delay is over
        split
        · exact .inr hpublish
        · split
          · exact .inl ⟨m.rescanAt, rfl⟩
          · split
            · exact .inl ⟨_, rfl⟩
            · exact .inr hpublish
      · exact .inr hpublish

theorem next_scanListed (m : Monitor) (now : Nat) (idle : Bool)
    (result : Except Error (List Metadata)) (snapshot : Snapshot) :
    (m.scanListed now idle result snapshot).next = .finished .done := by
  unfold scanListed
  split
  · rfl
  · split
    · rfl
    · simp only [takeCandidates]
      repeat' split
      all_goals first | rfl | exact next_publishAndRequest _ _

/-! ## 5. Attempts of a pull -/

/-- The files of an attempt come from those that wait to be handed out. -/
theorem mem_candidates_of_mem_staged {m : Monitor} {f : Nat} {e : PartitionKey × Metadata}
    (h : e ∈ m.staged f) : e ∈ m.candidates := by
  simp only [staged] at h
  split at h
  · exact List.mem_mergeSort.1 (List.mem_of_mem_take h)
  · exact h

theorem get?_scheduled_of_mem_staged {m : Monitor} {f : Nat} {e : PartitionKey × Metadata}
    (h : e ∈ m.staged f) : m.scheduled.get? e.1 = none := by
  have hc := mem_candidates_of_mem_staged h
  unfold candidates at hc
  have hnot := (List.mem_filter.1 hc).2
  simpa [Catalog.contains_eq_isSome] using hnot

theorem nodup_staged (m : Monitor) (f : Nat) : ((m.staged f).map Prod.fst).Nodup := by
  have hcandidates : (m.candidates.map Prod.fst).Nodup :=
    (List.filter_sublist.map Prod.fst).nodup m.scanned.distinct
  simp only [staged]
  split
  · -- a part of the candidates in another order
    have hsorted := ((List.mergeSort_perm m.candidates
      fun a b => a.2.precedes b.2).map Prod.fst).nodup_iff.2 hcandidates
    exact ((List.take_sublist f _).map Prod.fst).nodup hsorted
  · exact hcandidates

def proposed (m : Monitor) (maxFiles : Nat) : Catalog PartitionKey Metadata :=
  m.scheduled.insertAll (m.staged maxFiles)

theorem entries_proposed (m : Monitor) (f : Nat) :
    (m.proposed f).entries = m.scheduled.entries ++ m.staged f := by
  refine Catalog.entries_insertAll_of_new (fun e he => ?_) (m.nodup_staged f)
  rw [Catalog.contains_eq_isSome, get?_scheduled_of_mem_staged he]
  rfl

/-- **Taking an attempt back** leaves what was handed out before it. -/
theorem scheduled_unstage_stage (m : Monitor) (f : Nat) :
    ((m.stage (m.staged f)).unstage ((m.staged f).map Prod.fst)).scheduled = m.scheduled := by
  let isOld (e : PartitionKey × Metadata) : Bool := !((m.staged f).map Prod.fst).contains e.1
  have hold : m.scheduled.entries.filter isOld = m.scheduled.entries := by
    refine List.filter_eq_self.2 fun e he => ?_
    rw [Bool.not_eq_true', ← Bool.not_eq_true, List.contains_iff_mem]
    intro hmem
    -- a staged key was not handed out before
    obtain ⟨e', he', hkey⟩ := List.mem_map.1 hmem
    have hnone := get?_scheduled_of_mem_staged he'
    rw [hkey, (Catalog.mem_entries_iff _).1 he] at hnone
    cases hnone
  have hnew : (m.staged f).filter isOld = [] := by
    refine List.filter_eq_nil_iff.2 fun e he => ?_
    simp only [isOld, Bool.not_eq_true', Bool.not_eq_false, List.contains_iff_mem]
    exact List.mem_map_of_mem he
  apply Catalog.eq_of_entries
  show (m.proposed f).entries.filter isOld = _
  rw [entries_proposed, List.filter_append, hold, hnew, List.append_nil]

section Attempts

variable (m : Monitor) (g f attempt : Nat) (result : Except StoreError Snapshot)

/-- **An attempt settles** if no scanned file was finished meanwhile. -/
theorem pullSynced_settled (h : m.changed = false) :
    (m.pullSynced g f attempt result).monitor =
        { m with
          snapshot := m.newest result, scheduled := m.proposed f
          scanned := .empty, requested := false } ∧
      (m.pullSynced g f attempt result).next =
        .finished (.groups (Groups.byAge (m.proposed f).values g)) := by
  have hchanged : (m.keepSnapshot (m.newest result)).changed = false := h
  simp only [pullSynced, synced_eq, hchanged, Progress.prepared, Progress.validated]
  exact ⟨rfl, rfl⟩

/-- **An attempt is made again** if some was, while attempts are left. -/
theorem pullSynced_again (h : m.changed = true) (hleft : attempt < maxAttempts) :
    (m.pullSynced g f attempt result).monitor =
        { (m.stage (m.staged f)).unstage ((m.staged f).map Prod.fst) with
          snapshot := m.newest result, changed := false } ∧
      (m.pullSynced g f attempt result).next = .waiting (.pullSync g f (attempt + 1)) := by
  have hchanged : (m.keepSnapshot (m.newest result)).changed = true := h
  have hnot : ¬ attempt ≥ maxAttempts := by omega
  simp only [pullSynced, synced_eq, hchanged, Progress.prepared, Progress.validated, hnot]
  exact ⟨rfl, rfl⟩

/-- **The last attempt gives up** and takes back everything that is handed out. -/
theorem pullSynced_aborted (h : m.changed = true) (hleft : maxAttempts ≤ attempt) :
    (m.pullSynced g f attempt result).monitor =
        { m with
          snapshot := m.newest result, scheduled := .empty, scanned := .empty
          requested := false } ∧
      (m.pullSynced g f attempt result).next = .finished (.groups []) := by
  have hchanged : (m.keepSnapshot (m.newest result)).changed = true := h
  simp only [pullSynced, synced_eq, hchanged, Progress.prepared, Progress.validated,
    show attempt ≥ maxAttempts from hleft]
  exact ⟨rfl, rfl⟩

/-- **What becomes of an attempt:** it settles, is made again, or gives up. -/
theorem pullSynced_cases :
    (m.changed = false ∧
      (m.pullSynced g f attempt result).monitor =
        { m with
          snapshot := m.newest result, scheduled := m.proposed f
          scanned := .empty, requested := false } ∧
      (m.pullSynced g f attempt result).next =
        .finished (.groups (Groups.byAge (m.proposed f).values g))) ∨
    (m.changed = true ∧ attempt < maxAttempts ∧
      (m.pullSynced g f attempt result).monitor =
        { (m.stage (m.staged f)).unstage ((m.staged f).map Prod.fst) with
          snapshot := m.newest result, changed := false } ∧
      (m.pullSynced g f attempt result).next = .waiting (.pullSync g f (attempt + 1))) ∨
    (m.changed = true ∧ maxAttempts ≤ attempt ∧
      (m.pullSynced g f attempt result).monitor =
        { m with
          snapshot := m.newest result, scheduled := .empty, scanned := .empty
          requested := false } ∧
      (m.pullSynced g f attempt result).next = .finished (.groups [])) := by
  by_cases hchanged : m.changed = true
  · rcases Nat.lt_or_ge attempt maxAttempts with hleft | hleft
    · have hagain := pullSynced_again m g f attempt result hchanged hleft
      exact .inr (.inl ⟨hchanged, hleft, hagain⟩)
    · have haborted := pullSynced_aborted m g f attempt result hchanged hleft
      exact .inr (.inr ⟨hchanged, hleft, haborted⟩)
  · have hquiet : m.changed = false := Bool.eq_false_iff.2 hchanged
    exact .inl ⟨hquiet, pullSynced_settled m g f attempt result hquiet⟩

theorem snapshot_pullSynced :
    (m.pullSynced g f attempt result).monitor.snapshot = m.newest result := by
  rcases m.pullSynced_cases g f attempt result with
    ⟨-, hm, -⟩ | ⟨-, -, hm, -⟩ | ⟨-, -, hm, -⟩
  · rw [hm]
  · rw [hm]
  · rw [hm]

end Attempts

/-! ## 6. All turns -/

inductive Behind (m : Monitor) (now : Nat) : Stage → Answer → Turn → Prop where
  | scanSynced (idle : Bool) (result : Except StoreError Snapshot) :
      Behind m now (.scanSync idle) (.refreshed result) (m.scanSynced idle result)
  | scanListed (idle : Bool) (result : Except Error (List Metadata)) (snapshot : Snapshot) :
      Behind m now (.scanListing idle) (.listed result snapshot)
        (m.scanListed now idle result snapshot)
  | pullSynced (maxGroups maxFiles attempt : Nat) (result : Except StoreError Snapshot) :
      Behind m now (.pullSync maxGroups maxFiles attempt) (.refreshed result)
        (m.pullSynced maxGroups maxFiles attempt result)
  | brokenDown (stage : Stage) : Behind m now stage .brokenDown (.finish m .brokenDown)
  | waiting (stage : Stage) (answer : Answer) : Behind m now stage answer (.wait m stage)

theorem behind_resume (m : Monitor) (now : Nat) {stage : Stage} (answer : Answer)
    (h : stage.holdsGate = true) : m.Behind now stage answer (m.resume now stage answer) := by
  cases stage
  case scanSync idle => cases answer <;> constructor
  case scanListing idle => cases answer <;> constructor
  case pullSync g f attempt => cases answer <;> constructor
  -- no other stage holds the gate
  all_goals cases h

/-- **No turn changes the settings.** -/
theorem settings_resume (m : Monitor) (now : Nat) (stage : Stage) (answer : Answer) :
    (m.resume now stage answer).monitor.settings = m.settings := by
  cases hs : stage.holdsGate with
  | false => exact (Unmoved.resume m now answer hs).settings
  | true =>
    have hbehind := m.behind_resume now answer hs
    generalize m.resume now stage answer = t at hbehind ⊢
    cases hbehind with
    | scanSynced idle result => exact (Unmoved.scanSynced m idle result).settings
    | scanListed idle result snapshot =>
      rcases scanListed_cases m now idle result snapshot with ⟨time, h⟩ | ⟨_, c, _, _, h⟩
      · rw [h]
        rfl
      · rw [h, settings_publishAndRequest]
    | pullSynced g f attempt result =>
      rcases m.pullSynced_cases g f attempt result with
        ⟨-, hm, -⟩ | ⟨-, -, hm, -⟩ | ⟨-, -, hm, -⟩ <;> rw [hm] <;> rfl
    | brokenDown => rfl
    | waiting => rfl

/-- **What a turn does to what is handed out:** it keeps it, or a pull ends.  Then its attempt
    settles, or it gives up and takes everything back. -/
theorem handedOut_resume (m : Monitor) (now : Nat) (stage : Stage) (answer : Answer) :
    (∀ k, (m.resume now stage answer).monitor.scheduled.get? k = m.scheduled.get? k) ∨
      ∃ g f attempt result, stage = .pullSync g f attempt ∧ answer = .refreshed result ∧
        (m.resume now stage answer).monitor.scanned = .empty ∧
        (m.resume now stage answer).next.holdsGate = false ∧
        (m.changed = false ∧ (m.resume now stage answer).monitor.scheduled = m.proposed f ∨
          m.changed = true ∧ maxAttempts ≤ attempt ∧
            (m.resume now stage answer).monitor.scheduled = .empty) := by
  cases hs : stage.holdsGate with
  | false =>
    -- who does not hold the gate moves none of the sets
    left
    intro k
    rw [(Unmoved.resume m now answer hs).scheduled]
  | true =>
    have hbehind := m.behind_resume now answer hs
    generalize m.resume now stage answer = t at hbehind ⊢
    cases hbehind with
    | scanSynced idle result =>
      left
      intro k
      rw [(Unmoved.scanSynced m idle result).scheduled]
    | scanListed idle result snapshot =>
      left
      intro k
      rcases scanListed_cases m now idle result snapshot with ⟨time, h⟩ | ⟨_, c, _, _, h⟩
      · rw [h]
      · rw [h, scheduled_publishAndRequest]
    | pullSynced g f attempt result =>
      rcases m.pullSynced_cases g f attempt result with
        ⟨hquiet, hm, hn⟩ | ⟨-, -, hm, -⟩ | ⟨hchanged, hlast, hm, hn⟩
      · right
        rw [hm, hn]
        exact ⟨g, f, attempt, result, rfl, rfl, rfl, rfl, .inl ⟨hquiet, rfl⟩⟩
      · -- only here the call goes on behind the gate, with what it took back
        left
        intro k
        rw [hm]
        exact congrArg (·.get? k) (scheduled_unstage_stage m f)
      · right
        rw [hm, hn]
        exact ⟨g, f, attempt, result, rfl, rfl, rfl, rfl, .inr ⟨hchanged, hlast, rfl⟩⟩
    | brokenDown => exact .inl fun k => rfl
    | waiting => exact .inl fun k => rfl

/-- **What is handed out** changes only where a pull ends and forgets the scan. -/
theorem scheduled_resume (m : Monitor) (now : Nat) (stage : Stage) (answer : Answer) :
    (∀ k, (m.resume now stage answer).monitor.scheduled.get? k = m.scheduled.get? k) ∨
      (m.resume now stage answer).monitor.scanned = .empty ∧
        (m.resume now stage answer).next.holdsGate = false := by
  rcases m.handedOut_resume now stage answer with
    hsame | ⟨_, _, _, _, -, -, hscanned, hnext, -⟩
  · exact .inl hsame
  · exact .inr ⟨hscanned, hnext⟩

/-- **What waits to be handed out** stays in a turn, is forgotten, or becomes more by the candidates
    of a listing. -/
theorem scanned_resume (m : Monitor) (now : Nat) (stage : Stage) (answer : Answer) :
    (m.resume now stage answer).monitor.scanned = m.scanned ∨
      (m.resume now stage answer).monitor.scanned = .empty ∨
      ∃ idle listed snapshot candidates, stage = .scanListing idle ∧
        answer = .listed (.ok listed) snapshot ∧
        Candidates.select m.keyOf snapshot listed = .ok candidates ∧
        (m.resume now stage answer).monitor.scanned = m.scanned.insertAll candidates.entries := by
  cases hs : stage.holdsGate with
  | false => exact .inl (Unmoved.resume m now answer hs).scanned
  | true =>
    have hbehind := m.behind_resume now answer hs
    generalize m.resume now stage answer = t at hbehind ⊢
    cases hbehind with
    | scanSynced idle result => exact .inl (Unmoved.scanSynced m idle result).scanned
    | scanListed idle result snapshot =>
      rcases scanListed_cases m now idle result snapshot with
        ⟨time, h⟩ | ⟨listed, c, rfl, hselect, h⟩
      · rw [h]
        exact .inl rfl
      · right
        right
        refine ⟨idle, listed, snapshot, c, rfl, rfl, hselect, ?_⟩
        rw [h, scanned_publishAndRequest]
    | pullSynced g f attempt result =>
      rcases m.pullSynced_cases g f attempt result with
        ⟨-, hm, -⟩ | ⟨-, -, hm, -⟩ | ⟨-, -, hm, -⟩
      · rw [hm]
        exact .inr (.inl rfl)
      · rw [hm]
        exact .inl rfl
      · rw [hm]
        exact .inr (.inl rfl)
    | brokenDown => exact .inl rfl
    | waiting => exact .inl rfl

/-- A file that is proposed waited for it, or is handed out. -/
theorem held_of_proposed {m : Monitor} {f : Nat} {k : PartitionKey} {file : Metadata}
    (h : (m.proposed f).get? k = some file) :
    m.scanned.get? k = some file ∨ m.scheduled.get? k = some file := by
  rcases Catalog.mem_or_get?_of_insertAll h with hstaged | hbefore
  · have hmem : (k, file) ∈ m.scanned.entries :=
      (List.mem_filter.1 (mem_candidates_of_mem_staged hstaged)).1
    exact .inl ((Catalog.mem_entries_iff m.scanned).1 hmem)
  · exact .inr hbefore

/-- A key that is proposed and was not handed out before waited for it. -/
theorem scanned_of_proposed {m : Monitor} {f : Nat} {k : PartitionKey}
    (h : m.scheduled.get? k = none) (h' : (m.proposed f).get? k ≠ none) :
    m.scanned.get? k ≠ none := by
  obtain ⟨file, hfile⟩ := Option.ne_none_iff_exists'.1 h'
  rcases held_of_proposed hfile with hwaits | hout
  · rw [hwaits]
    exact Option.some_ne_none file
  · cases h.symm.trans hout

/-- **Handing over.**  A key comes to be handed out only where an attempt of a pull settles, and it
    waited for that. -/
theorem settles_of_handedOver (m : Monitor) (now : Nat) {stage : Stage} {answer : Answer}
    {k : PartitionKey} (h : m.scheduled.get? k = none)
    (h' : (m.resume now stage answer).monitor.scheduled.get? k ≠ none) :
    m.scanned.get? k ≠ none ∧ m.changed = false ∧
      ∃ g f attempt result, stage = .pullSync g f attempt ∧ answer = .refreshed result := by
  rcases m.handedOut_resume now stage answer with
    hsame | ⟨g, f, attempt, result, hstage, hanswer, -, -, hends⟩
  · rw [hsame] at h'
    exact absurd h h'
  · rcases hends with ⟨hquiet, hm⟩ | ⟨-, -, hm⟩
    · rw [hm] at h'
      exact ⟨scanned_of_proposed h h', hquiet, g, f, attempt, result, hstage, hanswer⟩
    · rw [hm] at h'
      exact absurd (Catalog.get?_empty k) h'

/-- **Only a pull replies with groups,** as it is let in or behind the gate. -/
theorem pull_of_groups (m : Monitor) (now : Nat) {stage : Stage} {answer : Answer}
    {groups : List (List Uri)}
    (h : (m.resume now stage answer).next = .finished (.groups groups)) :
    (∃ g f, stage = .pullGate g f ∧ answer = .entered) ∨
      ∃ g f attempt result, stage = .pullSync g f attempt ∧ answer = .refreshed result := by
  unfold Monitor.resume at h
  split at h
  case h_7 g f => exact .inl ⟨g, f, rfl, rfl⟩
  case h_8 g f attempt result => exact .inr ⟨g, f, attempt, result, rfl, rfl⟩
  -- no other turn replies with groups
  case h_1 => simp only [synced_eq] at h; cases h
  case h_2 =>
    simp only [tidied_eq, scanIfRunning] at h
    split at h <;> cases h
  case h_3 => unfold scanEntered at h; split at h <;> cases h
  case h_4 =>
    simp only [scanSynced, synced_eq] at h
    split at h <;> cases h
  case h_5 => rw [next_scanListed] at h; cases h
  case h_9 => simp only [tidied_eq] at h; cases h
  case h_10 => simp only [synced_eq] at h; cases h
  case h_11 =>
    simp only [closeSynced, synced_eq] at h
    split at h <;> cases h
  case h_12 => simp only [tidied_eq] at h; cases h
  all_goals cases h

/-- **Only a pull behind the gate hands something out.** -/
theorem pullSync_of_groups (m : Monitor) (now : Nat) {stage : Stage} {answer : Answer}
    {groups : List (List Uri)} (hne : groups ≠ [])
    (h : (m.resume now stage answer).next = .finished (.groups groups)) :
    ∃ g f attempt, stage = .pullSync g f attempt := by
  rcases m.pull_of_groups now h with ⟨g, f, rfl, rfl⟩ | ⟨g, f, attempt, result, rfl, -⟩
  · -- a pull that finds no files replies with no groups
    change (m.pullEntered g f).next = _ at h
    unfold pullEntered at h
    split at h <;> cases h
    exact absurd rfl hne
  · exact ⟨g, f, attempt, rfl⟩

/-- A pull that ends in its first turn hands out nothing. -/
theorem groups_begin (m : Monitor) (now : Nat) {call : Call} {groups : List (List Uri)}
    (h : (m.begin now call).next = .finished (.groups groups)) : groups = [] := by
  cases call with
  | startup => cases h
  | tick =>
    simp only [begin, beginTick, scanIfRunning] at h
    split at h
    · split at h <;> cases h
    · cases h
  | pull g f =>
    simp only [begin, beginPull] at h
    split at h <;> cases h <;> rfl
  | cleanup =>
    simp only [begin] at h
    split at h <;> cases h
  | sync t => cases h
  | close =>
    simp only [begin, beginClose] at h
    split at h <;> cases h

/-! ## 7. News -/

theorem settings_observe (m : Monitor) (e : LogEntry) : (m.observe e).1.settings = m.settings := by
  fun_cases observe <;> rfl

/-- **News of a cleanup** take a key from what is handed out; other news take nothing. -/
theorem scheduled_observe (m : Monitor) (e : LogEntry) :
    (m.observe e).1.scheduled = m.scheduled ∨
      (∃ r, e.value = some r ∧ r.status = .cleaned) ∧
        (m.observe e).1.scheduled = m.scheduled.erase e.key := by
  fun_cases observe
  case case3 r hvalue _ hcleaned _ => exact .inr ⟨⟨r, hvalue, eq_of_beq hcleaned⟩, rfl⟩
  all_goals exact .inl rfl

/-- **News of finished work** take a key from what waits to be handed out; other news take
    nothing. -/
theorem scanned_observe (m : Monitor) (e : LogEntry) :
    (m.observe e).1.scanned = m.scanned ∨
      (∃ r, e.value = some r ∧ r.status.isCompleted = true) ∧
        (m.observe e).1.scanned = m.scanned.erase e.key := by
  fun_cases observe
  case case2 r hvalue hfinished => exact .inr ⟨⟨r, hvalue, hfinished⟩, rfl⟩
  all_goals exact .inl rfl

theorem get?_scheduled_of_observe {m : Monitor} {e : LogEntry} {k : PartitionKey} {file : Metadata}
    (h : (m.observe e).1.scheduled.get? k = some file) : m.scheduled.get? k = some file := by
  rcases m.scheduled_observe e with hsame | ⟨-, herased⟩
  · rwa [hsame] at h
  · rw [herased] at h
    exact Catalog.get?_of_erase h

theorem get?_scanned_of_observe {m : Monitor} {e : LogEntry} {k : PartitionKey} {file : Metadata}
    (h : (m.observe e).1.scanned.get? k = some file) : m.scanned.get? k = some file := by
  rcases m.scanned_observe e with hsame | ⟨-, herased⟩
  · rwa [hsame] at h
  · rw [herased] at h
    exact Catalog.get?_of_erase h

/-- News hand out no files, and find none. -/
theorem isEmpty_scheduled_observe {m : Monitor} (h : m.scheduled.isEmpty = true) (e : LogEntry) :
    (m.observe e).1.scheduled.isEmpty = true := by
  rcases m.scheduled_observe e with hsame | ⟨-, herased⟩
  · rw [hsame, h]
  · rw [herased]
    exact Catalog.isEmpty_erase h e.key

theorem isEmpty_scanned_observe {m : Monitor} (h : m.scanned.isEmpty = true) (e : LogEntry) :
    (m.observe e).1.scanned.isEmpty = true := by
  rcases m.scanned_observe e with hsame | ⟨-, herased⟩
  · rw [hsame, h]
  · rw [herased]
    exact Catalog.isEmpty_erase h e.key

end Monitor

end Intake
