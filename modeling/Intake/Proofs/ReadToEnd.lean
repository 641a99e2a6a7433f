import Intake.Proofs.Feed
import Intake.Proofs.Waiting

/-!
# ReadToEnd — what a refresh vouches for

A refresh that ends well has the log applied up to the end that it had when the refresh was asked
for, and the listeners were told.  A monitor that reads so caches the snapshot of its store, which
is what a prefix of the log leaves; nothing else changes what is cached (`Step.snapshot`), so the
prefix never becomes shorter (`Run.offset_le`).
-/

namespace Intake

namespace Monitor

/-! ## 1. Turns and the cached snapshot -/

theorem snapshot_scanIfRunning (m : Monitor) : m.scanIfRunning.monitor.snapshot = m.snapshot := by
  unfold scanIfRunning
  split <;> rfl

theorem snapshot_begin (m : Monitor) (now : Nat) (call : Call) :
    (m.begin now call).monitor.snapshot = m.snapshot := by
  cases call with
  | startup => rfl
  | tick =>
    simp only [begin, beginTick]
    split
    · exact m.snapshot_scanIfRunning
    · rfl
  | pull g f =>
    simp only [begin, beginPull]
    split <;> rfl
  | cleanup =>
    simp only [begin]
    split <;> rfl
  | sync t => rfl
  | close =>
    simp only [begin, beginClose]
    split <;> rfl

theorem snapshot_publishAndRequest (m : Monitor) (c : Catalog PartitionKey Metadata) :
    (m.publishAndRequest c).monitor.snapshot = m.snapshot := by
  simp only [publishAndRequest]
  split <;> rfl

/-- **Every refresh** is taken over in the same way, whatever call it is for. -/
theorem snapshot_resume_refreshed (m : Monitor) (now : Nat) {stage : Stage} {timeoutMs : Nat}
    (h : stage.need m.config = .refresh timeoutMs) (result : Except StoreError Snapshot) :
    (m.resume now stage (.refreshed result)).monitor.snapshot =
      (m.synced timeoutMs result).1.snapshot := by
  rw [synced_eq]
  cases stage with
  | startupSync =>
    simp only [resume, synced_eq]
    rfl
  | scanSync idle =>
    simp only [resume, scanSynced, synced_eq]
    split <;> rfl
  | pullSync g f attempt => exact snapshot_pullSynced m g f attempt result
  | sync t =>
    simp only [resume, synced_eq]
    rfl
  | closeSync =>
    simp only [resume, closeSynced, synced_eq]
    split <;> rfl
  -- the other stages wait for something else
  | tickCleanup => cases h
  | scanGate => cases h
  | scanListing => cases h
  | pullFiles => cases h
  | pullGate => cases h
  | cleanup => cases h
  | closeCleanup => cases h

/-- **Any other turn** leaves the cached snapshot. -/
theorem snapshot_resume_of_ne (m : Monitor) (now : Nat) (stage : Stage) {answer : Answer}
    (h : ∀ result, answer ≠ .refreshed result) :
    (m.resume now stage answer).monitor.snapshot = m.snapshot := by
  unfold resume
  split
  case h_2 results =>
    simp only [tidied_eq]
    exact snapshot_scanIfRunning _
  case h_3 =>
    unfold scanEntered
    split <;> rfl
  case h_5 idle result snapshot =>
    show (m.scanListed now idle result snapshot).monitor.snapshot = m.snapshot
    rcases scanListed_cases m now idle result snapshot with ⟨time, hm⟩ | ⟨_, c, _, _, hm⟩
    · rw [hm]
    · rw [hm, snapshot_publishAndRequest]
  case h_7 g f =>
    unfold pullEntered
    split <;> rfl
  case h_9 =>
    simp only [tidied_eq]
    rfl
  case h_12 =>
    simp only [tidied_eq]
    rfl
  case h_1 result => exact absurd rfl (h result)
  case h_4 result => exact absurd rfl (h result)
  case h_8 result => exact absurd rfl (h result)
  case h_10 result => exact absurd rfl (h result)
  case h_11 result => exact absurd rfl (h result)
  all_goals rfl

end Monitor

namespace Deployment

open Interplay (byPath sample)

variable {ι : Type} [DecidableEq ι] {promise : Stage → Answer → Prop} {a b : Deployment ι}
  {m : Move ι} {ms : List (Move ι)}

/-! ## 2. Growing logs -/

theorem Step.grows (h : Step promise a m b) : a.store.Grows b.store := by
  cases h with
  | pass => exact .refl _
  | write e => exact a.store.grows_appendAll [e]
  | @replicate eager store applied turned =>
    cases applied <;> exact Store.grows_turn turned
  | shutdown => exact ⟨List.prefix_refl _, Nat.le_refl _⟩
  | begin => exact a.store.grows_appendAll _
  | enqueue => exact .refl _
  | read => exact .refl _
  | resume => exact a.store.grows_appendAll _
  | drop => exact .refl _

theorem Run.grows (h : Run promise a ms b) : a.store.Grows b.store := by
  induction h with
  | nil => exact .refl _
  | cons first _ ih => exact first.grows.trans ih

/-! ## 3. Waits for the log -/

structure WaitsFor (who : ι) (n : Nat) (d : Deployment ι) : Prop where
  written : n ≤ d.store.written
  target : ∀ w, d.waits.get? who = some w → n ≤ w.target

theorem WaitsFor.of_grows {who : ι} {n : Nat} (h : a.WaitsFor who n)
    (hgrows : a.store.Grows b.store)
    (hwaits : ∀ w, b.waits.get? who = some w → a.waits.get? who = some w) : b.WaitsFor who n where
  written := Nat.le_trans h.written hgrows.written_le
  target w hw := h.target w (hwaits w hw)

/-- **Every step keeps this,** since a new wait is for the end of the log at its time. -/
theorem Step.waitsFor {who : ι} {n : Nat} (h : Step promise a m b) (ha : a.WaitsFor who n) :
    b.WaitsFor who n := by
  have hgrows := h.grows
  have herase : ∀ (i : ι) w, (a.waits.erase i).get? who = some w → a.waits.get? who = some w :=
    fun _ _ => Catalog.get?_of_erase
  cases h with
  | pass => exact ha.of_grows hgrows fun _ hw => hw
  | write => exact ha.of_grows hgrows fun _ hw => hw
  | @replicate eager store applied turned =>
    cases applied <;> exact ha.of_grows hgrows fun _ hw => hw
  | shutdown => exact ha.of_grows hgrows fun _ hw => hw
  | @begin i => exact ha.of_grows hgrows (herase i)
  | enqueue => exact ha.of_grows hgrows fun _ hw => hw
  | @read i stage timeoutMs wait waits needs unasked asked =>
    refine ⟨ha.written, ?_⟩
    intro w hw
    change (a.waits.insert i wait).get? who = some w at hw
    rw [Catalog.get?_insert] at hw
    split at hw
    · cases hw
      rw [(Store.ask_ok asked).2]
      exact ha.written
    · exact ha.target w hw
  | @resume i => exact ha.of_grows hgrows (herase i)
  | @drop i => exact ha.of_grows hgrows (herase i)

/-! ## 4. The cached snapshot -/

/-- **Only a refresh that ends well** changes what is cached, and then it is the snapshot of the
    store. -/
theorem Step.snapshot (h : Step promise a m b) :
    b.world.monitor.snapshot = a.world.monitor.snapshot ∨
      ∃ who, m = .resume who (.refreshed (.ok b.store.snapshot)) ∧
        b.world.monitor.snapshot = b.store.snapshot := by
  cases h with
  | pass => exact .inl rfl
  | write => exact .inl rfl
  | @replicate eager store applied turned =>
    cases applied with
    | none => exact .inl rfl
    | some e => exact .inl (a.world.monitor.snapshot_observe e)
  | shutdown => exact .inl rfl
  | begin => exact .inl (a.world.monitor.snapshot_begin _ _)
  | enqueue => exact .inl rfl
  | read => exact .inl rfl
  | @resume who stage answer waits meets ready agreed promised =>
    show (a.world.monitor.resume _ _ _).monitor.snapshot = _ ∨ _
    cases answer with
    | refreshed result =>
      -- only a wait for a refresh meets this answer
      cases hneed : stage.need a.world.monitor.config <;> rw [hneed] at meets agreed
      case refresh timeoutMs =>
        have hsynced := a.world.monitor.snapshot_resume_refreshed a.world.now hneed result
        rw [Monitor.synced_eq] at hsynced
        cases result with
        | error cause => exact .inl hsynced
        | ok s =>
          have hsame := a.snapshot_play who
            (a.world.monitor.resume a.world.now stage (.refreshed (.ok s)))
          -- a refresh that ends well has read what the store has applied
          have hs : s = a.store.snapshot := eq_snapshot_of_agrees agreed
          right
          refine ⟨who, ?_, ?_⟩
          · rw [hsame, hs]
          · rw [hsame, ← hs]
            exact hsynced
      all_goals cases meets
    | cleaned => exact .inl (Monitor.snapshot_resume_of_ne _ _ _ nofun)
    | listed => exact .inl (Monitor.snapshot_resume_of_ne _ _ _ nofun)
    | woken => exact .inl (Monitor.snapshot_resume_of_ne _ _ _ nofun)
    | entered => exact .inl (Monitor.snapshot_resume_of_ne _ _ _ nofun)
    | brokenDown => exact .inl (Monitor.snapshot_resume_of_ne _ _ _ nofun)
  | drop => exact .inl rfl

/-- **What is cached** is what a prefix of the log leaves that is applied. -/
structure Cached (d : Deployment ι) : Prop where
  reachable : d.store.Reachable
  snapshot : ∃ n ≤ d.store.applied, d.world.monitor.snapshot = ⟨n, Store.after d.store.log n⟩

theorem Cached.launch {who : ι} {now : Nat} {config : Config} {keyOf : KeyRule} {listing : String}
    {store : Store} {d : Deployment ι} (hstore : store.Reachable)
    (h : launch who now config keyOf listing store = .ok d) : d.Cached := by
  refine ⟨reachable_launch hstore h, 0, Nat.zero_le _, ?_⟩
  obtain ⟨opened, rfl, -⟩ := launch_cases h
  rfl

/-- **Every step keeps this.** -/
theorem Step.cached (h : Step promise a m b) (ha : a.Cached) : b.Cached := by
  have hgrows := h.grows
  have hreachable := h.reachable ha.reachable
  refine ⟨hreachable, ?_⟩
  rcases h.snapshot with hkept | ⟨who, -, hread⟩
  · obtain ⟨n, hle, hn⟩ := ha.snapshot
    have hlength : n ≤ a.store.log.length := Nat.le_trans hle ha.reachable.sound.applied_le
    obtain ⟨more, hmore⟩ := hgrows.log
    refine ⟨n, Nat.le_trans hle hgrows.applied, ?_⟩
    rw [hkept, hn, ← hmore, Store.after_append hlength]
  · refine ⟨b.store.applied, Nat.le_refl _, ?_⟩
    exact hread.trans (congrArg (Snapshot.mk _) hreachable.states_eq)

theorem Step.offset_le (h : Step promise a m b) (ha : a.Cached) :
    a.world.monitor.snapshot.offset ≤ b.world.monitor.snapshot.offset := by
  rcases h.snapshot with hkept | ⟨who, -, hread⟩
  · exact Nat.le_of_eq (congrArg Snapshot.offset hkept).symm
  · obtain ⟨n, hle, hn⟩ := ha.snapshot
    rw [hread, hn]
    exact Nat.le_trans hle h.grows.applied

/-- **The prefix never becomes shorter.** -/
theorem Run.offset_le (h : Run promise a ms b) (ha : a.Cached) :
    a.world.monitor.snapshot.offset ≤ b.world.monitor.snapshot.offset := by
  induction h with
  | nil => exact Nat.le_refl _
  | cons first _ ih => exact Nat.le_trans (first.offset_le ha) (ih (first.cached ha))

/-- **A refresh that ends well** caches the snapshot of the store, in which every entry counts that
    its target covers; one that fails leaves what is cached. -/
theorem Step.refreshed {who : ι} {stage : Stage} {timeoutMs n : Nat}
    {result : Except StoreError Snapshot} (h : Step promise a (.resume who (.refreshed result)) b)
    (hstage : a.world.calls.get? who = some stage)
    (hneed : stage.need a.world.monitor.config = .refresh timeoutMs) (ha : a.WaitsFor who n) :
    if (a.world.monitor.synced timeoutMs result).2.2 then
      b.world.monitor.snapshot = b.store.snapshot ∧ n ≤ b.world.monitor.snapshot.offset
    else b.world.monitor.snapshot = a.world.monitor.snapshot := by
  have hgrows := h.grows
  have hsnapshot := h.snapshot
  cases h with
  | @resume _ stage' _ waits meets ready agreed promised =>
    cases hstage.symm.trans waits
    have hsynced : (a.play who (a.world.monitor.resume a.world.now stage
        (.refreshed result))).world.monitor.snapshot = _ :=
      a.world.monitor.snapshot_resume_refreshed a.world.now hneed result
    rw [Monitor.synced_eq] at hsynced ⊢
    cases result with
    | error cause => exact hsynced
    | ok s =>
      rw [hneed] at agreed
      obtain ⟨hs, w, hw, hreached⟩ := reached_of_agrees agreed
      have hsame := a.snapshot_play who
        (a.world.monitor.resume a.world.now stage (.refreshed (.ok s)))
      have hcached := hsynced.trans hs
      refine ⟨hcached.trans hsame.symm, ?_⟩
      rw [hcached]
      exact Nat.le_trans (ha.target w hw) hreached

/-! ## 5. Reading to the end -/

/-- **Reading to the end.**  A refresh of a store that ends well ends when everything is applied
    that was written when it was asked for, and of all that is applied then, whoever listened was
    told.  A monitor has cached what some prefix of the log leaves, never a shorter one than before.
    If it reads the log to its end the cached snapshot is that of the store, and counts everything
    that was written when the call had not asked yet; if it does not, or in any other move, what is
    cached stays. -/
theorem read_to_end {ι ρ : Type} [DecidableEq ι] (promise : Stage → Answer → Prop) :
    (∀ (delay : Nat) (ops more : List (Feed.Op ρ)) (now now' timeoutMs : Nat) (w : LogWait)
        (s : Snapshot),
      let f : Feed ρ := (Feed.fresh delay).playAll ops
      let g := f.playAll more
      f.store.ask now timeoutMs = .ok w → g.store.answer? now' timeoutMs w = some (.ok s) →
        s = g.store.snapshot ∧ f.store.written ≤ g.store.snapshot.offset ∧
          ∀ n, g.restored < n → n ≤ g.store.snapshot.offset →
            (Feed.fresh delay : Feed ρ).ToldOnce (ops ++ more) n) ∧
    ∀ (who : ι) (now : Nat) (config : Config) (keyOf : KeyRule) (listing : String) (store : Store)
        (d a : Deployment ι) (ms : List (Move ι)),
      store.Reachable → launch who now config keyOf listing store = .ok d → Run promise d ms a →
      (∃ n ≤ a.store.applied, a.world.monitor.snapshot = ⟨n, Store.after a.store.log n⟩) ∧
      (∀ m b, Step promise a m b → b.world.monitor.snapshot = a.world.monitor.snapshot ∨
        ∃ i, m = .resume i (.refreshed (.ok b.store.snapshot)) ∧
          b.world.monitor.snapshot = b.store.snapshot) ∧
      ∀ b ns, Run promise a ns b →
        a.world.monitor.snapshot.offset ≤ b.world.monitor.snapshot.offset ∧
        ∀ i stage timeoutMs result c, a.waits.get? i = none →
          b.world.calls.get? i = some stage →
          stage.need b.world.monitor.config = .refresh timeoutMs →
          Step promise b (.resume i (.refreshed result)) c →
          if (b.world.monitor.synced timeoutMs result).2.2 then
            c.world.monitor.snapshot = c.store.snapshot ∧
              a.store.log <+: c.store.log.take c.world.monitor.snapshot.offset
          else c.world.monitor.snapshot = b.world.monitor.snapshot := by
  constructor
  · intro delay ops more now now' timeoutMs w s f g hask hanswer
    obtain ⟨hreached, hs⟩ := Store.answer?_ok hanswer
    have hwritten : f.store.written ≤ g.store.applied := by
      rw [← (Store.ask_ok hask).2]
      exact hreached
    refine ⟨hs, hwritten, ?_⟩
    intro n hbehind hn
    have hg : (Feed.fresh delay : Feed ρ).playAll (ops ++ more) = g := Feed.playAll_append _ _ _
    refine (Feed.Sound.fresh delay).toldOnce_of_applied ?_ ?_ ?_
    · rw [hg]
      exact hbehind
    · exact Nat.lt_of_le_of_lt (Nat.zero_le _) hbehind
    · rw [hg]
      exact hn
  · intro who now config keyOf listing store d a ms hstore hlaunch hrun
    have hcached : a.Cached := hrun.keeps Step.cached (.launch hstore hlaunch)
    refine ⟨hcached.snapshot, fun m b hstep => hstep.snapshot, ?_⟩
    intro b ns hlater
    refine ⟨hlater.offset_le hcached, ?_⟩
    intro i stage timeoutMs result c hunasked hstage hneed hstep
    -- whatever wait the call has, it asked for it only later
    have hwaits : b.WaitsFor i a.store.written := by
      refine hlater.keeps Step.waitsFor ⟨Nat.le_refl _, ?_⟩
      intro w hw
      rw [hunasked] at hw
      cases hw
    have hread := hstep.refreshed hstage hneed hwaits
    split at hread
    next hok =>
      rw [if_pos hok]
      refine ⟨hread.1, List.prefix_take_iff.2 ⟨?_, hread.2⟩⟩
      exact (hlater.grows.trans hstep.grows).log
    next hfailed =>
      rw [if_neg hfailed]
      exact hread

/-- Two calls read the log while replication holds an entry: one gives up, the other one goes on
    until the entry is applied.  Meanwhile another entry is written. -/
theorem read_to_end_overlapping :
    let promise : Stage → Answer → Prop := fun _ _ => true = true
    let entry (path : String) : LogEntry := ⟨⟨path⟩, some (.new (sample path) .started)⟩
    let tooSlow : Except StoreError Snapshot := .error (.timeout (.ofMillis 5))
    let s : Snapshot := ⟨1, Catalog.empty.insert ⟨"/a"⟩ (.new (sample "/a") .started)⟩
    let ops : List (Feed.Op Nat) :=
      [.start, .listen 0, .put ⟨"/a"⟩ (.new (sample "/a") .started), .replicate false 0]
    let more : List (Feed.Op Nat) :=
      [.put ⟨"/b"⟩ (.new (sample "/b") .started), .replicate false 10]
    let ms : List (Move Nat) :=
      onStore (openingMoves ++ [.begin 2 (.sync 50)]) ++ [.write (entry "/a")]
    let before : List (Move Nat) :=
      [.ask 2, .begin 3 (.sync 5), .ask 3, .replicate false, .pass 5]
    let ns : List (Move Nat) := before ++
      [.resume 3 (.refreshed tooSlow), .pass 10, .replicate false, .write (entry "/b")]
    (Feed.fresh 10).ToldOnce (ops ++ more) 1 ∧
    ((Feed.fresh 10).playAll (ops ++ more)).told = [⟨0, 1, entry "/a"⟩] ∧
    ∃ d a p q b c, launch 0 0 {} byPath "files" { delay := 10 } = .ok d ∧
      Run promise d ms a ∧ Run promise a before p ∧
      Step promise p (.resume 3 (.refreshed tooSlow)) q ∧ Run promise a ns b ∧
      Step promise b (.resume 2 (.refreshed (.ok s))) c ∧
      q.world.monitor.snapshot = p.world.monitor.snapshot ∧
      c.world.monitor.snapshot = c.store.snapshot ∧
      a.store.log <+: c.store.log.take c.world.monitor.snapshot.offset := by
  intro promise entry tooSlow s ops more ms before ns
  let d : Deployment Nat := launched 0 0 {} byPath "files" { delay := 10, replication := .idle }
  let a := (d.moves? (fun _ _ => true) ms).get (by decide +kernel)
  let p := (a.moves? (fun _ _ => true) before).get (by decide +kernel)
  let q := (p.move? (fun _ _ => true) (.resume 3 (.refreshed tooSlow))).get (by decide +kernel)
  let b := (a.moves? (fun _ _ => true) ns).get (by decide +kernel)
  let c := (b.move? (fun _ _ => true) (.resume 2 (.refreshed (.ok s)))).get (by decide +kernel)
  have hlaunch : launch 0 0 {} byPath "files" { delay := 10 } = .ok d := rfl
  have hda : Run promise d ms a := .of_moves? (Option.some_get _).symm
  have hap : Run promise a before p := .of_moves? (Option.some_get _).symm
  have hpq : Step promise p (.resume 3 (.refreshed tooSlow)) q :=
    .of_move? (Option.some_get _).symm
  have hab : Run promise a ns b := .of_moves? (Option.some_get _).symm
  have hbc : Step promise b (.resume 2 (.refreshed (.ok s))) c :=
    .of_move? (Option.some_get _).symm
  obtain ⟨hstore, hmonitor⟩ := read_to_end (ι := Nat) (ρ := Nat) promise
  have hanswer : (((Feed.fresh 10 : Feed Nat).playAll ops).playAll more).store.answer? 10 50
      ⟨1, 50⟩ = some (.ok s) := by decide +kernel
  obtain ⟨-, -, htold⟩ := hstore 10 ops more 0 10 50 ⟨1, 50⟩ s (by decide +kernel) hanswer
  have honce : (Feed.fresh 10).ToldOnce (ops ++ more) 1 :=
    htold 1 (by decide +kernel) (by decide +kernel)
  obtain ⟨-, -, hlater⟩ := hmonitor 0 0 {} byPath "files" { delay := 10 } d a ms (.fresh 10)
    hlaunch hda
  have hfailed := (hlater p before hap).2 3 (.sync 5) 5 (.error (.timeout (.ofMillis 5))) q
    (by decide +kernel) (by decide +kernel) rfl hpq
  have hread := (hlater b ns hab).2 2 (.sync 50) 50 (.ok s) c (by decide +kernel)
    (by decide +kernel) rfl hbc
  have hlist : ((Feed.fresh 10).playAll (ops ++ more)).told = [⟨0, 1, entry "/a"⟩] := by
    decide +kernel
  exact ⟨honce, hlist, d, a, p, q, b, c, hlaunch, hda, hap, hpq, hab, hbc, hfailed, hread.1,
    hread.2⟩

end Deployment

end Intake
