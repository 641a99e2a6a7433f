import Intake.Proofs.Log

/-!
# Feed — a store with its listener, and what it told

A store is written to, started, shut down and replicated in any order, and who listens may change.
The history beside it says which writes were accepted, under which offsets, and who was told of
which entry.  The snapshot is what the first accepted entries leave (`Store.Reachable.states_eq`),
and of what was applied behind the start every entry was told once, in order, to the listener of
that time (`Feed.Sound.toldOnce_of_applied`).
-/

namespace Intake

/-! ## 1. Feeds and what happens to them -/

structure Delivery (ρ : Type) where
  listener : ρ
  offset : Nat
  entry : LogEntry
  deriving DecidableEq

/-- **Feed.**  The last three fields are its history: the accepted writes with their offsets, the
    offset up to which the start restored the log, and what was told. -/
structure Feed (ρ : Type) where
  store : Store
  listener : Option ρ := none
  accepted : List (Nat × LogEntry) := []
  restored : Nat := 0
  told : List (Delivery ρ) := []

inductive Feed.Op (ρ : Type) where
  | put (key : PartitionKey) (record : Record)
  | delete (key : PartitionKey)
  | start
  | listen (listener : ρ)
  | refresh
  | shutdown
  | replicate (eager : Bool) (now : Nat)

namespace Feed

variable {ρ : Type}

def fresh (delay : Nat) : Feed ρ := { store := { delay } }

def write (f : Feed ρ) (e : LogEntry) : Feed ρ :=
  match f.store.append e with
  | (store, []) => { f with store, accepted := f.accepted ++ [(store.written, e)] }
  -- the store reports a write that it dropped
  | (store, _) => { f with store }

def tell (f : Feed ρ) (offset : Nat) (entry : LogEntry) : List (Delivery ρ) :=
  f.listener.toList.map fun listener => ⟨listener, offset, entry⟩

def play (f : Feed ρ) : Op ρ → Feed ρ
  | .put key record => f.write ⟨key, some record⟩
  | .delete key => f.write ⟨key, none⟩
  | .start =>
    match f.store.start with
    | .ok store =>
      { f with store, restored := if f.store.isStarted then f.restored else f.store.written }
    | .error _ => f
  | .listen listener => { f with listener := some listener }
  | .refresh => f
  | .shutdown => { f with store := f.store.shutdown }
  | .replicate eager now =>
    match f.store.turn? eager now with
    | some (store, some e) => { f with store, told := f.told ++ f.tell store.applied e }
    | some (store, none) => { f with store }
    | none => f

def playAll (f : Feed ρ) (ops : List (Op ρ)) : Feed ρ := ops.foldl play f

theorem playAll_append (f : Feed ρ) (ops more : List (Op ρ)) :
    f.playAll (ops ++ more) = (f.playAll ops).playAll more := List.foldl_append

/-! ## 2. One operation -/

structure Idles (s t : Store) : Prop where
  log : t.log = s.log
  applied : t.applied = s.applied
  started : s.isStarted = true → t.isStarted = true
  closing : s.closing = true → t.closing = true
  reachable : s.Reachable → t.Reachable

theorem Idles.refl (s : Store) : Idles s s := ⟨rfl, rfl, id, id, id⟩

/-- **What comes of an operation.**  A write is accepted, a start restores the log and tells nobody,
    replication applies the next entry and tells the listener; else log and records stay. -/
inductive Outcome (f : Feed ρ) : Op ρ → Feed ρ → Prop where
  | accepted (op : Op ρ) {e : LogEntry} (hopen : f.store.replication ≠ .ended) :
      Outcome f op { f with
        store := { f.store with log := f.store.log ++ [e] }
        accepted := f.accepted ++ [(f.store.written + 1, e)] }
  | restored (started : f.store.start = .ok f.store.restore)
      (hunstarted : f.store.isStarted = false) :
      Outcome f .start { f with store := f.store.restore, restored := f.store.written }
  | applied {eager : Bool} {now : Nat} {e : LogEntry} (hnext : f.store.next? = some e)
      (turned : f.store.turn? eager now = some (f.store.applyEntry e, some e)) :
      Outcome f (.replicate eager now) { f with
        store := f.store.applyEntry e, told := f.told ++ f.tell (f.store.applied + 1) e }
  | quiet (op : Op ρ) {store : Store} (listener : Option ρ) (h : Idles f.store store) :
      Outcome f op { f with store, listener }

theorem outcome_write (f : Feed ρ) (op : Op ρ) (e : LogEntry) : f.Outcome op (f.write e) := by
  unfold write
  rcases f.store.append_cases e with ⟨hopen, heq⟩ | ⟨-, heq⟩
  · rw [heq]
    have haccepted : f.Outcome op { f with
        store := { f.store with log := f.store.log ++ [e] }
        accepted := f.accepted ++ [(f.store.written + 1, e)] } := .accepted op hopen
    simpa [Store.written] using haccepted
  · rw [heq]
    exact .quiet op f.listener (.refl f.store)

theorem outcome_start (f : Feed ρ) : f.Outcome .start (f.play .start) := by
  simp only [play]
  rcases f.store.start_cases with ⟨-, heq⟩ | ⟨-, hstarted, heq⟩ | ⟨-, hunstarted, heq⟩
  · rw [heq]
    exact .quiet .start f.listener (.refl f.store)
  · rw [heq, hstarted]
    exact .quiet .start f.listener (.refl f.store)
  · have hrestored := Outcome.restored heq hunstarted
    rw [heq, hunstarted]
    exact hrestored

theorem outcome_replicate (f : Feed ρ) (eager : Bool) (now : Nat) :
    f.Outcome (.replicate eager now) (f.play (.replicate eager now)) := by
  simp only [play]
  cases hturn : f.store.turn? eager now with
  | none => exact .quiet _ f.listener (.refl f.store)
  | some turned =>
    obtain ⟨store, applied⟩ := turned
    have hclosing := Store.closing_turn hturn
    rcases Store.turn?_cases hturn with ⟨-, rfl, rfl⟩ | ⟨rfl, rfl⟩ | ⟨e, hnext, rfl, rfl⟩
    · exact .quiet _ f.listener ⟨rfl, rfl, fun _ => rfl, id, .turn hturn⟩
    · exact .quiet _ f.listener ⟨rfl, rfl, fun _ => rfl, id, .turn hturn⟩
    · exact .applied hnext hturn

theorem outcome_play (f : Feed ρ) (op : Op ρ) : f.Outcome op (f.play op) := by
  cases op with
  | put key record => exact f.outcome_write _ _
  | delete key => exact f.outcome_write _ _
  | start => exact f.outcome_start
  | listen listener => exact .quiet _ (some listener) (.refl f.store)
  | refresh => exact .quiet _ f.listener (.refl f.store)
  | shutdown => exact .quiet _ f.listener ⟨rfl, rfl, id, fun _ => rfl, .shutdown⟩
  | replicate eager now => exact f.outcome_replicate eager now

/-! ## 3. The history -/

/-- **A sound history:** the accepted writes are the log, numbered from 1; and what was told are
    entries applied behind the start, in the order of their offsets. -/
structure Sound (f : Feed ρ) : Prop where
  reachable : f.store.Reachable
  offsets : f.accepted.map Prod.fst = List.range' 1 f.store.written
  entries : f.accepted.map Prod.snd = f.store.log
  restored_le : f.restored ≤ f.store.applied
  told : ∀ d ∈ f.told, f.restored < d.offset ∧ d.offset ≤ f.store.applied ∧
    (d.offset, d.entry) ∈ f.accepted
  order : f.told.Pairwise fun d d' => d.offset < d'.offset

theorem Sound.fresh (delay : Nat) : (fresh delay : Feed ρ).Sound where
  reachable := .fresh delay
  offsets := rfl
  entries := rfl
  restored_le := Nat.le_refl 0
  told := by
    intro d hd
    cases hd
  order := .nil

/-- The entry behind the first so many is accepted under the next offset. -/
theorem Sound.mem_accepted {f : Feed ρ} (h : f.Sound) {n : Nat} {e : LogEntry}
    (he : f.store.log[n]? = some e) : (n + 1, e) ∈ f.accepted := by
  obtain ⟨hlt, -⟩ := List.getElem?_eq_some_iff.1 he
  have hoffset : (f.accepted.map Prod.fst)[n]? = some (n + 1) := by
    have hn : n < f.store.written := hlt
    rw [h.offsets, List.getElem?_range' hn, Nat.one_mul, Nat.add_comm]
  have hentry : (f.accepted.map Prod.snd)[n]? = some e := by
    rw [h.entries, he]
  rw [List.getElem?_map] at hoffset hentry
  obtain ⟨a, ha, hfirst⟩ := Option.map_eq_some_iff.1 hoffset
  obtain ⟨a', ha', hsecond⟩ := Option.map_eq_some_iff.1 hentry
  have heq : a = a' := Option.some.inj (ha.symm.trans ha')
  have hpair : a = (n + 1, e) := by
    rw [← hfirst, ← hsecond, ← heq]
  rw [← hpair]
  exact List.mem_of_getElem? ha

/-- **Every operation keeps the history sound.** -/
theorem Sound.play {f : Feed ρ} (h : f.Sound) (op : Op ρ) : (f.play op).Sound := by
  have hplay := f.outcome_play op
  generalize f.play op = g at hplay ⊢
  cases hplay with
  | @accepted op e hopen =>
    have hreachable : Store.Reachable { f.store with log := f.store.log ++ [e] } := by
      have happend := h.reachable.append e
      rcases f.store.append_cases e with ⟨-, heq⟩ | ⟨hended, -⟩
      · rw [heq] at happend
        exact happend
      · exact absurd hended hopen
    refine ⟨hreachable, ?_, ?_, h.restored_le, ?_, h.order⟩
    · -- the new entry has the offset behind the last
      show (f.accepted ++ [(f.store.written + 1, e)]).map Prod.fst =
        List.range' 1 (f.store.log ++ [e]).length
      rw [List.map_append, h.offsets, List.length_append, List.length_singleton,
        List.range'_concat, Nat.one_mul, Nat.add_comm 1]
      rfl
    · show (f.accepted ++ [(f.store.written + 1, e)]).map Prod.snd = f.store.log ++ [e]
      rw [List.map_append, h.entries]
      rfl
    · intro d hd
      obtain ⟨hlt, hle, hmem⟩ := h.told d hd
      exact ⟨hlt, hle, List.mem_append_left _ hmem⟩
  | restored started hunstarted =>
    refine ⟨.start started h.reachable, h.offsets, h.entries, Nat.le_refl _, ?_, h.order⟩
    -- before the start nothing was applied, so nothing was told
    intro d hd
    obtain ⟨hlt, hle, -⟩ := h.told d hd
    rw [h.reachable.applied_of_unstarted hunstarted] at hle
    omega
  | @applied eager now e hnext turned =>
    refine ⟨.turn turned h.reachable, h.offsets, h.entries, Nat.le_succ_of_le h.restored_le,
      ?_, ?_⟩
    · intro d hd
      rcases List.mem_append.1 hd with hold | hnew
      · obtain ⟨hlt, hle, hmem⟩ := h.told d hold
        exact ⟨hlt, Nat.le_succ_of_le hle, hmem⟩
      · obtain ⟨l, -, rfl⟩ := List.mem_map.1 hnew
        exact ⟨Nat.lt_succ_of_le h.restored_le, Nat.le_refl _, h.mem_accepted hnext⟩
    · rw [List.pairwise_append]
      refine ⟨h.order, ?_, ?_⟩
      · unfold tell
        cases f.listener <;> simp
      · intro d hd d' hd'
        obtain ⟨l, -, rfl⟩ := List.mem_map.1 hd'
        exact Nat.lt_succ_of_le (h.told d hd).2.1
  | @quiet op store listener hidles =>
    refine ⟨hidles.reachable h.reachable, ?_, ?_, ?_, ?_, h.order⟩
    · show f.accepted.map Prod.fst = List.range' 1 store.log.length
      rw [hidles.log, h.offsets]
      rfl
    · exact h.entries.trans hidles.log.symm
    · show f.restored ≤ store.applied
      rw [hidles.applied]
      exact h.restored_le
    · show ∀ d ∈ f.told, f.restored < d.offset ∧ d.offset ≤ store.applied ∧ _
      rw [hidles.applied]
      exact h.told

theorem Sound.playAll {f : Feed ρ} (h : f.Sound) (ops : List (Op ρ)) : (f.playAll ops).Sound := by
  induction ops generalizing f with
  | nil => exact h
  | cons op ops ih => exact ih (h.play op)

/-! ## 4. Starts and the order of what is applied -/

/-- A store that is started stays started, and was restored once. -/
theorem started_play {f : Feed ρ} (h : f.store.isStarted = true) (op : Op ρ) :
    (f.play op).store.isStarted = true ∧ (f.play op).restored = f.restored := by
  have hplay := f.outcome_play op
  generalize f.play op = g at hplay ⊢
  cases hplay with
  | accepted => exact ⟨h, rfl⟩
  | restored started hunstarted =>
    rw [h] at hunstarted
    cases hunstarted
  | applied => exact ⟨rfl, rfl⟩
  | quiet _ _ hidles => exact ⟨hidles.started h, rfl⟩

theorem started_playAll {f : Feed ρ} (h : f.store.isStarted = true) (ops : List (Op ρ)) :
    (f.playAll ops).store.isStarted = true ∧ (f.playAll ops).restored = f.restored := by
  induction ops generalizing f with
  | nil => exact ⟨h, rfl⟩
  | cons op ops ih =>
    obtain ⟨hstarted, hrestored⟩ := started_play h op
    obtain ⟨hend, hsame⟩ := ih hstarted
    exact ⟨hend, hsame.trans hrestored⟩

def Settled (f : Feed ρ) : Prop := f.store.closing = true ∨ f.store.isStarted = true

theorem Settled.play_start {f : Feed ρ} (h : f.Settled) : f.play .start = f := by
  simp only [Feed.play]
  rcases f.store.start_cases with ⟨-, heq⟩ | ⟨-, hstarted, heq⟩ | ⟨hopen, hunstarted, -⟩
  · rw [heq]
  · rw [heq, hstarted]
    rfl
  · exfalso
    rcases h with hclosing | hstarted
    · rw [hclosing] at hopen
      cases hopen
    · rw [hstarted] at hunstarted
      cases hunstarted

theorem settled_play_start (f : Feed ρ) : (f.play .start).Settled := by
  simp only [Feed.play]
  rcases f.store.start_cases with ⟨hclosing, heq⟩ | ⟨-, hstarted, heq⟩ | ⟨-, -, heq⟩
  · rw [heq]
    exact .inl hclosing
  · rw [heq]
    exact .inr hstarted
  · rw [heq]
    exact .inr rfl

theorem Settled.play {f : Feed ρ} (h : f.Settled) (op : Op ρ) : (f.play op).Settled := by
  have hplay := f.outcome_play op
  generalize f.play op = g at hplay ⊢
  cases hplay with
  | accepted => exact h
  | restored => exact .inr rfl
  | applied => exact .inr rfl
  | quiet _ _ hidles =>
    rcases h with hclosing | hstarted
    · exact .inl (hidles.closing hclosing)
    · exact .inr (hidles.started hstarted)

theorem Settled.playAll {f : Feed ρ} (h : f.Settled) (ops : List (Op ρ)) :
    (f.playAll ops).Settled := by
  induction ops generalizing f with
  | nil => exact h
  | cons op ops ih => exact ih (h.play op)

theorem Sound.applied_le_play {f : Feed ρ} (h : f.Sound) (op : Op ρ) :
    f.store.applied ≤ (f.play op).store.applied := by
  have hplay := f.outcome_play op
  generalize f.play op = g at hplay ⊢
  cases hplay with
  | accepted => exact Nat.le_refl _
  | restored started hunstarted =>
    rw [h.reachable.applied_of_unstarted hunstarted]
    exact Nat.zero_le _
  | applied => exact Nat.le_succ _
  | quiet _ _ hidles => exact Nat.le_of_eq hidles.applied.symm

theorem Sound.applied_le_playAll {f : Feed ρ} (h : f.Sound) (ops : List (Op ρ)) :
    f.store.applied ≤ (f.playAll ops).store.applied := by
  induction ops generalizing f with
  | nil => exact Nat.le_refl _
  | cons op ops ih => exact Nat.le_trans (h.applied_le_play op) (ih (h.play op))

/-- What an operation tells has a later offset than what was applied before it. -/
theorem told_play (f : Feed ρ) (op : Op ρ) :
    ∃ more, (f.play op).told = f.told ++ more ∧ ∀ d ∈ more, f.store.applied < d.offset := by
  have hplay := f.outcome_play op
  generalize f.play op = g at hplay ⊢
  cases hplay with
  | @applied eager now e hnext turned =>
    refine ⟨f.tell (f.store.applied + 1) e, rfl, ?_⟩
    intro d hd
    obtain ⟨l, -, rfl⟩ := List.mem_map.1 hd
    exact Nat.lt_succ_self _
  | accepted => exact ⟨[], (List.append_nil _).symm, by simp⟩
  | restored => exact ⟨[], (List.append_nil _).symm, by simp⟩
  | quiet => exact ⟨[], (List.append_nil _).symm, by simp⟩

theorem Sound.told_playAll {f : Feed ρ} (h : f.Sound) (ops : List (Op ρ)) :
    ∃ more, (f.playAll ops).told = f.told ++ more ∧ ∀ d ∈ more, f.store.applied < d.offset := by
  induction ops generalizing f with
  | nil => exact ⟨[], (List.append_nil _).symm, by simp⟩
  | cons op ops ih =>
    obtain ⟨first, htold, hfirst⟩ := f.told_play op
    obtain ⟨rest, hrest, hlater⟩ := ih (h.play op)
    have hle := h.applied_le_play op
    refine ⟨first ++ rest, ?_, ?_⟩
    · show ((f.play op).playAll ops).told = f.told ++ (first ++ rest)
      rw [hrest, htold, List.append_assoc]
    · intro d hd
      rcases List.mem_append.1 hd with hd | hd
      · exact hfirst d hd
      · exact Nat.lt_of_le_of_lt hle (hlater d hd)

/-- An accepted write stays accepted. -/
theorem mem_accepted_playAll {f : Feed ρ} (ops : List (Op ρ)) {a : Nat × LogEntry}
    (ha : a ∈ f.accepted) : a ∈ (f.playAll ops).accepted := by
  induction ops generalizing f with
  | nil => exact ha
  | cons op ops ih =>
    have hplay := f.outcome_play op
    have hfirst : a ∈ (f.play op).accepted := by
      generalize f.play op = g at hplay ⊢
      cases hplay with
      | accepted => exact List.mem_append_left _ ha
      | restored => exact ha
      | applied => exact ha
      | quiet => exact ha
    exact ih hfirst

/-! ## 5. Deliveries -/

/-- **Told once:** some turn of replication applied the entry of an offset, and of this entry nobody
    was told but the listener at that turn, who was told once. -/
def ToldOnce (f : Feed ρ) (ops : List (Op ρ)) (n : Nat) : Prop :=
  ∃ before eager now after e, ops = before ++ .replicate eager now :: after ∧
    (f.playAll before).store.applied + 1 = n ∧
    (f.playAll (before ++ [.replicate eager now])).store.applied = n ∧
    (n, e) ∈ (f.playAll ops).accepted ∧
    (f.playAll ops).told.filter (·.offset == n) =
      (f.playAll before).listener.toList.map fun listener => ⟨listener, n, e⟩

theorem ToldOnce.cons {f : Feed ρ} {op : Op ρ} {ops : List (Op ρ)} {n : Nat}
    (h : (f.play op).ToldOnce ops n) : f.ToldOnce (op :: ops) n := by
  obtain ⟨before, eager, now, after, e, rfl, hbefore, hafter, hmem, htold⟩ := h
  exact ⟨op :: before, eager, now, after, e, rfl, hbefore, hafter, hmem, htold⟩

theorem filter_tell (f : Feed ρ) (n : Nat) (e : LogEntry) :
    (f.tell n e).filter (·.offset == n) = f.tell n e := by
  rw [List.filter_eq_self]
  intro d hd
  obtain ⟨l, -, rfl⟩ := List.mem_map.1 hd
  exact beq_self_eq_true n

/-- Deliveries of other offsets. -/
theorem filter_offset_eq_nil {told : List (Delivery ρ)} {n : Nat} (h : ∀ d ∈ told, d.offset ≠ n) :
    told.filter (·.offset == n) = [] := by
  rw [List.filter_eq_nil_iff]
  intro d hd hoffset
  exact h d hd (beq_iff_eq.1 hoffset)

/-- The turn that applies an entry tells it, and nothing before or behind it does. -/
theorem Sound.toldOnce_turn {f : Feed ρ} (h : f.Sound) {eager : Bool} {now : Nat} {e : LogEntry}
    (hnext : f.store.next? = some e)
    (hplay : f.play (.replicate eager now) = { f with
      store := f.store.applyEntry e, told := f.told ++ f.tell (f.store.applied + 1) e })
    (after : List (Op ρ)) :
    f.ToldOnce (.replicate eager now :: after) (f.store.applied + 1) := by
  refine ⟨[], eager, now, after, e, rfl, rfl, ?_, ?_, ?_⟩
  · show (f.play (.replicate eager now)).store.applied = f.store.applied + 1
    rw [hplay]
    rfl
  · show (f.store.applied + 1, e) ∈ ((f.play (.replicate eager now)).playAll after).accepted
    apply mem_accepted_playAll after
    rw [hplay]
    exact h.mem_accepted hnext
  · obtain ⟨more, htold, hmore⟩ := (h.play (.replicate eager now)).told_playAll after
    have hearlier : f.told.filter (·.offset == f.store.applied + 1) = [] := by
      apply filter_offset_eq_nil
      intro d hd
      have hle := (h.told d hd).2.1
      omega
    have hlater : more.filter (·.offset == f.store.applied + 1) = [] := by
      apply filter_offset_eq_nil
      intro d hd
      have hlt := hmore d hd
      rw [hplay] at hlt
      exact Nat.ne_of_gt hlt
    show ((f.play (.replicate eager now)).playAll after).told.filter _ = f.tell _ e
    rw [htold, hplay, List.filter_append, List.filter_append, hearlier, hlater, filter_tell,
      List.nil_append, List.append_nil]

/-- **Every entry that is applied behind the start is told once.** -/
theorem Sound.toldOnce_of_applied {f : Feed ρ} (h : f.Sound) {ops : List (Op ρ)} {n : Nat}
    (hbehind : (f.playAll ops).restored < n) (hlater : f.store.applied < n)
    (happlied : n ≤ (f.playAll ops).store.applied) : f.ToldOnce ops n := by
  induction ops generalizing f with
  | nil => exact absurd hlater (Nat.not_lt.2 happlied)
  | cons op ops ih =>
    by_cases hnow : (f.play op).store.applied < n
    · exact (ih (h.play op) hbehind hnow happlied).cons
    · -- the first operation applies the entry; it is no start, which would have restored it
      have hplay := f.outcome_play op
      generalize hg : f.play op = g at hplay hnow
      cases hplay with
      | accepted => exact absurd hlater hnow
      | quiet _ _ hidles =>
        exact absurd (Nat.lt_of_le_of_lt (Nat.le_of_eq hidles.applied) hlater) hnow
      | restored started hunstarted =>
        exfalso
        obtain ⟨-, hrestored⟩ := started_playAll (f := f.play .start) (by rw [hg]; rfl) ops
        rw [hg] at hrestored
        have hsame : (f.playAll (.start :: ops)).restored = f.store.written := by
          show ((f.play .start).playAll ops).restored = f.store.written
          rw [hg, hrestored]
        rw [hsame] at hbehind
        exact hnow hbehind
      | @applied eager now e hnext turned =>
        have hn : f.store.applied + 1 = n := by
          have hle : n ≤ f.store.applied + 1 := Nat.not_lt.1 hnow
          omega
        rw [← hn]
        exact h.toldOnce_turn hnext hg ops

/-! ## 6. The ordered log -/

/-- A start that has an effect restores the whole log, and that once and for all. -/
theorem restored_of_start {f : Feed ρ} (h : ¬f.Settled) (ops : List (Op ρ)) :
    ((f.play .start).playAll ops).restored = f.store.written := by
  have hstart : f.play .start =
      { f with store := f.store.restore, restored := f.store.written } := by
    have hplay := f.outcome_start
    simp only [Feed.play] at hplay ⊢
    rcases f.store.start_cases with ⟨hclosing, -⟩ | ⟨-, hstarted, -⟩ | ⟨-, hunstarted, heq⟩
    · exact absurd (.inl hclosing) h
    · exact absurd (.inr hstarted) h
    · rw [heq, hunstarted]
      rfl
  rw [hstart]
  exact (started_playAll rfl ops).2

theorem write_of_ended {f : Feed ρ} (h : f.store.replication = .ended) (e : LogEntry) :
    f.write e = f := by
  unfold write
  rcases f.store.append_cases e with ⟨hopen, -⟩ | ⟨-, heq⟩
  · exact absurd h hopen
  · rw [heq]

theorem accepted_write {f : Feed ρ} (h : f.store.replication ≠ .ended) (e : LogEntry) :
    (f.write e).accepted = f.accepted ++ [(f.store.written + 1, e)] := by
  unfold write
  rcases f.store.append_cases e with ⟨-, heq⟩ | ⟨hended, -⟩
  · rw [heq]
    simp [Store.written]
  · exact absurd hended h

/-- **An ordered, replicated log.**  Whatever is done to a new store: the accepted writes are
    numbered 1, 2, 3, …, the next one coming behind the last, and a write that is refused changes
    nothing.  The snapshot is what the first accepted entries leave, as many as its offset says, and
    this number never falls.  What was in the log when a start had its effect is told to nobody;
    what is applied behind it is told once, in order, to the listener of that time.  And to start
    again changes nothing. -/
theorem ordered_replicated (delay : Nat) (ops : List (Op ρ)) :
    let f := (fresh delay).playAll ops
    (f.accepted.map Prod.fst = List.range' 1 f.store.written ∧
      (∀ e, f.store.replication ≠ .ended →
        (f.write e).accepted = f.accepted ++ [(f.store.written + 1, e)]) ∧
      ∀ e, f.store.replication = .ended → f.write e = f) ∧
    (∃ n ≤ f.store.written, f.store.snapshot =
      ⟨n, ((f.accepted.map Prod.snd).take n).foldl LogEntry.apply .empty⟩) ∧
    (∀ (e : LogEntry) states k,
      (e.apply states).get? k = if k = e.key then e.value else states.get? k) ∧
    (∀ more, f.store.snapshot.offset ≤ (f.playAll more).store.snapshot.offset) ∧
    (∀ before after, ops = before ++ .start :: after → ¬((fresh delay).playAll before).Settled →
      f.restored = ((fresh delay).playAll before).store.written) ∧
    (∀ d ∈ f.told, f.restored < d.offset) ∧
    f.told.Pairwise (fun d d' => d.offset < d'.offset) ∧
    (∀ n, f.restored < n → n ≤ f.store.snapshot.offset → (fresh delay).ToldOnce ops n) ∧
    ∀ more, ((f.play .start).playAll more).play .start = (f.play .start).playAll more := by
  intro f
  have hsound : f.Sound := (Sound.fresh delay).playAll ops
  refine ⟨⟨hsound.offsets, fun e h => accepted_write h e, fun e h => write_of_ended h e⟩,
    ⟨f.store.applied, hsound.reachable.sound.applied_le, ?_⟩,
    fun e states => LogEntry.get?_apply states e,
    hsound.applied_le_playAll, ?_, fun d hd => (hsound.told d hd).1, hsound.order, ?_, ?_⟩
  · rw [hsound.entries]
    exact congrArg (Snapshot.mk _) hsound.reachable.states_eq
  · intro before after hops hunsettled
    have hsplit : f = (((fresh delay).playAll before).play .start).playAll after := by
      show (fresh delay).playAll ops = _
      rw [hops, playAll_append]
      rfl
    rw [hsplit]
    exact restored_of_start hunsettled after
  · intro n hbehind happlied
    by_cases hpositive : 0 < n
    · exact (Sound.fresh delay).toldOnce_of_applied hbehind hpositive happlied
    · exact absurd hbehind (by omega)
  · intro more
    exact (f.settled_play_start.playAll more).play_start

/-- A file is in the log when the store starts, another is written behind the start.  While
    replication holds it the listener changes: the new one is told, also of the removal.  After a
    shutdown a write is refused. -/
theorem ordered_replicated_behind_start :
    let file (name : String) : Record :=
      .new ⟨⟨"file", none, "/" ++ name, none, none⟩, name, 1, default, none⟩ .started
    let before : List (Op Nat) := [.listen 1, .put ⟨"a"⟩ (file "a")]
    let after : List (Op Nat) :=
      [.put ⟨"b"⟩ (file "b"), .replicate false 0, .listen 2, .replicate false 5, .refresh,
        .delete ⟨"b"⟩, .replicate false 5, .replicate false 10, .shutdown, .replicate false 10]
    let ops := before ++ .start :: after
    let f := (fresh 5).playAll ops
    f.accepted.map Prod.fst = [1, 2, 3] ∧ f.restored = 1 ∧
      f.told = [⟨2, 2, ⟨⟨"b"⟩, some (file "b")⟩⟩, ⟨2, 3, ⟨⟨"b"⟩, none⟩⟩] ∧
      (fresh 5).ToldOnce ops 2 ∧ (fresh 5).ToldOnce ops 3 ∧
      f.store.snapshot.states.get? ⟨"a"⟩ = some (file "a") ∧
      f.store.snapshot.states.get? ⟨"b"⟩ = none ∧ f.write ⟨⟨"c"⟩, some (file "c")⟩ = f := by
  intro file before after ops f
  obtain ⟨⟨hoffsets, -, hrefuses⟩, -, -, -, hrestored, -, -, honce, -⟩ := ordered_replicated 5 ops
  have hended : ((fresh 5).playAll ops).store.replication = .ended := by decide +kernel
  have hwritten : f.store.written = 3 := by decide +kernel
  have hunsettled : ¬((fresh 5).playAll before).Settled := by
    unfold Settled
    decide +kernel
  have hstart : f.restored = ((fresh 5).playAll before).store.written :=
    hrestored before after rfl hunsettled
  have hone : f.restored = 1 := hstart.trans (by decide +kernel)
  have hnumbers : f.accepted.map Prod.fst = [1, 2, 3] := by
    rw [hwritten] at hoffsets
    exact hoffsets
  have htold : f.told = [⟨2, 2, ⟨⟨"b"⟩, some (file "b")⟩⟩, ⟨2, 3, ⟨⟨"b"⟩, none⟩⟩] := by
    decide +kernel
  have hkept : f.store.snapshot.states.get? ⟨"a"⟩ = some (file "a") := by decide +kernel
  have hgone : f.store.snapshot.states.get? ⟨"b"⟩ = none := by decide +kernel
  have hsecond : (fresh 5).ToldOnce ops 2 := honce 2 (by decide +kernel) (by decide +kernel)
  have hthird : (fresh 5).ToldOnce ops 3 := honce 3 (by decide +kernel) (by decide +kernel)
  have hrefused : f.write ⟨⟨"c"⟩, some (file "c")⟩ = f := hrefuses _ hended
  exact ⟨hnumbers, hone, htold, hsecond, hthird, hkept, hgone, hrefused⟩

/-! ## 7. Replication that runs -/

theorem playAll_replicate_of_waiting {f : Feed ρ} {eager : Bool} {now : Nat}
    (h : f.store.turn? eager now = none) (n : Nat) :
    f.playAll (.replicate n (.replicate eager now)) = f := by
  have hplay : f.play (.replicate eager now) = f := by
    simp only [play, h]
  induction n with
  | zero => rfl
  | succ n ih =>
    show (f.play _).playAll (.replicate n (.replicate eager now)) = f
    rw [hplay, ih]

/-- **Turns taken at once** are turns of the feed: the same store comes of them, and the listener is
    told what they applied. -/
theorem playAll_replicate (f : Feed ρ) {l : ρ} (hlistener : f.listener = some l) (eager : Bool)
    (now n : Nat) :
    let g := f.playAll (.replicate n (.replicate eager now))
    g.store = (f.store.turns eager now n).1 ∧
      g.told.map Delivery.entry = f.told.map Delivery.entry ++ (f.store.turns eager now n).2 := by
  induction n generalizing f with
  | zero => exact ⟨rfl, (List.append_nil _).symm⟩
  | succ n ih =>
    cases hturn : f.store.turn? eager now with
    | none =>
      rw [playAll_replicate_of_waiting hturn]
      simp [Store.turns, hturn]
    | some turned =>
      obtain ⟨store, applied⟩ := turned
      have hsplit : f.playAll (.replicate (n + 1) (.replicate eager now)) =
          (f.play (.replicate eager now)).playAll (.replicate n (.replicate eager now)) := rfl
      -- a turn tells the listener only of an entry that it applied
      cases applied with
      | none =>
        have hplay : f.play (.replicate eager now) = { f with store } := by
          simp only [play, hturn]
        have hsame : (f.play (.replicate eager now)).listener = some l := by
          rw [hplay, hlistener]
        obtain ⟨hstore, htold⟩ := ih (f.play (.replicate eager now)) hsame
        rw [hsplit]
        refine ⟨hstore.trans ?_, htold.trans ?_⟩ <;> simp [hplay, Store.turns, hturn]
      | some e =>
        have hplay : f.play (.replicate eager now) =
            { f with store, told := f.told ++ [⟨l, store.applied, e⟩] } := by
          simp [play, hturn, tell, hlistener]
        have hsame : (f.play (.replicate eager now)).listener = some l := by
          rw [hplay, hlistener]
        obtain ⟨hstore, htold⟩ := ih (f.play (.replicate eager now)) hsame
        rw [hsplit]
        refine ⟨hstore.trans ?_, htold.trans ?_⟩ <;> simp [hplay, Store.turns, hturn]

end Feed

end Intake
