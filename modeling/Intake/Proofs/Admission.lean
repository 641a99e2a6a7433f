import Intake.Candidates
import Mathlib.Data.List.Nodup

/-!
# Admission — which listed files a scan offers

A scan offers the file of every key that may be handed out, unless some file has no key, or one of
these keys is the key of two different files.  Then nothing is offered: the first file without a
key is named, or every shared key with its different files (`Candidates.select_exact`).  The order
of the listing decides at most which file is named first.
-/

namespace Intake

/-! ## 1. The different items of a list -/

section Firsts

variable {α : Type} [DecidableEq α]

/-- **Firsts:** the items of a list, each once, in the order in which they first occur. -/
def Firsts (xs ys : List α) : Prop :=
  (∀ x, x ∈ ys ↔ x ∈ xs) ∧ ys.Pairwise fun a b => xs.idxOf a < xs.idxOf b

theorem Firsts.nodup {xs ys : List α} (h : Firsts xs ys) : ys.Nodup :=
  h.2.imp fun hlt heq => absurd (congrArg xs.idxOf heq) (Nat.ne_of_lt hlt)

/-- A filter keeps the order of first occurrences. -/
theorem idxOf_lt_of_filter {p : α → Bool} {xs : List α} {a b : α} (ha : p a = true)
    (hb : p b = true) (h : (xs.filter p).idxOf a < (xs.filter p).idxOf b) :
    xs.idxOf a < xs.idxOf b := by
  induction xs with
  | nil => cases h
  | cons x xs ih =>
    rw [List.idxOf_cons, List.idxOf_cons]
    by_cases hx : p x = true
    · rw [List.filter_cons_of_pos hx, List.idxOf_cons, List.idxOf_cons] at h
      by_cases hxb : x = b
      · simp [hxb] at h
      · by_cases hxa : x = a
        · have hne : a ≠ b := hxa ▸ hxb
          simp [hxa, beq_false_of_ne hne]
        · simp only [beq_false_of_ne hxa, beq_false_of_ne hxb, cond_false] at h ⊢
          exact Nat.succ_lt_succ (ih (Nat.lt_of_succ_lt_succ h))
    · -- an item that is dropped is neither of the two
      have hxa : x ≠ a := fun heq => hx (heq ▸ ha)
      have hxb : x ≠ b := fun heq => hx (heq ▸ hb)
      rw [List.filter_cons_of_neg hx] at h
      simp only [beq_false_of_ne hxa, beq_false_of_ne hxb, cond_false]
      exact Nat.succ_lt_succ (ih h)

/-- **Erasing repetitions** keeps the firsts. -/
theorem firsts_eraseDups (xs : List α) : Firsts xs xs.eraseDups := by
  refine ⟨fun x => List.mem_eraseDups, ?_⟩
  -- by the number of items: behind the first one, those that differ from it are fewer
  induction hlen : xs.length using Nat.strongRecOn generalizing xs with
  | ind n ih =>
    cases xs with
    | nil => exact .nil
    | cons x xs =>
      rw [List.eraseDups_cons]
      have hfewer : (xs.filter fun b => !b == x).length < n := by
        have hle := List.length_filter_le (fun b => !b == x) xs
        rw [List.length_cons] at hlen
        omega
      have hdiffers : ∀ b ∈ (xs.filter fun b => !b == x).eraseDups, b ≠ x := by
        intro b hb
        rw [List.mem_eraseDups, List.mem_filter] at hb
        simpa using hb.2
      refine List.pairwise_cons.2 ⟨?_, ?_⟩
      · intro b hb
        have hne : x ≠ b := (hdiffers b hb).symm
        simp [List.idxOf_cons, beq_false_of_ne hne]
      · refine (ih _ hfewer _ rfl).imp_of_mem fun {a b} ha hb hlt => ?_
        have hxa : x ≠ a := (hdiffers a ha).symm
        have hxb : x ≠ b := (hdiffers b hb).symm
        have hrest : xs.idxOf a < xs.idxOf b :=
          idxOf_lt_of_filter (by simp [hxa.symm]) (by simp [hxb.symm]) hlt
        rw [List.idxOf_cons, List.idxOf_cons]
        simp only [beq_false_of_ne hxa, beq_false_of_ne hxb, cond_false]
        exact Nat.succ_lt_succ hrest

omit [DecidableEq α] in
theorem one_lt_length_iff {xs : List α} (h : xs.Nodup) :
    1 < xs.length ↔ ∃ a ∈ xs, ∃ b ∈ xs, a ≠ b := by
  cases xs with
  | nil => simp
  | cons a others =>
    cases others with
    | nil => simp
    | cons b rest =>
      have hne : a ≠ b := fun heq => (List.nodup_cons.1 h).1 (heq ▸ List.mem_cons_self)
      refine iff_of_true ?_ ⟨a, by simp, b, by simp, hne⟩
      rw [List.length_cons, List.length_cons]
      omega

end Firsts

namespace Candidates

variable {keyOf : KeyRule} {snapshot : Snapshot} {listed : List Metadata}

/-! ## 2. Keys -/

theorem keyed_cons (keyOf : KeyRule) (m : Metadata) (rest : List Metadata) :
    keyed keyOf (m :: rest) =
      match keyOf m with
      | .error cause => .error cause
      | .ok k => (keyed keyOf rest).map fun items => (k, m) :: items := by
  unfold keyed
  rw [List.mapM_cons]
  cases keyOf m with
  | error cause => rfl
  | ok k => cases rest.mapM fun m => (keyOf m).map fun k => (k, m) <;> rfl

/-- **Keyed files** are those that were listed, in their order, each with its own key. -/
theorem keyed_eq_ok {items : List (PartitionKey × Metadata)}
    (h : keyed keyOf listed = .ok items) :
    items.map Prod.snd = listed ∧ ∀ e ∈ items, keyOf e.2 = .ok e.1 := by
  induction listed generalizing items with
  | nil =>
    cases h
    exact ⟨rfl, List.forall_mem_nil _⟩
  | cons m rest ih =>
    rw [keyed_cons] at h
    cases hkey : keyOf m with
    | error cause =>
      rw [hkey] at h
      cases h
    | ok k =>
      cases hrest : keyed keyOf rest with
      | error cause =>
        rw [hkey, hrest] at h
        cases h
      | ok others =>
        rw [hkey, hrest] at h
        cases h
        obtain ⟨hfiles, hkeys⟩ := ih hrest
        exact ⟨congrArg (m :: ·) hfiles, List.forall_mem_cons.2 ⟨hkey, hkeys⟩⟩

/-- **The first file without a key** is the error. -/
theorem keyed_eq_error_iff {cause : Error} :
    keyed keyOf listed = .error cause ↔ ∃ before m after, listed = before ++ m :: after ∧
      (∀ x ∈ before, ∃ k, keyOf x = .ok k) ∧ keyOf m = .error cause := by
  induction listed with
  | nil =>
    refine iff_of_false (fun h => by cases h) ?_
    rintro ⟨before, m, after, h, -⟩
    simp at h
  | cons m rest ih =>
    rw [keyed_cons]
    cases hkey : keyOf m with
    | error first =>
      -- the first file has none, so no file stands before it
      constructor
      · intro h
        cases h
        exact ⟨[], m, rest, rfl, List.forall_mem_nil _, hkey⟩
      · rintro ⟨before, m', after, hsplit, hbefore, hm'⟩
        cases before with
        | nil =>
          cases hsplit
          rw [hkey] at hm'
          cases hm'
          rfl
        | cons x before =>
          cases hsplit
          obtain ⟨k, hk⟩ := hbefore m List.mem_cons_self
          rw [hkey] at hk
          cases hk
    | ok k =>
      -- the first file has a key, so the error is one of the rest
      have hlater : (keyed keyOf rest).map (fun items => (k, m) :: items) = .error cause ↔
          keyed keyOf rest = .error cause := by
        cases keyed keyOf rest with
        | error first => exact ⟨fun h => by cases h; rfl, fun h => by cases h; rfl⟩
        | ok items => exact ⟨fun h => (by cases h), fun h => (by cases h)⟩
      simp only [hlater, ih]
      constructor
      · rintro ⟨before, m', after, rfl, hbefore, hm'⟩
        exact ⟨m :: before, m', after, rfl, List.forall_mem_cons.2 ⟨⟨k, hkey⟩, hbefore⟩, hm'⟩
      · rintro ⟨before, m', after, hsplit, hbefore, hm'⟩
        cases before with
        | nil =>
          cases hsplit
          rw [hkey] at hm'
          cases hm'
        | cons x before =>
          cases hsplit
          exact ⟨before, m', after, rfl, (List.forall_mem_cons.1 hbefore).2, hm'⟩

/-- **Every file has a key,** or some file has none. -/
theorem exists_keyed_iff :
    (∃ items, keyed keyOf listed = .ok items) ↔ ∀ m ∈ listed, ∃ k, keyOf m = .ok k := by
  constructor
  · rintro ⟨items, h⟩ m hm
    obtain ⟨hfiles, hkeys⟩ := keyed_eq_ok h
    rw [← hfiles] at hm
    obtain ⟨e, he, rfl⟩ := List.mem_map.1 hm
    exact ⟨e.1, hkeys e he⟩
  · intro h
    cases hkeyed : keyed keyOf listed with
    | ok items => exact ⟨items, rfl⟩
    | error cause =>
      obtain ⟨before, m, after, rfl, -, hm⟩ := keyed_eq_error_iff.1 hkeyed
      obtain ⟨k, hk⟩ := h m (List.mem_append_right _ List.mem_cons_self)
      rw [hm] at hk
      cases hk

/-! ## 3. What is shared -/

def MayStart (snapshot : Snapshot) (k : PartitionKey) : Prop :=
  ∀ r, snapshot.get? k = some r → r.status ∈ [.scheduled, .started, .reading]

theorem isSchedulable_iff {k : PartitionKey} :
    snapshot.isSchedulable k = true ↔ MayStart snapshot k := by
  unfold Snapshot.isSchedulable MayStart
  cases snapshot.get? k with
  | none => simp
  | some r => simp [Status.isStartable, Status.isOneOf, Status.startable]

def filesUnder (keyOf : KeyRule) (listed : List Metadata) (k : PartitionKey) : List Metadata :=
  listed.filter fun m => (keyOf m).toOption == some k

theorem mem_filesUnder {k : PartitionKey} {m : Metadata} :
    m ∈ filesUnder keyOf listed k ↔ m ∈ listed ∧ keyOf m = .ok k := by
  rw [filesUnder, List.mem_filter, beq_iff_eq]
  cases keyOf m with
  | error cause => simp [Except.toOption]
  | ok l => simp [Except.toOption]

def Shared (keyOf : KeyRule) (snapshot : Snapshot) (listed : List Metadata) (k : PartitionKey) :
    Prop :=
  MayStart snapshot k ∧ ∃ a ∈ listed, ∃ b ∈ listed, a ≠ b ∧ keyOf a = .ok k ∧ keyOf b = .ok k

theorem Shared.of_perm {listed' : List Metadata} {k : PartitionKey} (hperm : listed.Perm listed')
    (h : Shared keyOf snapshot listed k) : Shared keyOf snapshot listed' k := by
  obtain ⟨hstart, a, ha, b, hb, hrest⟩ := h
  exact ⟨hstart, a, hperm.mem_iff.1 ha, b, hperm.mem_iff.1 hb, hrest⟩

/-- **Reports the shared keys:** these and no others, each once, in the order of their text, with
    the URIs of its different files in the order in which they were listed first. -/
structure Reports (keyOf : KeyRule) (snapshot : Snapshot) (listed : List Metadata)
    (found : List KeyConflict) : Prop where
  mem_iff : ∀ k, k ∈ found.map KeyConflict.key ↔ Shared keyOf snapshot listed k
  sorted : found.Pairwise fun a b => a.key.text < b.key.text
  files : ∀ c ∈ found, ∃ files, Firsts (filesUnder keyOf listed c.key) files ∧
    c.uris = files.map Metadata.uriText

/-- Reports of the same shared keys name them alike. -/
theorem Reports.keys_eq {listed' : List Metadata} {found found' : List KeyConflict}
    (h : Reports keyOf snapshot listed found) (h' : Reports keyOf snapshot listed' found')
    (hperm : listed.Perm listed') : found.map KeyConflict.key = found'.map KeyConflict.key := by
  have hsorted : (found.map KeyConflict.key).Pairwise fun a b => a.text < b.text :=
    List.pairwise_map.2 h.sorted
  have hsorted' : (found'.map KeyConflict.key).Pairwise fun a b => a.text < b.text :=
    List.pairwise_map.2 h'.sorted
  have hnodup : ∀ {ks : List PartitionKey},
      (ks.Pairwise fun a b => a.text < b.text) → ks.Nodup := by
    intro ks hks
    refine hks.imp fun {a b} hlt heq => ?_
    rw [heq] at hlt
    exact String.lt_irrefl _ hlt
  have hsame : (found.map KeyConflict.key).Perm (found'.map KeyConflict.key) := by
    refine (List.perm_ext_iff_of_nodup (hnodup hsorted) (hnodup hsorted')).2 fun k => ?_
    rw [h.mem_iff, h'.mem_iff]
    exact ⟨.of_perm hperm, .of_perm hperm.symm⟩
  exact hsame.eq_of_pairwise (fun a b _ _ hab hba => absurd hba (String.lt_asymm hab)) hsorted
    hsorted'

/-! ## 4. What is found -/

section Found

variable {items : List (PartitionKey × Metadata)} {k : PartitionKey}

/-- The different files of a key that may be handed out are the firsts of its listed files. -/
theorem filesOf_schedulable (h : keyed keyOf listed = .ok items) (hk : MayStart snapshot k) :
    filesOf (items.filter fun e => snapshot.isSchedulable e.1) k =
      (filesUnder keyOf listed k).eraseDups := by
  obtain ⟨hfiles, hkeys⟩ := keyed_eq_ok h
  have hkept : (items.filter fun e => snapshot.isSchedulable e.1).filter (·.1 == k) =
      items.filter fun e => (keyOf e.2).toOption == some k := by
    rw [List.filter_filter]
    refine List.filter_congr fun e he => ?_
    rw [hkeys e he]
    by_cases hek : e.1 = k
    · simp [hek, isSchedulable_iff.2 hk, Except.toOption]
    · simp [hek, Except.toOption]
  unfold filesOf filesUnder
  rw [hkept, ← hfiles, List.filter_map]
  rfl

theorem mem_keysOf_schedulable (h : keyed keyOf listed = .ok items) :
    k ∈ keysOf (items.filter fun e => snapshot.isSchedulable e.1) ↔
      MayStart snapshot k ∧ ∃ m ∈ listed, keyOf m = .ok k := by
  obtain ⟨hfiles, hkeys⟩ := keyed_eq_ok h
  rw [keysOf, List.mem_eraseDups, List.mem_map]
  constructor
  · rintro ⟨e, he, rfl⟩
    obtain ⟨hitem, hstart⟩ := List.mem_filter.1 he
    exact ⟨isSchedulable_iff.1 hstart, e.2, hfiles ▸ List.mem_map_of_mem hitem, hkeys e hitem⟩
  · rintro ⟨hstart, m, hm, hkey⟩
    rw [← hfiles] at hm
    obtain ⟨e, he, rfl⟩ := List.mem_map.1 hm
    obtain rfl : e.1 = k := Except.ok.inj ((hkeys e he).symm.trans hkey)
    exact ⟨e, List.mem_filter.2 ⟨he, isSchedulable_iff.2 hstart⟩, rfl⟩

theorem pairwise_sortedKeys {ks : List PartitionKey} (h : ks.Nodup) :
    (ks.mergeSort fun a b => a.text ≤ b.text).Pairwise fun a b => a.text < b.text := by
  have hle : (ks.mergeSort fun a b => a.text ≤ b.text).Pairwise
      fun a b => decide (a.text ≤ b.text) = true := by
    refine List.pairwise_mergeSort (fun a b c hab hbc => ?_) (fun a b => ?_) ks
    · exact decide_eq_true (String.le_trans (of_decide_eq_true hab) (of_decide_eq_true hbc))
    · simpa using String.le_total a.text b.text
  have hne : (ks.mergeSort fun a b => a.text ≤ b.text).Nodup :=
    (List.mergeSort_perm ks _).nodup_iff.2 h
  refine (hle.and hne).imp fun {a b} hab => ?_
  refine Std.lt_of_le_of_ne (of_decide_eq_true hab.1) fun htext => hab.2 ?_
  cases a
  cases b
  exact congrArg PartitionKey.mk htext

/-- **What is found are the shared keys.** -/
theorem reports_conflictsOf (h : keyed keyOf listed = .ok items) :
    Reports keyOf snapshot listed
      (conflictsOf (items.filter fun e => snapshot.isSchedulable e.1)) := by
  let admitted := items.filter fun e => snapshot.isSchedulable e.1
  have hfound : (conflictsOf admitted).map KeyConflict.key =
      ((keysOf admitted).filter fun k => (filesOf admitted k).length > 1).mergeSort
        fun a b => a.text ≤ b.text := by
    unfold conflictsOf
    rw [List.map_map]
    exact List.map_id _
  have hkeys : ∀ k, k ∈ (conflictsOf admitted).map KeyConflict.key ↔
      Shared keyOf snapshot listed k := by
    intro k
    rw [hfound, List.mem_mergeSort, List.mem_filter, mem_keysOf_schedulable h, decide_eq_true_iff]
    constructor
    · rintro ⟨⟨hstart, -⟩, hmany⟩
      rw [filesOf_schedulable h hstart] at hmany
      obtain ⟨a, ha, b, hb, hne⟩ := (one_lt_length_iff (firsts_eraseDups _).nodup).1 hmany
      rw [List.mem_eraseDups, mem_filesUnder] at ha hb
      exact ⟨hstart, a, ha.1, b, hb.1, hne, ha.2, hb.2⟩
    · rintro ⟨hstart, a, ha, b, hb, hne, hka, hkb⟩
      refine ⟨⟨hstart, a, ha, hka⟩, ?_⟩
      rw [filesOf_schedulable h hstart]
      refine (one_lt_length_iff (firsts_eraseDups _).nodup).2 ⟨a, ?_, b, ?_, hne⟩
      · exact List.mem_eraseDups.2 (mem_filesUnder.2 ⟨ha, hka⟩)
      · exact List.mem_eraseDups.2 (mem_filesUnder.2 ⟨hb, hkb⟩)
  -- the keys of what is found stand sorted, and each with the first of every file under it
  refine ⟨hkeys, ?_, ?_⟩
  · rw [← List.pairwise_map (f := KeyConflict.key) (R := fun a b => a.text < b.text), hfound]
    exact pairwise_sortedKeys ((firsts_eraseDups _).nodup.filter _)
  · intro c hc
    have hstart : MayStart snapshot c.key := ((hkeys c.key).1 (List.mem_map_of_mem hc)).1
    obtain ⟨k, -, rfl⟩ := List.mem_map.1 hc
    exact ⟨_, firsts_eraseDups _, congrArg (List.map _) (filesOf_schedulable h hstart)⟩

/-- **Without shared keys** every key that may be handed out keeps its one file. -/
theorem get?_ofList_iff (h : keyed keyOf listed = .ok items)
    (hnone : ¬Shared keyOf snapshot listed k) {m : Metadata} :
    (Catalog.ofList (items.filter fun e => snapshot.isSchedulable e.1)).get? k = some m ↔
      MayStart snapshot k ∧ m ∈ listed ∧ keyOf m = .ok k := by
  have hkept : ∀ {m : Metadata},
      (Catalog.ofList (items.filter fun e => snapshot.isSchedulable e.1)).get? k = some m →
      MayStart snapshot k ∧ m ∈ listed ∧ keyOf m = .ok k := by
    intro m hm
    have hmem := (Catalog.mem_or_get?_of_insertAll hm).resolve_right (by simp)
    obtain ⟨hitem, hstart⟩ := List.mem_filter.1 hmem
    exact ⟨isSchedulable_iff.1 hstart, mem_of_keyed h hitem⟩
  refine ⟨hkept, ?_⟩
  rintro ⟨hstart, hm, hkey⟩
  have hwritten : k ∈ (items.filter fun e => snapshot.isSchedulable e.1).map Prod.fst :=
    List.mem_eraseDups.1 ((mem_keysOf_schedulable h).2 ⟨hstart, m, hm, hkey⟩)
  obtain ⟨other, hother⟩ :=
    Option.ne_none_iff_exists'.1 (Catalog.get?_insertAll_of_mem .empty hwritten)
  -- the file that the key keeps is this one, or the key would be shared
  obtain ⟨-, hlisted, hkey'⟩ := hkept hother
  by_cases hsame : other = m
  · rw [← hsame]
    exact hother
  · exact absurd ⟨hstart, other, hlisted, m, hm, hsame, hkey', hkey⟩ hnone

end Found

/-! ## 5. What is offered -/

/-- **A scan in three cases:** a file without a key, shared keys, or an offer. -/
theorem select_cases (keyOf : KeyRule) (snapshot : Snapshot) (listed : List Metadata) :
    (∃ cause, select keyOf snapshot listed = .error (.noKey cause) ∧
      keyed keyOf listed = .error cause ∧ ¬∀ m ∈ listed, ∃ k, keyOf m = .ok k) ∨
    (∃ found, select keyOf snapshot listed = .error (.conflicts found) ∧
      Reports keyOf snapshot listed found ∧ (∀ m ∈ listed, ∃ k, keyOf m = .ok k) ∧
      ∃ k, Shared keyOf snapshot listed k) ∨
    ∃ candidates, select keyOf snapshot listed = .ok candidates ∧
      (∀ k m, candidates.get? k = some m ↔ MayStart snapshot k ∧ m ∈ listed ∧ keyOf m = .ok k) ∧
      (∀ m ∈ listed, ∃ k, keyOf m = .ok k) ∧ ¬∃ k, Shared keyOf snapshot listed k := by
  unfold select
  rw [← exists_keyed_iff]
  cases hkeyed : keyed keyOf listed with
  | error cause =>
    refine .inl ⟨cause, rfl, rfl, ?_⟩
    rintro ⟨items, h⟩
    cases h
  | ok items =>
    right
    have hreports : Reports keyOf snapshot listed
        (conflictsOf (items.filter fun e => snapshot.isSchedulable e.1)) :=
      reports_conflictsOf hkeyed
    simp only
    cases hfound : conflictsOf (items.filter fun e => snapshot.isSchedulable e.1) with
    | nil =>
      rw [hfound] at hreports
      have hnone : ∀ k, ¬Shared keyOf snapshot listed k := by
        intro k hk
        cases (hreports.mem_iff k).2 hk
      right
      exact ⟨_, rfl, fun k m => get?_ofList_iff hkeyed (hnone k), ⟨items, rfl⟩, not_exists.2 hnone⟩
    | cons first rest =>
      rw [hfound] at hreports
      left
      exact ⟨_, rfl, hreports, ⟨items, rfl⟩, first.key, (hreports.mem_iff _).1 List.mem_cons_self⟩

/-- **One verdict:** two scans end in the same way, offer the same files under the same keys, and
    find the same keys shared. -/
inductive Agree : Except Rejection (Catalog PartitionKey Metadata) →
    Except Rejection (Catalog PartitionKey Metadata) → Prop
  | noKey (first other : Error) : Agree (.error (.noKey first)) (.error (.noKey other))
  | conflicts {found other : List KeyConflict}
      (same : found.map KeyConflict.key = other.map KeyConflict.key) :
      Agree (.error (.conflicts found)) (.error (.conflicts other))
  | offered {candidates other : Catalog PartitionKey Metadata}
      (same : ∀ k, candidates.get? k = other.get? k) : Agree (.ok candidates) (.ok other)

/-- **The order of the listing** does not change the verdict. -/
theorem agree_of_perm {listed' : List Metadata} (hperm : listed.Perm listed') :
    Agree (select keyOf snapshot listed) (select keyOf snapshot listed') := by
  have hkeys : (∀ m ∈ listed', ∃ k, keyOf m = .ok k) ↔ ∀ m ∈ listed, ∃ k, keyOf m = .ok k := by
    simp only [hperm.mem_iff]
  have hshared : (∃ k, Shared keyOf snapshot listed' k) ↔ ∃ k, Shared keyOf snapshot listed k :=
    exists_congr fun k => ⟨.of_perm hperm.symm, .of_perm hperm⟩
  -- both scans fall under the same of the three cases, which the files and shared keys tell apart
  rcases select_cases keyOf snapshot listed with
    ⟨cause, h, -, hall⟩ | ⟨found, h, hreports, hall, hsome⟩ | ⟨c, h, hget, hall, hnone⟩ <;>
  rcases select_cases keyOf snapshot listed' with
    ⟨cause', h', -, hall'⟩ | ⟨found', h', hreports', hall', hsome'⟩ |
    ⟨d, h', hget', hall', hnone'⟩ <;>
  rw [h, h'] <;> rw [hkeys] at hall'
  case inl.inl => exact .noKey cause cause'
  case inl.inr.inl => exact absurd hall' hall
  case inl.inr.inr => exact absurd hall' hall
  case inr.inl.inl => exact absurd hall hall'
  case inr.inl.inr.inl => exact .conflicts (hreports.keys_eq hreports' hperm)
  case inr.inl.inr.inr => exact absurd (hshared.2 hsome) hnone'
  case inr.inr.inl => exact absurd hall hall'
  case inr.inr.inr.inl => exact absurd (hshared.1 hsome') hnone
  case inr.inr.inr.inr =>
    refine .offered fun k => ?_
    apply Option.ext
    intro m
    rw [hget, hget', hperm.mem_iff]

/-- **What a scan offers.**  A file without a key rejects the scan, and the first one is named.
    Otherwise keys that may be handed out and that different files share reject it, and exactly
    these are reported.  Otherwise every key that may be handed out is offered with its one file.
    No order of the listing changes the verdict. -/
theorem select_exact (keyOf : KeyRule) (snapshot : Snapshot) (listed : List Metadata) :
    ((∃ cause, select keyOf snapshot listed = .error (.noKey cause)) ↔
      ∃ m ∈ listed, ∃ cause, keyOf m = .error cause) ∧
    (∀ cause, select keyOf snapshot listed = .error (.noKey cause) →
      ∃ before m after, listed = before ++ m :: after ∧
        (∀ x ∈ before, ∃ k, keyOf x = .ok k) ∧ keyOf m = .error cause) ∧
    ((∃ found, select keyOf snapshot listed = .error (.conflicts found)) ↔
      (∀ m ∈ listed, ∃ k, keyOf m = .ok k) ∧ ∃ k, Shared keyOf snapshot listed k) ∧
    (∀ found, select keyOf snapshot listed = .error (.conflicts found) →
      Reports keyOf snapshot listed found) ∧
    (∀ candidates, select keyOf snapshot listed = .ok candidates → ∀ k m,
      candidates.get? k = some m ↔ MayStart snapshot k ∧ m ∈ listed ∧ keyOf m = .ok k) ∧
    ∀ listed', listed.Perm listed' →
      Agree (select keyOf snapshot listed) (select keyOf snapshot listed') := by
  have hunkeyed : (∃ m ∈ listed, ∃ cause, keyOf m = .error cause) ↔
      ¬∀ m ∈ listed, ∃ k, keyOf m = .ok k := by
    rw [not_forall]
    refine exists_congr fun m => ?_
    cases keyOf m with
    | error cause => simp
    | ok k => simp
  rw [hunkeyed]
  have horder : ∀ listed', listed.Perm listed' →
      Agree (select keyOf snapshot listed) (select keyOf snapshot listed') :=
    fun _ => agree_of_perm
  rcases select_cases keyOf snapshot listed with
    ⟨cause, h, hkeyed, hall⟩ | ⟨found, h, hreports, hall, hsome⟩ | ⟨c, h, hget, hall, hnone⟩
  · -- some file has no key
    rw [h] at horder ⊢
    refine ⟨iff_of_true ⟨cause, rfl⟩ hall, ?_, iff_of_false ?_ fun hboth => hall hboth.1,
      fun _ h => ?_, fun _ h => ?_, horder⟩
    · intro cause' hcause
      cases hcause
      exact keyed_eq_error_iff.1 hkeyed
    · rintro ⟨_, h⟩
      cases h
    · cases h
    · cases h
  · -- all have keys, and different files share some
    rw [h] at horder ⊢
    refine ⟨iff_of_false ?_ (not_not.2 hall), fun _ h => ?_, iff_of_true ⟨found, rfl⟩ ⟨hall, hsome⟩,
      ?_, fun _ h => ?_, horder⟩
    · rintro ⟨_, h⟩
      cases h
    · cases h
    · intro found' hfound
      cases hfound
      exact hreports
    · cases h
  · -- all have keys of their own
    rw [h] at horder ⊢
    refine ⟨iff_of_false ?_ (not_not.2 hall), fun _ h => ?_,
      iff_of_false ?_ fun hboth => hnone hboth.2, fun _ h => ?_, ?_, horder⟩
    · rintro ⟨_, h⟩
      cases h
    · cases h
    · rintro ⟨_, h⟩
      cases h
    · cases h
    · intro candidates hcandidates
      cases hcandidates
      exact hget

/-- Two names are shared, one of them with a repeated file beside it; a third is shared too, but
    its work is cleaned.  The files of the second directory alone are offered, but for the cleaned
    one. -/
theorem select_exact_shared :
    let keyOf : KeyRule := fun m => .ok ⟨m.name⟩
    let file (dir name : String) : Metadata :=
      ⟨⟨"file", none, "/" ++ dir ++ "/" ++ name, none, none⟩, name, 1, default, none⟩
    let snapshot : Snapshot := ⟨1, Catalog.empty.insert ⟨"c"⟩ (.new (file "x" "c") .cleaned)⟩
    let apart := [file "y" "b", file "y" "c", file "y" "a"]
    let listed := [file "x" "b", file "x" "a", file "x" "b", file "x" "c"] ++ apart
    listed.Perm listed.reverse ∧
      (∃ found, select keyOf snapshot listed = .error (.conflicts found) ∧
        Reports keyOf snapshot listed found ∧
        ∀ k, k ∈ found.map KeyConflict.key ↔ k = ⟨"a"⟩ ∨ k = ⟨"b"⟩) ∧
      Agree (select keyOf snapshot listed) (select keyOf snapshot listed.reverse) ∧
      ∃ candidates, select keyOf snapshot apart = .ok candidates ∧
        candidates.get? ⟨"a"⟩ = some (file "y" "a") ∧ candidates.get? ⟨"c"⟩ = none := by
  intro keyOf file snapshot apart listed
  obtain ⟨-, -, hrejects, hreports, -, horder⟩ := select_exact keyOf snapshot listed
  obtain ⟨-, -, -, -, hoffers, -⟩ := select_exact keyOf snapshot apart
  have hperm : listed.Perm listed.reverse := (List.reverse_perm listed).symm
  have hcleaned : ¬MayStart snapshot ⟨"c"⟩ :=
    fun h => absurd (isSchedulable_iff.2 h) (by decide +kernel)
  have hshared : ∀ k, Shared keyOf snapshot listed k ↔ k = ⟨"a"⟩ ∨ k = ⟨"b"⟩ := by
    intro k
    constructor
    · rintro ⟨hstart, m, hm, -, -, -, hkey, -⟩
      have hnames : ∀ m ∈ listed, m.name = "a" ∨ m.name = "b" ∨ m.name = "c" := by decide +kernel
      obtain rfl : k = ⟨m.name⟩ := (Except.ok.inj hkey).symm
      rcases hnames m hm with hname | hname | hname <;> rw [hname] at hstart ⊢
      · exact .inl rfl
      · exact .inr rfl
      · exact absurd hstart hcleaned
    · rintro (rfl | rfl)
      · exact ⟨isSchedulable_iff.1 (by decide +kernel), file "x" "a", by decide +kernel,
          file "y" "a", by decide +kernel, by decide +kernel, rfl, rfl⟩
      · exact ⟨isSchedulable_iff.1 (by decide +kernel), file "x" "b", by decide +kernel,
          file "y" "b", by decide +kernel, by decide +kernel, rfl, rfl⟩
  obtain ⟨found, hfound⟩ := hrejects.2 ⟨fun m _ => ⟨_, rfl⟩, ⟨"a"⟩, (hshared _).2 (.inl rfl)⟩
  have hoffered : (select keyOf snapshot apart).isOk = true := by decide +kernel
  refine ⟨hperm, ⟨found, hfound, hreports found hfound, ?_⟩, horder _ hperm, ?_⟩
  · intro k
    rw [(hreports found hfound).mem_iff, hshared]
  · cases hcandidates : select keyOf snapshot apart with
    | error rejection =>
      rw [hcandidates] at hoffered
      cases hoffered
    | ok candidates =>
      refine ⟨candidates, rfl, (hoffers _ hcandidates _ _).2 ?_, ?_⟩
      · exact ⟨isSchedulable_iff.1 (by decide +kernel), by decide +kernel, rfl⟩
      · rw [Option.eq_none_iff_forall_ne_some]
        intro m hm
        exact hcleaned ((hoffers _ hcandidates _ _).1 hm).1

end Candidates

end Intake
