/-!
# Catalog — finite maps

A catalog holds at most one value for each key.  `get?` is its view: every operation is described
by what it does to `get?`.  The order of the entries is the order in which their keys were last
written and carries no meaning.
-/

namespace Intake

structure Catalog (κ ν : Type) where
  entries : List (κ × ν)
  distinct : (entries.map Prod.fst).Nodup
  deriving DecidableEq

namespace Catalog

variable {κ ν : Type} [DecidableEq κ]

/-! ## 1. Operations -/

def empty : Catalog κ ν := ⟨[], by simp⟩

instance : EmptyCollection (Catalog κ ν) := ⟨empty⟩
instance : Inhabited (Catalog κ ν) := ⟨empty⟩

def get? (c : Catalog κ ν) (k : κ) : Option ν := (c.entries.find? (·.1 == k)).map Prod.snd

def contains (c : Catalog κ ν) (k : κ) : Bool := c.entries.any (·.1 == k)

def keys (c : Catalog κ ν) : List κ := c.entries.map Prod.fst

def values (c : Catalog κ ν) : List ν := c.entries.map Prod.snd

def size (c : Catalog κ ν) : Nat := c.entries.length

def isEmpty (c : Catalog κ ν) : Bool := c.entries.isEmpty

def filter (p : κ → ν → Bool) (c : Catalog κ ν) : Catalog κ ν :=
  ⟨c.entries.filter fun e => p e.1 e.2,
    (List.filter_sublist.map Prod.fst).nodup c.distinct⟩

def erase (c : Catalog κ ν) (k : κ) : Catalog κ ν := c.filter fun k' _ => k' != k

def insert (c : Catalog κ ν) (k : κ) (v : ν) : Catalog κ ν :=
  ⟨(c.erase k).entries ++ [(k, v)], by
    rw [List.map_append, List.nodup_append]
    refine ⟨(c.erase k).distinct, by simp, ?_⟩
    intro a ha b hb
    simp only [List.map_cons, List.map_nil, List.mem_singleton] at hb
    subst hb
    obtain ⟨e, he, rfl⟩ := List.mem_map.1 ha
    simp only [erase, filter, List.mem_filter, bne_iff_ne] at he
    exact he.2⟩

def insertNew (c : Catalog κ ν) (k : κ) (v : ν) : Catalog κ ν :=
  if c.contains k then c else c.insert k v

/-- Writes every entry of a list; of two values for one key the later counts. -/
def insertAll (c : Catalog κ ν) (es : List (κ × ν)) : Catalog κ ν :=
  es.foldl (fun acc e => acc.insert e.1 e.2) c

def ofList (es : List (κ × ν)) : Catalog κ ν := empty.insertAll es

/-! ## 2. The view -/

@[simp] theorem get?_empty (k : κ) : (empty : Catalog κ ν).get? k = none := rfl

theorem contains_eq_isSome (c : Catalog κ ν) (k : κ) : c.contains k = (c.get? k).isSome := by
  rw [Bool.eq_iff_iff]
  simp [contains, get?]

theorem mem_entries_iff (c : Catalog κ ν) {k : κ} {v : ν} :
    (k, v) ∈ c.entries ↔ c.get? k = some v := by
  obtain ⟨es, hd⟩ := c
  simp only [get?]
  induction es with
  | nil => simp
  | cons e es ih =>
    obtain ⟨k', v'⟩ := e
    simp only [List.map_cons, List.nodup_cons] at hd
    have ih := ih hd.2
    by_cases hk : k' = k
    · subst hk
      simp only [List.mem_cons, Prod.mk.injEq, true_and, List.find?_cons, beq_self_eq_true,
        Option.map_some, Option.some.injEq]
      constructor
      · rintro (h | h)
        · exact h.symm
        · exact absurd (List.mem_map.2 ⟨_, h, rfl⟩) hd.1
      · intro h
        exact Or.inl h.symm
    · have hb : (k' == k) = false := by simp [hk]
      simp only [List.mem_cons, Prod.mk.injEq, List.find?_cons, hb]
      rw [← ih]
      constructor
      · rintro (⟨h, -⟩ | h)
        · exact absurd h.symm hk
        · exact h
      · exact Or.inr

theorem mem_keys_iff (c : Catalog κ ν) {k : κ} : k ∈ c.keys ↔ c.contains k = true := by
  simp [keys, contains]

/-- What holds of the values of any two keys holds of any two values. -/
theorem pairwise_values {c : Catalog κ ν} {R : ν → ν → Prop}
    (h : ∀ {k l : κ} {v w : ν}, k ≠ l → c.get? k = some v → c.get? l = some w → R v w) :
    c.values.Pairwise R := by
  have hkeys : c.entries.Pairwise fun e f => e.1 ≠ f.1 := List.pairwise_map.1 c.distinct
  refine List.pairwise_map.2 (hkeys.imp_of_mem fun {e f} he hf hne => ?_)
  exact h hne ((mem_entries_iff c).1 he) ((mem_entries_iff c).1 hf)

theorem get?_filter (c : Catalog κ ν) (p : κ → ν → Bool) (k : κ) :
    (c.filter p).get? k = (c.get? k).filter (p k) := by
  apply Option.ext
  intro v
  rw [← mem_entries_iff, Option.filter_eq_some_iff, ← mem_entries_iff]
  simp [filter]

theorem get?_erase (c : Catalog κ ν) (k k' : κ) :
    (c.erase k).get? k' = if k' = k then none else c.get? k' := by
  rw [erase, get?_filter]
  by_cases h : k' = k
  · simp [h]
  · have : (k' != k) = true := by simp [h]
    simp only [h, if_false, this]
    cases c.get? k' <;> rfl

/-- What is there without a key was there with it. -/
theorem get?_of_erase {c : Catalog κ ν} {k k' : κ} {v : ν} (h : (c.erase k).get? k' = some v) :
    c.get? k' = some v := by
  rw [get?_erase] at h
  split at h
  · cases h
  · exact h

theorem get?_insert (c : Catalog κ ν) (k k' : κ) (v : ν) :
    (c.insert k v).get? k' = if k' = k then some v else c.get? k' := by
  apply Option.ext
  intro w
  rw [← mem_entries_iff]
  show (k', w) ∈ (c.erase k).entries ++ [(k, v)] ↔ _
  rw [List.mem_append, mem_entries_iff, get?_erase]
  by_cases h : k' = k
  · subst h
    simp [eq_comm]
  · simp [h]

theorem isEmpty_iff (c : Catalog κ ν) : c.isEmpty = true ↔ ∀ k, c.get? k = none := by
  constructor
  · intro h k
    have : c.entries = [] := List.isEmpty_iff.1 h
    simp [get?, this]
  · intro h
    rw [isEmpty, List.isEmpty_iff]
    cases hc : c.entries with
    | nil => rfl
    | cons e es =>
      have := (mem_entries_iff c (k := e.1) (v := e.2)).1 (by simp [hc])
      simp [h] at this

omit [DecidableEq κ] in
theorem eq_empty_of_isEmpty {c : Catalog κ ν} (h : c.isEmpty = true) : c = .empty := by
  obtain ⟨es, hd⟩ := c
  have hes : es = [] := List.isEmpty_iff.1 h
  subst hes
  rfl

theorem isEmpty_erase {c : Catalog κ ν} (h : c.isEmpty = true) (k : κ) :
    (c.erase k).isEmpty = true := by
  rw [isEmpty_iff] at h ⊢
  intro k'
  rw [get?_erase, h k', ite_self]

theorem get?_insertAll_of_notMem (c : Catalog κ ν) {es : List (κ × ν)} {k : κ}
    (h : k ∉ es.map Prod.fst) : (c.insertAll es).get? k = c.get? k := by
  induction es generalizing c with
  | nil => rfl
  | cons e es ih =>
    rw [List.map_cons, List.mem_cons, not_or] at h
    show ((c.insert e.1 e.2).insertAll es).get? k = c.get? k
    rw [ih _ h.2, get?_insert, if_neg h.1]

theorem get?_insertAll_of_mem (c : Catalog κ ν) {es : List (κ × ν)} {k : κ}
    (h : k ∈ es.map Prod.fst) : (c.insertAll es).get? k ≠ none := by
  induction es generalizing c with
  | nil => cases h
  | cons e es ih =>
    show ((c.insert e.1 e.2).insertAll es).get? k ≠ none
    by_cases hlater : k ∈ es.map Prod.fst
    · exact ih _ hlater
    · -- the first entry is the last that writes the key
      have hkey : k = e.1 := (List.mem_cons.1 h).resolve_right hlater
      rw [get?_insertAll_of_notMem _ hlater, get?_insert, if_pos hkey]
      exact Option.some_ne_none e.2

/-- A key that comes to have a value is one of those that were written. -/
theorem mem_of_get?_insertAll {c : Catalog κ ν} {es : List (κ × ν)} {k : κ}
    (h : c.get? k = none) (h' : (c.insertAll es).get? k ≠ none) : k ∈ es.map Prod.fst := by
  by_cases hmem : k ∈ es.map Prod.fst
  · exact hmem
  · rw [get?_insertAll_of_notMem c hmem] at h'
    exact absurd h h'

/-- A value that a catalog comes to hold was written, or was there before. -/
theorem mem_or_get?_of_insertAll {c : Catalog κ ν} {es : List (κ × ν)} {k : κ} {v : ν}
    (h : (c.insertAll es).get? k = some v) : (k, v) ∈ es ∨ c.get? k = some v := by
  induction es generalizing c with
  | nil => exact .inr h
  | cons e es ih =>
    change ((c.insert e.1 e.2).insertAll es).get? k = some v at h
    rcases ih h with hlater | hbefore
    · exact .inl (List.mem_cons_of_mem e hlater)
    · rw [get?_insert] at hbefore
      split at hbefore
      next hk =>
        cases hbefore
        rw [hk]
        exact .inl List.mem_cons_self
      next => exact .inr hbefore

/-- **Writing a catalog** over another one: its own values come first. -/
theorem get?_insertAll_entries (c d : Catalog κ ν) (k : κ) :
    (c.insertAll d.entries).get? k = (d.get? k).or (c.get? k) := by
  obtain ⟨es, hd⟩ := d
  show (c.insertAll es).get? k = _
  induction es generalizing c with
  | nil => rfl
  | cons e es ih =>
    rw [List.map_cons, List.nodup_cons] at hd
    show ((c.insert e.1 e.2).insertAll es).get? k = _
    by_cases hk : k = e.1
    · -- no later entry has this key
      subst hk
      rw [get?_insertAll_of_notMem _ hd.1, get?_insert, if_pos rfl]
      simp [get?]
    · have hne : (e.1 == k) = false := by
        rw [beq_eq_false_iff_ne]
        exact Ne.symm hk
      rw [ih _ hd.2, get?_insert, if_neg hk]
      simp [get?, hne]

/-! ## 3. The entries -/

omit [DecidableEq κ] in
theorem eq_of_entries {c d : Catalog κ ν} (h : c.entries = d.entries) : c = d := by
  cases c
  cases d
  cases h
  rfl

omit [DecidableEq κ] in
/-- Keeping every key keeps the catalog. -/
theorem filter_eq_self {c : Catalog κ ν} {p : κ → Bool} (h : ∀ k ∈ c.keys, p k = true) :
    (c.filter fun k _ => p k) = c :=
  eq_of_entries (List.filter_eq_self.2 fun _ he => h _ (List.mem_map_of_mem he))

omit [DecidableEq κ] in
theorem filter_filter (c : Catalog κ ν) (p q : κ → Bool) :
    ((c.filter fun k _ => p k).filter fun k _ => q k) = c.filter fun k _ => q k && p k :=
  eq_of_entries List.filter_filter

theorem erase_of_contains_eq_false {c : Catalog κ ν} {k : κ} (h : c.contains k = false) :
    c.erase k = c := by
  refine filter_eq_self fun k' hk' => ?_
  rw [bne_iff_ne]
  rintro rfl
  rw [mem_keys_iff, h] at hk'
  cases hk'

theorem size_erase_lt {c : Catalog κ ν} {k : κ} (h : c.contains k = true) :
    (c.erase k).size < c.size := by
  rw [← mem_keys_iff] at h
  obtain ⟨e, he, rfl⟩ := List.mem_map.1 h
  exact List.length_filter_lt_length_iff_exists.2 ⟨e, he, by simp⟩

/-- **New keys** are written behind the others, in their order. -/
theorem entries_insertAll_of_new {c : Catalog κ ν} {es : List (κ × ν)}
    (hnew : ∀ e ∈ es, c.contains e.1 = false) (hdistinct : (es.map Prod.fst).Nodup) :
    (c.insertAll es).entries = c.entries ++ es := by
  induction es generalizing c with
  | nil => exact (List.append_nil _).symm
  | cons e es ih =>
    obtain ⟨hfirst, hlater⟩ := List.forall_mem_cons.1 hnew
    rw [List.map_cons, List.nodup_cons] at hdistinct
    have hinsert : (c.insert e.1 e.2).entries = c.entries ++ [e] := by
      show (c.erase e.1).entries ++ [e] = _
      rw [erase_of_contains_eq_false hfirst]
    have hnext : ∀ e' ∈ es, (c.insert e.1 e.2).contains e'.1 = false := by
      intro e' he'
      have hne : e'.1 ≠ e.1 := fun heq => hdistinct.1 (heq ▸ List.mem_map_of_mem he')
      have hold := hlater e' he'
      rw [contains_eq_isSome] at hold ⊢
      rwa [get?_insert, if_neg hne]
    show ((c.insert e.1 e.2).insertAll es).entries = _
    rw [ih hnext hdistinct.2, hinsert, List.append_assoc]
    rfl

end Catalog

end Intake
