import Intake.KeyPolicy
import Intake.Text.Quoted

/-!
# Candidates — what a scan offers

Every listed file gets its key; keys whose work has ended are left out.  A scan is taken as a
whole or not at all: one file without a key, or one key for two different files, rejects it.
-/

namespace Intake

structure KeyConflict where
  key : PartitionKey
  uris : List String
  deriving DecidableEq, Repr

def KeyConflict.text (c : KeyConflict) : String :=
  "partition_key=" ++ c.key.text ++ ", files=" ++ Text.quotedList c.uris

inductive Rejection where
  | conflicts (all : List KeyConflict)
  | noKey (cause : Error)
  deriving Repr

def Rejection.message : Rejection → String
  | conflicts all => toString all.length ++ " partition key conflict(s) detected"
  | noKey cause => cause.message

/-- **Key rule:** the key of a file, or why it has none.  A key policy gives one
    (`KeyPolicy.keyOf`). -/
abbrev KeyRule := Metadata → Except Error PartitionKey

namespace Candidates

def keyed (keyOf : KeyRule) (listed : List Metadata) :
    Except Error (List (PartitionKey × Metadata)) :=
  listed.mapM fun m => (keyOf m).map fun k => (k, m)

def filesOf (items : List (PartitionKey × Metadata)) (key : PartitionKey) : List Metadata :=
  ((items.filter (·.1 == key)).map Prod.snd).eraseDups

def keysOf (items : List (PartitionKey × Metadata)) : List PartitionKey :=
  (items.map Prod.fst).eraseDups

def conflictsOf (items : List (PartitionKey × Metadata)) : List KeyConflict :=
  ((keysOf items).filter fun k => (filesOf items k).length > 1).mergeSort
      (fun a b => a.text ≤ b.text)
    |>.map fun k => ⟨k, (filesOf items k).map Metadata.uriText⟩

/-- **Selects the candidates** of a scan: the file of every key that may be handed out. -/
def select (keyOf : KeyRule) (snapshot : Snapshot) (listed : List Metadata) :
    Except Rejection (Catalog PartitionKey Metadata) :=
  match keyed keyOf listed with
  | .error cause => .error (.noKey cause)
  | .ok items =>
    let items := items.filter fun e => snapshot.isSchedulable e.1
    match conflictsOf items with
    | [] => .ok (.ofList items)
    | found => .error (.conflicts found)

/-- **Candidates may be handed out** according to the snapshot that they were selected by. -/
theorem isSchedulable_of_select {keyOf : KeyRule} {snapshot : Snapshot} {listed : List Metadata}
    {candidates : Catalog PartitionKey Metadata} {k : PartitionKey}
    (h : select keyOf snapshot listed = .ok candidates) (hk : candidates.get? k ≠ none) :
    snapshot.isSchedulable k = true := by
  unfold select at h
  split at h
  next => cases h
  next items _ =>
    simp only at h
    split at h
    next =>
      cases h
      -- only keys that the snapshot admits were written
      have hmem := Catalog.mem_of_get?_insertAll (Catalog.get?_empty k) hk
      obtain ⟨e, he, rfl⟩ := List.mem_map.1 hmem
      exact (List.mem_filter.1 he).2
    next => cases h

theorem mem_of_keyed {keyOf : KeyRule} {listed : List Metadata}
    {items : List (PartitionKey × Metadata)} (h : keyed keyOf listed = .ok items)
    {k : PartitionKey} {file : Metadata} (hmem : (k, file) ∈ items) :
    file ∈ listed ∧ keyOf file = .ok k := by
  unfold keyed at h
  induction listed generalizing items with
  | nil =>
    cases h
    cases hmem
  | cons first rest ih =>
    rw [List.mapM_cons] at h
    cases hfirst : keyOf first with
    | error e =>
      rw [hfirst] at h
      cases h
    | ok key =>
      rw [hfirst] at h
      cases hrest : rest.mapM fun m => (keyOf m).map fun k => (k, m) with
      | error e =>
        simp only [hrest] at h
        cases h
      | ok others =>
        simp only [hrest] at h
        cases h
        rcases List.mem_cons.1 hmem with heq | hlater
        · cases heq
          exact ⟨List.mem_cons_self, hfirst⟩
        · obtain ⟨hlisted, hkey⟩ := ih hrest hlater
          exact ⟨List.mem_cons_of_mem first hlisted, hkey⟩

/-- **Candidates were listed,** and are kept under their keys. -/
theorem mem_of_select {keyOf : KeyRule} {snapshot : Snapshot} {listed : List Metadata}
    {candidates : Catalog PartitionKey Metadata} {k : PartitionKey} {file : Metadata}
    (h : select keyOf snapshot listed = .ok candidates) (hk : candidates.get? k = some file) :
    file ∈ listed ∧ keyOf file = .ok k := by
  unfold select at h
  split at h
  next => cases h
  next items hitems =>
    simp only at h
    split at h
    next =>
      cases h
      have hmem := (Catalog.mem_or_get?_of_insertAll hk).resolve_right (by simp)
      exact mem_of_keyed hitems (List.mem_filter.1 hmem).1
    next => cases h

end Candidates

end Intake
