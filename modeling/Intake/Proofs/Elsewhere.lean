import Intake.Cleanup

/-!
# Elsewhere — which files a cleanup leaves alone

A cleanup reaches files through the local path that a URI spells, and this does not depend on the
URI's scheme.  So a record is left alone just when its URI has no path of steps or names another
host (`CleanupPolicy.leavesAlone_iff`); a record of another scheme that names no host, or this one,
loses the local file of that path (`CleanupPolicy.delete_reaches_localhost`).
-/

namespace Intake

/-- **Elsewhere:** the URI is no hierarchy, or it names another host. -/
def Uri.IsElsewhere (u : Uri) : Prop := u.segments? = none ∨ u.isHere = false

/-- A URI spells a local path unless it is elsewhere. -/
theorem Uri.toPath?_eq_none_iff (u : Uri) : u.toPath? = none ↔ u.IsElsewhere := by
  unfold toPath? IsElsewhere
  cases u.segments? with
  | none => simp
  | some segments => cases u.isHere <;> simp

def Volume.ofFiles (files : Files) : Volume := { backing := .memory files }

namespace CleanupPolicy

/-! ## 1. Batches -/

def outcomeOf (result : Except Error Unit) : Outcome := if result.isOk then .succeed else .fail

section Batches

variable (treat : Treatment) (v : Volume) (r : Record) (xs ys : List Record)

/-- A batch treats its first record first. -/
theorem batch_cons :
    (batch treat v (r :: xs)).1 = (batch treat (treat v r).1 xs).1 ∧
      (batch treat v (r :: xs)).2.1 =
        (r, if (treat v r).2.isOk then .succeed else .fail) ::
          (batch treat (treat v r).1 xs).2.1 := by
  rw [batch]
  obtain ⟨v', result⟩ := treat v r
  cases result with
  | ok _ => exact ⟨rfl, rfl⟩
  | error _ => exact ⟨rfl, rfl⟩

/-- **A batch in two parts:** the second starts from the volume behind the first. -/
theorem batch_append :
    (batch treat v (xs ++ ys)).1 = (batch treat (batch treat v xs).1 ys).1 ∧
      (batch treat v (xs ++ ys)).2.1 =
        (batch treat v xs).2.1 ++ (batch treat (batch treat v xs).1 ys).2.1 := by
  induction xs generalizing v with
  | nil => exact ⟨rfl, rfl⟩
  | cons x xs ih =>
    -- the rest starts from the volume behind the first record, with and without the second part
    obtain ⟨hvolume, hresults⟩ := ih (treat v x).1
    obtain ⟨hvolume', hresults'⟩ := batch_cons treat v x xs
    obtain ⟨hvolume'', hresults''⟩ := batch_cons treat v x (xs ++ ys)
    rw [List.cons_append, hvolume'', hresults'', hvolume', hresults', hvolume, hresults]
    exact ⟨rfl, rfl⟩

theorem length_batch : (batch treat v xs).2.1.length = xs.length := by
  induction xs generalizing v with
  | nil => rfl
  | cons x xs ih => rw [(batch_cons treat v x xs).2, List.length_cons, List.length_cons, ih]

/-- **A batch gives back** its records, in order. -/
theorem map_fst_batch : (batch treat v xs).2.1.map Prod.fst = xs := by
  induction xs generalizing v with
  | nil => rfl
  | cons x xs ih => rw [(batch_cons treat v x xs).2, List.map_cons, ih]

/-- **Each record is treated,** whatever the outcomes of the others are. -/
theorem getElem?_batch :
    (batch treat v (xs ++ r :: ys)).2.1[xs.length]? =
      some (r, outcomeOf (treat (batch treat v xs).1 r).2) := by
  have hplace : (batch treat v xs).2.1.length ≤ xs.length := Nat.le_of_eq (length_batch treat v xs)
  rw [(batch_append treat v xs (r :: ys)).2, List.getElem?_append_right hplace, length_batch,
    Nat.sub_self, (batch_cons ..).2]
  rfl

end Batches

/-! ## 2. Records elsewhere -/

/-- **A policy leaves a record alone:** in every batch its cleanup fails, and the files are as if it
    were not in the batch. -/
def LeavesAlone (p : CleanupPolicy) (r : Record) : Prop :=
  ∀ (files : Files) (before after : List Record),
    (batch p.apply (.ofFiles files) (before ++ r :: after)).1 =
        (batch p.apply (.ofFiles files) (before ++ after)).1 ∧
      (batch p.apply (.ofFiles files) (before ++ r :: after)).2.1[before.length]? =
        some (r, .fail)

/-- A record on which a policy fails without a change is left alone. -/
theorem leavesAlone_of_apply {p : CleanupPolicy} {r : Record} {e : Error}
    (h : ∀ v : Volume, p.apply v r = (v, .error e)) : p.LeavesAlone r := by
  intro files before after
  constructor
  · rw [(batch_append p.apply (.ofFiles files) before (r :: after)).1, (batch_cons ..).1, h,
      (batch_append p.apply (.ofFiles files) before after).1]
  · rw [getElem?_batch, h]
    rfl

/-- A record whose cleanup succeeds on some files is not left alone. -/
theorem not_leavesAlone_of_apply {p : CleanupPolicy} {r : Record} {files : Files}
    (h : (p.apply (.ofFiles files) r).2 = .ok ()) : ¬ p.LeavesAlone r := by
  intro halone
  obtain ⟨-, hfail⟩ := halone files [] []
  rw [List.nil_append, (batch_cons ..).2, h] at hfail
  cases hfail

theorem apply_of_toPath?_eq_none {r : Record} (h : r.metadata.uri.toPath? = none) (v : Volume) :
    apply .delete v r = (v, .error (.notLocal r.metadata.uri)) ∧
      ∀ success failure, apply (.move success failure) v r =
        (v, .error (.notLocal r.metadata.uri)) := by
  have hlocal : localPath r = .error (.notLocal r.metadata.uri) := by
    unfold localPath
    rw [h]
  refine ⟨?_, ?_⟩
  · unfold apply
    rw [hlocal]
  · intro success failure
    unfold apply
    rw [hlocal]

/-- **A file at the local path** of a record is reached, whatever the scheme is. -/
theorem apply_of_toPath?_eq_some {r : Record} {path : Path}
    (h : r.metadata.uri.toPath? = some path) {files : Files} {size : Nat} {modified : Instant}
    (hfile : files.find? path = some (.file size modified)) :
    apply .delete (.ofFiles files) r = (.ofFiles (files.erase path), .ok ()) ∧
      ∀ success failure, apply (.move success failure) (.ofFiles files) r =
        (.ofFiles ((files.erase path).addFile (target success failure r) size modified),
          .ok ()) := by
  have hlocal : localPath r = .ok path := by
    unfold localPath
    rw [h]
  have hthere : (Volume.ofFiles files).contains path = true := by
    show files.contains path = true
    rw [Files.contains_eq_isSome, hfile]
    rfl
  refine ⟨?_, ?_⟩
  · have hremove : (Volume.ofFiles files).removeFile path =
        (.ofFiles (files.erase path), .ok ()) := by
      simp only [Volume.removeFile, Volume.ofFiles, Files.removeFile, hfile]
      rfl
    unfold apply
    rw [hlocal]
    simp only [deleteFile, hremove]
  · intro success failure
    have hrename : (Volume.ofFiles files).rename path (target success failure r) =
        (.ofFiles ((files.erase path).addFile (target success failure r) size modified),
          .ok ()) := by
      simp only [Volume.rename, Volume.ofFiles, Files.rename, hfile]
      rfl
    unfold apply
    rw [hlocal]
    simp only [moveFile, hthere, hrename]
    rfl

/-- **Which records are left alone:** those whose URI is elsewhere, and no others. -/
theorem leavesAlone_iff (success failure : Path) (r : Record) :
    (LeavesAlone .delete r ↔ r.metadata.uri.IsElsewhere) ∧
      (LeavesAlone (.move success failure) r ↔ r.metadata.uri.IsElsewhere) := by
  rw [← Uri.toPath?_eq_none_iff]
  cases hpath : r.metadata.uri.toPath? with
  | none =>
    have happly := apply_of_toPath?_eq_none hpath
    refine ⟨iff_of_true ?_ rfl, iff_of_true ?_ rfl⟩
    · exact leavesAlone_of_apply fun v => (happly v).1
    · exact leavesAlone_of_apply fun v => (happly v).2 success failure
  | some path =>
    -- a file at the local path is enough for either policy to succeed
    have hfile : (Files.empty.put path (.file 0 default)).find? path = some (.file 0 default) := by
      rw [Files.find?_put, if_pos rfl]
    obtain ⟨hdelete, hmove⟩ := apply_of_toPath?_eq_some hpath hfile
    refine ⟨iff_of_false ?_ (Option.some_ne_none path), iff_of_false ?_ (Option.some_ne_none path)⟩
    · apply not_leavesAlone_of_apply
      rw [hdelete]
    · apply not_leavesAlone_of_apply
      rw [hmove]

/-- **A record of another scheme may lose a local file:** one that names this host. -/
theorem delete_reaches_localhost :
    let host : Uri.Authority := ⟨"", none, .name "localhost", none⟩
    let uri : Uri := ⟨"http", some host, "/in/a.csv", none, none⟩
    let r : Record := .new ⟨uri, "a.csv", 1, default, none⟩ .completed
    let files : Files := Files.empty.addFile (.ofText "/in/a.csv") 1 default
    uri.isFile = false ∧
      (batch (apply .delete) (.ofFiles files) [r]).2.1 = [(r, .succeed)] ∧
      (Volume.ofFiles files).contains (.ofText "/in/a.csv") = true ∧
      (batch (apply .delete) (.ofFiles files) [r]).1.contains (.ofText "/in/a.csv") = false := by
  decide +kernel

end CleanupPolicy

end Intake
