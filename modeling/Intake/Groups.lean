import Intake.Metadata

/-!
# Groups — handing out files in balanced groups

`split` cuts a list into so many groups whose sizes differ by at most one, larger groups first;
`byAge` puts files into the order in which they are handed out and splits them.  The sizes add up
to the number of items (`total_sizes`), and cutting by sizes that suffice loses nothing
(`flatten_cut`).
-/

namespace Intake.Groups

/-! ## 1. Splitting -/

def sizes (items groups : Nat) : List Nat :=
  (List.range groups).map fun i => items / groups + (if i < items % groups then 1 else 0)

def cut {α : Type} : List Nat → List α → List (List α)
  | [], _ => []
  | n :: rest, items => items.take n :: cut rest (items.drop n)

def split {α : Type} (items : List α) (groups : Nat) : List (List α) :=
  cut (sizes items.length groups) items

/-- **Hands out files by age:** at most so many groups of their URIs, none of them empty. -/
def byAge (files : List Metadata) (most : Nat) : List (List Uri) :=
  let sorted := files.mergeSort Metadata.precedes
  split (sorted.map (·.uri)) (min files.length most)

/-! ## 2. Sizes and pieces -/

@[simp] theorem length_sizes (items groups : Nat) : (sizes items groups).length = groups := by
  simp [sizes]

def total (ns : List Nat) : Nat := ns.foldr (· + ·) 0

theorem total_append (ms ns : List Nat) : total (ms ++ ns) = total ms + total ns := by
  induction ms with
  | nil => exact (Nat.zero_add _).symm
  | cons m ms ih =>
    show m + total (ms ++ ns) = m + total ms + total ns
    rw [ih, Nat.add_assoc]

/-- Every group gets the same share, the first `rest` of them one more. -/
theorem total_shares (share rest groups : Nat) :
    total ((List.range groups).map fun i => share + (if i < rest then 1 else 0)) =
      groups * share + min rest groups := by
  induction groups with
  | zero =>
    show 0 = 0 * share + min rest 0
    omega
  | succ g ih =>
    rw [List.range_succ, List.map_append, total_append, ih, Nat.succ_mul]
    show g * share + min rest g + (share + (if g < rest then 1 else 0) + 0) = _
    by_cases h : g < rest
    · rw [if_pos h]
      omega
    · rw [if_neg h]
      omega

theorem total_sizes {items groups : Nat} (h : 0 < groups) : total (sizes items groups) = items := by
  have hrest : items % groups ≤ groups := Nat.le_of_lt (Nat.mod_lt items h)
  rw [sizes, total_shares, Nat.min_eq_left hrest]
  exact Nat.div_add_mod items groups

/-- **Nothing is lost** when sizes that suffice are cut off. -/
theorem flatten_cut {α : Type} {ns : List Nat} {items : List α} (h : items.length ≤ total ns) :
    (cut ns items).flatten = items := by
  induction ns generalizing items with
  | nil =>
    have hempty : items = [] := List.eq_nil_of_length_eq_zero (Nat.le_zero.1 h)
    rw [hempty]
    rfl
  | cons n ns ih =>
    have hrest : (items.drop n).length ≤ total ns := by
      have htotal : total (n :: ns) = n + total ns := rfl
      rw [List.length_drop]
      omega
    rw [cut, List.flatten_cons, ih hrest, List.take_append_drop]

theorem flatten_split {α : Type} (items : List α) {groups : Nat} (h : 0 < groups) :
    (split items groups).flatten = items := by
  have htotal : total (sizes items.length groups) = items.length := total_sizes h
  exact flatten_cut (Nat.le_of_eq htotal.symm)

/-- **The groups in one list** are the files by age, if there may be a group. -/
theorem flatten_byAge (files : List Metadata) {most : Nat} (h : 0 < most) :
    (byAge files most).flatten = (files.mergeSort Metadata.precedes).map (·.uri) := by
  cases files with
  | nil => simp [byAge, split, cut, sizes]
  | cons first rest =>
    have hgroups : 0 < min (first :: rest).length most := by
      rw [List.length_cons]
      omega
    exact flatten_split _ hgroups

theorem byAge_zero (files : List Metadata) : byAge files 0 = [] := by
  unfold byAge
  rw [Nat.min_zero]
  rfl

/-- **All files are handed out** if there may be a group. -/
theorem mem_byAge_iff {files : List Metadata} {most : Nat} (h : 0 < most) {uri : Uri} :
    uri ∈ (byAge files most).flatten ↔ ∃ file ∈ files, file.uri = uri := by
  rw [flatten_byAge files h, List.mem_map]
  simp only [List.mem_mergeSort]

end Intake.Groups
