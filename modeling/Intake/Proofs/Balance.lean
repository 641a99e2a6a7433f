import Intake.Proofs.Batch
import Intake.Proofs.Stored

/-!
# Balance — groups of one size, in one order

The groups of a split have the sizes that were set (`Groups.lengths_split`), larger ones first
(`Groups.sizes_eq`), so the groups in which files are handed out differ by at most one file and none
of them is empty.  The order of the files does not depend on the order in which they come: files
that neither time nor URI tells apart stand in one place, and all that the groups show of them is
the URI (`Metadata.map_place_mergeSort`).
-/

namespace Intake

namespace Groups

variable {α β : Type}

/-! ## 1. Sizes of groups -/

/-- **The pieces have the sizes** that were set, if there are items enough. -/
theorem lengths_cut {ns : List Nat} {items : List α} (h : total ns ≤ items.length) :
    (cut ns items).map List.length = ns := by
  induction ns generalizing items with
  | nil => rfl
  | cons n ns ih =>
    have htotal : total (n :: ns) = n + total ns := rfl
    have hfirst : (items.take n).length = n := by
      rw [List.length_take]
      omega
    have hrest : total ns ≤ (items.drop n).length := by
      rw [List.length_drop]
      omega
    rw [cut, List.map_cons, hfirst, ih hrest]

theorem lengths_split (items : List α) (groups : Nat) :
    (split items groups).map List.length = sizes items.length groups := by
  apply lengths_cut
  cases groups with
  | zero => exact Nat.zero_le _
  | succ g => exact Nat.le_of_eq (total_sizes g.succ_pos)

/-- **The first groups have one item more** than the share that each group has. -/
theorem sizes_eq {items groups : Nat} (h : 0 < groups) :
    sizes items groups =
      List.replicate (items % groups) (items / groups + 1) ++
        List.replicate (groups - items % groups) (items / groups) := by
  obtain ⟨others, hothers⟩ := Nat.exists_eq_add_of_le (Nat.le_of_lt (Nat.mod_lt items h))
  unfold sizes
  generalize items / groups = share, items % groups = rest at hothers ⊢
  rw [hothers, List.range_add, List.map_append, List.map_map, Nat.add_sub_cancel_left]
  congr 1
  · refine List.eq_replicate_iff.2 ⟨by simp, fun size hsize => ?_⟩
    obtain ⟨i, hi, rfl⟩ := List.mem_map.1 hsize
    rw [if_pos (List.mem_range.1 hi)]
  · refine List.eq_replicate_iff.2 ⟨by simp, fun size hsize => ?_⟩
    obtain ⟨i, -, rfl⟩ := List.mem_map.1 hsize
    show share + (if rest + i < rest then 1 else 0) = share
    rw [if_neg (Nat.not_lt.2 (Nat.le_add_right rest i)), Nat.add_zero]

/-- **What the first pieces hold** is what is in front of the others. -/
theorem flatten_take_cut (ns : List Nat) (items : List α) (i : Nat) :
    ((cut ns items).take i).flatten = items.take (total (ns.take i)) := by
  induction ns generalizing items i with
  | nil =>
    rw [cut, List.take_nil, List.take_nil]
    rfl
  | cons n ns ih =>
    cases i with
    | zero => rfl
    | succ i =>
      have htotal : total ((n :: ns).take (i + 1)) = n + total (ns.take i) := rfl
      rw [cut, List.take_succ_cons, List.flatten_cons, ih, htotal, List.take_add]

/-- The sizes of the first groups add up to their shares. -/
theorem total_take_sizes {items groups i : Nat} (h : i ≤ groups) :
    total ((sizes items groups).take i) =
      i * (items / groups) + min (items % groups) i := by
  unfold sizes
  rw [← List.map_take, List.take_range, Nat.min_eq_left h, total_shares]

/-- **Sizes never grow** from one group to a later one, and fall by one at most. -/
theorem pairwise_sizes (items groups : Nat) :
    (sizes items groups).Pairwise fun m n => n ≤ m ∧ m ≤ n + 1 := by
  unfold sizes
  rw [List.pairwise_map]
  refine List.pairwise_lt_range.imp ?_
  intro i j hij
  -- the larger groups are the first ones
  by_cases hj : j < items % groups
  · rw [if_pos hj, if_pos (Nat.lt_trans hij hj)]
    omega
  · rw [if_neg hj]
    split <;> omega

/-- With an item for every group no group is empty. -/
theorem pos_of_mem_sizes {items groups n : Nat} (h : groups ≤ items) (hn : n ∈ sizes items groups) :
    0 < n := by
  obtain ⟨i, hi, rfl⟩ := List.mem_map.1 hn
  have hpos : 0 < groups := Nat.lt_of_le_of_lt i.zero_le (List.mem_range.1 hi)
  exact Nat.add_pos_left (Nat.div_pos h hpos) _

/-- Items may be mapped before they are cut or behind. -/
theorem cut_map (f : α → β) (ns : List Nat) (items : List α) :
    cut ns (items.map f) = (cut ns items).map (List.map f) := by
  induction ns generalizing items with
  | nil => rfl
  | cons n ns ih => rw [cut, cut, List.map_cons, ← List.map_take, ← List.map_drop, ih]

theorem split_map (f : α → β) (items : List α) (groups : Nat) :
    split (items.map f) groups = (split items groups).map (List.map f) := by
  unfold split
  rw [List.length_map, cut_map]

/-- **A split loses nothing.**  There are as many groups as asked for, which one behind the other
    are the items in their order.  Each group has the same share of the items, rounded down, and the
    first groups one more, as many as there are items left over; groups for which there are not
    enough items are empty.  So the first `i` groups hold exactly the items in front of the others,
    whose number is `i` shares and one more for each of these groups that is a larger one. -/
theorem split_exact (items : List α) {groups : Nat} (h : 0 < groups) :
    (split items groups).length = groups ∧
    (split items groups).flatten = items ∧
    (split items groups).map List.length =
      List.replicate (items.length % groups) (items.length / groups + 1) ++
        List.replicate (groups - items.length % groups) (items.length / groups) ∧
    ∀ i ≤ groups, ((split items groups).take i).flatten =
      items.take (i * (items.length / groups) + min (items.length % groups) i) := by
  have hlengths := lengths_split items groups
  refine ⟨?_, flatten_split items h, hlengths.trans (sizes_eq h), fun i hi => ?_⟩
  · rw [← List.length_map (f := List.length), hlengths, length_sizes]
  · rw [split, flatten_take_cut, total_take_sizes hi]

/-- Three items in five groups, of which two stay empty. -/
theorem split_exact_few :
    0 < 5 ∧ (split ["a", "b", "c"] 5).length = 5 ∧
      (split ["a", "b", "c"] 5).flatten = ["a", "b", "c"] ∧
      (split ["a", "b", "c"] 5).map List.length = [1, 1, 1, 0, 0] ∧
      ((split ["a", "b", "c"] 5).take 2).flatten = ["a", "b"] := by
  obtain ⟨hlength, hflatten, hsizes, hfront⟩ := split_exact ["a", "b", "c"] (show 0 < 5 by decide)
  exact ⟨by decide, hlength, hflatten, hsizes, hfront 2 (by decide)⟩

end Groups

/-! ## 2. One order for all lists of the same files -/

namespace Metadata

def place (m : Metadata) : Instant × String := (m.modified, m.uriText)

def PlaceLE (p q : Instant × String) : Prop :=
  p.1.compare q.1 = .lt ∨ p.1 = q.1 ∧ p.2 ≤ q.2

theorem PlaceLE.antisymm {p q : Instant × String} (h : PlaceLE p q) (h' : PlaceLE q p) :
    p = q := by
  unfold PlaceLE at h h'
  rw [Instant.compare_eq_lt_iff] at h h'
  rcases h with h | ⟨htime, htext⟩
  · rcases h' with h' | ⟨htime', -⟩
    · omega
    · rw [htime'] at h
      omega
  · rcases h' with h' | ⟨-, htext'⟩
    · rw [htime] at h'
      omega
    · exact Prod.ext htime (String.le_antisymm htext htext')

theorem pairwise_place (files : List Metadata) :
    (files.mergeSort precedes).Pairwise fun x y => PlaceLE x.place y.place :=
  (pairwise_mergeSort (fun file => file) files).imp precedes_iff.1

/-- **The places of the sorted files** are the same in whatever order the files come. -/
theorem map_place_mergeSort {files files' : List Metadata} (h : files'.Perm files) :
    (files'.mergeSort precedes).map place = (files.mergeSort precedes).map place := by
  have hperm : (files'.mergeSort precedes).Perm (files.mergeSort precedes) :=
    (List.mergeSort_perm files' _).trans (h.trans (List.mergeSort_perm files _).symm)
  exact List.Perm.eq_of_pairwise (fun _ _ _ _ hpq hqp => hpq.antisymm hqp)
    (List.pairwise_map.2 (pairwise_place files')) (List.pairwise_map.2 (pairwise_place files))
    (hperm.map place)

/-- What files of the same place have in common can be read off their places. -/
theorem map_of_map_place {β : Type} {f : Metadata → β} {xs ys : List Metadata}
    (hplace : xs.map place = ys.map place)
    (h : ∀ x ∈ xs, ∀ y ∈ ys, x.place = y.place → f x = f y) : xs.map f = ys.map f := by
  induction xs generalizing ys with
  | nil =>
    rw [List.map_nil] at hplace
    rw [List.map_eq_nil_iff.1 hplace.symm, List.map_nil]
  | cons x xs ih =>
    obtain ⟨y, rest, rfl, hhead, htail⟩ := List.map_eq_cons_iff.1 hplace.symm
    have hfirst : f x = f y := h x List.mem_cons_self y List.mem_cons_self hhead.symm
    have hrest : xs.map f = rest.map f :=
      ih htail.symm fun x hx y hy => h x (List.mem_cons_of_mem _ hx) y (List.mem_cons_of_mem _ hy)
    rw [List.map_cons, List.map_cons, hfirst, hrest]

/-- The URI of built metadata was read from a text, or is that of a path. -/
theorem Built.spelled_or_local {m : Metadata} (h : m.Built) :
    m.uri.Spelled ∨ ∃ path, Uri.ofPath? path = some m.uri := by
  have hpath := h.segments?
  induction h with
  | ofLocalPath made =>
    obtain ⟨uri, huri, hnew⟩ := ofLocalPath?_eq_ok_iff.1 made
    obtain ⟨name, -, rfl⟩ := new?_eq_ok_iff.1 hnew
    exact .inr ⟨_, huri⟩
  | ofUri read made =>
    obtain ⟨name, -, rfl⟩ := new?_eq_ok_iff.1 made
    exact .inl (Uri.spelled_of_parse read hpath)
  | withDigest _ digest ih => exact ih hpath

theorem Built.written {m : Metadata} (h : m.Built) : m.uri.Written := by
  rcases h.spelled_or_local with hspelled | ⟨path, hpath⟩
  · exact hspelled.toWritten
  · obtain ⟨steps, hsteps, hstands, -⟩ := Uri.exists_steps hpath
    rw [hsteps]
    exact Uri.written_ofSteps hstands

/-- Only the URI of a file is not read from a text. -/
theorem Built.spelled_of_ne {m : Metadata} (h : m.Built) (hk : Uri.kindOf m.uri.scheme ≠ .file) :
    m.uri.Spelled := by
  rcases h.spelled_or_local with hspelled | ⟨path, hpath⟩
  · exact hspelled
  · obtain ⟨steps, hsteps, -⟩ := Uri.exists_steps hpath
    rw [hsteps] at hk
    exact absurd rfl hk

/-- **Built metadata with the same text has the same URI.** -/
theorem Built.uri_eq {x y : Metadata} (hx : x.Built) (hy : y.Built) (h : x.uriText = y.uriText) :
    x.uri = y.uri := by
  by_cases hk : Uri.kindOf x.uri.scheme = .file
  · exact hx.written.eq_of_text hy.written hk h
  · have hk' : Uri.kindOf y.uri.scheme ≠ .file := hx.written.scheme_eq hy.written h ▸ hk
    have hread : Uri.parse x.uriText = .ok x.uri := (hx.spelled_of_ne hk).parse_text_of_ne hk
    rw [h, show Uri.parse y.uriText = .ok y.uri from
      (hy.spelled_of_ne hk').parse_text_of_ne hk'] at hread
    exact (Except.ok.inj hread).symm

end Metadata

/-! ## 3. The groups of some files -/

namespace Groups

/-- Groups as the texts of their URIs, by which URIs are told apart. -/
def texts (groups : List (List Uri)) : List (List String) := groups.map (·.map Uri.text)

/-- The texts in the groups of files are those of the sorted files. -/
theorem texts_byAge (files : List Metadata) (most : Nat) :
    texts (byAge files most) =
      split ((files.mergeSort Metadata.precedes).map Metadata.uriText)
        (min files.length most) := by
  show (split _ _).map (List.map Uri.text) = _
  rw [← split_map, List.map_map]
  rfl

theorem texts_byAge_of_perm {files files' : List Metadata} (h : files'.Perm files) (most : Nat) :
    texts (byAge files' most) = texts (byAge files most) := by
  have huris := Metadata.map_of_map_place (f := Metadata.uriText) (Metadata.map_place_mergeSort h)
    fun x _ y _ hplace => congrArg Prod.snd hplace
  rw [texts_byAge, texts_byAge, huris, h.length_eq]

/-- **The groups of built files** are the same in whatever order the files come. -/
theorem byAge_of_perm {files files' : List Metadata} (h : files'.Perm files)
    (hbuilt : ∀ file ∈ files, file.Built) (most : Nat) : byAge files' most = byAge files most := by
  have huris := Metadata.map_of_map_place (f := (·.uri)) (Metadata.map_place_mergeSort h)
    fun x hx y hy hplace =>
      (hbuilt x (h.mem_iff.1 (List.mem_mergeSort.1 hx))).uri_eq
        (hbuilt y (List.mem_mergeSort.1 hy)) (congrArg Prod.snd hplace)
  unfold byAge
  dsimp only
  rw [huris, h.length_eq]

theorem lengths_byAge (files : List Metadata) (most : Nat) :
    (byAge files most).map List.length = sizes files.length (min files.length most) := by
  show (split _ _).map List.length = _
  rw [lengths_split, List.length_map, List.length_mergeSort]

/-- **Balanced groups in one order.**  Files are handed out in as many groups as allowed, but in no
    more than there are files.  No group is empty, and no group has fewer files than a later one or
    two files more.  One behind the other the groups are the URIs of all files, older ones first
    and those of one time by their texts.  And the groups are the same in whatever order the files
    come, also if some of them differ neither in time nor in URI. -/
theorem byAge_balanced (files : List Metadata) (most : Nat) :
    (byAge files most).length = min files.length most ∧
    (∀ group ∈ byAge files most, group ≠ []) ∧
    ((byAge files most).map List.length).Pairwise (fun m n => n ≤ m ∧ m ≤ n + 1) ∧
    (0 < most → ∃ sorted : List Metadata, sorted.Perm files ∧
      sorted.Pairwise (fun x y => x.modified.compare y.modified = .lt ∨
        x.modified = y.modified ∧ x.uriText ≤ y.uriText) ∧
      (byAge files most).flatten = sorted.map (·.uri)) ∧
    ∀ files', files'.Perm files → texts (byAge files' most) = texts (byAge files most) ∧
      ((∀ file ∈ files, file.Built) → byAge files' most = byAge files most) := by
  have hlengths := lengths_byAge files most
  refine ⟨?_, ?_, ?_, ?_, ?_⟩
  · rw [← List.length_map (f := List.length), hlengths, length_sizes]
  · intro group hgroup
    have hsize : group.length ∈ sizes files.length (min files.length most) :=
      hlengths ▸ List.mem_map_of_mem hgroup
    exact List.ne_nil_of_length_pos (pos_of_mem_sizes (Nat.min_le_left _ _) hsize)
  · rw [hlengths]
    exact pairwise_sizes _ _
  · intro hmost
    exact ⟨files.mergeSort Metadata.precedes, List.mergeSort_perm files _,
      Metadata.pairwise_place files, flatten_byAge files hmost⟩
  · exact fun files' h => ⟨texts_byAge_of_perm h most, fun hbuilt => byAge_of_perm h hbuilt most⟩

/-- Two files of one time, one of them twice, in two orders. -/
theorem byAge_balanced_tie :
    ∃ a b : Metadata, a.uriText = "file:///in/a.csv" ∧ b.uriText = "file:///in/b.csv" ∧
      a.modified = b.modified ∧ (byAge [b, a, a] 2).length = 2 ∧
      (∃ sorted : List Metadata, sorted.Perm [b, a, a] ∧
        (byAge [b, a, a] 2).flatten = sorted.map (·.uri)) ∧
      byAge [b, a, a] 2 = byAge [a, b, a] 2 := by
  let a := (Metadata.ofLocalPath? (Path.ofText "/in/a.csv") 1 .epoch).toOption.get
    (by decide +kernel)
  let b := (Metadata.ofLocalPath? (Path.ofText "/in/b.csv") 1 .epoch).toOption.get
    (by decide +kernel)
  have ha : a.Built := .ofLocalPath (toOption_eq_some_iff.1 (Option.some_get _).symm)
  have hb : b.Built := .ofLocalPath (toOption_eq_some_iff.1 (Option.some_get _).symm)
  have hbuilt : ∀ file ∈ [a, b, a], file.Built := by simp [ha, hb]
  obtain ⟨hlength, -, -, hsorted, -⟩ := byAge_balanced [b, a, a] 2
  obtain ⟨sorted, hperm', -, hflatten⟩ := hsorted (by decide)
  obtain ⟨-, -, -, -, hsame⟩ := byAge_balanced [a, b, a] 2
  have hperm : [b, a, a].Perm [a, b, a] := .swap a b [a]
  exact ⟨a, b, by decide +kernel, by decide +kernel, by decide +kernel, hlength,
    ⟨sorted, hperm', hflatten⟩, (hsame _ hperm).2 hbuilt⟩

end Groups

end Intake
