import Mathlib.Data.List.TakeDrop
import Intake.Text.Pieces

/-!
# Collect — lists that are mapped, cut and glued

What a map that may fail collects, which items stand in a list that was glued from pieces, and where
a run of items ends.
-/

namespace Intake

/-! ## 1. Maps that may fail -/

section

variable {α β : Type} {f : α → Option β} {as : List α}

/-- What a map that may fail collects, if it fails nowhere. -/
theorem mem_of_mapM {bs : List β} (h : as.mapM f = some bs) (b : β) :
    b ∈ bs ↔ ∃ a ∈ as, f a = some b := by
  induction as generalizing bs with
  | nil =>
    cases h
    simp
  | cons a as ih =>
    simp only [List.mapM_cons, Option.bind_eq_bind, Option.bind_eq_some_iff] at h
    obtain ⟨b', hb', bs', hbs', heq⟩ := h
    cases heq
    simp [ih hbs', hb', eq_comm]

theorem exists_mapM_iff : (∃ bs, as.mapM f = some bs) ↔ ∀ a ∈ as, ∃ b, f a = some b := by
  induction as with
  | nil => simp
  | cons a as ih =>
    simp only [List.mapM_cons, Option.bind_eq_bind, Option.bind_eq_some_iff, List.forall_mem_cons]
    rw [← ih]
    constructor
    · rintro ⟨-, b, hb, bs, hbs, -⟩
      exact ⟨⟨b, hb⟩, ⟨bs, hbs⟩⟩
    · rintro ⟨⟨b, hb⟩, ⟨bs, hbs⟩⟩
      exact ⟨b :: bs, b, hb, bs, hbs, rfl⟩

end

/-- A map that changes nothing. -/
theorem mapM_eq_self {α : Type} {f : α → Option α} {as : List α} (h : ∀ a ∈ as, f a = some a) :
    as.mapM f = some as := by
  induction as with
  | nil => rfl
  | cons a as ih =>
    rw [List.mapM_cons, h a List.mem_cons_self, ih fun b hb => h b (List.mem_cons_of_mem _ hb)]
    rfl

theorem bind_eq_ok_iff {α β ε : Type} {x : Except ε α} {f : α → Except ε β} {b : β} :
    x.bind f = .ok b ↔ ∃ a, x = .ok a ∧ f a = .ok b := by
  cases x with
  | error cause => exact ⟨nofun, nofun⟩
  | ok a =>
    constructor
    · exact fun h => ⟨a, rfl, h⟩
    · rintro ⟨_, hx, h⟩
      cases hx
      exact h

theorem toOption_eq_some_iff {α ε : Type} {x : Except ε α} {a : α} :
    x.toOption = some a ↔ x = .ok a := by
  cases x <;> simp [Except.toOption]

/-- A map that may fail with a cause, with its causes left out. -/
theorem mapM_eq_ok_iff {α β ε : Type} {f : α → Except ε β} {xs : List α} {ys : List β} :
    xs.mapM f = .ok ys ↔ xs.mapM (fun x => (f x).toOption) = some ys := by
  have hsame : (xs.mapM f).toOption = xs.mapM fun x => (f x).toOption := by
    clear ys
    induction xs with
    | nil => rfl
    | cons x xs ih =>
      rw [List.mapM_cons, List.mapM_cons, ← ih]
      cases f x with
      | error cause => rfl
      | ok y => cases xs.mapM f <;> rfl
  rw [← hsame, toOption_eq_some_iff]

/-- A map that fails has the cause of one of its items. -/
theorem exists_of_mapM_error {α β ε : Type} {f : α → Except ε β} {xs : List α} {cause : ε}
    (h : xs.mapM f = .error cause) : ∃ x ∈ xs, f x = .error cause := by
  induction xs with
  | nil => cases h
  | cons x xs ih =>
    rw [List.mapM_cons] at h
    cases hx : f x with
    | error first =>
      rw [hx] at h
      cases h
      exact ⟨x, List.mem_cons_self, hx⟩
    | ok y =>
      cases hrest : xs.mapM f with
      | error later =>
        rw [hx, hrest] at h
        cases h
        obtain ⟨z, hz, hcause⟩ := ih hrest
        exact ⟨z, List.mem_cons_of_mem x hz, hcause⟩
      | ok rest =>
        rw [hx, hrest] at h
        cases h

theorem exists_of_isOk {α ε : Type} {x : Except ε α} (h : x.isOk = true) : ∃ a, x = .ok a := by
  cases x with
  | error e => cases h
  | ok a => exact ⟨a, rfl⟩

theorem length_of_mapM {α β ε : Type} {f : α → Except ε β} {xs : List α} {ys : List β}
    (h : xs.mapM f = .ok ys) : ys.length = xs.length := by
  induction xs generalizing ys with
  | nil =>
    cases h
    rfl
  | cons x xs ih =>
    rw [List.mapM_cons] at h
    cases hx : f x with
    | error cause =>
      rw [hx] at h
      cases h
    | ok y =>
      cases hrest : xs.mapM f with
      | error cause =>
        rw [hx, hrest] at h
        cases h
      | ok rest =>
        rw [hx, hrest] at h
        cases h
        rw [List.length_cons, List.length_cons, ih hrest]

/-- A scan of the list decides what holds of its members. -/
theorem forall_mem_of_all {α : Type} {P : α → Prop} [DecidablePred P] {as : List α}
    (h : as.all (fun a => decide (P a)) = true) : ∀ a ∈ as, P a := by
  intro a ha
  exact of_decide_eq_true (List.all_eq_true.1 h a ha)

/-! ## 2. Pieces -/

namespace Text

theorem mem_glue {α : Type} {sep : α} {ps : List (List α)} {x : α} (h : x ∈ glue sep ps) :
    x = sep ∨ ∃ p ∈ ps, x ∈ p := by
  induction ps with
  | nil => cases h
  | cons p ps ih =>
    cases ps with
    | nil => exact .inr ⟨p, List.mem_cons_self, h⟩
    | cons q qs =>
      rw [glue] at h
      rcases List.mem_append.1 h with h | h
      · exact .inr ⟨p, List.mem_cons_self, h⟩
      · rcases List.mem_cons.1 h with h | h
        · exact .inl h
        · rcases ih h with h | ⟨r, hr, hx⟩
          · exact .inl h
          · exact .inr ⟨r, List.mem_cons_of_mem _ hr, hx⟩

theorem mem_glue_of_mem {α : Type} {sep : α} {ps : List (List α)} {p : List α} {x : α}
    (hp : p ∈ ps) (hx : x ∈ p) : x ∈ glue sep ps := by
  induction ps with
  | nil => cases hp
  | cons q qs ih =>
    cases qs with
    | nil =>
      rw [List.mem_singleton.1 hp] at hx
      exact hx
    | cons r rs =>
      rw [glue]
      rcases List.mem_cons.1 hp with rfl | hp
      · exact List.mem_append_left _ hx
      · exact List.mem_append_right _ (List.mem_cons_of_mem _ (ih hp))

theorem pieces_congr {α : Type} {p q : α → Bool} {xs : List α} (h : ∀ x ∈ xs, p x = q x) :
    pieces p xs = pieces q xs := by
  induction xs with
  | nil => rfl
  | cons x xs ih =>
    unfold pieces
    rw [h x List.mem_cons_self, ih fun y hy => h y (List.mem_cons_of_mem _ hy)]

theorem head?_glue {α : Type} {sep : α} {p : List α} (h : p ≠ []) (ps : List (List α)) :
    (glue sep (p :: ps)).head? = p.head? := by
  cases p with
  | nil => exact absurd rfl h
  | cons x xs => cases ps <;> rfl

theorem toList_intercalate (sep : Char) (items : List (List Char)) :
    ((String.singleton sep).intercalate (items.map String.ofList)).toList = glue sep items := by
  induction items with
  | nil => rfl
  | cons item rest ih =>
    cases rest with
    | nil => simp [glue]
    | cons next rest =>
      rw [List.map_cons, List.map_cons, String.intercalate_cons_cons, String.toList_append,
        String.toList_append, String.toList_ofList]
      rw [List.map_cons] at ih
      rw [ih]
      simp [glue]

/-! ## 3. Runs -/

section

variable {α : Type} {p : α → Bool} {run rest : List α}

/-- A run ends where what follows does not belong to it. -/
theorem takeWhile_run (hrun : ∀ x ∈ run, p x = true) (hrest : ∀ x ∈ rest.head?, p x = false) :
    (run ++ rest).takeWhile p = run := by
  rw [List.takeWhile_append_of_pos hrun]
  cases rest with
  | nil => exact List.append_nil run
  | cons x rest =>
    rw [List.takeWhile_cons_of_neg (by rw [hrest x rfl]; decide), List.append_nil]

theorem dropWhile_run (hrun : ∀ x ∈ run, p x = true) (hrest : ∀ x ∈ rest.head?, p x = false) :
    (run ++ rest).dropWhile p = rest := by
  rw [List.dropWhile_append_of_pos hrun]
  cases rest with
  | nil => rfl
  | cons x rest => rw [List.dropWhile_cons_of_neg (by rw [hrest x rfl]; decide)]

theorem span_run (hrun : ∀ x ∈ run, p x = true) (hrest : ∀ x ∈ rest.head?, p x = false) :
    (run ++ rest).span p = (run, rest) := by
  rw [List.span_eq_takeWhile_dropWhile, takeWhile_run hrun hrest, dropWhile_run hrun hrest]

end

end Text

end Intake
