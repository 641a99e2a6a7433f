/-!
# Pieces — splitting at separators

`pieces p xs` cuts a list at every item for which `p` holds and drops those items; there is always
one piece more than there were separators.  With a single separator `glue` undoes it, and it undoes
`glue` on pieces that hold no separator (`glue_pieces`, `pieces_glue`).
-/

namespace Intake.Text

def pieces {α : Type} (isSep : α → Bool) : List α → List (List α)
  | [] => [[]]
  | x :: xs =>
    if isSep x then [] :: pieces isSep xs
    else
      match pieces isSep xs with
      | [] => [[x]]
      | p :: ps => (x :: p) :: ps

def glue {α : Type} (sep : α) : List (List α) → List α
  | [] => []
  | [p] => p
  | p :: q :: ps => p ++ sep :: glue sep (q :: ps)

theorem pieces_ne_nil {α : Type} (isSep : α → Bool) (xs : List α) :
    pieces isSep xs ≠ [] := by
  cases xs with
  | nil => simp [pieces]
  | cons x xs =>
    simp only [pieces]
    split
    · simp
    · split <;> simp

/-- **Nothing is lost:** gluing the pieces gives the list back. -/
theorem glue_pieces {α : Type} [DecidableEq α] (sep : α) (xs : List α) :
    glue sep (pieces (· == sep) xs) = xs := by
  induction xs with
  | nil => simp [pieces, glue]
  | cons x xs ih =>
    cases hp : pieces (· == sep) xs with
    | nil => exact absurd hp (pieces_ne_nil _ _)
    | cons p ps =>
      rw [hp] at ih
      by_cases hx : x = sep
      · subst hx
        simp [pieces, glue, hp, ih]
      · have hb : (x == sep) = false := by simp [hx]
        simp only [pieces, hb, hp]
        cases ps with
        | nil => simpa [glue] using ih
        | cons q qs => simpa [glue] using ih

theorem not_isSep_of_mem_pieces {α : Type} {isSep : α → Bool} {xs p : List α} {x : α}
    (hp : p ∈ pieces isSep xs) (hx : x ∈ p) : isSep x = false := by
  induction xs generalizing p with
  | nil =>
    simp only [pieces, List.mem_singleton] at hp
    subst hp
    simp at hx
  | cons y ys ih =>
    simp only [pieces] at hp
    split at hp
    · rcases List.mem_cons.1 hp with rfl | hp
      · simp at hx
      · exact ih hp hx
    · rename_i hy
      split at hp
      · simp only [List.mem_singleton] at hp
        subst hp
        simp only [List.mem_singleton] at hx
        subst hx
        simpa using hy
      · rename_i q qs hq
        rcases List.mem_cons.1 hp with rfl | hp
        · rcases List.mem_cons.1 hx with rfl | hx
          · simpa using hy
          · exact ih (by simp [hq]) hx
        · exact ih (by simp [hq, hp]) hx

theorem pieces_of_forall_not {α : Type} {isSep : α → Bool} {xs : List α}
    (h : ∀ x ∈ xs, isSep x = false) : pieces isSep xs = [xs] := by
  induction xs with
  | nil => rfl
  | cons x xs ih =>
    rw [pieces, ih fun y hy => h y (List.mem_cons_of_mem _ hy)]
    simp [h x List.mem_cons_self]

/-- The first piece ends at the first separator. -/
theorem pieces_append_cons {α : Type} {isSep : α → Bool} {xs : List α} {sep : α}
    (h : ∀ x ∈ xs, isSep x = false) (hsep : isSep sep = true) (rest : List α) :
    pieces isSep (xs ++ sep :: rest) = xs :: pieces isSep rest := by
  induction xs with
  | nil => simp [pieces, hsep]
  | cons x xs ih =>
    rw [List.cons_append, pieces, ih fun y hy => h y (List.mem_cons_of_mem _ hy)]
    simp [h x List.mem_cons_self]

/-- **Pieces come back** from what they were glued to. -/
theorem pieces_glue {α : Type} [DecidableEq α] {sep : α} {ps : List (List α)} (hne : ps ≠ [])
    (h : ∀ p ∈ ps, sep ∉ p) : pieces (· == sep) (glue sep ps) = ps := by
  have free : ∀ p ∈ ps, ∀ x ∈ p, (x == sep) = false := by
    intro p hp x hx
    exact beq_eq_false_iff_ne.2 fun e => h p hp (e ▸ hx)
  clear h
  induction ps with
  | nil => exact absurd rfl hne
  | cons p ps ih =>
    cases ps with
    | nil => exact pieces_of_forall_not (free p List.mem_cons_self)
    | cons q qs =>
      rw [glue, pieces_append_cons (free p List.mem_cons_self) (by simp),
        ih (by simp) fun r hr => free r (List.mem_cons_of_mem _ hr)]

end Intake.Text
