/-!
# Blank — white space

The characters of the Unicode property White_Space, and trimming by them.  The property holds
more than core's `Char.isWhitespace`: vertical tab, form feed, next line, no-break space and the
spaces of general punctuation count too; the zero-width space does not.
-/

namespace Intake.Text

/-! ## 1. The property -/

def isBlank (c : Char) : Bool :=
  let n := c.toNat
  (9 ≤ n && n ≤ 13) || n == 0x20 || n == 0x85 || n == 0xA0 || n == 0x1680 ||
    (0x2000 ≤ n && n ≤ 0x200A) || n == 0x2028 || n == 0x2029 || n == 0x202F || n == 0x205F ||
    n == 0x3000

/-! ## 2. Trimming -/

def trimStart (cs : List Char) : List Char := cs.dropWhile isBlank

def trim (cs : List Char) : List Char := (trimStart (trimStart cs).reverse).reverse

/-- A text of white space alone has nothing left. -/
theorem trim_eq_nil_iff {cs : List Char} : trim cs = [] ↔ ∀ c ∈ cs, isBlank c = true := by
  have drop : ∀ l : List Char, l.dropWhile isBlank = [] ↔ ∀ c ∈ l, isBlank c = true := by
    intro l
    induction l with
    | nil => simp
    | cons c l ih => by_cases hc : isBlank c = true <;> simp [hc, ih]
  constructor
  · intro h
    have h' : ∀ c ∈ trimStart cs, isBlank c = true := by
      have := (drop _).1 (List.reverse_eq_nil_iff.1 h)
      intro c hc
      exact this c (List.mem_reverse.2 hc)
    cases hs : trimStart cs with
    | nil => exact (drop cs).1 hs
    | cons c l =>
      have hb : isBlank c = true := h' c (by simp [hs])
      have := List.head?_dropWhile_not isBlank cs
      rw [show cs.dropWhile isBlank = c :: l from hs] at this
      simp [hb] at this
  · intro h
    have : trimStart cs = [] := (drop cs).2 h
    rw [trim, this]
    rfl

def trimmed (s : String) : String := String.ofList (trim s.toList)

end Intake.Text
