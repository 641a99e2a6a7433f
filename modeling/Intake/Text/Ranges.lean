/-!
# Ranges — sets of code points

A character class of the Unicode database is a list of items, each an interval of code points or
every second code point of one.  Tables are written as text, `41-5A C0-D6 100-136/2`, so that a
reader can hold them against the database.
-/

namespace Intake.Text

structure Ranges where
  items : List (Nat × Nat × Nat)

namespace Ranges

/-! ## 1. Items -/

/-- An item holds the code points from `first` to `last` that lie a multiple of `step` behind
    `first`. -/
abbrev Item := Nat × Nat × Nat

def Item.contains (item : Item) (n : Nat) : Bool :=
  item.1 ≤ n && n ≤ item.2.1 && (n - item.1) % item.2.2 == 0

def contains (r : Ranges) (n : Nat) : Bool := r.items.any (Item.contains · n)

/-! ## 2. Reading a table -/

def hexDigit? (c : Char) : Option Nat :=
  if '0' ≤ c ∧ c ≤ '9' then some (c.toNat - 48)
  else if 'a' ≤ c ∧ c ≤ 'f' then some (c.toNat - 87)
  else if 'A' ≤ c ∧ c ≤ 'F' then some (c.toNat - 55)
  else none

def hexValue? (digits : List Char) : Option Nat :=
  digits.foldl (fun acc c => do return 16 * (← acc) + (← hexDigit? c)) (some 0)

def hex? (text : String) : Option Nat :=
  if text.isEmpty then none else hexValue? text.toList

def Item.ofText? (word : String) : Option Item :=
  let (bounds, step) := match word.splitOn "/" with
    | [bounds, step] => (bounds, hex? step)
    | _ => (word, some 1)
  match bounds.splitOn "-" with
  | [one] => do
    let n ← hex? one
    return (n, n, ← step)
  | [first, last] => do return (← hex? first, ← hex? last, ← step)
  | _ => none

def words (text : String) : List String :=
  (text.split fun c => c == ' ' || c == '\n').toList.map (·.toString) |>.filter (!·.isEmpty)

def ofText (text : String) : Ranges := ⟨(words text).filterMap Item.ofText?⟩

end Ranges

end Intake.Text
