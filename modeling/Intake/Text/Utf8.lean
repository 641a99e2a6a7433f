/-!
# Utf8 — text as bytes

Texts are written as UTF-8.  `decode?` reads exactly what `encode` writes
(`decode?_eq_some_iff`); `decodeLossy` reads any bytes and puts the replacement character where
no character can be read (`decodeLossy_encode`: it changes nothing that was written as text).
-/

namespace Intake

abbrev Bytes := List UInt8

namespace Text

/-! ## 1. Strict coding -/

def encode (s : String) : Bytes := s.toUTF8.data.toList

def decode? (bs : Bytes) : Option String := String.fromUTF8? ⟨bs.toArray⟩

/-- **Round trip.**  What was written reads back. -/
@[simp] theorem decode?_encode (s : String) : decode? (encode s) = some s := by
  unfold decode? encode String.fromUTF8?
  simp only [Array.toArray_toList]
  split
  · rfl
  · rename_i h
    exact absurd s.isValidUTF8 h

/-- Reading accepts exactly what writing produces. -/
theorem decode?_eq_some_iff {bs : Bytes} {s : String} : decode? bs = some s ↔ bs = encode s := by
  constructor
  · unfold decode? encode String.fromUTF8?
    split
    · intro h
      injection h with h
      subst h
      rfl
    · intro h
      exact absurd h (by simp)
  · rintro rfl
    exact decode?_encode s

theorem encode_injective {s t : String} (h : encode s = encode t) : s = t := by
  have := decode?_encode s
  rw [h, decode?_encode t] at this
  exact (Option.some.inj this).symm

/-! ## 2. Lossy reading -/

/-- How many bytes must follow a leading byte of a longer character, and the bounds of the first
    of them. -/
def lead? (b : UInt8) : Option (Nat × UInt8 × UInt8) :=
  if 0xC2 ≤ b && b ≤ 0xDF then some (1, 0x80, 0xBF)
  else if b == 0xE0 then some (2, 0xA0, 0xBF)
  else if b == 0xED then some (2, 0x80, 0x9F)
  else if 0xE1 ≤ b && b ≤ 0xEF then some (2, 0x80, 0xBF)
  else if b == 0xF0 then some (3, 0x90, 0xBF)
  else if 0xF1 ≤ b && b ≤ 0xF3 then some (3, 0x80, 0xBF)
  else if b == 0xF4 then some (3, 0x80, 0x8F)
  else none

def tails : Nat → UInt8 → UInt8 → Bytes → Bytes
  | 0, _, _, _ => []
  | _, _, _, [] => []
  | n + 1, low, high, b :: rest =>
    if low ≤ b && b ≤ high then b :: tails n 0x80 0xBF rest else []

/-- The character that starts with byte `b`, with the number of bytes it takes from `rest`.  A
    character that breaks off is replaced together with the bytes that belong to it. -/
def firstChar (b : UInt8) (rest : Bytes) : Char × Nat :=
  if b < 0x80 then (Char.ofNat b.toNat, 0)
  else
    match lead? b with
    | none => ('\uFFFD', 0)
    | some (n, low, high) =>
      let found := tails n low high rest
      if found.length = n then
        let top := b.toNat % (if n = 1 then 0x20 else if n = 2 then 0x10 else 0x08)
        (Char.ofNat (found.foldl (fun acc t => acc * 64 + t.toNat % 64) top), n)
      else ('\uFFFD', found.length)

def replaceInvalid : Bytes → List Char
  | [] => []
  | b :: rest =>
    let (c, used) := firstChar b rest
    c :: replaceInvalid (rest.drop used)
termination_by bs => bs.length
decreasing_by simp only [List.length_drop, List.length_cons]; omega

def decodeLossy (bs : Bytes) : String :=
  match decode? bs with
  | some s => s
  | none => String.ofList (replaceInvalid bs)

/-- Lossy reading of written text loses nothing. -/
@[simp] theorem decodeLossy_encode (s : String) : decodeLossy (encode s) = s := by
  simp [decodeLossy]

end Text

end Intake
