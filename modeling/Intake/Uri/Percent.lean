import Intake.Text.Ranges
import Intake.Text.Utf8

/-!
# Percent — percent coding

`escape` writes bytes as characters: a byte that may stand is one ASCII character, any other is
`%` and two upper-case hexadecimal digits.  `unescape` reads any text back to bytes; a per cent
sign without two digits stands for itself.  `unescape_escape` is the round trip, for every set of
bytes that leaves out the per cent sign.
-/

namespace Intake.Uri.Percent

/-! ## 1. Writing -/

def upperHex (n : Nat) : Char := if n < 10 then Char.ofNat (48 + n) else Char.ofNat (55 + n)

def escapeByte (b : UInt8) : List Char :=
  ['%', upperHex (b.toNat / 16), upperHex (b.toNat % 16)]

/-- **Escaping.**  `mayStand` says which ASCII bytes stand for themselves. -/
def escape (mayStand : UInt8 → Bool) (bs : Bytes) : List Char :=
  bs.flatMap fun b =>
    if b < 0x80 && mayStand b then [Char.ofNat b.toNat] else escapeByte b

def escapeChars (mayStand : UInt8 → Bool) (cs : List Char) : List Char :=
  escape mayStand (Text.encode (String.ofList cs))

/-! ## 2. Reading -/

def charBytes (c : Char) : Bytes :=
  if c.toNat < 0x80 then [UInt8.ofNat c.toNat] else String.utf8EncodeChar c

def unescape : List Char → Bytes
  | [] => []
  | '%' :: a :: b :: rest =>
    match Text.Ranges.hexDigit? a, Text.Ranges.hexDigit? b with
    | some x, some y => UInt8.ofNat (16 * x + y) :: unescape rest
    | _, _ => 0x25 :: unescape (a :: b :: rest)
  | c :: rest => charBytes c ++ unescape rest

/-! ## 3. The round trip -/

/-- A digit reads back as its value. -/
theorem hexDigit?_upperHex {n : Nat} (h : n < 16) :
    Text.Ranges.hexDigit? (upperHex n) = some n := by
  have : ∀ m : Fin 16, Text.Ranges.hexDigit? (upperHex m.val) = some m.val := by decide
  exact this ⟨n, h⟩

/-- An escaped byte reads back, whatever follows. -/
theorem unescape_escapeByte (b : UInt8) (rest : List Char) :
    unescape (escapeByte b ++ rest) = b :: unescape rest := by
  have hb : b.toNat < 256 := b.toNat_lt
  simp only [escapeByte, List.cons_append, List.nil_append, unescape,
    hexDigit?_upperHex (show b.toNat / 16 < 16 by omega),
    hexDigit?_upperHex (show b.toNat % 16 < 16 by omega)]
  rw [Nat.div_add_mod]
  simp

/-- A character other than the per cent sign reads as its bytes. -/
theorem unescape_cons {c : Char} (hc : c ≠ '%') (rest : List Char) :
    unescape (c :: rest) = charBytes c ++ unescape rest := by
  rw [unescape.eq_def]
  split
  · rename_i h; cases h
  · rename_i h; cases h; exact absurd rfl hc
  · rename_i h; cases h; rfl

/-- **Round trip.**  Escaped bytes read back, provided the per cent sign is always escaped. -/
theorem unescape_escape {mayStand : UInt8 → Bool} (hp : mayStand 0x25 = false) (bs : Bytes) :
    unescape (escape mayStand bs) = bs := by
  induction bs with
  | nil => rfl
  | cons b bs ih =>
    have step : escape mayStand (b :: bs) =
        (if b < 0x80 && mayStand b then [Char.ofNat b.toNat] else escapeByte b) ++
          escape mayStand bs := rfl
    rw [step]
    split
    · rename_i h
      simp only [Bool.and_eq_true, decide_eq_true_eq] at h
      have hlt : b.toNat < 128 := by simpa using UInt8.lt_iff_toNat_lt.1 h.1
      have hval : (Char.ofNat b.toNat).toNat = b.toNat := by
        have : ∀ m : Fin 128, (Char.ofNat m.val).toNat = m.val := by decide
        exact this ⟨b.toNat, hlt⟩
      have hne : Char.ofNat b.toNat ≠ '%' := by
        intro hc
        have : b.toNat = 0x25 := by rw [← hval, hc]; rfl
        have : b = 0x25 := UInt8.toNat_inj.1 (by simpa using this)
        rw [this, hp] at h
        exact absurd h.2 (by simp)
      rw [List.singleton_append, unescape_cons hne, charBytes, hval]
      simp [hlt, ih]
    · rw [unescape_escapeByte, ih]

end Intake.Uri.Percent
