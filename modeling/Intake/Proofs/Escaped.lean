import Intake.Proofs.Collect
import Intake.Uri.Reader

/-!
# Escaped — text that is already escaped

Escaping leaves codes and characters that may stand, and neither is escaped again: escaping twice is
escaping once.  It does not change what the text reads as either, although the reader takes a per
cent sign without a code for itself.
-/

namespace Intake.Uri

/-! ## 1. Bytes of characters -/

/-- What holds of the 128 characters of ASCII. -/
theorem forall_ascii {P : Char → Prop} (h : ∀ n : Fin 128, P (Char.ofNat n.val)) {c : Char}
    (hc : c.toNat < 0x80) : P c := by
  have hsame : Char.ofNat c.toNat = c := Char.ofNat_toNat c
  rw [← hsame]
  exact h ⟨c.toNat, hc⟩

theorem lt_of_isDigit {c : Char} (h : c.isDigit = true) : c.toNat < 0x80 := by
  have hle := UInt32.le_iff_toNat_le.1 (of_decide_eq_true (Bool.and_eq_true_iff.1 h).2)
  exact Nat.lt_of_le_of_lt hle (by decide)

theorem lt_of_isAlpha {c : Char} (h : c.isAlpha = true) : c.toNat < 0x80 := by
  unfold Char.isAlpha Char.isUpper Char.isLower at h
  simp only [Bool.or_eq_true, Bool.and_eq_true, decide_eq_true_eq] at h
  rcases h with h | h
  · exact Nat.lt_of_le_of_lt (UInt32.le_iff_toNat_le.1 h.2) (by decide)
  · exact Nat.lt_of_le_of_lt (UInt32.le_iff_toNat_le.1 h.2) (by decide)

theorem utf8EncodeChar_ascii {c : Char} (h : c.toNat < 0x80) :
    String.utf8EncodeChar c = [UInt8.ofNat c.toNat] := by
  have hle : c.val.toNat ≤ 0x7f := Nat.le_of_lt_succ h
  unfold String.utf8EncodeChar
  simp only [if_pos hle]
  rfl

/-- Beyond ASCII every byte of a character is large. -/
theorem le_of_mem_utf8EncodeChar {c : Char} (h : ¬c.toNat < 0x80) {b : UInt8}
    (hb : b ∈ String.utf8EncodeChar c) : 0x80 ≤ b.toNat := by
  have hbig : ¬c.val.toNat ≤ 0x7f := fun hle => h (Nat.lt_succ_of_le hle)
  -- a first byte from 0xC0 on, or a byte that follows, from 0x80 to 0xBF
  have hbyte : ∀ n, 0x80 ≤ n → n < 0x100 → 0x80 ≤ (UInt8.ofNat n).toNat := by
    intro n hlow hhigh
    rw [UInt8.toNat_ofNat', Nat.mod_eq_of_lt hhigh]
    exact hlow
  unfold String.utf8EncodeChar at hb
  rw [if_neg hbig] at hb
  split at hb
  · simp only [List.mem_cons, List.not_mem_nil, or_false] at hb
    rcases hb with rfl | rfl <;> exact hbyte _ (by omega) (by omega)
  · split at hb
    · simp only [List.mem_cons, List.not_mem_nil, or_false] at hb
      rcases hb with rfl | rfl | rfl <;> exact hbyte _ (by omega) (by omega)
    · simp only [List.mem_cons, List.not_mem_nil, or_false] at hb
      rcases hb with rfl | rfl | rfl | rfl <;> exact hbyte _ (by omega) (by omega)

theorem encode_cons (c : Char) (cs : List Char) :
    Text.encode (String.ofList (c :: cs)) =
      String.utf8EncodeChar c ++ Text.encode (String.ofList cs) := by
  unfold Text.encode
  simp only [String.toUTF8_eq_toByteArray, String.toByteArray_ofList]
  rw [List.utf8Encode_cons, List.utf8Encode_singleton]
  simp

namespace Percent

theorem charBytes_eq (c : Char) : charBytes c = String.utf8EncodeChar c := by
  unfold charBytes
  by_cases h : c.toNat < 0x80
  · rw [if_pos h, utf8EncodeChar_ascii h]
  · rw [if_neg h]

/-! ## 2. Escaping what is escaped -/

def stands (mayStand : UInt8 → Bool) (c : Char) : Bool :=
  decide (c.toNat < 0x80) && mayStand (UInt8.ofNat c.toNat)

def isCode (c : Char) : Bool := c == '%' || (Text.Ranges.hexDigit? c).isSome

/-- **Codes may stand:** what is escaped is not escaped again. -/
def KeepsCodes (mayStand : UInt8 → Bool) : Prop := ∀ c, isCode c = true → stands mayStand c = true

theorem lt_of_isCode {c : Char} (h : isCode c = true) : c.toNat < 0x80 := by
  have hle : ∀ {d : Char}, c ≤ d → c.toNat ≤ d.toNat := fun hd => UInt32.le_iff_toNat_le.1 hd
  rcases Bool.or_eq_true_iff.1 h with h | h
  · rw [beq_iff_eq.1 h]
    decide
  · unfold Text.Ranges.hexDigit? at h
    split at h
    next hdigit => exact Nat.lt_of_le_of_lt (hle hdigit.2) (by decide)
    next =>
      split at h
      next hlower => exact Nat.lt_of_le_of_lt (hle hlower.2) (by decide)
      next =>
        split at h
        next hupper => exact Nat.lt_of_le_of_lt (hle hupper.2) (by decide)
        next => cases h

theorem isCode_of_hexDigit? {c : Char} {n : Nat} (h : Text.Ranges.hexDigit? c = some n) :
    isCode c = true := by
  unfold isCode
  rw [h, Option.isSome_some, Bool.or_true]

theorem hexDigit?_lt {c : Char} {n : Nat} (h : Text.Ranges.hexDigit? c = some n) : n < 16 := by
  have hall : ∀ m : Fin 128, ∀ n ∈ Text.Ranges.hexDigit? (Char.ofNat m.val), n < 16 := by
    decide +kernel
  exact forall_ascii (P := fun c => ∀ n ∈ Text.Ranges.hexDigit? c, n < 16) hall
    (lt_of_isCode (isCode_of_hexDigit? h)) n h

theorem escapeByte_of_large (mayStand : UInt8 → Bool) {bs : Bytes} (h : ∀ b ∈ bs, 0x80 ≤ b.toNat) :
    escape mayStand bs = bs.flatMap escapeByte := by
  unfold escape
  rw [List.flatMap_def, List.flatMap_def]
  congr 1
  apply List.map_congr_left
  intro b hb
  have hnot : ¬b < 0x80 := by
    rw [UInt8.lt_iff_toNat_lt]
    exact Nat.not_lt.2 (h b hb)
  simp [hnot]

/-- Escaping goes character by character. -/
theorem escapeChars_cons (mayStand : UInt8 → Bool) (c : Char) (cs : List Char) :
    escapeChars mayStand (c :: cs) =
      (if stands mayStand c then [c] else (charBytes c).flatMap escapeByte) ++
        escapeChars mayStand cs := by
  have hsplit : escapeChars mayStand (c :: cs) =
      escape mayStand (String.utf8EncodeChar c) ++ escapeChars mayStand cs := by
    unfold escapeChars escape
    rw [encode_cons, List.flatMap_append]
  rw [hsplit, charBytes_eq]
  congr 1
  by_cases h : c.toNat < 0x80
  · rw [utf8EncodeChar_ascii h]
    have hbyte : (UInt8.ofNat c.toNat).toNat = c.toNat := by
      rw [UInt8.toNat_ofNat', Nat.mod_eq_of_lt (by omega)]
    have hlt : UInt8.ofNat c.toNat < 0x80 := by
      rw [UInt8.lt_iff_toNat_lt, hbyte]
      exact h
    unfold escape stands
    simp only [List.flatMap_cons, List.flatMap_nil, List.append_nil, hbyte, hlt, h, decide_true,
      Bool.true_and, Char.ofNat_toNat]
  · have hstands : stands mayStand c = false := by
      unfold stands
      rw [decide_eq_false h, Bool.false_and]
    rw [hstands, escapeByte_of_large mayStand fun b hb => le_of_mem_utf8EncodeChar h hb]
    rfl

theorem escapeChars_of_stands {mayStand : UInt8 → Bool} {cs : List Char}
    (h : ∀ c ∈ cs, stands mayStand c = true) : escapeChars mayStand cs = cs := by
  induction cs with
  | nil => rfl
  | cons c cs ih =>
    rw [escapeChars_cons, if_pos (h c List.mem_cons_self),
      ih fun d hd => h d (List.mem_cons_of_mem _ hd)]
    rfl

/-- Escaping loses no character. -/
theorem eq_nil_of_escapeChars {mayStand : UInt8 → Bool} {cs : List Char}
    (h : escapeChars mayStand cs = []) : cs = [] := by
  cases cs with
  | nil => rfl
  | cons c cs =>
    rw [escapeChars_cons] at h
    have hfirst := (List.append_eq_nil_iff.1 h).1
    split at hfirst
    next => cases hfirst
    next =>
      rw [charBytes_eq] at hfirst
      cases hbytes : String.utf8EncodeChar c with
      | nil => exact absurd hbytes String.utf8EncodeChar_ne_nil
      | cons b bs =>
        rw [hbytes] at hfirst
        cases hfirst

/-- A byte is escaped in a code. -/
theorem isCode_of_mem_escapeByte {b : UInt8} {c : Char} (h : c ∈ escapeByte b) :
    isCode c = true := by
  have hdigit : ∀ n, n < 16 → isCode (upperHex n) = true := by
    intro n hn
    exact isCode_of_hexDigit? (hexDigit?_upperHex hn)
  have hb := b.toNat_lt
  simp only [escapeByte, List.mem_cons, List.not_mem_nil, or_false] at h
  rcases h with rfl | rfl | rfl
  · rfl
  · exact hdigit _ (by omega)
  · exact hdigit _ (by omega)

/-- Escaping bytes writes what may stand, and codes. -/
theorem mem_escape {mayStand : UInt8 → Bool} {bs : Bytes} {c : Char} (h : c ∈ escape mayStand bs) :
    isCode c = true ∨ stands mayStand c = true := by
  obtain ⟨b, -, hc⟩ := List.mem_flatMap.1 h
  split at hc
  next hstands =>
    obtain ⟨hlt, hmay⟩ := Bool.and_eq_true_iff.1 hstands
    have hb : b.toNat < 0x80 := UInt8.lt_iff_toNat_lt.1 (of_decide_eq_true hlt)
    have hval : (Char.ofNat b.toNat).toNat = b.toNat := by
      have hall : ∀ n : Fin 128, (Char.ofNat n.val).toNat = n.val := by decide
      exact hall ⟨b.toNat, hb⟩
    right
    rw [List.mem_singleton.1 hc]
    unfold stands
    rw [hval, UInt8.ofNat_toNat, hmay, decide_eq_true hb]
    rfl
  next => exact .inl (isCode_of_mem_escapeByte hc)

/-- Escaping text keeps what may stand and adds codes only. -/
theorem mem_escapeChars {mayStand : UInt8 → Bool} {cs : List Char} {c : Char}
    (h : c ∈ escapeChars mayStand cs) : isCode c = true ∨ c ∈ cs ∧ stands mayStand c = true := by
  induction cs with
  | nil => cases h
  | cons d cs ih =>
    rw [escapeChars_cons] at h
    rcases List.mem_append.1 h with h | h
    · split at h
      next hstands =>
        rw [List.mem_singleton.1 h]
        exact .inr ⟨List.mem_cons_self, hstands⟩
      next =>
        obtain ⟨b, -, hc⟩ := List.mem_flatMap.1 h
        exact .inl (isCode_of_mem_escapeByte hc)
    · rcases ih h with hcode | ⟨hmem, hstands⟩
      · exact .inl hcode
      · exact .inr ⟨List.mem_cons_of_mem _ hmem, hstands⟩

/-- **What is escaped stands.** -/
theorem stands_of_mem_escapeChars {mayStand : UInt8 → Bool} (hkeeps : KeepsCodes mayStand)
    {cs : List Char} {c : Char} (h : c ∈ escapeChars mayStand cs) : stands mayStand c = true := by
  rcases mem_escapeChars h with hcode | ⟨-, hstands⟩
  · exact hkeeps c hcode
  · exact hstands

/-- **Escaping twice is escaping once.** -/
theorem escapeChars_escapeChars {mayStand : UInt8 → Bool} (hkeeps : KeepsCodes mayStand)
    (cs : List Char) :
    escapeChars mayStand (escapeChars mayStand cs) = escapeChars mayStand cs :=
  escapeChars_of_stands fun _ hc => stands_of_mem_escapeChars hkeeps hc

/-- Codes may stand if that holds among the characters of ASCII. -/
theorem keepsCodes_of {mayStand : UInt8 → Bool}
    (h : ∀ n : Fin 128,
      isCode (Char.ofNat n.val) = true → stands mayStand (Char.ofNat n.val) = true) :
    KeepsCodes mayStand := by
  intro c hc
  exact forall_ascii (P := fun c => isCode c = true → stands mayStand c = true) h
    (lt_of_isCode hc) hc

theorem keepsCodes_pathByte : KeepsCodes pathByte := keepsCodes_of (by decide +kernel)

theorem keepsCodes_fragmentByte : KeepsCodes fragmentByte := keepsCodes_of (by decide +kernel)

theorem keepsCodes_queryByte : KeepsCodes queryByte := keepsCodes_of (by decide +kernel)

theorem keepsCodes_specialQueryByte : KeepsCodes specialQueryByte :=
  keepsCodes_of (by decide +kernel)

theorem keepsCodes_loginByte : KeepsCodes loginByte := keepsCodes_of (by decide +kernel)

/-! ## 3. Reading what is escaped -/

def startsInPair : List Char → Bool
  | a :: b :: _ => (Text.Ranges.hexDigit? a).isSome && (Text.Ranges.hexDigit? b).isSome
  | _ => false

theorem startsInPair_iff {cs : List Char} :
    startsInPair cs = true ↔ ∃ a b rest x y, cs = a :: b :: rest ∧
      Text.Ranges.hexDigit? a = some x ∧ Text.Ranges.hexDigit? b = some y := by
  match cs with
  | [] => exact ⟨nofun, nofun⟩
  | [_] => exact ⟨nofun, nofun⟩
  | a :: b :: rest =>
    simp only [startsInPair, Bool.and_eq_true, Option.isSome_iff_exists]
    constructor
    · rintro ⟨⟨x, ha⟩, y, hb⟩
      exact ⟨a, b, rest, x, y, rfl, ha, hb⟩
    · rintro ⟨_, _, _, x, y, h, ha, hb⟩
      cases h
      exact ⟨⟨x, ha⟩, y, hb⟩

/-- A per cent sign that no code follows stands for itself. -/
theorem unescape_percent {cs : List Char} (h : startsInPair cs = false) :
    unescape ('%' :: cs) = 0x25 :: unescape cs := by
  match cs with
  | [] => rfl
  | [a] => rfl
  | a :: b :: rest =>
    rw [unescape]
    split
    next x y ha hb =>
      rw [startsInPair_iff.2 ⟨a, b, rest, x, y, rfl, ha, hb⟩] at h
      cases h
    next => rfl

/-- **Reading takes a code or a character** at a time. -/
theorem unescape_cases (c : Char) (cs : List Char) :
    (∃ a b rest x y, c = '%' ∧ cs = a :: b :: rest ∧ Text.Ranges.hexDigit? a = some x ∧
        Text.Ranges.hexDigit? b = some y ∧
        unescape (c :: cs) = UInt8.ofNat (16 * x + y) :: unescape rest) ∨
      unescape (c :: cs) = charBytes c ++ unescape cs := by
  by_cases hc : c = '%'
  · subst hc
    cases hpair : startsInPair cs with
    | true =>
      obtain ⟨a, b, rest, x, y, rfl, ha, hb⟩ := startsInPair_iff.1 hpair
      refine .inl ⟨a, b, rest, x, y, rfl, rfl, ha, hb, ?_⟩
      simp only [unescape, ha, hb]
    | false => exact .inr (unescape_percent hpair)
  · exact .inr (unescape_cons hc cs)

theorem unescape_escapeBytes (bs : Bytes) (rest : List Char) :
    unescape (bs.flatMap escapeByte ++ rest) = bs ++ unescape rest := by
  induction bs with
  | nil => rfl
  | cons b bs ih =>
    rw [List.flatMap_cons, List.append_assoc, unescape_escapeByte, ih]
    rfl

theorem escapeChars_cons_of_stands {mayStand : UInt8 → Bool} {c : Char}
    (h : stands mayStand c = true) (cs : List Char) :
    escapeChars mayStand (c :: cs) = c :: escapeChars mayStand cs := by
  rw [escapeChars_cons, if_pos h]
  rfl

theorem escapeChars_cons_of_not_stands {mayStand : UInt8 → Bool} {c : Char}
    (h : stands mayStand c = false) (cs : List Char) :
    escapeChars mayStand (c :: cs) =
      (charBytes c).flatMap escapeByte ++ escapeChars mayStand cs := by
  rw [escapeChars_cons, h]
  rfl

/-- What is escaped starts with a per cent sign. -/
theorem exists_escapeChars_cons {mayStand : UInt8 → Bool} {c : Char}
    (h : stands mayStand c = false) (cs : List Char) :
    ∃ rest, escapeChars mayStand (c :: cs) = '%' :: rest := by
  rw [escapeChars_cons_of_not_stands h]
  cases hbytes : charBytes c with
  | nil =>
    rw [charBytes_eq] at hbytes
    exact absurd hbytes String.utf8EncodeChar_ne_nil
  | cons b bs => exact ⟨_, rfl⟩

theorem hexDigit?_of_not_stands {mayStand : UInt8 → Bool} (hkeeps : KeepsCodes mayStand) {c : Char}
    (h : stands mayStand c = false) : (Text.Ranges.hexDigit? c).isSome = false := by
  cases hdigit : (Text.Ranges.hexDigit? c).isSome with
  | false => rfl
  | true =>
    obtain ⟨n, hn⟩ := Option.isSome_iff_exists.1 hdigit
    rw [hkeeps c (isCode_of_hexDigit? hn)] at h
    cases h

theorem hexDigit?_percent : (Text.Ranges.hexDigit? '%').isSome = false := by decide

/-- Escaping does not move the pairs of digits. -/
theorem startsInPair_escapeChars {mayStand : UInt8 → Bool} (hkeeps : KeepsCodes mayStand)
    (cs : List Char) : startsInPair (escapeChars mayStand cs) = startsInPair cs := by
  have hpercent : ∀ rest, startsInPair ('%' :: rest) = false := by
    intro rest
    cases rest with
    | nil => rfl
    | cons => simp only [startsInPair, hexDigit?_percent, Bool.false_and]
  -- at most two characters stand in the pair; one that is escaped starts with the per cent sign
  match cs with
  | [] => rfl
  | [a] =>
    cases ha : stands mayStand a with
    | true =>
      rw [escapeChars_cons_of_stands ha]
      rfl
    | false =>
      obtain ⟨rest, hrest⟩ := exists_escapeChars_cons ha []
      rw [hrest, hpercent]
      rfl
  | a :: b :: cs =>
    cases ha : stands mayStand a with
    | true =>
      rw [escapeChars_cons_of_stands ha]
      cases hb : stands mayStand b with
      | true =>
        rw [escapeChars_cons_of_stands hb]
        rfl
      | false =>
        obtain ⟨rest, hrest⟩ := exists_escapeChars_cons hb cs
        rw [hrest]
        simp only [startsInPair, hexDigit?_percent, hexDigit?_of_not_stands hkeeps hb]
    | false =>
      obtain ⟨rest, hrest⟩ := exists_escapeChars_cons ha (b :: cs)
      rw [hrest, hpercent]
      simp only [startsInPair, hexDigit?_of_not_stands hkeeps ha, Bool.false_and]

/-- **Escaping does not change what is read.** -/
theorem unescape_escapeChars {mayStand : UInt8 → Bool} (hkeeps : KeepsCodes mayStand)
    (cs : List Char) : unescape (escapeChars mayStand cs) = unescape cs := by
  have hpercent : stands mayStand '%' = true := hkeeps '%' rfl
  -- a per cent sign without a code stays one without a code
  have halone : ∀ rest, startsInPair rest = false →
      unescape (escapeChars mayStand rest) = unescape rest →
      unescape (escapeChars mayStand ('%' :: rest)) = unescape ('%' :: rest) := by
    intro rest hpair ih
    rw [escapeChars_cons_of_stands hpercent, unescape_percent hpair, unescape_percent, ih]
    rw [startsInPair_escapeChars hkeeps, hpair]
  induction cs using unescape.induct with
  | case1 => rfl
  | case2 a b rest x y hb ha ih =>
    rw [escapeChars_cons_of_stands hpercent,
      escapeChars_cons_of_stands (hkeeps a (isCode_of_hexDigit? ha)),
      escapeChars_cons_of_stands (hkeeps b (isCode_of_hexDigit? hb))]
    simp only [unescape, ha, hb, ih]
  | case3 a b rest hnot ih =>
    refine halone _ ?_ ih
    cases hpair : startsInPair (a :: b :: rest) with
    | false => rfl
    | true =>
      obtain ⟨_, _, _, x, y, h, ha, hb⟩ := startsInPair_iff.1 hpair
      cases h
      exact absurd hb (hnot x y ha)
  | case4 c rest hnot ih =>
    by_cases hc : c = '%'
    · rw [hc]
      refine halone _ ?_ ih
      cases hpair : startsInPair rest with
      | false => rfl
      | true =>
        obtain ⟨a, b, tail, x, y, h, -⟩ := startsInPair_iff.1 hpair
        exact (hnot a b tail hc h).elim
    · rw [unescape_cons hc]
      cases hstands : stands mayStand c with
      | true => rw [escapeChars_cons_of_stands hstands, unescape_cons hc, ih]
      | false => rw [escapeChars_cons_of_not_stands hstands, unescape_escapeBytes, ih]

end Percent

end Intake.Uri
