import Intake.Proofs.Escaped

/-!
# Addresses — hosts in numbers

The text of an address reads back as the address: four decimal bytes between dots, and eight
hexadecimal groups between colons, of which the longest run of zeros is left out.
-/

namespace Intake.Uri.Host

open Text (pieces glue)

/-! ## 1. Digits -/

/-- One more digit. -/
theorem valueIn?_append_singleton {base d : Nat} (hd : d < base) {c : Char}
    (hc : Text.Ranges.hexDigit? c = some d) {cs : List Char} {n : Nat}
    (h : valueIn? base cs = some n) : valueIn? base (cs ++ [c]) = some (base * n + d) := by
  unfold valueIn? at h ⊢
  rw [List.foldl_append, h, List.foldl_cons, List.foldl_nil, hc]
  simp only [Option.bind_eq_bind, Option.bind_some, if_pos hd]
  rfl

theorem hexDigit?_digitChar {d : Nat} (h : d < 16) :
    Text.Ranges.hexDigit? d.digitChar = some d := by
  have hall : ∀ d : Fin 16, Text.Ranges.hexDigit? d.val.digitChar = some d.val := by decide
  exact hall ⟨d, h⟩

/-- **Digits read back,** in every base up to 16. -/
theorem valueIn?_toDigits {base : Nat} (hlow : 1 < base) (hhigh : base ≤ 16) (n : Nat) :
    valueIn? base (Nat.toDigits base n) = some n := by
  induction n using Nat.strongRecOn with
  | ind n ih =>
    by_cases hn : n < base
    · rw [Nat.toDigits_of_lt_base hn]
      have hdigit : valueIn? base ([] ++ [n.digitChar]) = some (base * 0 + n) :=
        valueIn?_append_singleton hn (hexDigit?_digitChar (Nat.lt_of_lt_of_le hn hhigh)) rfl
      simpa using hdigit
    · have hdiv : n / base < n := Nat.div_lt_self (by omega) hlow
      have hmod : n % base < base := Nat.mod_lt n (by omega)
      rw [Nat.toDigits_of_base_le hlow (Nat.not_lt.1 hn),
        valueIn?_append_singleton hmod (hexDigit?_digitChar (Nat.lt_of_lt_of_le hmod hhigh))
          (ih (n / base) hdiv), Nat.div_add_mod]

/-- A run of digits is worth less than the next power of the base. -/
theorem valueIn?_lt {base : Nat} {cs : List Char} {n : Nat} (h : valueIn? base cs = some n) :
    n < Nat.pow base cs.length := by
  let digit (acc : Option Nat) (c : Char) : Option Nat := do
    let d ← Text.Ranges.hexDigit? c
    if d < base then return base * (← acc) + d else none
  have hnone : ∀ cs : List Char, cs.foldl digit none = none := by
    intro cs
    induction cs with
    | nil => rfl
    | cons c cs ih =>
      have hstep : digit none c = none := by
        simp only [digit]
        cases Text.Ranges.hexDigit? c <;> simp
      rw [List.foldl_cons, hstep, ih]
  -- behind what has been read so far
  have hall : ∀ (cs : List Char) (a : Nat), cs.foldl digit (some a) = some n →
      n < (a + 1) * base ^ cs.length := by
    intro cs
    induction cs with
    | nil =>
      intro a h
      rw [← Option.some.inj h]
      simp
    | cons c cs ih =>
      intro a h
      rw [List.foldl_cons] at h
      cases hdigit : Text.Ranges.hexDigit? c with
      | none =>
        have hstep : digit (some a) c = none := by simp [digit, hdigit]
        rw [hstep, hnone] at h
        cases h
      | some d =>
        by_cases hd : d < base
        · have hstep : digit (some a) c = some (base * a + d) := by simp [digit, hdigit, hd]
          rw [hstep] at h
          have hle : base * a + d + 1 ≤ (a + 1) * base := by
            rw [Nat.add_mul, Nat.mul_comm a base]
            omega
          calc n < (base * a + d + 1) * base ^ cs.length := ih _ h
            _ ≤ (a + 1) * base * base ^ cs.length := Nat.mul_le_mul_right _ hle
            _ = (a + 1) * base ^ (c :: cs).length := by
              rw [List.length_cons, Nat.pow_succ', Nat.mul_assoc]
        · have hstep : digit (some a) c = none := by simp [digit, hdigit, hd]
          rw [hstep, hnone] at h
          cases h
  simpa using hall cs 0 h

theorem hexValue?_eq (cs : List Char) : Text.Ranges.hexValue? cs = valueIn? 16 cs := by
  unfold Text.Ranges.hexValue? valueIn?
  congr 1
  funext acc c
  cases hdigit : Text.Ranges.hexDigit? c with
  | none => cases acc <;> rfl
  | some d =>
    have hd := Percent.hexDigit?_lt hdigit
    cases acc with
    | none => simp
    | some n => simp [hd]

/-! ## 2. Version 4 -/

/-- What the reader makes of a byte in decimal. -/
theorem byte_facts {n : Nat} (h : n < 256) :
    number? (Nat.toDigits 10 n) = some n ∧ Nat.toDigits 10 n ≠ [] ∧
      ∀ c ∈ Nat.toDigits 10 n, c.isDigit = true ∧ c ≠ '.' := by
  have hall : ∀ n : Fin 256, number? (Nat.toDigits 10 n.val) = some n.val ∧
      (Nat.toDigits 10 n.val).all (fun c => decide (c.isDigit = true ∧ c ≠ '.')) = true := by
    decide +kernel
  obtain ⟨hnumber, hdigits⟩ := hall ⟨n, h⟩
  exact ⟨hnumber, Nat.toDigits_ne_nil, forall_mem_of_all hdigits⟩

def bytesOf (n : Nat) : List Nat := [n / 16777216, n / 65536 % 256, n / 256 % 256, n % 256]

theorem bytesOf_lt {n : Nat} (h : n < 4294967296) : ∀ b ∈ bytesOf n, b < 256 := by
  simp only [bytesOf, List.mem_cons, List.not_mem_nil, or_false]
  rintro b (rfl | rfl | rfl | rfl) <;> omega

theorem toList_address4Text {n : Nat} (h : n < 4294967296) :
    (address4Text n).toList = glue '.' ((bytesOf n).map (Nat.toDigits 10)) := by
  have htop : n / 16777216 % 256 = n / 16777216 := Nat.mod_eq_of_lt (by omega)
  have hbytes : [3, 2, 1, 0].map (fun i => toString (n / Nat.pow 256 i % 256)) =
      ((bytesOf n).map (Nat.toDigits 10)).map String.ofList := by
    simp only [bytesOf, List.map_cons, List.map_nil, Nat.toString_eq_ofList_toDigits,
      Nat.pow_eq, Nat.reducePow, Nat.div_one, htop]
  rw [← Text.toList_intercalate, ← hbytes]
  rfl

theorem dotted_bytes {b : Nat} {bs : List Nat} (h : ∀ a ∈ b :: bs, a < 256) :
    dotted (glue '.' ((b :: bs).map (Nat.toDigits 10))) = (b :: bs).map (Nat.toDigits 10) := by
  have hpieces : pieces (· == '.') (glue '.' ((b :: bs).map (Nat.toDigits 10))) =
      (b :: bs).map (Nat.toDigits 10) := by
    apply Text.pieces_glue (by simp)
    intro p hp hdot
    obtain ⟨a, ha, rfl⟩ := List.mem_map.1 hp
    exact ((byte_facts (h a ha)).2.2 '.' hdot).2 rfl
  have hlast : ((b :: bs).map (Nat.toDigits 10)).getLast? ≠ some [] := by
    intro hnil
    obtain ⟨a, ha, hempty⟩ := List.mem_map.1 (List.mem_of_getLast? hnil)
    exact (byte_facts (h a ha)).2.1 hempty
  unfold dotted
  simp only [hpieces]
  rw [if_neg]
  simp only [Bool.and_eq_true, beq_iff_eq, hlast, and_false, not_false_eq_true]

def number4 (p : List Char) : Except UriError Nat :=
  match number? p with
  | some n => if n < 0x100000000 then pure n else throw .badAddress4
  | none => throw .badAddress4

/-- Whether numbers do not fit: the last one fills the bytes that the others leave. -/
def overflows4 (numbers : List Nat) : Bool :=
  decide (numbers.getLast?.getD 0 ≥ Nat.pow 256 (4 - numbers.dropLast.length)) ||
    numbers.dropLast.any (· > 255)

def sum4 (numbers : List Nat) : Nat :=
  numbers.dropLast.zipIdx.foldl (fun sum (n, i) => sum + n * Nat.pow 256 (3 - i))
    (numbers.getLast?.getD 0)

theorem readAddress4_eq_ok_iff {cs : List Char} {n : Nat} :
    readAddress4 cs = .ok n ↔ (dotted cs).length ≤ 4 ∧
      ∃ numbers, (dotted cs).mapM number4 = .ok numbers ∧ overflows4 numbers = false ∧
        sum4 numbers = n := by
  change (if (dotted cs).length > 4 then Except.error UriError.badAddress4
    else (dotted cs).mapM number4 >>= fun numbers =>
      if overflows4 numbers = true then Except.error UriError.badAddress4
      else Except.ok (sum4 numbers)) = .ok n ↔ _
  by_cases hlength : (dotted cs).length > 4
  · rw [if_pos hlength]
    exact ⟨nofun, fun h => absurd h.1 (Nat.not_le.2 hlength)⟩
  rw [if_neg hlength]
  cases hread : (dotted cs).mapM number4 with
  | error cause => exact ⟨nofun, nofun⟩
  | ok numbers =>
    change (if overflows4 numbers = true then Except.error UriError.badAddress4
      else Except.ok (sum4 numbers)) = .ok n ↔ _
    cases hfits : overflows4 numbers with
    | false =>
      constructor
      · intro hsum
        exact ⟨Nat.not_lt.1 hlength, numbers, rfl, hfits, Except.ok.inj hsum⟩
      · rintro ⟨-, _, hsame, -, rfl⟩
        cases hsame
        rfl
    | true =>
      refine ⟨nofun, ?_⟩
      rintro ⟨-, _, hsame, hfit, -⟩
      cases hsame
      rw [hfits] at hfit
      cases hfit

theorem mapM_number4 {bs : List Nat} (h : ∀ b ∈ bs, b < 256) :
    (bs.map (Nat.toDigits 10)).mapM number4 = .ok bs := by
  induction bs with
  | nil => rfl
  | cons b bs ih =>
    have hb := h b List.mem_cons_self
    have hfirst : number4 (Nat.toDigits 10 b) = .ok b := by
      unfold number4
      simp only [(byte_facts hb).1]
      rw [if_pos (by omega)]
      rfl
    rw [List.map_cons, List.mapM_cons, hfirst, ih fun a ha => h a (List.mem_cons_of_mem _ ha)]
    rfl

def weight4 (i : Nat) : Nat := Nat.pow 256 (3 - i)

theorem weight4_eq : weight4 0 = 16777216 ∧ weight4 1 = 65536 ∧ weight4 2 = 256 := by decide

theorem sum4_eq_foldl (numbers : List Nat) :
    sum4 numbers = numbers.dropLast.zipIdx.foldl (fun sum p => sum + p.1 * weight4 p.2)
      (numbers.getLast?.getD 0) := rfl

/-- The sum of weighted numbers, for any weights: the kernel is to compute none of them. -/
theorem foldl_weights (w : Nat → Nat) (a b c d : Nat) :
    [a].zipIdx.foldl (fun sum p => sum + p.1 * w p.2) d = d + a * w 0 ∧
      [a, b].zipIdx.foldl (fun sum p => sum + p.1 * w p.2) d = d + a * w 0 + b * w 1 ∧
      [a, b, c].zipIdx.foldl (fun sum p => sum + p.1 * w p.2) d =
        d + a * w 0 + b * w 1 + c * w 2 := ⟨rfl, rfl, rfl⟩

theorem sum4_eq (a b c d : Nat) :
    sum4 [d] = d ∧ sum4 [a, d] = d + a * 16777216 ∧
      sum4 [a, b, d] = d + a * 16777216 + b * 65536 ∧
      sum4 [a, b, c, d] = d + a * 16777216 + b * 65536 + c * 256 := by
  obtain ⟨hzero, hone, htwo⟩ := weight4_eq
  obtain ⟨htwoNumbers, hthreeNumbers, hfourNumbers⟩ := foldl_weights weight4 a b c d
  rw [hzero] at htwoNumbers
  rw [hzero, hone] at hthreeNumbers
  rw [hzero, hone, htwo] at hfourNumbers
  refine ⟨rfl, ?_, ?_, ?_⟩
  · rw [sum4_eq_foldl, ← htwoNumbers]
    rfl
  · rw [sum4_eq_foldl, ← hthreeNumbers]
    rfl
  · rw [sum4_eq_foldl, ← hfourNumbers]
    rfl

/-- **An address of version 4 reads back.** -/
theorem readAddress4_text {n : Nat} (h : n < 4294967296) :
    readAddress4 (address4Text n).toList = .ok n := by
  have hbytes := bytesOf_lt h
  have hdotted : dotted (address4Text n).toList = (bytesOf n).map (Nat.toDigits 10) := by
    rw [toList_address4Text h]
    exact dotted_bytes hbytes
  rw [readAddress4_eq_ok_iff, hdotted]
  refine ⟨by simp [bytesOf], bytesOf n, mapM_number4 hbytes, ?_, ?_⟩
  · unfold overflows4
    rw [Bool.or_eq_false_iff, decide_eq_false_iff_not, List.any_eq_false]
    refine ⟨Nat.not_le.2 (hbytes _ (by simp [bytesOf])), ?_⟩
    intro a ha
    have hlt := hbytes a (List.dropLast_subset _ ha)
    rw [decide_eq_true_eq]
    omega
  · unfold bytesOf
    rw [(sum4_eq _ _ _ _).2.2.2]
    omega

theorem endsInNumber_text {n : Nat} (h : n < 4294967296) :
    endsInNumber (address4Text n).toList = true := by
  have hlast := byte_facts (show n % 256 < 256 by omega)
  have hdotted : dotted (address4Text n).toList = (bytesOf n).map (Nat.toDigits 10) := by
    rw [toList_address4Text h]
    exact dotted_bytes (bytesOf_lt h)
  unfold endsInNumber
  rw [hdotted]
  simp only [bytesOf, List.map_cons, List.map_nil, List.getLast?_cons_cons, List.getLast?_singleton]
  rw [hlast.1, Option.isSome_some, Bool.or_true]

/-- Addresses of version 4 fit 32 bits. -/
theorem readAddress4_lt {cs : List Char} {n : Nat} (h : readAddress4 cs = .ok n) :
    n < 4294967296 := by
  obtain ⟨hlength, numbers, hread, hfits, rfl⟩ := readAddress4_eq_ok_iff.1 h
  rw [← length_of_mapM hread] at hlength
  obtain ⟨hlast, hlead⟩ := Bool.or_eq_false_iff.1 hfits
  have hlead' : ∀ a ∈ numbers.dropLast, a ≤ 255 := by
    intro a ha
    have hnot := List.any_eq_false.1 hlead a ha
    rw [decide_eq_true_eq] at hnot
    omega
  have hlast' := Nat.not_le.1 (decide_eq_false_iff_not.1 hlast)
  -- the last number fits the bytes that the others, of one byte each, leave
  have hfour : Nat.pow 256 4 = 4294967296 := by decide
  have hthree : Nat.pow 256 3 = 16777216 := by decide
  have htwo : Nat.pow 256 2 = 65536 := by decide
  have hone : Nat.pow 256 1 = 256 := by decide
  match numbers with
  | [] => exact Nat.zero_lt_succ _
  | [a] =>
    rw [(sum4_eq 0 0 0 a).1, ← hfour]
    exact hlast'
  | [a, d] =>
    change d < Nat.pow 256 3 at hlast'
    have ha := hlead' a (by simp)
    rw [(sum4_eq a 0 0 d).2.1]
    omega
  | [a, b, d] =>
    change d < Nat.pow 256 2 at hlast'
    have ha := hlead' a (by simp)
    have hb := hlead' b (by simp)
    rw [(sum4_eq a b 0 d).2.2.1]
    omega
  | [a, b, c, d] =>
    change d < Nat.pow 256 1 at hlast'
    have ha := hlead' a (by simp)
    have hb := hlead' b (by simp)
    have hc := hlead' c (by simp)
    rw [(sum4_eq a b c d).2.2.2]
    omega
  | _ :: _ :: _ :: _ :: _ :: _ =>
    simp only [List.length_cons] at hlength
    omega

/-! ## 3. Groups -/

def hex (n : Nat) : List Char := Nat.toDigits 16 n

theorem hexDigit?_of_mem_hex {n : Nat} {c : Char} (h : c ∈ hex n) :
    (Text.Ranges.hexDigit? c).isSome = true := by
  have hdigit : ∀ {d : Nat}, d < 16 → (Text.Ranges.hexDigit? d.digitChar).isSome = true := by
    intro d hd
    rw [hexDigit?_digitChar hd]
    rfl
  unfold hex at h
  induction n using Nat.strongRecOn with
  | ind n ih =>
    by_cases hn : n < 16
    · rw [Nat.toDigits_of_lt_base hn] at h
      rw [List.mem_singleton.1 h]
      exact hdigit hn
    · rw [Nat.toDigits_of_base_le (by decide) (Nat.not_lt.1 hn)] at h
      rcases List.mem_append.1 h with h | h
      · exact ih (n / 16) (Nat.div_lt_self (by omega) (by decide)) h
      · rw [List.mem_singleton.1 h]
        exact hdigit (Nat.mod_lt n (by decide))

theorem hex_ne_nil (n : Nat) : hex n ≠ [] := Nat.toDigits_ne_nil

/-- A group reads back. -/
theorem group?_hex {n : Nat} (h : n < 65536) : group? (hex n) = some n := by
  have hlength : (hex n).length ≤ 4 := (Nat.length_toDigits_le_iff (by decide) (by decide)).2 h
  unfold group?
  rw [hexValue?_eq, hex, valueIn?_toDigits (by decide) (by decide)]
  rw [if_neg]
  simp only [Bool.or_eq_true, List.isEmpty_iff, decide_eq_true_eq, not_or]
  exact ⟨hex_ne_nil n, Nat.not_lt.2 hlength⟩

theorem group?_lt {cs : List Char} {n : Nat} (h : group? cs = some n) : n < 65536 := by
  unfold group? at h
  split at h
  next => cases h
  next hsize =>
    rw [hexValue?_eq] at h
    have hlt := valueIn?_lt h
    have hlength : cs.length ≤ 4 := by
      simp only [Bool.or_eq_true, decide_eq_true_eq, not_or] at hsize
      exact Nat.not_lt.1 hsize.2
    calc n < 16 ^ cs.length := hlt
      _ ≤ 16 ^ 4 := Nat.pow_le_pow_right (by decide) hlength

theorem byte?_lt {cs : List Char} {n : Nat} (h : byte? cs = some n) : n < 256 := by
  unfold byte? at h
  split at h
  next => cases h
  next => cases h
  next =>
    split at h
    next =>
      split at h
      next hsmall =>
        rw [← Option.some.inj h]
        exact of_decide_eq_true (Bool.and_eq_true_iff.1 hsmall).1
      next => cases h
    next => cases h

/-- Every group fits 16 bits, also those of an embedded address of version 4. -/
theorem groups?_lt {lastRun : Bool} {items : List (List Char)} {groups : List Nat}
    (h : groups? lastRun items = some groups) : ∀ g ∈ groups, g < 65536 := by
  induction items using groups?.induct lastRun generalizing groups with
  | case1 =>
    cases h
    exact nofun
  | case2 item hdotted a b c d hbytes =>
    rw [groups?, if_pos hdotted, hbytes] at h
    -- a dotted end is two groups of two bytes
    have hbyte : ∀ n ∈ [a, b, c, d], n < 256 := by
      intro n hn
      obtain ⟨digits, -, hread⟩ := (mem_of_mapM hbytes n).1 hn
      exact byte?_lt hread
    have ha := hbyte a (by simp)
    have hb := hbyte b (by simp)
    have hc := hbyte c (by simp)
    have hd := hbyte d (by simp)
    cases h
    simp only [List.mem_cons, List.not_mem_nil, or_false]
    rintro g (rfl | rfl) <;> omega
  | case3 item hdotted hbytes =>
    rw [groups?, if_pos hdotted] at h
    split at h
    next a b c d hread => exact (hbytes a b c d hread).elim
    next => cases h
  | case4 item hdotted =>
    rw [groups?, if_neg hdotted] at h
    obtain ⟨g, hg, rfl⟩ := Option.map_eq_some_iff.1 h
    intro n hn
    rw [List.mem_singleton.1 hn]
    exact group?_lt hg
  | case5 item rest hne ih =>
    rw [groups?.eq_3 _ _ _ hne] at h
    obtain ⟨g, hg, h⟩ := Option.bind_eq_some_iff.1 h
    obtain ⟨gs, hgs, h⟩ := Option.bind_eq_some_iff.1 h
    cases h
    intro n hn
    rcases List.mem_cons.1 hn with rfl | hn
    · exact group?_lt hg
    · exact ih hgs n hn

theorem dot_notMem_hex (n : Nat) : '.' ∉ hex n := by
  intro h
  have hdigit := hexDigit?_of_mem_hex h
  revert hdigit
  decide

theorem colon_notMem_hex (n : Nat) : ':' ∉ hex n := by
  intro h
  have hdigit := hexDigit?_of_mem_hex h
  revert hdigit
  decide

theorem groups?_hex (lastRun : Bool) {groups : List Nat} (h : ∀ g ∈ groups, g < 65536) :
    groups? lastRun (groups.map hex) = some groups := by
  induction groups with
  | nil => rfl
  | cons g rest ih =>
    have hg := group?_hex (h g List.mem_cons_self)
    cases rest with
    | nil =>
      have hplain : (lastRun && (hex g).contains '.') = false := by
        simp [dot_notMem_hex]
      rw [List.map_cons, List.map_nil, groups?, hplain, hg]
      rfl
    | cons next rest =>
      have hrest := ih fun a ha => h a (List.mem_cons_of_mem _ ha)
      rw [List.map_cons, groups?.eq_3 _ _ _ (by simp), hg, hrest]
      rfl

/-! ## 4. Runs and gaps -/

theorem run?_lt {lastRun : Bool} {cs : List Char} {groups : List Nat}
    (h : run? lastRun cs = some groups) : ∀ g ∈ groups, g < 65536 := by
  unfold run? at h
  split at h
  next =>
    rw [← Option.some.inj h]
    exact nofun
  next => exact groups?_lt h

theorem head?_hex_ne (n : Nat) : (hex n).head? ≠ some ':' ∧ (hex n).head? ≠ none := by
  constructor
  · intro h
    exact colon_notMem_hex n (List.mem_of_head? h)
  · intro h
    exact hex_ne_nil n (List.head?_eq_none_iff.1 h)

/-- **A run reads back.** -/
theorem run?_hex (lastRun : Bool) {groups : List Nat} (h : ∀ g ∈ groups, g < 65536) :
    run? lastRun (glue ':' (groups.map hex)) = some groups := by
  unfold run?
  cases groups with
  | nil => rfl
  | cons g rest =>
    have hempty : (glue ':' ((g :: rest).map hex)).isEmpty = false := by
      rw [← Bool.not_eq_true, List.isEmpty_iff]
      intro hnil
      have hhead : (glue ':' ((g :: rest).map hex)).head? = (hex g).head? :=
        Text.head?_glue (hex_ne_nil g) (rest.map hex)
      rw [hnil] at hhead
      exact (head?_hex_ne g).2 hhead.symm
    have hpieces : pieces (· == ':') (glue ':' ((g :: rest).map hex)) = (g :: rest).map hex := by
      apply Text.pieces_glue (by simp)
      intro p hp hcolon
      obtain ⟨n, -, rfl⟩ := List.mem_map.1 hp
      exact colon_notMem_hex n hcolon
    rw [hempty, hpieces, groups?_hex lastRun h]
    rfl

theorem splitGap_cons {c : Char} {cs : List Char} (h : c ≠ ':' ∨ cs.head? ≠ some ':') :
    splitGap (c :: cs) = (splitGap cs).map fun (a, b) => (c :: a, b) := by
  apply splitGap.eq_2
  rintro rest rfl rfl
  rcases h with h | h <;> exact h rfl

theorem splitGap_append {xs : List Char} (h : ':' ∉ xs) (rest : List Char) :
    splitGap (xs ++ rest) = (splitGap rest).map fun (a, b) => (xs ++ a, b) := by
  induction xs with
  | nil => cases hrest : splitGap rest <;> simp [hrest]
  | cons c xs ih =>
    have hc : c ≠ ':' := fun hc => h (hc ▸ List.mem_cons_self)
    rw [List.cons_append, splitGap_cons (.inl hc), ih fun hmem => h (List.mem_cons_of_mem _ hmem),
      Option.map_map]
    rfl

theorem splitGap_group (g : Nat) (rest : List Char) :
    splitGap (hex g ++ rest) = (splitGap rest).map fun (a, b) => (hex g ++ a, b) :=
  splitGap_append (colon_notMem_hex g) rest

/-- Groups have no gap between them. -/
theorem splitGap_hex (groups : List Nat) : splitGap (glue ':' (groups.map hex)) = none := by
  induction groups with
  | nil => rfl
  | cons g rest ih =>
    cases rest with
    | nil =>
      have hgroup := splitGap_group g []
      rw [List.append_nil] at hgroup
      exact hgroup
    | cons next rest =>
      have hhead : (glue ':' ((next :: rest).map hex)).head? ≠ some ':' := by
        rw [List.map_cons, Text.head?_glue (hex_ne_nil next)]
        exact (head?_hex_ne next).1
      change splitGap (hex g ++ ':' :: glue ':' ((next :: rest).map hex)) = none
      rw [splitGap_group, splitGap_cons (.inr hhead), ih]
      rfl

/-- The first gap is the one that was written. -/
theorem splitGap_gap (groups : List Nat) (after : List Char) :
    splitGap (glue ':' (groups.map hex) ++ ':' :: ':' :: after) =
      some (glue ':' (groups.map hex), after) := by
  induction groups with
  | nil => rfl
  | cons g rest ih =>
    cases rest with
    | nil =>
      change splitGap (hex g ++ ':' :: ':' :: after) = some (hex g, after)
      rw [splitGap_group, splitGap]
      simp
    | cons next rest =>
      have hhead : (glue ':' ((next :: rest).map hex) ++ ':' :: ':' :: after).head? ≠ some ':' := by
        rw [List.head?_append, List.map_cons, Text.head?_glue (hex_ne_nil next)]
        cases hnext : (hex next).head? with
        | none => exact absurd hnext (head?_hex_ne next).2
        | some c =>
          rw [Option.some_or, ← hnext]
          exact (head?_hex_ne next).1
      change splitGap ((hex g ++ ':' :: glue ':' ((next :: rest).map hex)) ++ _) =
        some (hex g ++ ':' :: glue ':' ((next :: rest).map hex), after)
      rw [List.append_assoc, splitGap_group, List.cons_append, splitGap_cons (.inr hhead), ih]
      rfl

/-! ## 5. Version 6 -/

/-- Addresses of version 6 have eight groups. -/
theorem readAddress6_groups {cs : List Char} {groups : List Nat}
    (h : readAddress6 cs = .ok groups) :
    groups.length = 8 ∧ ∀ g ∈ groups, g < 65536 := by
  unfold readAddress6 at h
  split at h
  next =>
    split at h
    next found hrun =>
      split at h
      next hlength =>
        cases h
        exact ⟨hlength, run?_lt hrun⟩
      next => cases h
    next => cases h
  next before after _ =>
    split at h
    next front back hfront hback =>
      split at h
      next hshort =>
        cases h
        constructor
        · simp only [List.length_append, List.length_replicate]
          omega
        · intro g hg
          rcases List.mem_append.1 hg with hg | hg
          · rcases List.mem_append.1 hg with hg | hg
            · exact run?_lt hfront g hg
            · rw [List.eq_of_mem_replicate hg]
              decide
          · exact run?_lt hback g hg
      next => cases h
    next => cases h

/-- **The run of zeros that is left out** is one. -/
theorem longestZeros_zeros (groups : List Nat) :
    (longestZeros groups).2 = 0 ∨
      zeroRun (groups.drop (longestZeros groups).1) = (longestZeros groups).2 := by
  unfold longestZeros
  -- the best run so far is one, or there was none
  have hall : ∀ (is : List Nat) (best : Nat × Nat),
      (best.2 = 0 ∨ zeroRun (groups.drop best.1) = best.2) →
      let found := is.foldl (fun best i =>
        let n := zeroRun (groups.drop i)
        if n > best.2 && n ≥ 2 then (i, n) else best) best
      found.2 = 0 ∨ zeroRun (groups.drop found.1) = found.2 := by
    intro is
    induction is with
    | nil => exact fun best h => h
    | cons i is ih =>
      intro best h
      apply ih
      dsimp only
      split
      · exact .inr rfl
      · exact h
  exact hall _ _ (.inl rfl)

theorem take_zeroRun (groups : List Nat) :
    groups.take (zeroRun groups) = List.replicate (zeroRun groups) 0 := by
  have htake : groups.take (zeroRun groups) = groups.takeWhile (· == 0) := by
    have hsplit : groups.takeWhile (· == 0) ++ groups.dropWhile (· == 0) = groups :=
      List.takeWhile_append_dropWhile
    have hleft : (groups.takeWhile (· == 0) ++ groups.dropWhile (· == 0)).take (zeroRun groups) =
        groups.takeWhile (· == 0) := List.take_left' rfl
    rw [hsplit] at hleft
    exact hleft
  rw [htake, List.eq_replicate_iff]
  refine ⟨rfl, ?_⟩
  intro g hg
  have hzero := List.all_eq_true.1 (List.all_takeWhile (p := (· == 0)) (l := groups)) g hg
  exact beq_iff_eq.1 hzero

/-- **The text without its longest run of zeros.** -/
theorem toList_address6Text (groups : List Nat) :
    (address6Text groups).toList =
      if (longestZeros groups).2 = 0 then glue ':' (groups.map hex)
      else glue ':' ((groups.take (longestZeros groups).1).map hex) ++ ':' :: ':' ::
        glue ':' ((groups.drop ((longestZeros groups).1 + (longestZeros groups).2)).map hex) := by
  have htext : ∀ gs : List Nat,
      (":".intercalate (gs.map fun n => String.ofList (Nat.toDigits 16 n))).toList =
        glue ':' (gs.map hex) := by
    intro gs
    rw [← Text.toList_intercalate, List.map_map]
    rfl
  unfold address6Text
  simp only
  split
  next => exact htext groups
  next =>
    rw [String.toList_append, String.toList_append, htext, htext, List.append_assoc]
    rfl

/-- **An address of version 6 reads back.** -/
theorem readAddress6_text {groups : List Nat} (hlength : groups.length = 8)
    (h : ∀ g ∈ groups, g < 65536) : readAddress6 (address6Text groups).toList = .ok groups := by
  have hsub : ∀ {part : List Nat}, part ⊆ groups → ∀ g ∈ part, g < 65536 :=
    fun hpart g hg => h g (hpart hg)
  rw [toList_address6Text]
  unfold readAddress6
  by_cases hcount : (longestZeros groups).2 = 0
  · rw [if_pos hcount, splitGap_hex]
    simp only [run?_hex true h, if_pos hlength]
  · rw [if_neg hcount, splitGap_gap]
    have hzeros : zeroRun (groups.drop (longestZeros groups).1) = (longestZeros groups).2 :=
      (longestZeros_zeros groups).resolve_left hcount
    have htake := take_zeroRun (groups.drop (longestZeros groups).1)
    rw [hzeros] at htake
    generalize (longestZeros groups).1 = start at htake ⊢
    generalize (longestZeros groups).2 = count at hcount htake ⊢
    have hfit : start + count ≤ groups.length := by
      have hlong := congrArg List.length htake
      rw [List.length_take, List.length_drop, List.length_replicate] at hlong
      omega
    simp only [run?_hex false (hsub (List.take_subset start groups)),
      run?_hex true (hsub (List.drop_subset (start + count) groups))]
    rw [if_pos (by rw [List.length_take, List.length_drop]; omega)]
    have hmiddle :
        8 - (groups.take start).length - (groups.drop (start + count)).length = count := by
      rw [List.length_take, List.length_drop]
      omega
    rw [hmiddle, ← htake, List.append_assoc, ← List.drop_drop, List.take_append_drop,
      List.take_append_drop]

end Intake.Uri.Host
