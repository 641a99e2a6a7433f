import Intake.Proofs.Escaped

/-!
# Domains — names that are already in ASCII

A domain name is folded, its labels outside ASCII are written in Punycode, and what comes out is a
domain name that reads as itself: folding does not change what is folded, and a label that was
encoded is one that claims to be encoded and is.
-/

namespace Intake.Uri.Host

/-! ## 1. Folding -/

def IsFolded (c : Char) : Prop := c.toNat < 0x80 ∧ ¬(0x41 ≤ c.toNat ∧ c.toNat ≤ 0x5A)

instance (c : Char) : Decidable (IsFolded c) := inferInstanceAs (Decidable (_ ∧ _))

/-- No code point folds to a capital letter of ASCII. -/
theorem foldCode_not_capital (n : Nat) : ¬(0x41 ≤ Text.foldCode n ∧ Text.foldCode n ≤ 0x5A) := by
  have htable : ∀ s ∈ Text.foldTable,
      if s.up then 0x5A < s.source.1 + s.distance else 0x5A + s.distance < s.source.1 := by
    decide +kernel
  unfold Text.foldCode
  split
  next s hs =>
    have hclear := htable s (List.mem_of_find?_eq_some hs)
    have hin := List.find?_some hs
    simp only [Text.Ranges.Item.contains, Bool.and_eq_true, decide_eq_true_eq] at hin
    unfold Text.Shift.apply
    split
    next hup =>
      rw [if_pos hup] at hclear
      omega
    next hup =>
      rw [if_neg hup] at hclear
      omega
  next hnone =>
    rintro ⟨hlow, hhigh⟩
    -- the capital letters are in the table
    have hall : ∀ m : Fin 128, 0x41 ≤ m.val → m.val ≤ 0x5A →
        (Text.foldTable.find? (·.source.contains m.val)).isSome = true := by
      decide +kernel
    have hsome := hall ⟨n, by omega⟩ hlow hhigh
    rw [hnone] at hsome
    cases hsome

theorem isFolded_ofNat {n : Nat} (h : ¬(0x41 ≤ n ∧ n ≤ 0x5A))
    (hascii : (Char.ofNat n).toNat < 0x80) :
    IsFolded (Char.ofNat n) := by
  refine ⟨hascii, ?_⟩
  by_cases hvalid : n.isValidChar
  · have hsame : (Char.ofNat n).toNat = n := by
      unfold Char.ofNat
      rw [dif_pos hvalid]
      rfl
    rw [hsame]
    exact h
  · unfold Char.ofNat
    rw [dif_neg hvalid]
    decide

/-- **Mapping folds** what it maps to ASCII. -/
theorem isFolded_mapChar {c : Char} (h : (mapChar c).toNat < 0x80) : IsFolded (mapChar c) := by
  unfold mapChar at h ⊢
  simp only at h ⊢
  split
  next => decide
  next hdot =>
    rw [if_neg hdot] at h
    split
    next hwide =>
      rw [if_pos hwide] at h
      exact isFolded_ofNat (foldCode_not_capital _) h
    next hwide =>
      rw [if_neg hwide] at h
      exact isFolded_ofNat (foldCode_not_capital _) h

/-- **Folded characters stay** as they are. -/
theorem mapChar_of_isFolded {c : Char} (h : IsFolded c) : mapChar c = c := by
  have hall : ∀ n : Fin 128, IsFolded (Char.ofNat n.val) →
      mapChar (Char.ofNat n.val) = Char.ofNat n.val := by
    decide +kernel
  exact forall_ascii (P := fun c => IsFolded c → mapChar c = c) hall h.1 h

/-- Nothing in ASCII is ignored. -/
theorem not_ignored {c : Char} (h : c.toNat < 0x80) : ignored c = false := by
  unfold ignored
  simp only [Bool.or_eq_false_iff, beq_eq_false_iff_ne, Bool.and_eq_false_iff,
    decide_eq_false_iff_not]
  omega

/-! ## 2. Punycode -/

theorem punyValue?_punyDigit {n : Nat} (h : n < 36) : (punyValue? (punyDigit n)).isSome = true := by
  have hall : ∀ n : Fin 36, (punyValue? (punyDigit n.val)).isSome = true := by decide
  exact hall ⟨n, h⟩

/-- A number is written in digits. -/
theorem mem_punyNumber {bias fuel q k : Nat} {c : Char} (h : c ∈ punyNumber bias fuel q k) :
    (punyValue? c).isSome = true := by
  induction fuel generalizing q k with
  | zero => cases h
  | succ fuel ih =>
    unfold punyNumber at h
    simp only at h
    have hthreshold : ∀ t, t = (if k ≤ bias then 1 else if k ≥ bias + 26 then 26 else k - bias) →
        t ≤ 26 := by
      rintro _ rfl
      split
      · decide
      · split <;> omega
    generalize ht : (if k ≤ bias then 1 else if k ≥ bias + 26 then 26 else k - bias) = t at h
    have hle := hthreshold t ht.symm
    split at h
    next hq =>
      rw [List.mem_singleton.1 h]
      exact punyValue?_punyDigit (by omega)
    next =>
      rcases List.mem_cons.1 h with h | h
      · rw [h]
        have hmod : (q - t) % (36 - t) < 36 - t := Nat.mod_lt _ (by omega)
        exact punyValue?_punyDigit (by omega)
      · exact ih h

theorem punyNumber_ne_nil (bias fuel q k : Nat) : punyNumber bias (fuel + 1) q k ≠ [] := by
  unfold punyNumber
  simp only
  generalize (if k ≤ bias then 1 else if k ≥ bias + 26 then 26 else k - bias) = t
  split <;> exact List.cons_ne_nil _ _

def Extends (s t : PunyState) : Prop :=
  ∃ digits, t.out = s.out ++ digits ∧ ∀ c ∈ digits, (punyValue? c).isSome = true

theorem Extends.refl (s : PunyState) : Extends s s := ⟨[], (List.append_nil _).symm, nofun⟩

theorem Extends.trans {s t u : PunyState} (h : Extends s t) (h' : Extends t u) : Extends s u := by
  obtain ⟨ds, hds, hdigits⟩ := h
  obtain ⟨es, hes, hdigits'⟩ := h'
  refine ⟨ds ++ es, by rw [hes, hds, List.append_assoc], ?_⟩
  intro c hc
  rcases List.mem_append.1 hc with hc | hc
  · exact hdigits c hc
  · exact hdigits' c hc

theorem Extends.length_le {s t : PunyState} (h : Extends s t) : s.out.length ≤ t.out.length := by
  obtain ⟨ds, hds, -⟩ := h
  rw [hds, List.length_append]
  omega

theorem extends_punyStep (basic n : Nat) (s : PunyState) (c : Char) :
    Extends s (punyStep basic n s c) := by
  unfold punyStep
  split
  next => exact Extends.refl s
  next =>
    split
    next => exact ⟨_, rfl, fun c hc => mem_punyNumber hc⟩
    next => exact Extends.refl s

theorem extends_foldl (basic n : Nat) (cs : List Char) (s : PunyState) :
    Extends s (cs.foldl (punyStep basic n) s) := by
  induction cs generalizing s with
  | nil => exact Extends.refl s
  | cons c cs ih => exact (extends_punyStep basic n s c).trans (ih _)

/-- A character of the code point in turn is written. -/
theorem foldl_writes {basic n : Nat} {cs : List Char} {c : Char} (hc : c ∈ cs) (hn : c.toNat = n)
    (s : PunyState) : s.out.length < (cs.foldl (punyStep basic n) s).out.length := by
  induction cs generalizing s with
  | nil => cases hc
  | cons d cs ih =>
    rw [List.foldl_cons]
    rcases List.mem_cons.1 hc with rfl | hc
    · have hstep : s.out.length < (punyStep basic n s c).out.length := by
        unfold punyStep
        rw [if_neg (by omega), if_pos hn, List.length_append]
        have hpos : 0 < (punyNumber s.bias 64 s.delta 36).length :=
          List.length_pos_iff.2 (punyNumber_ne_nil s.bias 63 s.delta 36)
        omega
      exact Nat.lt_of_lt_of_le hstep (extends_foldl basic n cs _).length_le
    · exact Nat.lt_of_le_of_lt (extends_punyStep basic n s d).length_le (ih hc _)

def punyTurn (cs : List Char) (basic m n : Nat) (s : PunyState) : PunyState :=
  let s := { s with delta := s.delta + (m - n) * (s.handled + 1) }
  let s := cs.foldl (punyStep basic m) s
  { s with delta := s.delta + 1 }

theorem punyLoop_cons (cs : List Char) (basic m : Nat) (codes : List Nat) (n : Nat)
    (s : PunyState) : punyLoop cs basic (m :: codes) n s =
      punyLoop cs basic codes (m + 1) (punyTurn cs basic m n s) := rfl

theorem extends_punyTurn (cs : List Char) (basic m n : Nat) (s : PunyState) :
    Extends s (punyTurn cs basic m n s) :=
  extends_foldl basic m cs { s with delta := s.delta + (m - n) * (s.handled + 1) }

theorem extends_punyLoop (cs : List Char) (basic : Nat) (codes : List Nat) (n : Nat)
    (s : PunyState) : Extends s (punyLoop cs basic codes n s) := by
  induction codes generalizing n s with
  | nil => exact Extends.refl s
  | cons m rest ih => exact (extends_punyTurn cs basic m n s).trans (ih _ _)

theorem punyLoop_writes {cs : List Char} {basic : Nat} {codes : List Nat} {c : Char} (hc : c ∈ cs)
    (hcode : c.toNat ∈ codes) (n : Nat) (s : PunyState) :
    s.out.length < (punyLoop cs basic codes n s).out.length := by
  induction codes generalizing n s with
  | nil => cases hcode
  | cons m rest ih =>
    rw [punyLoop_cons]
    rcases List.mem_cons.1 hcode with hm | hcode
    · have hturn : s.out.length < (punyTurn cs basic m n s).out.length :=
        foldl_writes hc hm { s with delta := s.delta + (m - n) * (s.handled + 1) }
      exact Nat.lt_of_lt_of_le hturn (extends_punyLoop cs basic rest _ _).length_le
    · exact Nat.lt_of_le_of_lt (extends_punyTurn cs basic m n s).length_le (ih hcode _ _)

/-- **What Punycode writes:** the characters of ASCII and a hyphen, if there are any, then digits;
    there are digits if there is a character outside ASCII. -/
theorem exists_punycode {cs : List Char} {c : Char} (hc : c ∈ cs) (hwide : ¬c.toNat < 0x80) :
    ∃ start digits, punycode cs = start ++ digits ∧ digits ≠ [] ∧
      (∀ d ∈ digits, (punyValue? d).isSome = true) ∧
      (start = [] ∨ ∃ ascii, start = ascii ++ ['-'] ∧ ∀ d ∈ ascii, d ∈ cs ∧ d.toNat < 0x80) := by
  let ascii := cs.filter fun c => c.toNat < 0x80
  let codes := ((cs.filter fun c => c.toNat ≥ 0x80).map Char.toNat).eraseDups.mergeSort
  let start := if ascii.isEmpty then [] else ascii ++ ['-']
  have hcode : c.toNat ∈ codes := by
    rw [List.mem_mergeSort, List.mem_eraseDups]
    apply List.mem_map_of_mem
    rw [List.mem_filter]
    exact ⟨hc, decide_eq_true (Nat.not_lt.1 hwide)⟩
  have hwrites : start.length <
      (punyLoop cs ascii.length codes 0x80 ⟨start, 0, 72, ascii.length⟩).out.length :=
    punyLoop_writes hc hcode 0x80 ⟨start, 0, 72, ascii.length⟩
  obtain ⟨digits, hout, hdigits⟩ :=
    extends_punyLoop cs ascii.length codes 0x80 ⟨start, 0, 72, ascii.length⟩
  refine ⟨start, digits, hout, ?_, hdigits, ?_⟩
  · rintro rfl
    rw [hout, List.append_nil] at hwrites
    exact Nat.lt_irrefl _ hwrites
  · by_cases hempty : ascii.isEmpty = true
    · left
      exact if_pos hempty
    · right
      refine ⟨ascii, if_neg hempty, ?_⟩
      intro d hd
      obtain ⟨hmem, hlt⟩ := List.mem_filter.1 hd
      exact ⟨hmem, of_decide_eq_true hlt⟩

/-- **A label that was encoded holds encoded characters.** -/
theorem isEncoded_punycode {cs : List Char} {c : Char} (hc : c ∈ cs) (hwide : ¬c.toNat < 0x80) :
    isEncoded (punycode cs) = true := by
  obtain ⟨start, digits, hout, hne, hdigits, hstart⟩ := exists_punycode hc hwide
  have hhyphen : ∀ d ∈ digits.reverse, (d != '-') = true := by
    intro d hd
    rw [bne_iff_ne]
    rintro rfl
    have hdigit := hdigits '-' (List.mem_reverse.1 hd)
    revert hdigit
    decide
  have hbehind : (punycode cs).reverse.takeWhile (· != '-') = digits.reverse := by
    rw [hout, List.reverse_append, List.takeWhile_append_of_pos hhyphen]
    rcases hstart with rfl | ⟨ascii, rfl, -⟩
    · exact List.append_nil _
    · rw [List.reverse_append]
      exact List.append_nil _
  unfold isEncoded
  simp only [hbehind, Bool.and_eq_true, Bool.not_eq_true', List.all_eq_true, List.mem_reverse]
  refine ⟨?_, hdigits⟩
  rw [← Bool.not_eq_true, List.isEmpty_iff, List.reverse_eq_nil_iff]
  exact hne

/-! ## 3. Labels -/

def isPlainMark (c : Char) : Bool := c == '-' || (punyValue? c).isSome

theorem isPlainMark_cases {c : Char} (h : isPlainMark c = true) :
    IsFolded c ∧ forbidden c = false ∧ c ≠ '.' := by
  have hascii : c.toNat < 0x80 := by
    rcases Bool.or_eq_true_iff.1 h with h | h
    · rw [beq_iff_eq.1 h]
      decide
    · unfold punyValue? at h
      split at h
      next hletter => exact Nat.lt_of_le_of_lt (UInt32.le_iff_toNat_le.1 hletter.2) (by decide)
      next =>
        split at h
        next hdigit => exact Nat.lt_of_le_of_lt (UInt32.le_iff_toNat_le.1 hdigit.2) (by decide)
        next => cases h
  have hall : ∀ n : Fin 128, isPlainMark (Char.ofNat n.val) = true →
      IsFolded (Char.ofNat n.val) ∧ forbidden (Char.ofNat n.val) = false ∧
        Char.ofNat n.val ≠ '.' := by
    decide +kernel
  exact forall_ascii (P := fun c => isPlainMark c = true →
    IsFolded c ∧ forbidden c = false ∧ c ≠ '.') hall hascii h

theorem label?_cases {cs label : List Char} (h : label? cs = some label) :
    (label = cs ∧ ∀ c ∈ cs, c.toNat < 0x80) ∨
      (label = "xn--".toList ++ punycode cs ∧ ∃ c ∈ cs, ¬c.toNat < 0x80) := by
  unfold label? at h
  split at h
  next hascii =>
    split at h
    next => cases h
    next =>
      have hall : ∀ c ∈ cs, c.toNat < 0x80 := fun c hc =>
        of_decide_eq_true (List.all_eq_true.1 hascii c hc)
      exact .inl ⟨(Option.some.inj h).symm, hall⟩
  next hwide =>
    split at h
    next =>
      rw [List.all_eq_true] at hwide
      refine .inr ⟨(Option.some.inj h).symm, ?_⟩
      apply Classical.byContradiction
      intro hnone
      apply hwide
      intro c hc
      apply decide_eq_true
      apply Classical.byContradiction
      intro hnot
      exact hnone ⟨c, hc, hnot⟩
    next => cases h

/-- The characters of Punycode are in ASCII, or mark the encoding. -/
theorem mem_punycode {cs : List Char} {c : Char} (hwide : ∃ d ∈ cs, ¬d.toNat < 0x80)
    (h : c ∈ punycode cs) : c ∈ cs ∧ c.toNat < 0x80 ∨ isPlainMark c = true := by
  obtain ⟨d, hd, hnot⟩ := hwide
  obtain ⟨start, digits, hout, -, hdigits, hstart⟩ := exists_punycode hd hnot
  have hmark : ∀ c ∈ digits, isPlainMark c = true := by
    intro c hc
    unfold isPlainMark
    rw [hdigits c hc, Bool.or_true]
  rw [hout] at h
  rcases List.mem_append.1 h with h | h
  · rcases hstart with rfl | ⟨ascii, rfl, hascii⟩
    · cases h
    · rcases List.mem_append.1 h with h | h
      · exact .inl (hascii c h)
      · rw [List.mem_singleton.1 h]
        exact .inr rfl
  · exact .inr (hmark c h)

/-- **The characters of a label** are in ASCII and were there, or mark the encoding. -/
theorem mem_label? {cs label : List Char} (h : label? cs = some label) {c : Char}
    (hc : c ∈ label) : c ∈ cs ∧ c.toNat < 0x80 ∨ isPlainMark c = true := by
  rcases label?_cases h with ⟨rfl, hall⟩ | ⟨rfl, hwide⟩
  · exact .inl ⟨hc, hall c hc⟩
  · rcases List.mem_append.1 hc with hc | hc
    · have hmarks : ∀ c ∈ "xn--".toList, isPlainMark c = true :=
        forall_mem_of_all (by decide +kernel)
      exact .inr (hmarks c hc)
    · exact mem_punycode hwide hc

/-- **A label in ASCII is a label as it is.** -/
theorem label?_of_label? {cs label : List Char} (h : label? cs = some label) :
    label? label = some label := by
  rcases label?_cases h with ⟨rfl, -⟩ | ⟨rfl, hwide⟩
  · exact h
  · have hascii : ("xn--".toList ++ punycode cs).all (fun c => c.toNat < 0x80) = true := by
      rw [List.all_eq_true]
      intro c hc
      rcases mem_label? h hc with ⟨-, hlt⟩ | hmark
      · exact decide_eq_true hlt
      · exact decide_eq_true (isPlainMark_cases hmark).1.1
    obtain ⟨d, hd, hnot⟩ := hwide
    have hmarked : ("xn--".toList ++ punycode cs).drop 4 = punycode cs := rfl
    unfold label?
    rw [if_pos hascii, hmarked, isEncoded_punycode hd hnot, Bool.not_true, Bool.and_false]
    rfl

/-! ## 4. Domain names -/

theorem unescape_of_plain {cs : List Char} (h : '%' ∉ cs) :
    Percent.unescape cs = Text.encode (String.ofList cs) := by
  induction cs with
  | nil => rfl
  | cons c cs ih =>
    have hc : c ≠ '%' := fun hc => h (hc ▸ List.mem_cons_self)
    rw [Percent.unescape_cons hc, encode_cons, Percent.charBytes_eq,
      ih fun hmem => h (List.mem_cons_of_mem _ hmem)]

def mappedChars (text : String) : List Char := (text.toList.filter (!ignored ·)).map mapChar

theorem domain?_eq_some_iff {bs : Bytes} {domain : List Char} :
    domain? bs = some domain ↔ ∃ text labels, Text.decode? bs = some text ∧
      (∀ c ∈ mappedChars text, forbidden c = false) ∧
      (Text.pieces (· == '.') (mappedChars text)).mapM label? = some labels ∧
      Text.glue '.' labels = domain := by
  have hread : domain? bs = (Text.decode? bs).bind fun text =>
      if (mappedChars text).any forbidden = true then none
      else ((Text.pieces (· == '.') (mappedChars text)).mapM label?).bind fun labels =>
        some (Text.glue '.' labels) := by
    unfold domain? mappedChars
    cases Text.decode? bs with
    | none => rfl
    | some text => rfl
  rw [hread, Option.bind_eq_some_iff]
  constructor
  · rintro ⟨text, htext, h⟩
    split at h
    next => cases h
    next hfree =>
      obtain ⟨labels, hlabels, hglue⟩ := Option.bind_eq_some_iff.1 h
      refine ⟨text, labels, htext, ?_, hlabels, Option.some.inj hglue⟩
      intro c hc
      rw [Bool.not_eq_true, List.any_eq_false] at hfree
      exact Bool.not_eq_true _ ▸ hfree c hc
  · rintro ⟨text, labels, htext, hfree, hlabels, rfl⟩
    refine ⟨text, htext, ?_⟩
    have hnone : (mappedChars text).any forbidden = false := by
      rw [List.any_eq_false]
      intro c hc
      rw [hfree c hc]
      decide
    rw [hnone, hlabels]
    rfl

/-- **A label in normal form:** it is a label as it stands, in domain characters without a dot. -/
structure IsLabel (l : List Char) : Prop where
  same : label? l = some l
  folded : ∀ c ∈ l, IsFolded c
  allowed : ∀ c ∈ l, forbidden c = false
  solid : '.' ∉ l

/-- A domain name has labels in normal form. -/
theorem isLabel_of_mapM {text : String} (hfree : ∀ c ∈ mappedChars text, forbidden c = false)
    {labels : List (List Char)}
    (hlabels : (Text.pieces (· == '.') (mappedChars text)).mapM label? = some labels) :
    ∀ l ∈ labels, IsLabel l := by
  intro l hl
  obtain ⟨piece, hpiece, hlabel⟩ := (mem_of_mapM hlabels l).1 hl
  have hchar : ∀ c ∈ l, IsFolded c ∧ forbidden c = false ∧ c ≠ '.' := by
    intro c hc
    rcases mem_label? hlabel hc with ⟨hmem, hascii⟩ | hmark
    · have hmapped : c ∈ mappedChars text := by
        rw [← Text.glue_pieces '.' (mappedChars text)]
        exact Text.mem_glue_of_mem hpiece hmem
      obtain ⟨d, -, rfl⟩ := List.mem_map.1 hmapped
      refine ⟨isFolded_mapChar hascii, hfree _ hmapped, ?_⟩
      intro hdot
      have hsep := Text.not_isSep_of_mem_pieces hpiece hmem
      rw [hdot] at hsep
      cases hsep
    · exact isPlainMark_cases hmark
  exact ⟨label?_of_label? hlabel, fun c hc => (hchar c hc).1, fun c hc => (hchar c hc).2.1,
    fun hdot => (hchar '.' hdot).2.2 rfl⟩

/-- **Domain characters** are folded and not forbidden. -/
theorem domain_chars {labels : List (List Char)} (h : ∀ l ∈ labels, IsLabel l) :
    ∀ c ∈ Text.glue '.' labels, IsFolded c ∧ forbidden c = false := by
  intro c hc
  rcases Text.mem_glue hc with rfl | ⟨l, hl, hc⟩
  · decide
  · exact ⟨(h l hl).folded c hc, (h l hl).allowed c hc⟩

/-- **Labels in normal form read as themselves.** -/
theorem domain?_of_isLabel {labels : List (List Char)} (hne : labels ≠ [])
    (h : ∀ l ∈ labels, IsLabel l) :
    domain? (Text.encode (String.ofList (Text.glue '.' labels))) = some (Text.glue '.' labels) := by
  have hchars := domain_chars h
  -- nothing is ignored, and mapping changes nothing
  have hmapped : mappedChars (String.ofList (Text.glue '.' labels)) = Text.glue '.' labels := by
    have hkept : (Text.glue '.' labels).filter (!ignored ·) = Text.glue '.' labels := by
      rw [List.filter_eq_self]
      intro c hc
      rw [not_ignored (hchars c hc).1.1]
      decide
    have hsame : (Text.glue '.' labels).map mapChar = (Text.glue '.' labels).map id := by
      apply List.map_congr_left
      intro c hc
      exact mapChar_of_isFolded (hchars c hc).1
    unfold mappedChars
    rw [String.toList_ofList, hkept, hsame, List.map_id]
  have hpieces : Text.pieces (· == '.') (Text.glue '.' labels) = labels :=
    Text.pieces_glue hne fun l hl => (h l hl).solid
  have hsame : labels.mapM label? = some labels := mapM_eq_self fun l hl => (h l hl).same
  rw [domain?_eq_some_iff]
  refine ⟨_, labels, Text.decode?_encode _, ?_, ?_, rfl⟩
  · rw [hmapped]
    exact fun c hc => (hchars c hc).2
  · rw [hmapped, hpieces]
    exact hsame

/-- **A domain name** has labels in normal form. -/
theorem exists_labels {bs : Bytes} {domain : List Char} (h : domain? bs = some domain) :
    ∃ labels, labels ≠ [] ∧ (∀ l ∈ labels, IsLabel l) ∧ Text.glue '.' labels = domain := by
  obtain ⟨text, labels, -, hfree, hlabels, hglue⟩ := domain?_eq_some_iff.1 h
  refine ⟨labels, ?_, isLabel_of_mapM hfree hlabels, hglue⟩
  rintro rfl
  obtain ⟨piece, hpiece⟩ := List.exists_mem_of_ne_nil _
    (Text.pieces_ne_nil (· == '.') (mappedChars text))
  obtain ⟨l, hl⟩ := exists_mapM_iff.1 ⟨_, hlabels⟩ piece hpiece
  exact List.not_mem_nil ((mem_of_mapM hlabels l).2 ⟨piece, hpiece, hl⟩)

end Intake.Uri.Host
