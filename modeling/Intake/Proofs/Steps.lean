import Intake.Proofs.Escaped

/-!
# Steps — paths that are already resolved

Reading a path resolves its dot steps and escapes what may not stand in it.  What comes out is
`Resolved`: reading it again changes nothing.  The URI of a local file is made without resolving;
its path is resolved exactly if the local path has no `..`.
-/

namespace Intake.Uri

/-! ## 1. Dot steps -/

/-- Only letters of ASCII have a lower case here. -/
theorem ascii_of_toLower {c : Char} (h : c.toLower.toNat < 0x80) : c.toNat < 0x80 := by
  unfold Char.toLower at h
  split at h
  next hupper => exact Nat.lt_of_le_of_lt (UInt32.le_iff_toNat_le.1 hupper.2) (by decide)
  next => exact h

theorem eq_of_toLower {d : Char} (hd : d ∈ ['.', '%', '2']) {c : Char} (h : c.toLower = d) :
    c = d := by
  have hall : ∀ d ∈ ['.', '%', '2'], d.toNat < 0x80 ∧
      ∀ n : Fin 128, (Char.ofNat n.val).toLower = d → Char.ofNat n.val = d :=
    forall_mem_of_all (by decide +kernel)
  obtain ⟨hascii, hsame⟩ := hall d hd
  exact forall_ascii (P := fun c => c.toLower = d → c = d) hsame
    (ascii_of_toLower (h ▸ hascii)) h

theorem eq_of_toLower_e {c : Char} (h : c.toLower = 'e') : c = 'e' ∨ c = 'E' := by
  have hall : ∀ n : Fin 128, (Char.ofNat n.val).toLower = 'e' →
      Char.ofNat n.val = 'e' ∨ Char.ofNat n.val = 'E' := by
    decide +kernel
  have hascii : c.toLower.toNat < 0x80 := by
    rw [h]
    decide
  exact forall_ascii (P := fun c => c.toLower = 'e' → c = 'e' ∨ c = 'E') hall
    (ascii_of_toLower hascii) h

def dotSpellings : List (List Char) := [['.'], ['%', '2', 'e']]

theorem isSingleDot_iff_lower {s : List Char} :
    isSingleDot s = true ↔ ∃ d ∈ dotSpellings, s.map Char.toLower = d := by
  unfold isSingleDot dotSpellings
  simp only [List.contains_cons, List.contains_nil, Bool.or_false, Bool.or_eq_true, beq_iff_eq,
    ← String.toList_inj, String.toList_ofList, List.mem_cons, List.not_mem_nil, or_false,
    exists_eq_or_imp, exists_eq_left]
  rfl

theorem isDoubleDot_iff_lower {s : List Char} :
    isDoubleDot s = true ↔
      ∃ d ∈ dotSpellings, ∃ e ∈ dotSpellings, s.map Char.toLower = d ++ e := by
  unfold isDoubleDot dotSpellings
  simp only [List.contains_cons, List.contains_nil, Bool.or_false, Bool.or_eq_true, beq_iff_eq,
    ← String.toList_inj, String.toList_ofList, List.mem_cons, List.not_mem_nil, or_false,
    exists_eq_or_imp, exists_eq_left, or_assoc]
  rfl

open Percent in
/-- What has a dot in front reads as one. -/
theorem unescape_of_lower {cs d low : List Char} (hd : d ∈ dotSpellings)
    (h : cs.map Char.toLower = d ++ low) :
    ∃ rest, unescape cs = 0x2E :: unescape rest ∧ rest.map Char.toLower = low := by
  simp only [dotSpellings, List.mem_cons, List.not_mem_nil, or_false] at hd
  rcases hd with rfl | rfl
  · obtain ⟨c, rest, rfl, hc, hrest⟩ := List.map_eq_cons_iff.1 h
    rw [eq_of_toLower (by decide) hc]
    exact ⟨rest, rfl, hrest⟩
  · obtain ⟨c, cs, rfl, hc, h⟩ := List.map_eq_cons_iff.1 h
    obtain ⟨d, cs, rfl, hd, h⟩ := List.map_eq_cons_iff.1 h
    obtain ⟨e, rest, rfl, he, hrest⟩ := List.map_eq_cons_iff.1 h
    rw [eq_of_toLower (by decide) hc, eq_of_toLower (by decide) hd]
    refine ⟨rest, ?_, hrest⟩
    rcases eq_of_toLower_e he with rfl | rfl <;> rfl

/-- The digits of the code of a dot. -/
theorem digits_of_dot {a b : Char} {x y : Nat} (ha : Text.Ranges.hexDigit? a = some x)
    (hb : Text.Ranges.hexDigit? b = some y) (h : UInt8.ofNat (16 * x + y) = 0x2E) :
    a = '2' ∧ b.toLower = 'e' := by
  have hall : ∀ n : Fin 128, ∀ k ∈ Text.Ranges.hexDigit? (Char.ofNat n.val),
      (k = 2 → Char.ofNat n.val = '2') ∧ (k = 14 → (Char.ofNat n.val).toLower = 'e') := by
    decide +kernel
  have hdigit : ∀ {c k}, Text.Ranges.hexDigit? c = some k →
      (k = 2 → c = '2') ∧ (k = 14 → c.toLower = 'e') := fun hc =>
    forall_ascii (P := fun c => ∀ k ∈ Text.Ranges.hexDigit? c,
      (k = 2 → c = '2') ∧ (k = 14 → c.toLower = 'e')) hall
      (Percent.lt_of_isCode (Percent.isCode_of_hexDigit? hc)) _ hc
  have hx := Percent.hexDigit?_lt ha
  have hy := Percent.hexDigit?_lt hb
  have hvalue := congrArg UInt8.toNat h
  rw [UInt8.toNat_ofNat', Nat.mod_eq_of_lt (by omega)] at hvalue
  have hvalue' : 16 * x + y = 46 := hvalue
  exact ⟨(hdigit ha).1 (by omega), (hdigit hb).2 (by omega)⟩

/-- Only the dot has a byte 0x2E in front. -/
theorem eq_dot_of_charBytes {c : Char} {bs cs : Bytes}
    (h : Percent.charBytes c ++ bs = 0x2E :: cs) :
    c = '.' ∧ bs = cs := by
  rw [Percent.charBytes_eq] at h
  by_cases hascii : c.toNat < 0x80
  · rw [utf8EncodeChar_ascii hascii] at h
    obtain ⟨hbyte, hrest⟩ := List.cons.inj h
    have hvalue := congrArg UInt8.toNat hbyte
    rw [UInt8.toNat_ofNat', Nat.mod_eq_of_lt (by omega)] at hvalue
    have hsame : Char.ofNat c.toNat = c := Char.ofNat_toNat c
    rw [hvalue] at hsame
    exact ⟨hsame.symm, hrest⟩
  · cases hbytes : String.utf8EncodeChar c with
    | nil => exact absurd hbytes String.utf8EncodeChar_ne_nil
    | cons b tail =>
      rw [hbytes] at h
      have hlarge := le_of_mem_utf8EncodeChar hascii (hbytes ▸ List.mem_cons_self)
      rw [(List.cons.inj h).1] at hlarge
      exact absurd hlarge (by decide)

open Percent in
/-- What reads as a dot in front has one. -/
theorem lower_of_unescape {cs : List Char} {bs : Bytes} (h : unescape cs = 0x2E :: bs) :
    ∃ d ∈ dotSpellings, ∃ rest, unescape rest = bs ∧
      cs.map Char.toLower = d ++ rest.map Char.toLower := by
  cases cs with
  | nil => cases h
  | cons c cs =>
    rcases unescape_cases c cs with ⟨a, b, rest, x, y, rfl, rfl, ha, hb, hread⟩ | hread
    · rw [hread] at h
      obtain ⟨hbyte, hrest⟩ := List.cons.inj h
      obtain ⟨rfl, he⟩ := digits_of_dot ha hb hbyte
      refine ⟨['%', '2', 'e'], by decide, rest, hrest, ?_⟩
      rw [← he]
      rfl
    · rw [hread] at h
      obtain ⟨rfl, hrest⟩ := eq_dot_of_charBytes h
      exact ⟨['.'], by decide, cs, hrest, rfl⟩

theorem unescape_eq_nil {cs : List Char} (h : Percent.unescape cs = []) : cs = [] := by
  cases cs with
  | nil => rfl
  | cons c cs =>
    rcases Percent.unescape_cases c cs with ⟨a, b, rest, x, y, -, -, -, -, hread⟩ | hread
    · rw [hread] at h
      cases h
    · rw [hread, Percent.charBytes_eq] at h
      exact absurd (List.append_eq_nil_iff.1 h).1 String.utf8EncodeChar_ne_nil

/-- **A step goes up** if it reads as two dots, however it is spelled. -/
theorem isDoubleDot_iff {s : List Char} :
    isDoubleDot s = true ↔ Percent.unescape s = Path.dotDot := by
  rw [isDoubleDot_iff_lower]
  constructor
  · rintro ⟨d, hd, e, he, h⟩
    obtain ⟨rest, hfirst, hrest⟩ := unescape_of_lower hd h
    rw [← List.append_nil e] at hrest
    obtain ⟨tail, hsecond, htail⟩ := unescape_of_lower he hrest
    rw [hfirst, hsecond, List.map_eq_nil_iff.1 htail]
    rfl
  · intro h
    obtain ⟨d, hd, rest, hrest, hfirst⟩ := lower_of_unescape h
    obtain ⟨e, he, tail, htail, hsecond⟩ := lower_of_unescape hrest
    refine ⟨d, hd, e, he, ?_⟩
    rw [hfirst, hsecond, unescape_eq_nil htail, List.map_nil, List.append_nil]

/-- **A step stays** if it reads as one dot. -/
theorem isSingleDot_iff {s : List Char} :
    isSingleDot s = true ↔ Percent.unescape s = Path.dot := by
  rw [isSingleDot_iff_lower]
  constructor
  · rintro ⟨d, hd, h⟩
    rw [← List.append_nil d] at h
    obtain ⟨rest, hfirst, hrest⟩ := unescape_of_lower hd h
    rw [hfirst, List.map_eq_nil_iff.1 hrest]
    rfl
  · intro h
    obtain ⟨d, hd, rest, hrest, hfirst⟩ := lower_of_unescape h
    refine ⟨d, hd, ?_⟩
    rw [hfirst, unescape_eq_nil hrest, List.map_nil, List.append_nil]

/-! ## 2. Plain steps -/

/-- **A plain step** stands in a path as it is, and leads on. -/
structure IsPlain (k : Kind) (s : List Char) : Prop where
  stands : ∀ c ∈ s, Percent.stands pathByte c = true
  solid : ∀ c ∈ s, k.isSlash c = false
  notUp : isDoubleDot s = false
  notHere : isSingleDot s = false

theorem isPlain_nil (k : Kind) : IsPlain k [] := ⟨nofun, nofun, by decide, by decide⟩

/-- No scheme takes more for slashes than `file`. -/
theorem isSlash_of_file {c : Char} (h : Kind.file.isSlash c = false) (k : Kind) :
    k.isSlash c = false := by
  cases k with
  | file => exact h
  | special => exact h
  | other =>
    unfold Kind.isSlash at h ⊢
    rw [(Bool.or_eq_false_iff.1 h).1]
    exact Bool.and_false _

/-- No code has a slash in it. -/
theorem isSlash_of_isCode {k : Kind} {c : Char} (h : Percent.isCode c = true) :
    k.isSlash c = false := by
  have hall : ∀ n : Fin 128, Percent.isCode (Char.ofNat n.val) = true →
      Kind.file.isSlash (Char.ofNat n.val) = false := by
    decide +kernel
  have hfile := forall_ascii
    (P := fun c => Percent.isCode c = true → Kind.file.isSlash c = false) hall
    (Percent.lt_of_isCode h) h
  exact isSlash_of_file hfile k

/-- **Escaping makes a step plain,** unless it is a dot step. -/
theorem isPlain_escapeChars {k : Kind} {s : List Char} (hsolid : ∀ c ∈ s, k.isSlash c = false)
    (hup : isDoubleDot s = false) (hhere : isSingleDot s = false) :
    IsPlain k (Percent.escapeChars pathByte s) := by
  have hread := Percent.unescape_escapeChars Percent.keepsCodes_pathByte s
  refine ⟨fun c => Percent.stands_of_mem_escapeChars Percent.keepsCodes_pathByte, ?_, ?_, ?_⟩
  · intro c hc
    rcases Percent.mem_escapeChars hc with hcode | ⟨hmem, -⟩
    · exact isSlash_of_isCode hcode
    · exact hsolid c hmem
  · rw [← Bool.not_eq_true, isDoubleDot_iff, hread, ← isDoubleDot_iff, hup]
    decide
  · rw [← Bool.not_eq_true, isSingleDot_iff, hread, ← isSingleDot_iff, hhere]
    decide

theorem isDrive_iff {s : List Char} :
    isDrive s = true ↔ ∃ letter mark, s = [letter, mark] ∧ letter.isAlpha = true ∧
      (mark = ':' ∨ mark = '|') := by
  unfold isDrive
  constructor
  · intro h
    split at h
    next letter mark =>
      obtain ⟨hletter, hmark⟩ := Bool.and_eq_true_iff.1 h
      exact ⟨letter, mark, rfl, hletter, by simpa using hmark⟩
    next => cases h
  · rintro ⟨letter, mark, rfl, hletter, hmark⟩
    simpa [hletter] using hmark

/-- **A drive with its colon is plain.** -/
theorem isPlain_withColon {s : List Char} (h : isDrive s = true) (k : Kind) :
    IsPlain k (s.take 1 ++ [':']) := by
  have hall : ∀ n : Fin 128, (Char.ofNat n.val).isAlpha = true →
      Percent.stands pathByte (Char.ofNat n.val) = true ∧
      Kind.file.isSlash (Char.ofNat n.val) = false ∧
      isDoubleDot [Char.ofNat n.val, ':'] = false ∧
        isSingleDot [Char.ofNat n.val, ':'] = false := by
    decide +kernel
  obtain ⟨letter, mark, rfl, hletter, -⟩ := isDrive_iff.1 h
  obtain ⟨hstands, hsolid, hup, hhere⟩ := forall_ascii
    (P := fun c => c.isAlpha = true → Percent.stands pathByte c = true ∧
      Kind.file.isSlash c = false ∧ isDoubleDot [c, ':'] = false ∧ isSingleDot [c, ':'] = false)
    hall (lt_of_isAlpha hletter) hletter
  have hsteps : ∀ c ∈ [letter, ':'], Percent.stands pathByte c = true ∧
      Kind.file.isSlash c = false := by
    intro c hc
    rcases List.mem_cons.1 hc with rfl | hc
    · exact ⟨hstands, hsolid⟩
    · rw [List.mem_singleton.1 hc]
      decide
  exact ⟨fun c hc => (hsteps c hc).1, fun c hc => isSlash_of_file (hsteps c hc).2 k, hup, hhere⟩

/-- **What is kept of a step is plain,** unless it is a dot step. -/
theorem isPlain_keep {k : Kind} (done : List (List Char)) {s : List Char}
    (hsolid : ∀ c ∈ s, k.isSlash c = false) (hup : isDoubleDot s = false)
    (hhere : isSingleDot s = false) : IsPlain k (keep k done s) := by
  unfold keep
  split
  next hroot => exact isPlain_withColon (Bool.and_eq_true_iff.1 hroot).2 k
  next => exact isPlain_escapeChars hsolid hup hhere

/-- A plain step is kept as it is, unless it is a drive at the root of a local path. -/
theorem IsPlain.keep_eq {k : Kind} {done : List (List Char)} {s : List Char} (h : IsPlain k s)
    (hroot : k = .file → done = [] → isDrive s = false) : keep k done s = s := by
  unfold keep
  rw [if_neg]
  · exact Percent.escapeChars_of_stands h.stands
  · intro hdrive
    obtain ⟨hempty, hs⟩ := Bool.and_eq_true_iff.1 hdrive
    obtain ⟨hfile, hdone⟩ := Bool.and_eq_true_iff.1 hempty
    rw [hroot (beq_iff_eq.1 hfile) (List.isEmpty_iff.1 hdone)] at hs
    cases hs

theorem resolve_cons {k : Kind} {s : List Char} (h : IsPlain k s)
    (done steps : List (List Char)) :
    resolve k done (s :: steps) = resolve k (keep k done s :: done) steps := by
  cases steps with
  | nil => simp only [resolve, h.notUp, h.notHere, Bool.false_eq_true, if_false]
  | cons t rest => simp only [resolve, h.notUp, h.notHere, Bool.false_eq_true, if_false]

/-- Plain steps are kept, behind a first one that is no drive at the root. -/
theorem resolve_of_plain {k : Kind} {steps : List (List Char)} (h : ∀ s ∈ steps, IsPlain k s)
    {done : List (List Char)}
    (hroot : k = .file → done = [] → ∀ s ∈ steps.head?, isDrive s = false) :
    resolve k done steps = done.reverse ++ steps := by
  induction steps generalizing done with
  | nil => rw [resolve, List.append_nil]
  | cons s rest ih =>
    have hs := h s List.mem_cons_self
    have hkeep : keep k done s = s := hs.keep_eq fun hk hdone => hroot hk hdone s rfl
    rw [resolve_cons hs, hkeep, ih (fun u hu => h u (List.mem_cons_of_mem _ hu)) (fun _ hdone => by
      cases hdone), List.reverse_cons, List.append_assoc]
    rfl

/-- A drive at the root gets its colon, and what is behind it is kept. -/
theorem resolve_of_drive {s : List Char} (hdrive : isDrive s = true) {steps : List (List Char)}
    (h : ∀ t ∈ s :: steps, IsPlain .file t) :
    resolve .file [] (s :: steps) = (s.take 1 ++ [':']) :: steps := by
  have hkeep : keep .file [] s = s.take 1 ++ [':'] := if_pos hdrive
  rw [resolve_cons (h s List.mem_cons_self), hkeep,
    resolve_of_plain (fun t ht => h t (List.mem_cons_of_mem _ ht)) (fun _ hdone => by cases hdone)]
  rfl

theorem mem_of_mem_shorten {done : List (List Char)} {s : List Char} (h : s ∈ shorten done) :
    s ∈ done := by
  unfold shorten at h
  split at h
  next => exact h
  next =>
    split at h
    next => exact h
    next => exact List.mem_cons_of_mem _ h

/-- **Resolving leaves plain steps.** -/
theorem isPlain_of_mem_resolve {k : Kind} {steps done : List (List Char)}
    (hsteps : ∀ s ∈ steps, ∀ c ∈ s, k.isSlash c = false) (hdone : ∀ s ∈ done, IsPlain k s) :
    ∀ s ∈ resolve k done steps, IsPlain k s := by
  have hshorten : ∀ {done}, (∀ s ∈ done, IsPlain k s) → ∀ s ∈ shorten done, IsPlain k s :=
    fun h s hs => h s (mem_of_mem_shorten hs)
  have hcons : ∀ {t done}, IsPlain k t → (∀ s ∈ done, IsPlain k s) →
      ∀ s ∈ t :: done, IsPlain k s := by
    intro t done ht h s hs
    rcases List.mem_cons.1 hs with rfl | hs
    · exact ht
    · exact h s hs
  -- a step that is neither dot is kept
  have hkept : ∀ {t} done, (∀ c ∈ t, k.isSlash c = false) → ¬isDoubleDot t = true →
      ¬isSingleDot t = true → IsPlain k (keep k done t) := by
    intro t done ht hup hhere
    exact isPlain_keep done ht (Bool.not_eq_true _ ▸ hup) (Bool.not_eq_true _ ▸ hhere)
  induction done, steps using resolve.induct k with
  | case1 done =>
    rw [resolve]
    exact fun s hs => hdone s (List.mem_reverse.1 hs)
  | case2 done t hup =>
    simp only [resolve, hup, if_true]
    exact fun s hs => hcons (isPlain_nil k) (hshorten hdone) s (List.mem_reverse.1 hs)
  | case3 done t hup hhere =>
    simp only [resolve, hup, hhere, if_true]
    exact fun s hs => hcons (isPlain_nil k) hdone s (List.mem_reverse.1 hs)
  | case4 done t hup hhere =>
    have ht := hkept done (hsteps t List.mem_cons_self) hup hhere
    simp only [resolve, hup, hhere]
    exact fun s hs => hcons ht hdone s (List.mem_reverse.1 hs)
  | case5 done t rest hne hup ih =>
    rw [resolve.eq_3 _ _ _ _ hne, if_pos hup]
    exact ih (fun s hs => hsteps s (List.mem_cons_of_mem _ hs)) (hshorten hdone)
  | case6 done t rest hne hup hhere ih =>
    rw [resolve.eq_3 _ _ _ _ hne, if_neg hup, if_pos hhere]
    exact ih (fun s hs => hsteps s (List.mem_cons_of_mem _ hs)) hdone
  | case7 done t rest hne hup hhere ih =>
    rw [resolve.eq_3 _ _ _ _ hne, if_neg hup, if_neg hhere]
    exact ih (fun s hs => hsteps s (List.mem_cons_of_mem _ hs))
      (hcons (hkept done (hsteps t List.mem_cons_self) hup hhere) hdone)

/-! ## 3. Resolved paths -/

/-- **A resolved path,** given as what stands behind its first slash, has plain steps.  That of a
    local file does not start with a second slash. -/
structure Resolved (k : Kind) (path : List Char) : Prop where
  plain : ∀ s ∈ Text.pieces (· == '/') path, IsPlain k s
  root : k = .file → path.head? ≠ some '/'

theorem Resolved.slash_or {k : Kind} {path : List Char} (h : Resolved k path) {c : Char}
    (hc : c ∈ path) : c = '/' ∨ Percent.stands pathByte c = true ∧ k.isSlash c = false := by
  rw [← Text.glue_pieces '/' path] at hc
  rcases Text.mem_glue hc with hc | ⟨s, hs, hc⟩
  · exact .inl hc
  · exact .inr ⟨(h.plain s hs).stands c hc, (h.plain s hs).solid c hc⟩

theorem Resolved.stands {k : Kind} {path : List Char} (h : Resolved k path) {c : Char}
    (hc : c ∈ path) : Percent.stands pathByte c = true := by
  rcases h.slash_or hc with rfl | ⟨hstands, -⟩
  · decide
  · exact hstands

/-- The slashes of a resolved path are its own. -/
theorem Resolved.pieces_eq {k : Kind} {path : List Char} (h : Resolved k path) :
    Text.pieces k.isSlash path = Text.pieces (· == '/') path := by
  apply Text.pieces_congr
  intro c hc
  rcases h.slash_or hc with rfl | ⟨-, hsolid⟩
  · rfl
  · rw [hsolid]
    exact ((Bool.or_eq_false_iff.1 hsolid).1).symm

def startsWithDrive (path : List Char) : Bool := (Text.pieces (· == '/') path).head?.any isDrive

theorem isDrive_of_mem_head? {path : List Char} (h : startsWithDrive path = false)
    {s : List Char} (hs : s ∈ (Text.pieces (· == '/') path).head?) : isDrive s = false := by
  unfold startsWithDrive at h
  rw [Option.mem_def.1 hs] at h
  exact h

/-- The steps of a resolved path stay, without a drive at the root of a local path. -/
theorem Resolved.stepsOf_eq {k : Kind} {path : List Char} (h : Resolved k path)
    (hdrive : k = .file → startsWithDrive path = false) :
    stepsOf k path = Text.pieces (· == '/') path := by
  unfold stepsOf
  rw [h.pieces_eq, resolve_of_plain h.plain fun hk _ s hs => isDrive_of_mem_head? (hdrive hk) hs]
  rfl

/-- Behind a second slash nothing is at the root. -/
theorem Resolved.stepsOf_slash {path : List Char} (h : Resolved .file path) :
    stepsOf .file ('/' :: path) = [] :: Text.pieces (· == '/') path := by
  have hpieces :
      Text.pieces Kind.file.isSlash ('/' :: path) = [] :: Text.pieces (· == '/') path := by
    rw [← h.pieces_eq]
    rfl
  unfold stepsOf
  rw [hpieces, resolve_of_plain]
  · rfl
  · intro s hs
    rcases List.mem_cons.1 hs with rfl | hs
    · exact isPlain_nil .file
    · exact h.plain s hs
  · intro _ _ s hs
    rw [← Option.some.inj hs]
    rfl

/-- A drive in front of a resolved path is at the root. -/
theorem Resolved.isDrive_stepsOf {path : List Char} (h : Resolved .file path)
    (hdrive : startsWithDrive path = true) :
    (stepsOf .file path).head?.any isDrive = true := by
  have hplain := h.plain
  unfold startsWithDrive at hdrive
  unfold stepsOf
  rw [h.pieces_eq]
  cases hpieces : Text.pieces (· == '/') path with
  | nil =>
    rw [hpieces] at hdrive
    cases hdrive
  | cons s steps =>
    rw [hpieces] at hdrive hplain
    have hs : isDrive s = true := hdrive
    obtain ⟨letter, mark, rfl, hletter, -⟩ := isDrive_iff.1 hs
    rw [resolve_of_drive hs hplain]
    exact isDrive_iff.2 ⟨letter, ':', rfl, hletter, .inl rfl⟩

theorem hierarchy_of_ne {k : Kind} (h : k ≠ .file) (cs : List Char) :
    hierarchy k cs = String.ofList ('/' :: Text.glue '/' (stepsOf k cs)) := by
  cases k with
  | file => exact absurd rfl h
  | special => rfl
  | other => rfl

theorem hierarchy_file (cs : List Char) :
    hierarchy .file cs =
      String.ofList ('/' :: (Text.glue '/' (stepsOf .file cs)).dropWhile (· == '/')) := rfl

theorem Resolved.dropWhile_eq {path : List Char} (h : Resolved .file path) :
    path.dropWhile (· == '/') = path := List.dropWhile_beq_eq_self_of_head?_ne (h.root rfl)

/-- **A resolved path reads as itself,** unless it is a local path with a drive at its root. -/
theorem Resolved.hierarchy_eq {k : Kind} {path : List Char} (h : Resolved k path)
    (hdrive : k = .file → startsWithDrive path = false) :
    hierarchy k path = String.ofList ('/' :: path) := by
  have hsteps : Text.glue '/' (stepsOf k path) = path := by
    rw [h.stepsOf_eq hdrive]
    exact Text.glue_pieces '/' path
  by_cases hfile : k = .file
  · subst hfile
    rw [hierarchy_file, hsteps, h.dropWhile_eq]
  · rw [hierarchy_of_ne hfile, hsteps]

/-- **A resolved local path reads as itself** behind a second slash. -/
theorem Resolved.hierarchy_slash {path : List Char} (h : Resolved .file path) :
    hierarchy .file ('/' :: path) = String.ofList ('/' :: path) := by
  have hglue : Text.glue '/' ([] :: Text.pieces (· == '/') path) = '/' :: path := by
    have hpath := Text.glue_pieces '/' path
    cases hpieces : Text.pieces (· == '/') path with
    | nil => exact absurd hpieces (Text.pieces_ne_nil _ _)
    | cons s steps =>
      rw [hpieces] at hpath
      exact congrArg ('/' :: ·) hpath
  rw [hierarchy_file, h.stepsOf_slash, hglue, List.dropWhile_cons_of_pos (by rfl), h.dropWhile_eq]

theorem mem_pieces_of_dropWhile {path : List Char} {s : List Char}
    (h : s ∈ Text.pieces (· == '/') (path.dropWhile (· == '/'))) :
    s ∈ Text.pieces (· == '/') path := by
  induction path with
  | nil => exact h
  | cons c path ih =>
    by_cases hc : c = '/'
    · subst hc
      rw [List.dropWhile_cons_of_pos (by decide)] at h
      exact List.mem_cons_of_mem _ (ih h)
    · rw [List.dropWhile_cons_of_neg (by simpa using hc)] at h
      exact h

/-- **Reading a path resolves it.** -/
theorem exists_hierarchy (k : Kind) (cs : List Char) :
    ∃ path, hierarchy k cs = String.ofList ('/' :: path) ∧ Resolved k path := by
  let steps := stepsOf k cs
  have hsteps : ∀ s ∈ steps, IsPlain k s :=
    isPlain_of_mem_resolve (fun s hs c hc => Text.not_isSep_of_mem_pieces hs hc) nofun
  have hplain : ∀ s ∈ Text.pieces (· == '/') (Text.glue '/' steps), IsPlain k s := by
    by_cases hnil : steps = []
    · rw [hnil]
      intro s hs
      rw [List.mem_singleton.1 hs]
      exact isPlain_nil k
    · rw [Text.pieces_glue hnil]
      · exact hsteps
      · intro s hs hmem
        have hslash := (hsteps s hs).solid '/' hmem
        cases hslash
  by_cases hfile : k = .file
  · refine ⟨(Text.glue '/' steps).dropWhile (· == '/'), ?_, ?_, ?_⟩
    · simp only [steps, hfile]
      rfl
    · exact fun s hs => hplain s (mem_pieces_of_dropWhile hs)
    · intro _ hhead
      have hnot := List.head?_dropWhile_not (· == '/') (Text.glue '/' steps)
      rw [hhead] at hnot
      cases hnot
  · exact ⟨Text.glue '/' steps, hierarchy_of_ne hfile cs, hplain, fun h => absurd h hfile⟩

/-- The mark in front of two slashes is a step that stays. -/
theorem hierarchy_mark (k : Kind) (path : List Char) :
    hierarchy k ('.' :: '/' :: path) = hierarchy k path := by
  have hmark : stepsOf k ('.' :: '/' :: path) = stepsOf k path := by
    have hpieces : Text.pieces k.isSlash ('.' :: '/' :: path) =
        ['.'] :: Text.pieces k.isSlash path := by
      have hdot : ∀ c ∈ ['.'], k.isSlash c = false := by
        cases k <;> exact forall_mem_of_all (by decide)
      exact Text.pieces_append_cons hdot (by cases k <;> rfl) path
    unfold stepsOf
    rw [hpieces]
    cases hrest : Text.pieces k.isSlash path with
    | nil => exact absurd hrest (Text.pieces_ne_nil _ _)
    | cons s rest =>
      rw [resolve.eq_3 k [] ['.'] (s :: rest) (fun h => by cases h)]
      rfl
  unfold hierarchy
  rw [hmark]

/-! ## 4. Local paths -/

def stepOf (part : Path.Part) : List Char := Percent.escape segmentByte part.bytes

theorem pathOfParts_eq (parts : List Path.Part) :
    pathOfParts parts = '/' :: Text.glue '/' (parts.map stepOf) := by
  cases parts with
  | nil => rfl
  | cons part rest =>
    change (part :: rest).flatMap (fun part => '/' :: stepOf part) = _
    induction rest generalizing part with
    | nil => rw [List.flatMap_cons, List.flatMap_nil, List.append_nil]; rfl
    | cons next rest ih =>
      rw [List.flatMap_cons, ih]
      rfl

theorem unescape_stepOf (part : Path.Part) : Percent.unescape (stepOf part) = part.bytes :=
  Percent.unescape_escape (by decide) part.bytes

theorem stands_of_mem_stepOf {part : Path.Part} {c : Char} (h : c ∈ stepOf part) :
    Percent.stands pathByte c = true ∧ Kind.file.isSlash c = false := by
  have hall : ∀ n : Fin 128, Percent.stands segmentByte (Char.ofNat n.val) = true →
      Percent.stands pathByte (Char.ofNat n.val) = true ∧
        Kind.file.isSlash (Char.ofNat n.val) = false := by
    decide +kernel
  rcases Percent.mem_escape h with hcode | hstands
  · exact ⟨Percent.keepsCodes_pathByte c hcode, isSlash_of_isCode hcode⟩
  · have hascii : c.toNat < 0x80 := of_decide_eq_true (Bool.and_eq_true_iff.1 hstands).1
    exact forall_ascii (P := fun c => Percent.stands segmentByte c = true →
      Percent.stands pathByte c = true ∧ Kind.file.isSlash c = false) hall hascii hstands

/-- **The steps of a local path** are plain, except those that read as dots. -/
theorem isPlain_stepOf_iff {part : Path.Part} :
    IsPlain .file (stepOf part) ↔ part.bytes ≠ Path.dotDot ∧ part.bytes ≠ Path.dot := by
  have hup : isDoubleDot (stepOf part) = false ↔ part.bytes ≠ Path.dotDot := by
    rw [← Bool.not_eq_true, isDoubleDot_iff, unescape_stepOf]
  have hhere : isSingleDot (stepOf part) = false ↔ part.bytes ≠ Path.dot := by
    rw [← Bool.not_eq_true, isSingleDot_iff, unescape_stepOf]
  constructor
  · intro h
    exact ⟨hup.1 h.notUp, hhere.1 h.notHere⟩
  · rintro ⟨h, h'⟩
    exact ⟨fun c hc => (stands_of_mem_stepOf hc).1, fun c hc => (stands_of_mem_stepOf hc).2,
      hup.2 h, hhere.2 h'⟩

def IsBelowRoot (part : Path.Part) : Prop :=
  part = .up ∨ ∃ piece, part = .name piece ∧ piece ≠ [] ∧ piece ≠ Path.dot ∧ piece ≠ Path.dotDot

theorem isBelowRoot_of_partOfPiece {piece : Bytes} {part : Path.Part}
    (h : Path.partOfPiece piece = some part) : IsBelowRoot part := by
  unfold Path.partOfPiece at h
  split at h
  next => cases h
  next hblank =>
    rw [not_or] at hblank
    split at h
    next =>
      cases h
      exact .inl rfl
    next hup =>
      cases h
      exact .inr ⟨piece, rfl, hblank.1, hblank.2, hup⟩

theorem root_ne_of_partOfPiece {piece : Bytes} {part : Path.Part}
    (h : part ∈ Path.partOfPiece piece) : part ≠ .root := by
  rcases isBelowRoot_of_partOfPiece h with rfl | ⟨_, rfl, -⟩ <;> nofun

theorem root_notMem_relativeParts (ps : List Bytes) :
    Path.Part.root ∉ Path.relativeParts ps := by
  intro hroot
  cases ps with
  | nil => cases hroot
  | cons piece rest =>
    rw [Path.relativeParts] at hroot
    rcases List.mem_append.1 hroot with hroot | hroot
    · split at hroot
      · cases List.mem_singleton.1 hroot
      · exact absurd rfl (root_ne_of_partOfPiece (Option.mem_toList.1 hroot))
    · obtain ⟨piece, -, hpiece⟩ := List.mem_filterMap.1 hroot
      exact absurd rfl (root_ne_of_partOfPiece hpiece)

/-- The root stands in front of absolute paths only. -/
theorem isAbsolute_of_parts {p : Path} {parts : List Path.Part} (h : p.parts = .root :: parts) :
    p.isAbsolute = true := by
  unfold Path.parts at h
  split at h
  next habsolute => exact habsolute
  next =>
    have hroot : Path.Part.root ∈ Path.relativeParts p.pieces := h ▸ List.mem_cons_self
    exact absurd hroot (root_notMem_relativeParts p.pieces)

theorem parts_below_root {p : Path} {parts : List Path.Part} (h : p.parts = .root :: parts) :
    ∀ part ∈ parts, IsBelowRoot part := by
  rw [Path.parts, if_pos (isAbsolute_of_parts h)] at h
  rw [← (List.cons.inj h).2]
  intro part hpart
  obtain ⟨piece, -, hpiece⟩ := List.mem_filterMap.1 hpart
  exact isBelowRoot_of_partOfPiece hpiece

theorem isPlain_stepOf_iff_ne_up {part : Path.Part} (h : IsBelowRoot part) :
    IsPlain .file (stepOf part) ↔ part ≠ .up := by
  rw [isPlain_stepOf_iff]
  rcases h with rfl | ⟨piece, rfl, -, hdot, hup⟩
  · exact ⟨fun h => absurd rfl h.1, fun h => absurd rfl h⟩
  · exact ⟨fun _ => nofun, fun _ => ⟨hup, hdot⟩⟩

/-- A part below the root has a step that is not empty. -/
theorem stepOf_ne_nil {part : Path.Part} (h : IsBelowRoot part) : stepOf part ≠ [] := by
  intro hnil
  have hbytes := unescape_stepOf part
  rw [hnil] at hbytes
  rcases h with rfl | ⟨piece, rfl, hne, -⟩
  · cases hbytes
  · exact hne hbytes.symm

/-- **The path of a local file** is escaped, and resolved exactly if no step goes up. -/
theorem exists_pathOfParts {parts : List Path.Part} (h : ∀ part ∈ parts, IsBelowRoot part) :
    ∃ path, pathOfParts parts = '/' :: path ∧
      (∀ c ∈ path, Percent.stands pathByte c = true) ∧
      (Resolved .file path ↔ Path.Part.up ∉ parts) := by
  have hstands : ∀ c ∈ Text.glue '/' (parts.map stepOf), Percent.stands pathByte c = true := by
    intro c hc
    rcases Text.mem_glue hc with rfl | ⟨s, hs, hc⟩
    · decide
    · obtain ⟨part, -, rfl⟩ := List.mem_map.1 hs
      exact (stands_of_mem_stepOf hc).1
  refine ⟨Text.glue '/' (parts.map stepOf), pathOfParts_eq parts, hstands, ?_⟩
  cases parts with
  | nil =>
    -- the root has one step, an empty one
    constructor
    · exact fun _ => nofun
    · intro _
      refine ⟨?_, fun _ => nofun⟩
      intro s hs
      rw [List.mem_singleton.1 hs]
      exact isPlain_nil .file
  | cons part rest =>
    -- no step holds a slash, so the path is cut into the steps it was made of
    have hpieces : Text.pieces (· == '/') (Text.glue '/' ((part :: rest).map stepOf)) =
        (part :: rest).map stepOf := by
      apply Text.pieces_glue (by simp)
      intro s hs hslash
      obtain ⟨q, -, rfl⟩ := List.mem_map.1 hs
      have hsolid := (stands_of_mem_stepOf hslash).2
      cases hsolid
    constructor
    · intro hresolved hup
      have hplain : IsPlain .file (stepOf .up) := by
        apply hresolved.plain
        rw [hpieces]
        exact List.mem_map_of_mem hup
      exact (isPlain_stepOf_iff_ne_up (.inl rfl)).1 hplain rfl
    · intro hup
      refine ⟨?_, ?_⟩
      · intro s hs
        rw [hpieces] at hs
        obtain ⟨q, hq, rfl⟩ := List.mem_map.1 hs
        apply (isPlain_stepOf_iff_ne_up (h q hq)).2
        rintro rfl
        exact hup hq
      · intro _ hhead
        have hne := stepOf_ne_nil (h part List.mem_cons_self)
        rw [List.map_cons, Text.head?_glue hne] at hhead
        have hsolid := (stands_of_mem_stepOf (List.mem_of_head? hhead)).2
        cases hsolid

end Intake.Uri
