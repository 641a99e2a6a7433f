import Intake.Json.Reader
import Intake.Json.Writer
import Mathlib.Data.List.Induction
import Mathlib.Data.List.Perm.Basic
import Mathlib.Data.String.Basic

/-!
# Canonical — one text for each object

A string ends at its first quote that is not escaped, and a number at the first character that is
no digit.  So the compact text of an object of strings and integers determines its fields, one
after the other.  `Json.object` lists fields by name: which fields it is given determines the
list, not their order.
-/

namespace Intake.Json

/-! ## 1. Strings -/

/-- The last two of the four digits of a control character's escape. -/
theorem hex4?_lowerHex {n : Nat} (h : n < 32) :
    hex4? '0' '0' (lowerHex (n / 16)) (lowerHex (n % 16)) = some n := by
  revert n
  decide

/-- **Three ways to write a character:** by one letter, by its number, or as it is. -/
theorem escapeChar_cases (c : Char) :
    (∃ e, e ≠ 'u' ∧ unescape? e = some c ∧ escapeChar c = ['\\', e]) ∨
    (c.toNat < 32 ∧ escapeChar c =
      ['\\', 'u', '0', '0', lowerHex (c.toNat / 16), lowerHex (c.toNat % 16)]) ∨
    (c ≠ '"' ∧ c ≠ '\\' ∧ ¬ c.toNat < 32 ∧ escapeChar c = [c]) := by
  have named {n : Nat} (h : c.toNat = n) : c = Char.ofNat n := by rw [← h, Char.ofNat_toNat]
  unfold escapeChar
  split
  · exact .inl ⟨'"', by decide, by simp_all [unescape?], rfl⟩
  split
  · exact .inl ⟨'\\', by decide, by simp_all [unescape?], rfl⟩
  split
  next h => exact .inl ⟨'b', by decide, by rw [named h]; rfl, rfl⟩
  split
  next h => exact .inl ⟨'t', by decide, by rw [named h]; rfl, rfl⟩
  split
  next h => exact .inl ⟨'n', by decide, by rw [named h]; rfl, rfl⟩
  split
  next h => exact .inl ⟨'f', by decide, by rw [named h]; rfl, rfl⟩
  split
  next h => exact .inl ⟨'r', by decide, by rw [named h]; rfl, rfl⟩
  split
  next h => exact .inr (.inl ⟨h, rfl⟩)
  next hq hb _ _ _ _ _ h => exact .inr (.inr ⟨hq, hb, h, rfl⟩)

/-- **One character** is read back from what is written for it. -/
theorem readStr_escapeChar (c : Char) (rest : List Char) :
    readStr (escapeChar c ++ rest) = (readStr rest).map fun (cs, tail) => (c :: cs, tail) := by
  obtain ⟨e, he, hc, hw⟩ | ⟨h, hw⟩ | ⟨hq, hb, h, hw⟩ := escapeChar_cases c <;> rw [hw]
  · cases hr : readStr rest <;> simp [readStr, he, hc, hr]
  · have hlow : ¬ 0xD800 ≤ c.toNat := by omega
    have hhigh : ¬ 0xDC00 ≤ c.toNat := by omega
    cases hr : readStr rest <;> simp [readStr, hex4?_lowerHex h, hlow, hhigh, hr]
  · cases hr : readStr rest <;> simp [readStr, hb, h, hr]

/-- **A string** is read back, with what stands behind its closing quote. -/
theorem readStr_escaped (cs rest : List Char) :
    readStr (cs.flatMap escapeChar ++ '"' :: rest) = some (cs, rest) := by
  induction cs with
  | nil => simp [readStr]
  | cons c cs ih => rw [List.flatMap_cons, List.append_assoc, readStr_escapeChar, ih]; rfl

theorem writeStr_append_inj {cs ds r t : List Char} :
    writeStr cs ++ r = writeStr ds ++ t ↔ cs = ds ∧ r = t := by
  constructor
  · intro h
    have h' : cs.flatMap escapeChar ++ '"' :: r = ds.flatMap escapeChar ++ '"' :: t := by
      simpa [writeStr] using h
    have hread := congrArg readStr h'
    rw [readStr_escaped, readStr_escaped] at hread
    simpa using hread
  · rintro ⟨rfl, rfl⟩
    rfl

/-! ## 2. Numbers -/

/-- What may stand behind a number: nothing that could be read as one more digit. -/
def Stops (rest : List Char) : Prop := ∀ c ∈ rest.head?, c.isDigit = false

theorem takeWhile_toDigits (n : Nat) {rest : List Char} (h : Stops rest) :
    (Nat.toDigits 10 n ++ rest).takeWhile Char.isDigit = Nat.toDigits 10 n := by
  have hdigits : ∀ c ∈ Nat.toDigits 10 n, c.isDigit = true := fun c hc =>
    Nat.isDigit_of_mem_toDigits (by decide) (by decide) hc
  rw [List.takeWhile_append_of_pos hdigits]
  cases rest with
  | nil => simp
  | cons c cs => simp [h c rfl]

theorem toDigits_append_inj {m n : Nat} {r t : List Char} (hr : Stops r) (ht : Stops t)
    (h : Nat.toDigits 10 m ++ r = Nat.toDigits 10 n ++ t) : m = n ∧ r = t := by
  have hd : Nat.toDigits 10 m = Nat.toDigits 10 n := by
    rw [← takeWhile_toDigits m hr, h, takeWhile_toDigits n ht]
  refine ⟨?_, List.append_cancel_left (hd ▸ h)⟩
  rw [← Nat.ofDigitChars_toDigits (by decide : 1 < 10) (by decide) (n := m), hd]
  exact Nat.ofDigitChars_toDigits (by decide) (by decide)

/-- A number starts with a digit, so it is not taken for a negative one. -/
theorem toDigits_append_ne (n : Nat) (r t : List Char) {c : Char} (hc : c.isDigit = false) :
    Nat.toDigits 10 n ++ r ≠ c :: t := by
  intro h
  cases hd : Nat.toDigits 10 n with
  | nil => exact Nat.toDigits_ne_nil hd
  | cons d ds =>
    have hdigit : d.isDigit = true :=
      Nat.isDigit_of_mem_toDigits (by decide) (by decide) (hd ▸ List.mem_cons_self)
    rw [hd, List.cons_append, List.cons.injEq] at h
    rw [h.1, hc] at hdigit
    exact Bool.false_ne_true hdigit

theorem writeInt_append_inj {m n : Int} {r t : List Char} (hr : Stops r) (ht : Stops t)
    (h : writeInt m ++ r = writeInt n ++ t) : m = n ∧ r = t := by
  cases m <;> cases n <;> simp only [writeInt, List.cons_append, List.cons.injEq, true_and] at h
  case ofNat.ofNat m n =>
    obtain ⟨rfl, rfl⟩ := toDigits_append_inj hr ht h
    exact ⟨rfl, rfl⟩
  case ofNat.negSucc m n => exact absurd h (toDigits_append_ne m r _ rfl)
  case negSucc.ofNat m n => exact absurd h.symm (toDigits_append_ne n t _ rfl)
  case negSucc.negSucc m n =>
    obtain ⟨hmn, rfl⟩ := toDigits_append_inj hr ht h
    exact ⟨congrArg Int.negSucc (Nat.succ.inj hmn), rfl⟩

theorem writeInt_append_ne (n : Int) (r t : List Char) {c : Char} (hc : c.isDigit = false)
    (hm : c ≠ '-') : writeInt n ++ r ≠ c :: t := by
  cases n with
  | ofNat n => exact toDigits_append_ne n r t hc
  | negSucc n => exact fun h => hm (List.cons.inj h).1.symm

/-! ## 3. Objects of scalars -/

inductive IsScalar : Json → Prop where
  | str (text : String) : IsScalar (.str text)
  | int (value : Int) : IsScalar (.int value)

theorem write_append_inj {v w : Json} {r t : List Char} (hv : v.IsScalar) (hw : w.IsScalar)
    (hr : Stops r) (ht : Stops t) (h : write v ++ r = write w ++ t) : v = w ∧ r = t := by
  cases hv <;> cases hw <;> simp only [write] at h
  case int.int m n =>
    obtain ⟨rfl, rfl⟩ := writeInt_append_inj hr ht h
    exact ⟨rfl, rfl⟩
  case int.str n s => exact absurd h (writeInt_append_ne n r _ rfl (by decide))
  case str.int s n => exact absurd h.symm (writeInt_append_ne n t _ rfl (by decide))
  case str.str a b =>
    obtain ⟨hab, rfl⟩ := writeStr_append_inj.1 h
    exact ⟨congrArg Json.str (String.toList_inj.1 hab), rfl⟩

/-- Behind a value comes the comma of the next field or the closing brace. -/
theorem stops_fields (fields : List (String × Json)) : Stops (writeFields fields ++ ['\x7d']) := by
  cases fields with
  | nil => simp [Stops, writeFields]
  | cons f rest => simp [Stops, writeFields]

theorem writeFields_inj {fs gs : List (String × Json)} (hf : ∀ f ∈ fs, f.2.IsScalar)
    (hg : ∀ g ∈ gs, g.2.IsScalar)
    (h : writeFields fs ++ ['\x7d'] = writeFields gs ++ ['\x7d']) : fs = gs := by
  induction fs generalizing gs with
  | nil =>
    cases gs with
    | nil => rfl
    | cons g gs => simp [writeFields] at h
  | cons f fs ih =>
    cases gs with
    | nil => simp [writeFields] at h
    | cons g gs =>
      simp only [writeFields, List.cons_append, List.append_assoc, List.cons.injEq,
        true_and] at h
      obtain ⟨hname, h⟩ := writeStr_append_inj.1 h
      obtain ⟨hvalue, h⟩ := write_append_inj (hf f (by simp)) (hg g (by simp))
        (stops_fields fs) (stops_fields gs) (List.cons.inj h).2
      have hfg : f = g := Prod.ext (String.toList_inj.1 hname) hvalue
      rw [hfg, ih (fun f hm => hf f (by simp [hm])) (fun g hm => hg g (by simp [hm])) h]

/-- An object that is not empty is its fields with a brace in place of the first comma. -/
theorem write_obj_cons (f : String × Json) (fields : List (String × Json)) :
    ',' :: (write (.obj (f :: fields))).tail = writeFields (f :: fields) ++ ['\x7d'] := by
  simp [write, writeFields]

/-- **Objects of scalars have different texts.** -/
theorem compact_obj_inj {fs gs : List (String × Json)} (hf : ∀ f ∈ fs, f.2.IsScalar)
    (hg : ∀ g ∈ gs, g.2.IsScalar) : compact (.obj fs) = compact (.obj gs) ↔ fs = gs := by
  constructor
  · intro h
    have hw : write (.obj fs) = write (.obj gs) := String.ofList_injective h
    cases fs with
    | nil => cases gs <;> simp_all [write, writeStr]
    | cons f fs =>
      cases gs with
      | nil => simp [write, writeStr] at hw
      | cons g gs => exact writeFields_inj hf hg (by rw [← write_obj_cons, hw, write_obj_cons])
  · rintro rfl
    rfl

/-! ## 4. The order of fields -/

def Sorted (fields : List (String × Json)) : Prop := fields.Pairwise fun f g => f.1 < g.1

theorem mem_insertField {fields : List (String × Json)} (h : Sorted fields) (name : String)
    (value : Json) (f : String × Json) :
    f ∈ insertField name value fields ↔ f = (name, value) ∨ f ∈ fields ∧ f.1 ≠ name := by
  induction fields with
  | nil => simp [insertField]
  | cons g rest ih =>
    obtain ⟨n, v⟩ := g
    obtain ⟨hfirst, hrest⟩ := List.pairwise_cons.1 h
    unfold insertField
    split
    · next hlt =>
      -- every name of the list comes later
      have hother : f ∈ (n, v) :: rest → f.1 ≠ name := by
        rintro hf rfl
        rcases List.mem_cons.1 hf with rfl | hf
        · exact lt_irrefl _ hlt
        · exact lt_asymm hlt (hfirst f hf)
      rw [List.mem_cons, and_iff_left_of_imp hother]
    · split
      · next hname =>
        subst hname
        have hother : f ∈ rest → f.1 ≠ name := fun hf heq => lt_irrefl name (heq ▸ hfirst f hf)
        grind
      · next hname =>
        rw [List.mem_cons, ih hrest, List.mem_cons]
        have hother : f = (n, v) → f.1 ≠ name := fun hf heq => hname (by rw [← heq, hf])
        grind

theorem sorted_insertField {fields : List (String × Json)} (h : Sorted fields) (name : String)
    (value : Json) : Sorted (insertField name value fields) := by
  induction fields with
  | nil => exact List.pairwise_singleton ..
  | cons g rest ih =>
    obtain ⟨n, v⟩ := g
    obtain ⟨hfirst, hrest⟩ := List.pairwise_cons.1 h
    unfold insertField
    split
    · next hlt =>
      refine List.pairwise_cons.2 ⟨fun f hf => ?_, h⟩
      rcases List.mem_cons.1 hf with rfl | hf
      · exact hlt
      · exact lt_trans hlt (hfirst f hf)
    · next hle =>
      split
      · next hname =>
        exact List.pairwise_cons.2 ⟨fun f hf => hname ▸ hfirst f hf, hrest⟩
      · next hname =>
        refine List.pairwise_cons.2 ⟨fun f hf => ?_, ih hrest⟩
        rcases (mem_insertField hrest name value f).1 hf with rfl | ⟨hf, -⟩
        · exact lt_of_le_of_ne (not_lt.1 hle) (Ne.symm hname)
        · exact hfirst f hf

/-- **Fields in order are determined by which fields there are.** -/
theorem Sorted.ext {fs gs : List (String × Json)} (hf : Sorted fs) (hg : Sorted gs)
    (h : ∀ f, f ∈ fs ↔ f ∈ gs) : fs = gs := by
  have nodup {fields : List (String × Json)} (hs : Sorted fields) : fields.Nodup := by
    refine List.Pairwise.imp ?_ hs
    rintro f g hlt rfl
    exact lt_irrefl _ hlt
  have hperm : fs.Perm gs := (List.perm_ext_iff_of_nodup (nodup hf) (nodup hg)).2 h
  exact hperm.eq_of_pairwise (fun f g _ _ hlt hgt => absurd hgt (lt_asymm hlt)) hf hg

/-- **An object holds the fields it is made of,** if no two of them share a name. -/
theorem object_eq_of_names {fields : List (String × Json)}
    (h : ∀ f ∈ fields, ∀ g ∈ fields, f.1 = g.1 → f = g) :
    ∃ sorted, object fields = .obj sorted ∧ Sorted sorted ∧ ∀ f, f ∈ sorted ↔ f ∈ fields := by
  refine ⟨_, rfl, ?_⟩
  induction fields using List.reverseRecOn with
  | nil => exact ⟨List.Pairwise.nil, fun f => Iff.rfl⟩
  | append_singleton fields g ih =>
    obtain ⟨hsorted, hmem⟩ := ih fun f hf g hg => h f (by simp [hf]) g (by simp [hg])
    rw [List.foldl_append]
    refine ⟨sorted_insertField hsorted g.1 g.2, fun f => ?_⟩
    -- a field that shares the name of the last one is the last one
    have hsame : f ∈ fields → f.1 = g.1 → f = g := fun hf => h f (by simp [hf]) g (by simp)
    change f ∈ insertField g.1 g.2 _ ↔ _
    rw [mem_insertField hsorted, hmem]
    grind

end Intake.Json
