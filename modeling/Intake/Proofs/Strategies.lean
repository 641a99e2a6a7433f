import Intake.KeyPolicy
import Intake.Proofs.Collect

/-!
# Strategies — what the text of a policy says

A strategy is cut at `+`, and each part that is not blank must spell an attribute: by its name or an
alias, in capitals or not, with blanks around it.  A strategy makes a policy exactly if all such
parts do and there is one (`KeyPolicy.exists_parse_iff`); the policy has the attributes that are
named and nothing else of the text (`KeyPolicy.mem_attributes_iff`).  Written out in its own names
a policy reads as itself (`KeyPolicy.Made.parse_strategy`).
-/

namespace Intake

/-! ## 1. Names of attributes -/

namespace Attribute

def names : Attribute → List String
  | lastModified => ["lastModified", "last_modified"]
  | digest => ["digest", "hash"]
  | a => [a.text]

/-- **A part of a strategy spells an attribute:** without the blanks around it, it is one of the
    names but for the case of ASCII letters. -/
def SpelledBy (a : Attribute) (part : List Char) : Prop :=
  ∃ name ∈ a.names, (Text.trim part).map Char.toLower = name.toList.map Char.toLower

instance (a : Attribute) (part : List Char) : Decidable (a.SpelledBy part) :=
  inferInstanceAs (Decidable (∃ name ∈ a.names, _))

def Before (a b : Attribute) : Prop := all.idxOf a < all.idxOf b

instance (a b : Attribute) : Decidable (a.Before b) :=
  inferInstanceAs (Decidable (all.idxOf a < all.idxOf b))

theorem mem_all (a : Attribute) : a ∈ all := by cases a <;> decide

theorem pairwise_all : all.Pairwise Before := by decide

/-- Every name is read in lower case. -/
theorem ofNormal?_lowered (a : Attribute) :
    ∀ name ∈ a.names, ofNormal? (String.ofList (name.toList.map Char.toLower)) = some a := by
  cases a <;> decide

theorem ofNormal?_eq_some_iff {raw : String} {a : Attribute} :
    ofNormal? raw = some a ↔ ∃ name ∈ a.names, raw.toList = name.toList.map Char.toLower := by
  constructor
  · intro h
    unfold ofNormal? at h
    split_ifs at h with huri hname hpath hmodified hsize hdigest <;> cases h
    · exact ⟨"uri", by decide, by rw [huri]; decide⟩
    · exact ⟨"name", by decide, by rw [hname]; decide⟩
    · exact ⟨"path", by decide, by rw [hpath]; decide⟩
    · rcases hmodified with rfl | rfl
      · exact ⟨"lastModified", by decide, by decide⟩
      · exact ⟨"last_modified", by decide, by decide⟩
    · exact ⟨"size", by decide, by rw [hsize]; decide⟩
    · rcases hdigest with rfl | rfl
      · exact ⟨"digest", by decide, by decide⟩
      · exact ⟨"hash", by decide, by decide⟩
  · rintro ⟨name, hname, hraw⟩
    rw [← String.ofList_toList (s := raw), hraw]
    exact ofNormal?_lowered a name hname

/-- **Reading an attribute:** exactly what spells it. -/
theorem parse_eq_ok_iff {part : List Char} {a : Attribute} :
    parse (String.ofList part) = .ok a ↔ a.SpelledBy part := by
  have hnormal : (normal (String.ofList part)).toList = (Text.trim part).map Char.toLower := by
    unfold normal
    rw [String.toList_ofList, String.toList_ofList]
  unfold SpelledBy
  rw [← hnormal, ← ofNormal?_eq_some_iff]
  unfold parse
  cases ofNormal? (normal (String.ofList part)) with
  | none => exact ⟨nofun, nofun⟩
  | some b => rw [Except.ok.injEq, Option.some.injEq]

/-- What spells no attribute is named by the error, without its blanks and in lower case. -/
theorem parse_eq_error {raw : String} {cause : Error} (h : parse raw = .error cause) :
    cause = .config (.unknownAttribute (normal raw)) := by
  unfold parse at h
  split at h
  next => cases h
  next =>
    cases h
    rfl

/-- A part spells at most one attribute. -/
theorem spelledBy_unique {a b : Attribute} {part : List Char} (ha : a.SpelledBy part)
    (hb : b.SpelledBy part) : a = b := by
  rw [← parse_eq_ok_iff] at ha hb
  exact Except.ok.inj (ha.symm.trans hb)

theorem spelledBy_text (a : Attribute) : a.SpelledBy a.text.toList := by
  cases a <;> decide

end Attribute

/-! ## 2. What a strategy names -/

namespace KeyPolicy

def parts (strategy : String) : List (List Char) := Text.pieces (· == '+') strategy.toList

def Blank (part : List Char) : Prop := ∀ c ∈ part, Text.isBlank c = true

def Names (strategy : String) (a : Attribute) : Prop := ∃ part ∈ parts strategy, a.SpelledBy part

/-- **A legible strategy:** it has parts that are not blank, and all of these spell attributes. -/
def Legible (strategy : String) : Prop :=
  (∃ part ∈ parts strategy, ¬Blank part) ∧
    ∀ part ∈ parts strategy, ¬Blank part → ∃ a : Attribute, a.SpelledBy part

instance (strategy : String) (a : Attribute) : Decidable (Names strategy a) :=
  inferInstanceAs (Decidable (∃ part ∈ parts strategy, a.SpelledBy part))

theorem mem_partsOf_iff {strategy : String} {part : List Char} :
    part ∈ partsOf strategy ↔ part ∈ parts strategy ∧ ¬Blank part := by
  unfold partsOf parts Blank
  rw [List.mem_filter, ← Text.trim_eq_nil_iff]
  simp

/-- A blank part spells nothing. -/
theorem not_blank_of_spelledBy {a : Attribute} {part : List Char} (h : a.SpelledBy part) :
    ¬Blank part := by
  intro hblank
  obtain ⟨name, hname, hspelled⟩ := h
  rw [Text.trim_eq_nil_iff.2 hblank] at hspelled
  have hnames : ∀ a : Attribute, ∀ name ∈ a.names, name.toList.map Char.toLower ≠ [] := by
    intro a
    cases a <;> decide
  exact hnames a name hname hspelled.symm

/-! ## 3. Policies of some attributes -/

inductive Made (p : KeyPolicy) : Prop
  | new {chosen : List Attribute} (h : KeyPolicy.new chosen = .ok p)
  | parse {strategy : String} (h : KeyPolicy.parse strategy = .ok p)
  | byUri (h : p = .byUri)

theorem new_eq_ok_iff {chosen : List Attribute} {p : KeyPolicy} :
    new chosen = .ok p ↔ chosen ≠ [] ∧ p = ⟨Attribute.all.filter chosen.contains⟩ := by
  have hnil : Attribute.all.filter chosen.contains = [] ↔ chosen = [] := by
    rw [List.filter_eq_nil_iff, List.eq_nil_iff_forall_not_mem]
    constructor
    · intro h a ha
      exact h a a.mem_all (List.contains_iff_mem.2 ha)
    · intro h a _ ha
      exact h a (List.contains_iff_mem.1 ha)
  unfold new
  split
  next hempty => exact ⟨nofun, fun h => absurd (hnil.1 hempty) h.1⟩
  next attributes hsome =>
    have hne : chosen ≠ [] := fun h => hsome (hnil.2 h)
    rw [Except.ok.injEq, eq_comm]
    exact ⟨fun h => ⟨hne, h⟩, fun h => h.2⟩

theorem new_eq_error {chosen : List Attribute} {cause : Error} (h : new chosen = .error cause) :
    chosen = [] ∧ cause = .config .noAttribute := by
  constructor
  · by_contra hne
    cases h.symm.trans (new_eq_ok_iff.2 ⟨hne, rfl⟩)
  · unfold new at h
    split at h
    next =>
      cases h
      rfl
    next => cases h

/-- A policy has the attributes that were chosen. -/
theorem mem_new_iff {chosen : List Attribute} {p : KeyPolicy} (h : new chosen = .ok p)
    (a : Attribute) : a ∈ p.attributes ↔ a ∈ chosen := by
  obtain ⟨-, rfl⟩ := new_eq_ok_iff.1 h
  rw [List.mem_filter, List.contains_iff_mem]
  exact and_iff_right a.mem_all

/-- **Only what is chosen counts,** in any order and however often. -/
theorem new_congr {chosen chosen' : List Attribute} (h : ∀ a, a ∈ chosen ↔ a ∈ chosen') :
    new chosen = new chosen' := by
  have hsame : Attribute.all.filter chosen.contains = Attribute.all.filter chosen'.contains := by
    apply List.filter_congr
    intro a _
    rw [Bool.eq_iff_iff, List.contains_iff_mem, List.contains_iff_mem, h a]
  unfold new
  rw [hsame]

theorem pairwise_new {chosen : List Attribute} {p : KeyPolicy} (h : new chosen = .ok p) :
    p.attributes.Pairwise Attribute.Before := by
  obtain ⟨-, rfl⟩ := new_eq_ok_iff.1 h
  exact Attribute.pairwise_all.filter _

/-! ## 4. Policies of a strategy -/

def Spells (strategy : String) (chosen : List Attribute) : Prop :=
  (partsOf strategy).mapM (fun part => Attribute.parse (String.ofList part)) = .ok chosen

theorem exists_spells_iff (strategy : String) :
    (∃ chosen, Spells strategy chosen) ↔
      ∀ part ∈ parts strategy, ¬Blank part → ∃ a : Attribute, a.SpelledBy part := by
  unfold Spells
  simp only [mapM_eq_ok_iff, exists_mapM_iff, toOption_eq_some_iff, Attribute.parse_eq_ok_iff,
    mem_partsOf_iff, and_imp]

section

variable {strategy : String} {chosen : List Attribute} {p : KeyPolicy}

theorem Spells.mem_iff (h : Spells strategy chosen) (a : Attribute) :
    a ∈ chosen ↔ Names strategy a := by
  rw [mem_of_mapM (mapM_eq_ok_iff.1 h)]
  unfold Names
  simp only [toOption_eq_some_iff, Attribute.parse_eq_ok_iff, mem_partsOf_iff]
  constructor
  · rintro ⟨part, ⟨hpart, -⟩, hspelled⟩
    exact ⟨part, hpart, hspelled⟩
  · rintro ⟨part, hpart, hspelled⟩
    exact ⟨part, ⟨hpart, not_blank_of_spelledBy hspelled⟩, hspelled⟩

theorem Spells.ne_nil_iff (h : Spells strategy chosen) :
    chosen ≠ [] ↔ ∃ part ∈ parts strategy, ¬Blank part := by
  rw [← List.length_pos_iff, length_of_mapM h, List.length_pos_iff_exists_mem]
  simp only [mem_partsOf_iff]

/-- A policy is read from a strategy by way of the attributes that its parts spell. -/
theorem parse_eq_ok_iff :
    parse strategy = .ok p ↔ ∃ chosen, Spells strategy chosen ∧ new chosen = .ok p :=
  bind_eq_ok_iff

/-- **A policy has the attributes that its strategy names.** -/
theorem mem_attributes_iff (h : parse strategy = .ok p) (a : Attribute) :
    a ∈ p.attributes ↔ Names strategy a := by
  obtain ⟨chosen, hspells, hnew⟩ := parse_eq_ok_iff.1 h
  rw [mem_new_iff hnew, hspells.mem_iff]

/-- **A strategy makes a policy** exactly if it is legible. -/
theorem exists_parse_iff (strategy : String) :
    (∃ p, parse strategy = .ok p) ↔ Legible strategy := by
  unfold Legible
  rw [← exists_spells_iff]
  constructor
  · rintro ⟨p, h⟩
    obtain ⟨chosen, hspells, hnew⟩ := parse_eq_ok_iff.1 h
    exact ⟨hspells.ne_nil_iff.1 (new_eq_ok_iff.1 hnew).1, chosen, hspells⟩
  · rintro ⟨hpart, chosen, hspells⟩
    have hnew := new_eq_ok_iff.2 ⟨hspells.ne_nil_iff.2 hpart, rfl⟩
    exact ⟨_, parse_eq_ok_iff.2 ⟨chosen, hspells, hnew⟩⟩

/-- **Why a strategy is refused:** one of its parts is neither blank nor a name, and the error says
    which, or all of them are blank. -/
theorem parse_eq_error {cause : Error} (h : parse strategy = .error cause) :
    (∃ part ∈ parts strategy, ¬Blank part ∧ (∀ a : Attribute, ¬a.SpelledBy part) ∧
      cause = .config (.unknownAttribute (Attribute.normal (String.ofList part)))) ∨
    (∀ part ∈ parts strategy, Blank part) ∧ cause = .config .noAttribute := by
  unfold parse at h
  cases hread : (partsOf strategy).mapM (fun part => Attribute.parse (String.ofList part)) with
  | error first =>
    rw [hread] at h
    cases h
    left
    obtain ⟨part, hmem, hcause⟩ := exists_of_mapM_error hread
    obtain ⟨hpart, hblank⟩ := mem_partsOf_iff.1 hmem
    refine ⟨part, hpart, hblank, ?_, Attribute.parse_eq_error hcause⟩
    intro a hspelled
    rw [Attribute.parse_eq_ok_iff.2 hspelled] at hcause
    cases hcause
  | ok chosen =>
    rw [hread] at h
    right
    obtain ⟨hnil, hcause⟩ := new_eq_error h
    refine ⟨?_, hcause⟩
    have hspells : Spells strategy chosen := hread
    by_contra hpart
    push Not at hpart
    exact hspells.ne_nil_iff.2 hpart hnil

end

/-- **Two strategies make one policy** exactly if they name the same attributes. -/
theorem eq_iff_names {s t : String} {p q : KeyPolicy} (hp : parse s = .ok p)
    (hq : parse t = .ok q) : p = q ↔ ∀ a, Names s a ↔ Names t a := by
  constructor
  · rintro rfl a
    rw [← mem_attributes_iff hp, mem_attributes_iff hq]
  · intro h
    obtain ⟨chosen, hspells, hnew⟩ := parse_eq_ok_iff.1 hp
    obtain ⟨chosen', hspells', hnew'⟩ := parse_eq_ok_iff.1 hq
    have hsame : new chosen = new chosen' := new_congr fun a => by
      rw [hspells.mem_iff, hspells'.mem_iff, h a]
    rw [hnew, hnew'] at hsame
    exact Except.ok.inj hsame

/-! ## 5. The strategy of a policy -/

def strategy (p : KeyPolicy) : String := "+".intercalate (p.attributes.map Attribute.text)

/-- Every made policy is the policy of its own attributes. -/
theorem Made.new_attributes {p : KeyPolicy} (h : p.Made) : KeyPolicy.new p.attributes = .ok p := by
  have hnew {chosen : List Attribute} (h : KeyPolicy.new chosen = .ok p) :
      KeyPolicy.new p.attributes = .ok p := (new_congr (mem_new_iff h)).trans h
  cases h with
  | new h => exact hnew h
  | parse h =>
    obtain ⟨chosen, -, h⟩ := parse_eq_ok_iff.1 h
    exact hnew h
  | byUri h =>
    rw [h]
    rfl

theorem parts_strategy {p : KeyPolicy} (h : p.attributes ≠ []) :
    parts p.strategy = p.attributes.map fun a => a.text.toList := by
  have htext : p.strategy = (String.singleton '+').intercalate
      ((p.attributes.map fun a => a.text.toList).map String.ofList) := by
    rw [List.map_map]
    simp only [Function.comp_def, String.ofList_toList]
    rfl
  unfold parts
  rw [htext, Text.toList_intercalate]
  apply Text.pieces_glue
  · rwa [ne_eq, List.map_eq_nil_iff]
  · intro part hpart
    obtain ⟨a, -, rfl⟩ := List.mem_map.1 hpart
    cases a <;> decide

theorem mem_parts_strategy_iff {p : KeyPolicy} (h : p.attributes ≠ []) {part : List Char} :
    part ∈ parts p.strategy ↔ ∃ a ∈ p.attributes, a.text.toList = part := by
  rw [parts_strategy h, List.mem_map]

/-- A policy written out names its attributes. -/
theorem names_strategy_iff {p : KeyPolicy} (h : p.attributes ≠ []) (a : Attribute) :
    Names p.strategy a ↔ a ∈ p.attributes := by
  constructor
  · rintro ⟨part, hpart, hspelled⟩
    obtain ⟨b, hb, rfl⟩ := (mem_parts_strategy_iff h).1 hpart
    rwa [Attribute.spelledBy_unique hspelled b.spelledBy_text]
  · intro ha
    exact ⟨_, (mem_parts_strategy_iff h).2 ⟨a, ha, rfl⟩, a.spelledBy_text⟩

theorem legible_strategy {p : KeyPolicy} (h : p.attributes ≠ []) : Legible p.strategy := by
  constructor
  · obtain ⟨a, ha⟩ := List.exists_mem_of_ne_nil _ h
    exact ⟨_, (mem_parts_strategy_iff h).2 ⟨a, ha, rfl⟩,
      not_blank_of_spelledBy a.spelledBy_text⟩
  · intro part hpart _
    obtain ⟨a, -, rfl⟩ := (mem_parts_strategy_iff h).1 hpart
    exact ⟨a, a.spelledBy_text⟩

/-- **A policy reads as itself** from its own names. -/
theorem Made.parse_strategy {p : KeyPolicy} (h : p.Made) :
    KeyPolicy.parse p.strategy = .ok p := by
  have hnew := h.new_attributes
  have hne : p.attributes ≠ [] := (new_eq_ok_iff.1 hnew).1
  obtain ⟨q, hq⟩ := (exists_parse_iff p.strategy).2 (legible_strategy hne)
  obtain ⟨chosen, hspells, -⟩ := parse_eq_ok_iff.1 hq
  have hsame : KeyPolicy.new chosen = KeyPolicy.new p.attributes := new_congr fun a => by
    rw [hspells.mem_iff, names_strategy_iff hne]
  exact parse_eq_ok_iff.2 ⟨chosen, hspells, hsame.trans hnew⟩

/-- **Reading strategies is canonical.**  A strategy is refused exactly if one of its parts is
    neither blank nor a name of an attribute, or if all of them are blank.  A policy has the
    attributes that its strategy names, so that two strategies make one policy exactly if they name
    the same ones.  Every policy lists its attributes strictly in order, and reads as itself when
    they are written out. -/
theorem parse_canonical (s t : String) :
    ((∃ cause, parse s = .error cause) ↔
      (∃ part ∈ parts s, ¬Blank part ∧ ∀ a : Attribute, ¬a.SpelledBy part) ∨
        ∀ part ∈ parts s, Blank part) ∧
    (∀ p q, parse s = .ok p → parse t = .ok q →
      (∀ a, a ∈ p.attributes ↔ Names s a) ∧ (p = q ↔ ∀ a, Names s a ↔ Names t a)) ∧
    ∀ p : KeyPolicy, p.Made →
      p.attributes.Pairwise Attribute.Before ∧ parse p.strategy = .ok p := by
  refine ⟨?_, ?_, ?_⟩
  · have hrefused : (∃ cause, parse s = .error cause) ↔ ¬∃ p, parse s = .ok p := by
      cases parse s <;> simp
    rw [hrefused, exists_parse_iff]
    unfold Legible
    rw [not_and_or]
    push Not
    exact or_comm
  · intro p q hp hq
    exact ⟨mem_attributes_iff hp, eq_iff_names hp hq⟩
  · intro p h
    exact ⟨pairwise_new h.new_attributes, h.parse_strategy⟩

/-- Two strategies with blanks, capitals, an alias and a repetition between them. -/
theorem parse_canonical_alias :
    let s := " NAME + hash ++digest"
    let t := "digest+name"
    ∃ p q, parse s = .ok p ∧ parse t = .ok q ∧ p = q ∧
      p.attributes.Pairwise Attribute.Before ∧ parse p.strategy = .ok p := by
  intro s t
  have hs : parse " NAME + hash ++digest" = .ok ⟨[.name, .digest]⟩ := by rfl
  have ht : parse "digest+name" = .ok ⟨[.name, .digest]⟩ := by rfl
  obtain ⟨-, hsame, hmade⟩ := parse_canonical s t
  have hnames : ∀ a, Names s a ↔ Names t a := by
    intro a
    cases a <;> decide
  exact ⟨_, _, hs, ht, (hsame _ _ hs ht).2.2 hnames, hmade _ (.parse hs)⟩

end KeyPolicy

end Intake
