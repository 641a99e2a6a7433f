import Intake.KeyPolicy
import Intake.Proofs.Canonical
import Intake.Proofs.Collect
import Mathlib.Data.List.Basic

/-!
# Identity — what a key says about a file

A key holds the attributes that its policy selects, with their values, and nothing else.  Two keys
are the same text if their policies select the same attributes and the files agree on them; that
they are different texts otherwise rests on the compact text being read in one way.
-/

namespace Intake

/-! ## 1. Agreement -/

def Instant.sinceEpoch (t : Instant) : Int := t.seconds * 1000000000 + t.nanos

/-- Milliseconds are rounded down, also before 1970. -/
theorem Instant.millis_eq_fdiv (t : Instant) : t.millis = t.sinceEpoch.fdiv 1000000 := by
  have hsplit : t.sinceEpoch = t.nanos + t.seconds * 1000 * 1000000 := by
    unfold sinceEpoch
    omega
  rw [hsplit, Int.add_mul_fdiv_right _ _ (by decide), Int.fdiv_eq_ediv_of_nonneg _ (by decide),
    Int.add_comm]
  rfl

/-- **Two files agree on an attribute.**  Modification times agree in whole milliseconds. -/
def Attribute.Agrees (a : Attribute) (x y : Metadata) : Prop :=
  match a with
  | uri => x.uriText = y.uriText
  | name => x.name = y.name
  | path => x.path = y.path
  | lastModified => x.modified.sinceEpoch.fdiv 1000000 = y.modified.sinceEpoch.fdiv 1000000
  | size => x.size = y.size
  | digest => x.digest = y.digest

namespace Attribute

instance (x y : Metadata) : (a : Attribute) → Decidable (a.Agrees x y)
  | uri => inferInstanceAs (Decidable (x.uriText = y.uriText))
  | name => inferInstanceAs (Decidable (x.name = y.name))
  | path => inferInstanceAs (Decidable (x.path = y.path))
  | lastModified => inferInstanceAs (Decidable
      (x.modified.sinceEpoch.fdiv 1000000 = y.modified.sinceEpoch.fdiv 1000000))
  | size => inferInstanceAs (Decidable (x.size = y.size))
  | digest => inferInstanceAs (Decidable (x.digest = y.digest))

/-- Files agree on an attribute if it has the same value for both, or none. -/
theorem agrees_iff (a : Attribute) (x y : Metadata) : a.Agrees x y ↔ a.value? x = a.value? y := by
  cases a <;> simp only [Agrees, value?, Option.some.injEq, Json.str.injEq, Json.int.injEq,
    Int.natCast_inj, Instant.millis_eq_fdiv]
  exact (Option.map_injective fun _ _ => Json.str.inj).eq_iff.symm

theorem Agrees.symm {a : Attribute} {x y : Metadata} (h : a.Agrees x y) : a.Agrees y x :=
  (agrees_iff a y x).2 ((agrees_iff a x y).1 h).symm

/-- Files of one URI and one name agree on what does not tell versions apart. -/
theorem agrees_of_uri {a : Attribute} {x y : Metadata} (ha : a = .uri ∨ a = .name ∨ a = .path)
    (huri : x.uri = y.uri) (hname : x.name = y.name) : a.Agrees x y := by
  rcases ha with rfl | rfl | rfl
  · exact congrArg Uri.text huri
  · exact hname
  · show x.path = y.path
    unfold Metadata.path
    rw [huri]

theorem text_injective : Function.Injective text := by
  intro a b h
  cases a <;> cases b <;> first | rfl | exact absurd h (by decide)

theorem isScalar_of_value? {a : Attribute} {m : Metadata} {v : Json} (h : a.value? m = some v) :
    v.IsScalar := by
  cases a with
  | uri | name | path =>
    cases h
    exact .str _
  | lastModified | size =>
    cases h
    exact .int _
  | digest =>
    obtain ⟨text, -, rfl⟩ := Option.map_eq_some_iff.1 h
    exact .str text

/-- Only a digest may be missing. -/
theorem value?_eq_none_iff (a : Attribute) (m : Metadata) :
    a.value? m = none ↔ a = .digest ∧ m.digest = none := by
  cases a <;> simp [value?]

end Attribute

/-! ## 2. The fields of a key -/

namespace KeyPolicy

open Attribute

def Selects (p : KeyPolicy) (m : Metadata) (fields : List (String × Json)) : Prop :=
  ∀ n v, (n, v) ∈ fields ↔ ∃ a ∈ p.attributes, a.text = n ∧ a.value? m = some v

variable {p q : KeyPolicy} {x y : Metadata}

/-- **The fields of a key** are the selected attributes with their values. -/
theorem keyObject?_fields {j : Json} (h : p.keyObject? x = some j) :
    ∃ fields, j = .obj fields ∧ Json.Sorted fields ∧ p.Selects x fields := by
  obtain ⟨parts, hparts, rfl⟩ := Option.map_eq_some_iff.1 h
  have hmem : p.Selects x parts := by
    intro n v
    rw [mem_of_mapM hparts]
    simp only [Option.map_eq_some_iff, Prod.mk.injEq]
    grind
  -- one name, one attribute, one value
  have hnames : ∀ f ∈ parts, ∀ g ∈ parts, f.1 = g.1 → f = g := by
    rintro ⟨n, v⟩ hf ⟨n', w⟩ hg rfl
    obtain ⟨a, -, ha, hv⟩ := (hmem _ _).1 hf
    obtain ⟨b, -, hb, hw⟩ := (hmem _ _).1 hg
    cases text_injective (ha.trans hb.symm)
    rw [Option.some.inj (hv.symm.trans hw)]
  obtain ⟨fields, hobject, hsorted, hfields⟩ := Json.object_eq_of_names hnames
  exact ⟨fields, hobject, hsorted, fun n v => (hfields _).trans (hmem n v)⟩

theorem Selects.mem_iff {fields : List (String × Json)} (h : p.Selects x fields) (a : Attribute)
    (v : Json) : (a.text, v) ∈ fields ↔ a ∈ p.attributes ∧ a.value? x = some v := by
  rw [h]
  constructor
  · rintro ⟨b, hb, htext, hv⟩
    cases text_injective htext
    exact ⟨hb, hv⟩
  · rintro ⟨ha, hv⟩
    exact ⟨a, ha, rfl, hv⟩

/-- Fields that are selected from two files are selected from both alike. -/
theorem Selects.transfer {fields : List (String × Json)} (hf : p.Selects x fields)
    (hg : q.Selects y fields) {a : Attribute} {v : Json} (ha : a ∈ p.attributes)
    (hv : a.value? x = some v) : a ∈ q.attributes ∧ a.value? y = some v :=
  (hg.mem_iff a v).1 ((hf.mem_iff a v).2 ⟨ha, hv⟩)

theorem Selects.isScalar {fields : List (String × Json)} (h : p.Selects x fields) :
    ∀ f ∈ fields, f.2.IsScalar := by
  rintro ⟨n, v⟩ hf
  obtain ⟨a, -, -, hv⟩ := (h n v).1 hf
  exact isScalar_of_value? hv

/-- Where the same attributes are selected and files agree on them, the fields are the same. -/
theorem Selects.congr {fs gs : List (String × Json)} (hf : p.Selects x fs) (hg : q.Selects y gs)
    (hsame : ∀ a, a ∈ p.attributes ↔ a ∈ q.attributes)
    (hagree : ∀ a ∈ p.attributes, a.Agrees x y) (n : String) (v : Json) :
    (n, v) ∈ fs ↔ (n, v) ∈ gs := by
  rw [hf, hg]
  refine exists_congr fun a => ?_
  rw [← hsame a, and_congr_right_iff]
  intro ha
  rw [(agrees_iff a x y).1 (hagree a ha)]

/-- A key object is there if every selected attribute has a value. -/
theorem exists_keyObject?_iff (p : KeyPolicy) (m : Metadata) :
    (∃ j, p.keyObject? m = some j) ↔ ∀ a ∈ p.attributes, ∃ v, a.value? m = some v := by
  have hparts : (∃ j, p.keyObject? m = some j) ↔
      ∃ parts, p.attributes.mapM (fun a => (a.value? m).map fun v => (a.text, v)) = some parts := by
    simp only [keyObject?, Option.map_eq_some_iff]
    exact ⟨fun ⟨_, parts, h, _⟩ => ⟨parts, h⟩, fun ⟨parts, h⟩ => ⟨_, parts, h, rfl⟩⟩
  rw [hparts, exists_mapM_iff]
  simp only [Option.map_eq_some_iff]
  grind

/-! ## 3. Keys -/

theorem keyOf_eq_ok_iff (p : KeyPolicy) (m : Metadata) (k : PartitionKey) :
    p.keyOf m = .ok k ↔ ∃ j, p.keyObject? m = some j ∧ k = ⟨j.compact⟩ := by
  unfold keyOf
  split
  next j hj => simp [hj, eq_comm]
  next hj => simp [hj]

/-- **Which files have a key:** all but those without a digest that is selected. -/
theorem exists_keyOf_iff (p : KeyPolicy) (m : Metadata) :
    (∃ k, p.keyOf m = .ok k) ↔ (.digest ∈ p.attributes → m.digest ≠ none) := by
  have hobject : (∃ k, p.keyOf m = .ok k) ↔ ∃ j, p.keyObject? m = some j := by
    simp only [keyOf_eq_ok_iff]
    exact ⟨fun ⟨_, j, hj, _⟩ => ⟨j, hj⟩, fun ⟨j, hj⟩ => ⟨⟨j.compact⟩, j, hj, rfl⟩⟩
  rw [hobject, exists_keyObject?_iff]
  constructor
  · intro h hdigest hnone
    obtain ⟨v, hv⟩ := h .digest hdigest
    rw [(value?_eq_none_iff .digest m).2 ⟨rfl, hnone⟩] at hv
    cases hv
  · intro h a ha
    refine Option.ne_none_iff_exists'.1 fun hnone => ?_
    obtain ⟨rfl, hdigest⟩ := (value?_eq_none_iff a m).1 hnone
    exact h ha hdigest

theorem exists_value?_of_keyOf {k : PartitionKey} (hk : p.keyOf x = .ok k) {a : Attribute}
    (ha : a ∈ p.attributes) : ∃ v, a.value? x = some v := by
  obtain ⟨j, hj, -⟩ := (keyOf_eq_ok_iff p x k).1 hk
  exact (exists_keyObject?_iff p x).1 ⟨j, hj⟩ a ha

/-- A key is the text of the fields that are selected, in order. -/
theorem fields_of_keyOf {k : PartitionKey} (hk : p.keyOf x = .ok k) :
    ∃ fields, k = ⟨(Json.obj fields).compact⟩ ∧ Json.Sorted fields ∧ p.Selects x fields := by
  obtain ⟨j, hj, rfl⟩ := (keyOf_eq_ok_iff p x k).1 hk
  obtain ⟨fields, rfl, hsorted, hfields⟩ := keyObject?_fields hj
  exact ⟨fields, rfl, hsorted, hfields⟩

/-- Files that agree on everything that is selected have one key. -/
theorem keyOf_congr {k l : PartitionKey} (hk : p.keyOf x = .ok k) (hl : p.keyOf y = .ok l)
    (h : ∀ a ∈ p.attributes, a.Agrees x y) : k = l := by
  obtain ⟨fs, rfl, hfs, hf⟩ := fields_of_keyOf hk
  obtain ⟨gs, rfl, hgs, hg⟩ := fields_of_keyOf hl
  have hfields : fs = gs := hfs.ext hgs fun (n, v) => hf.congr hg (fun _ => Iff.rfl) h n v
  rw [hfields]

/-- **A key identifies the selected attributes:** two keys are the same text exactly if the
    policies select the same attributes and the files agree on each of them. -/
theorem keyOf_text_eq_iff {k l : PartitionKey} (hk : p.keyOf x = .ok k)
    (hl : q.keyOf y = .ok l) :
    k.text = l.text ↔ (∀ a, a ∈ p.attributes ↔ a ∈ q.attributes) ∧
      ∀ a ∈ p.attributes, a.Agrees x y := by
  obtain ⟨fs, rfl, hfs, hf⟩ := fields_of_keyOf hk
  obtain ⟨gs, rfl, hgs, hg⟩ := fields_of_keyOf hl
  change (Json.obj fs).compact = (Json.obj gs).compact ↔ _
  -- the text determines the fields
  rw [Json.compact_obj_inj hf.isScalar hg.isScalar]
  constructor
  · rintro rfl
    refine ⟨fun a => ⟨fun ha => ?_, fun ha => ?_⟩, fun a ha => ?_⟩
    · obtain ⟨v, hv⟩ := exists_value?_of_keyOf hk ha
      exact (hf.transfer hg ha hv).1
    · obtain ⟨v, hv⟩ := exists_value?_of_keyOf hl ha
      exact (hg.transfer hf ha hv).1
    · obtain ⟨v, hv⟩ := exists_value?_of_keyOf hk ha
      rw [agrees_iff, hv, (hf.transfer hg ha hv).2]
  · rintro ⟨hsame, hagree⟩
    exact hfs.ext hgs fun (n, v) => hf.congr hg hsame hagree n v

/-- Files with other URIs, whose times differ by less than a millisecond, have one key; another
    digest gives another key, whatever characters it is made of. -/
theorem keyOf_text_eq_iff_quoted :
    let p : KeyPolicy := ⟨[.name, .lastModified, .size, .digest]⟩
    let file (path : String) (nanos : Nat) (digest : String) : Metadata :=
      ⟨⟨"s3", none, path, none, none⟩, "é\"\\\u0001", 0xFFFFFFFFFFFFFFFF, ⟨-1, nanos⟩,
        some digest⟩
    ∃ k l n, p.keyOf (file "/a" 999500000 "d") = .ok k ∧
      p.keyOf (file "/b" 999999999 "d") = .ok l ∧
      p.keyOf (file "/a" 999500000 "d\",\"") = .ok n ∧ k.text = l.text ∧ k.text ≠ n.text := by
  intro p file
  obtain ⟨k, hk⟩ := (exists_keyOf_iff p (file "/a" 999500000 "d")).2 (by decide)
  obtain ⟨l, hl⟩ := (exists_keyOf_iff p (file "/b" 999999999 "d")).2 (by decide)
  obtain ⟨n, hn⟩ := (exists_keyOf_iff p (file "/a" 999500000 "d\",\"")).2 (by decide)
  refine ⟨k, l, n, hk, hl, hn, ?_, fun heq => ?_⟩
  · exact (keyOf_text_eq_iff hk hl).2 ⟨fun _ => Iff.rfl, by decide⟩
  · exact absurd ((keyOf_text_eq_iff hk hn).1 heq).2 (by decide)

end KeyPolicy

end Intake
