import Intake.Files
import Intake.Proofs.Escaped

/-!
# Ancestry — places above a path, and names below it

The path above another one has its parts but for the last one (`Path.parts_parent?`), so all
ancestors are above it (`Path.isAbove_of_mem_ancestors`), and a name that is joined to a path is
directly below it (`Path.parts_join`).  Names stay names when they are read lossily: neither a slash
nor a step up comes in (`Path.IsName.decodeLossy`).
-/

namespace Intake

def IsAbove (above place : Place) : Prop := above <+: place ∧ above ≠ place

instance (above place : Place) : Decidable (IsAbove above place) :=
  inferInstanceAs (Decidable (_ ∧ _))

theorem isAbove_append_singleton (above : Place) (part : Path.Part) :
    IsAbove above (above ++ [part]) := by
  refine ⟨List.prefix_append above [part], fun heq => ?_⟩
  have hlength := congrArg List.length heq
  rw [List.length_append, List.length_singleton] at hlength
  omega

theorem IsAbove.trans {a b c : Place} (h : IsAbove a b) (h' : IsAbove b c) : IsAbove a c := by
  refine ⟨h.1.trans h'.1, ?_⟩
  rintro rfl
  exact h.2 (h.1.eq_of_length (Nat.le_antisymm h.1.length_le h'.1.length_le))

theorem IsAbove.asymm {a b : Place} (h : IsAbove a b) : ¬IsAbove b a := fun h' =>
  (h.trans h').2 rfl

/-- What is above a place is the place directly above it, or above that one. -/
theorem isAbove_append_singleton_iff {a above : Place} {part : Path.Part} :
    IsAbove a (above ++ [part]) ↔ a <+: above := by
  rw [IsAbove, List.prefix_concat_iff]
  constructor
  · rintro ⟨heq | hstart, hne⟩
    · exact absurd heq hne
    · exact hstart
  · intro hstart
    refine ⟨.inr hstart, ?_⟩
    rintro rfl
    have hle := hstart.length_le
    rw [List.length_append, List.length_singleton] at hle
    omega

namespace Text

theorem pieces_append_sep {α : Type} {isSep : α → Bool} {sep : α} (hsep : isSep sep = true)
    (xs ys : List α) : pieces isSep (xs ++ sep :: ys) = pieces isSep xs ++ pieces isSep ys := by
  induction xs with
  | nil => simp [pieces, hsep]
  | cons x xs ih =>
    rw [List.cons_append, pieces, pieces, ih]
    cases hx : isSep x with
    | true => simp
    | false =>
      cases hxs : pieces isSep xs with
      | nil => exact absurd hxs (pieces_ne_nil isSep xs)
      | cons p ps => simp

theorem length_pieces_le {α : Type} (isSep : α → Bool) (xs : List α) :
    (pieces isSep xs).length ≤ xs.length + 1 := by
  induction xs with
  | nil => exact Nat.le_refl 1
  | cons x xs ih =>
    rw [pieces, List.length_cons]
    split
    · exact Nat.succ_le_succ ih
    · cases hxs : pieces isSep xs with
      | nil => exact absurd hxs (pieces_ne_nil isSep xs)
      | cons p ps =>
        rw [hxs, List.length_cons] at ih
        rw [List.length_cons]
        omega

end Text

namespace Path

/-! ## 1. Parts of pieces -/

def partsOfPieces (absolute : Bool) (ps : List Bytes) : List Part :=
  if absolute then ps.filterMap partOfPiece else relativeParts ps

def rootOf (absolute : Bool) : List Part := if absolute then [.root] else []

theorem parts_eq (p : Path) :
    p.parts = rootOf p.isAbsolute ++ partsOfPieces p.isAbsolute p.pieces := by
  unfold parts rootOf partsOfPieces
  cases p.isAbsolute <;> rfl

theorem body_of_relative {p : Path} (h : p.isAbsolute = false) : p.body = p.bytes := by
  obtain ⟨bytes⟩ := p
  cases bytes with
  | nil => rfl
  | cons b rest =>
    have hb : (b == slash) = false := by simpa [isAbsolute] using h
    unfold body
    simp only [hb]
    exact if_neg Bool.false_ne_true

/-- **Blank:** a piece that spells no part behind other pieces. -/
def IsBlank (absolute : Bool) (before : List Bytes) (piece : Bytes) : Prop :=
  piece = [] ∨ piece = dot ∧ (absolute = true ∨ before ≠ [])

theorem exists_partOfPiece {piece : Bytes} (h : piece ≠ []) (h' : piece ≠ dot) :
    ∃ part, partOfPiece piece = some part := by
  unfold partOfPiece
  rw [if_neg (not_or.2 ⟨h, h'⟩)]
  split
  · exact ⟨_, rfl⟩
  · exact ⟨_, rfl⟩

theorem partOfPiece_of_blank {piece : Bytes} (h : piece = [] ∨ piece = dot) :
    partOfPiece piece = none := by
  unfold partOfPiece
  rw [if_pos h]

/-- Behind other pieces, and below the root, a piece spells its part. -/
theorem partsOfPieces_concat {absolute : Bool} {ps : List Bytes} (piece : Bytes)
    (h : absolute = true ∨ ps ≠ []) :
    partsOfPieces absolute (ps ++ [piece]) =
      partsOfPieces absolute ps ++ (partOfPiece piece).toList := by
  have hmap : ([piece] : List Bytes).filterMap partOfPiece = (partOfPiece piece).toList := by
    cases hpart : partOfPiece piece <;> simp [hpart]
  unfold partsOfPieces
  cases absolute with
  | true => rw [if_pos rfl, if_pos rfl, List.filterMap_append, hmap]
  | false =>
    cases ps with
    | nil => exact absurd rfl (h.resolve_left Bool.false_ne_true)
    | cons first rest =>
      show relativeParts (first :: (rest ++ [piece])) = relativeParts (first :: rest) ++ _
      rw [relativeParts, relativeParts, List.filterMap_append, hmap, List.append_assoc]

theorem partsOfPieces_of_isBlank {absolute : Bool} {ps : List Bytes} {piece : Bytes}
    (h : IsBlank absolute ps piece) :
    partsOfPieces absolute (ps ++ [piece]) = partsOfPieces absolute ps := by
  by_cases hbehind : absolute = true ∨ ps ≠ []
  · have hnone := partOfPiece_of_blank (h.imp_right And.left)
    rw [partsOfPieces_concat piece hbehind, hnone]
    exact List.append_nil _
  · -- the only piece of a relative path is blank if it is empty
    rw [not_or, not_not] at hbehind
    obtain ⟨hrelative, rfl⟩ := hbehind
    rw [Bool.not_eq_true] at hrelative
    subst hrelative
    rcases h with rfl | ⟨-, habsolute | hne⟩
    · rfl
    · cases habsolute
    · exact absurd rfl hne

theorem exists_partsOfPieces {absolute : Bool} {ps : List Bytes} {piece : Bytes}
    (h : ¬IsBlank absolute ps piece) :
    ∃ part, partsOfPieces absolute (ps ++ [piece]) = partsOfPieces absolute ps ++ [part] := by
  rw [IsBlank, not_or, not_and] at h
  by_cases hbehind : absolute = true ∨ ps ≠ []
  · obtain ⟨part, hpart⟩ := exists_partOfPiece h.1 fun hdot => h.2 hdot hbehind
    refine ⟨part, ?_⟩
    rw [partsOfPieces_concat piece hbehind, hpart]
    rfl
  · rw [not_or, not_not] at hbehind
    obtain ⟨hrelative, rfl⟩ := hbehind
    rw [Bool.not_eq_true] at hrelative
    subst hrelative
    -- a dot in front of a relative path counts
    by_cases hdot : piece = dot
    · refine ⟨.here, ?_⟩
      rw [hdot]
      rfl
    · obtain ⟨part, hpart⟩ := exists_partOfPiece h.1 hdot
      refine ⟨part, ?_⟩
      show relativeParts [piece] = [part]
      rw [relativeParts, if_neg hdot, hpart]
      rfl

/-! ## 2. The path above -/

theorem partsOfPieces_dropBlank (absolute : Bool) (rs : List Bytes) :
    partsOfPieces absolute (dropBlank absolute rs).reverse = partsOfPieces absolute rs.reverse := by
  induction rs with
  | nil => rfl
  | cons piece rest ih =>
    rw [dropBlank]
    split
    next hblank =>
      have hblank' : IsBlank absolute rest.reverse piece := by
        simpa [IsBlank] using hblank
      rw [ih, List.reverse_cons, partsOfPieces_of_isBlank hblank']
    next => rfl

theorem not_isBlank_of_dropBlank {absolute : Bool} {rs above : List Bytes} {piece : Bytes}
    (h : dropBlank absolute rs = piece :: above) : ¬IsBlank absolute above.reverse piece := by
  induction rs with
  | nil => cases h
  | cons first rest ih =>
    rw [dropBlank] at h
    split at h
    next => exact ih h
    next hkept =>
      cases h
      simpa [IsBlank] using hkept

theorem dropBlank_suffix (absolute : Bool) (rs : List Bytes) : dropBlank absolute rs <:+ rs := by
  induction rs with
  | nil => exact List.suffix_refl []
  | cons piece rest ih =>
    rw [dropBlank]
    split
    · exact ih.trans (List.suffix_cons piece rest)
    · exact List.suffix_refl _

/-- **A path spelled from pieces** has their parts. -/
theorem parts_spelled {absolute : Bool} {kept : List Bytes} (hsolid : ∀ piece ∈ kept, slash ∉ piece)
    (hfirst : absolute = false → ∀ piece ∈ kept.head?, piece ≠ []) :
    (Path.mk ((if absolute then [slash] else []) ++ Text.glue slash kept)).parts =
      rootOf absolute ++ partsOfPieces absolute kept := by
  have hpieces : ∀ absolute : Bool, partsOfPieces absolute
      (Text.pieces (· == slash) (Text.glue slash kept)) = partsOfPieces absolute kept := by
    intro absolute
    by_cases hkept : kept = []
    · rw [hkept]
      cases absolute <;> rfl
    · rw [Text.pieces_glue hkept hsolid]
  cases absolute with
  | true =>
    rw [parts_eq]
    exact congrArg (rootOf true ++ ·) (hpieces true)
  | false =>
    have hbody : (Text.glue slash kept).head? ≠ some slash := by
      cases kept with
      | nil => exact fun h => by cases h
      | cons piece rest =>
        rw [Text.head?_glue (hfirst rfl piece rfl)]
        intro hhead
        exact hsolid piece List.mem_cons_self (List.mem_of_mem_head? hhead)
    have hrelative : (Path.mk (Text.glue slash kept)).isAbsolute = false := by
      simpa [isAbsolute] using hbody
    show (Path.mk (Text.glue slash kept)).parts = _
    rw [parts_eq, hrelative, pieces, body_of_relative hrelative, hpieces]

/-- A relative path that is not empty starts with a piece that is not empty. -/
theorem head?_pieces_ne {p : Path} (hrelative : p.isAbsolute = false) (hne : p.bytes ≠ []) :
    ∀ piece ∈ p.pieces.head?, piece ≠ [] := by
  rw [pieces, body_of_relative hrelative]
  obtain ⟨bytes⟩ := p
  cases bytes with
  | nil => exact absurd rfl hne
  | cons b rest =>
    have hb : (b == slash) = false := by simpa [isAbsolute] using hrelative
    intro piece hpiece
    rw [Text.pieces, hb] at hpiece
    cases hrest : Text.pieces (· == slash) rest with
    | nil => exact absurd hrest (Text.pieces_ne_nil _ _)
    | cons first others =>
      rw [hrest] at hpiece
      cases hpiece
      exact List.cons_ne_nil _ _

theorem parts_ne_nil_of_isAbsolute {p : Path} (h : p.isAbsolute = true) : p.parts ≠ [] := by
  rw [parts, if_pos h]
  exact List.cons_ne_nil _ _

/-- Only the empty path has no parts. -/
theorem parts_ne_nil {p : Path} (h : p.bytes ≠ []) : p.parts ≠ [] := by
  cases hrelative : p.isAbsolute with
  | true => exact parts_ne_nil_of_isAbsolute hrelative
  | false =>
    have hhead := head?_pieces_ne hrelative h
    rw [parts, hrelative, if_neg Bool.false_ne_true]
    cases hpieces : p.pieces with
    | nil => exact absurd hpieces (Text.pieces_ne_nil _ _)
    | cons piece rest =>
      rw [hpieces] at hhead
      rw [relativeParts]
      by_cases hdot : piece = dot
      · simp [hdot]
      · obtain ⟨part, hpart⟩ := exists_partOfPiece (hhead piece rfl) hdot
        simp [hdot, hpart]

theorem bytes_ne_nil_of_dropBlank {p : Path} {piece : Bytes} {above : List Bytes}
    (h : dropBlank p.isAbsolute p.pieces.reverse = piece :: above) : p.bytes ≠ [] := by
  intro hnil
  have hnone : dropBlank p.isAbsolute p.pieces.reverse = [] := by
    obtain ⟨bytes⟩ := p
    cases hnil
    rfl
  rw [hnone] at h
  cases h

/-- **The path above** has all parts but the last one. -/
theorem parts_parent? {p q : Path} (h : p.parent? = some q) :
    ∃ part, p.parts = q.parts ++ [part] := by
  unfold parent? at h
  cases hdrop : dropBlank p.isAbsolute p.pieces.reverse with
  | nil =>
    rw [hdrop] at h
    cases h
  | cons piece above =>
    rw [hdrop] at h
    have hq := Option.some.inj h
    -- what is kept are the first pieces of the path
    have hstart : (dropBlank p.isAbsolute above).reverse <+: p.pieces := by
      have hsuffix : dropBlank p.isAbsolute above <:+ p.pieces.reverse :=
        (dropBlank_suffix _ above).trans
          ((List.suffix_cons piece above).trans (hdrop ▸ dropBlank_suffix _ _))
      exact List.reverse_suffix.1 (by rwa [List.reverse_reverse])
    have hq_parts : q.parts = rootOf p.isAbsolute ++ partsOfPieces p.isAbsolute above.reverse := by
      rw [← hq, parts_spelled, partsOfPieces_dropBlank]
      · intro piece hpiece hslash
        have hsep := Text.not_isSep_of_mem_pieces (hstart.subset hpiece) hslash
        simp at hsep
      · intro hrelative first hfirst
        -- the first piece is that of the path, which is not empty
        obtain ⟨rest, hrest⟩ := hstart
        refine head?_pieces_ne hrelative (bytes_ne_nil_of_dropBlank hdrop) first ?_
        rw [← hrest, List.head?_append, hfirst]
        rfl
    obtain ⟨part, hpart⟩ := exists_partsOfPieces (not_isBlank_of_dropBlank hdrop)
    refine ⟨part, ?_⟩
    have hp : partsOfPieces p.isAbsolute p.pieces =
        partsOfPieces p.isAbsolute above.reverse ++ [part] := by
      rw [← hpart, ← List.reverse_cons, ← hdrop, partsOfPieces_dropBlank, List.reverse_reverse]
    rw [parts_eq, hp, hq_parts, List.append_assoc]

/-- However many steps up are taken, they lead to places above. -/
theorem isAbove_of_mem_ancestorsFrom {n : Nat} {p q : Path} (h : q ∈ ancestorsFrom n p) :
    IsAbove q.parts p.parts := by
  induction n generalizing p with
  | zero => cases h
  | succ n ih =>
    rw [ancestorsFrom] at h
    cases hparent : p.parent? with
    | none =>
      rw [hparent] at h
      cases h
    | some above =>
      obtain ⟨part, hpart⟩ := parts_parent? hparent
      have habove : IsAbove above.parts p.parts := by
        rw [hpart]
        exact isAbove_append_singleton above.parts part
      rw [hparent] at h
      rcases List.mem_cons.1 h with rfl | h
      · exact habove
      · exact (ih h).trans habove

/-- **Ancestors are above** the path. -/
theorem isAbove_of_mem_ancestors {p q : Path} (h : q ∈ p.ancestors) : IsAbove q.parts p.parts :=
  isAbove_of_mem_ancestorsFrom (List.mem_filter.1 h).1

theorem parts_of_parent?_eq_none {p : Path} (h : p.parent? = none) :
    p.parts = rootOf p.isAbsolute := by
  unfold parent? at h
  cases hdrop : dropBlank p.isAbsolute p.pieces.reverse with
  | nil =>
    have hpieces : partsOfPieces p.isAbsolute p.pieces = [] := by
      rw [← p.pieces.reverse_reverse, ← partsOfPieces_dropBlank, hdrop]
      cases p.isAbsolute <;> rfl
    rw [parts_eq, hpieces, List.append_nil]
  | cons piece above =>
    rw [hdrop] at h
    cases h

theorem length_partsOfPieces_le (absolute : Bool) (ps : List Bytes) :
    (partsOfPieces absolute ps).length ≤ ps.length := by
  unfold partsOfPieces
  cases absolute with
  | true => exact List.length_filterMap_le partOfPiece ps
  | false =>
    cases ps with
    | nil => exact Nat.le_refl 0
    | cons first rest =>
      have hrest := List.length_filterMap_le partOfPiece rest
      show (relativeParts (first :: rest)).length ≤ rest.length + 1
      rw [relativeParts, List.length_append]
      split
      · rw [List.length_singleton]
        omega
      · cases partOfPiece first with
        | none =>
          rw [Option.toList_none, List.length_nil]
          omega
        | some part =>
          rw [Option.toList_some, List.length_singleton]
          omega

theorem length_rootOf_add (p : Path) :
    (rootOf p.isAbsolute).length + p.body.length = p.bytes.length := by
  cases habsolute : p.isAbsolute with
  | false =>
    rw [body_of_relative habsolute, rootOf, if_neg Bool.false_ne_true, List.length_nil,
      Nat.zero_add]
  | true =>
    obtain ⟨bytes⟩ := p
    cases bytes with
    | nil => cases habsolute
    | cons b rest =>
      have hb : (b == slash) = true := by simpa [isAbsolute] using habsolute
      unfold body
      simp only [hb, if_true]
      exact Nat.add_comm 1 rest.length

/-- A path has no more parts than bytes, but for one. -/
theorem length_parts_le (p : Path) : p.parts.length ≤ p.bytes.length + 1 := by
  have hparts := length_partsOfPieces_le p.isAbsolute p.pieces
  have hpieces : p.pieces.length ≤ p.body.length + 1 := Text.length_pieces_le (· == slash) p.body
  have hbytes := length_rootOf_add p
  rw [parts_eq, List.length_append]
  omega

/-- As many steps up as a path has parts lead to every place above it. -/
theorem exists_mem_ancestorsFrom {place : Place} (hne : place ≠ []) {n : Nat} {p : Path}
    (hlength : p.parts.length ≤ n) (h : IsAbove place p.parts) :
    ∃ q ∈ ancestorsFrom n p, q.parts = place := by
  induction n generalizing p with
  | zero =>
    rw [List.eq_nil_of_length_eq_zero (Nat.le_zero.1 hlength)] at h
    exact absurd (List.prefix_nil.1 h.1) hne
  | succ n ih =>
    rw [ancestorsFrom]
    cases hparent : p.parent? with
    | none =>
      -- only the place without parts is above the root
      rw [parts_of_parent?_eq_none hparent] at h
      unfold rootOf at h
      split at h
      · rcases List.prefix_cons_iff.1 h.1 with hnil | ⟨rest, hrest, hstart⟩
        · exact absurd hnil hne
        · rw [List.prefix_nil.1 hstart] at hrest
          exact absurd hrest h.2
      · exact absurd (List.prefix_nil.1 h.1) hne
    | some q =>
      obtain ⟨part, hpart⟩ := parts_parent? hparent
      rw [hpart, isAbove_append_singleton_iff] at h
      rw [hpart, List.length_append, List.length_singleton] at hlength
      -- the place is that of the parent, or above it with one step less
      by_cases hq : place = q.parts
      · exact ⟨q, List.mem_cons_self, hq.symm⟩
      · obtain ⟨q', hq', hplace⟩ := ih (by omega) ⟨h, hq⟩
        exact ⟨q', List.mem_cons_of_mem q hq', hplace⟩

/-- **What is above** a path is the place of an ancestor, but for the place without parts. -/
theorem exists_mem_ancestors {p : Path} {place : Place} (h : IsAbove place p.parts)
    (hne : place ≠ []) : ∃ q ∈ p.ancestors, q.parts = place := by
  obtain ⟨q, hq, hplace⟩ := exists_mem_ancestorsFrom hne (length_parts_le p) h
  refine ⟨q, List.mem_filter.2 ⟨hq, ?_⟩, hplace⟩
  cases hbytes : q.bytes with
  | nil =>
    obtain ⟨bytes⟩ := q
    cases hbytes
    exact absurd hplace.symm hne
  | cons b rest => rfl

/-! ## 3. Names -/

def IsName (bytes : Bytes) : Prop := slash ∉ bytes ∧ partOfPiece bytes = some (.name bytes)

theorem isName_iff {bytes : Bytes} :
    IsName bytes ↔ slash ∉ bytes ∧ bytes ≠ [] ∧ bytes ≠ dot ∧ bytes ≠ dotDot := by
  unfold IsName partOfPiece
  by_cases hblank : bytes = [] ∨ bytes = dot
  · rw [if_pos hblank]
    refine iff_of_false (fun h => by cases h.2) fun h => ?_
    exact hblank.elim h.2.1 h.2.2.1
  · rw [if_neg hblank]
    rw [not_or] at hblank
    by_cases hup : bytes = dotDot
    · simp [hup]
    · simp [hup, hblank]

theorem eq_of_partOfPiece {piece bytes : Bytes} (h : partOfPiece piece = some (.name bytes)) :
    piece = bytes := by
  unfold partOfPiece at h
  split at h
  · cases h
  · split at h
    · cases h
    · cases h
      rfl

/-- The names among the parts of a path are pieces of it. -/
theorem mem_pieces_of_mem_parts {p : Path} {bytes : Bytes} (h : .name bytes ∈ p.parts) :
    bytes ∈ p.pieces ∧ partOfPiece bytes = some (.name bytes) := by
  have hpiece : ∀ piece ∈ p.pieces, partOfPiece piece = some (.name bytes) →
      bytes ∈ p.pieces ∧ partOfPiece bytes = some (.name bytes) := by
    intro piece hmem hpart
    obtain rfl := eq_of_partOfPiece hpart
    exact ⟨hmem, hpart⟩
  rw [parts_eq, List.mem_append] at h
  rcases h with h | h
  · unfold rootOf at h
    split at h
    · simp at h
    · cases h
  · unfold partsOfPieces at h
    split at h
    · obtain ⟨piece, hmem, hpart⟩ := List.mem_filterMap.1 h
      exact hpiece piece hmem hpart
    · cases hpieces : p.pieces with
      | nil =>
        rw [hpieces] at h
        cases h
      | cons first rest =>
        rw [hpieces] at h hpiece
        rcases List.mem_append.1 h with h | h
        · split at h
          · simp at h
          · exact hpiece first List.mem_cons_self (Option.mem_toList.1 h)
        · obtain ⟨piece, hmem, hpart⟩ := List.mem_filterMap.1 h
          exact hpiece piece (List.mem_cons_of_mem first hmem) hpart

/-- The names among the parts of a path are names. -/
theorem isName_of_mem_parts {p : Path} {bytes : Bytes} (h : .name bytes ∈ p.parts) :
    IsName bytes := by
  obtain ⟨hpiece, hpart⟩ := mem_pieces_of_mem_parts h
  refine ⟨fun hslash => ?_, hpart⟩
  have hsep := Text.not_isSep_of_mem_pieces hpiece hslash
  simp at hsep

theorem partsOfPieces_name {name : Bytes} (h : IsName name) (absolute : Bool) (ps : List Bytes) :
    partsOfPieces absolute (ps ++ [name]) = partsOfPieces absolute ps ++ [.name name] := by
  by_cases hbehind : absolute = true ∨ ps ≠ []
  · rw [partsOfPieces_concat name hbehind, h.2]
    rfl
  · rw [not_or, not_not] at hbehind
    obtain ⟨hrelative, rfl⟩ := hbehind
    rw [Bool.not_eq_true] at hrelative
    subst hrelative
    show relativeParts [name] = [.name name]
    rw [relativeParts, if_neg (isName_iff.1 h).2.2.1, h.2]
    rfl

/-- More bytes behind a path that is not empty stand behind its body. -/
theorem body_append {p : Path} (hne : p.bytes ≠ []) (more : Bytes) :
    (Path.mk (p.bytes ++ more)).body = p.body ++ more ∧
      (Path.mk (p.bytes ++ more)).isAbsolute = p.isAbsolute := by
  obtain ⟨bytes⟩ := p
  cases bytes with
  | nil => exact absurd rfl hne
  | cons b rest =>
    unfold body isAbsolute
    simp only [List.cons_append, List.head?_cons]
    split
    · exact ⟨rfl, trivial⟩
    · exact ⟨rfl, trivial⟩

theorem parts_append {p : Path} (hne : p.bytes ≠ []) (more : Bytes) :
    (Path.mk (p.bytes ++ more)).parts = rootOf p.isAbsolute ++
      partsOfPieces p.isAbsolute (Text.pieces (· == slash) (p.body ++ more)) := by
  obtain ⟨hbody, habsolute⟩ := body_append hne more
  rw [parts_eq, pieces, hbody, habsolute]

/-- The body of a path that ends in a slash ends in it too, or is empty. -/
theorem body_of_getLast? {p : Path} (h : p.bytes.getLast? = some slash) :
    p.body = [] ∨ ∃ xs, p.body = xs ++ [slash] := by
  obtain ⟨bytes⟩ := p
  obtain ⟨xs, rfl⟩ := List.getLast?_eq_some_iff.1 h
  cases xs with
  | nil => exact .inl rfl
  | cons b xs =>
    right
    unfold body
    simp only [List.cons_append]
    split
    · exact ⟨xs, rfl⟩
    · exact ⟨b :: xs, rfl⟩

/-- A name is one piece. -/
theorem IsName.pieces_eq {name : Bytes} (h : IsName name) :
    Text.pieces (· == slash) name = [name] := by
  refine Text.pieces_of_forall_not fun b hb => ?_
  rw [beq_eq_false_iff_ne]
  rintro rfl
  exact h.1 hb

theorem IsName.isAbsolute {name : Bytes} (h : IsName name) :
    (Path.mk name).isAbsolute = false := by
  cases name with
  | nil => rfl
  | cons b rest =>
    have hb : b ≠ slash := by
      rintro rfl
      exact h.1 List.mem_cons_self
    simpa [Path.isAbsolute] using hb

theorem join_name (p : Path) {name : Bytes} (h : IsName name) :
    p.join ⟨name⟩ = if p.bytes = [] ∨ p.bytes.getLast? = some slash then ⟨p.bytes ++ name⟩
      else ⟨p.bytes ++ slash :: name⟩ := by
  unfold join
  rw [h.isAbsolute, if_neg Bool.false_ne_true]
  simp only [List.isEmpty_iff]

/-- **A name that is joined to a path** is one more piece, or takes the place of an empty one behind
    the last slash. -/
theorem pieces_join {p : Path} (hne : p.bytes ≠ []) {name : Bytes} (h : IsName name) :
    (p.join ⟨name⟩).isAbsolute = p.isAbsolute ∧
      ∃ ps, (p.join ⟨name⟩).pieces = ps ++ [name] ∧ (p.pieces = ps ∨ p.pieces = ps ++ [[]]) := by
  have hname := h.pieces_eq
  rw [join_name p h]
  split
  next hend =>
    have hlast : p.bytes.getLast? = some slash := hend.resolve_left hne
    obtain ⟨hbody, habsolute⟩ := body_append hne name
    refine ⟨habsolute, ?_⟩
    unfold pieces
    rw [hbody]
    rcases body_of_getLast? hlast with hnil | ⟨xs, hxs⟩
    · refine ⟨[], ?_⟩
      rw [hnil, List.nil_append, List.nil_append, hname]
      exact ⟨rfl, .inr rfl⟩
    · refine ⟨Text.pieces (· == slash) xs, ?_⟩
      rw [hxs, List.append_assoc, List.singleton_append, Text.pieces_append_sep (by simp),
        Text.pieces_append_sep (by simp), hname]
      exact ⟨rfl, .inr rfl⟩
  next =>
    obtain ⟨hbody, habsolute⟩ := body_append hne (slash :: name)
    refine ⟨habsolute, p.pieces, ?_, .inl rfl⟩
    unfold pieces
    rw [hbody, Text.pieces_append_sep (by simp), hname]

/-- **A name that is joined to a path** is directly below it. -/
theorem parts_join (p : Path) {name : Bytes} (h : IsName name) :
    (p.join ⟨name⟩).parts = p.parts ++ [.name name] := by
  by_cases hempty : p.bytes = []
  · -- a name alone is one piece
    have hrelative := h.isAbsolute
    have hbody : (Path.mk name).pieces = [name] := by
      rw [pieces, body_of_relative hrelative, h.pieces_eq]
    obtain ⟨bytes⟩ := p
    cases hempty
    rw [join_name _ h, if_pos (.inl rfl)]
    show (Path.mk name).parts = _
    rw [parts_eq, hrelative, hbody]
    exact partsOfPieces_name h false []
  · obtain ⟨habsolute, ps, hjoined, hp⟩ := pieces_join hempty h
    have hps : partsOfPieces p.isAbsolute p.pieces = partsOfPieces p.isAbsolute ps := by
      rcases hp with hp | hp
      · rw [hp]
      · rw [hp, partsOfPieces_of_isBlank (.inl rfl)]
    rw [parts_eq, parts_eq p, habsolute, hjoined, hps, partsOfPieces_name h, List.append_assoc]

end Path

/-! ## 4. Names read lossily -/

namespace Text

def IsMark (c : Char) : Prop := c = '/' ∨ c = '.'

theorem IsMark.toNat_pos {c : Char} (h : IsMark c) : 0 < c.toNat ∧ c.toNat < 0x80 := by
  rcases h with rfl | rfl <;> decide

/-- A character of a code is the one with this code, unless there is none. -/
theorem eq_toNat_of_ofNat {n : Nat} {c : Char} (h : Char.ofNat n = c) (hc : 0 < c.toNat) :
    n = c.toNat := by
  rw [← h, Char.ofNat] at hc ⊢
  by_cases hvalid : n.isValidChar
  · rw [dif_pos hvalid]
    rfl
  · rw [dif_neg hvalid] at hc
    cases hc

theorem pos_of_lead? {b : UInt8} {n : Nat} {low high : UInt8}
    (h : lead? b = some (n, low, high)) : 0 < n := by
  unfold lead? at h
  split_ifs at h <;> cases h <;> decide

/-- The first two bytes of a longer character make it large, or need a third byte for it. -/
theorem le_of_lead? {b t : UInt8} {n : Nat} {low high : UInt8}
    (hlead : lead? b = some (n, low, high)) (hlow : low ≤ t) (hhigh : t ≤ high) :
    (if n = 1 then 0x80 else 2) ≤
      b.toNat % (if n = 1 then 0x20 else if n = 2 then 0x10 else 0x08) * 64 + t.toNat % 64 := by
  rw [UInt8.le_iff_toNat_le] at hlow hhigh
  unfold lead? at hlead
  simp only [Bool.and_eq_true, decide_eq_true_eq, beq_iff_eq, ← UInt8.toNat_inj,
    UInt8.le_iff_toNat_le, UInt8.toNat_ofNat] at hlead
  split_ifs at hlead <;> cases hlead <;>
    simp only [UInt8.toNat_ofNat, Nat.reduceEqDiff, if_true, if_false] at * <;> omega

/-- Bytes that follow: the first within the bounds. -/
theorem exists_tails {n : Nat} {low high : UInt8} {rest : Bytes}
    (h : (tails (n + 1) low high rest).length = n + 1) :
    ∃ t more, low ≤ t ∧ t ≤ high ∧ tails (n + 1) low high rest = t :: more ∧ more.length = n := by
  cases rest with
  | nil => cases h
  | cons t rest =>
    rw [tails] at h ⊢
    split at h
    next hbounds =>
      rw [if_pos hbounds]
      simp only [Bool.and_eq_true, decide_eq_true_eq] at hbounds
      exact ⟨t, _, hbounds.1, hbounds.2, rfl, Nat.succ.inj h⟩
    next => cases h

theorem le_foldl (bytes : Bytes) (top : Nat) :
    top ≤ bytes.foldl (fun acc t => acc * 64 + t.toNat % 64) top := by
  induction bytes generalizing top with
  | nil => exact Nat.le_refl top
  | cons t rest ih =>
    have hstep : top ≤ top * 64 + t.toNat % 64 := by omega
    exact Nat.le_trans hstep (ih _)

/-- What is decoded from several bytes is beyond ASCII. -/
theorem le_foldl_tails {b : UInt8} {n : Nat} {low high : UInt8} {rest : Bytes}
    (hlead : lead? b = some (n, low, high)) (hfound : (tails n low high rest).length = n) :
    0x80 ≤ (tails n low high rest).foldl (fun acc t => acc * 64 + t.toNat % 64)
      (b.toNat % (if n = 1 then 0x20 else if n = 2 then 0x10 else 0x08)) := by
  obtain ⟨n, rfl⟩ := Nat.exists_eq_add_of_lt (pos_of_lead? hlead)
  rw [Nat.zero_add] at *
  obtain ⟨t, more, hlow, hhigh, htails, hmore⟩ := exists_tails hfound
  have hfirst := le_of_lead? hlead hlow hhigh
  rw [htails, List.foldl_cons]
  cases more with
  | nil =>
    have hn : n = 0 := hmore.symm
    subst hn
    exact hfirst
  | cons t' more =>
    -- two bytes are enough to be large if a third one follows
    have hn : ¬n + 1 = 1 := by
      rw [← hmore, List.length_cons]
      omega
    rw [if_neg hn] at hfirst
    refine Nat.le_trans ?_ (le_foldl more _)
    show 0x80 ≤ (_ * 64 + t.toNat % 64) * 64 + t'.toNat % 64
    omega

/-- **A mark is read** from its own byte only. -/
theorem firstChar_of_isMark {b : UInt8} {rest : Bytes} {c : Char} {used : Nat}
    (h : firstChar b rest = (c, used)) (hmark : IsMark c) : b = UInt8.ofNat c.toNat ∧ used = 0 := by
  have hreplaced : ¬IsMark '\uFFFD' := by
    rintro (h | h) <;> cases h
  unfold firstChar at h
  split at h
  next hascii =>
    cases h
    have hcode := eq_toNat_of_ofNat rfl hmark.toNat_pos.1
    refine ⟨?_, rfl⟩
    rw [← hcode]
    exact UInt8.ofNat_toNat.symm
  next =>
    split at h
    next => cases h; exact absurd hmark hreplaced
    next n low high hlead =>
      simp only at h
      split at h
      next hfound =>
        cases h
        have hlarge := le_foldl_tails hlead hfound
        have hcode := eq_toNat_of_ofNat rfl hmark.toNat_pos.1
        have hsmall := hmark.toNat_pos.2
        omega
      next => cases h; exact absurd hmark hreplaced

theorem mem_of_mem_replaceInvalid {bs : Bytes} {c : Char} (h : c ∈ replaceInvalid bs)
    (hmark : IsMark c) : UInt8.ofNat c.toNat ∈ bs := by
  induction bs using replaceInvalid.induct with
  | case1 => simp [replaceInvalid] at h
  | case2 b rest c' used hfirst ih =>
    rw [replaceInvalid, hfirst] at h
    rcases List.mem_cons.1 h with rfl | hlater
    · obtain ⟨rfl, -⟩ := firstChar_of_isMark hfirst hmark
      exact List.mem_cons_self
    · exact List.mem_cons_of_mem b (List.mem_of_mem_drop (ih hlater))

/-- Marks are read from their own bytes, and from nothing else. -/
theorem eq_of_replaceInvalid {bs : Bytes} (hmarks : ∀ c ∈ replaceInvalid bs, IsMark c) :
    bs = (replaceInvalid bs).map fun c => UInt8.ofNat c.toNat := by
  induction bs using replaceInvalid.induct with
  | case1 => simp [replaceInvalid]
  | case2 b rest c used hfirst ih =>
    have hcons : replaceInvalid (b :: rest) = c :: replaceInvalid (rest.drop used) := by
      rw [replaceInvalid, hfirst]
    rw [hcons] at hmarks ⊢
    obtain ⟨hmark, hlater⟩ := List.forall_mem_cons.1 hmarks
    obtain ⟨rfl, rfl⟩ := firstChar_of_isMark hfirst hmark
    rw [List.map_cons, ← ih hlater, List.drop_zero]

/-- Only a slash is written with the byte of a slash. -/
theorem mem_of_slash_mem_encode {cs : List Char}
    (h : Path.slash ∈ encode (String.ofList cs)) : '/' ∈ cs := by
  induction cs with
  | nil => exact absurd h (by decide)
  | cons c cs ih =>
    rw [Uri.encode_cons, List.mem_append] at h
    rcases h with hfirst | hlater
    · by_cases hascii : c.toNat < 0x80
      · rw [Uri.utf8EncodeChar_ascii hascii, List.mem_singleton] at hfirst
        have hvalue := congrArg UInt8.toNat hfirst
        rw [UInt8.toNat_ofNat', Nat.mod_eq_of_lt (by omega)] at hvalue
        have hsame : Char.ofNat c.toNat = c := Char.ofNat_toNat c
        rw [← hvalue] at hsame
        exact hsame ▸ List.mem_cons_self
      · have hlarge := Uri.le_of_mem_utf8EncodeChar hascii hfirst
        exact absurd hlarge (by decide)
    · exact List.mem_cons_of_mem c (ih hlater)

end Text

/-- **A name read lossily** is a name. -/
theorem Path.IsName.decodeLossy {bytes : Bytes} (h : IsName bytes) :
    IsName (Text.encode (Text.decodeLossy bytes)) := by
  unfold Text.decodeLossy
  cases hdecoded : Text.decode? bytes with
  | some s =>
    rw [Text.decode?_eq_some_iff] at hdecoded
    show IsName (Text.encode s)
    rw [← hdecoded]
    exact h
  | none =>
    show IsName (Text.encode (String.ofList (Text.replaceInvalid bytes)))
    rw [isName_iff] at h ⊢
    obtain ⟨hslash, hempty, hdot, hdotDot⟩ := h
    -- a text of marks that is read is the text that was written
    have hmarks : ∀ marks : List Char, (∀ c ∈ marks, Text.IsMark c) →
        Text.encode (String.ofList (Text.replaceInvalid bytes)) =
          Text.encode (String.ofList marks) →
        bytes = marks.map fun c => UInt8.ofNat c.toNat := by
      intro marks hmarks hsame
      have hread : Text.replaceInvalid bytes = marks :=
        String.ofList_injective (Text.encode_injective hsame)
      rw [← hread] at hmarks ⊢
      exact Text.eq_of_replaceInvalid hmarks
    refine ⟨fun h => ?_, fun h => ?_, fun h => ?_, fun h => ?_⟩
    · exact hslash (Text.mem_of_mem_replaceInvalid (Text.mem_of_slash_mem_encode h) (.inl rfl))
    · exact hempty (hmarks [] (List.forall_mem_nil _) h)
    · refine hdot (hmarks ['.'] ?_ h)
      simp [Text.IsMark]
    · refine hdotDot (hmarks ['.', '.'] ?_ h)
      simp [Text.IsMark]

end Intake
