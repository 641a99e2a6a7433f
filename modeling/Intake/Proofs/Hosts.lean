import Intake.Proofs.Addresses
import Intake.Proofs.Domains

/-!
# Hosts — hosts that read as themselves

The text of a host that was read stays inside the authority it stands in, keeps its colons inside
brackets, and reads as the same host.  A domain host is never blank.
-/

namespace Intake.Uri

/-! ## 1. Characters of an authority -/

def isInner (c : Char) : Bool := decide (0x20 < c.toNat) && !"/\\?#@|".toList.contains c

theorem isInner_of_isCode {c : Char} (h : Percent.isCode c = true) :
    isInner c = true ∧ c ≠ ':' ∧ c ≠ '[' ∧ c ≠ ']' ∧ Host.delimiter c = false := by
  have hall : ∀ n : Fin 128, Percent.isCode (Char.ofNat n.val) = true →
      isInner (Char.ofNat n.val) = true ∧ Char.ofNat n.val ≠ ':' ∧ Char.ofNat n.val ≠ '[' ∧
        Char.ofNat n.val ≠ ']' ∧ Host.delimiter (Char.ofNat n.val) = false := by
    decide +kernel
  exact forall_ascii (P := fun c => Percent.isCode c = true → isInner c = true ∧ c ≠ ':' ∧ c ≠ '[' ∧
    c ≠ ']' ∧ Host.delimiter c = false) hall (Percent.lt_of_isCode h) h

/-- **The text of a host** has inner characters, and colons between brackets only. -/
structure Framed (cs : List Char) : Prop where
  inner : ∀ c ∈ cs, isInner c = true
  frame : (':' ∉ cs ∧ '[' ∉ cs) ∨
    ∃ address, cs = '[' :: address ++ [']'] ∧ '[' ∉ address ∧ ']' ∉ address

/-- Outside brackets the first colon divides. -/
theorem splitPort_outside {cs : List Char} (hcolon : ':' ∉ cs) (hopen : '[' ∉ cs)
    (rest : List Char) :
    splitPort false (cs ++ rest) = (cs ++ (splitPort false rest).1, (splitPort false rest).2) := by
  induction cs with
  | nil => rfl
  | cons c cs ih =>
    have hc : c ≠ ':' := fun h => hcolon (h ▸ List.mem_cons_self)
    have hc' : c ≠ '[' := fun h => hopen (h ▸ List.mem_cons_self)
    have htail := ih (fun h => hcolon (List.mem_cons_of_mem _ h))
      (fun h => hopen (List.mem_cons_of_mem _ h))
    simp [splitPort, hc, hc', htail]

/-- Inside brackets none does. -/
theorem splitPort_inside {cs : List Char} (hopen : '[' ∉ cs) (hclose : ']' ∉ cs)
    (rest : List Char) :
    splitPort true (cs ++ rest) = (cs ++ (splitPort true rest).1, (splitPort true rest).2) := by
  induction cs with
  | nil => rfl
  | cons c cs ih =>
    have hc : c ≠ '[' := fun h => hopen (h ▸ List.mem_cons_self)
    have hc' : c ≠ ']' := fun h => hclose (h ▸ List.mem_cons_self)
    have htail := ih (fun h => hopen (List.mem_cons_of_mem _ h))
      (fun h => hclose (List.mem_cons_of_mem _ h))
    simp [splitPort, hc, hc', htail]

/-- **A host is split off whole,** whatever follows. -/
theorem Framed.splitPort {cs : List Char} (h : Framed cs) (rest : List Char) :
    splitPort false (cs ++ rest) = (cs ++ (splitPort false rest).1, (splitPort false rest).2) := by
  rcases h.frame with ⟨hcolon, hopen⟩ | ⟨address, rfl, hopen, hclose⟩
  · exact splitPort_outside hcolon hopen rest
  · have hinside := splitPort_inside hopen hclose (']' :: rest)
    have hstart : ∀ cs, Uri.splitPort false ('[' :: cs) =
        ('[' :: (Uri.splitPort true cs).1, (Uri.splitPort true cs).2) := fun _ => rfl
    have hend : ∀ cs, Uri.splitPort true (']' :: cs) =
        (']' :: (Uri.splitPort false cs).1, (Uri.splitPort false cs).2) := fun _ => rfl
    rw [List.append_assoc, List.cons_append, hstart, List.singleton_append, hinside, hend]
    simp

namespace Host

/-! ## 2. Addresses -/

/-- The text of an address of version 6 has digits and colons. -/
theorem mem_address6Text {groups : List Nat} {c : Char} (h : c ∈ (address6Text groups).toList) :
    Percent.isCode c = true ∨ c = ':' := by
  have hrun : ∀ {groups : List Nat}, c ∈ Text.glue ':' (groups.map hex) →
      Percent.isCode c = true ∨ c = ':' := by
    intro groups hc
    rcases Text.mem_glue hc with hc | ⟨digits, hdigits, hc⟩
    · exact .inr hc
    · obtain ⟨g, -, rfl⟩ := List.mem_map.1 hdigits
      obtain ⟨n, hn⟩ := Option.isSome_iff_exists.1 (hexDigit?_of_mem_hex hc)
      exact .inl (Percent.isCode_of_hexDigit? hn)
  rw [toList_address6Text] at h
  split at h
  next => exact hrun h
  next =>
    rcases List.mem_append.1 h with h | h
    · exact hrun h
    · rcases List.mem_cons.1 h with h | h
      · exact .inr h
      · rcases List.mem_cons.1 h with h | h
        · exact .inr h
        · exact hrun h

theorem toList_text_address6 (groups : List Nat) :
    (Host.address6 groups).text.toList = '[' :: (address6Text groups).toList ++ [']'] := by
  unfold text
  simp

theorem framed_address6 (groups : List Nat) : Framed (Host.address6 groups).text.toList := by
  have hmem : ∀ {c}, c ∈ (address6Text groups).toList →
      isInner c = true ∧ c ≠ '[' ∧ c ≠ ']' := by
    intro c hc
    rcases mem_address6Text hc with hcode | rfl
    · obtain ⟨hinner, -, hopen, hclose, -⟩ := isInner_of_isCode hcode
      exact ⟨hinner, hopen, hclose⟩
    · decide
  rw [toList_text_address6]
  refine ⟨?_, .inr ⟨_, rfl, fun h => (hmem h).2.1 rfl, fun h => (hmem h).2.2 rfl⟩⟩
  intro c hc
  rcases List.mem_append.1 hc with hc | hc
  · rcases List.mem_cons.1 hc with rfl | hc
    · decide
    · exact (hmem hc).1
  · rw [List.mem_singleton.1 hc]
    decide

theorem bracketed?_address6 {groups : List Nat} (hlength : groups.length = 8)
    (h : ∀ g ∈ groups, g < 65536) :
    bracketed? (Host.address6 groups).text.toList = some (.ok (.address6 groups)) := by
  rw [toList_text_address6]
  have hlast : ((address6Text groups).toList ++ [']']).getLast? = some ']' :=
    List.getLast?_concat
  unfold bracketed?
  simp only [List.cons_append, hlast, if_true, List.dropLast_concat, readAddress6_text hlength h]
  rfl

/-- What stands between brackets is an address. -/
theorem exists_groups {cs : List Char} {host : Host} (h : bracketed? cs = some (.ok host)) :
    ∃ groups, host = .address6 groups ∧ groups.length = 8 ∧ ∀ g ∈ groups, g < 65536 := by
  unfold bracketed? at h
  split at h
  next rest =>
    split at h
    next =>
      cases hread : readAddress6 rest.dropLast with
      | error cause =>
        rw [hread] at h
        cases h
      | ok groups =>
        rw [hread] at h
        cases h
        exact ⟨groups, rfl, readAddress6_groups hread⟩
    next => cases h
  next => cases h

/-- Text without an opening bracket is not bracketed. -/
theorem bracketed?_eq_none {cs : List Char} (h : '[' ∉ cs) : bracketed? cs = none := by
  unfold bracketed?
  split
  next rest => exact absurd List.mem_cons_self h
  next => rfl

/-! ## 3. Domain hosts -/

/-- Labels in normal form make a text that stays inside the authority. -/
theorem framed_labels {labels : List (List Char)} (h : ∀ l ∈ labels, IsLabel l) :
    Framed (Text.glue '.' labels) ∧ '[' ∉ Text.glue '.' labels ∧
      '%' ∉ Text.glue '.' labels := by
  have hallowed : ∀ c ∈ Text.glue '.' labels, forbidden c = false :=
    fun c hc => (domain_chars h c hc).2
  have hall : ∀ n : Fin 128, forbidden (Char.ofNat n.val) = false →
      isInner (Char.ofNat n.val) = true := by
    decide +kernel
  have hnot : ∀ {c}, forbidden c = true → c ∉ Text.glue '.' labels := by
    intro c hc hmem
    rw [hallowed c hmem] at hc
    cases hc
  have hopen := hnot (c := '[') (by decide)
  refine ⟨⟨?_, .inl ⟨hnot (by decide), hopen⟩⟩, hopen, hnot (by decide)⟩
  intro c hc
  exact forall_ascii (P := fun c => forbidden c = false → isInner c = true) hall
    (domain_chars h c hc).1.1 (hallowed c hc)

theorem isLabel_bytes {b : Nat} (h : b < 256) : IsLabel (Nat.toDigits 10 b) := by
  have hdigits := (byte_facts h).2.2
  have hall : ∀ n : Fin 128, (Char.ofNat n.val).isDigit = true →
      IsFolded (Char.ofNat n.val) ∧ forbidden (Char.ofNat n.val) = false ∧
        Char.ofNat n.val ≠ 'x' := by
    decide +kernel
  have hchar : ∀ c ∈ Nat.toDigits 10 b, IsFolded c ∧ forbidden c = false ∧ c ≠ 'x' := by
    intro c hc
    have hdigit := (hdigits c hc).1
    exact forall_ascii (P := fun c => c.isDigit = true → IsFolded c ∧ forbidden c = false ∧
      c ≠ 'x') hall (lt_of_isDigit hdigit) hdigit
  refine ⟨?_, fun c hc => (hchar c hc).1, fun c hc => (hchar c hc).2.1, fun hdot => ?_⟩
  · have hascii : (Nat.toDigits 10 b).all (fun c => c.toNat < 0x80) = true := by
      rw [List.all_eq_true]
      exact fun c hc => decide_eq_true (hchar c hc).1.1
    -- a number does not claim to be encoded
    have hclaim : ((Nat.toDigits 10 b).take 4 == "xn--".toList) = false := by
      rw [beq_eq_false_iff_ne]
      intro htake
      have hx : 'x' ∈ (Nat.toDigits 10 b).take 4 := by
        rw [htake]
        decide
      exact (hchar 'x' (List.mem_of_mem_take hx)).2.2 rfl
    unfold label?
    rw [if_pos hascii, hclaim]
    rfl
  · exact (hdigits '.' hdot).2 rfl

/-- **An address of version 4 is a domain** as it is written. -/
theorem exists_labels_address4 {n : Nat} (h : n < 4294967296) :
    ∃ labels, labels ≠ [] ∧ (∀ l ∈ labels, IsLabel l) ∧
      Text.glue '.' labels = (address4Text n).toList := by
  refine ⟨(bytesOf n).map (Nat.toDigits 10), by simp [bytesOf], ?_, (toList_address4Text h).symm⟩
  intro l hl
  obtain ⟨b, hb, rfl⟩ := List.mem_map.1 hl
  exact isLabel_bytes (bytesOf_lt h b hb)

theorem text_ne_nil_of_endsInNumber {cs : List Char} (h : endsInNumber cs = true) : cs ≠ [] := by
  rintro rfl
  revert h
  decide

/-- A domain in normal form reads as itself, or as the address that it is. -/
theorem readDomain_labels {labels : List (List Char)} (hne : labels ≠ [])
    (h : ∀ l ∈ labels, IsLabel l) (hsome : Text.glue '.' labels ≠ []) :
    readDomain (Text.glue '.' labels) =
      if endsInNumber (Text.glue '.' labels) then
        (readAddress4 (Text.glue '.' labels)).map .address4
      else .ok (.name (String.ofList (Text.glue '.' labels))) := by
  obtain ⟨-, hopen, hpercent⟩ := framed_labels h
  unfold readDomain
  rw [bracketed?_eq_none hopen, unescape_of_plain hpercent, domain?_of_isLabel hne h]
  cases hdomain : Text.glue '.' labels with
  | nil => exact absurd hdomain hsome
  | cons c cs => rfl

theorem readDomain_address4 {n : Nat} (h : n < 4294967296) :
    Framed (Host.address4 n).text.toList ∧
      readDomain (Host.address4 n).text.toList = .ok (.address4 n) := by
  have hnumber := endsInNumber_text h
  have hread := readAddress4_text h
  obtain ⟨labels, hne, hlabels, htext⟩ := exists_labels_address4 h
  change Framed (address4Text n).toList ∧ readDomain (address4Text n).toList = _
  rw [← htext] at hnumber hread ⊢
  refine ⟨(framed_labels hlabels).1, ?_⟩
  rw [readDomain_labels hne hlabels (text_ne_nil_of_endsInNumber hnumber), if_pos hnumber, hread]
  rfl

theorem readDomain_address6 {groups : List Nat} (hlength : groups.length = 8)
    (h : ∀ g ∈ groups, g < 65536) :
    readDomain (Host.address6 groups).text.toList = .ok (.address6 groups) := by
  unfold readDomain
  rw [bracketed?_address6 hlength h]

/-- What a domain host is read from. -/
theorem readDomain_cases {cs : List Char} {host : Host} (h : readDomain cs = .ok host) :
    (∃ groups, host = .address6 groups ∧ groups.length = 8 ∧ ∀ g ∈ groups, g < 65536) ∨
      (∃ n, host = .address4 n ∧ n < 4294967296) ∨
      ∃ bs domain, domain? bs = some domain ∧ domain ≠ [] ∧ endsInNumber domain = false ∧
        host = .name (String.ofList domain) := by
  unfold readDomain at h
  split at h
  next result hbracketed =>
    subst h
    exact .inl (exists_groups hbracketed)
  next =>
    split at h
    next => cases h
    next => cases h
    next domain hne hdomain =>
      right
      cases hnumber : endsInNumber domain with
      | true =>
        rw [hnumber, if_pos rfl] at h
        cases hread : readAddress4 domain with
        | error cause =>
          rw [hread] at h
          cases h
        | ok n =>
          rw [hread] at h
          cases h
          exact .inl ⟨n, rfl, readAddress4_lt hread⟩
      | false =>
        rw [hnumber, if_neg (by decide)] at h
        cases h
        exact .inr ⟨_, domain, hdomain, hne, hnumber, rfl⟩

/-- **A host in normal form** for a reader: its text stays inside the authority, and reads as it. -/
structure Settled (read : List Char → Except UriError Host) (host : Host) : Prop where
  framed : Framed host.text.toList
  reads : read host.text.toList = .ok host

/-- **Domain hosts are in normal form.** -/
theorem settled_readDomain {cs : List Char} {host : Host} (h : readDomain cs = .ok host) :
    Settled readDomain host := by
  rcases readDomain_cases h with ⟨groups, rfl, hlength, hgroups⟩ | ⟨n, rfl, hn⟩ |
    ⟨bs, domain, hdomain, hsome, hnumber, rfl⟩
  · exact ⟨framed_address6 groups, readDomain_address6 hlength hgroups⟩
  · exact ⟨(readDomain_address4 hn).1, (readDomain_address4 hn).2⟩
  · obtain ⟨labels, hne, hlabels, rfl⟩ := exists_labels hdomain
    have htext : (Host.name (String.ofList (Text.glue '.' labels))).text.toList =
        Text.glue '.' labels := String.toList_ofList
    constructor
    · rw [htext]
      exact (framed_labels hlabels).1
    · rw [htext, readDomain_labels hne hlabels hsome, hnumber]
      rfl

/-- A domain host has a text. -/
theorem Settled.text_ne_nil {host : Host} (h : Settled readDomain host) :
    host.text.toList ≠ [] := by
  intro hnil
  have hreads := h.reads
  have hdomain : domain? (Percent.unescape []) = some [] := by decide +kernel
  have hempty : readDomain [] = .error .emptyHost := by
    unfold readDomain
    rw [hdomain]
    rfl
  rw [hnil, hempty] at hreads
  cases hreads

/-! ## 4. Other hosts -/

theorem readOther_cases {cs : List Char} {host : Host} (h : readOther cs = .ok host) :
    (∃ groups, host = .address6 groups ∧ groups.length = 8 ∧ ∀ g ∈ groups, g < 65536) ∨
      host = .blank ∨
      cs ≠ [] ∧ (∀ c ∈ cs, delimiter c = false) ∧
        host = .name (String.ofList (Percent.escapeChars plainByte cs)) := by
  unfold readOther at h
  split at h
  next result hbracketed =>
    subst h
    exact .inl (exists_groups hbracketed)
  next =>
    right
    split at h
    next =>
      cases h
      exact .inl rfl
    next hne =>
      split at h
      next => cases h
      next hfree =>
        cases h
        rw [Bool.not_eq_true, List.any_eq_false] at hfree
        refine .inr ⟨?_, ?_, rfl⟩
        · rintro rfl
          exact hne rfl
        · intro c hc
          exact Bool.not_eq_true _ ▸ hfree c hc

theorem keepsCodes_plainByte : Percent.KeepsCodes plainByte :=
  Percent.keepsCodes_of (by decide +kernel)

/-- **Names of other hosts are in normal form.** -/
theorem settled_escaped {cs : List Char} (hne : cs ≠ []) (hfree : ∀ c ∈ cs, delimiter c = false) :
    Settled readOther (.name (String.ofList (Percent.escapeChars plainByte cs))) := by
  have htext : (Host.name (String.ofList (Percent.escapeChars plainByte cs))).text.toList =
      Percent.escapeChars plainByte cs := String.toList_ofList
  have hstands : ∀ n : Fin 128, Percent.stands plainByte (Char.ofNat n.val) = true →
      delimiter (Char.ofNat n.val) = false → isInner (Char.ofNat n.val) = true := by
    decide +kernel
  have hchar : ∀ c ∈ Percent.escapeChars plainByte cs,
      isInner c = true ∧ delimiter c = false := by
    intro c hc
    rcases Percent.mem_escapeChars hc with hcode | ⟨hmem, hmay⟩
    · obtain ⟨hinner, -, -, -, hdelimiter⟩ := isInner_of_isCode hcode
      exact ⟨hinner, hdelimiter⟩
    · have hascii : c.toNat < 0x80 := of_decide_eq_true (Bool.and_eq_true_iff.1 hmay).1
      exact ⟨forall_ascii (P := fun c => Percent.stands plainByte c = true →
        delimiter c = false → isInner c = true) hstands hascii hmay (hfree c hmem), hfree c hmem⟩
  -- escaping brings no delimiter in
  have hnot : ∀ {c}, delimiter c = true → c ∉ Percent.escapeChars plainByte cs := by
    intro c hc hmem
    rw [(hchar c hmem).2] at hc
    cases hc
  have hopen := hnot (c := '[') (by decide)
  constructor
  · rw [htext]
    exact ⟨fun c hc => (hchar c hc).1, .inl ⟨hnot (by decide), hopen⟩⟩
  · have hsome : (Percent.escapeChars plainByte cs).isEmpty = false := by
      rw [List.isEmpty_eq_false_iff]
      intro hnil
      apply hne
      exact Percent.eq_nil_of_escapeChars hnil
    have hany : (Percent.escapeChars plainByte cs).any delimiter = false := by
      rw [List.any_eq_false]
      intro c hc
      rw [(hchar c hc).2]
      decide
    rw [htext]
    unfold readOther
    rw [bracketed?_eq_none hopen]
    simp only [hsome, hany, Bool.false_eq_true, if_false]
    change Except.ok (Host.name (String.ofList
      (Percent.escapeChars plainByte (Percent.escapeChars plainByte cs)))) = _
    rw [Percent.escapeChars_escapeChars keepsCodes_plainByte]

/-- **Other hosts are in normal form.** -/
theorem settled_readOther {cs : List Char} {host : Host} (h : readOther cs = .ok host) :
    Settled readOther host := by
  rcases readOther_cases h with ⟨groups, rfl, hlength, hgroups⟩ | rfl | ⟨hne, hfree, rfl⟩
  · refine ⟨framed_address6 groups, ?_⟩
    unfold readOther
    rw [bracketed?_address6 hlength hgroups]
  · exact ⟨⟨nofun, .inl ⟨nofun, nofun⟩⟩, rfl⟩
  · exact settled_escaped hne hfree

/-- Only the blank host has no text. -/
theorem Settled.eq_blank {host : Host} (h : Settled readOther host)
    (hnil : host.text.toList = []) : host = .blank := by
  have hreads := h.reads
  rw [hnil] at hreads
  cases hreads
  rfl

end Host

end Intake.Uri
