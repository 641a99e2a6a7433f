import Intake.Proofs.Authorities
import Intake.Proofs.Steps

/-!
# NormalForm — URIs that read as themselves

What a text spells has its scheme in lower case, everything escaped and its dot steps resolved.  It
reads as itself, with one exception: a local file at a foreign host, with a drive in front of its
path, reads without the host.  So a hierarchical URI reads as itself exactly if it is in normal
form.  The URI of a local file is, unless its path goes up: the steps up are kept when the URI is
built, and resolved when it is read.
-/

namespace Intake.Uri

/-! ## 1. Schemes -/

def isSchemeChar (c : Char) : Bool := c.isAlphanum || c == '+' || c == '-' || c == '.'

theorem lt_of_isSchemeChar {c : Char} (h : isSchemeChar c = true) : c.toNat < 0x80 := by
  unfold isSchemeChar Char.isAlphanum at h
  simp only [Bool.or_eq_true, beq_iff_eq] at h
  rcases h with (((h | h) | rfl) | rfl) | rfl
  · exact lt_of_isAlpha h
  · exact lt_of_isDigit h
  · decide
  · decide
  · decide

structure IsScheme (s : String) : Prop where
  letter : ∀ c ∈ s.toList.head?, c.isAlpha = true
  nonempty : s.toList ≠ []
  chars : ∀ c ∈ s.toList, isSchemeChar c = true
  lower : s.toList.map Char.toLower = s.toList

theorem scheme?_eq_some_iff {cs rest : List Char} {s : String} :
    scheme? cs = some (s, rest) ↔ ∃ c name, cs.takeWhile isSchemeChar = c :: name ∧
      cs.drop (name.length + 1) = ':' :: rest ∧ c.isAlpha = true ∧
      s = String.ofList ((c :: name).map Char.toLower) := by
  have hname : cs.takeWhile (fun c => c.isAlphanum || c == '+' || c == '-' || c == '.') =
      cs.takeWhile isSchemeChar := rfl
  unfold scheme?
  dsimp only
  rw [hname]
  constructor
  · intro h
    split at h
    next c name _ hcs hdrop =>
      split at h
      next halpha =>
        cases h
        rw [hcs] at hdrop
        exact ⟨c, name, hcs, hdrop, halpha, by rw [hcs]⟩
      next => cases h
    next => cases h
  · rintro ⟨c, name, hcs, hdrop, halpha, rfl⟩
    rw [hcs, List.length_cons, hdrop]
    exact if_pos halpha

/-- **Reading a scheme brings it into normal form.** -/
theorem isScheme_of_scheme? {cs rest : List Char} {s : String} (h : scheme? cs = some (s, rest)) :
    IsScheme s := by
  -- lower case is settled for all of ASCII at once
  have hall : ∀ n : Fin 128, isSchemeChar (Char.ofNat n.val) = true →
      isSchemeChar (Char.ofNat n.val).toLower = true ∧
        (Char.ofNat n.val).toLower.toLower = (Char.ofNat n.val).toLower ∧
        ((Char.ofNat n.val).isAlpha = true → (Char.ofNat n.val).toLower.isAlpha = true) := by
    decide +kernel
  have hchar : ∀ {c : Char}, isSchemeChar c = true → isSchemeChar c.toLower = true ∧
      c.toLower.toLower = c.toLower ∧ (c.isAlpha = true → c.toLower.isAlpha = true) := by
    intro c hc
    exact forall_ascii (P := fun c => isSchemeChar c = true → isSchemeChar c.toLower = true ∧
      c.toLower.toLower = c.toLower ∧ (c.isAlpha = true → c.toLower.isAlpha = true))
      hall (lt_of_isSchemeChar hc) hc
  obtain ⟨c, name, hcs, -, halpha, rfl⟩ := scheme?_eq_some_iff.1 h
  have hname : ∀ d ∈ c :: name, isSchemeChar d = true := by
    rw [← hcs]
    exact List.all_eq_true.1 List.all_takeWhile
  have hc := hname c List.mem_cons_self
  constructor
  · intro d hd
    rw [String.toList_ofList, List.map_cons, List.head?_cons] at hd
    rw [← Option.some.inj hd]
    exact (hchar hc).2.2 halpha
  · rw [String.toList_ofList]
    exact List.cons_ne_nil _ _
  · intro d hd
    rw [String.toList_ofList] at hd
    obtain ⟨e, he, rfl⟩ := List.mem_map.1 hd
    exact (hchar (hname e he)).1
  · rw [String.toList_ofList, List.map_map]
    apply List.map_congr_left
    intro d hd
    exact (hchar (hname d hd)).2.1

/-- **A scheme in normal form reads as itself,** up to the colon. -/
theorem IsScheme.scheme?_eq {s : String} (h : IsScheme s) (rest : List Char) :
    scheme? (s.toList ++ ':' :: rest) = some (s, rest) := by
  have hname : (s.toList ++ ':' :: rest).takeWhile isSchemeChar = s.toList := by
    apply Text.takeWhile_run h.chars
    intro c hc
    rw [← Option.some.inj hc]
    decide
  obtain ⟨c, name, hs⟩ := List.exists_cons_of_ne_nil h.nonempty
  rw [scheme?_eq_some_iff, hname]
  refine ⟨c, name, hs, ?_, ?_, ?_⟩
  · rw [hs]
    exact List.drop_left
  · apply h.letter
    rw [hs]
    rfl
  · rw [← hs, h.lower, String.ofList_toList]

theorem isScheme_file : IsScheme "file" := by
  refine ⟨?_, by decide, forall_mem_of_all (by decide), by decide⟩
  intro c hc
  rw [← Option.some.inj hc]
  decide

/-! ## 2. Normal form -/

/-- The authority of a local file: none, or a host that is not this machine. -/
inductive IsLocal : Authority → Prop
  | here : IsLocal .none
  | host {host : Host} (settled : Host.Settled Host.readDomain host)
      (foreign : host ≠ .name "localhost") : IsLocal ⟨"", none, host, none⟩

def Admits (scheme : String) : Kind → Option Authority → Prop
  | .file, some a => IsLocal a
  | .special, some a => a.Normal scheme .special
  | .other, some a => a.Normal scheme .other
  | .other, none => True
  | _, none => False

/-- **A URI as it is written,** with a hierarchical path: nothing stands in it that is to be
    escaped. -/
structure Written (u : Uri) : Prop where
  scheme : IsScheme u.scheme
  authority : Admits u.scheme (kindOf u.scheme) u.authority
  path : ∃ path, u.path.toList = '/' :: path ∧ ∀ c ∈ path, Percent.stands pathByte c = true
  tail : TailStands (kindOf u.scheme) u.query u.fragment

structure Spelled (u : Uri) : Prop extends Written u where
  resolved : ∀ path, u.path.toList = '/' :: path → Resolved (kindOf u.scheme) path

theorem Spelled.of_resolved {u : Uri} (scheme : IsScheme u.scheme)
    (authority : Admits u.scheme (kindOf u.scheme) u.authority) {path : List Char}
    (hpath : u.path.toList = '/' :: path) (hresolved : Resolved (kindOf u.scheme) path)
    (tail : TailStands (kindOf u.scheme) u.query u.fragment) : u.Spelled := by
  refine ⟨⟨scheme, authority, ⟨path, hpath, fun c => hresolved.stands⟩, tail⟩, ?_⟩
  intro path' hpath'
  rw [hpath] at hpath'
  rw [← (List.cons.inj hpath').2]
  exact hresolved

/-- **A drive at a host:** a local file at a foreign host, with a drive in front of its path.  Only
    a text with more slashes than one between the two spells it. -/
def HostedDrive (u : Uri) : Prop :=
  u.isFile = true ∧ u.isHere = false ∧
    ∃ path, u.path.toList = '/' :: path ∧ startsWithDrive path = true

structure Normal (u : Uri) : Prop extends Spelled u where
  hostless : ¬u.HostedDrive

def tailText (u : Uri) : List Char := marked '?' u.query ++ marked '#' u.fragment

theorem toList_text (u : Uri) :
    u.text.toList =
      u.scheme.toList ++ ':' :: (u.middle.toList ++ (u.path.toList ++ u.tailText)) := by
  rcases u with ⟨scheme, authority, path, query, fragment⟩
  unfold text tailText
  cases query <;> cases fragment <;> simp [marked]

/-! ## 3. Paths and tails -/

theorem segments?_isSome_iff {u : Uri} :
    u.segments?.isSome = true ↔ ∃ path, u.path.toList = '/' :: path := by
  unfold segments?
  constructor
  · intro h
    split at h
    next path hpath => exact ⟨path, hpath⟩
    next => cases h
  · rintro ⟨path, hpath⟩
    rw [hpath]
    rfl

theorem mem_head?_tail {query fragment : Option String} {c : Char}
    (h : c ∈ (marked '?' query ++ marked '#' fragment).head?) : c = '?' ∨ c = '#' := by
  cases query with
  | none => exact .inr (mem_head?_marked h)
  | some q => exact .inl (Option.some.inj h).symm

/-- A path that is escaped ends where the tail starts. -/
theorem splitTail_append {path : List Char} (h : ∀ c ∈ path, Percent.stands pathByte c = true)
    (query fragment : Option String) :
    splitTail (path ++ (marked '?' query ++ marked '#' fragment)) =
      (path, marked '?' query ++ marked '#' fragment) := by
  apply Text.span_run
  · intro c hc
    have hall : ∀ n : Fin 128, Percent.stands pathByte (Char.ofNat n.val) = true →
        (Char.ofNat n.val != '?' && Char.ofNat n.val != '#') = true := by
      decide +kernel
    exact forall_ascii (P := fun c => Percent.stands pathByte c = true →
      (c != '?' && c != '#') = true) hall (of_decide_eq_true (Bool.and_eq_true_iff.1 (h c hc)).1)
      (h c hc)
  · intro c hc
    rcases mem_head?_tail hc with rfl | rfl <;> decide

theorem resolved_of_hierarchy {k : Kind} {cs path : List Char}
    (h : (hierarchy k cs).toList = '/' :: path) : Resolved k path := by
  obtain ⟨resolved, heq, hresolved⟩ := exists_hierarchy k cs
  rw [heq, String.toList_ofList] at h
  rw [← (List.cons.inj h).2]
  exact hresolved

/-- The path behind an authority is a hierarchy, if there is one. -/
theorem exists_pathAfter {k : Kind} {cs path : List Char}
    (h : (pathAfter k cs).toList = '/' :: path) : Resolved k path := by
  unfold pathAfter at h
  split at h
  next => cases h
  next => exact resolved_of_hierarchy h

theorem Resolved.pathAfter_eq {k : Kind} (hk : k ≠ .file) {path : List Char} (h : Resolved k path) :
    pathAfter k ('/' :: path) = String.ofList ('/' :: path) := by
  have hslash : k.isSlash '/' = true := rfl
  have hdrop : k.dropSlash ('/' :: path) = path := by
    unfold Kind.dropSlash
    exact if_pos hslash
  unfold pathAfter
  rw [List.isEmpty_cons, Bool.and_false, if_neg Bool.false_ne_true, hdrop]
  exact h.hierarchy_eq fun hfile => absurd hfile hk

theorem stands_slash {path : List Char} (h : ∀ c ∈ path, Percent.stands pathByte c = true) :
    ∀ c ∈ '/' :: path, Percent.stands pathByte c = true := by
  intro c hc
  rcases List.mem_cons.1 hc with rfl | hc
  · decide
  · exact h c hc

theorem Resolved.stands_slash {k : Kind} {path : List Char} (h : Resolved k path) :
    ∀ c ∈ '/' :: path, Percent.stands pathByte c = true :=
  Uri.stands_slash fun _ => h.stands

def behind (scheme : String) (k : Kind) (a : Authority) (rest : List Char) : Uri :=
  ⟨scheme, some a, pathAfter k (splitTail rest).1, (readTail k (splitTail rest).2).1,
    (readTail k (splitTail rest).2).2⟩

/-- **Path and tail in normal form read as themselves.** -/
theorem behind_text (scheme : String) {k : Kind} (hk : k ≠ .file) (a : Authority)
    {path : List Char} (hpath : Resolved k path) {query fragment : Option String}
    (htail : TailStands k query fragment) :
    behind scheme k a ('/' :: path ++ (marked '?' query ++ marked '#' fragment)) =
      ⟨scheme, some a, String.ofList ('/' :: path), query, fragment⟩ := by
  unfold behind
  rw [splitTail_append hpath.stands_slash, htail.readTail_eq, hpath.pathAfter_eq hk]

theorem spelled_behind {scheme : String} {a : Authority} (hscheme : IsScheme scheme)
    (ha : Admits scheme (kindOf scheme) (some a)) {rest : List Char}
    (h : (behind scheme (kindOf scheme) a rest).segments?.isSome = true) :
    (behind scheme (kindOf scheme) a rest).Spelled := by
  obtain ⟨path, hpath⟩ := segments?_isSome_iff.1 h
  exact .of_resolved hscheme ha hpath (exists_pathAfter hpath) (tailStands_readTail _ _)

/-! ## 4. Texts with an authority -/

def Kind.inAuthority (k : Kind) (c : Char) : Bool := !(k.isSlash c || c == '?' || c == '#')

theorem inAuthority_of_isInner {k : Kind} {c : Char} (h : isInner c = true ∨ c = '@') :
    k.inAuthority c = true := by
  have hne : c ≠ '/' ∧ c ≠ '\\' ∧ c ≠ '?' ∧ c ≠ '#' := by
    rcases h with h | rfl
    · refine ⟨?_, ?_, ?_, ?_⟩ <;>
      · rintro rfl
        exact absurd h (by decide)
    · decide
  unfold Kind.inAuthority Kind.isSlash
  simp [hne]

/-- An authority ends at the slash of the path. -/
theorem takeWhile_inAuthority {k : Kind} {authority : List Char}
    (h : ∀ c ∈ authority, isInner c = true ∨ c = '@') (rest : List Char) :
    (authority ++ '/' :: rest).takeWhile k.inAuthority = authority := by
  apply Text.takeWhile_run
  · exact fun c hc => inAuthority_of_isInner (h c hc)
  · intro c hc
    rw [← Option.some.inj hc]
    cases k <;> rfl

theorem readNet_eq (scheme : String) (k : Kind) (cs : List Char) :
    readNet scheme k cs =
      (readAuthority scheme k (cs.takeWhile k.inAuthority)).map fun a =>
        behind scheme k a (cs.drop (cs.takeWhile k.inAuthority).length) := by
  unfold readNet
  change (readAuthority scheme k (cs.takeWhile k.inAuthority) >>= _) = _
  cases readAuthority scheme k (cs.takeWhile k.inAuthority) <;> rfl

/-- **A text with an authority in normal form** reads as what it spells. -/
theorem readNet_text {scheme : String} {k : Kind} {a : Authority} (ha : a.Normal scheme k)
    (rest : List Char) :
    readNet scheme k (a.text.toList ++ '/' :: rest) = .ok (behind scheme k a ('/' :: rest)) := by
  rw [readNet_eq, takeWhile_inAuthority fun c hc => ha.mem_text hc, ha.readAuthority_text,
    List.drop_left]
  rfl

theorem exists_of_readNet {scheme : String} {k : Kind} {cs : List Char} {u : Uri}
    (h : readNet scheme k cs = .ok u) :
    ∃ a rest, a.Normal scheme k ∧ u = behind scheme k a rest := by
  rw [readNet_eq] at h
  cases hread : readAuthority scheme k (cs.takeWhile k.inAuthority) with
  | error cause =>
    rw [hread] at h
    cases h
  | ok a =>
    rw [hread] at h
    exact ⟨a, _, normal_of_readAuthority hread, (Except.ok.inj h).symm⟩

/-! ## 5. Texts of local files -/

theorem isLocal_of_readFileHost {cs : List Char} {a : Authority} (h : readFileHost cs = .ok a) :
    IsLocal a := by
  unfold readFileHost at h
  split at h
  next =>
    cases h
    exact .here
  next =>
    cases hread : Host.readDomain cs with
    | error cause =>
      rw [hread] at h
      cases h
    | ok host =>
      rw [hread] at h
      change Except.ok _ = _ at h
      split at h
      next =>
        cases h
        exact .here
      next hforeign =>
        cases h
        refine .host (Host.settled_readDomain hread) ?_
        rintro rfl
        exact hforeign rfl

theorem toList_text_here : Authority.none.text.toList = [] := by
  simp [Authority.none, Authority.text, Host.text]

theorem toList_text_host (host : Host) :
    (Authority.text ⟨"", none, host, none⟩).toList = host.text.toList := by
  simp [Authority.text]

/-- The host of a local file, as it stands in the text. -/
theorem IsLocal.framed {a : Authority} (h : IsLocal a) : Framed a.text.toList := by
  cases h with
  | here =>
    rw [toList_text_here]
    exact ⟨nofun, .inl ⟨nofun, nofun⟩⟩
  | host settled foreign =>
    rw [toList_text_host]
    exact settled.framed

theorem IsLocal.readFileHost_text {a : Authority} (h : IsLocal a) :
    readFileHost a.text.toList = .ok a := by
  cases h with
  | here =>
    rw [toList_text_here]
    rfl
  | @host host settled foreign =>
    have hsome : host.text.toList.isEmpty = false :=
      List.isEmpty_eq_false_iff.2 settled.text_ne_nil
    have hforeign : (host == .name "localhost") = false := beq_eq_false_iff_ne.2 foreign
    unfold readFileHost
    rw [toList_text_host, hsome, settled.reads]
    change (Except.ok (if host == .name "localhost" then _ else _) : Except UriError _) = _
    rw [hforeign]
    rfl

/-- A host is no drive: it holds a colon in brackets only, and no bar. -/
theorem isDrive_of_framed {cs : List Char} (h : Framed cs) : isDrive cs = false := by
  rw [← Bool.not_eq_true, isDrive_iff]
  rintro ⟨letter, mark, rfl, hletter, rfl | rfl⟩
  · rcases h.frame with ⟨hcolon, -⟩ | ⟨address, hframe, -⟩
    · exact hcolon (by simp)
    · rw [(List.cons.inj hframe).1] at hletter
      exact absurd hletter (by decide)
  · exact absurd (h.inner '|' (by simp)) (by decide)

/-- A local file has no host, or a foreign one. -/
theorem IsLocal.eq_none_or {a : Authority} (h : IsLocal a) :
    a = .none ∨ a ≠ .none ∧ (a.host == .blank || a.host == .name "localhost") = false := by
  cases h with
  | here => exact .inl rfl
  | @host host settled foreign =>
    have hblank : host ≠ .blank := by
      rintro rfl
      exact settled.text_ne_nil rfl
    refine .inr ⟨fun hnone => hblank (congrArg Authority.host hnone), ?_⟩
    rw [Bool.or_eq_false_iff, beq_eq_false_iff_ne, beq_eq_false_iff_ne]
    exact ⟨hblank, foreign⟩

theorem fileAt_eq (a : Authority) (cs : List Char) :
    fileAt a cs =
      ⟨"file", some (if (stepsOf .file (splitTail cs).1).head?.any isDrive then .none else a),
        hierarchy .file (splitTail cs).1, (readTail .file (splitTail cs).2).1,
        (readTail .file (splitTail cs).2).2⟩ := rfl

theorem spelled_fileAt {a : Authority} (h : IsLocal a) (cs : List Char) :
    (fileAt a cs).Spelled := by
  obtain ⟨path, hpath, hresolved⟩ := exists_hierarchy .file (splitTail cs).1
  have hlocal :
      IsLocal (if (stepsOf .file (splitTail cs).1).head?.any isDrive then .none else a) := by
    split
    next => exact .here
    next => exact h
  have hlist : (fileAt a cs).path.toList = '/' :: path := by
    rw [fileAt_eq, hpath, String.toList_ofList]
  exact .of_resolved isScheme_file hlocal hlist hresolved (tailStands_readTail _ _)

def atHost (host rest : List Char) : Except UriError Uri :=
  if isDrive host then .ok (fileAt .none rest)
  else (readFileHost host).map fun a =>
    fileAt a (if a == .none then rest.drop host.length
      else Kind.file.dropSlash (rest.drop host.length))

theorem readFile_slashes {c d : Char} (hc : Kind.file.isSlash c = true)
    (hd : Kind.file.isSlash d = true) (rest : List Char) :
    readFile (c :: d :: rest) = atHost (rest.takeWhile Kind.file.inAuthority) rest := by
  have hsame : rest.takeWhile Kind.file.inAuthority =
      rest.takeWhile fun c => !(Kind.file.isSlash c || c == '?' || c == '#') := rfl
  rw [hsame]
  unfold readFile atHost
  simp only [hc, hd, Bool.and_true, if_true]
  generalize rest.takeWhile (fun c => !(Kind.file.isSlash c || c == '?' || c == '#')) = host
  cases isDrive host with
  | true => rfl
  | false => cases readFileHost host <;> rfl

theorem readFile_of_not_slashes {cs : List Char}
    (h : ∀ c d rest, cs = c :: d :: rest →
      (Kind.file.isSlash c && Kind.file.isSlash d) = false) :
    readFile cs = .ok (fileAt .none (Kind.file.dropSlash cs)) := by
  unfold readFile
  split
  next c d rest =>
    rw [h c d rest rfl]
    rfl
  next => rfl

theorem exists_of_readFile {cs : List Char} {u : Uri} (h : readFile cs = .ok u) :
    ∃ a rest, IsLocal a ∧ u = fileAt a rest := by
  by_cases hslashes : ∃ c d rest, cs = c :: d :: rest ∧
      (Kind.file.isSlash c && Kind.file.isSlash d) = true
  · obtain ⟨c, d, rest, rfl, hboth⟩ := hslashes
    obtain ⟨hc, hd⟩ := Bool.and_eq_true_iff.1 hboth
    rw [readFile_slashes hc hd] at h
    unfold atHost at h
    split at h
    next =>
      cases h
      exact ⟨_, _, .here, rfl⟩
    next =>
      cases hread : readFileHost (rest.takeWhile Kind.file.inAuthority) with
      | error cause =>
        rw [hread] at h
        cases h
      | ok a =>
        rw [hread] at h
        cases h
        exact ⟨a, _, isLocal_of_readFileHost hread, rfl⟩
  · have hnot : ∀ c d rest, cs = c :: d :: rest →
        (Kind.file.isSlash c && Kind.file.isSlash d) = false := by
      intro c d rest hcs
      rw [← Bool.not_eq_true]
      exact fun hboth => hslashes ⟨c, d, rest, hcs, hboth⟩
    rw [readFile_of_not_slashes hnot] at h
    cases h
    exact ⟨_, _, .here, rfl⟩

theorem readFile_text {a : Authority} (h : IsLocal a) (rest : List Char) :
    readFile ('/' :: '/' :: (a.text.toList ++ '/' :: rest)) =
      .ok (fileAt a (if a == .none then '/' :: rest else rest)) := by
  have hhost : (a.text.toList ++ '/' :: rest).takeWhile Kind.file.inAuthority = a.text.toList :=
    takeWhile_inAuthority (fun c hc => .inl (h.framed.inner c hc)) rest
  rw [readFile_slashes (by decide) (by decide), hhost]
  unfold atHost
  rw [isDrive_of_framed h.framed, h.readFileHost_text, List.drop_left]
  rfl

/-- **A local file without a host** reads as it is written. -/
theorem fileAt_slash {path : List Char} (hpath : Resolved .file path)
    {query fragment : Option String} (htail : TailStands .file query fragment) :
    fileAt .none ('/' :: path ++ (marked '?' query ++ marked '#' fragment)) =
      ⟨"file", some .none, String.ofList ('/' :: path), query, fragment⟩ := by
  rw [fileAt_eq, splitTail_append hpath.stands_slash, htail.readTail_eq, hpath.hierarchy_slash,
    ite_self]

example : (Uri.parse "file:///c|/x").toOption.map text = some "file:///c|/x" := by decide +kernel

/-- **A local file at a host** reads as it is written, without a drive in front. -/
theorem fileAt_host (a : Authority) {path : List Char} (hpath : Resolved .file path)
    (hdrive : startsWithDrive path = false) {query fragment : Option String}
    (htail : TailStands .file query fragment) :
    fileAt a (path ++ (marked '?' query ++ marked '#' fragment)) =
      ⟨"file", some a, String.ofList ('/' :: path), query, fragment⟩ := by
  have hhead : (stepsOf .file path).head?.any isDrive = false := by
    rw [hpath.stepsOf_eq fun _ => hdrive]
    exact hdrive
  rw [fileAt_eq, splitTail_append fun c => hpath.stands, htail.readTail_eq,
    hpath.hierarchy_eq fun _ => hdrive, hhead]
  rfl

/-- **In front of a drive** the host does not count. -/
theorem fileAt_drive (a : Authority) {path : List Char} (hpath : Resolved .file path)
    (hdrive : startsWithDrive path = true) (query fragment : Option String) :
    (fileAt a (path ++ (marked '?' query ++ marked '#' fragment))).authority = some .none := by
  rw [fileAt_eq, splitTail_append fun c => hpath.stands, hpath.isDrive_stepsOf hdrive]
  rfl

/-! ## 6. Texts without an authority -/

def bare (scheme : String) (cs : List Char) : Uri :=
  let path := match (splitTail cs).1 with
    | '/' :: steps => hierarchy .other steps
    | free => String.ofList (Percent.escapeChars plainByte free)
  ⟨scheme, none, path, (readTail .other (splitTail cs).2).1, (readTail .other (splitTail cs).2).2⟩

theorem readOtherScheme_slashes (scheme : String) (rest : List Char) :
    readOtherScheme scheme ('/' :: '/' :: rest) = readNet scheme .other rest := rfl

theorem readOtherScheme_of_not_slashes (scheme : String) {cs : List Char}
    (h : ∀ rest, cs ≠ '/' :: '/' :: rest) : readOtherScheme scheme cs = .ok (bare scheme cs) := by
  unfold readOtherScheme
  split
  next rest => exact absurd rfl (h rest)
  next => rfl

/-- Free text is no hierarchy. -/
theorem Resolved.of_bare {scheme : String} {cs path : List Char}
    (h : (bare scheme cs).path.toList = '/' :: path) : Resolved .other path := by
  unfold bare at h
  dsimp only at h
  split at h
  next => exact resolved_of_hierarchy h
  next hfree =>
    rw [String.toList_ofList] at h
    cases hcs : (splitTail cs).1 with
    | nil =>
      rw [hcs] at h
      cases h
    | cons c rest =>
      rw [hcs] at h
      cases hc : Percent.stands plainByte c with
      | true =>
        rw [Percent.escapeChars_cons_of_stands hc] at h
        rw [(List.cons.inj h).1] at hcs
        exact absurd hcs (hfree rest)
      | false =>
        obtain ⟨coded, hcoded⟩ := Percent.exists_escapeChars_cons hc rest
        rw [hcoded] at h
        cases h

/-- **A path without an authority** reads as itself, behind a mark if it needs one. -/
theorem bare_text (scheme : String) {steps path : List Char} (hpath : Resolved .other path)
    (hsteps : hierarchy .other steps = hierarchy .other path)
    (hstands : ∀ c ∈ steps, Percent.stands pathByte c = true) {query fragment : Option String}
    (htail : TailStands .other query fragment) :
    bare scheme ('/' :: steps ++ (marked '?' query ++ marked '#' fragment)) =
      ⟨scheme, none, String.ofList ('/' :: path), query, fragment⟩ := by
  have hall : ∀ c ∈ '/' :: steps, Percent.stands pathByte c = true := by
    intro c hc
    rcases List.mem_cons.1 hc with rfl | hc
    · decide
    · exact hstands c hc
  unfold bare
  rw [splitTail_append hall, htail.readTail_eq]
  change (⟨scheme, none, hierarchy .other steps, query, fragment⟩ : Uri) = _
  rw [hsteps, hpath.hierarchy_eq nofun]

/-! ## 7. Whole texts -/

/-- Text without blanks and controls is not stripped. -/
theorem strip_eq {cs : List Char} (h : ∀ c ∈ cs, 0x20 < c.toNat) : strip cs = cs := by
  have hblank : ∀ cs : List Char, (∀ c ∈ cs, 0x20 < c.toNat) →
      cs.dropWhile (fun c => decide (c.toNat ≤ 0x20)) = cs := by
    intro cs hcs
    cases cs with
    | nil => rfl
    | cons c cs =>
      have hc := hcs c List.mem_cons_self
      rw [List.dropWhile_cons_of_neg]
      simp only [decide_eq_true_eq]
      omega
  have hreverse : ∀ c ∈ cs.reverse, 0x20 < c.toNat := fun c hc => h c (List.mem_reverse.1 hc)
  unfold strip
  dsimp only
  rw [hblank cs h, hblank cs.reverse hreverse, List.reverse_reverse, List.filter_eq_self]
  intro c hc
  have hvisible := h c hc
  simp only [Bool.and_eq_true, bne_iff_ne, ne_eq]
  refine ⟨⟨?_, ?_⟩, ?_⟩ <;>
  · rintro rfl
    exact absurd hvisible (by decide)

theorem visible_of_stands {mayStand : UInt8 → Bool}
    (hmay : ∀ n : Fin 128, Percent.stands mayStand (Char.ofNat n.val) = true →
      0x20 < (Char.ofNat n.val).toNat) {c : Char} (h : Percent.stands mayStand c = true) :
    0x20 < c.toNat :=
  forall_ascii (P := fun c => Percent.stands mayStand c = true → 0x20 < c.toNat) hmay
    (of_decide_eq_true (Bool.and_eq_true_iff.1 h).1) h

theorem visible_of_isInner {c : Char} (h : isInner c = true ∨ c = '@') : 0x20 < c.toNat := by
  rcases h with h | rfl
  · exact of_decide_eq_true (Bool.and_eq_true_iff.1 h).1
  · decide

theorem visible_tail {k : Kind} {query fragment : Option String}
    (h : TailStands k query fragment) :
    ∀ c ∈ marked '?' query ++ marked '#' fragment, 0x20 < c.toNat := by
  intro c hc
  rcases List.mem_append.1 hc with hc | hc
  · cases query with
    | none => cases hc
    | some q =>
      rcases List.mem_cons.1 hc with rfl | hc
      · decide
      · refine visible_of_stands ?_ (h.query q rfl c hc)
        cases k <;> decide +kernel
  · cases fragment with
    | none => cases hc
    | some f =>
      rcases List.mem_cons.1 hc with rfl | hc
      · decide
      · exact visible_of_stands (by decide +kernel) (h.fragment f rfl c hc)

theorem visible_middle {u : Uri} (h : u.Written) : ∀ c ∈ u.middle.toList, 0x20 < c.toNat := by
  intro c hc
  unfold middle at hc
  have ha := h.authority
  cases hauthority : u.authority with
  | none =>
    rw [hauthority] at hc
    dsimp only at hc
    split at hc
    next =>
      have hmark : ∀ c ∈ "/.".toList, 0x20 < c.toNat := forall_mem_of_all (by decide)
      exact hmark c hc
    next => cases hc
  | some a =>
    rw [hauthority, String.toList_append] at hc
    rw [hauthority] at ha
    have hslashes : ∀ c ∈ "//".toList, 0x20 < c.toNat := forall_mem_of_all (by decide)
    rcases List.mem_append.1 hc with hc | hc
    · exact hslashes c hc
    -- the kind of the scheme says which characters an authority may have
    · apply visible_of_isInner
      cases hk : kindOf u.scheme with
      | file =>
        rw [hk] at ha
        exact .inl (IsLocal.framed ha |>.inner c hc)
      | special =>
        rw [hk] at ha
        exact Authority.Normal.mem_text ha hc
      | other =>
        rw [hk] at ha
        exact Authority.Normal.mem_text ha hc

theorem visible_text {u : Uri} (h : u.Written) : ∀ c ∈ u.text.toList, 0x20 < c.toNat := by
  obtain ⟨path, hpath, hstands⟩ := h.path
  have hscheme : ∀ n : Fin 128, isSchemeChar (Char.ofNat n.val) = true →
      0x20 < (Char.ofNat n.val).toNat := by
    decide +kernel
  intro c hc
  rw [toList_text] at hc
  rcases List.mem_append.1 hc with hc | hc
  · have hchar := h.scheme.chars c hc
    exact forall_ascii (P := fun c => isSchemeChar c = true → 0x20 < c.toNat) hscheme
      (lt_of_isSchemeChar hchar) hchar
  · rcases List.mem_cons.1 hc with rfl | hc
    · decide
    · rcases List.mem_append.1 hc with hc | hc
      · exact visible_middle h c hc
      · rcases List.mem_append.1 hc with hc | hc
        · rw [hpath] at hc
          exact visible_of_stands (by decide +kernel) (stands_slash hstands c hc)
        · exact visible_tail h.tail c hc

theorem eq_file_of_kindOf {scheme : String} (h : kindOf scheme = .file) : scheme = "file" := by
  unfold kindOf at h
  split at h
  next hfile => exact beq_iff_eq.1 hfile
  next => split at h <;> cases h

theorem spelled_of_readNet {scheme : String} (hscheme : IsScheme scheme)
    (hk : kindOf scheme ≠ .file) {cs : List Char} {u : Uri}
    (h : readNet scheme (kindOf scheme) cs = .ok u) (hpath : u.segments?.isSome = true) :
    u.Spelled := by
  obtain ⟨a, rest, ha, rfl⟩ := exists_of_readNet h
  refine spelled_behind hscheme ?_ hpath
  revert ha hk
  cases kindOf scheme with
  | file => exact fun hk _ => absurd rfl hk
  | special => exact fun _ ha => ha
  | other => exact fun _ ha => ha

theorem spelled_of_parse {text : String} {u : Uri} (h : Uri.parse text = .ok u)
    (hpath : u.segments?.isSome = true) : u.Spelled := by
  unfold Uri.parse at h
  split at h
  next => cases h
  next scheme rest hscheme =>
    have hs := isScheme_of_scheme? hscheme
    split at h
    next hk =>
      have hfile := eq_file_of_kindOf hk
      subst hfile
      obtain ⟨a, rest, ha, rfl⟩ := exists_of_readFile h
      exact spelled_fileAt ha rest
    next hk =>
      rw [← hk] at h
      exact spelled_of_readNet hs (by rw [hk]; nofun) h hpath
    next hk =>
      -- two slashes announce an authority, whatever the scheme
      by_cases hslashes : ∃ authority, rest = '/' :: '/' :: authority
      · obtain ⟨authority, rfl⟩ := hslashes
        rw [readOtherScheme_slashes, ← hk] at h
        exact spelled_of_readNet hs (by rw [hk]; nofun) h hpath
      · have hnot : ∀ authority, rest ≠ '/' :: '/' :: authority :=
          fun authority hrest => hslashes ⟨authority, hrest⟩
        rw [readOtherScheme_of_not_slashes scheme hnot] at h
        cases h
        obtain ⟨path, hbare⟩ := segments?_isSome_iff.1 hpath
        have hadmits : Admits scheme (kindOf scheme) none := by
          rw [hk]
          trivial
        have hresolved : Resolved (kindOf scheme) path := by
          rw [hk]
          exact Resolved.of_bare hbare
        have htail : TailStands (kindOf scheme) (bare scheme rest).query
            (bare scheme rest).fragment := by
          rw [hk]
          exact tailStands_readTail _ _
        exact .of_resolved hs hadmits hbare hresolved htail

/-- A URI in normal form without an authority reads as itself behind its scheme. -/
theorem readOtherScheme_text {scheme : String} {path : List Char} (hpath : Resolved .other path)
    {query fragment : Option String} (htail : TailStands .other query fragment) :
    readOtherScheme scheme
        ((middle ⟨scheme, none, String.ofList ('/' :: path), query, fragment⟩).toList ++
          ('/' :: path ++ (marked '?' query ++ marked '#' fragment))) =
      .ok ⟨scheme, none, String.ofList ('/' :: path), query, fragment⟩ := by
  unfold middle
  dsimp only
  by_cases hslashes : (String.ofList ('/' :: path)).startsWith "//" = true
  · rw [if_pos hslashes]
    -- the mark is a step that stays
    have hstands : ∀ c ∈ '.' :: '/' :: path, Percent.stands pathByte c = true := by
      intro c hc
      rcases List.mem_cons.1 hc with rfl | hc
      · decide
      · exact hpath.stands_slash c hc
    have hread := bare_text scheme hpath (hierarchy_mark .other path) hstands htail
    change readOtherScheme scheme ('/' :: '.' :: '/' :: path ++ _) = _
    rw [readOtherScheme_of_not_slashes scheme, hread]
    intro rest hrest
    cases hrest
  · rw [if_neg hslashes]
    have hread := bare_text scheme hpath rfl (fun c => hpath.stands) htail
    change readOtherScheme scheme ('/' :: path ++ _) = _
    rw [readOtherScheme_of_not_slashes scheme, hread]
    intro rest hrest
    have hnext := (List.cons.inj hrest).2
    cases path with
    | nil =>
      have hhead : '/' ∈ (marked '?' query ++ marked '#' fragment).head? := by
        rw [show marked '?' query ++ marked '#' fragment = '/' :: rest from hnext]
        rfl
      rcases mem_head?_tail hhead with h | h <;> cases h
    | cons c path =>
      rw [(List.cons.inj hnext).1] at hslashes
      apply hslashes
      rw [String.startsWith_string_iff]
      exact ⟨path, String.toList_ofList.symm⟩

theorem middle_some {u : Uri} {a : Authority} (h : u.authority = some a) :
    u.middle.toList = '/' :: '/' :: a.text.toList := by
  unfold middle
  rw [h]
  simp

/-- All slashes in front of a domain are dropped. -/
theorem dropWhile_slashes {scheme : String} {a : Authority} (h : a.Normal scheme .special)
    (rest : List Char) :
    ('/' :: '/' :: a.text.toList ++ rest).dropWhile Kind.special.isSlash =
      a.text.toList ++ rest := by
  have hslashes : ∀ c ∈ ['/', '/'], Kind.special.isSlash c = true :=
    forall_mem_of_all (by decide)
  apply Text.dropWhile_run hslashes
  intro c hc
  cases htext : a.text.toList with
  | nil => exact absurd htext h.text_ne_nil
  | cons d cs =>
    rw [htext] at hc
    have hd := h.mem_text (c := d) (htext ▸ List.mem_cons_self)
    rw [← Option.some.inj hc]
    rcases hd with hd | rfl
    · unfold Kind.isSlash
      have hne : d ≠ '/' ∧ d ≠ '\\' := by
        constructor <;>
        · rintro rfl
          exact absurd hd (by decide)
      simp [hne]
    · decide

/-- A visible text is read scheme first. -/
theorem scheme?_strip {scheme : String} (hscheme : IsScheme scheme) {text : String}
    {rest : List Char} (htext : text.toList = scheme.toList ++ ':' :: rest)
    (hvisible : ∀ c ∈ text.toList, 0x20 < c.toNat) :
    scheme? (strip text.toList) = some (scheme, rest) := by
  rw [strip_eq hvisible, htext, hscheme.scheme?_eq]

/-- What stands behind the scheme is read by its kind. -/
theorem Written.parse_text {u : Uri} (h : u.Written) :
    Uri.parse u.text =
      let rest := u.middle.toList ++ (u.path.toList ++ u.tailText)
      match kindOf u.scheme with
      | .file => readFile rest
      | .special => readNet u.scheme .special (rest.dropWhile (Kind.special.isSlash ·))
      | .other => readOtherScheme u.scheme rest := by
  have hscheme := scheme?_strip h.scheme (toList_text u) (visible_text h)
  cases hk : kindOf u.scheme <;> simp only [Uri.parse, hscheme, hk]

/-- The parts of a local file. -/
theorem Written.exists_file {u : Uri} (h : u.Written) (hk : kindOf u.scheme = .file) :
    ∃ a path, IsLocal a ∧ (∀ c ∈ path, Percent.stands pathByte c = true) ∧
      TailStands .file u.query u.fragment ∧
      u = ⟨"file", some a, String.ofList ('/' :: path), u.query, u.fragment⟩ := by
  obtain ⟨path, hpath, hstands⟩ := h.path
  have hadmits := h.authority
  have htail := h.tail
  rw [hk] at hadmits htail
  rcases u with ⟨scheme, authority, _, query, fragment⟩
  dsimp only at hpath hk hadmits htail ⊢
  cases authority with
  | none => exact absurd hadmits id
  | some a =>
    refine ⟨a, path, hadmits, hstands, htail, ?_⟩
    rw [← hpath, String.ofList_toList, eq_file_of_kindOf hk]

theorem Written.parse_text_file {a : Authority} {path : List Char} {query fragment : Option String}
    (h : Written ⟨"file", some a, String.ofList ('/' :: path), query, fragment⟩) :
    Uri.parse (text ⟨"file", some a, String.ofList ('/' :: path), query, fragment⟩) =
      .ok (fileAt a (if a == .none
        then '/' :: (path ++ (marked '?' query ++ marked '#' fragment))
        else path ++ (marked '?' query ++ marked '#' fragment))) := by
  have hlocal : IsLocal a := h.authority
  rw [h.parse_text, middle_some rfl, String.toList_ofList]
  exact readFile_text hlocal _

theorem Spelled.parse_text_of_ne {u : Uri} (h : u.Spelled) (hk : kindOf u.scheme ≠ .file) :
    Uri.parse u.text = .ok u := by
  obtain ⟨path, hpath, -⟩ := h.path
  have hresolved := h.resolved path hpath
  have hstring : u.path = String.ofList ('/' :: path) := by
    rw [← hpath, String.ofList_toList]
  have htail := h.tail
  have hadmits := h.authority
  rw [h.parse_text]
  rcases u with ⟨scheme, authority, _, query, fragment⟩
  dsimp only at hstring hresolved htail hadmits hk ⊢
  subst hstring
  rw [String.toList_ofList]
  -- the two readers that do not treat drives or local hosts in a way of their own
  have hbehind (a : Authority) := behind_text scheme hk a hresolved htail
  cases authority with
  | none =>
    cases hkind : kindOf scheme with
    | file => exact absurd hkind hk
    | special =>
      rw [hkind] at hadmits
      exact absurd hadmits id
    | other =>
      rw [hkind] at hresolved htail
      exact readOtherScheme_text hresolved htail
  | some a =>
    rw [middle_some rfl]
    cases hkind : kindOf scheme with
    | file => exact absurd hkind hk
    | special =>
      rw [hkind] at hadmits hbehind
      have hnormal : a.Normal scheme .special := hadmits
      dsimp only
      rw [dropWhile_slashes hnormal]
      exact (readNet_text hnormal _).trans (congrArg Except.ok (hbehind a))
    | other =>
      rw [hkind] at hadmits hbehind
      have hnormal : a.Normal scheme .other := hadmits
      exact (readNet_text hnormal _).trans (congrArg Except.ok (hbehind a))

/-- **A URI in normal form reads as itself.** -/
theorem Normal.parse_text {u : Uri} (h : u.Normal) : Uri.parse u.text = .ok u := by
  by_cases hk : kindOf u.scheme = .file
  · obtain ⟨a, path, hlocal, -, htail, hu⟩ := h.toWritten.exists_file hk
    have hresolved : Resolved .file path := by
      rw [← hk]
      exact h.resolved path (by rw [hu, String.toList_ofList])
    have hread := (hu ▸ h.toWritten).parse_text_file
    rw [← hu] at hread
    rw [hread]
    rcases hlocal.eq_none_or with rfl | ⟨hne, hforeign⟩
    · exact congrArg Except.ok ((fileAt_slash hresolved htail).trans hu.symm)
    · have hdrive : startsWithDrive path = false := by
        rw [← Bool.not_eq_true]
        intro hdrive
        apply h.hostless
        rw [hu]
        exact ⟨rfl, hforeign, path, String.toList_ofList, hdrive⟩
      rw [beq_eq_false_iff_ne.2 hne]
      exact congrArg Except.ok ((fileAt_host a hresolved hdrive htail).trans hu.symm)
  · exact h.toSpelled.parse_text_of_ne hk

theorem Written.scheme_eq {u v : Uri} (hu : u.Written) (hv : v.Written) (h : u.text = v.text) :
    u.scheme = v.scheme := by
  have hscheme := scheme?_strip hu.scheme (toList_text u) (visible_text hu)
  rw [h, scheme?_strip hv.scheme (toList_text v) (visible_text hv)] at hscheme
  exact (Prod.mk.inj (Option.some.inj hscheme)).1.symm

/-- **Local files are told apart by their texts.** -/
theorem Written.eq_of_text {u v : Uri} (hu : u.Written) (hv : v.Written)
    (hk : kindOf u.scheme = .file) (h : u.text = v.text) : u = v := by
  have hkind : kindOf v.scheme = .file := hu.scheme_eq hv h ▸ hk
  obtain ⟨a, path, ha, hpath, htail, hu⟩ := hu.exists_file hk
  obtain ⟨a', path', ha', hpath', htail', hv⟩ := hv.exists_file hkind
  have hbehind : a.text.toList ++ '/' :: (path ++ (marked '?' u.query ++ marked '#' u.fragment)) =
      a'.text.toList ++ '/' :: (path' ++ (marked '?' v.query ++ marked '#' v.fragment)) := by
    have hlist := congrArg String.toList h
    rw [hu, hv, toList_text, toList_text, middle_some rfl, middle_some rfl] at hlist
    simpa [tailText] using hlist
  have hhost : a.text.toList = a'.text.toList := by
    have htake := congrArg (List.takeWhile Kind.file.inAuthority) hbehind
    rw [takeWhile_inAuthority fun c hc => .inl (ha.framed.inner c hc),
      takeWhile_inAuthority fun c hc => .inl (ha'.framed.inner c hc)] at htake
    exact htake
  have hsame : a = a' := by
    have hread := ha.readFileHost_text
    rw [hhost, ha'.readFileHost_text] at hread
    exact (Except.ok.inj hread).symm
  rw [hhost] at hbehind
  have hsplit := congrArg splitTail (List.cons.inj (List.append_cancel_left hbehind)).2
  rw [splitTail_append hpath, splitTail_append hpath'] at hsplit
  obtain ⟨hsteps, hmarked⟩ := Prod.mk.inj hsplit
  have hread := htail.readTail_eq
  rw [hmarked, htail'.readTail_eq] at hread
  obtain ⟨hquery, hfragment⟩ := Prod.mk.inj hread
  rw [hu, hv, hsame, hsteps, hquery, hfragment]

/-- **A drive at a host reads without the host,** so as another text. -/
theorem Spelled.text_ne_of_hostedDrive {u : Uri} (h : u.Spelled) (hdrive : u.HostedDrive) :
    ∃ place, Uri.parse u.text = .ok place ∧ place.text ≠ u.text := by
  obtain ⟨hfile, hforeign, path, hpath, hdrive⟩ := hdrive
  have hk : kindOf u.scheme = .file := if_pos hfile
  have hresolved : Resolved .file path := hk ▸ h.resolved path hpath
  obtain ⟨a, path', hlocal, -, -, hu⟩ := h.toWritten.exists_file hk
  rw [hu, String.toList_ofList] at hpath
  rw [(List.cons.inj hpath).2] at hu
  have hread := (hu ▸ h.toWritten).parse_text_file
  rw [← hu] at hread
  have hne : a ≠ .none := by
    rintro rfl
    rw [hu] at hforeign
    cases hforeign
  rw [beq_eq_false_iff_ne.2 hne] at hread
  refine ⟨_, hread, fun htext => hne ?_⟩
  have hplace := spelled_fileAt hlocal (path ++ (marked '?' u.query ++ marked '#' u.fragment))
  have hsame := hplace.toWritten.eq_of_text h.toWritten rfl htext
  have hauthority := fileAt_drive a hresolved hdrive u.query u.fragment
  rw [hsame, hu] at hauthority
  exact Option.some.inj hauthority

/-- **A hierarchical URI reads as itself** exactly if it is in normal form. -/
theorem parse_text_iff {u : Uri} (h : u.segments?.isSome = true) :
    Uri.parse u.text = .ok u ↔ u.Normal := by
  constructor
  · intro hparse
    have hspelled := spelled_of_parse hparse h
    refine ⟨hspelled, fun hdrive => ?_⟩
    obtain ⟨place, hplace, hother⟩ := hspelled.text_ne_of_hostedDrive hdrive
    apply hother
    rw [Except.ok.inj (hplace.symm.trans hparse)]
  · exact Normal.parse_text

/-- **What a text spells reads again,** and as itself unless it is a drive at a host. -/
theorem Spelled.exists_place {u : Uri} (h : u.Spelled) :
    ∃ place, Uri.parse u.text = .ok place ∧ (place = u ↔ ¬u.HostedDrive) ∧
      (place.text = u.text → place = u) := by
  by_cases hdrive : u.HostedDrive
  · obtain ⟨place, hplace, hother⟩ := h.text_ne_of_hostedDrive hdrive
    have hne : place ≠ u := fun hsame => hother (congrArg text hsame)
    exact ⟨place, hplace, iff_of_false hne (not_not_intro hdrive), fun htext => absurd htext hother⟩
  · have hnormal : u.Normal := ⟨h, hdrive⟩
    exact ⟨u, hnormal.parse_text, iff_of_true rfl hdrive, fun _ => rfl⟩

example : (Uri.parse "file://h//c:/x").toOption.map text = some "file://h/c:/x" := by
  decide +kernel

example : (Uri.parse "file://h/c:/x").toOption.map text = some "file:///c:/x" := by decide +kernel

/-! ## 8. Local files -/

def ofSteps (steps : List Char) : Uri :=
  ⟨"file", some .none, String.ofList ('/' :: steps), none, none⟩

theorem exists_steps {path : Path} {u : Uri} (h : ofPath? path = some u) :
    ∃ steps, u = ofSteps steps ∧ (∀ c ∈ steps, Percent.stands pathByte c = true) ∧
      (Resolved .file steps ↔ Path.Part.up ∉ path.parts) := by
  unfold ofPath? at h
  split at h
  next rest hparts =>
    obtain ⟨steps, hsteps, hstands, hresolved⟩ := exists_pathOfParts (parts_below_root hparts)
    have hup : Path.Part.up ∉ path.parts ↔ Path.Part.up ∉ rest := by
      rw [hparts]
      simp
    refine ⟨steps, ?_, hstands, hresolved.trans hup.symm⟩
    rw [← Option.some.inj h, hsteps]
    rfl
  next => cases h

theorem written_ofSteps {steps : List Char} (h : ∀ c ∈ steps, Percent.stands pathByte c = true) :
    (ofSteps steps).Written :=
  ⟨isScheme_file, .here, ⟨steps, String.toList_ofList, h⟩, ⟨nofun, nofun⟩⟩

/-- **The URI of a local file reads** as the file that it resolves to. -/
theorem parse_text_ofSteps {steps : List Char}
    (h : ∀ c ∈ steps, Percent.stands pathByte c = true) :
    ∃ path, hierarchy .file ('/' :: steps) = String.ofList ('/' :: path) ∧ Resolved .file path ∧
      Uri.parse (ofSteps steps).text = .ok (ofSteps path) := by
  obtain ⟨path, hpath, hresolved⟩ := exists_hierarchy .file ('/' :: steps)
  have htail := splitTail_append (stands_slash h) none none
  have hbuilt : fileAt .none ('/' :: steps ++ (marked '?' none ++ marked '#' none)) =
      ofSteps path := by
    rw [fileAt_eq, htail, ite_self, hpath]
    rfl
  exact ⟨path, hpath, hresolved,
    (written_ofSteps h).parse_text_file.trans (congrArg Except.ok hbuilt)⟩

/-- **What the URI of a local file reads as** is that URI exactly if the path does not go up. -/
theorem parse_text_of_ofPath? {path : Path} {u : Uri} (h : ofPath? path = some u) :
    ∃ place, Uri.parse u.text = .ok place ∧ (place = u ↔ Path.Part.up ∉ path.parts) ∧
      (place.text = u.text → place = u) := by
  obtain ⟨steps, rfl, hstands, hresolved⟩ := exists_steps h
  obtain ⟨steps', hsteps, hresolved', hparse⟩ := parse_text_ofSteps hstands
  refine ⟨_, hparse, ?_, ?_⟩
  · rw [← hresolved]
    constructor
    · intro hsame
      have hpath := congrArg Uri.path hsame
      rw [← (List.cons.inj (String.ofList_injective hpath)).2]
      exact hresolved'
    · intro hsteps'
      rw [hsteps'.hierarchy_slash] at hsteps
      rw [(List.cons.inj (String.ofList_injective hsteps)).2]
  · have hstands' : ∀ c ∈ steps', Percent.stands pathByte c = true := fun c => hresolved'.stands
    exact (written_ofSteps hstands').eq_of_text (written_ofSteps hstands) rfl

end Intake.Uri
