import Intake.Proofs.Hosts

/-!
# Authorities — the parts of a URI around its path

Credentials, a port, a query and a fragment are read into a form in which their text is read as
themselves: what stands in them is escaped already, and none of them holds a character that divides
it from its neighbours.
-/

namespace Intake.Uri

def marked (mark : Char) : Option String → List Char
  | some s => mark :: s.toList
  | none => []

theorem mem_head?_marked {mark c : Char} {part : Option String}
    (h : c ∈ (marked mark part).head?) : c = mark := by
  cases part with
  | none => cases h
  | some s => exact (Option.some.inj h).symm

/-! ## 1. Queries and fragments -/

def queryBytes (k : Kind) : UInt8 → Bool := if k == .other then queryByte else specialQueryByte

theorem keepsCodes_queryBytes (k : Kind) : Percent.KeepsCodes (queryBytes k) := by
  cases k with
  | other => exact Percent.keepsCodes_queryByte
  | file => exact Percent.keepsCodes_specialQueryByte
  | special => exact Percent.keepsCodes_specialQueryByte

/-- A query does not run into the fragment. -/
theorem ne_hash_of_stands {k : Kind} {c : Char}
    (h : Percent.stands (queryBytes k) c = true) : (c != '#') = true := by
  rw [bne_iff_ne]
  rintro rfl
  cases k with
  | other => exact absurd h (by decide)
  | file => exact absurd h (by decide)
  | special => exact absurd h (by decide)

structure TailStands (k : Kind) (query fragment : Option String) : Prop where
  query : ∀ q ∈ query, ∀ c ∈ q.toList, Percent.stands (queryBytes k) c = true
  fragment : ∀ f ∈ fragment, ∀ c ∈ f.toList, Percent.stands fragmentByte c = true

/-- Escaped text stands. -/
theorem stands_escaped {mayStand : UInt8 → Bool} (hkeeps : Percent.KeepsCodes mayStand)
    {cs : List Char} {s : String} (h : s = String.ofList (Percent.escapeChars mayStand cs)) :
    ∀ c ∈ s.toList, Percent.stands mayStand c = true := by
  rw [h, String.toList_ofList]
  exact fun c hc => Percent.stands_of_mem_escapeChars hkeeps hc

theorem escaped_of_stands {mayStand : UInt8 → Bool} {s : String}
    (h : ∀ c ∈ s.toList, Percent.stands mayStand c = true) :
    String.ofList (Percent.escapeChars mayStand s.toList) = s := by
  rw [Percent.escapeChars_of_stands h, String.ofList_toList]

def fragmentOf : List Char → Option String
  | _ :: rest => some (String.ofList (Percent.escapeChars fragmentByte rest))
  | [] => none

theorem readTail_query (k : Kind) (cs : List Char) :
    readTail k ('?' :: cs) =
      (some (String.ofList (Percent.escapeChars (queryBytes k) (cs.span (· != '#')).1)),
        fragmentOf (cs.span (· != '#')).2) := by
  unfold queryBytes
  cases k <;> rfl

theorem readTail_of_ne {k : Kind} {cs : List Char} (h : cs.head? ≠ some '?') :
    readTail k cs = (none, fragmentOf cs) := by
  unfold readTail
  split
  next rest => exact absurd rfl h
  next => rfl

/-- **Reading a tail brings it into normal form.** -/
theorem tailStands_readTail (k : Kind) (cs : List Char) :
    TailStands k (readTail k cs).1 (readTail k cs).2 := by
  have hfragment : ∀ cs, ∀ f ∈ fragmentOf cs, ∀ c ∈ f.toList,
      Percent.stands fragmentByte c = true := by
    intro cs f hf
    cases cs with
    | nil => cases hf
    | cons c rest =>
      exact stands_escaped Percent.keepsCodes_fragmentByte (Option.some.inj hf).symm
  by_cases hquery : cs.head? = some '?'
  · obtain ⟨rest, rfl⟩ := List.head?_eq_some_iff.1 hquery
    rw [readTail_query]
    refine ⟨?_, hfragment _⟩
    intro q hq
    exact stands_escaped (keepsCodes_queryBytes k) (Option.some.inj hq).symm
  · rw [readTail_of_ne hquery]
    exact ⟨nofun, hfragment cs⟩

theorem fragmentOf_marked {fragment : Option String}
    (h : ∀ f ∈ fragment, ∀ c ∈ f.toList, Percent.stands fragmentByte c = true) :
    fragmentOf (marked '#' fragment) = fragment := by
  cases fragment with
  | none => rfl
  | some f =>
    change some (String.ofList (Percent.escapeChars fragmentByte f.toList)) = some f
    rw [escaped_of_stands (h f rfl)]

/-- **A tail in normal form reads as itself.** -/
theorem TailStands.readTail_eq {k : Kind} {query fragment : Option String}
    (h : TailStands k query fragment) :
    readTail k (marked '?' query ++ marked '#' fragment) = (query, fragment) := by
  cases query with
  | none =>
    have hhash : (marked '#' fragment).head? ≠ some '?' := by
      intro hhead
      cases mem_head?_marked hhead
    rw [marked, List.nil_append, readTail_of_ne hhash, fragmentOf_marked h.fragment]
  | some q =>
    have hspan : (q.toList ++ marked '#' fragment).span (· != '#') =
        (q.toList, marked '#' fragment) := by
      apply Text.span_run
      · exact fun c hc => ne_hash_of_stands (h.query q rfl c hc)
      · intro c hc
        rw [mem_head?_marked hc]
        rfl
    rw [marked, List.cons_append, readTail_query, hspan, escaped_of_stands (h.query q rfl),
      fragmentOf_marked h.fragment]

/-! ## 2. Credentials -/

structure LoginStands (user : String) (password : Option String) : Prop where
  user : ∀ c ∈ user.toList, Percent.stands loginByte c = true
  password : ∀ s ∈ password, s ≠ "" ∧ ∀ c ∈ s.toList, Percent.stands loginByte c = true

theorem loginStands_none : LoginStands "" none := by
  constructor
  · intro c hc
    simp at hc
  · intro s hs
    cases hs

def loginText (user : String) (password : Option String) : List Char :=
  user.toList ++ marked ':' password

/-- Credentials hold inner characters and no colon. -/
theorem isInner_of_stands {c : Char} (h : Percent.stands loginByte c = true) :
    isInner c = true ∧ c ≠ ':' := by
  have hall : ∀ n : Fin 128, Percent.stands loginByte (Char.ofNat n.val) = true →
      isInner (Char.ofNat n.val) = true ∧ Char.ofNat n.val ≠ ':' := by
    decide +kernel
  exact forall_ascii (P := fun c => Percent.stands loginByte c = true → isInner c = true ∧ c ≠ ':')
    hall (of_decide_eq_true (Bool.and_eq_true_iff.1 h).1) h

theorem LoginStands.isInner {user : String} {password : Option String}
    (h : LoginStands user password) {c : Char} (hc : c ∈ loginText user password) :
    isInner c = true := by
  rcases List.mem_append.1 hc with hc | hc
  · exact (isInner_of_stands (h.user c hc)).1
  · cases password with
    | none => cases hc
    | some secret =>
      rcases List.mem_cons.1 hc with rfl | hc
      · decide
      · exact (isInner_of_stands ((h.password secret rfl).2 c hc)).1

/-- **Reading credentials brings them into normal form.** -/
theorem loginStands_readLogin (cs : List Char) : LoginStands (readLogin cs).1 (readLogin cs).2 := by
  refine ⟨stands_escaped Percent.keepsCodes_loginByte rfl, ?_⟩
  intro s hs
  unfold readLogin at hs
  simp only [Option.mem_def, Option.ite_none_left_eq_some, Option.some.injEq] at hs
  obtain ⟨hsome, hs⟩ := hs
  refine ⟨?_, stands_escaped Percent.keepsCodes_loginByte hs.symm⟩
  rintro rfl
  have hnil := congrArg String.toList hs
  rw [String.toList_ofList] at hnil
  apply hsome
  rw [Percent.eq_nil_of_escapeChars hnil]
  rfl

/-- **Credentials in normal form read as themselves.** -/
theorem LoginStands.readLogin_eq {user : String} {password : Option String}
    (h : LoginStands user password) :
    readLogin (loginText user password) = (user, password) := by
  have huser : (loginText user password).takeWhile (· != ':') = user.toList := by
    apply Text.takeWhile_run
    · intro c hc
      rw [bne_iff_ne]
      exact (isInner_of_stands (h.user c hc)).2
    · intro c hc
      rw [mem_head?_marked hc]
      rfl
  have hsecret : (loginText user password).drop user.toList.length = marked ':' password :=
    List.drop_left
  unfold readLogin
  simp only [huser, hsecret, escaped_of_stands h.user]
  cases password with
  | none => rfl
  | some secret =>
    obtain ⟨hne, hstands⟩ := h.password secret rfl
    have hsome : secret.toList.isEmpty = false := by
      rw [List.isEmpty_eq_false_iff]
      exact fun hnil => hne (String.toList_eq_nil_iff.1 hnil)
    simp only [marked, List.drop_succ_cons, List.drop_zero, hsome, Bool.false_eq_true, if_false,
      escaped_of_stands hstands]

theorem splitLogin_eq_none {cs : List Char} (h : '@' ∉ cs) : splitLogin cs = none := by
  unfold splitLogin
  rw [if_neg]
  rw [List.contains_iff_mem]
  exact h

/-- The last mark divides credentials from the host. -/
theorem splitLogin_append (login : List Char) {rest : List Char} (h : '@' ∉ rest) :
    splitLogin (login ++ '@' :: rest) = some (login, rest) := by
  have hmark : (login ++ '@' :: rest).contains '@' = true := by
    rw [List.contains_iff_mem]
    exact List.mem_append_right _ List.mem_cons_self
  have hreverse : (login ++ '@' :: rest).reverse = rest.reverse ++ '@' :: login.reverse := by
    simp
  have hrest : ((login ++ '@' :: rest).reverse.takeWhile (· != '@')).reverse = rest := by
    rw [hreverse, Text.takeWhile_run, List.reverse_reverse]
    · intro c hc
      rw [bne_iff_ne]
      rintro rfl
      exact h (List.mem_reverse.1 hc)
    · intro c hc
      rw [← Option.some.inj hc]
      rfl
  have hlength : (login ++ '@' :: rest).length - rest.length - 1 = login.length := by
    rw [List.length_append, List.length_cons]
    omega
  unfold splitLogin
  rw [if_pos hmark]
  simp only [hrest, hlength, List.take_left]

/-! ## 3. Ports -/

def IsPort (scheme : String) (n : Nat) : Prop := n ≤ 65535 ∧ defaultPort? scheme ≠ some n

theorem readPort_eq (scheme : String) (cs : List Char) :
    readPort scheme cs =
      if cs.any (!·.isDigit) then .error .badPort
      else if Nat.ofDigitChars 10 cs 0 > 65535 then .error .badPort
      else .ok (if cs.isEmpty || defaultPort? scheme == some (Nat.ofDigitChars 10 cs 0) then none
        else some (Nat.ofDigitChars 10 cs 0)) := by
  unfold readPort
  split
  next => rfl
  next =>
    dsimp only
    split <;> rfl

theorem isPort_of_readPort {scheme : String} {cs : List Char} {port : Option Nat}
    (h : readPort scheme cs = .ok port) : ∀ n ∈ port, IsPort scheme n := by
  intro n hn
  rw [readPort_eq] at h
  split at h
  next => cases h
  next =>
    split at h
    next => cases h
    next hle =>
      cases h
      simp only [Option.mem_def, Option.ite_none_left_eq_some, Option.some.injEq,
        Bool.or_eq_true, beq_iff_eq, not_or] at hn
      obtain ⟨⟨-, hdefault⟩, rfl⟩ := hn
      exact ⟨Nat.not_lt.1 hle, hdefault⟩

theorem toList_toString (n : Nat) : (toString n).toList = Nat.toDigits 10 n := by
  rw [Nat.toString_eq_ofList_toDigits, String.toList_ofList]

theorem isDigit_of_mem_toString {n : Nat} {c : Char} (h : c ∈ (toString n).toList) :
    c.isDigit = true := by
  rw [toList_toString] at h
  exact Nat.isDigit_of_mem_toDigits (by decide) (by decide) h

/-- **A port in normal form reads as itself.** -/
theorem IsPort.readPort_toString {scheme : String} {n : Nat} (h : IsPort scheme n) :
    readPort scheme (toString n).toList = .ok (some n) := by
  have hdigits : (toString n).toList.any (!·.isDigit) = false := by
    rw [List.any_eq_false]
    intro c hc
    rw [isDigit_of_mem_toString hc]
    decide
  have hvalue : Nat.ofDigitChars 10 (toString n).toList 0 = n := by
    rw [toList_toString, Nat.ofDigitChars_ten_toDigits]
  have hsome : (toString n).toList.isEmpty = false := by
    rw [toList_toString, List.isEmpty_eq_false_iff]
    exact Nat.toDigits_ne_nil
  have hdefault : (defaultPort? scheme == some n) = false := beq_eq_false_iff_ne.2 h.2
  rw [readPort_eq, hdigits, hvalue, if_neg (by decide), if_neg (Nat.not_lt.2 h.1), hsome, hdefault]
  rfl

/-! ## 4. Authorities -/

def readHost (k : Kind) : List Char → Except UriError Host :=
  if k == .special then Host.readDomain else Host.readOther

theorem settled_readHost {k : Kind} {cs : List Char} {host : Host} (h : readHost k cs = .ok host) :
    Host.Settled (readHost k) host := by
  cases k with
  | special => exact Host.settled_readDomain h
  | file => exact Host.settled_readOther h
  | other => exact Host.settled_readOther h

/-- Only the blank host has no text, and a domain host always has. -/
theorem eq_blank_of_text {k : Kind} {host : Host} (h : Host.Settled (readHost k) host)
    (hnil : host.text.toList = []) : host = .blank ∧ k ≠ .special := by
  cases k with
  | special => exact absurd hnil (Host.Settled.text_ne_nil h)
  | file => exact ⟨Host.Settled.eq_blank h hnil, nofun⟩
  | other => exact ⟨Host.Settled.eq_blank h hnil, nofun⟩

/-- **An authority in normal form.**  A blank host has neither credentials nor a port. -/
structure Authority.Normal (scheme : String) (k : Kind) (a : Authority) : Prop where
  login : LoginStands a.user a.password
  host : Host.Settled (readHost k) a.host
  port : ∀ n ∈ a.port, IsPort scheme n
  blank : a.host = .blank → a.user = "" ∧ a.password = .none ∧ a.port = .none

def readPortOf (scheme : String) : Option (List Char) → Except UriError (Option Nat)
  | some digits => readPort scheme digits
  | none => .ok none

def readBehind (scheme : String) (k : Kind) (user : String) (password : Option String)
    (cs : List Char) : Except UriError Authority :=
  let split := splitPort false cs
  if k == .special && split.1.isEmpty then .error .emptyHost
  else (readHost k split.1).bind fun host =>
    if host == .blank && split.2.isSome then .error .emptyHost
    else (readPortOf scheme split.2).bind fun port =>
      if host == .blank && (!user.isEmpty || password.isSome) then .error .emptyHost
      else .ok ⟨user, password, host, port⟩

theorem readAuthority_of_none {scheme : String} {k : Kind} {cs : List Char}
    (h : splitLogin cs = none) : readAuthority scheme k cs = readBehind scheme k "" none cs := by
  unfold readAuthority readBehind
  rw [h]
  dsimp only
  rcases splitPort false cs with ⟨host, port⟩
  cases k <;> cases port <;> rfl

theorem readAuthority_of_some {scheme : String} {k : Kind} {cs login rest : List Char}
    (h : splitLogin cs = some (login, rest)) :
    readAuthority scheme k cs =
      if rest.isEmpty then .error .emptyHost
      else readBehind scheme k (readLogin login).1 (readLogin login).2 rest := by
  unfold readAuthority readBehind
  rw [h]
  cases rest with
  | nil => rfl
  | cons c rest =>
    dsimp only
    rcases splitPort false (c :: rest) with ⟨host, port⟩
    cases k <;> cases port <;> rfl

theorem readBehind_eq_ok_iff {scheme : String} {k : Kind} {user : String}
    {password : Option String} {cs : List Char} {a : Authority} :
    readBehind scheme k user password cs = .ok a ↔
      (k = .special → (splitPort false cs).1 ≠ []) ∧
        readHost k (splitPort false cs).1 = .ok a.host ∧
        readPortOf scheme (splitPort false cs).2 = .ok a.port ∧
        (a.host = .blank → (splitPort false cs).2 = none ∧ user = "" ∧ password = none) ∧
        a.user = user ∧ a.password = password := by
  rcases hsplit : splitPort false cs with ⟨host, port⟩
  unfold readBehind
  rw [hsplit]
  dsimp only
  constructor
  · intro h
    -- each check in turn, and what it lets pass
    split at h
    next => cases h
    next hspecial =>
      obtain ⟨found, hread, h⟩ := bind_eq_ok_iff.1 h
      split at h
      next => cases h
      next hport =>
        obtain ⟨n, hn, h⟩ := bind_eq_ok_iff.1 h
        split at h
        next => cases h
        next hlogin =>
          cases h
          refine ⟨?_, hread, hn, ?_, rfl, rfl⟩
          · rintro rfl rfl
            exact hspecial rfl
          · rintro rfl
            simp at hport hlogin
            exact ⟨hport, hlogin⟩
  · rintro ⟨hspecial, hread, hport, hblank, rfl, rfl⟩
    rw [if_neg, hread]
    · change (if _ then _ else _) = _
      rw [if_neg, hport]
      · change (if _ then _ else _) = _
        rw [if_neg]
        simp only [Bool.and_eq_true, beq_iff_eq, not_and]
        intro h
        obtain ⟨-, huser, hpassword⟩ := hblank h
        rw [huser, hpassword]
        decide
      · simp only [Bool.and_eq_true, beq_iff_eq, not_and]
        intro h
        rw [(hblank h).1]
        decide
    · simp only [Bool.and_eq_true, beq_iff_eq, List.isEmpty_iff, not_and]
      exact hspecial

/-- **Reading an authority brings it into normal form.** -/
theorem normal_of_readBehind {scheme : String} {k : Kind} {user : String}
    {password : Option String} {cs : List Char} {a : Authority} (hlogin : LoginStands user password)
    (h : readBehind scheme k user password cs = .ok a) : a.Normal scheme k := by
  obtain ⟨-, hhost, hport, hblank, huser, hpassword⟩ := readBehind_eq_ok_iff.1 h
  refine ⟨?_, settled_readHost hhost, ?_, ?_⟩
  · rw [huser, hpassword]
    exact hlogin
  · cases hdigits : (splitPort false cs).2 with
    | none =>
      rw [hdigits] at hport
      rw [← Except.ok.inj hport]
      exact nofun
    | some digits =>
      rw [hdigits] at hport
      exact isPort_of_readPort hport
  · intro hb
    obtain ⟨hnone, huser', hpassword'⟩ := hblank hb
    rw [hnone] at hport
    exact ⟨huser.trans huser', hpassword.trans hpassword', (Except.ok.inj hport).symm⟩

theorem normal_of_readAuthority {scheme : String} {k : Kind} {cs : List Char} {a : Authority}
    (h : readAuthority scheme k cs = .ok a) : a.Normal scheme k := by
  cases hlogin : splitLogin cs with
  | none =>
    rw [readAuthority_of_none hlogin] at h
    exact normal_of_readBehind loginStands_none h
  | some parts =>
    rw [readAuthority_of_some hlogin] at h
    split at h
    next => cases h
    next => exact normal_of_readBehind (loginStands_readLogin parts.1) h

/-! ## 5. The text of an authority -/

namespace Authority

def placeText (a : Authority) : List Char := a.host.text.toList ++ marked ':' (a.port.map toString)

theorem toList_text (a : Authority) :
    a.text.toList =
      (if a.user = "" ∧ a.password = .none then [] else loginText a.user a.password ++ ['@']) ++
        a.placeText := by
  rcases a with ⟨user, password, host, port⟩
  unfold text placeText loginText
  cases password with
  | some secret => cases port <;> simp [marked]
  | none =>
    by_cases huser : user = ""
    · subst huser
      cases port <;> simp [marked]
    · have hempty : user.isEmpty = false := by
        rw [← Bool.not_eq_true, String.isEmpty_iff]
        exact huser
      cases port <;> simp [huser, hempty, marked]

variable {scheme : String} {k : Kind} {a : Authority}

theorem Normal.isInner_of_mem_placeText (h : a.Normal scheme k) {c : Char}
    (hc : c ∈ a.placeText) : isInner c = true := by
  rcases List.mem_append.1 hc with hc | hc
  · exact h.host.framed.inner c hc
  · cases hport : a.port with
    | none =>
      rw [hport] at hc
      cases hc
    | some n =>
      rw [hport] at hc
      rcases List.mem_cons.1 hc with rfl | hc
      · decide
      · have hall : ∀ n : Fin 128, (Char.ofNat n.val).isDigit = true →
            isInner (Char.ofNat n.val) = true := by
          decide +kernel
        have hdigit := isDigit_of_mem_toString hc
        exact forall_ascii (P := fun c => c.isDigit = true → isInner c = true) hall
          (lt_of_isDigit hdigit) hdigit

theorem Normal.splitPort_placeText (h : a.Normal scheme k) :
    splitPort false a.placeText =
      (a.host.text.toList, a.port.map fun n => (toString n).toList) := by
  unfold placeText
  rw [h.host.framed.splitPort]
  cases a.port with
  | none => simp [marked, splitPort]
  | some n => simp [marked, splitPort]

/-- **Host and port in normal form read as themselves.** -/
theorem Normal.readBehind_placeText (h : a.Normal scheme k) :
    readBehind scheme k a.user a.password a.placeText = .ok a := by
  rw [readBehind_eq_ok_iff, h.splitPort_placeText]
  refine ⟨?_, h.host.reads, ?_, ?_, rfl, rfl⟩
  · intro hspecial hnil
    exact (eq_blank_of_text h.host hnil).2 hspecial
  · cases hport : a.port with
    | none => rfl
    | some n => exact (h.port n hport).readPort_toString
  · intro hblank
    obtain ⟨huser, hpassword, hport⟩ := h.blank hblank
    exact ⟨by rw [hport]; rfl, huser, hpassword⟩

/-- **An authority in normal form reads as itself.** -/
theorem Normal.readAuthority_text (h : a.Normal scheme k) :
    readAuthority scheme k a.text.toList = .ok a := by
  have hplace : '@' ∉ a.placeText := by
    intro hc
    have hinner := h.isInner_of_mem_placeText hc
    revert hinner
    decide
  rw [toList_text]
  by_cases hlogin : a.user = "" ∧ a.password = .none
  · have hread := h.readBehind_placeText
    rw [hlogin.1, hlogin.2] at hread
    rw [if_pos hlogin, List.nil_append, readAuthority_of_none (splitLogin_eq_none hplace), hread]
  · have hsome : a.placeText.isEmpty = false := by
      rw [List.isEmpty_eq_false_iff]
      intro hnil
      obtain ⟨hblank, -⟩ := eq_blank_of_text h.host (List.append_eq_nil_iff.1 hnil).1
      obtain ⟨huser, hpassword, -⟩ := h.blank hblank
      exact hlogin ⟨huser, hpassword⟩
    rw [if_neg hlogin, List.append_assoc, List.singleton_append,
      readAuthority_of_some (splitLogin_append _ hplace), hsome, h.login.readLogin_eq,
      h.readBehind_placeText]
    rfl

/-- The text of an authority in normal form holds nothing that ends it. -/
theorem Normal.mem_text (h : a.Normal scheme k) {c : Char} (hc : c ∈ a.text.toList) :
    isInner c = true ∨ c = '@' := by
  rw [toList_text] at hc
  rcases List.mem_append.1 hc with hc | hc
  · split at hc
    next => cases hc
    next =>
      rcases List.mem_append.1 hc with hc | hc
      · exact .inl (h.login.isInner hc)
      · exact .inr (List.mem_singleton.1 hc)
  · exact .inl (h.isInner_of_mem_placeText hc)

/-- An authority has a text if its host is a domain. -/
theorem Normal.text_ne_nil (h : a.Normal scheme .special) : a.text.toList ≠ [] := by
  intro hnil
  rw [toList_text] at hnil
  have hplace := (List.append_eq_nil_iff.1 hnil).2
  exact (eq_blank_of_text h.host (List.append_eq_nil_iff.1 hplace).1).2 rfl

end Authority

end Intake.Uri
