import Mathlib.Data.List.Nodup
import Mathlib.Order.Compare
import Intake.Files.Volume
import Intake.Proofs.Ancestry

/-!
# Trees — directories and what is directly below them

The entries of a directory are directly below it.  In memory they are the nodes that are stored
there, in the order of paths (`Files.Spelled.mem_children_iff`); on a disk they are the names that
follow those of the directory (`Disk.Named.entry_position`).  Either way a volume that operations
lead to is a tree: every entry has a position of its own, one step below its directory, and there
are no more positions than nodes (`Volume.Made.exists_chart`).
-/

namespace Intake

namespace Path

/-! ## 1. The order of paths -/

theorem compareBytes_eq : compareBytes = List.compareLex (α := UInt8) compare := by
  funext as bs
  induction as generalizing bs with
  | nil => cases bs <;> rfl
  | cons a as ih =>
    cases bs with
    | nil => rfl
    | cons b bs =>
      rw [compareBytes, List.compareLex, ih]
      show _ = match compareOfLessAndEq a b with | .lt => _ | .eq => _ | .gt => _
      unfold compareOfLessAndEq
      by_cases hlt : a < b
      · simp [hlt]
      · by_cases heq : a = b
        · simp [heq]
        · have hgt : b < a := UInt8.lt_of_le_of_ne (UInt8.not_lt.1 hlt) (Ne.symm heq)
          simp [hlt, heq, hgt]

instance : Std.TransCmp compareBytes := compareBytes_eq ▸ inferInstance

instance : Std.LawfulEqCmp compareBytes := compareBytes_eq ▸ inferInstance

def Part.nameBytes : Part → Bytes
  | .name bytes => bytes
  | _ => []

def Part.compareNames (a b : Part) : Ordering := compareBytes a.nameBytes b.nameBytes

instance : Std.TransCmp Part.compareNames where
  eq_swap {a b} := by
    show compareBytes _ _ = (compareBytes _ _).swap
    exact Std.OrientedCmp.eq_swap
  isLE_trans {a b c} h h' := by
    change (compareBytes _ _).isLE at h h' ⊢
    exact Std.TransCmp.isLE_trans h h'

theorem Part.compare_eq : Part.compare = compareLex (compareOn Part.rank) Part.compareNames := by
  funext a b
  cases a <;> cases b <;> rfl

instance : Std.TransCmp Part.compare := Part.compare_eq ▸ inferInstance

instance : Std.LawfulEqCmp Part.compare where
  eq_of_compare {a b} h := by
    cases a <;> cases b <;> first | rfl | cases h | skip
    change compareBytes _ _ = .eq at h
    exact congrArg Part.name (Std.LawfulEqCmp.eq_of_compare h)

theorem compareParts_eq : compareParts = List.compareLex Part.compare := by
  funext as bs
  induction as generalizing bs with
  | nil => cases bs <;> rfl
  | cons a as ih =>
    cases bs with
    | nil => rfl
    | cons b bs =>
      rw [compareParts, List.compareLex, ih]
      cases a.compare b <;> rfl

instance : Std.TransCmp compareParts := compareParts_eq ▸ inferInstance

instance : Std.LawfulEqCmp compareParts := compareParts_eq ▸ inferInstance

def PlaceBefore (a b : Place) : Prop := compareParts a b = .lt

theorem PlaceBefore.trans {a b c : Place} (h : PlaceBefore a b) (h' : PlaceBefore b c) :
    PlaceBefore a c := by
  unfold PlaceBefore at *
  exact Std.TransCmp.lt_trans h h'

theorem PlaceBefore.ne {a b : Place} (h : PlaceBefore a b) : a ≠ b := by
  rintro rfl
  have hself : compareParts a a = .eq := Std.ReflCmp.compare_self
  rw [PlaceBefore, hself] at h
  cases h

/-- **What is below** comes in the order of what it is below, among places of one depth. -/
theorem PlaceBefore.append {a b : Place} (h : PlaceBefore a b) (hlength : a.length = b.length)
    (x y : Place) : PlaceBefore (a ++ x) (b ++ y) := by
  induction a generalizing b with
  | nil =>
    rw [List.eq_nil_of_length_eq_zero hlength.symm] at h
    cases h
  | cons p a ih =>
    cases b with
    | nil => cases hlength
    | cons q b =>
      rw [List.length_cons, List.length_cons] at hlength
      unfold PlaceBefore at h ih ⊢
      rw [List.cons_append, List.cons_append, compareParts]
      rw [compareParts] at h
      cases hpq : p.compare q with
      | lt => rfl
      | gt =>
        rw [hpq] at h
        cases h
      | eq =>
        rw [hpq] at h
        exact ih h (by omega)

theorem sortsBefore_iff {p q : Path} :
    p.sortsBefore q = true ↔ p.parts = q.parts ∨ PlaceBefore p.parts q.parts := by
  unfold sortsBefore PlaceBefore
  cases hcompare : compareParts p.parts q.parts with
  | eq => simpa using Std.LawfulEqCmp.eq_of_compare hcompare
  | lt => simp
  | gt =>
    have hne : p.parts ≠ q.parts := by
      intro heq
      have hself : compareParts q.parts q.parts = .eq := Std.ReflCmp.compare_self
      rw [heq, hself] at hcompare
      cases hcompare
    simpa using hne

theorem sortsBefore_trans (p q r : Path) (h : p.sortsBefore q = true)
    (h' : q.sortsBefore r = true) : p.sortsBefore r = true := by
  rw [sortsBefore_iff] at *
  rcases h with h | h
  · rwa [h]
  · rcases h' with h' | h'
    · exact .inr (h' ▸ h)
    · exact .inr (h.trans h')

theorem sortsBefore_total (p q : Path) : (p.sortsBefore q || q.sortsBefore p) = true := by
  unfold sortsBefore
  have hswap : compareParts p.parts q.parts = (compareParts q.parts p.parts).swap :=
    Std.OrientedCmp.eq_swap
  rw [hswap]
  cases compareParts q.parts p.parts <;> rfl

end Path

/-! ## 2. Trees in memory -/

namespace Files

structure Spelled (fs : Files) : Prop where
  parts_eq : ∀ {place : Place} {spelled : Path} {n : Node},
    fs.nodes.get? place = some (spelled, n) → spelled.parts = place

theorem spelled_empty : empty.Spelled := ⟨fun h => by cases h⟩

variable {fs : Files}

theorem Spelled.put (h : fs.Spelled) (p : Path) (n : Node) : (fs.put p n).Spelled := by
  constructor
  intro place spelled n' hget
  unfold Files.put at hget
  rw [Catalog.get?_insert] at hget
  split at hget
  next hplace =>
    -- an earlier spelling of the place is kept
    cases hfirst : fs.nodes.get? p.parts with
    | none =>
      rw [hfirst] at hget
      cases hget
      exact hplace.symm
    | some first =>
      rw [hfirst] at hget
      cases hget
      exact (h.parts_eq hfirst).trans hplace.symm
  next => exact h.parts_eq hget

theorem Spelled.ensureDirs (h : fs.Spelled) (above : List Path) :
    (above.foldl ensureDir fs).Spelled := by
  induction above generalizing fs with
  | nil => exact h
  | cons p above ih =>
    apply ih
    unfold ensureDir
    split
    · exact h
    · exact h.put p .dir

theorem Spelled.addDir (h : fs.Spelled) (p : Path) : (fs.addDir p).Spelled :=
  (h.ensureDirs p.ancestors).ensureDirs [p]

theorem Spelled.addFile (h : fs.Spelled) (p : Path) (size : Nat) (modified : Instant) :
    (fs.addFile p size modified).Spelled :=
  (h.ensureDirs p.ancestors).put p _

theorem Spelled.erase (h : fs.Spelled) (p : Path) : (fs.erase p).Spelled :=
  ⟨fun hget => h.parts_eq (Catalog.get?_of_erase hget)⟩

theorem Spelled.removeFile (h : fs.Spelled) {p : Path} {fs' : Files}
    (hremove : fs.removeFile p = .ok fs') : fs'.Spelled := by
  unfold Files.removeFile at hremove
  split at hremove
  · cases hremove
    exact h.erase p
  · cases hremove
  · cases hremove

theorem Spelled.rename (h : fs.Spelled) {source target : Path} {fs' : Files}
    (hrename : fs.rename source target = .ok fs') : fs'.Spelled := by
  unfold Files.rename at hrename
  split at hrename
  · cases hrename
    exact (h.erase source).addFile target _ _
  · cases hrename
  · cases hrename

/-- **Directly below** is one part more, but for the root and the empty place, which are below
    nothing. -/
theorem isBelow_iff {above place : Place} :
    isBelow above place = true ↔
      place ≠ [.root] ∧ ∃ part, place = above ++ [part] := by
  unfold isBelow
  simp only [Bool.and_eq_true, bne_iff_ne, beq_iff_eq]
  constructor
  · rintro ⟨⟨hne, hroot⟩, rfl⟩
    exact ⟨hroot, place.getLast hne, (List.dropLast_append_getLast hne).symm⟩
  · rintro ⟨hroot, part, rfl⟩
    exact ⟨⟨by simp, hroot⟩, List.dropLast_concat⟩

/-- **The entries of a place** are the nodes that are stored directly below it, each as it was
    spelled. -/
theorem Spelled.mem_children_iff (h : fs.Spelled) {above : Place} {p : Path} :
    p ∈ fs.children above ↔
      isBelow above p.parts = true ∧ ∃ n, fs.nodes.get? p.parts = some (p, n) := by
  unfold children
  rw [List.mem_mergeSort, List.mem_map]
  constructor
  · rintro ⟨⟨place, spelled, n⟩, he, rfl⟩
    obtain ⟨hstored, hbelow⟩ := List.mem_filter.1 he
    have hget := (Catalog.mem_entries_iff _).1 hstored
    have hplace := h.parts_eq hget
    show isBelow above spelled.parts = true ∧ ∃ n, fs.nodes.get? spelled.parts = some (spelled, n)
    rw [hplace]
    exact ⟨hbelow, n, hget⟩
  · rintro ⟨hbelow, n, hget⟩
    exact ⟨(p.parts, p, n), List.mem_filter.2 ⟨(Catalog.mem_entries_iff _).2 hget, hbelow⟩, rfl⟩

/-- **Entries come in the order of paths,** each place once. -/
theorem Spelled.pairwise_children (h : fs.Spelled) (above : Place) :
    (fs.children above).Pairwise fun p q => Path.PlaceBefore p.parts q.parts := by
  let stored := fs.nodes.entries.filter fun e => isBelow above e.1
  have hsame : (stored.map fun e => e.2.1).map Path.parts = stored.map Prod.fst := by
    rw [List.map_map]
    apply List.map_congr_left
    rintro ⟨place, spelled, n⟩ he
    exact h.parts_eq ((Catalog.mem_entries_iff _).1 (List.mem_filter.1 he).1)
  have hdistinct : ((fs.children above).map Path.parts).Nodup := by
    unfold children
    rw [((List.mergeSort_perm _ _).map Path.parts).nodup_iff, hsame]
    exact (List.filter_sublist.map Prod.fst).nodup fs.nodes.distinct
  have hsorted : (fs.children above).Pairwise fun p q => p.sortsBefore q = true :=
    List.pairwise_mergeSort Path.sortsBefore_trans Path.sortsBefore_total _
  refine (hsorted.and (List.pairwise_map.1 hdistinct)).imp ?_
  rintro p q ⟨hle, hne⟩
  exact (Path.sortsBefore_iff.1 hle).resolve_left hne

theorem readDir_eq_ok_iff {dir : Path} {entries : List Path} :
    fs.readDir dir = .ok entries ↔ fs.find? dir = some .dir ∧ entries = fs.children dir.parts := by
  unfold readDir
  split
  next hdir =>
    rw [hdir]
    constructor
    · exact fun h => ⟨rfl, (Except.ok.inj h).symm⟩
    · rintro ⟨-, rfl⟩
      rfl
  next size time hfile =>
    rw [hfile]
    exact iff_of_false nofun fun h => by cases h.1
  next hnone =>
    rw [hnone]
    exact iff_of_false nofun fun h => by cases h.1

end Files

/-! ## 3. Trees on a disk -/

namespace Disk

def Fits (name : Bytes) : Prop := Path.IsName name ∧ name.length ≤ maxName

structure Named (d : Disk) : Prop where
  fits : ∀ {names : List Bytes} {n : Node}, d.nodes.get? names = some n → ∀ name ∈ names, Fits name

theorem named_empty : empty.Named := ⟨fun h => by cases h⟩

variable {d : Disk}

theorem Named.fits_of_at? (h : d.Named) {names : List Bytes} (hthere : (d.at? names).isSome) :
    ∀ name ∈ names, Fits name := by
  unfold at? at hthere
  split at hthere
  next hnil =>
    rw [List.isEmpty_iff.1 hnil]
    exact fun _ hname => by cases hname
  next =>
    obtain ⟨n, hn⟩ := Option.isSome_iff_exists.1 hthere
    exact h.fits hn

theorem Named.insert (h : d.Named) {names : List Bytes} (hnames : ∀ name ∈ names, Fits name)
    (n : Node) : Named ⟨d.nodes.insert names n⟩ := by
  constructor
  intro names' n' hget
  rw [Catalog.get?_insert] at hget
  split at hget
  next hsame =>
    rw [hsame]
    exact hnames
  next => exact h.fits hget

theorem Named.erase (h : d.Named) (names : List Bytes) : Named ⟨d.nodes.erase names⟩ :=
  ⟨fun hget => h.fits (Catalog.get?_of_erase hget)⟩

/-- Walking stays among the names of the disk. -/
theorem Named.walk (h : d.Named) {here names : List Bytes} {pieces : List Bytes}
    (hhere : ∀ name ∈ here, Fits name) (hwalk : d.walk here pieces = .ok names) :
    ∀ name ∈ names, Fits name := by
  induction pieces generalizing here with
  | nil =>
    cases hwalk
    exact hhere
  | cons piece rest ih =>
    unfold Disk.walk at hwalk
    split_ifs at hwalk with hdir hstays hup hlong hthere
    · exact ih hhere hwalk
    · exact ih (fun name hname => hhere name ((List.dropLast_sublist here).subset hname)) hwalk
    · exact ih (h.fits_of_at? hthere) hwalk

/-- **An entry** has a name that fits, in a directory of the disk. -/
theorem Named.entry (h : d.Named) {p : Path} {e : Entry} (hentry : d.entry p = .ok (some e)) :
    ∀ name ∈ e.names, Fits name := by
  unfold Disk.entry at hentry
  simp only [bind, Except.bind, pure, Except.pure, throw, throwThe, MonadExceptOf.throw] at hentry
  split at hentry
  · cases hentry
  · split at hentry
    · cases hentry
    next last above hlast =>
      split at hentry
      · cases hentry
      next directory hdirectory =>
        -- the last piece that is not empty
        have hmem : last ∈ p.pieces := by
          have hdrop := (List.dropWhile_sublist (fun x : Bytes => x.isEmpty)
            (l := p.pieces.reverse)).subset
          rw [hlast] at hdrop
          exact List.mem_reverse.1 (hdrop List.mem_cons_self)
        have hne : last ≠ [] := by
          rintro rfl
          have hhead := List.head?_dropWhile_not (fun x : Bytes => x.isEmpty) p.pieces.reverse
          rw [hlast] at hhead
          cases hhead
        have hsolid : Path.slash ∉ last := by
          intro hslash
          have hsep := Text.not_isSep_of_mem_pieces hmem hslash
          simp at hsep
        split_ifs at hentry with hdir hdots hlong
        · cases hentry
        · simp only [Bool.or_eq_true, beq_iff_eq, not_or] at hdots
          obtain rfl := Option.some.inj (Except.ok.inj hentry)
          intro name hname
          rcases List.mem_append.1 hname with hname | hname
          · exact h.walk (fun _ hnil => by cases hnil) hdirectory name hname
          · rw [List.mem_singleton.1 hname]
            exact ⟨Path.isName_iff.2 ⟨hsolid, hne, hdots.1, hdots.2⟩, Nat.le_of_not_lt hlong⟩

theorem Named.makeDir (h : d.Named) {p : Path} {d' : Disk} (hmake : d.makeDir p = .ok d') :
    d'.Named := by
  unfold Disk.makeDir at hmake
  cases hentry : d.entry p with
  | error e =>
    rw [hentry] at hmake
    cases hmake
  | ok found =>
    rw [hentry] at hmake
    cases found with
    | none => cases hmake
    | some e =>
      simp only [bind, Except.bind, pure, Except.pure, throw, throwThe, MonadExceptOf.throw]
        at hmake
      split at hmake
      · cases hmake
      · cases hmake
        exact h.insert (h.entry hentry) .dir

theorem Named.makeDirs (h : d.Named) {ps : List Path} {d' : Disk}
    (hmake : d.makeDirs ps = .ok d') : d'.Named := by
  induction ps generalizing d' with
  | nil =>
    cases hmake
    exact h
  | cons p above ih =>
    rw [Disk.makeDirs] at hmake
    split at hmake
    next made hmade =>
      cases hmake
      exact h.makeDir hmade
    next =>
      split at hmake
      next => cases hmake
      next parents hparents =>
        -- the directories above were missing and are made first
        have hnamed := ih hparents
        split at hmake
        next made hmade =>
          cases hmake
          exact hnamed.makeDir hmade
        next =>
          split at hmake
          · cases hmake
            exact hnamed
          · cases hmake
    next =>
      split at hmake
      · cases hmake
        exact h
      · cases hmake

theorem Named.createDirs (h : d.Named) {p : Path} {d' : Disk}
    (hcreate : d.createDirs p = .ok d') : d'.Named := by
  unfold Disk.createDirs at hcreate
  split at hcreate
  · cases hcreate
    exact h
  · exact h.makeDirs hcreate

theorem Named.addDir (h : d.Named) (p : Path) : (d.addDir p).Named := by
  unfold Disk.addDir
  split
  next made hmade => exact h.createDirs hmade
  next => exact h

theorem Named.addFile (h : d.Named) (p : Path) (size : Nat) (modified : Instant) :
    (d.addFile p size modified).Named := by
  unfold Disk.addFile
  extract_lets made
  have hmade : made.Named := by
    dsimp only [made]
    split
    · exact h.addDir _
    · exact h
  split
  next e hentry =>
    split
    · exact hmade
    · exact hmade.insert (hmade.entry hentry) _
  next => exact hmade

theorem Named.removeFile (h : d.Named) {p : Path} {d' : Disk}
    (hremove : d.removeFile p = .ok d') : d'.Named := by
  unfold Disk.removeFile at hremove
  split at hremove
  · cases hremove
  · cases hremove
  · split at hremove
    · cases hremove
    · cases hremove
    · split at hremove
      · cases hremove
      · cases hremove
        exact h.erase _

theorem Named.transplant (h : d.Named) {source target : List Bytes}
    (htarget : ∀ name ∈ target, Fits name) : (d.transplant source target).Named := by
  constructor
  intro names n hget
  unfold Disk.transplant at hget
  rcases Catalog.mem_or_get?_of_insertAll hget with hmoved | hkept
  · obtain ⟨⟨old, n'⟩, he, heq⟩ := List.mem_map.1 hmoved
    cases heq
    intro name hname
    rcases List.mem_append.1 hname with hname | hname
    · exact htarget name hname
    · have hold := (Catalog.mem_entries_iff _).1 (List.mem_filter.1 he).1
      exact h.fits hold name (List.mem_of_mem_drop hname)
  · rw [Catalog.get?_filter, Option.filter_eq_some_iff] at hkept
    exact h.fits hkept.1

theorem Named.move (h : d.Named) {source target : Path} {d' : Disk}
    (hmove : d.move source target = .ok d') : d'.Named := by
  unfold Disk.move at hmove
  cases hsource : d.entry source with
  | error e =>
    rw [hsource] at hmove
    cases hmove
  | ok s =>
    cases htarget : d.entry target with
    | error e =>
      rw [hsource, htarget] at hmove
      cases hmove
    | ok t =>
      rw [hsource, htarget] at hmove
      simp only [bind, Except.bind, pure, Except.pure, throw, throwThe, MonadExceptOf.throw]
        at hmove
      split at hmove
      next s' t' =>
        -- whichever way a move succeeds, nothing changes or a subtree has a new place
        have hmoved : (d.transplant s'.names t'.names).Named := h.transplant (h.entry htarget)
        split at hmove
        · cases hmove
        · split_ifs at hmove
          · cases hmove
            exact h
          · cases hmove
            exact hmoved
        · by_cases hsame : (s'.names == t'.names) = true
          · rw [if_pos hsame] at hmove
            cases hmove
            exact h
          · rw [if_neg hsame] at hmove
            split_ifs at hmove
            all_goals split at hmove <;> cases hmove <;> exact hmoved
      next => cases hmove

theorem Named.rename (h : d.Named) (source target : Path) : (d.rename source target).1.Named := by
  unfold Disk.rename
  extract_lets made
  have hmade : ∀ {d' : Disk}, made = .ok d' → d'.Named := by
    intro d' hmade
    dsimp only [made] at hmade
    split at hmade
    · split at hmade
      next made hcreate =>
        cases hmade
        exact h.createDirs hcreate
      next => cases hmade
    · cases hmade
      exact h
  cases hd : made with
  | error e => exact h
  | ok d' =>
    dsimp only
    split
    next moved hmoved => exact (hmade hd).move hmoved
    next => exact hmade hd

/-! ### Entries -/

theorem reach_eq_ok_iff {p : Path} {names : List Bytes} {n : Node} :
    d.reach p = .ok (names, n) ↔
      p.bytes ≠ [] ∧ d.walk [] p.pieces = .ok names ∧ d.at? names = some n := by
  unfold reach
  by_cases hempty : p.bytes = []
  · simp [hempty, bind, Except.bind, throw, throwThe, MonadExceptOf.throw]
  · rw [if_neg (by simpa using hempty)]
    cases hwalk : d.walk [] p.pieces with
    | error e => exact iff_of_false nofun fun h => by cases h.2.1
    | ok found =>
      dsimp only [bind, Except.bind]
      cases hfound : d.at? found with
      | none =>
        refine iff_of_false nofun ?_
        rintro ⟨-, heq, hthere⟩
        cases heq
        rw [hfound] at hthere
        cases hthere
      | some n' =>
        constructor
        · intro heq
          cases heq
          exact ⟨hempty, rfl, hfound⟩
        · rintro ⟨-, heq, hthere⟩
          cases heq
          rw [hfound] at hthere
          cases hthere
          rfl

theorem walk_append (here : List Bytes) (ps qs : List Bytes) :
    d.walk here (ps ++ qs) = (d.walk here ps).bind fun there => d.walk there qs := by
  induction ps generalizing here with
  | nil => rfl
  | cons piece ps ih =>
    rw [List.cons_append, walk, walk]
    split_ifs
    · rfl
    · exact ih here
    · exact ih here.dropLast
    · rfl
    · exact ih (here ++ [piece])
    · rfl

theorem walk_name {here : List Bytes} {name : Bytes} (hhere : d.at? here = some .dir)
    (hfits : Fits name) (hthere : (d.at? (here ++ [name])).isSome = true) :
    d.walk here [name] = .ok (here ++ [name]) := by
  obtain ⟨hname, hlength⟩ := hfits
  obtain ⟨-, hne, hdot, hup⟩ := Path.isName_iff.1 hname
  have hstays : stays name = false := by
    unfold stays
    simp [hne, hdot]
  have hlong : ¬name.length > maxName := Nat.not_lt.2 hlength
  unfold walk
  rw [hhere, hstays, if_neg (by simp), if_neg (by simp), if_neg (by simpa using hup), if_neg hlong,
    if_pos hthere]
  rfl

/-- **Where an entry is:** its name follows the names of its directory. -/
theorem reach_join {dir : Path} {names : List Bytes} (hdir : d.reach dir = .ok (names, .dir))
    {name : Bytes} (hfits : Fits name) {n : Node} (hthere : d.at? (names ++ [name]) = some n) :
    d.reach (dir.join ⟨name⟩) = .ok (names ++ [name], n) := by
  obtain ⟨hne, hwalk, hat⟩ := reach_eq_ok_iff.1 hdir
  obtain ⟨-, ps, hjoined, hpieces⟩ := Path.pieces_join hne hfits.1
  have hps : d.walk [] ps = .ok names := by
    rcases hpieces with hps | hps
    · rw [← hps, hwalk]
    · -- an empty piece behind the last slash stays where it is
      rw [hps, walk_append] at hwalk
      obtain ⟨there, hthere, hlast⟩ := bind_eq_ok_iff.1 hwalk
      unfold walk at hlast
      split_ifs at hlast with hdir hstays
      · cases hlast
        exact hthere
      all_goals exact absurd rfl hstays
  have hbytes : (dir.join ⟨name⟩).bytes ≠ [] := by
    rw [Path.join_name dir hfits.1]
    split <;> simp [hne]
  refine reach_eq_ok_iff.2 ⟨hbytes, ?_, hthere⟩
  rw [hjoined, walk_append, hps]
  exact walk_name hat hfits (by rw [hthere]; rfl)

theorem mem_childNames_iff {above : List Bytes} {name : Bytes} :
    name ∈ d.childNames above ↔ above ++ [name] ∈ d.nodes.keys := by
  unfold childNames
  rw [List.mem_mergeSort, List.mem_filterMap]
  constructor
  · rintro ⟨names, hnames, hlast⟩
    simp only [List.mem_filter, Bool.and_eq_true, beq_iff_eq] at hnames
    obtain ⟨hkey, -, rfl⟩ := hnames
    obtain ⟨front, rfl⟩ := List.getLast?_eq_some_iff.1 hlast
    rwa [List.dropLast_concat]
  · intro hkey
    refine ⟨above ++ [name], List.mem_filter.2 ⟨hkey, ?_⟩, List.getLast?_concat⟩
    simp

theorem nodup_childNames (above : List Bytes) : (d.childNames above).Nodup := by
  unfold childNames
  rw [(List.mergeSort_perm _ _).nodup_iff]
  refine List.pairwise_filterMap.2 ((d.nodes.distinct.filter _).imp_of_mem ?_)
  intro names names' hmem hmem' hne name hname name' hname' heq
  obtain ⟨front, rfl⟩ := List.getLast?_eq_some_iff.1 hname
  obtain ⟨front', rfl⟩ := List.getLast?_eq_some_iff.1 hname'
  simp only [List.mem_filter, List.dropLast_concat, Bool.and_eq_true, beq_iff_eq] at hmem hmem'
  exact hne (by rw [heq, hmem.2.2, hmem'.2.2])

theorem readDir_eq_ok_iff {dir : Path} {entries : List Path} :
    d.readDir dir = .ok entries ↔
      ∃ names, d.reach dir = .ok (names, .dir) ∧
        entries = (d.childNames names).map fun name => dir.join ⟨name⟩ := by
  unfold readDir
  split
  next names hdir =>
    rw [hdir]
    constructor
    · intro h
      exact ⟨names, rfl, (Except.ok.inj h).symm⟩
    · rintro ⟨names', hnames, rfl⟩
      cases hnames
      rfl
  next found hnot hfound =>
    refine iff_of_false nofun ?_
    rintro ⟨names, hdir, -⟩
    rw [hdir] at hfound
    cases hfound
    exact hnot names rfl
  next e he =>
    refine iff_of_false nofun ?_
    rintro ⟨names, hdir, -⟩
    rw [hdir] at he
    cases he

def position (d : Disk) (p : Path) : List Bytes :=
  match d.reach p with
  | .ok (names, _) => names
  | .error _ => []

theorem position_of_reach {p : Path} {names : List Bytes} {n : Node}
    (h : d.reach p = .ok (names, n)) : d.position p = names := by
  unfold position
  rw [h]

/-- **An entry of a disk** is one name below its directory, both as a path and on the disk. -/
theorem Named.entry_position (h : d.Named) {dir : Path} {names : List Bytes}
    (hdir : d.reach dir = .ok (names, .dir)) {name : Bytes} (hname : name ∈ d.childNames names) :
    d.position (dir.join ⟨name⟩) = names ++ [name] ∧
      (dir.join ⟨name⟩).parts = dir.parts ++ [.name name] := by
  have hkey := (Catalog.mem_keys_iff _).1 (mem_childNames_iff.1 hname)
  rw [Catalog.contains_eq_isSome, Option.isSome_iff_exists] at hkey
  obtain ⟨n, hn⟩ := hkey
  have hfits : Fits name := h.fits hn name (List.mem_append_right _ List.mem_cons_self)
  have hthere : d.at? (names ++ [name]) = some n := by
    unfold at?
    rw [if_neg (by simp), hn]
  exact ⟨position_of_reach (reach_join hdir hfits hthere), Path.parts_join dir hfits.1⟩

/-- An entry has one name more than its directory. -/
theorem Named.exists_name (h : d.Named) {dir p : Path} {entries : List Path}
    (hread : d.readDir dir = .ok entries) (hp : p ∈ entries) :
    ∃ name, d.position p = d.position dir ++ [name] ∧ d.position p ∈ d.nodes.keys ∧
      p.parts = dir.parts ++ [.name name] := by
  obtain ⟨names, hreach, rfl⟩ := readDir_eq_ok_iff.1 hread
  obtain ⟨name, hname, rfl⟩ := List.mem_map.1 hp
  obtain ⟨hposition, hparts⟩ := h.entry_position hreach hname
  rw [position_of_reach hreach, hposition]
  exact ⟨name, rfl, mem_childNames_iff.1 hname, hparts⟩

end Disk

/-! ## 4. Volumes -/

namespace Backing

def readDir : Backing → Path → Except IoError (List Path)
  | memory files, p => files.readDir p
  | disk d, p => d.readDir p

def metadata : Backing → Path → Except IoError FileInfo
  | memory files, p => files.metadata p
  | disk d, p => d.metadata p

def Sound : Backing → Prop
  | memory files => files.Spelled
  | disk d => d.Named

end Backing

namespace Volume

variable {v : Volume}

/-- **A directory is read** unless a fault denies it; another fault breaks off behind its last
    entry. -/
theorem readDir_eq (v : Volume) (p : Path) :
    v.readDir p =
      if Faults.hit v.faults.readDir p then .error (Faults.denied "read_dir")
      else (v.backing.readDir p).map fun entries =>
        ⟨entries, if Faults.hit v.faults.nextEntry p then some (Faults.denied "next_entry")
          else none⟩ := by
  obtain ⟨backing, faults⟩ := v
  unfold readDir
  by_cases hdenied : Faults.hit faults.readDir p = true
  · rw [if_pos hdenied, if_pos hdenied]
    rfl
  · rw [if_neg hdenied, if_neg hdenied]
    cases backing with
    | memory files =>
      show (files.readDir p).bind _ = (files.readDir p).map _
      cases files.readDir p with
      | error e => rfl
      | ok entries =>
        cases Faults.hit faults.nextEntry p <;> rfl
    | disk d =>
      show (d.readDir p).bind _ = (d.readDir p).map _
      cases d.readDir p with
      | error e => rfl
      | ok entries =>
        cases Faults.hit faults.nextEntry p <;> rfl

theorem readDir_eq_ok_iff {p : Path} {stream : Stream} :
    v.readDir p = .ok stream ↔
      Faults.hit v.faults.readDir p = false ∧ v.backing.readDir p = .ok stream.entries ∧
      stream.failure =
        if Faults.hit v.faults.nextEntry p then some (Faults.denied "next_entry") else none := by
  obtain ⟨entries, failure⟩ := stream
  rw [readDir_eq]
  cases Faults.hit v.faults.readDir p with
  | true => exact iff_of_false nofun fun h => by cases h.1
  | false =>
    cases v.backing.readDir p with
    | error e => exact iff_of_false nofun fun h => by cases h.2.1
    | ok found =>
      constructor
      · intro h
        cases h
        exact ⟨rfl, rfl, rfl⟩
      · rintro ⟨-, hfound, hfailure⟩
        cases hfound
        cases hfailure
        rfl

/-- **A node is known** unless a fault denies it; others hide its kind or its time. -/
theorem metadata_eq (v : Volume) (p : Path) :
    v.metadata p =
      if Faults.hit v.faults.metadata p then .error (Faults.denied "metadata")
      else (v.backing.metadata p).map fun info =>
        let plain := !Faults.hit v.faults.special p
        ⟨info.isDir && plain, info.isFile && plain, info.size,
          if Faults.hit v.faults.noTime p then none else info.modified⟩ := by
  obtain ⟨backing, faults⟩ := v
  unfold metadata
  by_cases hdenied : Faults.hit faults.metadata p = true
  · rw [if_pos hdenied, if_pos hdenied]
    rfl
  · rw [if_neg hdenied, if_neg hdenied]
    cases backing with
    | memory files =>
      show (files.metadata p).bind _ = (files.metadata p).map _
      cases files.metadata p <;> rfl
    | disk d =>
      show (d.metadata p).bind _ = (d.metadata p).map _
      cases d.metadata p <;> rfl

/-- **Made:** operations lead from an empty volume to this one, under faults that change at will. -/
inductive Made : Volume → Prop where
  | memory : Made ⟨.memory .empty, {}⟩
  | disk : Made ⟨.disk .empty, {}⟩
  | faulty {v : Volume} (h : Made v) (faults : Faults) : Made { v with faults }
  | addDir {v : Volume} (h : Made v) (p : Path) : Made (v.addDir p)
  | addFile {v : Volume} (h : Made v) (p : Path) (size : Nat) (modified : Instant) :
      Made (v.addFile p size modified)
  | removeFile {v : Volume} (h : Made v) (p : Path) : Made (v.removeFile p).1
  | rename {v : Volume} (h : Made v) (source target : Path) : Made (v.rename source target).1

theorem sound_removeFile (h : v.backing.Sound) (p : Path) : (v.removeFile p).1.backing.Sound := by
  obtain ⟨backing, faults⟩ := v
  unfold removeFile
  split
  · exact h
  · cases backing with
    | memory files =>
      dsimp only
      split
      next removed hremove => exact Files.Spelled.removeFile h hremove
      next => exact h
    | disk d =>
      dsimp only
      split
      next removed hremove => exact Disk.Named.removeFile h hremove
      next => exact h

theorem sound_rename (h : v.backing.Sound) (source target : Path) :
    (v.rename source target).1.backing.Sound := by
  obtain ⟨backing, faults⟩ := v
  unfold rename
  split
  · exact h
  · cases backing with
    | memory files =>
      dsimp only
      split
      next renamed hrename => exact Files.Spelled.rename h hrename
      next => exact h
    | disk d => exact Disk.Named.rename h source target

theorem Made.sound (h : v.Made) : v.backing.Sound := by
  induction h with
  | memory => exact Files.spelled_empty
  | disk => exact Disk.named_empty
  | faulty _ _ ih => exact ih
  | @addDir v _ p ih =>
    obtain ⟨backing, faults⟩ := v
    cases backing with
    | memory files => exact Files.Spelled.addDir ih p
    | disk d => exact Disk.Named.addDir ih p
  | @addFile v _ p size modified ih =>
    obtain ⟨backing, faults⟩ := v
    cases backing with
    | memory files => exact Files.Spelled.addFile ih p size modified
    | disk d => exact Disk.Named.addFile ih p size modified
  | removeFile _ p ih => exact sound_removeFile ih p
  | rename _ source target ih => exact sound_rename ih source target

/-! ### Charts -/

def entries (v : Volume) (dir : Path) : List Path :=
  match v.readDir dir with
  | .ok stream => stream.entries
  | .error _ => []

theorem backing_readDir_of_mem {dir p : Path} (hp : p ∈ v.entries dir) :
    v.backing.readDir dir = .ok (v.entries dir) := by
  unfold entries at hp ⊢
  split at hp
  next stream hread => exact (readDir_eq_ok_iff.1 hread).2.1
  next => cases hp

/-- **In memory** the entries of a directory that can be read are the nodes stored below it. -/
theorem mem_entries_memory_iff {files : Files} {faults : Faults} (h : files.Spelled)
    {dir p : Path} :
    p ∈ entries ⟨.memory files, faults⟩ dir ↔
      (∃ stream, readDir ⟨.memory files, faults⟩ dir = .ok stream) ∧
      Files.isBelow dir.parts p.parts = true ∧ ∃ n, files.nodes.get? p.parts = some (p, n) := by
  unfold entries
  cases hread : readDir ⟨.memory files, faults⟩ dir with
  | error e => exact iff_of_false nofun fun h => by cases h.1.choose_spec
  | ok stream =>
    have hchildren : stream.entries = files.children dir.parts :=
      (Files.readDir_eq_ok_iff.1 (readDir_eq_ok_iff.1 hread).2.1).2
    show p ∈ stream.entries ↔ _
    rw [hchildren, h.mem_children_iff]
    exact ⟨fun hp => ⟨⟨stream, rfl⟩, hp⟩, fun hp => hp.2⟩

/-- **A chart** gives each entry of a directory a position of its own, one step below the position
    of the directory.  The order of positions on a level is the order of the directories they are
    in.  There are no more positions than nodes. -/
structure Chart (v : Volume) (α : Type) (Before : List α → List α → Prop) where
  position : Path → List α
  positions : List (List α)
  length_positions : positions.length ≤ v.size
  mem_positions : ∀ {dir p : Path}, p ∈ v.entries dir → position p ∈ positions
  below : ∀ {dir p : Path}, p ∈ v.entries dir → ∃ step, position p = position dir ++ [step]
  ordered : ∀ dir : Path, (v.entries dir).Pairwise fun p q => Before (position p) (position q)
  ne : ∀ {a b : List α}, Before a b → a ≠ b
  append : ∀ {a b : List α}, Before a b → a.length = b.length → ∀ x y, Before (a ++ x) (b ++ y)

def chartMemory {files : Files} (h : files.Spelled) (faults : Faults) :
    Chart ⟨.memory files, faults⟩ Path.Part Path.PlaceBefore where
  position := Path.parts
  positions := files.nodes.keys
  length_positions := Nat.le_of_eq (List.length_map _)
  mem_positions {dir p} hp := by
    obtain ⟨-, -, n, hget⟩ := (mem_entries_memory_iff h).1 hp
    rw [Catalog.mem_keys_iff, Catalog.contains_eq_isSome, hget]
    rfl
  below {dir p} hp := (Files.isBelow_iff.1 ((mem_entries_memory_iff h).1 hp).2.1).2
  ordered dir := by
    unfold entries
    split
    next stream hread =>
      rw [(Files.readDir_eq_ok_iff.1 (readDir_eq_ok_iff.1 hread).2.1).2]
      exact h.pairwise_children _
    next => exact .nil
  ne := Path.PlaceBefore.ne
  append := Path.PlaceBefore.append

def chartDisk {d : Disk} (h : d.Named) (faults : Faults) :
    Chart ⟨.disk d, faults⟩ Bytes (· ≠ ·) where
  position := d.position
  positions := d.nodes.keys
  length_positions := Nat.le_of_eq (List.length_map _)
  mem_positions {dir p} hp := by
    obtain ⟨name, -, hmem, -⟩ := h.exists_name (backing_readDir_of_mem hp) hp
    exact hmem
  below {dir p} hp := by
    obtain ⟨name, hposition, -, -⟩ := h.exists_name (backing_readDir_of_mem hp) hp
    exact ⟨name, hposition⟩
  ordered dir := by
    unfold entries
    split
    next stream hread =>
      obtain ⟨names, hreach, hentries⟩ :=
        Disk.readDir_eq_ok_iff.1 (readDir_eq_ok_iff.1 hread).2.1
      rw [hentries, List.pairwise_map]
      refine (Disk.nodup_childNames names).imp_of_mem fun hname hname' hne => ?_
      rw [(h.entry_position hreach hname).1, (h.entry_position hreach hname').1]
      intro heq
      exact hne (List.singleton_injective (List.append_cancel_left heq))
    next => exact .nil
  ne := id
  append hne hlength x y heq := hne (List.append_inj_left heq hlength)

/-- **A volume that operations lead to is a tree.** -/
theorem Made.exists_chart (h : v.Made) :
    ∃ (α : Type) (Before : List α → List α → Prop), Nonempty (Chart v α Before) := by
  have hsound := h.sound
  obtain ⟨backing, faults⟩ := v
  cases backing with
  | memory files => exact ⟨_, _, ⟨chartMemory hsound faults⟩⟩
  | disk d => exact ⟨_, _, ⟨chartDisk hsound faults⟩⟩

/-- **An entry** has one part more than its directory. -/
theorem Made.parts_entry (h : v.Made) {dir p : Path} (hp : p ∈ v.entries dir) :
    ∃ part, p.parts = dir.parts ++ [part] := by
  have hsound := h.sound
  obtain ⟨backing, faults⟩ := v
  cases backing with
  | memory files => exact (chartMemory hsound faults).below hp
  | disk d =>
    obtain ⟨name, -, -, hparts⟩ := Disk.Named.exists_name hsound (backing_readDir_of_mem hp) hp
    exact ⟨.name name, hparts⟩

end Volume

end Intake
