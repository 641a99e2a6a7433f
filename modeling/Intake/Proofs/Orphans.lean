import Intake.Proofs.Footprint
import Intake.Proofs.Listed

/-!
# Orphans — when a tree in memory stays a tree

In a tree every place above a node is a directory (`Files.IsTree`); then, and only then, all nodes
are reached from the root (`Files.isTree_iff_reached`).  Making the directories above a path leaves
a file there as it is, and a file that is put takes the place of a directory but not what is below
it.  No change orphans a node in another way (`Files.IsTree.change_iff`), so changes lead to trees
exactly as long as none of them does this (`Files.stays_tree_iff`).
-/

namespace Intake

namespace Files

variable {fs : Files} {p : Path} {above place : Place} {n : Node}

/-! ## 1. Trees, and what is no tree -/

/-- **A tree:** every place above a node is a directory.  The place without parts is that of the
    empty path, which is no ancestor. -/
structure IsTree (fs : Files) : Prop where
  dir_above : ∀ {above place : Place} {n : Node},
    fs.at? place = some n → IsAbove above place → above ≠ [] → fs.at? above = some .dir

def BelowFile (fs : Files) (place : Place) : Prop :=
  ∃ above n, fs.at? above = some n ∧ n.isFile = true ∧ IsAbove above place ∧ above ≠ []

def AboveNode (fs : Files) (place : Place) : Prop :=
  ∃ below n, fs.at? below = some n ∧ IsAbove place below

theorem exists_at?_iff (fs : Files) (P : Place → Node → Prop) :
    (∃ place n, fs.at? place = some n ∧ P place n) ↔ ∃ e ∈ fs.nodes.entries, P e.1 e.2.2 := by
  constructor
  · rintro ⟨place, n, hat, hP⟩
    obtain ⟨spelled, hget⟩ := at?_eq_some_iff.1 hat
    exact ⟨(place, spelled, n), (Catalog.mem_entries_iff _).2 hget, hP⟩
  · rintro ⟨⟨place, spelled, n⟩, he, hP⟩
    exact ⟨place, n, at?_eq_some_iff.2 ⟨spelled, (Catalog.mem_entries_iff _).1 he⟩, hP⟩

instance (fs : Files) (place : Place) : Decidable (fs.BelowFile place) :=
  decidable_of_iff (∃ e ∈ fs.nodes.entries, e.2.2.isFile = true ∧ IsAbove e.1 place ∧ e.1 ≠ [])
    (fs.exists_at?_iff fun above n => n.isFile = true ∧ IsAbove above place ∧ above ≠ []).symm

instance (fs : Files) (place : Place) : Decidable (fs.AboveNode place) :=
  decidable_of_iff (∃ e ∈ fs.nodes.entries, IsAbove place e.1)
    (fs.exists_at?_iff fun below _ => IsAbove place below).symm

theorem BelowFile.not_isTree (h : fs.BelowFile place) (hthere : fs.at? place = some n) :
    ¬fs.IsTree := by
  intro htree
  obtain ⟨above, n', hat, hfile, habove, hne⟩ := h
  rw [htree.dir_above hthere habove hne] at hat
  cases hat
  cases hfile

theorem AboveNode.not_isTree (h : fs.AboveNode place) (hthere : fs.at? place = some n)
    (hfile : n.isFile = true) (hne : place ≠ []) : ¬fs.IsTree := by
  obtain ⟨below, n', hat, hbelow⟩ := h
  exact BelowFile.not_isTree ⟨place, n, hthere, hfile, hbelow, hne⟩ hat

theorem isTree_empty : empty.IsTree := ⟨fun h => by cases h⟩

/-! ## 2. Making the directories above a path -/

theorem at?_ensureParents_of_some (p : Path) (h : fs.at? place = some n) :
    (fs.ensureParents p).at? place = some n := by
  rcases fs.at?_ensureParents p place with hsame | ⟨hnone, -⟩
  · exact hsame.trans h
  · rw [hnone] at h
    cases h

/-- What is there behind the making was there before, or is a place above the path. -/
theorem at?_of_ensureParents (h : (fs.ensureParents p).at? place = some n) :
    fs.at? place = some n ∨ IsAbove place p.parts ∧ place ≠ [] := by
  rcases fs.get?_ensureDirs p.ancestors place with hsame | ⟨⟨q, hq, rfl⟩, -, -⟩
  · exact .inl ((at?_eq_of_get?_eq hsame).symm.trans h)
  · obtain ⟨-, hbytes⟩ := List.mem_filter.1 hq
    refine .inr ⟨Path.isAbove_of_mem_ancestors hq, Path.parts_ne_nil ?_⟩
    simpa using hbytes

theorem BelowFile.ensureParents (h : fs.BelowFile place) (p : Path) :
    (fs.ensureParents p).BelowFile place := by
  obtain ⟨above, n, hat, hfile⟩ := h
  exact ⟨above, n, at?_ensureParents_of_some p hat, hfile⟩

theorem aboveNode_ensureParents_iff (p : Path) :
    (fs.ensureParents p).AboveNode p.parts ↔ fs.AboveNode p.parts := by
  constructor
  · rintro ⟨below, n, hat, hbelow⟩
    -- what is made is above the path, so it is not below
    rcases at?_of_ensureParents hat with hat | ⟨habove, -⟩
    · exact ⟨below, n, hat, hbelow⟩
    · exact absurd habove hbelow.asymm
  · rintro ⟨below, n, hat, hbelow⟩
    exact ⟨below, n, at?_ensureParents_of_some p hat, hbelow⟩

/-- **All places above a path become directories,** unless one of them is a file. -/
theorem dir_ensureParents (hfree : ¬fs.BelowFile p.parts) (habove : IsAbove above p.parts)
    (hne : above ≠ []) : (fs.ensureParents p).at? above = some .dir := by
  cases hat : fs.at? above with
  | none =>
    have hget : fs.nodes.get? above = none := Option.map_eq_none_iff.1 hat
    exact fs.at?_ensureParents_above habove hne hget
  | some n =>
    cases n with
    | dir => exact at?_ensureParents_of_some p hat
    | file size modified => exact absurd ⟨above, _, hat, rfl, habove, hne⟩ hfree

theorem IsTree.ensureParents (h : fs.IsTree) (hfree : ¬fs.BelowFile p.parts) :
    (fs.ensureParents p).IsTree := by
  constructor
  intro above place n hat habove hne
  rcases at?_of_ensureParents hat with hat | ⟨hplace, -⟩
  · exact at?_ensureParents_of_some p (h.dir_above hat habove hne)
  · exact dir_ensureParents hfree (habove.trans hplace) hne

/-! ## 3. Putting and taking away -/

theorem at?_put_of_ne (h : place ≠ p.parts) (n : Node) : (fs.put p n).at? place = fs.at? place := by
  rw [at?_put, if_neg h]

theorem at?_put_self (fs : Files) (p : Path) (n : Node) : (fs.put p n).at? p.parts = some n := by
  rw [at?_put, if_pos rfl]

theorem BelowFile.put (h : fs.BelowFile p.parts) (n : Node) : (fs.put p n).BelowFile p.parts := by
  obtain ⟨above, n', hat, hfile, habove, hne⟩ := h
  exact ⟨above, n', (at?_put_of_ne habove.2 n).trans hat, hfile, habove, hne⟩

theorem AboveNode.put (h : fs.AboveNode p.parts) (n : Node) : (fs.put p n).AboveNode p.parts := by
  obtain ⟨below, n', hat, hbelow⟩ := h
  exact ⟨below, n', (at?_put_of_ne hbelow.2.symm n).trans hat, hbelow⟩

theorem IsTree.put (h : fs.IsTree)
    (habove : ∀ above, IsAbove above p.parts → above ≠ [] → fs.at? above = some .dir)
    (hroom : n = .dir ∨ ¬fs.AboveNode p.parts) : (fs.put p n).IsTree := by
  constructor
  intro above place n' hat hplace hne
  have hdir : fs.at? above = some .dir := by
    rw [at?_put] at hat
    split at hat
    next heq => exact habove above (heq ▸ hplace) hne
    next => exact h.dir_above hat hplace hne
  by_cases heq : above = p.parts
  · -- something is below the path, so no file was put
    subst heq
    rw [at?_put_of_ne hplace.2.symm] at hat
    rw [at?_put_self, hroom.resolve_right fun hnone => hnone ⟨place, n', hat, hplace⟩]
  · rwa [at?_put_of_ne heq]

/-- A file is above nothing in a tree, so it can be taken away. -/
theorem IsTree.erase (h : fs.IsTree) (hfile : n.isFile = true) (hthere : fs.find? p = some n) :
    (fs.erase p).IsTree := by
  constructor
  intro above place n' hat habove hne
  rw [at?_erase] at hat ⊢
  split at hat
  · cases hat
  · have hdir := h.dir_above hat habove hne
    rw [if_neg, hdir]
    rintro rfl
    rw [find?, hdir] at hthere
    cases hthere
    cases hfile

/-- **A directory that is added** leaves a tree unless its path is below a file. -/
theorem IsTree.addDir_iff (h : fs.IsTree) (p : Path) :
    (fs.addDir p).IsTree ↔ ¬fs.BelowFile p.parts := by
  unfold addDir ensureDir
  constructor
  · intro htree hbelow
    have hbelow' := hbelow.ensureParents p
    split at htree
    next hthere =>
      rw [contains_eq_isSome, Option.isSome_iff_exists] at hthere
      exact hbelow'.not_isTree hthere.choose_spec htree
    next => exact (hbelow'.put .dir).not_isTree (at?_put_self _ p .dir) htree
  · intro hfree
    have htree := h.ensureParents hfree
    split
    · exact htree
    · exact htree.put (fun _ => dir_ensureParents hfree) (.inl rfl)

/-- **A file that is added** leaves a tree unless its path is below a file, or has something
    below. -/
theorem IsTree.addFile_iff (h : fs.IsTree) (hne : p.parts ≠ []) (size : Nat)
    (modified : Instant) :
    (fs.addFile p size modified).IsTree ↔ ¬(fs.BelowFile p.parts ∨ fs.AboveNode p.parts) := by
  have hthere := (fs.ensureParents p).at?_put_self p (.file size modified)
  unfold addFile
  constructor
  · rintro htree (hbelow | habove)
    · exact ((hbelow.ensureParents p).put _).not_isTree hthere htree
    · have habove' := (aboveNode_ensureParents_iff p).2 habove
      exact (habove'.put _).not_isTree hthere rfl hne htree
  · intro hfree
    obtain ⟨hbelow, habove⟩ := not_or.1 hfree
    refine (h.ensureParents hbelow).put (fun _ => dir_ensureParents hbelow) (.inr ?_)
    rwa [aboveNode_ensureParents_iff]

/-! ## 4. Changes -/

inductive Change where
  | addDir (p : Path)
  | addFile (p : Path) (size : Nat) (modified : Instant)
  | removeFile (p : Path)
  | rename (source target : Path)
  deriving DecidableEq, Repr

def Change.isAbsolute : Change → Bool
  | addDir p => p.isAbsolute
  | addFile p _ _ => p.isAbsolute
  | removeFile p => p.isAbsolute
  | rename source target => source.isAbsolute && target.isAbsolute

def change (fs : Files) : Change → Files
  | .addDir p => fs.addDir p
  | .addFile p size modified => fs.addFile p size modified
  | .removeFile p =>
    match fs.removeFile p with
    | .ok removed => removed
    | .error _ => fs
  | .rename source target =>
    match fs.rename source target with
    | .ok renamed => renamed
    | .error _ => fs

def changeAll (fs : Files) (changes : List Change) : Files := changes.foldl change fs

/-- **A change orphans** a node: it adds one below a file, or puts a file above one.  A file that
    moves is out of its own way. -/
def Orphans (fs : Files) : Change → Prop
  | .addDir p => fs.BelowFile p.parts
  | .addFile p _ _ => fs.BelowFile p.parts ∨ fs.AboveNode p.parts
  | .removeFile _ => False
  | .rename source target =>
    (fs.find? source).any Node.isFile = true ∧
      ((fs.erase source).BelowFile target.parts ∨ (fs.erase source).AboveNode target.parts)

instance (fs : Files) (c : Change) : Decidable (fs.Orphans c) :=
  match c with
  | .addDir _ => inferInstanceAs (Decidable (fs.BelowFile _))
  | .addFile _ _ _ => inferInstanceAs (Decidable (_ ∨ _))
  | .removeFile _ => inferInstanceAs (Decidable False)
  | .rename _ _ => inferInstanceAs (Decidable (_ ∧ _))

/-- **A removal** takes a file away, or fails. -/
theorem change_removeFile_cases (fs : Files) (p : Path) :
    (∃ n, fs.find? p = some n ∧ n.isFile = true ∧ fs.change (.removeFile p) = fs.erase p) ∨
      fs.change (.removeFile p) = fs := by
  cases hthere : fs.find? p with
  | none => exact .inr (by simp only [change, removeFile, hthere])
  | some n =>
    cases n with
    | dir => exact .inr (by simp only [change, removeFile, hthere])
    | file size modified =>
      exact .inl ⟨_, rfl, rfl, by simp only [change, removeFile, hthere]⟩

/-- **A move** takes a file away and adds it again, or fails. -/
theorem change_rename_cases (fs : Files) (source target : Path) :
    (∃ size modified, fs.find? source = some (.file size modified) ∧
      fs.change (.rename source target) = (fs.erase source).addFile target size modified) ∨
    (fs.find? source).any Node.isFile = false ∧ fs.change (.rename source target) = fs := by
  cases hthere : fs.find? source with
  | none => exact .inr ⟨rfl, by simp only [change, rename, hthere]⟩
  | some n =>
    cases n with
    | dir => exact .inr ⟨rfl, by simp only [change, rename, hthere]⟩
    | file size modified =>
      exact .inl ⟨size, modified, rfl, by simp only [change, rename, hthere]⟩

theorem changeAll_concat (fs : Files) (before : List Change) (c : Change) :
    fs.changeAll (before ++ [c]) = (fs.changeAll before).change c :=
  List.foldl_concat _ _ _ _

/-- **One change** leads from a tree to a tree exactly if it orphans nothing. -/
theorem IsTree.change_iff (h : fs.IsTree) {c : Change} (hc : c.isAbsolute = true) :
    (fs.change c).IsTree ↔ ¬fs.Orphans c := by
  cases c with
  | addDir p => exact h.addDir_iff p
  | addFile p size modified =>
    exact h.addFile_iff (Path.parts_ne_nil_of_isAbsolute hc) size modified
  | removeFile p =>
    refine iff_of_true ?_ not_false
    rcases fs.change_removeFile_cases p with ⟨n, hthere, hfile, hchange⟩ | hchange
    · rw [hchange]
      exact h.erase hfile hthere
    · rwa [hchange]
  | rename source target =>
    have htarget := Path.parts_ne_nil_of_isAbsolute (Bool.and_eq_true_iff.1 hc).2
    show _ ↔ ¬((fs.find? source).any Node.isFile = true ∧ _)
    rcases fs.change_rename_cases source target with
      ⟨size, modified, hthere, hchange⟩ | ⟨hnone, hchange⟩
    -- the file is added to the tree it was taken from, so it is not in its own way
    · rw [hchange, (h.erase rfl hthere).addFile_iff htarget, hthere]
      exact not_congr (and_iff_right rfl).symm
    · rw [hchange, hnone]
      exact iff_of_true h fun horphans => Bool.false_ne_true horphans.1

/-- **A run of changes** leads from a tree to trees only, exactly if none of the changes orphans a
    node where its turn comes. -/
theorem IsTree.changeAll_iff (h : fs.IsTree) {changes : List Change}
    (habsolute : ∀ c ∈ changes, c.isAbsolute = true) :
    (∀ done, done <+: changes → (fs.changeAll done).IsTree) ↔
      ∀ before c after, changes = before ++ c :: after → ¬(fs.changeAll before).Orphans c := by
  constructor
  · intro htrees before c after hsplit
    have hc : c.isAbsolute = true := habsolute c (by simp [hsplit])
    have htree := htrees before ⟨c :: after, hsplit.symm⟩
    rw [← htree.change_iff hc, ← changeAll_concat]
    exact htrees _ ⟨after, by simp [hsplit]⟩
  · intro hfree done
    -- from the end: what is asked of the last change is about the tree that the others leave
    induction done using List.reverseRecOn with
    | nil => exact fun _ => h
    | append_singleton before c ih =>
      rintro ⟨after, hafter⟩
      have hsplit : changes = before ++ c :: after := by
        rw [← hafter, List.append_assoc, List.singleton_append]
      have htree := ih ⟨c :: after, hsplit.symm⟩
      rw [changeAll_concat, htree.change_iff (habsolute c (by simp [hsplit]))]
      exact hfree before c after hsplit

/-! ## 5. What changes keep in any case -/

structure Kept (P : Files → Prop) : Prop where
  ensureParents : ∀ {fs : Files} {p : Path}, P fs → p.isAbsolute = true → P (fs.ensureParents p)
  put : ∀ {fs : Files} {p : Path}, P fs → p.isAbsolute = true → ∀ n, P (fs.put p n)
  erase : ∀ {fs : Files}, P fs → ∀ p, P (fs.erase p)

theorem Kept.change {P : Files → Prop} (hP : Kept P) (h : P fs) {c : Change}
    (hc : c.isAbsolute = true) : P (fs.change c) := by
  cases c with
  | addDir p =>
    show P ((fs.ensureParents p).ensureDir p)
    unfold ensureDir
    split
    · exact hP.ensureParents h hc
    · exact hP.put (hP.ensureParents h hc) hc .dir
  | addFile p size modified => exact hP.put (hP.ensureParents h hc) hc _
  | removeFile p =>
    rcases fs.change_removeFile_cases p with ⟨n, -, -, hchange⟩ | hchange
    · rw [hchange]
      exact hP.erase h p
    · rwa [hchange]
  | rename source target =>
    have htarget := (Bool.and_eq_true_iff.1 hc).2
    rcases fs.change_rename_cases source target with ⟨size, modified, -, hchange⟩ | ⟨-, hchange⟩
    · rw [hchange]
      exact hP.put (hP.ensureParents (hP.erase h source) htarget) htarget _
    · rwa [hchange]

theorem Kept.changeAll {P : Files → Prop} (hP : Kept P) (h : P fs) {changes : List Change}
    (habsolute : ∀ c ∈ changes, c.isAbsolute = true) : P (fs.changeAll changes) := by
  induction changes generalizing fs with
  | nil => exact h
  | cons c later ih =>
    obtain ⟨hc, hlater⟩ := List.forall_mem_cons.1 habsolute
    exact ih (hP.change h hc) hlater

theorem kept_spelled : Kept Spelled where
  ensureParents h _ := h.ensureDirs _
  put h _ n := h.put _ n
  erase h p := h.erase p

structure Rooted (fs : Files) : Prop where
  starts : ∀ {place : Place} {n : Node}, fs.at? place = some n → ∃ parts, place = .root :: parts

theorem rooted_empty : empty.Rooted := ⟨fun h => by cases h⟩

theorem kept_rooted : Kept Rooted where
  ensureParents {fs p} h hp := by
    constructor
    intro place n hat
    rcases at?_of_ensureParents hat with hat | ⟨habove, hne⟩
    · exact h.starts hat
    · obtain ⟨parts, hparts⟩ := Path.exists_parts_of_isAbsolute hp
      rw [hparts] at habove
      obtain ⟨rest, hrest, -⟩ := (List.prefix_cons_iff.1 habove.1).resolve_left hne
      exact ⟨rest, hrest⟩
  put {fs p} h hp n := by
    constructor
    intro place n' hat
    rw [at?_put] at hat
    split at hat
    next heq => exact heq ▸ Path.exists_parts_of_isAbsolute hp
    next => exact h.starts hat
  erase {fs} h p := by
    constructor
    intro place n hat
    rw [at?_erase] at hat
    split at hat
    · cases hat
    · exact h.starts hat

/-! ## 6. What is reached -/

inductive Reached (fs : Files) : Path → Prop where
  | root : Reached fs (Path.ofText "/")
  | entry {dir p : Path} {info : FileInfo} {entries : List Path} (h : Reached fs dir)
      (hknown : fs.metadata dir = .ok info) (hdir : info.isDir = true)
      (hread : fs.readDir dir = .ok entries) (hp : p ∈ entries) : Reached fs p

theorem parts_root : (Path.ofText "/").parts = [.root] := by decide +kernel

/-- All places above what is reached are directories. -/
theorem Reached.dir_above (hspelled : fs.Spelled) (h : fs.Reached p)
    (habove : IsAbove above p.parts)
    (hne : above ≠ []) : fs.at? above = some .dir := by
  induction h with
  | root =>
    rw [parts_root, ← List.nil_append [Path.Part.root], isAbove_append_singleton_iff] at habove
    exact absurd (List.prefix_nil.1 habove) hne
  | @entry dir p info entries _ _ _ hread hp ih =>
    obtain ⟨hdir, rfl⟩ := readDir_eq_ok_iff.1 hread
    obtain ⟨hbelow, -⟩ := hspelled.mem_children_iff.1 hp
    obtain ⟨-, part, hparts⟩ := isBelow_iff.1 hbelow
    rw [hparts, isAbove_append_singleton_iff] at habove
    -- a place above the entry is its directory, or above that
    by_cases heq : above = dir.parts
    · rw [heq]
      exact hdir
    · exact ih ⟨habove, heq⟩

/-- **In a tree** every node is reached, by a path of its place. -/
theorem IsTree.reached (h : fs.IsTree) (hspelled : fs.Spelled) {parts : Place}
    (hparts : p.parts = .root :: parts) (hthere : fs.nodes.get? p.parts = some (p, n)) :
    ∃ q, q.parts = p.parts ∧ fs.Reached q := by
  induction parts using List.reverseRecOn generalizing p n with
  | nil => exact ⟨Path.ofText "/", parts_root.trans hparts.symm, .root⟩
  | append_singleton parts part ih =>
    rw [← List.cons_append] at hparts
    have habove : IsAbove (.root :: parts) p.parts := hparts ▸ isAbove_append_singleton _ part
    have hat : fs.at? p.parts = some n := at?_eq_some_iff.2 ⟨p, hthere⟩
    have hdir := h.dir_above hat habove (List.cons_ne_nil _ _)
    -- the directory is stored under a spelling of its own, and it is reached by induction
    obtain ⟨dir, hget⟩ := at?_eq_some_iff.1 hdir
    have hplace : dir.parts = .root :: parts := hspelled.parts_eq hget
    obtain ⟨q, hq, hreached⟩ := ih hplace (hplace ▸ hget)
    have hfind : fs.find? q = some .dir := by rw [find?, hq, hplace, hdir]
    have hknown : fs.metadata q = .ok Node.dir.info := by rw [metadata, hfind]
    have hbelow : isBelow q.parts p.parts = true := by
      rw [hq, hplace]
      exact isBelow_iff.2 ⟨by simp [hparts], part, hparts⟩
    exact ⟨p, rfl, hreached.entry hknown rfl (readDir_eq_ok_iff.2 ⟨hfind, rfl⟩)
      (hspelled.mem_children_iff.2 ⟨hbelow, n, hthere⟩)⟩

/-- **A tree is what is reached from the root as a whole.** -/
theorem isTree_iff_reached (hspelled : fs.Spelled) (hrooted : fs.Rooted) :
    fs.IsTree ↔ ∀ p n, fs.nodes.get? p.parts = some (p, n) →
      ∃ q, q.parts = p.parts ∧ fs.Reached q := by
  constructor
  · intro htree p n hthere
    obtain ⟨parts, hparts⟩ := hrooted.starts (at?_eq_some_iff.2 ⟨p, hthere⟩)
    exact htree.reached hspelled hparts hthere
  · intro hall
    constructor
    intro above place n hat habove hne
    obtain ⟨spelled, hget⟩ := at?_eq_some_iff.1 hat
    have hplace := hspelled.parts_eq hget
    subst hplace
    obtain ⟨q, hq, hreached⟩ := hall spelled n hget
    exact hreached.dir_above hspelled (hq ▸ habove) hne

/-- What is below a file is not reached. -/
theorem BelowFile.not_reached (h : fs.BelowFile p.parts) (hspelled : fs.Spelled) :
    ¬fs.Reached p := by
  intro hreached
  obtain ⟨above, n, hat, hfile, habove, hne⟩ := h
  rw [hreached.dir_above hspelled habove hne] at hat
  cases hat
  cases hfile

/-! ## 7. From the empty tree -/

/-- **Changes lead to trees exactly as long as none of them orphans a node.**  From the empty tree,
    by changes at absolute paths, every place above every node is a directory behind each of the
    changes exactly if none of them, when its turn comes, adds a node below a file or puts a file
    above a node (one that moves being out of its own way).  And what they lead to is a tree exactly
    if every node of it is reached from the root, one directory after another. -/
theorem stays_tree_iff {changes : List Change} (h : ∀ c ∈ changes, c.isAbsolute = true) :
    ((∀ done, done <+: changes → (empty.changeAll done).IsTree) ↔
      ∀ before c after, changes = before ++ c :: after →
        ¬(empty.changeAll before).Orphans c) ∧
    ((empty.changeAll changes).IsTree ↔
      ∀ p n, (empty.changeAll changes).nodes.get? p.parts = some (p, n) →
        ∃ q, q.parts = p.parts ∧ (empty.changeAll changes).Reached q) :=
  ⟨isTree_empty.changeAll_iff h,
    isTree_iff_reached (kept_spelled.changeAll spelled_empty h)
      (kept_rooted.changeAll rooted_empty h)⟩

/-- A file moves to a place below its own, which becomes a directory. -/
theorem stays_tree_below_itself :
    let changes : List Change := [.addFile (.ofText "/in/a.csv") 1 .epoch,
      .rename (.ofText "/in/a.csv") (.ofText "/in/a.csv/b.csv")]
    (∀ c ∈ changes, c.isAbsolute = true) ∧
      (∀ done, done <+: changes → (empty.changeAll done).IsTree) ∧
      ∃ q, q.parts = (Path.ofText "/in/a.csv/b.csv").parts ∧
        (empty.changeAll changes).Reached q := by
  intro changes
  have habsolute : ∀ c ∈ changes, c.isAbsolute = true := by decide +kernel
  obtain ⟨htrees, hreached⟩ := stays_tree_iff habsolute
  have hstays := htrees.2 fun before c after hsplit => by
    match before, hsplit with
    | [], hsplit =>
      obtain ⟨rfl, -⟩ := List.cons.inj hsplit
      decide +kernel
    | [_], hsplit =>
      obtain ⟨rfl, hlast⟩ := List.cons.inj hsplit
      obtain ⟨rfl, -⟩ := List.cons.inj hlast
      decide +kernel
    | _ :: _ :: before, hsplit => simp [changes] at hsplit
  refine ⟨habsolute, hstays, ?_⟩
  exact hreached.1 (hstays _ List.prefix_rfl) (Path.ofText "/in/a.csv/b.csv") (.file 1 .epoch)
    (by decide +kernel)

/-- **Orphaned:** a file whose directory becomes a file, by adding or by moving one, and a file that
    is added below a file. -/
theorem orphaned_below_file :
    let runs : List (List Change) :=
      [[.addFile (.ofText "/in/a.csv") 1 .epoch, .addFile (.ofText "/in") 1 .epoch],
        [.addFile (.ofText "/in/a.csv") 1 .epoch, .addFile (.ofText "/b.csv") 1 .epoch,
          .rename (.ofText "/b.csv") (.ofText "/in")],
        [.addFile (.ofText "/in") 1 .epoch, .addFile (.ofText "/in/a.csv") 1 .epoch]]
    (∀ changes ∈ runs, ∀ c ∈ changes, c.isAbsolute = true) ∧
      ∀ changes ∈ runs,
        (empty.changeAll changes).find? (.ofText "/in/a.csv") = some (.file 1 .epoch) ∧
        ¬(empty.changeAll changes).IsTree ∧
        ∀ q, q.parts = (Path.ofText "/in/a.csv").parts →
          ¬(empty.changeAll changes).Reached q := by
  intro runs
  have habsolute : ∀ changes ∈ runs, ∀ c ∈ changes, c.isAbsolute = true := by decide +kernel
  have hbelow : ∀ changes ∈ runs,
      (empty.changeAll changes).find? (.ofText "/in/a.csv") = some (.file 1 .epoch) ∧
        (empty.changeAll changes).BelowFile (Path.ofText "/in/a.csv").parts := by decide +kernel
  refine ⟨habsolute, fun changes hchanges => ?_⟩
  obtain ⟨hthere, hbelow⟩ := hbelow changes hchanges
  refine ⟨hthere, hbelow.not_isTree hthere, fun q hq => ?_⟩
  rw [← hq] at hbelow
  exact hbelow.not_reached (kept_spelled.changeAll spelled_empty (habsolute changes hchanges))

end Files

end Intake
