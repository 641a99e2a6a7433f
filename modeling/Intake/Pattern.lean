import Intake.Text.Blank
import Intake.Text.Fold
import Intake.Text.Property

/-!
# Pattern — patterns for file names

A pattern is a regular expression over characters with look-arounds at a single place.  `ends`
gives every place at which a match that starts at a given place may end; a name matches if a match
starts anywhere in it (`Pattern.matchesName`).  Which of several matches would be preferred does
not matter, so greedy and lazy repetitions are the same.
-/

namespace Intake

/-! ## 1. Character sets -/

inductive CharSet where
  | interval (low high : Char)
  | satisfying (test : Char → Bool)
  | compl (s : CharSet)
  | union (s t : CharSet)
  | inter (s t : CharSet)
  | folded (s : CharSet)

namespace CharSet

def empty : CharSet := .satisfying fun _ => false

def single (c : Char) : CharSet := .interval c c

def diff (s t : CharSet) : CharSet := .inter s (.compl t)

def symmDiff (s t : CharSet) : CharSet := .union (s.diff t) (t.diff s)

/-- **Membership.**  A folded set holds a character if the set holds any of its case variants. -/
def contains : CharSet → Char → Bool
  | interval low high, c => low ≤ c && c ≤ high
  | satisfying test, c => test c
  | compl s, c => !s.contains c
  | union s t, c => s.contains c || t.contains c
  | inter s t, c => s.contains c && t.contains c
  | folded s, c => (Text.variants c).any s.contains

def ascii : CharSet := .interval (Char.ofNat 0) (Char.ofNat 0x7F)

def foldedAscii (s : CharSet) : CharSet :=
  .satisfying fun c => s.contains c || (c.toNat < 0x80 &&
    (s.contains c.toLower || s.contains c.toUpper))

def holdsHighByte (s : CharSet) : Bool :=
  (List.range 128).any fun n => s.contains (Char.ofNat (128 + n))

def weight : CharSet → Nat
  | interval low high =>
    if high.toNat < 0x80 then 32 else if low == high then 128 else 512
  -- the automaton of a named property is large
  | satisfying _ => 24000
  | compl s => s.weight + 512
  | union s t => s.weight + t.weight
  | inter s t => s.weight + t.weight
  | folded s => 2 * s.weight

end CharSet

/-! ## 2. Patterns -/

inductive Look where
  | textStart
  | textEnd
  | lineStart
  | lineEnd
  | lineStartAny
  | lineEndAny
  | boundary (isWord : Char → Bool)
  | inside (isWord : Char → Bool)
  | wordStart (isWord : Char → Bool)
  | wordEnd (isWord : Char → Bool)
  | wordStartHalf (isWord : Char → Bool)
  | wordEndHalf (isWord : Char → Bool)

def Look.holds : Look → Option Char → Option Char → Bool
  | textStart, before, _ => before.isNone
  | textEnd, _, after => after.isNone
  | lineStart, before, _ => before.isNone || before == some '\n'
  | lineEnd, _, after => after.isNone || after == some '\n'
  | lineStartAny, before, after =>
    before.isNone || before == some '\n' || (before == some '\r' && after != some '\n')
  | lineEndAny, before, after =>
    after.isNone || after == some '\r' || (after == some '\n' && before != some '\r')
  | boundary isWord, before, after => before.any isWord != after.any isWord
  | inside isWord, before, after => before.any isWord == after.any isWord
  | wordStart isWord, before, after => !before.any isWord && after.any isWord
  | wordEnd isWord, before, after => before.any isWord && !after.any isWord
  | wordStartHalf isWord, before, _ => !before.any isWord
  | wordEndHalf isWord, _, after => !after.any isWord

inductive Pattern where
  | empty
  | chars (s : CharSet)
  | look (question : Look)
  | seq (p q : Pattern)
  | alt (p q : Pattern)
  | times (p : Pattern) (least : Nat) (most : Option Nat)

namespace Pattern

/-! ## 3. Matching -/

def addPlaces (seen new : List Nat) : List Nat :=
  new.foldl (fun acc i => if acc.contains i then acc else acc ++ [i]) seen

def stepAll (step : Nat → List Nat) (places : List Nat) : List Nat :=
  places.foldl (fun acc i => addPlaces acc (step i)) []

def stepExactly (step : Nat → List Nat) : Nat → List Nat → List Nat
  | 0, places => places
  | n + 1, places =>
    if places.isEmpty then [] else stepExactly step n (stepAll step places)

def stepAtMost (step : Nat → List Nat) : Nat → List Nat → List Nat → List Nat
  | 0, seen, _ => seen
  | n + 1, seen, fresh =>
    let found := (stepAll step fresh).filter fun i => !seen.contains i
    if found.isEmpty then seen else stepAtMost step n (seen ++ found) found

def ends (text : Array Char) : Pattern → Nat → List Nat
  | empty, i => [i]
  | chars s, i =>
    match text[i]? with
    | some c => if s.contains c then [i + 1] else []
    | none => []
  | look question, i =>
    let before := if i = 0 then none else text[i - 1]?
    if question.holds before text[i]? then [i] else []
  | seq p q, i => stepAll (ends text q) (ends text p i)
  | alt p q, i => addPlaces (ends text p i) (ends text q i)
  | times p least most, i =>
    let start := stepExactly (ends text p) least [i]
    let more := match most with
      | some m => m - least
      | none => text.size + 1
    stepAtMost (ends text p) more start start

/-- **Whether a name matches:** a match starts somewhere in it. -/
def matchesName (p : Pattern) (name : String) : Bool :=
  let text := name.toList.toArray
  (List.range (text.size + 1)).any fun i => !(p.ends text i).isEmpty

/-! ## 4. Size -/

def weight : Pattern → Nat
  | empty => 24
  | chars s => s.weight
  | look _ => 24
  | seq p q => p.weight + q.weight
  | alt p q => p.weight + q.weight + 48
  | times p least most =>
    match most with
    | some m => m * (p.weight + 24)
    | none => (least + 1) * (p.weight + 24)

-- in bytes
def maxWeight : Nat := 10485760

end Pattern

end Intake
