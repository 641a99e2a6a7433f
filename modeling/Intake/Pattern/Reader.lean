import Intake.Pattern
import Intake.Text.Script

/-!
# Reader — a pattern from its text

The grammar: alternatives, sequences, groups with names or flags, counted repetitions, bracketed
sets with set operations, escapes for characters, classes and places.  Look-around groups and
references to groups are refused, as is whatever could match a part of a character when the
Unicode flag is off.  In verbose mode blanks and comments between the tokens do not count.

Every function takes the rest of the text and gives what it read with what is left of it.
-/

namespace Intake.Pattern

/-! ## 1. Flags -/

structure Flags where
  ignoreCase : Bool
  multiLine : Bool
  dotAll : Bool
  unicode : Bool
  anyLineEnd : Bool
  verbose : Bool

def Flags.start : Flags := ⟨false, false, false, true, false, false⟩

def Flags.set (f : Flags) (letter : Char) (on : Bool) : Flags :=
  match letter with
  | 'i' => { f with ignoreCase := on }
  | 'm' => { f with multiLine := on }
  | 's' => { f with dotAll := on }
  | 'u' => { f with unicode := on }
  | 'R' => { f with anyLineEnd := on }
  | 'x' => { f with verbose := on }
  | _ => f

/-- Reads flags up to the colon or bracket behind them, and gives that with the rest.  `seen` are
    the letters so far, `on` turns false behind a minus. -/
def readFlags (f : Flags) (seen : List Char) (on : Bool) (afterMinus : Bool) :
    List Char → Option (Flags × Bool × Char × List Char)
  | [] => none
  | c :: rest =>
    if c == ':' || c == ')' then
      if afterMinus then none else some (f, seen.isEmpty, c, rest)
    else if c == '-' then
      if seen.contains '-' then none else readFlags f (c :: seen) false true rest
    else if "imsUuRx".toList.contains c && !seen.contains c then
      readFlags (f.set c on) (c :: seen) on false rest
    else none

/-! ## 2. Tokens -/

def skipBlank : Bool → List Char → List Char
  | _, [] => []
  | true, c :: rest => skipBlank (c != '\n') rest
  | false, c :: rest =>
    if Text.isBlank c then skipBlank false rest
    else if c == '#' then skipBlank true rest
    else c :: rest

def skip (f : Flags) (cs : List Char) : List Char := if f.verbose then skipBlank false cs else cs

def isMeta (c : Char) : Bool := "\\.+*?()|[]\x7b\x7d^$#&-~".toList.contains c

def isEscapable (c : Char) : Bool :=
  isMeta c || (c.toNat < 0x80 && !c.isAlphanum && c != '<' && c != '>')

def readCount (f : Flags) (cs : List Char) : Option Nat × List Char :=
  let rec digits : Nat → Option Nat → List Char → Option Nat × List Char
    | 0, acc, cs => (acc, cs)
    | fuel + 1, acc, cs =>
      match cs with
      | c :: rest =>
        if c.isDigit then digits fuel (some (acc.getD 0 * 10 + (c.toNat - 48))) (skip f rest)
        else (acc, cs)
      | [] => (acc, [])
  let cs := Text.trimStart cs
  let (value, rest) := digits (cs.length + 1) none cs
  (value, Text.trimStart rest)

def charOfHex? (digits : List Char) : Option Char := do
  if digits.isEmpty then none
  let n ← Text.Ranges.hexValue? digits
  if n < 0xD800 ∨ (0xDFFF < n ∧ n ≤ 0x10FFFF) then some (Char.ofNat n) else none

def takeHex (f : Flags) : Nat → List Char → Option (List Char × List Char)
  | 0, cs => some ([], cs)
  | n + 1, c :: rest => do
    let _ ← Text.Ranges.hexDigit? c
    let (digits, rest) ← takeHex f n (skip f rest)
    return (c :: digits, rest)
  | _ + 1, [] => none

def takeBraced (f : Flags) : Nat → List Char → Option (List Char × List Char)
  | 0, _ => none
  | fuel + 1, cs =>
    match skip f cs with
    | [] => none
    | '\x7d' :: rest => some ([], rest)
    | c :: rest => do
      let (inner, rest) ← takeBraced f fuel rest
      return (c :: inner, rest)

/-! ## 3. Classes by name -/

/-- A name in loose form: lower case, without blanks, hyphens and underscores, and without a
    leading `is`. -/
def looseName (cs : List Char) : String :=
  let counts (c : Char) : Bool := c != ' ' && c != '-' && c != '_' && c.toNat < 0x80
  let plain := (cs.filter counts).map Char.toLower
  match plain with
  | 'i' :: 's' :: rest => if rest == ['c'] then "isc" else String.ofList rest
  | _ => String.ofList plain

def categories? (name : String) : Option (List Text.Category) :=
  let groups : List (List String × List Text.Category) := [
    (["l", "letter"], Text.Category.letters), (["lc", "casedletter"], Text.Category.casedLetters),
    (["m", "mark", "combiningmark"], Text.Category.marks), (["n", "number"], Text.Category.numbers),
    (["p", "punctuation", "punct"], Text.Category.punctuation),
    (["s", "symbol"], Text.Category.symbols), (["z", "separator"], Text.Category.separators),
    (["lu", "uppercaseletter"], [.lu]), (["ll", "lowercaseletter"], [.ll]),
    (["lt", "titlecaseletter"], [.lt]), (["lm", "modifierletter"], [.lm]),
    (["lo", "otherletter"], [.lo]), (["mn", "nonspacingmark"], [.mn]),
    (["mc", "spacingmark"], [.mc]), (["me", "enclosingmark"], [.me]),
    (["nd", "decimalnumber", "digit"], [.nd]), (["nl", "letternumber"], [.nl]),
    (["no", "othernumber"], [.no]), (["pc", "connectorpunctuation"], [.pc]),
    (["pd", "dashpunctuation"], [.pd]), (["ps", "openpunctuation"], [.ps]),
    (["pe", "closepunctuation"], [.pe]), (["pi", "initialpunctuation"], [.pi]),
    (["pf", "finalpunctuation"], [.pf]), (["po", "otherpunctuation"], [.po]),
    (["sm", "mathsymbol"], [.sm]), (["sc", "currencysymbol"], [.sc]),
    (["sk", "modifiersymbol"], [.sk]), (["so", "othersymbol"], [.so]),
    (["zs", "spaceseparator"], [.zs]), (["zl", "lineseparator"], [.zl]),
    (["zp", "paragraphseparator"], [.zp]), (["cc", "control", "cntrl"], [.cc]),
    (["cf", "format"], [.cf]), (["co", "privateuse"], [.co])]
  (groups.find? fun g => g.1.contains name).map Prod.snd

def categorySet? (name : String) : Option CharSet :=
  match categories? name with
  | some gs => some (.satisfying (Text.inCategories gs))
  | none =>
    if ["c", "other"].contains name then
      some (.satisfying fun c => Text.inCategories [.cc, .cf, .co] c || !Text.isAssigned c)
    else if ["cn", "unassigned"].contains name then some (.satisfying (!Text.isAssigned ·))
    else if name == "assigned" then some (.satisfying Text.isAssigned)
    else if name == "any" then some (.compl .empty)
    else if name == "ascii" then some .ascii
    else none

def propertySet? (name : String) : Option CharSet :=
  let tests : List (List String × (Char → Bool)) := [
    (["alphabetic", "alpha"], Text.isAlphabetic), (["lowercase", "lower"], Text.isLowercase),
    (["uppercase", "upper"], Text.isUppercase), (["whitespace", "wspace", "space"], Text.isBlank),
    (["cased"], Text.isCased), (["math"], Text.isMath),
    (["joincontrol", "joinc"], Text.isJoiner),
    (["dash"], fun c => Text.dash.contains c.toNat),
    (["emoji"], fun c => Text.emoji.contains c.toNat),
    (["hexdigit", "hex"], fun c => Text.hexDigit.contains c.toNat),
    (["asciihexdigit", "ahex"], fun c => c.toNat < 0x80 && Text.hexDigit.contains c.toNat),
    (["ideographic", "ideo"], fun c => Text.ideographic.contains c.toNat),
    (["graphemeextend", "grext"], fun c => Text.graphemeExtend.contains c.toNat)]
  (tests.find? fun t => t.1.contains name).map fun t => .satisfying t.2

def scriptSet? (name : String) : Option CharSet :=
  (Text.Script.find? name).map fun s => .satisfying s.contains

def unicodeSet? (cs : List Char) : Option CharSet :=
  let valued (property value : List Char) : Option CharSet :=
    let value := looseName value
    match looseName property with
    | "gc" | "generalcategory" | "category" => categorySet? value
    | "sc" | "script" | "scx" | "scriptextensions" => scriptSet? value
    | _ => none
  match cs.span (fun c => c != ':' && c != '=') with
  | (property, _ :: value) =>
    match property.getLast? with
    | some '!' => (valued property.dropLast value).map .compl
    | _ => valued property value
  | (name, []) =>
    let name := looseName name
    let property := if ["cf", "sc", "lc"].contains name then none else propertySet? name
    (property.orElse fun _ => categorySet? name).orElse fun _ => scriptSet? name

def asciiSet? (name : String) : Option CharSet :=
  let between (low high : Char) : CharSet := .interval low high
  let oneOf (s : String) : CharSet := s.toList.foldr (fun c acc => .union (.single c) acc) .empty
  let upper := between 'A' 'Z'
  let lower := between 'a' 'z'
  let digit := between '0' '9'
  let punct := CharSet.union (between '!' '/') (.union (between ':' '@')
    (.union (between '[' '\x60') (between '\x7b' '~')))
  match name with
  | "alnum" => some (.union digit (.union upper lower))
  | "alpha" => some (.union upper lower)
  | "ascii" => some .ascii
  | "blank" => some (oneOf "\t ")
  | "cntrl" => some (.union (between (Char.ofNat 0) (Char.ofNat 0x1F)) (.single (Char.ofNat 0x7F)))
  | "digit" => some digit
  | "graph" => some (between '!' '~')
  | "lower" => some lower
  | "print" => some (between ' ' '~')
  | "punct" => some punct
  | "space" => some (.union (between '\t' '\r') (.single ' '))
  | "upper" => some upper
  | "word" => some (.union (.single '_') (.union digit (.union upper lower)))
  | "xdigit" => some (.union digit (.union (between 'A' 'F') (between 'a' 'f')))
  | _ => none

def foldSet (f : Flags) (s : CharSet) : CharSet :=
  if f.ignoreCase then (if f.unicode then .folded s else .foldedAscii s) else s

def foldNegate (f : Flags) (negated : Bool) (s : CharSet) : CharSet :=
  if negated then .compl (foldSet f s) else foldSet f s

def letterSet (f : Flags) (letter : Char) : CharSet :=
  let s : CharSet := match letter.toLower with
    | 'd' => if f.unicode then .satisfying Text.isDigit else .interval '0' '9'
    | 's' => if f.unicode then .satisfying Text.isBlank else (asciiSet? "space").getD .empty
    | _ => if f.unicode then .satisfying Text.isWord else (asciiSet? "word").getD .empty
  if letter.isUpper then .compl s else s

/-- A set as it may stand in a pattern: without the Unicode flag no member may be a byte beyond
    ASCII. -/
def checked (f : Flags) (s : CharSet) : Option CharSet :=
  if f.unicode then some s
  else if s.holdsHighByte then none
  else some (.inter s .ascii)

/-! ## 4. Escapes -/

inductive Escape where
  | char (c : Char) (byte : Bool)
  | set (s : CharSet)
  | look (question : Look)

def wordTest (f : Flags) : Char → Bool :=
  if f.unicode then Text.isWord else ((asciiSet? "word").getD .empty).contains

/-- A special word boundary in braces.  `none` if there is none, `some none` if it is faulty. -/
def boundaryName (f : Flags) (cs : List Char) : Option (Option (Look × List Char)) :=
  match cs with
  | '\x7b' :: rest =>
    match skip f rest with
    | [] => some none
    | c :: _ =>
      if c.isAlpha || c == '-' then
        match takeBraced f (rest.length + 1) rest with
        | none => some none
        | some (name, rest) =>
          let isWord := wordTest f
          match String.ofList name with
          | "start" => some (some (.wordStart isWord, rest))
          | "end" => some (some (.wordEnd isWord, rest))
          | "start-half" => some (some (.wordStartHalf isWord, rest))
          | "end-half" => some (some (.wordEndHalf isWord, rest))
          | _ => some none
      else none
  | _ => none

def readHex (f : Flags) (letter : Char) (rest : List Char) : Option (Escape × List Char) :=
  match skip f rest with
  | '\x7b' :: inner => do
    let (digits, rest) ← takeBraced f (inner.length + 1) inner
    return (.char (← charOfHex? digits) false, skip f rest)
  | cs => do
    let count := if letter = 'x' then 2 else if letter = 'u' then 4 else 8
    let (digits, rest) ← takeHex f count cs
    return (.char (← charOfHex? digits) (letter = 'x'), rest)

def readUnicodeClass (f : Flags) (letter : Char) (rest : List Char) :
    Option (Escape × List Char) := do
  if !f.unicode then none
  let (name, rest) ← match skip f rest with
    | '\x7b' :: inner => takeBraced f (inner.length + 1) inner
    | c :: rest => if c = '\\' then none else some ([c], rest)
    | [] => none
  let s ← unicodeSet? name
  return (.set (foldNegate f (letter = 'P') s), rest)

def readEscape (f : Flags) (cs : List Char) : Option (Escape × List Char) :=
  match cs with
  | [] => none
  | c :: rest =>
    let isWord := wordTest f
    if c = 'x' ∨ c = 'u' ∨ c = 'U' then readHex f c rest
    else if c = 'p' ∨ c = 'P' then readUnicodeClass f c rest
    else if "dswDSW".toList.contains c then some (.set (letterSet f c), rest)
    else if isEscapable c then some (.char c false, rest)
    else
      match c with
      | 'a' => some (.char (Char.ofNat 7) false, rest)
      | 'f' => some (.char (Char.ofNat 12) false, rest)
      | 't' => some (.char '\t' false, rest)
      | 'n' => some (.char '\n' false, rest)
      | 'r' => some (.char '\r' false, rest)
      | 'v' => some (.char (Char.ofNat 11) false, rest)
      | 'A' => some (.look .textStart, rest)
      | 'z' => some (.look .textEnd, rest)
      | 'B' => some (.look (.inside isWord), rest)
      | '<' => some (.look (.wordStart isWord), rest)
      | '>' => some (.look (.wordEnd isWord), rest)
      | 'b' =>
        match boundaryName f rest with
        | some none => none
        | some (some (question, rest)) => some (.look question, rest)
        | none => some (.look (.boundary isWord), rest)
      | _ => none

def charSet (f : Flags) (c : Char) (byte : Bool) : Option CharSet :=
  if f.unicode then some (foldSet f (.single c))
  else if c.toNat < 0x80 then some (foldSet f (.single c))
  else if byte || f.ignoreCase then none
  else some (.single c)

/-! ## 5. Bracketed sets -/

inductive SetItem where
  | char (c : Char)
  | set (s : CharSet)

def readSetItem (f : Flags) (cs : List Char) : Option (SetItem × List Char) :=
  match cs with
  | '\\' :: rest => do
    match ← readEscape f rest with
    | (.char c byte, rest) =>
      if !f.unicode && c.toNat ≥ 0x80 && !byte then none else some (.char c, rest)
    | (.set s, rest) => some (.set s, rest)
    | (.look _, _) => none
  | c :: rest => if !f.unicode && c.toNat ≥ 0x80 then none else some (.char c, rest)
  | [] => none

def SetItem.toSet : SetItem → CharSet
  | char c => .single c
  | set s => s

def readSetRange (f : Flags) (cs : List Char) : Option (CharSet × List Char) := do
  let (first, rest) ← readSetItem f cs
  match skip f rest with
  | [] => none
  | '-' :: more =>
    let next := skip f more
    if next.head? == some ']' || next.head? == some '-' then return (first.toSet, '-' :: more)
    let (last, rest) ← readSetItem f next
    match first, last with
    | .char low, .char high => if low ≤ high then return (.interval low high, rest) else none
    | _, _ => none
  | rest => return (first.toSet, rest)

def readAsciiClass (f : Flags) (cs : List Char) : Option (CharSet × List Char) :=
  match cs with
  | ':' :: rest =>
    let (negated, rest) := match rest with
      | '^' :: more => (true, more)
      | _ => (false, rest)
    match rest.span (· != ':') with
    | (name, ':' :: ']' :: rest) =>
      (asciiSet? (String.ofList name)).map fun s => (foldNegate f negated s, rest)
    | _ => none
  | _ => none

inductive SetOp where
  | inter
  | diff
  | symmDiff

def joinSets (f : Flags) : Option (CharSet × SetOp) → CharSet → CharSet
  | none, t => t
  | some (s, .inter), t => .inter (foldSet f s) (foldSet f t)
  | some (s, .diff), t => (foldSet f s).diff (foldSet f t)
  | some (s, .symmDiff), t => (foldSet f s).symmDiff (foldSet f t)

/-- Hyphens at the front of a set, and a closing bracket if it is the very first character, stand
    for themselves. -/
def readSetFront (f : Flags) : Nat → CharSet → Bool → List Char → Option (CharSet × List Char)
  | 0, _, _, _ => none
  | fuel + 1, s, first, cs =>
    match cs with
    | [] => none
    | '-' :: rest => readSetFront f fuel (.union s (.single '-')) false (skip f rest)
    | ']' :: rest =>
      if first then
        -- such a bracket closes nothing, so something has to follow
        match skip f rest with
        | [] => none
        | rest => some (.union s (.single ']'), rest)
      else some (s, cs)
    | _ => some (s, cs)

mutual

def readSet (f : Flags) : Nat → List Char → Option (CharSet × List Char)
  | 0, _ => none
  | fuel + 1, cs => do
    let (negated, cs) := match skip f cs with
      | '^' :: rest => (true, skip f rest)
      | rest => (false, rest)
    let (s, rest) ← readSetFront f (cs.length + 1) .empty true cs
    let (s, rest) ← readSetBody f fuel none s rest
    return (foldNegate f negated s, rest)

/-- The items of a set up to its closing bracket.  The first operand waits on the left for the set
    that is being collected. -/
def readSetBody (f : Flags) : Nat → Option (CharSet × SetOp) → CharSet → List Char →
    Option (CharSet × List Char)
  | 0, _, _, _ => none
  | fuel + 1, left, s, cs =>
    match skip f cs with
    | [] => none
    | ']' :: rest => some (joinSets f left s, rest)
    | '[' :: rest =>
      match readAsciiClass f rest with
      | some (t, rest) => readSetBody f fuel left (.union s t) rest
      | none => do
        let (t, rest) ← readSet f fuel rest
        readSetBody f fuel left (.union s t) rest
    | '&' :: '&' :: rest => readSetBody f fuel (some (joinSets f left s, .inter)) .empty rest
    | '-' :: '-' :: rest => readSetBody f fuel (some (joinSets f left s, .diff)) .empty rest
    | '~' :: '~' :: rest => readSetBody f fuel (some (joinSets f left s, .symmDiff)) .empty rest
    | cs => do
      let (t, rest) ← readSetRange f cs
      readSetBody f fuel left (.union s t) rest

end

/-! ## 6. Groups and repetitions -/

def readGroupName (cs : List Char) : Option (String × List Char) :=
  match cs.span (· != '>') with
  | (first :: more, '>' :: rest) =>
    let isNumber (c : Char) : Bool := Text.inCategories Text.Category.numbers c
    let isLater (c : Char) : Bool :=
      c == '_' || c == '.' || c == '[' || c == ']' || Text.isAlphabetic c || isNumber c
    if (first == '_' || Text.isAlphabetic first) && more.all isLater then
      some (String.ofList (first :: more), rest)
    else none
  | _ => none

inductive Opening where
  | group (flags : Flags) (name : Option String)
  | setFlags (flags : Flags)

def readOpening (f : Flags) (cs : List Char) : Option (Opening × List Char) :=
  match skip f cs with
  | '?' :: '=' :: _ => none
  | '?' :: '!' :: _ => none
  | '?' :: '<' :: '=' :: _ => none
  | '?' :: '<' :: '!' :: _ => none
  | '?' :: 'P' :: '<' :: rest =>
    (readGroupName rest).map fun (name, rest) => (.group f (some name), rest)
  | '?' :: '<' :: rest =>
    (readGroupName rest).map fun (name, rest) => (.group f (some name), rest)
  | '?' :: rest => do
    match ← readFlags f [] true false rest with
    | (_, true, ')', _) => none
    | (flags, _, ')', rest) => return (.setFlags flags, rest)
    | (flags, _, _, rest) => return (.group flags none, rest)
  | rest => some (.group f none, rest)

def readBounds (f : Flags) (cs : List Char) : Option (Nat × Option Nat × List Char) := do
  let limit := 0x100000000
  let (least, rest) := readCount f (skip f cs)
  let least ← least
  if least ≥ limit then none
  match rest with
  | '\x7d' :: rest => return (least, some least, rest)
  | ',' :: rest =>
    match skip f rest with
    | '\x7d' :: rest => return (least, none, rest)
    | rest =>
      let (most, rest) := readCount f rest
      let most ← most
      if most ≥ limit ∨ most < least then none
      match rest with
      | '\x7d' :: rest => return (least, some most, rest)
      | _ => none
  | _ => none

def dropLazy (cs : List Char) : List Char :=
  match cs with
  | '?' :: rest => rest
  | _ => cs

def sequence (items : List (Option Pattern)) : Pattern :=
  items.foldl (fun acc item => match item with | some p => .seq p acc | none => acc) .empty

def alternatives (last : Pattern) (earlier : List Pattern) : Pattern :=
  earlier.foldl (fun acc p => .alt p acc) last

def repeatLast (least : Nat) (most : Option Nat) : List (Option Pattern) →
    Option (List (Option Pattern))
  | some p :: rest => some (some (.times p least most) :: rest)
  | _ => none

def dotSet (f : Flags) : CharSet :=
  if f.dotAll then .compl .empty
  else if f.anyLineEnd then .compl (.union (.single '\n') (.single '\r'))
  else .compl (.single '\n')

/-- **The body of a group** up to its closing bracket or the end of the text.  `earlier` are the
    alternatives before, `items` the items of this one, both last one first; `names` are the group
    names so far. -/
def readBody : Nat → Flags → List String → List Pattern → List (Option Pattern) → List Char →
    Option (Pattern × List String × List Char)
  | 0, _, _, _, _, _ => none
  | fuel + 1, f, names, earlier, items, cs =>
    let finish (cs : List Char) := some (alternatives (sequence items) earlier, names, cs)
    let one (p : Pattern) (rest : List Char) := readBody fuel f names earlier (some p :: items) rest
    let again (least : Nat) (most : Option Nat) (rest : List Char) :=
      (repeatLast least most items).bind fun items =>
        readBody fuel f names earlier items (dropLazy rest)
    match skip f cs with
    | [] => finish []
    | ')' :: rest => finish (')' :: rest)
    | '|' :: rest => readBody fuel f names (sequence items :: earlier) [] rest
    | '(' :: rest =>
      match readOpening f rest with
      | none => none
      | some (.setFlags flags, rest) => readBody fuel flags names earlier (none :: items) rest
      | some (.group flags name, rest) =>
        match name with
        | some n =>
          if names.contains n then none
          else
            match readBody fuel flags (n :: names) [] [] rest with
            | some (p, names, ')' :: rest) =>
              readBody fuel f names earlier (some p :: items) rest
            | _ => none
        | none =>
          match readBody fuel flags names [] [] rest with
          | some (p, names, ')' :: rest) => readBody fuel f names earlier (some p :: items) rest
          | _ => none
    | '[' :: rest =>
      ((readSet f fuel rest).bind fun (s, rest) => (checked f s).map fun s => (s, rest)).bind
        fun (s, rest) => one (.chars s) rest
    | '?' :: rest => again 0 (some 1) rest
    | '*' :: rest => again 0 none rest
    | '+' :: rest => again 1 none rest
    | '\x7b' :: rest =>
      (readBounds f rest).bind fun (least, most, rest) => again least most (skip f rest)
    | '.' :: rest => (checked f (dotSet f)).bind fun s => one (.chars s) rest
    | '^' :: rest =>
      one (.look (if f.multiLine then (if f.anyLineEnd then .lineStartAny else .lineStart)
        else .textStart)) rest
    | '$' :: rest =>
      one (.look (if f.multiLine then (if f.anyLineEnd then .lineEndAny else .lineEnd)
        else .textEnd)) rest
    | '\\' :: rest =>
      match readEscape f rest with
      | some (.char c byte, rest) => (charSet f c byte).bind fun s => one (.chars s) rest
      | some (.set s, rest) => (checked f s).bind fun s => one (.chars s) rest
      | some (.look question, rest) => one (.look question) rest
      | none => none
    | c :: rest => (charSet f c false).bind fun s => one (.chars s) rest

/-! ## 7. Whole texts -/

inductive Fault where
  | grammar
  | tooLarge
  deriving DecidableEq, Repr

def parse (text : String) : Except Fault Pattern :=
  match readBody (2 * text.length + 2) .start [] [] [] text.toList with
  | some (p, _, []) => if p.weight > maxWeight then .error .tooLarge else .ok p
  | _ => .error .grammar

end Intake.Pattern
