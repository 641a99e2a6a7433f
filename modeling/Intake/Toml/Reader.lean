import Intake.Instant
import Intake.Text.Pieces
import Intake.Text.Ranges
import Intake.Toml

/-!
# Reader — a configuration document from its text

A document is a list of lines: headers, assignments, comments.  Values are strings in four
spellings, integers in four bases, floats, booleans, dates and times, arrays and inline tables.
Dates and times are read as objects, floats by their text, since no field of a configuration takes
either.
-/

namespace Intake.Toml

/-! ## 1. Blanks and comments -/

def skipSpace (cs : List Char) : List Char := cs.dropWhile fun c => c == ' ' || c == '\t'

def isControl (c : Char) : Bool := (c.toNat < 0x20 && c != '\t') || c.toNat == 0x7F

def lineEnd? : List Char → Option (List Char)
  | '\n' :: rest => some rest
  | '\r' :: '\n' :: rest => some rest
  | _ => none

def skipComment (cs : List Char) : Option (List Char) :=
  match cs with
  | '#' :: rest =>
    let rest := rest.dropWhile fun c => !isControl c
    match rest with
    | [] => some []
    | _ => if (lineEnd? rest).isSome then some rest else none
  | _ => some cs

def skipLine (cs : List Char) : Option (List Char) := do
  match ← skipComment (skipSpace cs) with
  | [] => some []
  | rest => lineEnd? rest

def skipLines : Nat → List Char → Option (List Char)
  | 0, cs => some cs
  | fuel + 1, cs => do
    let rest ← skipComment (skipSpace cs)
    match lineEnd? rest with
    | some rest => skipLines fuel rest
    | none => some rest

/-! ## 2. Strings -/

def readEscape (cs : List Char) : Option (Char × List Char) :=
  let coded (count : Nat) (rest : List Char) : Option (Char × List Char) := do
    let digits := rest.take count
    if digits.length < count then none
    let n ← Text.Ranges.hexValue? digits
    if n < 0xD800 ∨ (0xDFFF < n ∧ n ≤ 0x10FFFF) then some (Char.ofNat n, rest.drop count)
    else none
  match cs with
  | 'b' :: rest => some (Char.ofNat 8, rest)
  | 't' :: rest => some ('\t', rest)
  | 'n' :: rest => some ('\n', rest)
  | 'f' :: rest => some (Char.ofNat 12, rest)
  | 'r' :: rest => some ('\r', rest)
  | 'e' :: rest => some (Char.ofNat 27, rest)
  | '"' :: rest => some ('"', rest)
  | '\\' :: rest => some ('\\', rest)
  | 'x' :: rest => coded 2 rest
  | 'u' :: rest => coded 4 rest
  | 'U' :: rest => coded 8 rest
  | _ => none

def readQuoted (quote : Char) : Nat → List Char → Option (List Char × List Char)
  | 0, _ => none
  | fuel + 1, cs =>
    match cs with
    | [] => none
    | c :: rest =>
      if c = quote then some ([], rest)
      else if c = '\\' ∧ quote = '"' then do
        let (e, rest) ← readEscape rest
        let (text, rest) ← readQuoted quote fuel rest
        return (e :: text, rest)
      else if isControl c then none
      else do
        let (text, rest) ← readQuoted quote fuel rest
        return (c :: text, rest)

def quoteRun (quote : Char) (cs : List Char) : Nat := (cs.takeWhile (· == quote)).length

/-- A string of several lines behind its opening quotes.  Up to two quotes may stand in front of
    the closing three; a backslash at the end of a line drops the blanks up to the next text. -/
def readLong (quote : Char) : Nat → List Char → Option (List Char × List Char)
  | 0, _ => none
  | fuel + 1, cs =>
    let run := quoteRun quote cs
    if run ≥ 3 then
      if run > 5 then none else some (List.replicate (run - 3) quote, cs.drop run)
    else
      match cs with
      | [] => none
      | '\r' :: '\n' :: rest => do
        let (text, rest) ← readLong quote fuel rest
        return ('\r' :: '\n' :: text, rest)
      | c :: rest =>
        if c = '\\' ∧ quote = '"' then
          let after := skipSpace rest
          if (lineEnd? after).isSome then
            -- the backslash takes the line break away, and all blanks behind it
            readLong quote fuel (after.dropWhile fun c =>
              c == ' ' || c == '\t' || c == '\n' || c == '\r')
          else do
            let (e, rest) ← readEscape rest
            let (text, rest) ← readLong quote fuel rest
            return (e :: text, rest)
        else if isControl c ∧ c ≠ '\n' then none
        else do
          let (text, rest) ← readLong quote fuel rest
          return (c :: text, rest)

def readString (quote : Char) (cs : List Char) : Option (List Char × List Char) :=
  match cs with
  | c :: d :: rest =>
    if c = quote ∧ d = quote then readLong quote (rest.length + 1) ((lineEnd? rest).getD rest)
    else readQuoted quote (cs.length + 1) cs
  | _ => readQuoted quote (cs.length + 1) cs

/-! ## 3. Numbers, dates and words -/

/-- Whether underscores stand between digits only; `behind` says whether a digit was just read. -/
def underscoresFit (isDigit : Char → Bool) (behind : Bool) : List Char → Bool
  | [] => true
  | c :: rest =>
    if c = '_' then behind && rest.head?.any isDigit && underscoresFit isDigit false rest
    else underscoresFit isDigit (isDigit c) rest

def digits? (isDigit : Char → Bool) (cs : List Char) : Option (List Char) :=
  let plain := cs.filter (· != '_')
  if !plain.isEmpty && underscoresFit isDigit false cs && plain.all isDigit then some plain
  else none

def whole? (cs : List Char) : Option Nat := do
  let ds ← digits? Char.isDigit cs
  match ds with
  | '0' :: _ :: _ => none
  | _ => some (Nat.ofDigitChars 10 ds 0)

def integer? (cs : List Char) : Option Int :=
  let based (base : Nat) (rest : List Char) : Option Int := do
    let isDigit (c : Char) : Bool := (Text.Ranges.hexDigit? c).any (· < base)
    let ds ← digits? isDigit rest
    return ((ds.foldl (fun acc c => acc * base + (Text.Ranges.hexDigit? c).getD 0) 0 : Nat) : Int)
  match cs with
  | '0' :: 'x' :: rest => based 16 rest
  | '0' :: 'o' :: rest => based 8 rest
  | '0' :: 'b' :: rest => based 2 rest
  | '-' :: rest => (whole? rest).map fun n => -(n : Int)
  | '+' :: rest => (whole? rest).map fun n => (n : Int)
  | rest => (whole? rest).map fun n => (n : Int)

def isFloat (cs : List Char) : Bool :=
  let body := match cs with
    | '-' :: rest => rest
    | '+' :: rest => rest
    | _ => cs
  if body == "inf".toList || body == "nan".toList then true
  else
    let (mantissa, exponent) := body.span fun c => c != 'e' && c != 'E'
    let exponentFits := match exponent with
      | [] => true
      | _ :: '+' :: ds => (digits? Char.isDigit ds).isSome
      | _ :: '-' :: ds => (digits? Char.isDigit ds).isSome
      | _ :: ds => (digits? Char.isDigit ds).isSome
    let (front, fraction) := mantissa.span (· != '.')
    let fractionFits := match fraction with
      | [] => !exponent.isEmpty
      | _ :: ds => (digits? Char.isDigit ds).isSome
    (whole? front).isSome && fractionFits && exponentFits

def fixed? (count : Nat) (cs : List Char) : Option (Nat × List Char) :=
  let ds := cs.take count
  if ds.length = count ∧ ds.all Char.isDigit then some (Nat.ofDigitChars 10 ds 0, cs.drop count)
  else none

def date? (cs : List Char) : Option (List Char) := do
  let (year, cs) ← fixed? 4 cs
  let cs ← match cs with | '-' :: cs => some cs | _ => none
  let (month, cs) ← fixed? 2 cs
  let cs ← match cs with | '-' :: cs => some cs | _ => none
  let (day, cs) ← fixed? 2 cs
  if 1 ≤ month ∧ month ≤ 12 ∧ 1 ≤ day ∧ day ≤ Instant.monthLength year month then some cs
  else none

def time? (cs : List Char) : Option (List Char) := do
  let (hour, cs) ← fixed? 2 cs
  let cs ← match cs with | ':' :: cs => some cs | _ => none
  let (minute, cs) ← fixed? 2 cs
  if hour > 23 ∨ minute > 59 then none
  match cs with
  | ':' :: cs =>
    let (second, cs) ← fixed? 2 cs
    if second > 60 then none
    match cs with
    | '.' :: cs =>
      let ds := cs.takeWhile Char.isDigit
      if ds.isEmpty then none else some (cs.drop ds.length)
    | _ => some cs
  | _ => some cs

def isOffset (cs : List Char) : Bool :=
  match cs with
  | [] => true
  | ['Z'] => true
  | ['z'] => true
  | sign :: rest =>
    (sign == '+' || sign == '-') &&
      match fixed? 2 rest with
      | some (hour, ':' :: more) =>
        match fixed? 2 more with
        | some (minute, []) => hour ≤ 23 && minute ≤ 59
        | _ => false
      | _ => false

def isDateTime (cs : List Char) : Bool :=
  match date? cs with
  | some [] => true
  | some (c :: rest) => (c == 'T' || c == 't' || c == ' ') && (time? rest).any isOffset
  | none => time? cs == some []

def word? (cs : List Char) : Option Json :=
  let text := String.ofList cs
  if text == "true" then some (.bool true)
  else if text == "false" then some (.bool false)
  else
    match integer? cs with
    | some n => some (.int n)
    | none =>
      if isFloat cs then some (.real text)
      else if isDateTime cs then some (.obj [("datetime", .str text)])
      else none

/-- A word up to the next delimiter; a date takes a time behind a blank with it. -/
def takeWord (cs : List Char) : List Char × List Char :=
  let stands (c : Char) : Bool := !(" \t\r\n,]\x7d#=".toList.contains c)
  let (first, rest) := cs.span stands
  match rest with
  | ' ' :: d :: more =>
    if d.isDigit && date? first == some [] then
      let (second, rest) := (d :: more).span stands
      (first ++ ' ' :: second, rest)
    else (first, rest)
  | _ => (first, rest)

/-! ## 4. Keys -/

def isBare (c : Char) : Bool := c.isAlphanum || c == '_' || c == '-'

def readKey (cs : List Char) : Option (String × List Char) :=
  match cs with
  | '"' :: rest =>
    (readQuoted '"' (rest.length + 1) rest).map fun (k, rest) => (String.ofList k, rest)
  | '\'' :: rest =>
    (readQuoted '\'' (rest.length + 1) rest).map fun (k, rest) => (String.ofList k, rest)
  | _ =>
    match cs.span isBare with
    | ([], _) => none
    | (k, rest) => some (String.ofList k, rest)

def readKeys : Nat → List Char → Option (List String × List Char)
  | 0, _ => none
  | fuel + 1, cs => do
    let (k, rest) ← readKey (skipSpace cs)
    match skipSpace rest with
    | '.' :: rest =>
      let (ks, rest) ← readKeys fuel rest
      return (k :: ks, rest)
    | rest => return ([k], rest)

/-! ## 5. Values -/

mutual

def readValue : Nat → List Char → Option (Json × List Char)
  | 0, _ => none
  | fuel + 1, cs =>
    match cs with
    | '"' :: rest => (readString '"' rest).map fun (s, rest) => (.str (String.ofList s), rest)
    | '\'' :: rest => (readString '\'' rest).map fun (s, rest) => (.str (String.ofList s), rest)
    | '[' :: rest => (readItems fuel rest).map fun (items, rest) => (.arr items, rest)
    | '\x7b' :: rest => (readInline fuel [] rest).map fun (t, rest) => (.object (fieldsOf t), rest)
    | _ =>
      let (word, rest) := takeWord cs
      (word? word).map fun j => (j, rest)

def readItems : Nat → List Char → Option (List Json × List Char)
  | 0, _ => none
  | fuel + 1, cs => do
    match ← skipLines cs.length cs with
    | ']' :: rest => return ([], rest)
    | rest =>
      let (j, rest) ← readValue fuel rest
      match ← skipLines rest.length rest with
      | ',' :: rest =>
        let (js, rest) ← readItems fuel rest
        return (j :: js, rest)
      | ']' :: rest => return ([j], rest)
      | _ => none

def readInline : Nat → Table → List Char → Option (Table × List Char)
  | 0, _, _ => none
  | fuel + 1, t, cs => do
    match ← skipLines cs.length cs with
    | '\x7d' :: rest => return (t, rest)
    | rest =>
      let (keys, rest) ← readKeys (rest.length + 1) rest
      match rest with
      | '=' :: rest =>
        let (j, rest) ← readValue fuel (skipSpace rest)
        let t ← assign keys j t
        match ← skipLines rest.length rest with
        | ',' :: rest => readInline fuel t rest
        | '\x7d' :: rest => return (t, rest)
        | _ => none
      | _ => none

end

/-! ## 6. Documents -/

def readLines : Nat → Table → List String → List Char → Option Table
  | 0, _, _, _ => none
  | fuel + 1, root, here, cs =>
    match skipSpace cs with
    | [] => some root
    | '[' :: '[' :: rest => do
      let (keys, rest) ← readKeys (rest.length + 1) rest
      match rest with
      | ']' :: ']' :: rest => readLines fuel (← openItem keys root) keys (← skipLine rest)
      | _ => none
    | '[' :: rest => do
      let (keys, rest) ← readKeys (rest.length + 1) rest
      match rest with
      | ']' :: rest => readLines fuel (← openTable keys root) keys (← skipLine rest)
      | _ => none
    | '#' :: rest => do readLines fuel root here (← skipLine ('#' :: rest))
    | rest =>
      match lineEnd? rest with
      | some rest => readLines fuel root here rest
      | none => do
        let (keys, rest) ← readKeys (rest.length + 1) rest
        match rest with
        | '=' :: rest =>
          let (j, rest) ← readValue (rest.length + 1) (skipSpace rest)
          readLines fuel (← inTable here (assign keys j) root) here (← skipLine rest)
        | _ => none

/-- **Reads a document** as an object.  A byte order mark in front does not count. -/
def parse? (text : String) : Option Json :=
  let cs := match text.toList with
    | '\uFEFF' :: rest => rest
    | cs => cs
  (readLines (cs.length + 1) [] [] cs).map fun root => .object (fieldsOf root)

end Intake.Toml
