import Intake.Json
import Intake.Text.Ranges

/-!
# Reader — a data value from its text

The grammar of RFC 8259, with nothing but white space around the value.  Integers that fit 64
bits, signed or unsigned, are read exactly; every other number keeps its text.
-/

namespace Intake.Json

/-! ## 1. Lexical parts -/

def skipSpace (cs : List Char) : List Char :=
  cs.dropWhile fun c => c == ' ' || c == '\n' || c == '\r' || c == '\t'

def hex4? (a b c d : Char) : Option Nat := Text.Ranges.hexValue? [a, b, c, d]

def unescape? : Char → Option Char
  | '"' => some '"'
  | '\\' => some '\\'
  | '/' => some '/'
  | 'b' => some (Char.ofNat 8)
  | 'f' => some (Char.ofNat 12)
  | 'n' => some '\n'
  | 'r' => some '\r'
  | 't' => some '\t'
  | _ => none

/-- **The rest of a string** behind its opening quote: its characters, and what follows the
    closing quote.  A code unit of a pair needs its partner. -/
def readStr : List Char → Option (List Char × List Char)
  | [] => none
  | '"' :: rest => some ([], rest)
  | '\\' :: 'u' :: a :: b :: c :: d :: rest => do
    let high ← hex4? a b c d
    if 0xD800 ≤ high ∧ high < 0xDC00 then
      match rest with
      | '\\' :: 'u' :: e :: f :: g :: h :: rest' => do
        let low ← hex4? e f g h
        if 0xDC00 ≤ low ∧ low < 0xE000 then
          let (cs, tail) ← readStr rest'
          return (Char.ofNat (0x10000 + (high - 0xD800) * 0x400 + (low - 0xDC00)) :: cs, tail)
        else none
      | _ => none
    else if 0xDC00 ≤ high ∧ high < 0xE000 then none
    else
      let (cs, tail) ← readStr rest
      return (Char.ofNat high :: cs, tail)
  | '\\' :: e :: rest => do
    let c ← unescape? e
    let (cs, tail) ← readStr rest
    return (c :: cs, tail)
  | c :: rest =>
    if c.toNat < 32 then none
    else do
      let (cs, tail) ← readStr rest
      return (c :: cs, tail)

def spanDigits (cs : List Char) : List Char × List Char := cs.span Char.isDigit

def readNumber (cs : List Char) : Option (Json × List Char) := do
  let (negative, body) := match cs with
    | '-' :: rest => (true, rest)
    | _ => (false, cs)
  let (whole, rest) := spanDigits body
  match whole with
  | [] => none
  | '0' :: _ :: _ => none
  | _ =>
    let (fraction, rest) ← match rest with
      | '.' :: more =>
        match spanDigits more with
        | ([], _) => none
        | (digits, tail) => some ('.' :: digits, tail)
      | _ => some ([], rest)
    let (exponent, rest) ← match rest with
      | e :: more =>
        if e = 'e' ∨ e = 'E' then
          let (sign, more) := match more with
            | '+' :: tail => (['+'], tail)
            | '-' :: tail => (['-'], tail)
            | _ => ([], more)
          match spanDigits more with
          | ([], _) => none
          | (digits, tail) => some ('e' :: (sign ++ digits), tail)
        else some ([], rest)
      | [] => some ([], rest)
    let n := Nat.ofDigitChars 10 whole 0
    let text := (if negative then ['-'] else []) ++ whole ++ fraction ++ exponent
    if fraction.isEmpty ∧ exponent.isEmpty then
      if negative then
        if 0 < n ∧ n ≤ 0x8000000000000000 then return (.int (-n), rest)
        else return (.real (String.ofList (text ++ ['.', '0'])), rest)
      else if n ≤ maxWord then return (.int n, rest)
      else return (.real (String.ofList (text ++ ['.', '0'])), rest)
    else return (.real (String.ofList text), rest)

/-! ## 2. Values -/

mutual

/-- A value at the front of the text, and the rest.  The first argument bounds the nesting and the
    number of items. -/
def readValue : Nat → List Char → Option (Json × List Char)
  | 0, _ => none
  | fuel + 1, cs =>
    match skipSpace cs with
    | 'n' :: 'u' :: 'l' :: 'l' :: rest => some (.null, rest)
    | 't' :: 'r' :: 'u' :: 'e' :: rest => some (.bool true, rest)
    | 'f' :: 'a' :: 'l' :: 's' :: 'e' :: rest => some (.bool false, rest)
    | '"' :: rest => do
      let (s, rest) ← readStr rest
      return (.str (String.ofList s), rest)
    | '[' :: rest =>
      match skipSpace rest with
      | ']' :: rest => some (.arr [], rest)
      | rest => do
        let (items, rest) ← readItems fuel rest
        return (.arr items, rest)
    | '\x7b' :: rest =>
      match skipSpace rest with
      | '\x7d' :: rest => some (.obj [], rest)
      | rest => do
        let (fields, rest) ← readFields fuel rest
        return (.object fields, rest)
    | rest => readNumber rest

def readItems : Nat → List Char → Option (List Json × List Char)
  | 0, _ => none
  | fuel + 1, cs => do
    let (item, rest) ← readValue fuel cs
    match skipSpace rest with
    | ',' :: rest =>
      let (items, rest) ← readItems fuel rest
      return (item :: items, rest)
    | ']' :: rest => return ([item], rest)
    | _ => none

def readFields : Nat → List Char → Option (List (String × Json) × List Char)
  | 0, _ => none
  | fuel + 1, cs =>
    match skipSpace cs with
    | '"' :: rest => do
      let (name, rest) ← readStr rest
      match skipSpace rest with
      | ':' :: rest =>
        let (value, rest) ← readValue fuel rest
        let field := (String.ofList name, value)
        match skipSpace rest with
        | ',' :: rest =>
          let (fields, rest) ← readFields fuel rest
          return (field :: fields, rest)
        | '\x7d' :: rest => return ([field], rest)
        | _ => none
      | _ => none
    | _ => none

end

def parse? (text : String) : Option Json :=
  match readValue (text.length + 1) text.toList with
  | some (j, rest) => if (skipSpace rest).isEmpty then some j else none
  | none => none

end Intake.Json
