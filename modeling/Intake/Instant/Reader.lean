import Intake.Instant
import Intake.Text.Blank

/-!
# Reader — an instant from its text

The grammar is that of RFC 3339, read leniently: white space may stand before numbers, separators
and the offset, a blank may divide date and time, fields may have one digit, years may be signed,
and a fraction may have more digits than count.  Seconds and the offset are required, and every
field must be in its range.
-/

namespace Intake.Instant

/-! ## 1. Fields -/

def takeDigits (limit : Nat) (cs : List Char) : List Char :=
  (cs.take limit).takeWhile Char.isDigit

def readNumber (limit : Nat) (cs : List Char) : Option (Nat × List Char) :=
  let cs := Text.trimStart cs
  match takeDigits limit cs with
  | [] => none
  | digits => some (Nat.ofDigitChars 10 digits 0, cs.drop digits.length)

def readYear (cs : List Char) : Option (Int × List Char) :=
  match Text.trimStart cs with
  | '-' :: rest => (readSigned rest).map fun (n, rest) => (-(n : Int), rest)
  | '+' :: rest => (readSigned rest).map fun (n, rest) => ((n : Int), rest)
  | rest => (readNumber 4 rest).map fun (n, rest) => ((n : Int), rest)
where
  /-- Digits directly behind a sign. -/
  readSigned (cs : List Char) : Option (Nat × List Char) :=
    match cs.takeWhile Char.isDigit with
    | [] => none
    | digits => some (Nat.ofDigitChars 10 digits 0, cs.drop digits.length)

def expect (c : Char) (cs : List Char) : Option (List Char) :=
  match Text.trimStart cs with
  | d :: rest => if c = d then some rest else none
  | [] => none

def readFraction (cs : List Char) : Option (Nat × List Char) :=
  match cs with
  | '.' :: rest =>
    match rest.takeWhile Char.isDigit with
    | [] => none
    | digits =>
      -- nanoseconds: digits behind the ninth do not count
      let nine := digits.take 9
      some (Nat.ofDigitChars 10 nine 0 * Nat.pow 10 (9 - nine.length), rest.drop digits.length)
  | _ => some (0, cs)

def readOffset (cs : List Char) : Option (Int × List Char) :=
  match cs with
  | 'Z' :: rest => some (0, rest)
  | 'z' :: rest => some (0, rest)
  | u :: t :: c :: rest =>
    if String.ofList ([u, t, c].map Char.toLower) == "utc" then some (0, rest)
    else
      let sign : Option Int :=
        if u = '+' then some 1 else if u = '-' ∨ u = '\u2212' then some (-1) else none
      match sign with
      | none => none
      | some sign =>
        if t.isDigit ∧ c.isDigit then
          match rest.dropWhile fun d => d == ':' || Text.isBlank d with
          | m :: n :: rest =>
            if '0' ≤ m ∧ m ≤ '5' ∧ n.isDigit then
              let seconds := Nat.ofDigitChars 10 [t, c] 0 * 3600 + Nat.ofDigitChars 10 [m, n] 0 * 60
              if seconds < 86400 then some (sign * (seconds : Int), rest) else none
            else none
          | _ => none
        else none
  | _ => none

/-! ## 2. Whole texts -/

def parse? (text : String) : Option Instant := do
  let (year, cs) ← readYear text.toList
  let cs ← expect '-' cs
  let (month, cs) ← readNumber 2 cs
  let cs ← expect '-' cs
  let (day, cs) ← readNumber 2 cs
  let cs ← match cs with
    | c :: rest => if c = 'T' ∨ c = 't' ∨ c = ' ' then some rest else none
    | [] => none
  let (hour, cs) ← readNumber 2 cs
  let cs ← expect ':' cs
  let (minute, cs) ← readNumber 2 cs
  let cs ← expect ':' cs
  let (second, cs) ← readNumber 2 cs
  let (nanos, cs) ← readFraction cs
  let (offset, cs) ← readOffset (Text.trimStart cs)
  if !(Text.trimStart cs).isEmpty then none
  if month = 0 ∨ month > 12 ∨ day = 0 ∨ day > monthLength year month then none
  if hour > 23 ∨ minute > 59 ∨ second > 60 then none
  -- a leap second is the second before it, with a second's worth of nanoseconds more
  let leap := if second = 60 then 1 else 0
  let ofDay : Nat := hour * 3600 + minute * 60 + second - leap
  let seconds := daysOfDate year month day * 86400 + ofDay
  let t : Instant := ⟨seconds - offset, nanos + leap * 1000000000⟩
  if year < -262143 ∨ year > 262142 ∨ !t.isDated then none
  return t

end Intake.Instant
