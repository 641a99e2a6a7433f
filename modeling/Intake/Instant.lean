/-!
# Instant — points in time

An instant counts seconds from 1970-01-01 and nanoseconds behind the second.  Its text is the
date and time of day in universal time; the fraction has none, three, six or nine digits, the
fewest that are exact.
-/

namespace Intake

/-- **Instant.**  Nanoseconds count forward from the second, also before 1970.  In a leap second
    they run on to two billion. -/
structure Instant where
  seconds : Int
  nanos : Nat
  deriving DecidableEq, Repr, Inhabited

namespace Instant

/-! ## 1. Order and units -/

def epoch : Instant := ⟨0, 0⟩

def compare (a b : Instant) : Ordering :=
  match Ord.compare a.seconds b.seconds with
  | .eq => Ord.compare a.nanos b.nanos
  | other => other

def millis (t : Instant) : Int := t.seconds * 1000 + Int.ofNat (t.nanos / 1000000)

def ofMillis (ms : Int) : Instant := ⟨ms.fdiv 1000, (ms.fmod 1000).toNat * 1000000⟩

/-! ## 2. The calendar -/

def daysOfDate (year : Int) (month day : Nat) : Int :=
  let y := if month ≤ 2 then year - 1 else year
  let era := y.fdiv 400
  let yoe := y - era * 400
  let shifted : Nat := if month > 2 then month - 3 else month + 9
  let doy : Int := (((153 * shifted + 2) / 5 + day - 1 : Nat) : Int)
  let doe := yoe * 365 + yoe.fdiv 4 - yoe.fdiv 100 + doy
  era * 146097 + doe - 719468

def dateOfDays (days : Int) : Int × Nat × Nat :=
  let z := days + 719468
  let era := z.fdiv 146097
  let doe := (z - era * 146097).toNat
  let yoe := (doe - doe / 1460 + doe / 36524 - doe / 146096) / 365
  let doy := doe - (365 * yoe + yoe / 4 - yoe / 100)
  let shifted := (5 * doy + 2) / 153
  let day := doy - (153 * shifted + 2) / 5 + 1
  let month := if shifted < 10 then shifted + 3 else shifted - 9
  let year := Int.ofNat yoe + era * 400 + (if month ≤ 2 then 1 else 0)
  (year, month, day)

def isLeap (year : Int) : Bool :=
  year.fmod 4 == 0 && (year.fmod 100 != 0 || year.fmod 400 == 0)

def monthLength (year : Int) (month : Nat) : Nat :=
  if month = 2 then (if isLeap year then 29 else 28)
  else if month = 4 ∨ month = 6 ∨ month = 9 ∨ month = 11 then 30
  else 31

def firstSecond : Int := daysOfDate (-262143) 1 1 * 86400

def lastSecond : Int := daysOfDate 262142 12 31 * 86400 + 86399

/-- **Dated instants:** those whose year the calendar covers. -/
def isDated (t : Instant) : Bool := firstSecond ≤ t.seconds && t.seconds ≤ lastSecond

/-! ## 3. Text -/

def padded (width n : Nat) : List Char :=
  let digits := Nat.toDigits 10 n
  List.replicate (width - digits.length) '0' ++ digits

def yearText (year : Int) : List Char :=
  if 0 ≤ year ∧ year ≤ 9999 then padded 4 year.toNat
  else if year < 0 then '-' :: padded 4 (-year).toNat
  else '+' :: padded 4 year.toNat

def fractionText (nanos : Nat) : List Char :=
  if nanos = 0 then []
  else if nanos % 1000000 = 0 then '.' :: padded 3 (nanos / 1000000)
  else if nanos % 1000 = 0 then '.' :: padded 6 (nanos / 1000)
  else '.' :: padded 9 nanos

/-- **The text** of an instant, `2023-11-14T22:13:20.5Z` with three, six or nine digits. -/
def text (t : Instant) : String :=
  let days := t.seconds.fdiv 86400
  let second := (t.seconds - days * 86400).toNat
  let (year, month, day) := dateOfDays days
  let leap := if t.nanos ≥ 1000000000 then 1 else 0
  String.ofList <|
    yearText year ++ '-' :: padded 2 month ++ '-' :: padded 2 day ++
      'T' :: padded 2 (second / 3600) ++ ':' :: padded 2 (second / 60 % 60) ++
      ':' :: padded 2 (second % 60 + leap) ++
      fractionText (t.nanos - leap * 1000000000) ++ ['Z']

end Instant

end Intake
