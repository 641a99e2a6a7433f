import Intake.Instant

/-!
# Span — lengths of time

A span is a number of nanoseconds.  Its text uses the largest unit of seconds, milliseconds,
microseconds and nanoseconds in which the whole part is not zero, and drops zeros behind the
point.
-/

namespace Intake

structure Span where
  nanos : Nat
  deriving DecidableEq, Repr, Inhabited

namespace Span

def ofMillis (ms : Nat) : Span := ⟨ms * 1000000⟩

def ofSeconds (seconds nanos : Nat) : Span := ⟨seconds * 1000000000 + nanos⟩

def decimal (whole fraction places : Nat) : String :=
  let digits := (Instant.padded places fraction).reverse.dropWhile (· == '0') |>.reverse
  toString whole ++ (if fraction = 0 then "" else "." ++ String.ofList digits)

def text (s : Span) : String :=
  let n := s.nanos
  if n ≥ 1000000000 then decimal (n / 1000000000) (n % 1000000000) 9 ++ "s"
  else if n ≥ 1000000 then decimal (n / 1000000) (n % 1000000) 6 ++ "ms"
  else if n ≥ 1000 then decimal (n / 1000) (n % 1000) 3 ++ "µs"
  else toString n ++ "ns"

end Span

end Intake
