/-!
# Attempts — settling on a batch while the state changes

A batch is prepared and then checked.  If the state changed meanwhile it is prepared again, up to
a fixed number of attempts.
-/

namespace Intake

def maxAttempts : Nat := 3

inductive Progress where
  | preparing (attempt : Nat)
  | validating (attempt : Nat)
  | converged
  | aborted
  deriving DecidableEq, Repr, Inhabited

namespace Progress

def start : Progress := preparing 1

def prepared : Progress → Progress
  | preparing attempt => validating attempt
  | other => other

/-- **The check:** a batch settles if nothing changed; else there is another attempt, if one is
    left. -/
def validated (changed : Bool) : Progress → Progress
  | validating attempt =>
    if !changed then converged
    else if attempt ≥ maxAttempts then aborted
    else preparing (attempt + 1)
  | other => other

def isTerminal : Progress → Bool
  | converged => true
  | aborted => true
  | _ => false

def attempt? : Progress → Option Nat
  | preparing attempt => some attempt
  | validating attempt => some attempt
  | _ => none

end Progress

end Intake
