/-!
# Gate — one at a time, in order of arrival

The gate lets in one holder; others queue.  When the holder leaves, the first of the queue holds
the gate at once, before anyone else can ask; nobody else moves a holder, by asking (`holder_ask`)
or by leaving the queue (`holder_leave_of_ne`).
-/

namespace Intake

structure Gate (ι : Type) where
  holder : Option ι := none
  queue : List ι := []
  deriving Repr, Inhabited

namespace Gate

variable {ι : Type} [DecidableEq ι]

/-! ## 1. Asking and leaving -/

def isHeldBy (g : Gate ι) (i : ι) : Bool := g.holder == some i

def ask (g : Gate ι) (i : ι) : Gate ι :=
  match g.holder with
  | none => { g with holder := some i }
  | some h => if h = i ∨ g.queue.contains i then g else { g with queue := g.queue ++ [i] }

def leave (g : Gate ι) (i : ι) : Gate ι :=
  if g.holder = some i then
    match g.queue with
    | [] => ⟨none, []⟩
    | next :: rest => ⟨some next, rest⟩
  else { g with queue := g.queue.filter (· != i) }

/-! ## 2. The holder -/

/-- A free gate is held by who asks; any other keeps its holder. -/
theorem holder_ask (g : Gate ι) (i : ι) : (g.ask i).holder = some (g.holder.getD i) := by
  unfold ask
  cases hg : g.holder with
  | none => simp
  | some h => simp only; split <;> simp [hg]

theorem holder_leave_of_ne {g : Gate ι} {i : ι} (h : g.holder ≠ some i) :
    (g.leave i).holder = g.holder := by
  unfold leave
  rw [if_neg h]

end Gate

end Intake
