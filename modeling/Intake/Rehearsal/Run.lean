import Intake.Rehearsal.Job

/-!
# Run — playing a rehearsal

A step of a rehearsal is a list of parts that run side by side: calls, writes, sleeps and waits,
each begun some time into the step.  The step is polled whenever something may have changed, its
parts in their order; then the tasks that are ready run; and when everyone waits the clock goes on
to the next deadline.
-/

namespace Intake.Rehearsal

/-! ## 1. Tickers -/

def setTicker (r : Rehearsal) (i : Nat) (state : TickerState) : Rehearsal :=
  { r with tickers := r.tickers.modify i fun t => { t with state } }

-- in milliseconds
def tickSlack : Nat := 5

/-- **The time of the next tick** behind one that was due at a time: one period later, or, if the
    ticker is late, the first time that keeps step with the periods. -/
def nextTick (now due period : Nat) : Nat :=
  if now > due + tickSlack then now + period - (now - due) % period else due + period

def tickLimit : Nat := 16

def runTicker (i : Nat) : Nat → Rehearsal → Rehearsal
  | 0, r => r
  | n + 1, r =>
    match r.tickers[i]? with
    | none => r
    | some t =>
      let continueWith (next : Nat) : Rehearsal × (Job ⊕ Reply) → Rehearsal
        | (r, .inl job) =>
          (r.setTicker i (.ticking next job)).setTimer (.ticker i) (r.deadline? job)
        | (r, .inr .brokenDown) => (r.setTicker i .failed).setTimer (.ticker i) none
        | (r, .inr _) => runTicker i n (r.setTicker i (.asleep next))
      match t.state with
      | .ended => r
      | .failed => r
      | .fresh =>
        if t.period = 0 then r.setTicker i .failed
        else runTicker i n (r.setTicker i (.asleep r.now))
      | .asleep due =>
        if t.cancelled then (r.setTicker i .ended).setTimer (.ticker i) none
        else if due ≤ r.now then
          continueWith (nextTick r.now due t.period) (r.beginCall (.ticker i) t.seat .tick)
        else r.setTimer (.ticker i) (some due)
      | .ticking next job => continueWith next (pollJob (.ticker i) turnLimit r job)

def addTicker (r : Rehearsal) (seat period : Nat) : Rehearsal :=
  let added : Ticker := { seat, period }
  { r with tickers := r.tickers ++ [added] }.wake (.ticker r.tickers.length)

def cancelTicker (r : Rehearsal) (i : Nat) : Rehearsal :=
  let sleeps := (r.tickers[i]?).any fun t =>
    match t.state with
    | .asleep _ => true
    | _ => false
  let r := { r with tickers := r.tickers.modify i fun t => { t with cancelled := true } }
  if sleeps then r.wake (.ticker i) else r

def tickerEnd? (r : Rehearsal) (i : Nat) : Option Bool :=
  match r.tickers[i]? with
  | none => some false
  | some t =>
    match t.state with
    | .ended => some false
    | .failed => some true
    | _ => none

def tickerText (r : Rehearsal) (i : Nat) : String :=
  let t := r.tickers[i]?.getD default
  "MonitorTicker \x7b monitor: " ++ (r.monitor t.seat).text ++ ", cancelled: " ++
    (if t.cancelled then "true" else "false") ++ " \x7d"

/-! ## 2. Tasks -/

def runTask (r : Rehearsal) : Task → Rehearsal
  | .replication => r.replicate
  | .ticker i => runTicker i (4 * tickLimit) r

def runTasks : Nat → Rehearsal → Rehearsal
  | 0, r => r
  | n + 1, r =>
    match r.ready with
    | [] => r
    | t :: rest => runTasks n (runTask { r with ready := rest } t)

/-! ## 3. Parts of a step -/

inductive Errand where
  | call (seat : Nat) (call : Call)
  | job (job : Job)
  | write (entry : LogEntry)
  | settle (timeoutMs : Nat)
  | settling (timeoutMs : Nat) (wait : LogWait)
  | sleep (time : Nat)
  | hostWait (time : Nat)
  | tickerEnd (ticker : Nat)
  deriving Inhabited

inductive Ending where
  | replied (reply : Reply)
  | settled (result : Except StoreError Unit)
  deriving Inhabited

inductive Part where
  | later (start : Nat) (errand : Errand)
  | running (errand : Errand)
  | over (ending : Ending) (time : Nat)
  deriving Inhabited

def Part.ofJob (now : Nat) : Job ⊕ Reply → Part
  | .inl job => .running (.job job)
  | .inr reply => .over (.replied reply) now

def settleFor (r : Rehearsal) (timeoutMs : Nat) (w : LogWait) : Part :=
  match r.logAnswer? timeoutMs w with
  | some result => .over (.settled (result.map fun _ => ())) r.now
  | none => .running (.settling timeoutMs w)

def runErrand (r : Rehearsal) (who : Caller) (e : Errand) : Rehearsal × Part :=
  let finish (reply : Reply) : Part := .over (.replied reply) r.now
  match e with
  | .call i c =>
    let (r, result) := r.beginCall who i c
    (r, .ofJob r.now result)
  | .job job =>
    let (r, result) := pollJob who turnLimit r job
    (r, .ofJob r.now result)
  | .write entry => (r.append entry, finish .done)
  | .settle timeoutMs =>
    match r.store.target? with
    | .error cause => (r, .over (.settled (.error cause)) r.now)
    | .ok target => (r, r.settleFor timeoutMs ⟨target, r.now + timeoutMs⟩)
  | .settling timeoutMs w => (r, r.settleFor timeoutMs w)
  | .sleep time => (r, if time ≤ r.now then finish .done else .running e)
  | .hostWait time =>
    if r.permit then ({ r with permit := false }, finish (.flag true))
    else if time ≤ r.now then (r, finish (.flag false))
    else (r, .running e)
  | .tickerEnd i =>
    match r.tickerEnd? i with
    | some failed => (r, finish (.flag failed))
    | none => (r, .running e)

def pollPart (r : Rehearsal) (who : Caller) (p : Part) : Rehearsal × Part :=
  match p with
  | .later start e => if start ≤ r.now then r.runErrand who e else (r, p)
  | .running e => r.runErrand who e
  | .over _ _ => (r, p)

def pollParts : Nat → Rehearsal → List Part → Rehearsal × List Part
  | _, r, [] => (r, [])
  | i, r, p :: rest =>
    let (r, p) := r.pollPart (.part i) p
    let (r, rest) := pollParts (i + 1) r rest
    (r, p :: rest)

def Part.isOver : Part → Bool
  | .over _ _ => true
  | _ => false

def partDeadline? (r : Rehearsal) : Part → Option Nat
  | .later start _ => some start
  | .running (.job job) => r.deadline? job
  | .running (.settling _ w) => some w.deadline
  | .running (.sleep time) => some time
  | .running (.hostWait time) => some time
  | _ => none

/-! ## 4. The clock -/

def nextTime? (r : Rehearsal) (parts : List Part) : Option Nat :=
  (parts.filterMap r.partDeadline? ++ r.timers.map (·.2)).min?

def stirs (r : Rehearsal) (i : Nat) (p : Part) : Bool :=
  match p with
  | .running (.job job) =>
    match job.stage.need (r.monitor job.seat).config with
    | .gate => (r.seat job.seat).gate.isHeldBy (.part i)
    | .files _ => !(r.monitor job.seat).scanned.isEmpty
    | .refresh _ => job.asked.any fun w => r.store.reached w.target
    | _ => true
  | .running (.settling _ w) => r.store.reached w.target
  | .running (.hostWait _) => r.permit
  | .running (.tickerEnd i) => (r.tickerEnd? i).isSome
  | _ => false

def anyStirs (r : Rehearsal) : Nat → List Part → Bool
  | _, [] => false
  | i, p :: rest => r.stirs i p || r.anyStirs (i + 1) rest

/-- **Plays a step,** at most so many rounds: the parts, the tasks, and, when all wait, the clock.
    A step that waits for nothing that can come is left as it is. -/
def playParts : Nat → Rehearsal → List Part → Rehearsal × List Part
  | 0, r, parts => (r, parts)
  | n + 1, r, parts =>
    let (r, parts) := pollParts 0 r parts
    if parts.all Part.isOver then (r, parts)
    else
      -- what is due now happens before the clock moves, and may let a part go on
      let r := runTasks n r
      if r.anyStirs 0 parts then playParts n r parts
      else
        match r.nextTime? parts with
        | none => (r, parts)
        | some time => playParts n (r.advanceTo (max time r.now)) parts

def roundLimit : Nat := 1000000000

def playStep (r : Rehearsal) (errands : List (Nat × Errand)) : Rehearsal × List Part :=
  playParts roundLimit r (errands.map fun e => .later (r.now + e.1) e.2)

def playErrand (r : Rehearsal) (e : Errand) : Rehearsal × Ending :=
  match r.playStep [(0, e)] with
  | (r, [.over ending _]) => (r, ending)
  | (r, _) => (r, .replied .brokenDown)

/-! ## 5. Monitors -/

def openSeat (r : Rehearsal) (seat : Seat) : Rehearsal × Except Error Nat :=
  let i := r.seats.length
  let r := { r with seats := r.seats ++ [seat], listener := some (.seat i) }
  let begun := if r.store.isStarted then .ok (r.report [.storeAlreadyStarted]) else r.startStore
  match begun with
  | .error cause => (r, .error (.store cause))
  | .ok r =>
    let (r, _) := r.playErrand (.call i .startup)
    (r, .ok i)

/-- **Opens the monitor of a configuration.**  If its listing or its key policy cannot be built, or
    a setting is at fault, the store is left alone. -/
def openConfigured (r : Rehearsal) (c : Config) : Rehearsal × Except Error Nat :=
  match Seat.configured c with
  | .error cause => (r, .error cause)
  | .ok seat => r.openSeat seat

def stopTicker (r : Rehearsal) (i : Nat) : Rehearsal × Ending :=
  let (r, ending) := (r.cancelTicker i).playErrand (.tickerEnd i)
  let r := match ending with
    | .replied (.flag true) => r.report [.tickerFailed]
    | _ => r
  r.playErrand (.call (r.tickers[i]?.getD default).seat .close)

end Intake.Rehearsal
