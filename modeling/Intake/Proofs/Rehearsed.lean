import Intake.Proofs.Interplay
import Intake.Rehearsal.Job

/-!
# Rehearsed — rehearsals are interplays

A rehearsal polls its calls in a fixed order, on a clock of its own, and with scripts.  For the
monitor of one seat this is one of the orders that an interplay allows: what scripts write and tell
are news, and every turn that a call takes is a turn of the interplay (`pollJob_run`,
`beginCall_run`).  So what every interplay keeps, every rehearsal keeps.
-/

namespace Intake.Rehearsal

def interplay (r : Rehearsal) (i : Nat) (calls : Catalog Caller Stage) : Interplay Caller where
  now := r.now
  monitor := r.monitor i
  gate := (r.seat i).gate
  calls := calls

abbrev Plays := Interplay.Run (ι := Caller) fun _ _ => True

/-! ## 1. Seats -/

theorem seat_onSeat {r : Rehearsal} {i : Nat} (hi : i < r.seats.length) (j : Nat)
    (change : Seat → Seat) :
    (r.onSeat j change).seat i = if j = i then change (r.seat i) else r.seat i := by
  have hget : r.seats[i]? = some r.seats[i] := List.getElem?_eq_getElem hi
  unfold seat
  show ((r.seats.modify j change)[i]?).getD default = _
  rw [List.getElem?_modify, hget]
  by_cases hj : j = i
  · simp only [hj, if_true, Option.map_eq_map, Option.map_some, Option.getD_some]
  · simp only [hj, if_false, Option.map_eq_map, Option.map_some, Option.getD_some]

theorem length_onSeat (r : Rehearsal) (j : Nat) (change : Seat → Seat) :
    (r.onSeat j change).seats.length = r.seats.length := by
  show (r.seats.modify j change).length = r.seats.length
  rw [List.length_modify]

theorem seats_wake (r : Rehearsal) (t : Task) :
    (r.wake t).seats = r.seats ∧ (r.wake t).now = r.now := by
  unfold wake
  split <;> exact ⟨rfl, rfl⟩

theorem seats_append (r : Rehearsal) (e : LogEntry) :
    (r.append e).seats = r.seats ∧ (r.append e).now = r.now := by
  unfold append
  simp only
  split
  · exact seats_wake _ _
  · exact ⟨rfl, rfl⟩

theorem seats_playEffect (r : Rehearsal) (e : Effect) :
    (r.playEffect e).seats = r.seats ∧ (r.playEffect e).now = r.now := by
  cases e with
  | report e => exact ⟨rfl, rfl⟩
  | write key record =>
    exact seats_append { r with writes := r.writes ++ [(key, record)] } ⟨key, some record⟩
  | request => exact ⟨rfl, rfl⟩

theorem seats_playEffects (r : Rehearsal) (es : List Effect) :
    (es.foldl playEffect r).seats = r.seats ∧ (es.foldl playEffect r).now = r.now := by
  induction es generalizing r with
  | nil => exact ⟨rfl, rfl⟩
  | cons e es ih =>
    obtain ⟨hseats, hnow⟩ := r.seats_playEffect e
    obtain ⟨hseats', hnow'⟩ := ih (r.playEffect e)
    exact ⟨hseats'.trans hseats, hnow'.trans hnow⟩

theorem interplay_eq {r r' : Rehearsal} (hseats : r'.seats = r.seats) (hnow : r'.now = r.now)
    (i : Nat) (calls : Catalog Caller Stage) : r'.interplay i calls = r.interplay i calls := by
  unfold interplay monitor seat
  rw [hseats, hnow]

theorem interplay_of_seat {r : Rehearsal} {i : Nat} {s : Seat} (h : r.seat i = s)
    (calls : Catalog Caller Stage) : r.interplay i calls = ⟨r.now, s.monitor, s.gate, calls⟩ := by
  subst h
  rfl

/-! ## 2. News -/

structure OnlyNews (i : Nat) (r r' : Rehearsal) : Prop where
  length : r'.seats.length = r.seats.length
  run : ∀ calls, ∃ ms, Plays (r.interplay i calls) ms (r'.interplay i calls)

theorem OnlyNews.of_seats {i : Nat} {r r' : Rehearsal} (hseats : r'.seats = r.seats)
    (hnow : r'.now = r.now) : OnlyNews i r r' where
  length := by rw [hseats]
  run calls := by
    rw [interplay_eq hseats hnow]
    exact ⟨[], .nil _⟩

theorem OnlyNews.refl (i : Nat) (r : Rehearsal) : OnlyNews i r r := .of_seats rfl rfl

theorem OnlyNews.trans {i : Nat} {a b c : Rehearsal} (h : OnlyNews i a b) (h' : OnlyNews i b c) :
    OnlyNews i a c where
  length := h'.length.trans h.length
  run calls := by
    obtain ⟨ms, hms⟩ := h.run calls
    obtain ⟨ns, hns⟩ := h'.run calls
    exact ⟨ms ++ ns, hms.append hns⟩

theorem onlyNews_tell {r : Rehearsal} {i : Nat} (hi : i < r.seats.length) (e : LogEntry) :
    OnlyNews i r (r.tell e) := by
  unfold tell
  split
  · exact .of_seats rfl rfl
  · exact .of_seats rfl rfl
  next j _ =>
    refine ⟨r.length_onSeat j _, ?_⟩
    intro calls
    have hseat := seat_onSeat hi j fun s => { s with monitor := ((r.monitor j).observe e).1 }
    -- only the listener's own seat hears
    by_cases hj : j = i
    · subst hj
      rw [if_pos rfl] at hseat
      refine ⟨[.hear e], .cons (.hear _ e) ?_⟩
      rw [interplay_of_seat (r := (r.setMonitor j _).report _) hseat]
      exact .nil _
    · rw [if_neg hj] at hseat
      refine ⟨[], ?_⟩
      rw [interplay_of_seat (r := (r.setMonitor j _).report _) hseat]
      exact .nil _

theorem onlyNews_play {r : Rehearsal} {i : Nat} (hi : i < r.seats.length) (a : Act) :
    OnlyNews i r (r.play a) := by
  cases a with
  | append e => exact .of_seats (r.seats_append e).1 (r.seats_append e).2
  | notify e => exact onlyNews_tell hi e
  | failRefresh cause => exact .of_seats rfl rfl
  | failListing text => exact .of_seats rfl rfl

theorem onlyNews_script {r : Rehearsal} {i : Nat} (hi : i < r.seats.length) (script : Script) :
    OnlyNews i r (script.foldl play r) := by
  induction script generalizing r with
  | nil => exact .of_seats rfl rfl
  | cons a script ih =>
    have hfirst := onlyNews_play hi a
    have hi' : i < (r.play a).seats.length := by
      rw [hfirst.length]
      exact hi
    exact hfirst.trans (ih hi')

/-! ## 3. Turns -/

theorem seat_leaveGate {r : Rehearsal} {i : Nat} (hi : i < r.seats.length) (who : Caller) :
    (r.leaveGate i who).seat i = { r.seat i with gate := (r.seat i).gate.leave who } ∧
      (r.leaveGate i who).now = r.now ∧ (r.leaveGate i who).seats.length = r.seats.length := by
  have hseat := seat_onSeat hi i fun s => { s with gate := s.gate.leave who }
  have hlength := r.length_onSeat i fun s => { s with gate := s.gate.leave who }
  rw [if_pos rfl] at hseat
  unfold leaveGate
  simp only
  split
  next t _ =>
    obtain ⟨hseats, hnow⟩ := seats_wake
      (r.onSeat i fun s => { s with gate := s.gate.leave who }) (.ticker t)
    refine ⟨?_, hnow, ?_⟩
    · unfold seat at hseat ⊢
      rw [hseats, hseat]
    · rw [hseats, hlength]
  next => exact ⟨hseat, rfl, hlength⟩

/-- **A turn that is played** in a rehearsal is played in the interplay of its seat. -/
theorem interplay_playTurn {r : Rehearsal} {i : Nat} (hi : i < r.seats.length) (who : Caller)
    (t : Turn) (calls : Catalog Caller Stage) :
    (r.playTurn i who t).interplay i ((r.interplay i calls).play who t).calls =
        (r.interplay i calls).play who t ∧
      (r.playTurn i who t).seats.length = r.seats.length := by
  have hset := seat_onSeat hi i fun s => { s with monitor := t.monitor }
  rw [if_pos rfl] at hset
  obtain ⟨hseats, hnow⟩ := seats_playEffects (r.setMonitor i t.monitor) t.effects
  have hlength : (t.effects.foldl playEffect (r.setMonitor i t.monitor)).seats.length =
      r.seats.length := by
    rw [hseats]
    exact r.length_onSeat i _
  -- effects leave every seat as it is
  have hseat : (t.effects.foldl playEffect (r.setMonitor i t.monitor)).seat i =
      { r.seat i with monitor := t.monitor } := by
    unfold seat at hset ⊢
    rw [hseats]
    exact hset
  have hheld : ((t.effects.foldl playEffect (r.setMonitor i t.monitor)).seat i).gate.isHeldBy who =
      (r.interplay i calls).gate.isHeldBy who := by
    rw [hseat]
    rfl
  unfold playTurn Interplay.play
  simp only [hheld]
  split
  next hleaves =>
    have hi' : i < (t.effects.foldl playEffect (r.setMonitor i t.monitor)).seats.length := by
      rw [hlength]
      exact hi
    obtain ⟨hseat', hnow', hlength'⟩ := seat_leaveGate hi' who
    rw [hseat] at hseat'
    rw [interplay_of_seat hseat', hnow', hnow]
    exact ⟨rfl, hlength'.trans hlength⟩
  next hstays =>
    rw [interplay_of_seat hseat, hnow]
    exact ⟨rfl, hlength⟩

/-! ## 4. Answers -/

theorem onlyNews_cleanBatch (r : Rehearsal) (i j : Nat) (batch : List Record) :
    OnlyNews i r (r.cleanBatch j batch).1 := by
  unfold cleanBatch
  split
  · exact .of_seats rfl rfl
  · exact .of_seats rfl rfl

theorem meets_cleanBatch (r : Rehearsal) (j : Nat) (batch : List Record) :
    (r.cleanBatch j batch).2.meets (.cleanup batch) = true := by
  unfold cleanBatch
  split
  · simp only
    split <;> rfl
  · rfl

theorem onlyNews_listFiles {r : Rehearsal} {i : Nat} (hi : i < r.seats.length) (j : Nat) :
    OnlyNews i r (r.listFiles j).1 := by
  unfold listFiles
  split
  · have htaken : OnlyNews i r
        { r with onListing := r.onListing.tail, listings := r.listings + 1 } := .of_seats rfl rfl
    have hplayed := onlyNews_script
      (r := { r with onListing := r.onListing.tail, listings := r.listings + 1 }) hi
      (r.onListing.headD [])
    exact htaken.trans hplayed
  · exact .of_seats rfl rfl

theorem meets_listFiles (r : Rehearsal) (j : Nat) :
    (r.listFiles j).2.meets .listing = true := by
  unfold listFiles
  split
  · rfl
  · simp only
    split <;> rfl

theorem onlyNews_askRefresh {r : Rehearsal} {i : Nat} (hi : i < r.seats.length) (timeoutMs : Nat) :
    OnlyNews i r (r.askRefresh timeoutMs).1 := by
  have htaken : OnlyNews i r { r with onRefresh := r.onRefresh.tail } := .of_seats rfl rfl
  have hplayed := onlyNews_script (r := { r with onRefresh := r.onRefresh.tail }) hi
    (r.onRefresh.headD [])
  exact htaken.trans hplayed

/-- **What answering a job comes to:** moves of its interplay after which an answer, if there is
    one, may be taken. -/
structure Answers (who : Caller) (job : Job) (r : Rehearsal)
    (out : Rehearsal × Job × Option Answer) : Prop where
  length : out.1.seats.length = r.seats.length
  seat : out.2.1.seat = job.seat
  stage : out.2.1.stage = job.stage
  run : ∀ calls, calls.get? who = some job.stage →
    ∃ ms, Plays (r.interplay job.seat calls) ms (out.1.interplay job.seat calls)
  ready : ∀ a, out.2.2 = some a → ∀ calls,
    a.meets (job.stage.need (r.monitor job.seat).config) = true ∧
      (out.1.interplay job.seat calls).isReady who
        (job.stage.need (r.monitor job.seat).config) = true

theorem OnlyNews.answers {who : Caller} {job : Job} {r : Rehearsal}
    {out : Rehearsal × Job × Option Answer} (h : OnlyNews job.seat r out.1)
    (seat : out.2.1.seat = job.seat) (stage : out.2.1.stage = job.stage)
    (ready : ∀ a, out.2.2 = some a → ∀ calls,
      a.meets (job.stage.need (r.monitor job.seat).config) = true ∧
        (out.1.interplay job.seat calls).isReady who
          (job.stage.need (r.monitor job.seat).config) = true) : Answers who job r out where
  length := h.length
  seat := seat
  stage := stage
  run calls _ := h.run calls
  ready := ready

theorem answers_answer? (who : Caller) {r : Rehearsal} {job : Job}
    (hi : job.seat < r.seats.length) : Answers who job r (r.answer? who job) := by
  unfold answer?
  cases hneed : job.stage.need (r.monitor job.seat).config with
  | cleanup batch =>
    simp only [hneed]
    refine (onlyNews_cleanBatch r job.seat job.seat batch).answers rfl rfl ?_
    intro a ha calls
    cases ha
    rw [hneed]
    exact ⟨meets_cleanBatch r job.seat batch, rfl⟩
  | listing =>
    simp only [hneed]
    refine (onlyNews_listFiles hi job.seat).answers rfl rfl ?_
    intro a ha calls
    cases ha
    rw [hneed]
    exact ⟨meets_listFiles r job.seat, rfl⟩
  | files deadline =>
    simp only [hneed]
    refine (OnlyNews.refl job.seat r).answers rfl rfl ?_
    intro a ha calls
    rw [hneed]
    dsimp only at ha
    split at ha
    next hthere =>
      cases ha
      exact ⟨rfl, hthere⟩
    next => cases ha
  | gate =>
    -- the only answer for which the interplay makes a move of its own
    simp only [hneed]
    have hseat := seat_onSeat hi job.seat fun s => { s with gate := s.gate.ask who }
    rw [if_pos rfl] at hseat
    refine ⟨r.length_onSeat job.seat _, rfl, rfl, ?_, ?_⟩
    · intro calls waits
      refine ⟨[.ask who], .cons (.ask _ waits hneed) ?_⟩
      rw [interplay_of_seat hseat]
      exact .nil _
    · intro a ha calls
      rw [hneed]
      split at ha
      next hheld =>
        cases ha
        exact ⟨rfl, hheld⟩
      next => cases ha
  | refresh timeoutMs =>
    simp only [hneed]
    cases job.asked with
    | some w =>
      refine (OnlyNews.refl job.seat r).answers rfl rfl ?_
      intro a ha calls
      obtain ⟨result, -, rfl⟩ := Option.map_eq_some_iff.1 ha
      rw [hneed]
      exact ⟨rfl, rfl⟩
    | none =>
      have hnews := onlyNews_askRefresh hi timeoutMs
      dsimp only
      split
      next r' cause hasked =>
        rw [hasked] at hnews
        refine hnews.answers rfl rfl ?_
        intro a ha calls
        cases ha
        rw [hneed]
        exact ⟨rfl, rfl⟩
      next r' w hasked =>
        rw [hasked] at hnews
        refine hnews.answers rfl rfl ?_
        intro a ha calls
        obtain ⟨result, -, rfl⟩ := Option.map_eq_some_iff.1 ha
        rw [hneed]
        exact ⟨rfl, rfl⟩

/-! ## 5. Polling -/

/-- **An answer that is there** may be taken: the call goes on through its next turn. -/
theorem Answers.plays {who : Caller} {job job' : Job} {r r' : Rehearsal} {a : Answer}
    (h : Answers who job r (r', job', some a)) (hi : job.seat < r.seats.length)
    {calls : Catalog Caller Stage} (waits : calls.get? who = some job.stage) {t : Turn}
    (ht : t = (r'.monitor job'.seat).resume r'.now job'.stage a) :
    ∃ ms, Plays (r.interplay job.seat calls) ms
      ((r'.playTurn job'.seat who t).interplay job.seat
        ((r'.interplay job.seat calls).play who t).calls) := by
  obtain ⟨ms, hms⟩ := h.run calls waits
  obtain ⟨meets, ready⟩ := h.ready a rfl calls
  have hsettings : (r'.monitor job.seat).config = (r.monitor job.seat).config :=
    congrArg (·.1) hms.settings
  have hseat : job'.seat = job.seat := h.seat
  have hstage : job'.stage = job.stage := h.stage
  have hi' : job.seat < r'.seats.length := by
    rw [show r'.seats.length = r.seats.length from h.length]
    exact hi
  rw [hseat, hstage] at ht
  rw [← hsettings] at meets ready
  refine ⟨ms ++ [.resume who a], hms.append (.cons (.resume _ waits meets ready trivial) ?_)⟩
  rw [hseat, (interplay_playTurn hi' who t calls).1, ht]
  exact .nil _

def leftAt : Job ⊕ Reply → Option Stage
  | .inl job => some job.stage
  | .inr _ => none

/-- **What polling a caller comes to:** a run of the interplay of its seat, behind which the caller
    is where it was left and every other caller where it was. -/
structure Polls (who : Caller) (i : Nat) (calls : Catalog Caller Stage) (r : Rehearsal)
    (out : Rehearsal × (Job ⊕ Reply)) : Prop where
  length : out.1.seats.length = r.seats.length
  seat : ∀ job, out.2 = .inl job → job.seat = i
  run : ∃ ms calls', Plays (r.interplay i calls) ms (out.1.interplay i calls') ∧
    calls'.get? who = leftAt out.2 ∧ ∀ other, other ≠ who → calls'.get? other = calls.get? other

/-- **After a turn** the call has replied, or is polled on. -/
theorem polls_playTurn {who : Caller} {i : Nat} {calls : Catalog Caller Stage} {r r' : Rehearsal}
    {t : Turn} {goOn : Stage → Rehearsal × (Job ⊕ Reply)} (hi : i < r'.seats.length)
    (hlength : r'.seats.length = r.seats.length)
    (hrun : ∃ ms, Plays (r.interplay i calls) ms
      ((r'.playTurn i who t).interplay i ((r'.interplay i calls).play who t).calls))
    (hgoOn : ∀ stage calls', i < (r'.playTurn i who t).seats.length →
      calls'.get? who = some stage → Polls who i calls' (r'.playTurn i who t) (goOn stage)) :
    Polls who i calls r (match t.next with
      | .finished reply => (r'.playTurn i who t, .inr reply)
      | .waiting stage => goOn stage) := by
  obtain ⟨ms, hms⟩ := hrun
  have hplayed := (interplay_playTurn hi who t calls).2
  have hself := Interplay.get?_calls_play_self (r'.interplay i calls) who t
  have hothers : ∀ other, other ≠ who →
      ((r'.interplay i calls).play who t).calls.get? other = calls.get? other :=
    fun other hne => Interplay.get?_calls_play_of_ne (r'.interplay i calls) t hne
  cases hnext : t.next with
  | finished reply =>
    rw [hnext] at hself
    refine ⟨hplayed.trans hlength, ?_, ms, _, hms, hself, hothers⟩
    rintro _ ⟨⟩
  | waiting stage =>
    rw [hnext] at hself
    obtain ⟨hlast, hseat, ns, calls', hns, hleft, hothers'⟩ :=
      hgoOn stage _ (hplayed ▸ hi) hself
    refine ⟨hlast.trans (hplayed.trans hlength), hseat, ms ++ ns, calls', hms.append hns, hleft, ?_⟩
    intro other hne
    exact (hothers' other hne).trans (hothers other hne)

/-- **Polling a job is a run** of the interplay of its seat, through however many turns. -/
theorem pollJob_run (who : Caller) (n : Nat) {r : Rehearsal} {job : Job}
    (hi : job.seat < r.seats.length) {calls : Catalog Caller Stage}
    (waits : calls.get? who = some job.stage) :
    Polls who job.seat calls r (pollJob who n r job) := by
  -- by induction on the turns that are left; a turn that leads to a stage is polled with one less
  induction n generalizing r job calls with
  | zero =>
    refine ⟨rfl, ?_, [], calls, .nil _, waits, fun _ _ => rfl⟩
    rintro _ ⟨⟩
    rfl
  | succ n ih =>
    have hout := answers_answer? who hi
    unfold pollJob
    split
    next r' job' hanswer =>
      rw [hanswer] at hout
      obtain ⟨ms, hms⟩ := hout.run calls waits
      refine ⟨hout.length, ?_, ms, calls, hms, ?_, fun _ _ => rfl⟩
      · rintro _ ⟨⟩
        exact hout.seat
      · rw [waits]
        exact congrArg some hout.stage.symm
    next r' job' a hanswer =>
      rw [hanswer] at hout
      have hseat : job'.seat = job.seat := hout.seat
      have hlength : r'.seats.length = r.seats.length := hout.length
      have hi' : job'.seat < r'.seats.length := by
        rw [hseat, hlength]
        exact hi
      have hrun := hout.plays hi waits rfl
      rw [← hseat] at hrun ⊢
      refine polls_playTurn hi' hlength hrun ?_
      intro stage calls' hafter hstage
      exact ih (show (Job.mk job'.seat stage none).seat < _ from hafter) hstage

/-- **Beginning a call is a run** of the interplay of its seat, if the caller has none there. -/
theorem beginCall_run {r : Rehearsal} (who : Caller) {i : Nat} (hi : i < r.seats.length) (c : Call)
    {calls : Catalog Caller Stage} (idle : calls.get? who = none) :
    Polls who i calls r (r.beginCall who i c) := by
  unfold beginCall
  refine polls_playTurn hi rfl ⟨[.begin who c], .cons (.begin _ c idle) ?_⟩ ?_
  · rw [(interplay_playTurn hi who _ calls).1]
    exact .nil _
  · intro stage calls' hafter hstage
    exact pollJob_run who turnLimit (show (Job.mk i stage none).seat < _ from hafter) hstage

end Intake.Rehearsal
