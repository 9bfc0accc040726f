import Bignum.Proofs.Cell.Backlog
import Bignum.Proofs.Cell.History

/-!
What an update reports of the races that it has lost.

An update makes one attempt after another until one of them ends it (`Closure.rounds`). The attempts
before that one have lost a race, which is said of an attempt without looking at what it logged or
counted (`UpdateRound.lost`). The closure calls, the callbacks and the events of the update are then
known in their order (`Attempts.order`), and what it adds to the counters is what the cell has
gained without the closure calls (`UpdateRun.gained`).

* `races_reported`: all of this for every update on every cell, whatever the operations that are
  nested in it lose, log and count.

The numbers of attempts stop at the largest one of 32 bits, so they are those of the lost races
only as long as these are not more.
-/

namespace Bignum

/-- One attempt of an update. -/
structure UpdateRound where
  /-- The cell when the closure is called. -/
  before : Cell
  called : BodyRun
  /-- The cell when the attempt is over. -/
  after : Cell

namespace UpdateRound

/-- The value that the closure is called on. -/
def snapshot (r : UpdateRound) : Integer := r.before.current.value

/-- Whether the closure has reached a new value, but another version has become current. -/
def lost (r : UpdateRound) : Bool :=
  match r.called.verdict with
  | .install _ => r.called.cell.current.number != r.before.current.number
  | .decline => false
  | .fail _ => false

end UpdateRound

/-- The attempts of an update from one of them on, in order. -/
def Closure.rounds : Closure → (slot attempt : Nat) → Cell → List UpdateRound
  | .settle verdict, slot, attempt, c =>
      let before := c.protect slot
      let called : BodyRun :=
        { nested := [], verdict := verdict before.current.value, cell := before }
      let ending := before.conclude slot attempt before.current called.verdict
      [{ before, called, after := ending.2 }]
  | .call body rest, slot, attempt, c =>
      let before := c.protect slot
      let called := (body before.current.value).run before
      let ending := called.cell.conclude slot attempt before.current called.verdict
      { before, called, after := ending.2 } ::
        match ending.1 with
        | some _ => []
        | none => rest.rounds slot (Cell.nextAttempt attempt) ending.2

/-- What is logged of a lost race: its number, and a warning if that is `warn`. -/
def raceEvents (warn retries : Nat) : List CellEvent :=
  .lostRace retries :: if retries = warn then [.contended retries] else []

/-- What happens in an attempt, in order: the callback unless it is the first one, the closure call,
and what is logged if the attempt loses. -/
def UpdateRound.moments (warn attempt : Nat) (r : UpdateRound) : List Moment :=
  (if attempt = 0 then [] else [.retried r.snapshot]) ++
    .called r.snapshot r.called.nested ::
      if r.lost then (raceEvents warn (attempt + 1)).map .logged else []

namespace Moment

/-- The snapshots that the callback was called with. -/
def retries (moments : List Moment) : List Integer :=
  moments.filterMap fun
    | .retried snapshot => some snapshot
    | _ => none

/-- What an update logged itself. -/
def events (moments : List Moment) : List CellEvent :=
  moments.filterMap fun
    | .logged event => some event
    | _ => none

end Moment

namespace CellEvent

def lostRace? : CellEvent → Option Nat
  | .lostRace attempt => some attempt
  | _ => none

def contended? : CellEvent → Option Nat
  | .contended retries => some retries
  | _ => none

end CellEvent

/-- What the closure calls of some attempts have added to a count. -/
def UpdateRound.gained (count : CellCounters → Nat) : List UpdateRound → Int
  | [] => 0
  | r :: later =>
      (count r.called.cell.counters : Int) - count r.before.counters + gained count later

/-- What an update on a cell has added to a count itself, the closure calls left aside. -/
def UpdateRun.gained (run : UpdateRun) (c : Cell) (rounds : List UpdateRound)
    (count : CellCounters → Nat) : Int :=
  (count run.cell.counters : Int) - count c.counters - UpdateRound.gained count rounds

/-! ### The end of an attempt -/

namespace Cell

variable {c d : Cell} {slot attempt : Nat} {observed : Version} {verdict : Verdict}

/-- An attempt that does not end the update has lost a race. -/
theorem conclude_eq_none (concluded : c.conclude slot attempt observed verdict = (none, d)) :
    (∃ value, verdict = .install value) ∧ c.current.number ≠ observed.number ∧
      d = loseRace attempt { c with
        counters := { c.counters with casAttempts := c.counters.casAttempts + 1 } } := by
  cases verdict with
  | decline => cases concluded
  | fail cause => cases concluded
  | install value =>
      by_cases same : c.current.number = observed.number
      · simp [conclude, compareSwap, same] at concluded
      · simp only [conclude, compareSwap, same, if_false] at concluded
        cases concluded
        exact ⟨⟨value, rfl⟩, same, rfl⟩

theorem retire_log (replaced : Version) (c : Cell) :
    ∃ scans, (∀ e ∈ scans, e.isScan = true) ∧ (c.retire replaced).log = c.log ++ scans := by
  rw [retire_eq]
  split
  · exact ⟨_, by simp [CellEvent.isScan], rfl⟩
  · exact ⟨[], nofun, (List.append_nil _).symm⟩

/-- An attempt that ends the update has lost no race, and logs at most a scan. -/
theorem conclude_eq_some {outcome : Outcome}
    (concluded : c.conclude slot attempt observed verdict = (some outcome, d)) :
    (∀ value, verdict = .install value → c.current.number = observed.number) ∧
      (∃ scans, (∀ e ∈ scans, e.isScan = true) ∧ d.log = c.log ++ scans) ∧
      d.counters.casFailures = c.counters.casFailures ∧
      d.counters.casAttempts =
        c.counters.casAttempts + if outcome.completion = .installed then 1 else 0 := by
  have quiet : ∃ scans : List CellEvent, (∀ e ∈ scans, e.isScan = true) ∧
      c.log = c.log ++ scans := ⟨[], nofun, (List.append_nil _).symm⟩
  cases verdict with
  | decline =>
      cases concluded
      exact ⟨nofun, quiet, rfl, rfl⟩
  | fail cause =>
      cases concluded
      exact ⟨nofun, quiet, rfl, rfl⟩
  | install value =>
      by_cases same : c.current.number = observed.number
      · simp only [conclude, compareSwap, same, if_true] at concluded
        cases concluded
        obtain ⟨reclaimed, -, counters⟩ := retire_counters observed (({ c with
          counters := { c.counters with casAttempts := c.counters.casAttempts + 1 } }.publish
            value).release slot)
        refine ⟨fun _ _ => same, retire_log observed _, ?_, ?_⟩
        · rw [counters]
          rfl
        · rw [counters]
          rfl
      · simp [conclude, compareSwap, same] at concluded

theorem nextAttempt_ne_zero (attempt : Nat) : nextAttempt attempt ≠ 0 := by
  rw [nextAttempt]
  omega

theorem loggedSince_eq {events : List CellEvent} (logged : d.log = c.log ++ events) :
    c.loggedSince d = events.map .logged := by
  rw [loggedSince, logged, List.drop_left]

end Cell

namespace Moment

theorem events_append (first second : List Moment) :
    events (first ++ second) = events first ++ events second :=
  List.filterMap_append

theorem events_logged (logged : List CellEvent) : events (logged.map .logged) = logged := by
  rw [events, List.filterMap_map]
  exact List.filterMap_some

/-- The callback is called once, unless the attempt is the first one. -/
theorem retries_moments (attempt : Nat) (snapshot : Integer) (nested : List Trace)
    (before after : Cell) :
    retries (Cell.moments attempt snapshot nested before after) =
      if attempt = 0 then [] else [snapshot] := by
  have none : retries (Cell.loggedSince before after) = [] := by
    rw [retries, Cell.loggedSince, List.filterMap_map]
    exact List.filterMap_eq_nil_iff.mpr fun _ _ => rfl
  unfold Cell.moments
  split
  · exact none
  · exact congrArg (snapshot :: ·) none

/-- An attempt logs something only if it loses. -/
theorem events_moments (warn attempt : Nat) (r : UpdateRound) :
    events (r.moments warn attempt) = if r.lost then raceEvents warn (attempt + 1) else [] := by
  have called (logged : List Moment) : events ((if attempt = 0 then [] else [.retried r.snapshot])
      ++ .called r.snapshot r.called.nested :: logged) = events logged := by
    split <;> rfl
  rw [UpdateRound.moments, called]
  split
  · exact events_logged _
  · rfl

end Moment

/-! ### Attempts -/

/-- An attempt on a cell with a slot that is held, and how it has ended the update, if it has. -/
structure UpdateRound.Made (slot attempt : Nat) (c : Cell) (ending : Option Outcome)
    (r : UpdateRound) : Prop where
  began : r.before = c.protect slot
  unchanged : r.called.cell.settings = c.settings
  concluded : r.called.cell.conclude slot attempt r.before.current r.called.verdict =
    (ending, r.after)

namespace UpdateRound.Made

variable {c : Cell} {r : UpdateRound} {slot attempt : Nat} {outcome : Outcome}

theorem lost (made : r.Made slot attempt c none) : r.lost = true := by
  obtain ⟨⟨value, installs⟩, other, -⟩ := Cell.conclude_eq_none made.concluded
  rw [UpdateRound.lost, installs]
  exact bne_iff_ne.mpr other

theorem not_lost (made : r.Made slot attempt c (some outcome)) : r.lost = false := by
  have current := (Cell.conclude_eq_some made.concluded).1
  unfold UpdateRound.lost
  split
  · rename_i value installs
    exact bne_eq_false_iff_eq.mpr (current value installs)
  · rfl
  · rfl

theorem settings (made : r.Made slot attempt c none) : r.after.settings = c.settings := by
  rw [(Cell.conclude_eq_none made.concluded).2.2]
  exact made.unchanged

/-- An attempt that loses logs that under its own number, unless there have been too many. -/
theorem moments_lost (made : r.Made slot attempt c none) (room : attempt + 1 ≤ 4294967295) :
    Cell.moments attempt r.snapshot r.called.nested r.called.cell r.after =
      r.moments c.settings.warnRetries attempt := by
  have next : Cell.nextAttempt attempt = attempt + 1 := Nat.min_eq_left room
  have logged : r.after.log =
      r.called.cell.log ++ raceEvents c.settings.warnRetries (attempt + 1) := by
    rw [(Cell.conclude_eq_none made.concluded).2.2, ← next, ← made.unchanged]
    rfl
  rw [Cell.moments, Cell.loggedSince_eq logged, moments, if_pos made.lost]

/-- An attempt that ends the update logs at most a scan. -/
theorem moments_ended (made : r.Made slot attempt c (some outcome)) (warn : Nat) :
    ∃ scans : List CellEvent, (∀ e ∈ scans, e.isScan = true) ∧
      Cell.moments attempt r.snapshot r.called.nested r.called.cell r.after =
        r.moments warn attempt ++ scans.map .logged := by
  obtain ⟨-, ⟨scans, only, logged⟩, -⟩ := Cell.conclude_eq_some made.concluded
  refine ⟨scans, only, ?_⟩
  rw [Cell.moments, Cell.loggedSince_eq logged, moments, made.not_lost, List.append_assoc]
  rfl

end UpdateRound.Made

namespace UpdateRun

variable {slot attempt : Nat} {c : Cell} {ending : Option Outcome} {r : UpdateRound}
variable {moments : List Moment} {count : CellCounters → Nat}

theorem gained_ends {outcome : Outcome} (made : r.Made slot attempt c ending) :
    gained { moments, outcome, cell := r.after } c [r] count =
      (count r.after.counters : Int) - count r.called.cell.counters := by
  simp only [gained, UpdateRound.gained, made.began, Cell.protect]
  omega

theorem gained_loses {run : UpdateRun} {later : List UpdateRound}
    (made : r.Made slot attempt c ending) :
    gained { run with moments } c (r :: later) count =
      (count r.after.counters : Int) - count r.called.cell.counters +
        run.gained r.after later count := by
  simp only [gained, UpdateRound.gained, made.began, Cell.protect]
  omega

end UpdateRun

/-- An update from an attempt on: either the attempt ends it, or it loses a race and the update goes
on with the next one. -/
inductive Attempts (slot : Nat) : Nat → Cell → List UpdateRound → UpdateRun → Prop where
  | ends {attempt : Nat} {c : Cell} {r : UpdateRound} {outcome : Outcome} :
      r.Made slot attempt c (some outcome) →
      Attempts slot attempt c [r]
        { moments := Cell.moments attempt r.snapshot r.called.nested r.called.cell r.after
          outcome := outcome
          cell := r.after }
  | loses {attempt : Nat} {c : Cell} {r : UpdateRound} {later : List UpdateRound}
      {run : UpdateRun} :
      r.Made slot attempt c none → Attempts slot (Cell.nextAttempt attempt) r.after later run →
      Attempts slot attempt c (r :: later)
        { run with
          moments := Cell.moments attempt r.snapshot r.called.nested r.called.cell r.after ++
            run.moments }

/-- No operation changes the settings. -/
theorem Body.settings_run (body : Body) (c : Cell) : (body.run c).cell.settings = c.settings := by
  have unchanged := Point.afterAll_keeps (P := fun p => p.cell.settings = c.settings)
    (p := ⟨c, []⟩) (fun p move same => (p.settings_after move).trans same) rfl (body.moves c)
  rwa [body.moves_lead] at unchanged

/-- The run of an update is made of its attempts. -/
theorem Closure.attempts (closure : Closure) (slot attempt : Nat) (c : Cell) :
    Attempts slot attempt c (closure.rounds slot attempt c) (closure.run slot attempt c) := by
  cases closure with
  | settle verdict =>
      have same : (c.protect slot).current.number = c.current.number := rfl
      obtain ⟨outcome, ends⟩ := Cell.conclude_ends slot attempt (verdict c.current.value) same
      simp only [Closure.rounds, Closure.run, Cell.protect_current, ends, Option.getD_some]
      exact .ends ⟨rfl, rfl, Prod.ext ends rfl⟩
  | call body rest =>
      have unchanged := (body c.current.value).settings_run (c.protect slot)
      simp only [Closure.rounds, Closure.run, Cell.protect_current]
      cases ending : (((body c.current.value).run (c.protect slot)).cell.conclude slot attempt
          c.current ((body c.current.value).run (c.protect slot)).verdict).1 with
      | some outcome => exact .ends ⟨rfl, unchanged, Prod.ext ending rfl⟩
      | none =>
          exact .loses ⟨rfl, unchanged, Prod.ext ending rfl⟩
            (rest.attempts slot (Cell.nextAttempt attempt) _)

namespace Attempts

variable {slot attempt : Nat} {c : Cell} {rounds : List UpdateRound} {run : UpdateRun}

/-- All attempts but the last one have lost a race. -/
theorem length (attempts : Attempts slot attempt c rounds run) :
    rounds.length = rounds.countP UpdateRound.lost + 1 := by
  induction attempts with
  | ends made =>
      rw [List.countP_cons_of_neg (by simp [made.not_lost])]
      rfl
  | loses made more ih =>
      rw [List.countP_cons_of_pos made.lost, List.length_cons, ih]

theorem calls (attempts : Attempts slot attempt c rounds run) :
    Moment.calls run.moments = rounds.map fun r => (r.snapshot, r.called.nested) := by
  induction attempts with
  | ends made => exact Moment.calls_moments _ _ _ _ _
  | loses made more ih =>
      rw [Moment.calls_append, Moment.calls_moments, ih]
      rfl

/-- **What happens in an update, in order, and what it logs.** The induction goes from attempt to
attempt, so the number of the first one is left open. -/
theorem order (attempts : Attempts slot attempt c rounds run)
    (few : attempt + rounds.countP UpdateRound.lost ≤ 4294967295) :
    ∃ scans : List CellEvent, (∀ e ∈ scans, e.isScan = true) ∧
      run.moments = (rounds.zipIdx attempt).flatMap
        (fun r => r.1.moments c.settings.warnRetries r.2) ++ scans.map .logged ∧
      Moment.events run.moments =
        (List.range' (attempt + 1) (rounds.countP UpdateRound.lost)).flatMap
          (raceEvents c.settings.warnRetries) ++ scans := by
  induction attempts with
  | @ends attempt c r outcome made =>
      obtain ⟨scans, only, moments⟩ := made.moments_ended c.settings.warnRetries
      refine ⟨scans, only, ?_, ?_⟩
      · rw [moments, List.zipIdx_singleton, List.flatMap_singleton]
      · rw [moments, Moment.events_append, Moment.events_moments, Moment.events_logged,
          made.not_lost, List.countP_cons_of_neg (by simp [made.not_lost])]
        rfl
  | @loses attempt c r later run made more ih =>
      rw [List.countP_cons_of_pos made.lost] at few ⊢
      have next : Cell.nextAttempt attempt = attempt + 1 := Nat.min_eq_left (by omega)
      have moments := made.moments_lost (by omega)
      rw [next, made.settings] at ih
      obtain ⟨scans, only, told, logged⟩ := ih (by omega)
      refine ⟨scans, only, ?_, ?_⟩
      · rw [moments, told, List.zipIdx_cons, List.flatMap_cons, List.append_assoc]
      · rw [Moment.events_append, moments, Moment.events_moments, logged, if_pos made.lost,
          List.range'_succ, List.flatMap_cons, List.append_assoc]

/-- The callback is called before every closure call but the very first one. -/
theorem retries (attempts : Attempts slot attempt c rounds run) :
    Moment.retries run.moments =
      (if attempt = 0 then rounds.tail else rounds).map UpdateRound.snapshot := by
  induction attempts with
  | ends made =>
      rw [Moment.retries_moments]
      split <;> rfl
  | loses made more ih =>
      rw [if_neg (Cell.nextAttempt_ne_zero _)] at ih
      rw [Moment.retries, List.filterMap_append, ← Moment.retries, ← Moment.retries,
        Moment.retries_moments, ih]
      split <;> rfl

/-- **What an update counts itself.** -/
theorem gained (attempts : Attempts slot attempt c rounds run) :
    run.gained c rounds (·.casFailures) = rounds.countP UpdateRound.lost ∧
      run.gained c rounds (·.casAttempts) =
        rounds.countP UpdateRound.lost + if run.outcome.completion = .installed then 1 else 0 := by
  induction attempts with
  | ends made =>
      obtain ⟨-, -, failures, attempts⟩ := Cell.conclude_eq_some made.concluded
      rw [List.countP_cons_of_neg (by simp [made.not_lost]),
        UpdateRun.gained_ends made, UpdateRun.gained_ends made, failures, attempts]
      exact ⟨Int.sub_self _, by grind⟩
  | @loses attempt c r later run made more ih =>
      have counters := congrArg Cell.counters (Cell.conclude_eq_none made.concluded).2.2
      have failures : r.after.counters.casFailures = r.called.cell.counters.casFailures + 1 :=
        congrArg CellCounters.casFailures counters
      have attempts : r.after.counters.casAttempts = r.called.cell.counters.casAttempts + 1 :=
        congrArg CellCounters.casAttempts counters
      rw [List.countP_cons_of_pos made.lost,
        UpdateRun.gained_loses made, UpdateRun.gained_loses made, ih.1, ih.2, failures, attempts]
      constructor
      · omega
      · dsimp only
        omega

end Attempts

/-! ### Events -/

/-- What an update logs that loses some races: each of them by its number, and one warning, right
behind the race with the number `warn`, if it loses so many. -/
structure RacesLogged (warn lost : Nat) (events : List CellEvent) : Prop where
  numbered : events.filterMap CellEvent.lostRace? = List.range' 1 lost
  warned : events.filterMap CellEvent.contended? =
    if 1 ≤ warn ∧ warn ≤ lost then [warn] else []
  placed : 1 ≤ warn → warn ≤ lost → [.lostRace warn, .contended warn] <:+: events

theorem lostRaces_raceEvents (warn retries : Nat) :
    (raceEvents warn retries).filterMap CellEvent.lostRace? = [retries] := by
  unfold raceEvents
  split <;> rfl

theorem contended_raceEvents (warn retries : Nat) :
    (raceEvents warn retries).filterMap CellEvent.contended? =
      if retries = warn then [retries] else [] := by
  unfold raceEvents
  split <;> rfl

/-- Of consecutive numbers at most one is the one that is looked for. -/
theorem flatMap_range' (warn first count : Nat) :
    ((List.range' first count).flatMap fun n => if n = warn then [n] else []) =
      if first ≤ warn ∧ warn < first + count then [warn] else [] := by
  induction count generalizing first with
  | zero => exact (if_neg (by omega)).symm
  | succ count ih =>
      rw [List.range'_succ, List.flatMap_cons, ih]
      by_cases here : first = warn
      · rw [if_pos here, if_neg (by omega), if_pos (by omega), here]
        rfl
      · rw [if_neg here, List.nil_append]
        exact if_congr (by omega) rfl rfl

/-- Scans are no lost races and no warnings. -/
theorem CellEvent.eq_none_of_isScan {e : CellEvent} (scan : e.isScan = true) :
    e.lostRace? = none ∧ e.contended? = none := by
  cases e with
  | scan => exact ⟨rfl, rfl⟩
  | lostRace | contended => cases scan

theorem racesLogged (warn lost : Nat) {scans : List CellEvent}
    (only : ∀ e ∈ scans, e.isScan = true) :
    RacesLogged warn lost ((List.range' 1 lost).flatMap (raceEvents warn) ++ scans) where
  numbered := by
    have none : scans.filterMap CellEvent.lostRace? = [] :=
      List.filterMap_eq_nil_iff.mpr fun e mem => (CellEvent.eq_none_of_isScan (only e mem)).1
    rw [List.filterMap_append, List.filterMap_flatMap, none, List.append_nil]
    simp only [lostRaces_raceEvents]
    exact List.flatMap_singleton' _
  warned := by
    have none : scans.filterMap CellEvent.contended? = [] :=
      List.filterMap_eq_nil_iff.mpr fun e mem => (CellEvent.eq_none_of_isScan (only e mem)).2
    rw [List.filterMap_append, List.filterMap_flatMap, none, List.append_nil]
    simp only [contended_raceEvents]
    rw [flatMap_range']
    exact if_congr (by omega) rfl rfl
  placed := by
    intro positive reached
    have mem : warn ∈ List.range' 1 lost := List.mem_range'_1.mpr ⟨positive, by omega⟩
    obtain ⟨front, back, split⟩ := List.append_of_mem mem
    have events : raceEvents warn warn = [.lostRace warn, .contended warn] := by
      rw [raceEvents, if_pos rfl]
    rw [split, List.flatMap_append, List.flatMap_cons, events]
    refine ⟨front.flatMap (raceEvents warn), back.flatMap (raceEvents warn) ++ scans, ?_⟩
    simp only [List.append_assoc]

/-! ### Updates -/

/-- **An update reports exactly the races that it has lost.** Take any update on any cell, with a
closure that operates on the cell to any depth, and let it lose fewer than `2 ^ 32` races. The
closure is called once more than that, and the callback before every call but the first, with the
value that the call gets. What the update logs itself are the lost races, numbered in order, each of
them between the closure call that it undoes and the callback, with one warning right behind the one
whose number the settings name; scans may follow. And what it counts itself is a failure for each
lost race, and an attempt for each of them and for the value that it installs, if it does. -/
theorem races_reported (closure : Closure) (c : Cell)
    (few : (closure.rounds c.acquire.1 0 c.acquire.2).countP UpdateRound.lost < 4294967296) :
    let rounds := closure.rounds c.acquire.1 0 c.acquire.2
    let run := closure.run c.acquire.1 0 c.acquire.2
    let lost := rounds.countP UpdateRound.lost
    let warn := c.settings.warnRetries
    rounds.length = lost + 1 ∧
      Moment.calls run.moments = rounds.map (fun r => (r.snapshot, r.called.nested)) ∧
      Moment.retries run.moments = rounds.tail.map UpdateRound.snapshot ∧
      (∃ scans : List CellEvent, (∀ e ∈ scans, e.isScan = true) ∧
        run.moments = (rounds.zipIdx.flatMap fun r => r.1.moments warn r.2) ++
          scans.map .logged) ∧
      RacesLogged warn lost (Moment.events run.moments) ∧
      run.gained c rounds (·.casFailures) = lost ∧
      run.gained c rounds (·.casAttempts) =
        if run.outcome.completion = .installed then lost + 1 else lost := by
  intro rounds run lost warn
  have attempts : Attempts c.acquire.1 0 c.acquire.2 rounds run :=
    closure.attempts c.acquire.1 0 c.acquire.2
  -- Taking the slot has changed neither the settings nor a count.
  have settings : c.acquire.2.settings.warnRetries = warn := by
    rw [c.acquire_eq]
    rfl
  have counted (count : CellCounters → Nat) :
      run.gained c rounds count = run.gained c.acquire.2 rounds count := by
    rw [c.acquire_eq]
    rfl
  have room : 0 + lost ≤ 4294967295 := by
    rw [Nat.zero_add]
    exact Nat.le_of_lt_succ few
  obtain ⟨scans, only, order, events⟩ := attempts.order room
  rw [settings] at order events
  obtain ⟨failures, tries⟩ := attempts.gained
  refine ⟨attempts.length, attempts.calls, attempts.retries, ⟨scans, only, order⟩, ?_, ?_, ?_⟩
  · rw [events]
    exact racesLogged warn lost only
  · rw [counted, failures]
  · rw [counted, tries]
    split
    · rfl
    · exact Int.add_zero _

/-- An update that loses two races, the second of which is one too many for the settings. In its
first closure call an update of its own loses one, too. -/
theorem races_reported_nested :
    let c := Cell.create { reclaimThreshold := 16, initialSlots := 1, warnRetries := 2 } .zero
    let storing : Body := .perform (.replace .one) fun _ => .finish (.install .one)
    let nesting : Body :=
      .perform (.update (.call (fun _ => storing) (.settle fun _ => .install .one))) fun _ =>
        .finish (.install .zero)
    let closure : Closure :=
      .call (fun _ => nesting) (.call (fun _ => storing) (.settle fun _ => .install .minusOne))
    let rounds := closure.rounds c.acquire.1 0 c.acquire.2
    let run := closure.run c.acquire.1 0 c.acquire.2
    rounds.countP UpdateRound.lost = 2 ∧ 2 < 4294967296 ∧ run.cell.counters.casFailures = 3 ∧
      rounds.length = 3 ∧ Moment.retries run.moments = rounds.tail.map UpdateRound.snapshot ∧
      RacesLogged 2 2 (Moment.events run.moments) ∧
      run.gained c rounds (·.casFailures) = 2 ∧ run.gained c rounds (·.casAttempts) = 3 := by
  intro c storing nesting closure
  have lost : (closure.rounds c.acquire.1 0 c.acquire.2).countP UpdateRound.lost = 2 := by decide
  obtain ⟨length, -, retries, -, logged, failures, attempts⟩ :=
    races_reported closure c (by rw [lost]; decide)
  rw [lost] at length logged failures attempts
  rw [if_pos (by decide)] at attempts
  exact ⟨lost, by decide, by decide, length, retries, logged, failures, attempts⟩

end Bignum
