import Bignum.Cell.Program

/-!
Running programs on a cell.

An attempt of an update announces the current version, calls the closure on its value and, if that
reached a new value, compares and swaps: the attempt wins exactly if the announced version is
current still. A won update gives its slot back before it retires the version that it replaced.
-/

namespace Bignum

namespace Cell

/-- The number of the next attempt. Numbers stop at the largest one of 32 bits. -/
def nextAttempt (attempt : Nat) : Nat := min (attempt + 1) 4294967295

/-- Count and log a lost race. -/
def loseRace (attempt : Nat) (c : Cell) : Cell :=
  let retries := nextAttempt attempt
  { c with
    counters := { c.counters with casFailures := c.counters.casFailures + 1 }
    log := c.log ++ .lostRace retries ::
      if retries = c.settings.warnRetries then [.contended retries] else [] }

/-- Try to put a value in the place of an observed version: whether that was current still. -/
def compareSwap (slot attempt : Nat) (observed : Version) (value : Integer) (c : Cell) :
    Bool × Cell :=
  let tried : Cell :=
    { c with counters := { c.counters with casAttempts := c.counters.casAttempts + 1 } }
  if tried.current.number = observed.number then
    (true, ((tried.publish value).release slot).retire observed)
  else (false, tried.loseRace attempt)

/-- Act on the verdict about an observed version: how the update ends, unless it lost a race. -/
def conclude (slot attempt : Nat) (observed : Version) (verdict : Verdict) (c : Cell) :
    Option Outcome × Cell :=
  match verdict with
  | .decline => (some (.declined observed.value), c.release slot)
  | .fail cause => (some (.failed cause), c.release slot)
  | .install value =>
      let swap := c.compareSwap slot attempt observed value
      (if swap.1 then some (.installed observed.value value) else none, swap.2)

/-- What was logged since an earlier state. -/
def loggedSince (before after : Cell) : List Moment :=
  (after.log.drop before.log.length).map .logged

/-- The moments of one attempt, the first of which has the number `0`. -/
def moments (attempt : Nat) (snapshot : Integer) (nested : List Trace) (before after : Cell) :
    List Moment :=
  (if attempt = 0 then [] else [.retried snapshot]) ++
    .called snapshot nested :: loggedSince before after

end Cell

/-- An update that has been run. -/
structure UpdateRun where
  moments : List Moment
  outcome : Outcome
  cell : Cell

/-- A call of a closure that has been run. -/
structure BodyRun where
  nested : List Trace
  verdict : Verdict
  cell : Cell

mutual

/-- Run one operation: what it did, and the cell afterwards. -/
def CellOp.run : CellOp → Cell → Trace × Cell
  | .load, c =>
      let loaded := c.load
      (.loaded loaded.1, loaded.2)
  | .replace value, c =>
      let replaced := c.replace value
      (.replaced replaced.1, replaced.2)
  | .update closure, c =>
      let taken := c.acquire
      let done := closure.run taken.1 0 taken.2
      (.updated done.moments done.outcome, done.cell)

/-- Run an update from an attempt on, with a slot that it holds. -/
def Closure.run : Closure → (slot attempt : Nat) → Cell → UpdateRun
  | .settle verdict, slot, attempt, c =>
      let guarded := c.protect slot
      let observed := guarded.current
      let ending := guarded.conclude slot attempt observed (verdict observed.value)
      { moments := Cell.moments attempt observed.value [] guarded ending.2
        outcome := ending.1.getD (.declined observed.value)
        cell := ending.2 }
  | .call body rest, slot, attempt, c =>
      let guarded := c.protect slot
      let observed := guarded.current
      let called := (body observed.value).run guarded
      let ending := called.cell.conclude slot attempt observed called.verdict
      let moments := Cell.moments attempt observed.value called.nested called.cell ending.2
      match ending.1 with
      | some outcome => { moments := moments, outcome := outcome, cell := ending.2 }
      | none =>
          let more := rest.run slot (Cell.nextAttempt attempt) ending.2
          { more with moments := moments ++ more.moments }

/-- Run one call of a closure. -/
def Body.run : Body → Cell → BodyRun
  | .finish verdict, c => { nested := [], verdict := verdict, cell := c }
  | .perform op next, c =>
      let first := op.run c
      let others := (next first.1).run first.2
      { others with nested := first.1 :: others.nested }

end

namespace Cell

/-- Run operations one after another. -/
def runAll (ops : List CellOp) (c : Cell) : Cell := ops.foldl (fun c op => (op.run c).2) c

end Cell

end Bignum
