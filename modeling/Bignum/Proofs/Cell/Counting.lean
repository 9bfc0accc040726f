import Bignum.Proofs.Cell.Reclamation

/-!
What a cell counts is what has been done to it.

The operations that a run completes are listed as its moves complete them (`Point.completed`), apart
from any counter; they are those that the traces of the run tell of (`Body.completed_moves`). From
one point of a run to a later one the counters gain what the operations completed in between make up
(`Cell.Gained`), and no counter falls.

* `counters_conserved`: the equations between the counters at every point of a run, also inside
  closures; and an operation that writes nothing and whose closure runs nothing changes no counter.

An update in progress is not counted in any of the equations, however many races it has lost: each
of them is an attempt and a failure, counted in one move (`Cell.Gained.conclude`).
-/

namespace Bignum

/-! ### Completed operations -/

/-- What an operation has done when it is completed. -/
inductive Completion where
  | loaded
  /-- A store or a swap. -/
  | replaced
  | installed
  | declined
  | failed
  deriving DecidableEq, Repr

def Outcome.completion : Outcome → Completion
  | .installed _ _ => .installed
  | .declined _ => .declined
  | .failed _ => .failed

namespace Point

/-- The operation that a move completes, if any. -/
def completes (p : Point) : Move → List Completion
  | .enter => []
  | .leave =>
      match p.held with
      | [] => []
      | _ :: _ => [.loaded]
  | .replace _ => [.replaced]
  | .conclude verdict =>
      match p.held with
      | [] => []
      | g :: _ =>
          ((p.cell.conclude g.slot g.attempt g.version verdict).1.map Outcome.completion).toList

/-- The operations that moves complete, in order. -/
def completed (p : Point) : List Move → List Completion
  | [] => []
  | move :: moves => p.completes move ++ (p.after move).completed moves

theorem completed_append (p : Point) (first second : List Move) :
    p.completed (first ++ second) = p.completed first ++ (p.afterAll first).completed second := by
  induction first generalizing p with
  | nil => rfl
  | cons move moves ih =>
      rw [List.cons_append, completed, completed, ih, List.append_assoc]
      rfl

end Point

mutual

/-- The completed operations that a trace tells of. Those in the closure calls of an update are
completed before it. -/
def Trace.completed : Trace → List Completion
  | .loaded _ => [.loaded]
  | .replaced _ => [.replaced]
  | .updated moments outcome => Moment.completedAll moments ++ [outcome.completion]

def Moment.completed : Moment → List Completion
  | .called _ nested => Trace.completedAll nested
  | .retried _ => []
  | .logged _ => []

def Trace.completedAll : List Trace → List Completion
  | [] => []
  | t :: ts => t.completed ++ Trace.completedAll ts

def Moment.completedAll : List Moment → List Completion
  | [] => []
  | m :: ms => m.completed ++ Moment.completedAll ms

end

/-- An operation that a trace tells of has been completed. -/
theorem Trace.completed_ne_nil (t : Trace) : t.completed ≠ [] := by
  cases t with
  | loaded version => exact List.cons_ne_nil _ _
  | replaced previous => exact List.cons_ne_nil _ _
  | updated moments outcome => exact List.append_ne_nil_of_right_ne_nil _ (List.cons_ne_nil _ _)

namespace Moment

theorem completedAll_append (first second : List Moment) :
    completedAll (first ++ second) = completedAll first ++ completedAll second := by
  induction first with
  | nil => rfl
  | cons m ms ih => rw [List.cons_append, completedAll, completedAll, ih, List.append_assoc]

theorem completedAll_loggedSince (before after : Cell) :
    completedAll (Cell.loggedSince before after) = [] := by
  unfold Cell.loggedSince
  induction after.log.drop before.log.length with
  | nil => rfl
  | cons event events ih =>
      rw [List.map_cons, completedAll, ih]
      rfl

/-- One attempt of an update completes the operations that its closure call ran. -/
theorem completedAll_moments (attempt : Nat) (snapshot : Integer) (nested : List Trace)
    (before after : Cell) :
    completedAll (Cell.moments attempt snapshot nested before after) =
      Trace.completedAll nested := by
  unfold Cell.moments
  rw [completedAll_append, completedAll, completedAll_loggedSince, List.append_nil]
  split <;> rfl

end Moment

/-! ### Moves and traces -/

mutual

/-- The moves of an operation complete what its trace tells of. -/
theorem CellOp.completed_moves (op : CellOp) (c : Cell) (held : List Guard) :
    Point.completed ⟨c, held⟩ (op.moves c) = (op.run c).1.completed := by
  cases op with
  | load => rfl
  | replace value => rfl
  | update closure => exact closure.completed_moves c.acquire.1 0 c.acquire.2 held

theorem Closure.completed_moves (closure : Closure) (slot attempt : Nat) (c : Cell)
    (held : List Guard) :
    (Point.announce slot attempt c held).completed (closure.moves slot attempt c) =
      Moment.completedAll (closure.run slot attempt c).moments ++
        [(closure.run slot attempt c).outcome.completion] := by
  cases closure with
  | settle verdict =>
      have same : (c.protect slot).current.number = c.current.number := rfl
      obtain ⟨outcome, ends⟩ := Cell.conclude_ends slot attempt (verdict c.current.value) same
      simp only [Closure.moves, Closure.run, Point.completed, Point.completes, Point.announce,
        Cell.protect_current, ends, Moment.completedAll_moments, Trace.completedAll]
      rfl
  | call body rest =>
      simp only [Closure.moves, Closure.run, Point.completed_append, Point.announce,
        Body.completed_moves, Body.moves_lead, Cell.protect_current, Point.completed,
        Point.completes, Point.after]
      cases ending : (((body c.current.value).run (c.protect slot)).cell.conclude slot attempt
          c.current ((body c.current.value).run (c.protect slot)).verdict).1 with
      | some outcome =>
          simp only [Moment.completedAll_moments, Point.completed]
          rfl
      | none =>
          simp only [Moment.completedAll_append, Moment.completedAll_moments, List.append_assoc]
          exact congrArg _ (rest.completed_moves slot (Cell.nextAttempt attempt) _ held)

theorem Body.completed_moves (body : Body) (c : Cell) (held : List Guard) :
    Point.completed ⟨c, held⟩ (body.moves c) = Trace.completedAll (body.run c).nested := by
  cases body with
  | finish verdict => rfl
  | perform op next =>
      rw [Body.moves, Point.completed_append, op.completed_moves, op.moves_lead]
      exact congrArg _ ((next (op.run c).1).completed_moves (op.run c).2 held)

end

/-! ### Counters -/

namespace Cell

/-- The same cell but for its slots. -/
def withSlots (slots : List HazardSlot) (c : Cell) : Cell := { c with slots := slots }

/-- What the counters have gained from one cell to a later one, between which operations were
completed. Every further failure is an attempt too. -/
structure Gained (c : Cell) (done : List Completion) (d : Cell) : Prop where
  loads : d.counters.loads = c.counters.loads + done.count .loaded
  failures : c.counters.casFailures ≤ d.counters.casFailures
  attempts : d.counters.casAttempts + c.counters.casFailures =
    c.counters.casAttempts + d.counters.casFailures + done.count .installed
  retired : d.counters.retired =
    c.counters.retired + done.count .installed + done.count .replaced
  reclaimed : c.counters.reclaimed ≤ d.counters.reclaimed
  slots : c.slots.length ≤ d.slots.length

/-- No counter falls. -/
structure Risen (c d : Cell) : Prop where
  loads : c.counters.loads ≤ d.counters.loads
  attempts : c.counters.casAttempts ≤ d.counters.casAttempts
  failures : c.counters.casFailures ≤ d.counters.casFailures
  retired : c.counters.retired ≤ d.counters.retired
  reclaimed : c.counters.reclaimed ≤ d.counters.reclaimed
  slots : c.slots.length ≤ d.slots.length

section Steps

variable {c : Cell} (slot attempt : Nat) (observed : Version)

/-- Retiring counts one version, and a scan after it those that it frees. -/
theorem retire_counters (c : Cell) :
    ∃ reclaimed ≥ c.counters.reclaimed, (c.retire observed).counters =
      { c.counters with retired := c.counters.retired + 1, reclaimed := reclaimed } := by
  rw [retire_eq]
  split
  · exact ⟨_, Nat.le_add_right _ _, rfl⟩
  · exact ⟨_, Nat.le_refl _, rfl⟩

/-- Taking a slot changes slots only. -/
theorem acquire_eq (c : Cell) : c.acquire.2 = c.withSlots c.acquire.2.slots := by
  unfold acquire
  split <;> rfl

theorem acquire_length (c : Cell) : c.slots.length ≤ c.acquire.2.slots.length := by
  unfold acquire
  split
  · exact Nat.le_of_eq (List.length_modify _ _ _).symm
  · rw [List.length_append]
    exact Nat.le_add_right _ _

theorem protect_length (c : Cell) : (c.protect slot).slots.length = c.slots.length :=
  List.length_modify _ _ _

theorem release_length (c : Cell) : (c.release slot).slots.length = c.slots.length :=
  List.length_set

end Steps

namespace Gained

variable {c d e : Cell} {first second done : List Completion} {g : Guard}

/-- Slots are not counted with the completed operations. -/
theorem quiet (same : d.counters = c.counters) (slots : c.slots.length ≤ d.slots.length) :
    c.Gained [] d where
  loads := by rw [same]; rfl
  failures := Nat.le_of_eq (congrArg CellCounters.casFailures same.symm)
  attempts := by rw [same]; rfl
  retired := by rw [same]; rfl
  reclaimed := Nat.le_of_eq (congrArg CellCounters.reclaimed same.symm)
  slots := slots

theorem append (gained : c.Gained first d) (more : d.Gained second e) :
    c.Gained (first ++ second) e := by
  have loads := gained.loads
  have attempts := gained.attempts
  have retired := gained.retired
  have loads' := more.loads
  have attempts' := more.attempts
  have retired' := more.retired
  refine ⟨?_, Nat.le_trans gained.failures more.failures, ?_, ?_,
    Nat.le_trans gained.reclaimed more.reclaimed, Nat.le_trans gained.slots more.slots⟩
  · rw [List.count_append]
    omega
  · rw [List.count_append]
    omega
  · rw [List.count_append, List.count_append]
    omega

theorem risen (gained : c.Gained done d) : c.Risen d where
  loads := Nat.le.intro gained.loads.symm
  attempts := by
    have failures := gained.failures
    have attempts := gained.attempts
    omega
  failures := gained.failures
  retired := by
    rw [gained.retired, Nat.add_assoc]
    exact Nat.le_add_right _ _
  reclaimed := gained.reclaimed
  slots := gained.slots

theorem acquire (c : Cell) : c.Gained [] c.acquire.2 :=
  quiet (by rw [c.acquire_eq, withSlots]) c.acquire_length

theorem protect (slot : Nat) (c : Cell) : c.Gained [] (c.protect slot) :=
  quiet rfl (Nat.le_of_eq (protect_length slot c).symm)

theorem release (slot : Nat) (c : Cell) : c.Gained [] (c.release slot) :=
  quiet rfl (Nat.le_of_eq (release_length slot c).symm)

/-- A store or a swap retires the version that was current. -/
theorem replace (value : Integer) (c : Cell) : c.Gained [.replaced] (c.replace value).2 := by
  obtain ⟨reclaimed, more, counters⟩ := (c.publish value).retire_counters c.current
  refine ⟨?_, ?_, ?_, ?_, ?_, ?_⟩
  all_goals simp only [Cell.replace, counters, retire_slots]
  · rfl
  · exact Nat.le_refl _
  · rfl
  · rfl
  · exact more
  · exact Nat.le_refl _

/-- **An attempt that installs retires the version that it observed; one that loses is a failure and
nothing else.** -/
theorem conclude (c : Cell) (slot attempt : Nat) (observed : Version) (verdict : Verdict) :
    c.Gained ((c.conclude slot attempt observed verdict).1.map Outcome.completion).toList
      (c.conclude slot attempt observed verdict).2 := by
  cases verdict with
  | decline | fail =>
      obtain ⟨loads, failures, attempts, retired, reclaimed, slots⟩ := release slot c
      exact ⟨loads, failures, attempts, retired, reclaimed, slots⟩
  | install value =>
      by_cases same : c.current.number = observed.number
      · simp only [Cell.conclude, compareSwap, same, if_true]
        obtain ⟨reclaimed, more, counters⟩ := retire_counters observed (({ c with
          counters := { c.counters with casAttempts := c.counters.casAttempts + 1 } }.publish
            value).release slot)
        refine ⟨?_, ?_, ?_, ?_, ?_, ?_⟩
        all_goals simp only [counters, retire_slots]
        · rfl
        · exact Nat.le_refl _
        · exact Nat.add_right_comm _ _ _
        · rfl
        · exact more
        · exact Nat.le_of_eq (release_length slot c).symm
      · simp only [Cell.conclude, compareSwap, same, if_false]
        refine ⟨rfl, Nat.le_succ _, ?_, rfl, Nat.le_refl _, Nat.le_refl _⟩
        exact Nat.add_right_comm _ _ _

end Gained

end Cell

namespace Point

/-- What one move adds to the counters. -/
theorem gained_after (p : Point) (move : Move) :
    p.cell.Gained (p.completes move) (p.after move).cell := by
  obtain ⟨c, held⟩ := p
  have nothing : c.Gained [] c := .quiet rfl (Nat.le_refl _)
  cases move with
  | enter => exact (Cell.Gained.acquire c).append (.protect _ _)
  | replace value => exact .replace value c
  | leave =>
      cases held with
      | nil => exact nothing
      | cons g outer =>
          obtain ⟨-, failures, attempts, retired, reclaimed, slots⟩ :=
            Cell.Gained.release g.slot c
          exact ⟨rfl, failures, attempts, retired, reclaimed, slots⟩
  | conclude verdict =>
      cases held with
      | nil => exact nothing
      | cons g outer =>
          have concluded := Cell.Gained.conclude c g.slot g.attempt g.version verdict
          simp only [completes, after]
          cases ending : (c.conclude g.slot g.attempt g.version verdict).1 with
          | some outcome =>
              rw [ending] at concluded
              exact concluded
          | none =>
              rw [ending] at concluded
              exact concluded.append (.protect _ _)

/-- **From one point of a run to a later one the counters gain what is completed in between.** -/
theorem gained_afterAll (p : Point) (moves : List Move) :
    p.cell.Gained (p.completed moves) (p.afterAll moves).cell := by
  induction moves generalizing p with
  | nil => exact .quiet rfl (Nat.le_refl _)
  | cons move moves ih => exact (p.gained_after move).append (ih (p.after move))

end Point

/-! ### Operations that write nothing -/

/-- An attempt whose closure call ran nothing installs a value, or gives its slot back and does
nothing else. -/
theorem Cell.conclude_quiet {c : Cell} (slot attempt : Nat) {observed : Version} (verdict : Verdict)
    (same : c.current.number = observed.number) :
    ∃ outcome, (c.conclude slot attempt observed verdict).1 = some outcome ∧
      (outcome.completion ≠ .installed →
        (c.conclude slot attempt observed verdict).2 = c.release slot) := by
  cases verdict with
  | install value =>
      exact ⟨_, (conclude_won slot attempt value same).1, fun other => absurd rfl other⟩
  | decline => exact ⟨_, rfl, fun _ => rfl⟩
  | fail cause => exact ⟨_, rfl, fun _ => rfl⟩

/-- An update that installs nothing and whose closure runs nothing changes slots only. -/
theorem Closure.run_quiet (closure : Closure) (slot attempt : Nat) (c : Cell)
    (alone : Moment.completedAll (closure.run slot attempt c).moments = [])
    (unwritten : (closure.run slot attempt c).outcome.completion ≠ .installed) :
    (closure.run slot attempt c).cell = c.withSlots (closure.run slot attempt c).cell.slots := by
  have same : (c.protect slot).current.number = c.current.number := rfl
  cases closure with
  | settle verdict =>
      obtain ⟨outcome, ends, quiet⟩ :=
        Cell.conclude_quiet slot attempt (verdict c.current.value) same
      simp only [Closure.run, Cell.protect_current, ends, Option.getD_some] at unwritten ⊢
      rw [quiet unwritten]
      rfl
  | call body rest =>
      cases called : body c.current.value with
      | finish verdict =>
          obtain ⟨outcome, ends, quiet⟩ := Cell.conclude_quiet slot attempt verdict same
          simp only [Closure.run, Cell.protect_current, called, Body.run, ends] at unwritten ⊢
          rw [quiet unwritten]
          rfl
      | perform op next =>
          -- The first operation of the closure call is completed, and the trace tells of it.
          have told := (op.run (c.protect slot)).1.completed_ne_nil
          simp only [Closure.run, Cell.protect_current, called, Body.run] at alone
          split at alone
          · rw [Moment.completedAll_moments, Trace.completedAll] at alone
            exact absurd (List.append_eq_nil_iff.mp alone).1 told
          · rw [Moment.completedAll_append, Moment.completedAll_moments,
              Trace.completedAll] at alone
            have first := (List.append_eq_nil_iff.mp alone).1
            exact absurd (List.append_eq_nil_iff.mp first).1 told

/-- **An operation that declines or fails, and completes nothing else, changes slots only.** -/
theorem CellOp.run_quiet (op : CellOp) (c : Cell)
    (quiet : (op.run c).1.completed = [.declined] ∨ (op.run c).1.completed = [.failed]) :
    (op.run c).2 = c.withSlots (op.run c).2.slots := by
  cases op with
  | load | replace =>
      rcases quiet with impossible | impossible
      · cases impossible
      · cases impossible
  | update closure =>
      have apart {done : List Completion} {last told : Completion} (only : done ++ [last] = [told])
          (other : told ≠ .installed) : done = [] ∧ last ≠ .installed := by
        obtain ⟨nothing, same⟩ := List.append_inj' (only.trans (List.nil_append _).symm) rfl
        exact ⟨nothing, (List.singleton_inj.mp same).trans_ne other⟩
      have ends : Moment.completedAll (closure.run c.acquire.1 0 c.acquire.2).moments = [] ∧
          (closure.run c.acquire.1 0 c.acquire.2).outcome.completion ≠ .installed := by
        rcases quiet with only | only
        · exact apart only nofun
        · exact apart only nofun
      have changed := closure.run_quiet c.acquire.1 0 c.acquire.2 ends.1 ends.2
      have taken (slots : List HazardSlot) : c.acquire.2.withSlots slots = c.withSlots slots := by
        rw [c.acquire_eq]
        rfl
      exact changed.trans (taken _)

theorem CellOp.slots_run (op : CellOp) (c : Cell) :
    c.slots.length ≤ (op.run c).2.slots.length := by
  have gained := Point.gained_afterAll ⟨c, []⟩ (op.moves c)
  rw [op.moves_lead] at gained
  exact gained.slots

/-! ### Runs -/

/-- **The counters of a cell are conserved.** Take any settings, any value and any program, with
closures that operate on the cell to any depth, and any point of its run. The operations completed
by then are the first ones that the traces of the run tell of, and all of them at its end. Every
attempt that did not fail installed a value; a version was retired for each of these and for each
store and swap; each load was counted; no more versions were freed than retired; and no counter has
fallen since any earlier point. An operation that declines or fails there, and in whose closure no
other is completed, leaves the cell as it is but for its slots, and takes none of these away. -/
theorem counters_conserved (settings : CellSettings) (value : Integer) (program : Body)
    (past : List Move) (reached : past <+: program.moves (Cell.create settings value)) :
    let c := ((Point.start settings value).afterAll past).cell
    let done := (Point.start settings value).completed past
    let told := Trace.completedAll (program.run (Cell.create settings value)).nested
    done <+: told ∧ (past = program.moves (Cell.create settings value) → done = told) ∧
      c.counters.casFailures ≤ c.counters.casAttempts ∧
      c.counters.retired =
        (c.counters.casAttempts - c.counters.casFailures) + done.count .replaced ∧
      c.counters.casAttempts - c.counters.casFailures = done.count .installed ∧
      c.counters.loads = done.count .loaded ∧
      c.counters.reclaimed ≤ c.counters.retired ∧
      (∀ earlier, earlier <+: past →
        ((Point.start settings value).afterAll earlier).cell.Risen c) ∧
      ∀ op : CellOp, (op.run c).1.completed = [.declined] ∨ (op.run c).1.completed = [.failed] →
        (op.run c).2 = c.withSlots (op.run c).2.slots ∧
          c.slots.length ≤ (op.run c).2.slots.length := by
  intro c done told
  have all : (Point.start settings value).completed (program.moves (Cell.create settings value)) =
      told := program.completed_moves (Cell.create settings value) []
  have sound : ((Point.start settings value).afterAll past).Sound :=
    Point.afterAll_keeps Point.Sound.after (Point.sound_start settings value) past
  have gained : (Cell.create settings value).Gained done c :=
    (Point.start settings value).gained_afterAll past
  have loads : c.counters.loads = 0 + done.count .loaded := gained.loads
  have attempts : c.counters.casAttempts + 0 =
      0 + c.counters.casFailures + done.count .installed := gained.attempts
  have retired : c.counters.retired = 0 + done.count .installed + done.count .replaced :=
    gained.retired
  have waiting := sound.accounted.counted.retired
  refine ⟨?_, ?_, ?_, ?_, ?_, ?_, ?_, ?_, fun op quiet => ⟨op.run_quiet c quiet, op.slots_run c⟩⟩
  · obtain ⟨rest, whole⟩ := reached
    rw [← whole, Point.completed_append] at all
    exact ⟨_, all⟩
  · rintro rfl
    exact all
  · omega
  · omega
  · omega
  · omega
  · exact Nat.le.intro waiting.symm
  · rintro earlier ⟨later, rfl⟩
    have more := ((Point.start settings value).afterAll earlier).gained_afterAll later
    rw [← Point.afterAll_append] at more
    exact more.risen

/-- A load inside the second closure call of an update that has lost a race to a store. -/
theorem counters_conserved_nested :
    let settings : CellSettings := { reclaimThreshold := 1, initialSlots := 1, warnRetries := 1 }
    let storing : Body := .perform (.replace .one) fun _ => .finish (.install .one)
    let loading : Body := .perform .load fun _ => .finish .decline
    let closure : Closure :=
      .call (fun _ => storing) (.call (fun _ => loading) (.settle fun _ => .decline))
    let program : Body := .perform (.update closure) fun _ => .finish .decline
    let past : List Move := [.enter, .replace .one, .conclude (.install .one), .enter, .leave]
    let p := (Point.start settings .zero).afterAll past
    past <+: program.moves (Cell.create settings .zero) ∧
      p.held = [{ slot := 0, attempt := 1, version := { number := 1, value := .one } }] ∧
      p.cell.counters.casAttempts - p.cell.counters.casFailures = 0 ∧
      p.cell.counters.retired = (p.cell.counters.casAttempts - p.cell.counters.casFailures) + 1 ∧
      p.cell.counters.loads = 1 := by
  intro settings storing loading closure program past p
  have reached : past <+: program.moves (Cell.create settings .zero) := by decide
  obtain ⟨-, -, -, retired, installed, loads, -⟩ :=
    counters_conserved settings .zero program past reached
  exact ⟨reached, by decide, installed, retired, loads⟩

end Bignum
