import Bignum.Proofs.Cell.Access
import Bignum.Proofs.Cell.Steps
import Mathlib.Tactic.ByContra

/-!
A cell behaves like a plain variable, however the operations on it are nested.

The trace of a run has an entry for each operation that the program performed, with the calls of its
closures in it (`Body.TracedBy`). The history of the run is read off the program and its trace
(`Body.history`): it has one access for each of these operations, placed where the operation takes
effect. A load, a store and a swap take effect when they are made; an update that installs a value
takes effect after everything that its last closure call did, and one that declines or fails before
that, at the snapshot. An attempt that loses its race looks at its snapshot.

* `Body.tracedBy_run`: a run is traced in full.
* `Body.operations_history`: no operation is missing from the history, and none is there twice.
* `Body.ran`: played on a plain variable, the history gives every result of the run and its final
  value; an attempt installs its value exactly if nothing was written since its snapshot.
* `program_plays`: all this for a whole program on a new cell, and what each call answers.

A write is a write, also of a value equal to the one before. That makes the version number, and not
the value, the invariant of the induction (`Ran.kept`, `Ran.moved`).
-/

namespace Bignum

/-! ### Complete traces -/

mutual

/-- A trace tells of all calls of the closure of an operation. -/
def CellOp.TracedBy : CellOp → Trace → Prop
  | .load, .loaded _ => True
  | .replace _, .replaced _ => True
  | .update closure, .updated moments _ => closure.TracedBy (Moment.calls moments)
  | _, _ => False

/-- There is a last call, and a call that touches the cell is followed by another one only where
its closure goes on. -/
def Closure.TracedBy : Closure → List (Integer × List Trace) → Prop
  | .settle _, [(_, nested)] => nested = []
  | .call body _, [(seen, nested)] => (body seen).TracedBy nested
  | .call body rest, (seen, nested) :: call :: calls =>
      (body seen).TracedBy nested ∧ rest.TracedBy (call :: calls)
  | _, _ => False

/-- There is one trace for each operation of a closure call, in the order in which they are
performed. -/
def Body.TracedBy : Body → List Trace → Prop
  | .finish _, [] => True
  | .perform op next, first :: others => op.TracedBy first ∧ (next first).TracedBy others
  | _, _ => False

end

mutual

/-- An operation with what it did, and all that were performed in its closure. -/
def CellOp.performed : CellOp → Trace → List (CellOp × Trace)
  | .update closure, .updated moments outcome =>
      (.update closure, .updated moments outcome) :: closure.performed (Moment.calls moments)
  | op, trace => [(op, trace)]

def Closure.performed : Closure → List (Integer × List Trace) → List (CellOp × Trace)
  | .call body rest, (seen, nested) :: calls =>
      (body seen).performed nested ++ rest.performed calls
  | _, _ => []

def Body.performed : Body → List Trace → List (CellOp × Trace)
  | .perform op next, first :: others => op.performed first ++ (next first).performed others
  | _, _ => []

end

/-! ### The moments of one attempt -/

namespace Moment

theorem calls_append (first second : List Moment) :
    calls (first ++ second) = calls first ++ calls second :=
  List.filterMap_append

theorem calls_loggedSince (before after : Cell) : calls (Cell.loggedSince before after) = [] := by
  unfold calls Cell.loggedSince
  rw [List.filterMap_map]
  exact List.filterMap_eq_nil_iff.mpr fun _ _ => rfl

/-- Each attempt calls the closure once. -/
theorem calls_moments (attempt : Nat) (snapshot : Integer) (nested : List Trace)
    (before after : Cell) :
    calls (Cell.moments attempt snapshot nested before after) = [(snapshot, nested)] := by
  have called : calls (.called snapshot nested :: Cell.loggedSince before after) =
      [(snapshot, nested)] :=
    congrArg ((snapshot, nested) :: ·) (calls_loggedSince before after)
  unfold Cell.moments
  split
  · exact called
  · exact called

end Moment

/-- A closure that goes on after a call goes on with another one. -/
theorem Closure.TracedBy.cons {closure : Closure} {calls : List (Integer × List Trace)}
    (traced : closure.TracedBy calls) : ∃ call others, calls = call :: others := by
  cases calls with
  | nil => cases closure <;> exact traced.elim
  | cons call others => exact ⟨call, others, rfl⟩

mutual

theorem CellOp.tracedBy_run (op : CellOp) (c : Cell) : op.TracedBy (op.run c).1 := by
  cases op with
  | load => trivial
  | replace value => trivial
  | update closure => exact closure.tracedBy_run c.acquire.1 0 c.acquire.2

theorem Closure.tracedBy_run (closure : Closure) (slot attempt : Nat) (c : Cell) :
    closure.TracedBy (Moment.calls (closure.run slot attempt c).moments) := by
  cases closure with
  | settle verdict =>
      simp only [Closure.run, Moment.calls_moments]
      exact rfl
  | call body rest =>
      have traced := (body (c.protect slot).current.value).tracedBy_run (c.protect slot)
      simp only [Closure.run]
      split
      · simp only [Moment.calls_moments]
        exact traced
      · rename_i lost
        have more := rest.tracedBy_run slot (Cell.nextAttempt attempt)
          (((body (c.protect slot).current.value).run (c.protect slot)).cell.conclude slot attempt
            (c.protect slot).current
            ((body (c.protect slot).current.value).run (c.protect slot)).verdict).2
        obtain ⟨call, others, calls⟩ := more.cons
        rw [calls] at more
        simp only [Moment.calls_append, Moment.calls_moments, List.singleton_append, calls]
        exact ⟨traced, more⟩

/-- **A run is traced in full.** -/
theorem Body.tracedBy_run (body : Body) (c : Cell) : body.TracedBy (body.run c).nested := by
  cases body with
  | finish verdict => trivial
  | perform op next =>
      exact ⟨op.tracedBy_run c, (next (op.run c).1).tracedBy_run (op.run c).2⟩

end

/-- An update calls its closure. -/
theorem Closure.calls_run_ne_nil (closure : Closure) (slot attempt : Nat) (c : Cell) :
    Moment.calls (closure.run slot attempt c).moments ≠ [] := by
  obtain ⟨call, others, calls⟩ := (closure.tracedBy_run slot attempt c).cons
  exact calls ▸ List.cons_ne_nil call others

/-- The verdict of a closure call is found again in its traces. -/
theorem Body.verdict_run (body : Body) (c : Cell) :
    body.verdict (body.run c).nested = (body.run c).verdict := by
  cases body with
  | finish verdict => rfl
  | perform op next => exact (next (op.run c).1).verdict_run (op.run c).2

/-! ### Histories -/

/-- An attempt of an update: what the closure was given, the accesses by operations that it ran,
its verdict, and how the update ended unless the attempt lost its race. -/
structure Attempt where
  seen : Integer
  inner : List Access
  verdict : Verdict
  ending : Option Outcome

/-- An attempt to install a value ends the update exactly if nothing was written since the
snapshot. A closure that declines or fails ends it in any case. -/
def Attempt.Decided (attempt : Attempt) : Prop :=
  match attempt.verdict with
  | .install value =>
      (attempt.ending = some (.installed attempt.seen value) ↔ ∀ a ∈ attempt.inner, ¬ a.Writes) ∧
        (attempt.ending = none ↔ ∃ a ∈ attempt.inner, a.Writes)
  | .decline => attempt.ending = some (.declined attempt.seen)
  | .fail cause => attempt.ending = some (.failed cause)

namespace Attempt

variable {seen value : Integer} {inner : List Access}

theorem decided_lost (written : ∃ a ∈ inner, a.Writes) :
    Decided { seen := seen, inner := inner, verdict := .install value, ending := none } := by
  constructor
  · constructor
    · intro impossible
      cases impossible
    · intro reads
      obtain ⟨a, mem, writes⟩ := written
      exact absurd writes (reads a mem)
  · constructor
    · intro _
      exact written
    · intro _
      rfl

theorem decided_won (reads : ∀ a ∈ inner, ¬ a.Writes) :
    Decided { seen := seen, inner := inner, verdict := .install value,
              ending := some (.installed seen value) } := by
  constructor
  · constructor
    · intro _
      exact reads
    · intro _
      rfl
  · constructor
    · intro impossible
      cases impossible
    · rintro ⟨a, mem, writes⟩
      exact absurd writes (reads a mem)

end Attempt

/-- The accesses of a run, in the order in which they take effect, and all attempts of its
updates. -/
structure History where
  accesses : List Access
  attempts : List Attempt

namespace History

/-- The operations of a run, with what they did, in the order in which they take effect. -/
def operations (h : History) : List (CellOp × Trace) := h.accesses.filterMap Access.operation?

/-- The values that a run writes. -/
def written (h : History) : List Integer := h.accesses.filterMap Access.written?

/-- The values that a run shows: those that its operations find, and those that its closures are
given. -/
def shown (h : History) : List Integer := h.accesses.filterMap Access.seen?

def nothing : History := { accesses := [], attempts := [] }

def one (a : Access) : History := { accesses := [a], attempts := [] }

def append (first second : History) : History :=
  { accesses := first.accesses ++ second.accesses, attempts := first.attempts ++ second.attempts }

/-- An attempt that lost its race looked at its snapshot, before its closure call did anything. -/
def lost (seen : Integer) (inner : History) (verdict : Verdict) : History :=
  { accesses := .lose seen :: inner.accesses
    attempts := inner.attempts ++
      [{ seen := seen, inner := inner.accesses, verdict := verdict, ending := none }] }

/-- The last attempt of an update is the place of the update itself: after the accesses of the
closure call if a value was installed, and before them if not. -/
def ended (own : Access) (seen : Integer) (inner : History) (verdict : Verdict)
    (outcome : Outcome) : History :=
  { accesses :=
      if verdict.value?.isSome then inner.accesses ++ [own] else own :: inner.accesses
    attempts := inner.attempts ++
      [{ seen := seen, inner := inner.accesses, verdict := verdict, ending := some outcome }] }

end History

mutual

/-- The history of an operation that did what a trace says. -/
def CellOp.history : CellOp → Trace → History
  | .update closure, .updated moments outcome =>
      closure.history (.perform (.update closure) (.updated moments outcome))
        (Moment.calls moments) outcome
  | op, trace => .one (.perform op trace)

/-- The history of an update from one call of its closure on. -/
def Closure.history (own : Access) : Closure → List (Integer × List Trace) → Outcome → History
  | _, [], _ => .nothing
  | .settle verdict, (seen, _) :: _, outcome => .ended own seen .nothing (verdict seen) outcome
  | .call body rest, (seen, nested) :: calls, outcome =>
      let inner := (body seen).history nested
      let verdict := (body seen).verdict nested
      if calls = [] then .ended own seen inner verdict outcome
      else (History.lost seen inner verdict).append (rest.history own calls outcome)

/-- The history of one closure call. -/
def Body.history : Body → List Trace → History
  | .perform op next, first :: others =>
      (op.history first).append ((next first).history others)
  | _, _ => .nothing

end

/-! ### No operation is missing or there twice -/

namespace History

theorem operations_append (first second : History) :
    (first.append second).operations = first.operations ++ second.operations :=
  List.filterMap_append

theorem operations_lost (seen : Integer) (inner : History) (verdict : Verdict) :
    (lost seen inner verdict).operations = inner.operations :=
  rfl

/-- The end of an update has the update itself beside what its last closure call did. -/
theorem operations_ended {own : Access} {operation : CellOp × Trace}
    (owns : own.operation? = some operation) (seen : Integer) (inner : History) (verdict : Verdict)
    (outcome : Outcome) :
    (ended own seen inner verdict outcome).operations.Perm (operation :: inner.operations) := by
  simp only [operations, ended]
  split
  · rw [List.filterMap_append, List.filterMap_cons_some owns, List.filterMap_nil]
    exact List.perm_append_singleton _ _
  · rw [List.filterMap_cons_some owns]

end History

mutual

theorem CellOp.operations_history {op : CellOp} {trace : Trace} (traced : op.TracedBy trace) :
    (op.history trace).operations.Perm (op.performed trace) := by
  cases op with
  | load => rfl
  | replace value => rfl
  | update closure =>
      cases trace with
      | loaded version => exact traced.elim
      | replaced previous => exact traced.elim
      | updated moments outcome => exact Closure.operations_history rfl traced outcome

theorem Closure.operations_history {closure : Closure} {own : Access} {operation : CellOp × Trace}
    (owns : own.operation? = some operation) {calls : List (Integer × List Trace)}
    (traced : closure.TracedBy calls) (outcome : Outcome) :
    (closure.history own calls outcome).operations.Perm
      (operation :: closure.performed calls) := by
  cases closure with
  | settle verdict =>
      obtain ⟨call, others, rfl⟩ := traced.cons
      exact History.operations_ended owns _ _ _ _
  | call body rest =>
      cases calls with
      | nil => exact traced.elim
      | cons call others =>
          cases others with
          | nil =>
              have inner : ((body call.1).history call.2).operations.Perm
                  ((body call.1).performed call.2) := Body.operations_history traced
              simp only [Closure.history, Closure.performed, if_true]
              refine (History.operations_ended owns _ _ _ _).trans (.cons _ ?_)
              cases rest <;> simpa [Closure.performed] using inner
          | cons next others =>
              obtain ⟨called, more⟩ := traced
              have inner : ((body call.1).history call.2).operations.Perm
                  ((body call.1).performed call.2) := Body.operations_history called
              have later := Closure.operations_history owns more outcome
              simp only [Closure.history, Closure.performed, if_neg (List.cons_ne_nil _ _),
                History.operations_append, History.operations_lost]
              exact (inner.append later).trans List.perm_middle

/-- **The history of a run has each operation once**, at any depth. -/
theorem Body.operations_history {body : Body} {traces : List Trace}
    (traced : body.TracedBy traces) :
    (body.history traces).operations.Perm (body.performed traces) := by
  cases body with
  | finish verdict => rfl
  | perform op next =>
      cases traces with
      | nil => exact traced.elim
      | cons first others =>
          simp only [Body.history, Body.performed, History.operations_append]
          exact (CellOp.operations_history traced.1).append (Body.operations_history traced.2)

end

/-! ### What a run keeps -/

/-- A run from one cell to another with the given history. -/
structure Ran (c : Cell) (h : History) (d : Cell) : Prop where
  /-- The next version gets a number that no version had. -/
  numbered : d.current.number < d.nextNumber
  grows : c.nextNumber ≤ d.nextNumber
  plays : Access.Plays c.current.value h.accesses d.current.value
  /-- Without a write the version is the same, and not only its value. -/
  kept : (∀ a ∈ h.accesses, ¬ a.Writes) → d.current = c.current
  moved : (∃ a ∈ h.accesses, a.Writes) → c.nextNumber ≤ d.current.number
  decided : ∀ attempt ∈ h.attempts, attempt.Decided

namespace Ran

theorem nothing {c : Cell} (numbered : c.current.number < c.nextNumber) : Ran c .nothing c where
  numbered := numbered
  grows := Nat.le_refl _
  plays := .done _
  kept := fun _ => rfl
  moved := by rintro ⟨a, mem, -⟩; cases mem
  decided := by intro attempt mem; cases mem

theorem loaded {c : Cell} (numbered : c.current.number < c.nextNumber) :
    Ran c (.one (.perform .load (.loaded c.load.1))) c.load.2 where
  numbered := by simpa using numbered
  grows := by simp
  plays := by
    refine .single ⟨.decline, ?_, congrArg Version.value c.load_current, nofun⟩
    rw [← c.load_version]
    rfl
  kept := fun _ => c.load_current
  moved := by
    rintro ⟨a, mem, writes⟩
    rw [List.mem_singleton.mp mem] at writes
    cases writes
  decided := by intro attempt mem; cases mem

theorem replaced {c : Cell} (value : Integer) :
    Ran c (.one (.perform (.replace value) (.replaced (c.replace value).1)))
      (c.replace value).2 where
  numbered := by simp
  grows := by simp
  plays := .single
    ⟨.install value, rfl, congrArg Version.value (c.replace_current value), nofun⟩
  kept := fun quiet => absurd rfl (quiet _ List.mem_cons_self)
  moved := fun _ => by simp
  decided := by intro attempt mem; cases mem

theorem append {c d e : Cell} {g h : History} (first : Ran c g d) (second : Ran d h e) :
    Ran c (g.append h) e where
  numbered := second.numbered
  grows := Nat.le_trans first.grows second.grows
  plays := first.plays.append second.plays
  kept := by
    intro reads
    rw [second.kept fun a mem => reads a (List.mem_append_right _ mem),
      first.kept fun a mem => reads a (List.mem_append_left _ mem)]
  moved := by
    rintro ⟨a, mem, writes⟩
    by_cases later : ∃ b ∈ h.accesses, b.Writes
    · exact Nat.le_trans first.grows (second.moved later)
    · rw [second.kept fun b mem' writes' => later ⟨b, mem', writes'⟩]
      rcases List.mem_append.mp mem with mem | mem
      · exact first.moved ⟨a, mem, writes⟩
      · exact absurd ⟨a, mem, writes⟩ later
  decided := by
    intro attempt mem
    rcases List.mem_append.mp mem with mem | mem
    · exact first.decided attempt mem
    · exact second.decided attempt mem

/-- Only the current version and the number of the next one count. -/
theorem congr {c c' d d' : Cell} {h : History} (ran : Ran c h d)
    (before : c'.current = c.current ∧ c'.nextNumber = c.nextNumber)
    (after : d'.current = d.current ∧ d'.nextNumber = d.nextNumber) : Ran c' h d' := by
  obtain ⟨currentBefore, numberBefore⟩ := before
  obtain ⟨currentAfter, numberAfter⟩ := after
  constructor
  · rw [currentAfter, numberAfter]
    exact ran.numbered
  · rw [numberBefore, numberAfter]
    exact ran.grows
  · rw [currentBefore, currentAfter]
    exact ran.plays
  · rw [currentBefore, currentAfter]
    exact ran.kept
  · rw [numberBefore, currentAfter]
    exact ran.moved
  · exact ran.decided

/-- **The version tells whether anything was written**: after a run the version from before is
current exactly if the run has no write. -/
theorem number_eq_iff {c d : Cell} {h : History} (ran : Ran c h d)
    (numbered : c.current.number < c.nextNumber) :
    d.current.number = c.current.number ↔ ∀ a ∈ h.accesses, ¬ a.Writes := by
  constructor
  · intro same a mem writes
    have moved := ran.moved ⟨a, mem, writes⟩
    omega
  · intro reads
    rw [ran.kept reads]

/-- A cell shows nothing but the value that it held and those that are written to it. -/
theorem shown {c d : Cell} {h : History} (ran : Ran c h d) :
    ∀ v ∈ d.current.value :: h.shown, v ∈ c.current.value :: h.written := by
  intro v mem
  rcases List.mem_cons.mp mem with rfl | mem
  · exact ran.plays.values.1
  · obtain ⟨a, found, seen⟩ := List.mem_filterMap.mp mem
    exact ran.plays.values.2 a found v seen

/-! ### One attempt -/

section Attempt

variable {c d : Cell} {inner : History} {slot attempt : Nat} {verdict : Verdict}

/-- One more attempt, which was decided as it should be. -/
theorem decided_concat (ran : Ran c inner d) {own : Attempt} (decided : own.Decided) :
    ∀ other ∈ inner.attempts ++ [own], other.Decided := by
  intro other mem
  rcases List.mem_append.mp mem with mem | mem
  · exact ran.decided other mem
  · exact List.mem_singleton.mp mem ▸ decided

/-- An attempt that loses has seen a write after its snapshot, and makes none. -/
theorem lost (ran : Ran c inner d) (numbered : c.current.number < c.nextNumber)
    (ending : (d.conclude slot attempt c.current verdict).1 = none) :
    Ran c (.lost c.current.value inner verdict)
      (d.conclude slot attempt c.current verdict).2 := by
  cases verdict with
  | decline => cases ending
  | fail cause => cases ending
  | install value =>
      by_cases same : d.current.number = c.current.number
      · rw [(Cell.conclude_won slot attempt value same).1] at ending
        cases ending
      · have written : ∃ a ∈ inner.accesses, a.Writes := by
          by_contra none
          exact same ((ran.number_eq_iff numbered).mpr fun a mem writes => none ⟨a, mem, writes⟩)
        refine Ran.congr ?_ ⟨rfl, rfl⟩ (Cell.conclude_lost slot attempt value same).2
        refine ⟨ran.numbered, ran.grows, .next (Access.acts_lose _) ran.plays, ?_, ?_,
          ran.decided_concat (Attempt.decided_lost written)⟩
        · intro reads
          exact ran.kept fun a mem => reads a (List.mem_cons_of_mem _ mem)
        · intro _
          exact ran.moved written

variable {own : Access} (taken : own.taken? = some (c.current.value, verdict))

include taken

/-- An update that ends without writing takes effect at its snapshot. -/
theorem quiet {outcome : Outcome} (ran : Ran c inner d) (still : verdict.value? = none)
    (acts : own.Acts c.current.value c.current.value)
    (decided : Attempt.Decided ⟨c.current.value, inner.accesses, verdict, some outcome⟩) :
    Ran c (.ended own c.current.value inner verdict outcome) d := by
  have reads : ¬ own.Writes := by
    rw [Access.Writes, Access.written?_eq taken, still]
    exact nofun
  have placed : (History.ended own c.current.value inner verdict outcome).accesses =
      own :: inner.accesses := by
    simp only [History.ended, still]
    rfl
  refine ⟨ran.numbered, ran.grows, ?_, ?_, ?_, ran.decided_concat decided⟩
  · rw [placed]
    exact .next acts ran.plays
  · intro none
    rw [placed] at none
    exact ran.kept fun a mem => none a (List.mem_cons_of_mem _ mem)
  · rw [placed]
    rintro ⟨a, mem, writes⟩
    rcases List.mem_cons.mp mem with rfl | mem
    · exact absurd writes reads
    · exact ran.moved ⟨a, mem, writes⟩

/-- An attempt that ends the update acts as an access of its own: on the value that the closure
was given. -/
theorem ended (ran : Ran c inner d) (numbered : c.current.number < c.nextNumber)
    {outcome : Outcome} (ending : (d.conclude slot attempt c.current verdict).1 = some outcome)
    (ends : own.outcome? = some outcome) :
    Ran c (.ended own c.current.value inner verdict outcome)
      (d.conclude slot attempt c.current verdict).2 := by
  cases verdict with
  | install value =>
      by_cases same : d.current.number = c.current.number
      · obtain ⟨won, current, next⟩ := Cell.conclude_won slot attempt value same
        rw [won] at ending
        obtain rfl := Option.some.inj ending
        have reads := (ran.number_eq_iff numbered).mp same
        have acts : own.Acts d.current.value value := by
          rw [ran.kept reads]
          exact Access.acts_of_taken taken ends
        have writes : own.Writes := by
          rw [Access.Writes, Access.written?_eq taken]
          rfl
        refine ⟨?_, ?_, ?_, ?_, ?_, ran.decided_concat (Attempt.decided_won reads)⟩
        · rw [current, next]
          exact Nat.lt_succ_self _
        · rw [next]
          exact Nat.le_succ_of_le ran.grows
        · rw [current]
          exact ran.plays.append (.single acts)
        · intro quiet
          exact absurd writes (quiet _ (List.mem_append_right _ List.mem_cons_self))
        · intro _
          rw [current]
          exact ran.grows
      · rw [(Cell.conclude_lost slot attempt value same).1] at ending
        cases ending
  | decline =>
      obtain rfl := Option.some.inj ending
      have decided : Attempt.Decided
          ⟨c.current.value, inner.accesses, .decline, some (.declined c.current.value)⟩ := rfl
      exact (ran.quiet taken rfl (Access.acts_of_taken taken ends) decided).congr
        ⟨rfl, rfl⟩ ⟨rfl, rfl⟩
  | fail cause =>
      obtain rfl := Option.some.inj ending
      have decided : Attempt.Decided
          ⟨c.current.value, inner.accesses, .fail cause, some (.failed cause)⟩ := rfl
      exact (ran.quiet taken rfl (Access.acts_of_taken taken ends) decided).congr
        ⟨rfl, rfl⟩ ⟨rfl, rfl⟩

end Attempt

end Ran

/-! ### Runs -/

mutual

/-- A run of an operation is that of its history on a plain variable. -/
theorem CellOp.ran (op : CellOp) (c : Cell) (numbered : c.current.number < c.nextNumber) :
    Ran c (op.history (op.run c).1) (op.run c).2 := by
  cases op with
  | load => exact .loaded numbered
  | replace value => exact .replaced value
  | update closure =>
      have ran := closure.ran c.acquire.1 0 c.acquire.2
        (.perform (.update closure) (CellOp.run (.update closure) c).1)
        (by simpa using numbered) rfl rfl
      refine ran.congr ⟨?_, ?_⟩ ⟨rfl, rfl⟩
      · exact (Cell.acquire_current c).symm
      · exact (Cell.acquire_nextNumber c).symm

/-- From one attempt on, an update runs as its history does, if its access is made of the calls from
there on. -/
theorem Closure.ran (closure : Closure) (slot attempt : Nat) (c : Cell) (own : Access)
    (numbered : c.current.number < c.nextNumber)
    (taken : own.taken? = closure.last? (Moment.calls (closure.run slot attempt c).moments))
    (ends : own.outcome? = some (closure.run slot attempt c).outcome) :
    Ran c (closure.history own (Moment.calls (closure.run slot attempt c).moments)
      (closure.run slot attempt c).outcome) (closure.run slot attempt c).cell := by
  cases closure with
  | settle verdict =>
      have same : (c.protect slot).current.number = c.current.number := rfl
      obtain ⟨outcome, ending⟩ := Cell.conclude_ends slot attempt (verdict c.current.value) same
      have guarded : Ran c .nothing (c.protect slot) :=
        (Ran.nothing numbered).congr ⟨rfl, rfl⟩ ⟨rfl, rfl⟩
      simp only [Closure.run, Cell.protect_current, ending, Option.getD_some,
        Moment.calls_moments] at taken ends ⊢
      exact guarded.ended taken numbered ending ends
  | call body rest =>
      have inner := (body c.current.value).ran (c.protect slot) numbered
      have verdict := (body c.current.value).verdict_run (c.protect slot)
      have attempted : Ran c _ _ := inner.congr ⟨rfl, rfl⟩ ⟨rfl, rfl⟩
      cases ending : (((body c.current.value).run (c.protect slot)).cell.conclude slot attempt
          c.current ((body c.current.value).run (c.protect slot)).verdict).1 with
      | some outcome =>
          simp only [Closure.run, Cell.protect_current, ending, Moment.calls_moments,
            Closure.last?, Closure.history, verdict, if_true] at taken ends ⊢
          exact attempted.ended taken numbered ending ends
      | none =>
          have ran := attempted.lost numbered ending
          simp only [Closure.run, Cell.protect_current, ending, Moment.calls_append,
            Moment.calls_moments, List.singleton_append, Closure.last?, Closure.history, verdict,
            rest.calls_run_ne_nil, if_false] at taken ends ⊢
          exact ran.append (rest.ran slot (Cell.nextAttempt attempt) _ own ran.numbered taken ends)

theorem Body.ran (body : Body) (c : Cell) (numbered : c.current.number < c.nextNumber) :
    Ran c (body.history (body.run c).nested) (body.run c).cell := by
  cases body with
  | finish verdict => exact .nothing numbered
  | perform op next =>
      have first := op.ran c numbered
      exact first.append ((next (op.run c).1).ran (op.run c).2 first.numbered)

end

/-- **A program on a cell is a program on a plain variable.** Take any settings, any value and any
program, with closures that operate on the cell to any depth. The run is traced in full, and its
history has each operation that was performed once. Played one after another, the accesses of the
history lead from the first value to the last one. Each attempt installs exactly if nothing was
written since its snapshot. And each call, by name and wherever it stands among the others, takes
the value that the variable has there, and answers and leaves what it would on the variable. -/
theorem program_plays (settings : CellSettings) (value : Integer) (program : Body) :
    let run := program.run (Cell.create settings value)
    let history := program.history run.nested
    program.TracedBy run.nested ∧
      history.operations.Perm (program.performed run.nested) ∧
      Access.Plays value history.accesses run.cell.current.value ∧
      (∀ attempt ∈ history.attempts, attempt.Decided) ∧
      ∀ earlier call trace later,
        history.accesses = earlier ++ .perform (CellCall.op call) trace :: later →
          ∃ before after, Access.Plays value earlier before ∧ call.Answered trace before after ∧
            Access.Plays after later run.cell.current.value := by
  intro run history
  have traced : program.TracedBy run.nested := program.tracedBy_run _
  have ran : Ran (Cell.create settings value) history run.cell := program.ran _ Nat.zero_lt_one
  refine ⟨traced, Body.operations_history traced, ran.plays, ran.decided, ?_⟩
  intro earlier call trace later parts
  have plays : Access.Plays value history.accesses run.cell.current.value := ran.plays
  rw [parts] at plays
  obtain ⟨before, after, first, acts, last⟩ := plays.split
  exact ⟨before, after, first, acts.answered, last⟩

/-- A store inside a closure call makes the first attempt lose, also if it stores an equal value. -/
example :
    let body : Body := .perform (.replace .zero) fun _ => .finish (.install .one)
    let closure : Closure := .call (fun _ => body) (.settle fun _ => .install .minusOne)
    let program : Body := .perform (.update closure) fun _ => .finish .decline
    let run := program.run (Cell.create .standard .zero)
    (program.history run.nested).accesses.map Access.taken? =
        [some (.zero, .decline), some (.zero, .install .zero), some (.zero, .install .minusOne)] ∧
      run.cell.current.value = .minusOne := by
  decide

end Bignum
