import Bignum.Proofs.Cell.Steps

/-!
The run of a program on a cell as a sequence of moves.

A program is a tree: its updates contain closure calls, and these contain operations. Its run
happens in one order, though. The moves of a run (`Body.moves`) are what happens while neither the
program nor one of its closures has control: an operation begins or ends, a closure returns its
verdict. Between two moves the run is at a `Point`: the cell, and the operations in progress.

`Body.moves_lead`: the moves of a program lead to the cell that its run ends with, and leave no
operation in progress that was not so before. What holds after every prefix of the moves thus holds
whenever an operation is about to begin, inside a closure and outside.
-/

namespace Bignum

/-- A load or an update in progress: its slot, how many races it has lost, and the version that it
announced last. -/
structure Guard where
  slot : Nat
  attempt : Nat
  version : Version
  deriving DecidableEq, Repr

/-- A moment of a run. -/
structure Point where
  cell : Cell
  /-- The operations in progress, the innermost first. -/
  held : List Guard
  deriving DecidableEq, Repr

/-- What happens between two points. -/
inductive Move where
  /-- A load or an update takes a slot and announces the current version. -/
  | enter
  /-- The innermost operation, a load, ends. -/
  | leave
  /-- A store or a swap is made. -/
  | replace (value : Integer)
  /-- The closure of the innermost operation, an update, has reached a verdict. That ends the
  update, or the update has lost a race and announces the version that is current now. -/
  | conclude (verdict : Verdict)
  deriving DecidableEq, Repr

namespace Point

/-- The first point of a run on a new cell. -/
def start (settings : CellSettings) (value : Integer) : Point :=
  { cell := Cell.create settings value, held := [] }

/-- An operation announces the current version in its slot. -/
def announce (slot attempt : Nat) (c : Cell) (held : List Guard) : Point :=
  { cell := c.protect slot, held := { slot, attempt, version := c.current } :: held }

/-- The point after a move. -/
def after (p : Point) : Move → Point
  | .enter => announce p.cell.acquire.1 0 p.cell.acquire.2 p.held
  | .leave =>
      match p.held with
      | [] => p
      | g :: outer =>
          let given := p.cell.release g.slot
          { cell := { given with counters := { given.counters with
              loads := given.counters.loads + 1 } }
            held := outer }
  | .replace value => { p with cell := (p.cell.replace value).2 }
  | .conclude verdict =>
      match p.held with
      | [] => p
      | g :: outer =>
          let ending := p.cell.conclude g.slot g.attempt g.version verdict
          match ending.1 with
          | some _ => { cell := ending.2, held := outer }
          | none => announce g.slot (Cell.nextAttempt g.attempt) ending.2 outer

/-- The point after one move after another. -/
def afterAll (p : Point) (moves : List Move) : Point := moves.foldl after p

theorem afterAll_append (p : Point) (first second : List Move) :
    p.afterAll (first ++ second) = (p.afterAll first).afterAll second :=
  List.foldl_append

/-- No move takes a version back. -/
theorem after_nextNumber (p : Point) (move : Move) :
    p.cell.nextNumber ≤ (p.after move).cell.nextNumber := by
  obtain ⟨c, held⟩ := p
  cases move with
  | enter => exact Nat.le_of_eq c.acquire_nextNumber.symm
  | replace value =>
      exact Nat.le_of_lt (Nat.lt_of_succ_le (Nat.le_of_eq (c.replace_nextNumber value).symm))
  | leave =>
      cases held with
      | nil => exact Nat.le_refl _
      | cons g outer => exact Nat.le_refl _
  | conclude verdict =>
      cases held with
      | nil => exact Nat.le_refl _
      | cons g outer =>
          simp only [after]
          split
          · exact Cell.conclude_nextNumber g.slot g.attempt verdict
          · exact Cell.conclude_nextNumber g.slot g.attempt verdict

/-- **What every move preserves holds at every point.** -/
theorem afterAll_keeps {P : Point → Prop} (keeps : ∀ p move, P p → P (p.after move)) {p : Point}
    (first : P p) (moves : List Move) : P (p.afterAll moves) := by
  induction moves generalizing p with
  | nil => exact first
  | cons move moves ih => exact ih (keeps p move first)

theorem afterAll_nextNumber (p : Point) (moves : List Move) :
    p.cell.nextNumber ≤ (p.afterAll moves).cell.nextNumber :=
  afterAll_keeps (P := fun q => p.cell.nextNumber ≤ q.cell.nextNumber)
    (fun q move grows => Nat.le_trans grows (q.after_nextNumber move)) (Nat.le_refl _) moves

end Point

/-! ### The moves of a program -/

mutual

/-- The moves of one operation. -/
def CellOp.moves : CellOp → Cell → List Move
  | .load, _ => [.enter, .leave]
  | .replace value, _ => [.replace value]
  | .update closure, c => .enter :: closure.moves c.acquire.1 0 c.acquire.2

/-- The moves of an update from an attempt on that has announced the current version. -/
def Closure.moves : Closure → (slot attempt : Nat) → Cell → List Move
  | .settle verdict, _, _, c => [.conclude (verdict c.current.value)]
  | .call body rest, slot, attempt, c =>
      let guarded := c.protect slot
      let observed := guarded.current
      let called := (body observed.value).run guarded
      let ending := called.cell.conclude slot attempt observed called.verdict
      (body observed.value).moves guarded ++ .conclude called.verdict ::
        match ending.1 with
        | some _ => []
        | none => rest.moves slot (Cell.nextAttempt attempt) ending.2

/-- The moves of one closure call, or of a program. -/
def Body.moves : Body → Cell → List Move
  | .finish _, _ => []
  | .perform op next, c =>
      let first := op.run c
      op.moves c ++ (next first.1).moves first.2

end

mutual

/-- The moves of an operation do what the operation does. -/
theorem CellOp.moves_lead (op : CellOp) (c : Cell) (held : List Guard) :
    Point.afterAll ⟨c, held⟩ (op.moves c) = ⟨(op.run c).2, held⟩ := by
  cases op with
  | load => rfl
  | replace value => rfl
  | update closure => exact closure.moves_lead c.acquire.1 0 c.acquire.2 held

theorem Closure.moves_lead (closure : Closure) (slot attempt : Nat) (c : Cell)
    (held : List Guard) :
    (Point.announce slot attempt c held).afterAll (closure.moves slot attempt c) =
      ⟨(closure.run slot attempt c).cell, held⟩ := by
  cases closure with
  | settle verdict =>
      have same : (c.protect slot).current.number = c.current.number := rfl
      obtain ⟨outcome, ends⟩ :=
        Cell.conclude_ends slot attempt (verdict c.current.value) same
      simp only [Closure.moves, Point.afterAll, List.foldl, Point.after, Point.announce, ends]
      rfl
  | call body rest =>
      simp only [Closure.moves, Closure.run, Point.afterAll_append, Point.announce,
        Body.moves_lead, Cell.protect_current]
      cases ending : (((body c.current.value).run (c.protect slot)).cell.conclude slot attempt
          c.current ((body c.current.value).run (c.protect slot)).verdict).1 with
      | some outcome => simp only [Point.afterAll, List.foldl, Point.after, ending]
      | none =>
          simp only [Point.afterAll, List.foldl, Point.after, ending]
          exact rest.moves_lead slot (Cell.nextAttempt attempt) _ held

theorem Body.moves_lead (body : Body) (c : Cell) (held : List Guard) :
    Point.afterAll ⟨c, held⟩ (body.moves c) = ⟨(body.run c).cell, held⟩ := by
  cases body with
  | finish verdict => rfl
  | perform op next =>
      rw [Body.moves, Point.afterAll_append, op.moves_lead]
      exact (next (op.run c).1).moves_lead (op.run c).2 held

end

/-! ### Numbers -/

theorem CellOp.le_nextNumber (op : CellOp) (c : Cell) : c.nextNumber ≤ (op.run c).2.nextNumber := by
  have grows := Point.afterAll_nextNumber ⟨c, []⟩ (op.moves c)
  rwa [op.moves_lead] at grows

theorem Closure.le_nextNumber (closure : Closure) (slot attempt : Nat) (c : Cell) :
    c.nextNumber ≤ (closure.run slot attempt c).cell.nextNumber := by
  have grows := (Point.announce slot attempt c []).afterAll_nextNumber
    (closure.moves slot attempt c)
  rwa [closure.moves_lead] at grows

theorem Body.le_nextNumber (body : Body) (c : Cell) :
    c.nextNumber ≤ (body.run c).cell.nextNumber := by
  have grows := Point.afterAll_nextNumber ⟨c, []⟩ (body.moves c)
  rwa [body.moves_lead] at grows

end Bignum
