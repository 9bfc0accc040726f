import Bignum.Cell.Run

/-!
What the single steps of a cell leave as it is.

Hazard slots, reclamation and counting never touch the current version nor the number that the next
one gets; only publishing does (`publish_current`, `publish_nextNumber`). An attempt that wins
publishes once, and one that loses does not publish (`conclude_won`, `conclude_lost`).
-/

namespace Bignum.Cell

/-! ### Steps that publish nothing -/

@[simp] theorem acquire_current (c : Cell) : c.acquire.2.current = c.current := by
  unfold acquire
  split <;> rfl

@[simp] theorem acquire_nextNumber (c : Cell) : c.acquire.2.nextNumber = c.nextNumber := by
  unfold acquire
  split <;> rfl

@[simp] theorem protect_current (slot : Nat) (c : Cell) :
    (c.protect slot).current = c.current := rfl

@[simp] theorem protect_nextNumber (slot : Nat) (c : Cell) :
    (c.protect slot).nextNumber = c.nextNumber := rfl

@[simp] theorem release_current (slot : Nat) (c : Cell) :
    (c.release slot).current = c.current := rfl

@[simp] theorem release_nextNumber (slot : Nat) (c : Cell) :
    (c.release slot).nextNumber = c.nextNumber := rfl

@[simp] theorem retire_current (replaced : Version) (c : Cell) :
    (c.retire replaced).current = c.current := by
  simp only [retire]
  split <;> rfl

@[simp] theorem retire_nextNumber (replaced : Version) (c : Cell) :
    (c.retire replaced).nextNumber = c.nextNumber := by
  simp only [retire]
  split <;> rfl

@[simp] theorem loseRace_current (attempt : Nat) (c : Cell) :
    (c.loseRace attempt).current = c.current := rfl

@[simp] theorem loseRace_nextNumber (attempt : Nat) (c : Cell) :
    (c.loseRace attempt).nextNumber = c.nextNumber := rfl

theorem load_version (c : Cell) : c.load.1 = c.current := by
  simp [load]

@[simp] theorem load_current (c : Cell) : c.load.2.current = c.current := by
  simp [load]

@[simp] theorem load_nextNumber (c : Cell) : c.load.2.nextNumber = c.nextNumber := by
  simp [load]

/-! ### Publishing -/

@[simp] theorem publish_current (value : Integer) (c : Cell) :
    (c.publish value).current = { number := c.nextNumber, value := value } := rfl

@[simp] theorem publish_nextNumber (value : Integer) (c : Cell) :
    (c.publish value).nextNumber = c.nextNumber + 1 := rfl

@[simp] theorem replace_current (value : Integer) (c : Cell) :
    (c.replace value).2.current = { number := c.nextNumber, value := value } := by
  simp [replace]

@[simp] theorem replace_nextNumber (value : Integer) (c : Cell) :
    (c.replace value).2.nextNumber = c.nextNumber + 1 := by
  simp [replace]

/-! ### The end of an attempt -/

section Conclude

variable (slot attempt : Nat) {observed : Version} {c : Cell}

/-- An attempt wins if the version that it observed is current still. -/
theorem conclude_won (value : Integer) (same : c.current.number = observed.number) :
    (c.conclude slot attempt observed (.install value)).1 =
        some (.installed observed.value value) ∧
      (c.conclude slot attempt observed (.install value)).2.current =
        { number := c.nextNumber, value := value } ∧
      (c.conclude slot attempt observed (.install value)).2.nextNumber = c.nextNumber + 1 := by
  simp [conclude, compareSwap, same]

/-- An attempt loses, and publishes nothing, if another version has become current. -/
theorem conclude_lost (value : Integer) (other : c.current.number ≠ observed.number) :
    (c.conclude slot attempt observed (.install value)).1 = none ∧
      (c.conclude slot attempt observed (.install value)).2.current = c.current ∧
      (c.conclude slot attempt observed (.install value)).2.nextNumber = c.nextNumber := by
  simp [conclude, compareSwap, other]

/-- An attempt ends the update, whatever the verdict, if the version that it observed is current
still. -/
theorem conclude_ends (verdict : Verdict) (same : c.current.number = observed.number) :
    ∃ outcome, (c.conclude slot attempt observed verdict).1 = some outcome := by
  cases verdict with
  | install value => exact ⟨_, (conclude_won slot attempt value same).1⟩
  | decline => exact ⟨_, rfl⟩
  | fail cause => exact ⟨_, rfl⟩

/-- The end of an attempt publishes at most one version. -/
theorem conclude_nextNumber (verdict : Verdict) :
    c.nextNumber ≤ (c.conclude slot attempt observed verdict).2.nextNumber := by
  cases verdict with
  | decline => exact Nat.le_refl _
  | fail cause => exact Nat.le_refl _
  | install value =>
      by_cases same : c.current.number = observed.number
      · rw [(conclude_won slot attempt value same).2.2]
        exact Nat.le_succ _
      · exact Nat.le_of_eq (conclude_lost slot attempt value same).2.2.symm

end Conclude

end Bignum.Cell
