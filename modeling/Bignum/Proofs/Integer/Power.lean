import Bignum.Proofs.Integer.Arithmetic
import Mathlib.Algebra.Order.Ring.Basic
import Mathlib.Logic.Relation

/-!
Powers are exact, and need hardly more storage than their digits.

A round of repeated squaring leads from one state to the next (`Digits.PowState.Round`). In each
state that the loop comes to, the result so far, times what is left of the power of the square, is
the power that is asked for (`Digits.PowState.Keeps`, `Digits.PowState.reaches_keeps`). So no square
and no product is larger than that power, and no request is for more than one digit beyond its
digits.

* `Integer.PowSound`: a power is there wherever storage for its digits and one more is, and it has
  the value and the sign of the power.
* `powers_exact`: this holds of every canonical base and of every exponent.
-/

namespace Bignum

namespace Digits

/-! ### Rounds -/

/-- The state of the loop: the result so far, the square, and what is left of the exponent. -/
structure PowState where
  power : Digits
  square : Digits
  exponent : Nat

namespace PowState

variable {limit : Nat} {s t : PowState}

/-- The square is multiplied into the result where the lowest bit of the exponent is set. -/
def multiplied (limit : Nat) (s : PowState) : Except AllocationError Digits :=
  if s.exponent % 2 = 1 then s.power.mul limit s.square else .ok s.power

/-- The loop from a state on. -/
def finish (limit : Nat) (s : PowState) : Except AllocationError Digits :=
  powLoop limit s.power s.square s.exponent

/-- One round of the loop, which is not the last one. -/
inductive Round (limit : Nat) : PowState → PowState → Prop where
  | round {s : PowState} {power square : Digits} :
      s.multiplied limit = .ok power → s.exponent / 2 ≠ 0 →
      s.square.mul limit s.square = .ok square →
        Round limit s { power := power, square := square, exponent := s.exponent / 2 }

theorem finish_eq (limit : Nat) (s : PowState) :
    s.finish limit = (s.multiplied limit).bind fun power =>
      if s.exponent / 2 = 0 then .ok power
      else (s.square.mul limit s.square).bind fun square =>
        finish limit { power := power, square := square, exponent := s.exponent / 2 } := by
  rw [finish, powLoop]
  rfl

/-- A round leaves the outcome of the loop as it is. -/
theorem Round.finish_eq (round : Round limit s t) : s.finish limit = t.finish limit := by
  cases round with
  | round multiplied more squared =>
      rw [PowState.finish_eq, multiplied, squared]
      exact if_neg more

theorem toNat_of_multiplied {power : Digits} (done : s.multiplied limit = .ok power) :
    power.toNat = s.power.toNat * s.square.toNat ^ (s.exponent % 2) := by
  unfold multiplied at done
  split at done
  · rename_i odd
    rw [toNat_of_mul done, odd, pow_one]
  · rename_i even
    rw [← Except.ok.inj done, Nat.mod_two_ne_one.mp even, pow_zero, Nat.mul_one]

theorem canonical_of_multiplied {power : Digits} (canonical : s.power.Canonical)
    (done : s.multiplied limit = .ok power) : power.Canonical := by
  unfold multiplied at done
  split at done
  · exact canonical_of_mul done
  · exact Except.ok.inj done ▸ canonical

/-! ### What the rounds keep -/

/-- The power that is asked for is the result so far, times what is left of the power of the
square. -/
structure Keeps (s : PowState) (value : Nat) : Prop where
  power_canonical : s.power.Canonical
  square_canonical : s.square.Canonical
  running : s.exponent ≠ 0
  exact : s.power.toNat * s.square.toNat ^ s.exponent = value

/-- The exponent, taken apart into its lowest bit and the rest. -/
theorem pow_halves (n exponent : Nat) :
    n ^ exponent = n ^ (exponent % 2) * (n * n) ^ (exponent / 2) := by
  rw [← pow_two, ← pow_mul, ← pow_add, Nat.mod_add_div]

variable {value m : Nat}

/-- **A round keeps the power.** -/
theorem Keeps.round (keeps : s.Keeps value) (round : Round limit s t) : t.Keeps value := by
  cases round with
  | round multiplied more squared =>
      refine ⟨canonical_of_multiplied keeps.power_canonical multiplied, canonical_of_mul squared,
        more, ?_⟩
      rw [toNat_of_multiplied multiplied, toNat_of_mul squared, Nat.mul_assoc, ← pow_halves]
      exact keeps.exact

/-- The result that the last round leaves is the power. -/
theorem finish_exact {result : Digits} (done : s.finish limit = .ok result) :
    result.toNat = s.power.toNat * s.square.toNat ^ s.exponent := by
  obtain ⟨power, square, exponent⟩ := s
  induction exponent using Nat.strongRecOn generalizing power square with
  | ind exponent ih =>
      rw [finish_eq] at done
      obtain ⟨product, multiplied, done⟩ := bind_eq_ok_iff.mp done
      have value := toNat_of_multiplied multiplied
      have halves := pow_halves square.toNat exponent
      split at done
      · rename_i last
        simp only at last
        rw [← Except.ok.inj done, value, halves, last, pow_zero, Nat.mul_one]
      · rename_i more
        simp only at more
        obtain ⟨squared, made, done⟩ := bind_eq_ok_iff.mp done
        rw [ih (exponent / 2) (by omega) product squared done, value, toNat_of_mul made, halves,
          Nat.mul_assoc]

/-! ### Sizes -/

theorem Keeps.product_le (keeps : s.Keeps value) : s.power.toNat * s.square.toNat ≤ value := by
  rw [← keeps.exact]
  exact Nat.mul_le_mul_left _ (Nat.le_self_pow keeps.running _)

section Sizes

variable (positive : 0 < value) (keeps : s.Keeps value)

include positive keeps

theorem Keeps.power_pos : 0 < s.power.toNat := by
  rw [← keeps.exact] at positive
  exact Nat.pos_of_mul_pos_right positive

theorem Keeps.square_pos : 0 < s.square.toNat := by
  rw [← keeps.exact] at positive
  exact Nat.pos_of_ne_zero fun zero => by
    rw [zero, zero_pow keeps.running] at positive
    exact absurd positive (Nat.lt_irrefl 0)

/-- **No square is larger than the power.** -/
theorem Keeps.square_le : s.square.toNat ≤ value := by
  calc s.square.toNat
      ≤ s.square.toNat ^ s.exponent := Nat.le_self_pow keeps.running _
    _ ≤ s.power.toNat * s.square.toNat ^ s.exponent :=
      Nat.le_mul_of_pos_left _ (keeps.power_pos positive)
    _ = value := keeps.exact

/-- A square that is squared again is smaller still: its own square is not larger. -/
theorem Keeps.squared_le (more : s.exponent / 2 ≠ 0) : s.square.toNat * s.square.toNat ≤ value := by
  calc s.square.toNat * s.square.toNat
      = s.square.toNat ^ 2 := (pow_two _).symm
    _ ≤ s.square.toNat ^ s.exponent :=
      Nat.pow_le_pow_right (keeps.square_pos positive) (by omega)
    _ ≤ s.power.toNat * s.square.toNat ^ s.exponent :=
      Nat.le_mul_of_pos_left _ (keeps.power_pos positive)
    _ = value := keeps.exact

theorem Keeps.power_ne_nil : s.power ≠ [] :=
  mt keeps.power_canonical.toNat_eq_zero_iff.mpr (keeps.power_pos positive).ne'

theorem Keeps.square_ne_nil : s.square ≠ [] :=
  mt keeps.square_canonical.toNat_eq_zero_iff.mpr (keeps.square_pos positive).ne'

variable (small : value < Digit.base ^ m)

include small

/-- **No factors have more than one digit beyond those of the power.** -/
theorem Keeps.product_length_le : s.power.length + s.square.length ≤ m + 1 :=
  keeps.power_canonical.length_add_length_le keeps.square_canonical (keeps.power_ne_nil positive)
    (keeps.square_ne_nil positive) (Nat.lt_of_le_of_lt keeps.product_le small)

theorem Keeps.squared_length_le (more : s.exponent / 2 ≠ 0) :
    s.square.length + s.square.length ≤ m + 1 :=
  keeps.square_canonical.length_add_length_le keeps.square_canonical (keeps.square_ne_nil positive)
    (keeps.square_ne_nil positive) (Nat.lt_of_le_of_lt (keeps.squared_le positive more) small)

variable (room : Storage.Grants limit (m + 1))

include room

theorem Keeps.exists_multiplied : ∃ power, s.multiplied limit = .ok power := by
  unfold multiplied
  split
  · exact room.exists_ok (keeps.product_length_le positive small) fun _ refused =>
      ((mul_eq_error_iff keeps.power_canonical keeps.square_canonical).mp refused).2
  · exact ⟨s.power, rfl⟩

theorem Keeps.exists_squared (more : s.exponent / 2 ≠ 0) :
    ∃ square, s.square.mul limit s.square = .ok square :=
  room.exists_ok (keeps.squared_length_le positive small more) fun _ refused =>
    ((mul_eq_error_iff keeps.square_canonical keeps.square_canonical).mp refused).2

/-- **The loop is never refused** where there is room for a digit more than the power has. -/
theorem Keeps.exists_finish : ∃ result, s.finish limit = .ok result := by
  obtain ⟨power, square, exponent⟩ := s
  induction exponent using Nat.strongRecOn generalizing power square with
  | ind exponent ih =>
      obtain ⟨product, multiplied⟩ := keeps.exists_multiplied positive small room
      rw [finish_eq, multiplied]
      by_cases last : exponent / 2 = 0
      · exact ⟨product, if_pos last⟩
      · obtain ⟨squared, made⟩ := keeps.exists_squared positive small room last
        have next := keeps.round (.round multiplied last made)
        obtain ⟨result, finished⟩ := ih (exponent / 2) (by omega) product squared next
        refine ⟨result, (if_neg last).trans ?_⟩
        simp only [made]
        exact finished

end Sizes

/-- The states that the loop comes to from its start keep the power, and lead to one outcome. -/
theorem reaches_keeps {start : PowState} (keeps : start.Keeps value)
    (reaches : Relation.ReflTransGen (Round limit) start s) :
    s.Keeps value ∧ start.finish limit = s.finish limit := by
  induction reaches with
  | refl => exact ⟨keeps, rfl⟩
  | tail _ round ih => exact ⟨ih.1.round round, ih.2.trans round.finish_eq⟩

/-- Where the loop begins. -/
def start (base : Digits) (exponent : Nat) : PowState :=
  { power := [1], square := base, exponent := exponent }

theorem start_keeps {base : Digits} {exponent : Nat} (canonical : base.Canonical)
    (running : exponent ≠ 0) : (start base exponent).Keeps (base.toNat ^ exponent) where
  power_canonical := canonical_singleton.mpr (by decide)
  square_canonical := canonical
  running := running
  exact := Nat.one_mul _

end PowState

end Digits

/-! ### Integers -/

namespace Integer

/-- What a power of an integer is, and where there is one. -/
structure PowSound (limit : Nat) (a : Integer) (exponent : Nat) : Prop where
  /-- For a power of at most `m` digits it is enough that requests of `m + 1` digits are granted. -/
  granted : ∀ m, Storage.Grants limit (m + 1) → a.toInt.natAbs ^ exponent < Digit.base ^ m →
    ∃ v, a.pow limit exponent = .ok v
  exact : ∀ v, a.pow limit exponent = .ok v → v.Canonical ∧ v.toInt = a.toInt ^ exponent
  sign : ∀ v, a.pow limit exponent = .ok v →
    (v.negative = true ↔ a.toInt < 0 ∧ exponent % 2 = 1)
  one : exponent = 0 → a.pow limit exponent = .ok one
  /-- No square that the loop makes is larger than the power, and no factors that it multiplies have
  more than one digit beyond the digits of the power. -/
  squares : exponent ≠ 0 → a.isZero = false → ∀ s : Digits.PowState,
    Relation.ReflTransGen (Digits.PowState.Round limit) (.start a.digits exponent) s →
      Digits.powLoop limit [1] a.digits exponent = s.finish limit ∧
      s.square.toNat ≤ a.toInt.natAbs ^ exponent ∧
      ∀ m, a.toInt.natAbs ^ exponent < Digit.base ^ m →
        s.power.length + s.square.length ≤ m + 1 ∧
        (s.exponent / 2 ≠ 0 → s.square.length + s.square.length ≤ m + 1)

variable {limit exponent : Nat} {a v : Integer}

theorem signed_pow (negative : Bool) (n exponent : Nat) :
    signed (negative && exponent % 2 == 1) (n ^ exponent) = signed negative n ^ exponent := by
  cases negative with
  | false => simp [signed]
  | true =>
      rcases Nat.mod_two_eq_zero_or_one exponent with even | odd
      · simp [signed, even, (Nat.even_iff.mpr even).neg_pow]
      · simp [signed, odd, (Nat.odd_iff.mpr odd).neg_pow]

/-- **A power is exact**, with the sign that it has by the parity of the exponent. -/
theorem toInt_pow (made : a.pow limit exponent = .ok v) : v.toInt = a.toInt ^ exponent := by
  unfold pow at made
  split at made
  · rename_i none
    rw [← Except.ok.inj made, none, pow_zero]
    rfl
  · rename_i running
    split at made
    · rename_i zero
      rw [← Except.ok.inj made, toInt_of_isZero zero, zero_pow running]
      rfl
    · obtain ⟨base, copied, made⟩ := bind_eq_ok_iff.mp (liftAllocation_eq_ok_iff.mp made)
      obtain ⟨-, rfl⟩ := Digits.copy_eq_ok_iff.mp copied
      obtain ⟨result, looped, made⟩ := bind_eq_ok_iff.mp made
      have value : result.toNat = 1 * a.digits.toNat ^ exponent :=
        Digits.PowState.finish_exact (s := .start a.digits exponent) looped
      rw [← Except.ok.inj made, toInt_ofMagnitude, value, Nat.one_mul, toInt_eq_signed a,
        ← signed_pow]
      rfl

theorem exists_pow (canonical : a.Canonical) {m : Nat} (room : Storage.Grants limit (m + 1))
    (small : a.toInt.natAbs ^ exponent < Digit.base ^ m) :
    ∃ v, a.pow limit exponent = .ok v := by
  unfold pow
  split
  · exact ⟨_, rfl⟩
  · rename_i running
    split
    · exact ⟨_, rfl⟩
    · rename_i some
      have nonzero : a.digits ≠ [] := fun empty => some (List.isEmpty_iff.mpr empty)
      have positive := canonical.1.toNat_pos nonzero
      rw [natAbs_toInt] at small
      have keeps := Digits.PowState.start_keeps canonical.1 running
      obtain ⟨result, finished⟩ := keeps.exists_finish (Nat.pow_pos positive) small room
      -- The base is no longer than its power, so it can be copied as well.
      have short : a.digits.length ≤ m :=
        (canonical.1.length_le_iff m).mpr (Nat.lt_of_le_of_lt (Nat.le_self_pow running _) small)
      have copied : a.digits.copy limit = .ok a.digits := room.copy_eq (Nat.le_succ_of_le short)
      refine ⟨ofMagnitude (a.negative && exponent % 2 == 1) result, liftAllocation_eq_ok_iff.mpr ?_⟩
      exact bind_eq_ok_iff.mpr ⟨_, copied, bind_eq_ok_iff.mpr ⟨result, finished, rfl⟩⟩

theorem powSound (canonical : a.Canonical) (limit exponent : Nat) :
    PowSound limit a exponent where
  granted m room small := exists_pow canonical room small
  exact v made := ⟨canonical_pow made, toInt_pow made⟩
  sign v made := by
    rw [(canonical_pow made).negative_eq, decide_eq_true_iff, toInt_pow made]
    rcases Nat.mod_two_eq_zero_or_one exponent with even | odd
    · have nonneg := (Nat.even_iff.mpr even).pow_nonneg a.toInt
      omega
    · rw [(Nat.odd_iff.mpr odd).pow_neg_iff, and_iff_left odd]
  one := by
    rintro rfl
    rfl
  squares running some s reaches := by
    have nonzero : a.digits ≠ [] := by
      rintro empty
      rw [isZero, empty] at some
      cases some
    have positive := Nat.pow_pos (n := exponent) (canonical.1.toNat_pos nonzero)
    obtain ⟨keeps, same⟩ :=
      Digits.PowState.reaches_keeps (Digits.PowState.start_keeps canonical.1 running) reaches
    rw [natAbs_toInt]
    exact ⟨same, keeps.square_le positive, fun m small =>
      ⟨keeps.product_length_le positive small, keeps.squared_length_le positive small⟩⟩

end Integer

/-- **Powers are exact and are not refused early**: storage for a digit more than the power has is
enough, whatever the base and the exponent. -/
theorem powers_exact {a : Integer} (canonical : a.Canonical) (limit exponent : Nat) :
    Integer.PowSound limit a exponent :=
  a.powSound canonical limit exponent

/-- A negative base of two digits and an odd exponent, with storage for the power and one digit. -/
theorem powers_exact_odd :
    let a : Integer := { negative := true, digits := [3, 1] }
    let v : Integer := { negative := true, digits := [243, 405, 270, 90, 15, 1] }
    a.Canonical ∧ Storage.Grants 8 (6 + 1) ∧ a.toInt.natAbs ^ 5 < Digit.base ^ 6 ∧
      a.pow 8 5 = .ok v ∧ v.Canonical ∧ v.toInt = a.toInt ^ 5 := by
  intro a v
  have canonical : a.Canonical := by decide
  have room : Storage.Grants 8 (6 + 1) := Storage.grants_iff.mpr (by decide)
  have small : a.toInt.natAbs ^ 5 < Digit.base ^ 6 := by decide +kernel
  have sound := powers_exact canonical 8 5
  obtain ⟨w, made⟩ := sound.granted 6 room small
  obtain ⟨form, value⟩ := sound.exact w made
  have same : w = v := form.eq_of_toInt_eq (by decide) (value.trans (by decide +kernel))
  subst same
  exact ⟨canonical, room, small, made, form, value⟩

end Bignum
