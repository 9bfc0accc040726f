import Bignum.Proofs.Integer.Arithmetic
import Bignum.Proofs.Sharing.Mirror

/-!
Steps of one in place are exact, private and atomic.

A step is made on the digits where they are, after moving away from a shared block, and may take
several writes and a change of sign. Seen from outside it is one step on the integer alone
(`Registers.InPlace`): either its register, and no other, holds the next integer in a block of its
own, or the registers are what they were.

* `Integer.toInt_increment`, `Integer.toInt_decrement`: a step on the integer alone adds or
  subtracts one, across zero as well.
* `Registers.increment_asks`, `Registers.decrement_asks`: a step fails only for want of the room
  that a carry out of the top or a copy of shared digits needs.
* `steps_atomic`: both together, for registers that share as they like and digits of any length.
-/

namespace Bignum

/-! ### Digits -/

namespace Digits

variable {limit : Nat} {shared : Bool} {ds result : Digits}

theorem toNat_of_stepUp (done : ds.stepUp limit shared = .ok result) :
    result.toNat = ds.toNat + 1 := by
  rw [← stepUp_eq done, toNat_increment_widened]

theorem toNat_of_stepDown (positive : 0 < ds.toNat) (done : ds.stepDown limit shared = .ok result) :
    result.toNat + 1 = ds.toNat := by
  rw [← stepDown_eq done, toNat_trim, toNat_decrement positive]

/-- The room that a step asks for: away from zero for a carry out of the top where there will be
one, and otherwise only for a copy of shared digits. -/
def stepRoom (shared away : Bool) (ds : Digits) : Nat :=
  if away && ds.all (· == Digit.max) then ds.length + 1 else if shared then ds.length else 0

theorem stepUp_asks (limit : Nat) (shared : Bool) (ds : Digits) :
    (ds.stepUp limit shared).map (fun _ => ()) =
      Storage.request limit (ds.stepRoom shared true) := by
  rw [stepUp, stepRoom, Bool.true_and, map_map]
  cases Storage.request limit _ <;> rfl

theorem stepDown_asks (limit : Nat) (shared : Bool) (ds : Digits) :
    (ds.stepDown limit shared).map (fun _ => ()) =
      Storage.request limit (ds.stepRoom shared false) := by
  unfold stepDown stepRoom
  simp only [Bool.false_and, Bool.false_eq_true, if_false]
  cases Storage.request limit (if shared then ds.length else 0) <;> rfl

end Digits

/-! ### Integers -/

namespace Integer

variable {limit : Nat} {shared : Bool} {v w : Integer}

theorem toNat_pos_of_negative (canonical : v.Canonical) (negative : v.negative = true) :
    0 < v.digits.toNat := by
  refine canonical.1.toNat_pos fun empty => ?_
  rw [canonical.2 empty] at negative
  cases negative

/-- **A step up adds one**, also from below zero. -/
theorem toInt_increment (canonical : v.Canonical) (made : v.increment limit shared = .ok w) :
    w.toInt = v.toInt + 1 := by
  have made := liftAllocation_eq_ok_iff.mp made
  split at made
  · rename_i negative
    obtain ⟨digits, stepped, rfl⟩ := map_eq_ok_iff.mp made
    have less := Digits.toNat_of_stepDown (toNat_pos_of_negative canonical negative) stepped
    rw [toInt_ofCanonical, toInt, if_pos rfl, if_pos negative]
    omega
  · rename_i positive
    obtain ⟨digits, stepped, rfl⟩ := map_eq_ok_iff.mp made
    have more := Digits.toNat_of_stepUp stepped
    rw [toInt_ofCanonical, toInt, if_neg Bool.false_ne_true, if_neg positive]
    omega

/-- **A step down subtracts one**, also from zero. -/
theorem toInt_decrement (canonical : v.Canonical) (made : v.decrement limit shared = .ok w) :
    w.toInt = v.toInt - 1 := by
  have made := liftAllocation_eq_ok_iff.mp made
  split at made
  · rename_i away
    obtain ⟨digits, stepped, rfl⟩ := map_eq_ok_iff.mp made
    have more := Digits.toNat_of_stepUp stepped
    rw [toInt_ofCanonical, if_pos rfl]
    rcases Bool.or_eq_true_iff.mp away with negative | zero
    · rw [toInt, if_pos negative]
      omega
    · rw [toInt, List.isEmpty_iff.mp zero] at *
      rw [Digits.toNat_nil] at more ⊢
      split <;> omega
  · rename_i positive
    obtain ⟨negative, nonzero⟩ := Bool.or_eq_false_iff.mp (Bool.not_eq_true _ ▸ positive)
    obtain ⟨digits, stepped, rfl⟩ := map_eq_ok_iff.mp made
    have some := canonical.1.toNat_pos (List.isEmpty_eq_false_iff.mp nonzero)
    have less := Digits.toNat_of_stepDown some stepped
    rw [toInt_ofCanonical, toInt, if_neg Bool.false_ne_true, negative, if_neg Bool.false_ne_true]
    omega

end Integer

/-! ### Registers -/

/-- A slot whose block counts one owner is alone on it. -/
theorem Pool.Counted.sameBlock_eq_false {p : Pool} (counted : p.Counted) {slot s : Nat}
    (unshared : p.isShared slot = false) (apart : s ≠ slot) : p.sameBlock slot s = false := by
  refine Bool.eq_false_iff.mpr fun same => apart ?_
  obtain ⟨block, owned, other⟩ := sameBlock_iff.mp same
  exact counted.sole unshared owned other

namespace Registers

/-- Blocks count their owners, and every slot has a sign. -/
structure WellFormed (rs : Registers) : Prop where
  counted : rs.pool.Counted
  signs : rs.negative.length = rs.pool.slots.length

/-! ### Room -/

/-- A step fails exactly if the room that it asks for is refused, and with that refusal. -/
theorem increment_asks (limit : Nat) (shared : Bool) (v : Integer) :
    ((v.increment limit shared).map fun _ => ()).mapError StepError.arithmetic =
      (Storage.request limit (v.digits.stepRoom shared !v.negative)).mapError fun cause =>
        .arithmetic (.allocation cause) := by
  unfold Integer.increment
  cases v.negative with
  | true =>
      rw [Bool.not_true, ← Digits.stepDown_asks]
      cases v.digits.stepDown limit shared <;> rfl
  | false =>
      rw [Bool.not_false, ← Digits.stepUp_asks]
      cases v.digits.stepUp limit shared <;> rfl

theorem decrement_asks (limit : Nat) (shared : Bool) (v : Integer) :
    ((v.decrement limit shared).map fun _ => ()).mapError StepError.arithmetic =
      (Storage.request limit (v.digits.stepRoom shared (v.negative || v.isZero))).mapError
        fun cause => .arithmetic (.allocation cause) := by
  unfold Integer.decrement
  cases v.negative || v.isZero with
  | true =>
      rw [← Digits.stepUp_asks]
      cases v.digits.stepUp limit shared <;> rfl
  | false =>
      rw [← Digits.stepDown_asks]
      cases v.digits.stepDown limit shared <;> rfl

/-! ### Steps -/

/-- What a step of one on register `r` should do. It asks for `room`, and makes the integer with the
value `next`, which is what `checked` has for the same step. -/
structure Stepped (rs : Registers) (limit r room : Nat) (next : Int)
    (checked : Nat → Operand → Except ArithmeticError Integer) (done : Result) : Prop where
  asks : done.1 = (Storage.request limit room).mapError fun cause =>
    .arithmetic (.allocation cause)
  made : done.1 = .ok () → ∃ w, done.2.value? r = some w ∧ w.Canonical ∧ w.toInt = next ∧
    ∀ limit' one u, one.Canonical → one.toInteger.toInt = 1 → checked limit' one = .ok u → w = u
  alone : done.1 = .ok () → done.2.pool.isShared r = false ∧
    ∀ s, s ≠ r → done.2.pool.sameBlock r s = false
  refused : ∀ e, done.1 = .error e → done.2 = rs
  others : ∀ s, s ≠ r → done.2.value? s = rs.value? s

theorem InPlace.stepped {rs : Registers} {limit r room : Nat} {next : Int} {v : Integer}
    {checked : Nat → Operand → Except ArithmeticError Integer}
    {result : Except ArithmeticError Integer} {done : Result} (inPlace : rs.InPlace r result done)
    (wellFormed : rs.WellFormed) (found : rs.value? r = some v)
    (asks : (result.map fun _ => ()).mapError StepError.arithmetic =
      (Storage.request limit room).mapError fun cause => .arithmetic (.allocation cause))
    (exact : ∀ w, result = .ok w → w.Canonical ∧ w.toInt = next)
    (agrees : ∀ limit' one u, one.Canonical → one.toInteger.toInt = 1 →
      checked limit' one = .ok u → u.Canonical ∧ u.toInt = next) :
    rs.Stepped limit r room next checked done := by
  obtain ⟨answer, after⟩ := done
  obtain rfl := inPlace.answer
  cases result with
  | error e =>
      obtain rfl := inPlace.refused e rfl
      exact ⟨asks, nofun, nofun, fun _ _ => rfl, fun _ _ => rfl⟩
  | ok w =>
      obtain ⟨q, rfl, wrote, unshared⟩ := inPlace.wrote w rfl
      obtain ⟨canonical, value⟩ := exact w rfl
      obtain ⟨block, owned⟩ := Pool.owned?_of_shown? (shown_of_value? found).1
      have inRange : r < rs.negative.length :=
        wellFormed.signs ▸ Pool.lt_length_of_owned? owned
      have values := Mirrors.value?_changed inRange wrote.shown
      refine ⟨asks, fun _ => ⟨w, (values r).trans (if_pos rfl), canonical, value, ?_⟩,
        fun _ => ⟨unshared, fun s apart => wrote.counted.sameBlock_eq_false unshared apart⟩, nofun,
        fun s apart => (values s).trans (if_neg apart)⟩
      intro limit' one u right unit made
      obtain ⟨canonical', value'⟩ := agrees limit' one u right unit made
      exact canonical.eq_of_toInt_eq canonical' (value.trans value'.symm)

end Registers

theorem Mirrors.wellFormed {limit : Nat} {rs : Registers} {m : Privates}
    (mirrors : Mirrors limit rs m) : rs.WellFormed where
  counted := mirrors.counted
  signs := mirrors.signs.trans mirrors.slots.symm

/-- **A step of one is exact, private and atomic**, whoever shares the digits and however many there
are. It makes what general arithmetic would, in a block that no other register owns, or is refused
the room that it asks for and changes nothing; other registers never see it. -/
theorem steps_atomic {rs : Registers} {r : Nat} {v : Integer} (wellFormed : rs.WellFormed)
    (found : rs.value? r = some v) (canonical : v.Canonical) (limit : Nat) :
    rs.Stepped limit r (v.digits.stepRoom (rs.pool.isShared r) !v.negative) (v.toInt + 1)
        (fun limit' one => v.add limit' one) (rs.increment limit r) ∧
      rs.Stepped limit r (v.digits.stepRoom (rs.pool.isShared r) (v.negative || v.isZero))
        (v.toInt - 1) (fun limit' one => v.sub limit' one) (rs.decrement limit r) := by
  constructor
  · refine (Registers.increment_inPlace limit wellFormed.counted found).stepped wellFormed found
      (Registers.increment_asks limit _ v)
      (fun w made => ⟨canonical.increment made, Integer.toInt_increment canonical made⟩) ?_
    intro limit' one u right unit made
    refine ⟨canonical.addSigned right.normalize.1 (liftAllocation_eq_ok_iff.mp made), ?_⟩
    rw [Integer.toInt_add canonical right made, unit]
  · refine (Registers.decrement_inPlace limit wellFormed.counted found).stepped wellFormed found
      (Registers.decrement_asks limit _ v)
      (fun w made => ⟨canonical.decrement made, Integer.toInt_decrement canonical made⟩) ?_
    intro limit' one u right unit made
    refine ⟨canonical.addSigned right.normalize.1 (liftAllocation_eq_ok_iff.mp made), ?_⟩
    rw [Integer.toInt_sub canonical right made, unit]

/-- One more than the largest digits that two registers share: refused the digit that is carried,
and with it. -/
theorem steps_atomic_carried :
    let largest : Integer := { negative := false, digits := [Digit.max, Digit.max] }
    let rs := RegisterOp.runAll 65536 [.set 0 largest, .clone 1 0] (.empty 2)
    rs.WellFormed ∧ rs.value? 1 = some largest ∧ largest.Canonical ∧
      (rs.increment 3 1).1 = .error (.arithmetic (.allocation { requested := 3 })) ∧
      (rs.increment 3 1).2 = rs ∧
      (rs.increment 4 1).2.value? 1 = some { negative := false, digits := [0, 0, 1] } ∧
      (rs.increment 4 1).2.value? 0 = some largest ∧
      (rs.increment 4 1).2.pool.sameBlock 1 0 = false := by
  intro largest rs
  have ready : RegisterOp.ReadyAll 65536 [.set 0 largest, .clone 1 0] (List.replicate 2 none) := by
    decide
  have wellFormed : rs.WellFormed := ((Mirrors.empty 65536 2).runAll (by decide) ready).wellFormed
  have found : rs.value? 1 = some largest := by decide
  have canonical : largest.Canonical := by decide
  have refused : (rs.increment 3 1).1 = .error (.arithmetic (.allocation { requested := 3 })) := by
    decide
  have granted : (rs.increment 4 1).1 = .ok () := by decide
  obtain ⟨unchanged, -⟩ := steps_atomic wellFormed found canonical 3
  obtain ⟨stepped, -⟩ := steps_atomic wellFormed found canonical 4
  have shown : (rs.increment 4 1).2.value? 1 = some { negative := false, digits := [0, 0, 1] } := by
    decide
  have other : rs.value? 0 = some largest := by decide
  exact ⟨wellFormed, found, canonical, refused, unchanged.refused _ refused, shown,
    (stepped.others 0 Nat.zero_ne_one).trans other, (stepped.alone granted).2 0 Nat.zero_ne_one⟩

end Bignum
