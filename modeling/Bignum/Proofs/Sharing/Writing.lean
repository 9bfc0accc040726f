import Bignum.Proofs.Digits.Sum
import Bignum.Proofs.Integer.Canonical
import Bignum.Proofs.Sharing.Pool
import Bignum.Sharing.Registers

/-!
Writing to a slot shows in that slot only.

A write first makes the slot the single owner of its block. `Pool.Wrote` says what then holds: the
slot shows the new digits, all others show what they did, no two slots come to share a block, and
the slot shares its own with nobody.

* `exclusive_refused`, `exclusive_granted`: moving away from a shared block, with its refusals.
* `Pool.Writes`: a write that may be refused, and then changes nothing. Once a slot has its block to
  itself, further writes are not refused any more (`Writes.andThen`).
* `stepUp_writes`, `stepDown_writes`: the two steps of one in place, each made of two writes.
* `Registers.increment_inPlace`, `Registers.decrement_inPlace`: with its sign, a step on a register
  is one on the integer in it.
-/

namespace Bignum

namespace Pool

/-! ### One slot written -/

/-- `q` shows `digits` in a slot and is like `p` in all others. -/
structure Wrote (p : Pool) (slot : Nat) (digits : Digits) (q : Pool) : Prop where
  counted : q.Counted
  length : q.slots.length = p.slots.length
  shown : ∀ s, q.shown? s = if s = slot then some digits else p.shown? s
  /-- Slots that own one block owned one before. -/
  parted : ∀ s t, s ≠ t → q.sameBlock s t = true → p.sameBlock s t = true

namespace Wrote

variable {p q r : Pool} {slot : Nat} {digits digits' : Digits}

theorem self (wrote : p.Wrote slot digits q) : q.shown? slot = some digits :=
  (wrote.shown slot).trans (if_pos rfl)

theorem refl (counted : p.Counted) (shown : p.shown? slot = some digits) :
    p.Wrote slot digits p where
  counted := counted
  length := rfl
  shown := by
    intro s
    split
    · rename_i same
      rw [same, shown]
    · rfl
  parted := fun _ _ _ same => same

theorem trans (first : p.Wrote slot digits q) (second : q.Wrote slot digits' r) :
    p.Wrote slot digits' r where
  counted := second.counted
  length := second.length.trans first.length
  shown := by
    intro s
    rw [second.shown, first.shown]
    split <;> rfl
  parted := fun s t apart same => first.parted s t apart (second.parted s t apart same)

end Wrote

section Writes

variable {limit slot additional : Nat} {p : Pool} {digits : Digits}

theorem sameBlock_iff {s t : Nat} :
    p.sameBlock s t = true ↔ ∃ block, p.owned? s = some block ∧ p.owned? t = some block := by
  unfold sameBlock
  cases p.owned? s with
  | none => simp
  | some block =>
      cases p.owned? t with
      | none => simp
      | some other =>
          constructor
          · intro same
            have equal : some block = some other := eq_of_beq same
            exact ⟨block, rfl, equal.symm⟩
          · rintro ⟨_, first, second⟩
            rw [first, second]
            exact beq_self_eq_true _

theorem wrote_place (counted : p.Counted) (inRange : slot < p.slots.length) :
    p.Wrote slot digits (p.place slot digits) where
  counted := counted.place digits inRange
  length := length_slots_place digits
  shown := shown?_place digits inRange counted
  parted := by
    intro s t apart same
    obtain ⟨block, left, right⟩ := sameBlock_iff.mp same
    rw [owned?_place digits inRange] at left right
    refine sameBlock_iff.mpr ⟨block, ?_⟩
    -- A new block is behind one slot, and `s` and `t` are two.
    split at left <;> split at right
    · rename_i leftHere rightHere
      exact absurd (leftHere.trans rightHere.symm) apart
    · obtain rfl := Option.some.inj left
      exact absurd (counted.placed t _ right) (Nat.lt_irrefl _)
    · obtain rfl := Option.some.inj right
      exact absurd (counted.placed s _ left) (Nat.lt_irrefl _)
    · exact ⟨left, right⟩

/-- Placed digits have one owner. -/
theorem isShared_place (inRange : slot < p.slots.length) :
    (p.place slot digits).isShared slot = false := by
  have owned : (p.place slot digits).owned? slot = some p.blocks.length :=
    (owned?_place digits inRange slot).trans (if_pos rfl)
  have one : (p.place slot digits).owners slot = 1 := by
    unfold owners block?
    rw [owned]
    simp [place]
  rw [isShared, one]
  rfl

theorem wrote_overwrite (counted : p.Counted) (unshared : p.isShared slot = false)
    (shown : p.shown? slot = some digits) (f : Digits → Digits) :
    p.Wrote slot (f digits) (p.overwrite slot f) where
  counted := counted.overwrite f
  length := congrArg List.length (slots_overwrite f)
  shown := shown?_overwrite f counted unshared shown
  parted := by
    intro s t _ same
    obtain ⟨block, left, right⟩ := sameBlock_iff.mp same
    rw [owned?_overwrite] at left right
    exact sameBlock_iff.mpr ⟨block, left, right⟩

theorem isShared_overwrite (f : Digits → Digits) :
    (p.overwrite slot f).isShared slot = p.isShared slot := by
  have same : (p.overwrite slot f).owners slot = p.owners slot := by
    unfold owners block?
    rw [owned?_overwrite]
    cases owned : p.owned? slot with
    | none => rfl
    | some own =>
        simp only [Option.bind_some, getElem?_blocks_overwrite f owned, if_true]
        cases p.blocks[own]? <;> rfl
  rw [isShared, same, isShared]

/-! ### Becoming the only owner -/

/-- A refusal leaves the pool as it was. -/
theorem exclusive_refused {cause : AllocationError}
    (refused : (p.exclusive limit slot additional).1 = .error cause) :
    (p.exclusive limit slot additional).2 = p := by
  simp only [exclusive] at refused ⊢
  split
  · rename_i shared
    rw [if_pos shared] at refused
    cases granted : Storage.request limit ((p.digits slot).length + additional) with
    | error cause => rfl
    | ok _ =>
        rw [granted] at refused
        simp only [Storage.extend] at refused
        split at refused
        · cases refused
        · rw [granted] at refused
          cases refused
  · rfl

/-- Once it is granted, the slot has the same digits to itself. -/
theorem exclusive_granted (counted : p.Counted) (shown : p.shown? slot = some digits)
    (granted : (p.exclusive limit slot additional).1 = .ok ()) :
    p.Wrote slot digits (p.exclusive limit slot additional).2 ∧
      (p.exclusive limit slot additional).2.isShared slot = false := by
  obtain ⟨block, owned⟩ := owned?_of_shown? shown
  have inRange := lt_length_of_owned? owned
  simp only [exclusive] at granted ⊢
  split
  · rename_i shared
    rw [if_pos shared] at granted
    cases room : Storage.request limit ((p.digits slot).length + additional) with
    | error cause =>
        rw [room] at granted
        cases granted
    | ok _ =>
        simp only [digits_eq shown]
        exact ⟨wrote_place counted inRange, isShared_place inRange⟩
  · rename_i unshared
    exact ⟨.refl counted shown, Bool.not_eq_true _ ▸ unshared⟩

/-- A shared slot asks for a copy with the room in it, and one of its own for the room only. -/
theorem exclusive_answer (shown : p.shown? slot = some digits) :
    (p.exclusive limit slot additional).1 =
      if p.isShared slot then Storage.request limit (digits.length + additional)
      else Storage.extend limit digits.length additional := by
  simp only [exclusive, digits_eq shown]
  split
  · cases room : Storage.request limit (digits.length + additional) with
    | error cause => rfl
    | ok _ =>
        simp only [Storage.extend]
        split
        · rfl
        · exact room
  · rfl

end Writes

/-! ### Writes that may be refused -/

/-- A write that is granted with `result`: the slot then shows it in a block of its own. A write
that is refused changes nothing. -/
structure Writes (p : Pool) (slot : Nat) (result : Except AllocationError Digits) (grant : Grant) :
    Prop where
  answer : grant.1 = result.map fun _ => ()
  refused : ∀ cause, result = .error cause → grant.2 = p
  wrote : ∀ digits, result = .ok digits →
    p.Wrote slot digits grant.2 ∧ grant.2.isShared slot = false

section Writes

variable {limit slot : Nat} {p q : Pool} {digits : Digits} {grant : Grant}

/-- A write that is not refused. -/
theorem Writes.done (wrote : p.Wrote slot digits q) (unshared : q.isShared slot = false) :
    p.Writes slot (.ok digits) (.ok (), q) where
  answer := rfl
  refused := by
    intro cause impossible
    cases impossible
  wrote := by
    intro _ same
    exact Except.ok.inj same ▸ ⟨wrote, unshared⟩

/-- Once a slot has its block to itself, what follows there cannot be refused any more. -/
theorem Writes.andThen {result : Except AllocationError Digits} {next : Pool → Grant}
    {f : Digits → Digits} (first : p.Writes slot result grant)
    (second : ∀ (q : Pool) digits, q.Counted → q.shown? slot = some digits →
      q.isShared slot = false → q.Writes slot (.ok (f digits)) (next q)) :
    p.Writes slot (result.map f) (grant.andThen next) := by
  have answer := first.answer
  cases result with
  | error cause =>
      simp only [Grant.andThen, answer, Except.map]
      exact ⟨rfl, fun _ _ => first.refused cause rfl, nofun⟩
  | ok digits =>
      obtain ⟨wrote, unshared⟩ := first.wrote digits rfl
      have last := second grant.2 digits wrote.counted wrote.self unshared
      obtain ⟨again, alone⟩ := last.wrote _ rfl
      simp only [Grant.andThen, answer, Except.map]
      refine ⟨last.answer, nofun, fun _ same => ?_⟩
      exact Except.ok.inj same ▸ ⟨wrote.trans again, alone⟩

/-- A slot with a block of its own is rewritten in place. -/
theorem overwrite_writes (counted : p.Counted) (shown : p.shown? slot = some digits)
    (unshared : p.isShared slot = false) (f : Digits → Digits) :
    p.Writes slot (.ok (f digits)) (.ok (), p.overwrite slot f) :=
  .done (wrote_overwrite counted unshared shown f) ((isShared_overwrite f).trans unshared)

theorem Writes.thenOverwrite {result : Except AllocationError Digits}
    (first : p.Writes slot result grant) (f : Digits → Digits) :
    p.Writes slot (result.map f) (grant.thenChange (overwrite slot f)) :=
  first.andThen fun _ _ counted shown unshared => overwrite_writes counted shown unshared f

variable (limit : Nat) (counted : p.Counted) (shown : p.shown? slot = some digits)

include counted shown

theorem exclusive_writes (additional : Nat) :
    p.Writes slot ((p.exclusive limit slot additional).1.map fun _ => digits)
      (p.exclusive limit slot additional) := by
  cases answer : (p.exclusive limit slot additional).1 with
  | error cause => exact ⟨answer, fun _ _ => exclusive_refused answer, nofun⟩
  | ok _ =>
      refine ⟨answer, nofun, fun _ same => ?_⟩
      exact Except.ok.inj same ▸ exclusive_granted counted shown answer

/-- Digits are added at the top once there is room for all of them. -/
theorem append_writes {count : Nat} (nonzero : count ≠ 0) (digit : Digit) :
    p.Writes slot ((Storage.request limit (digits.length + count)).map fun _ =>
      digits ++ List.replicate count digit) (p.append limit slot count digit) := by
  have answer :
      (p.exclusive limit slot count).1 = Storage.request limit (digits.length + count) := by
    rw [exclusive_answer shown, Storage.extend, if_neg nonzero, ite_self]
  have writes := (exclusive_writes limit counted shown count).thenOverwrite
    (· ++ List.replicate count digit)
  rw [answer, map_map] at writes
  rw [append, if_neg nonzero]
  exact writes

/-- An edit in place asks for a copy of a shared block, and for nothing otherwise. -/
theorem edit_writes (f : Digits → Digits) :
    p.Writes slot ((Storage.request limit (if p.isShared slot then digits.length else 0)).map
      fun _ => f digits) (p.edit limit slot f) := by
  have answer : (p.exclusive limit slot 0).1 =
      Storage.request limit (if p.isShared slot then digits.length else 0) := by
    rw [exclusive_answer shown]
    cases p.isShared slot <;> rfl
  have writes := (exclusive_writes limit counted shown 0).thenOverwrite f
  rw [answer, map_map] at writes
  exact writes

variable (unshared : p.isShared slot = false)

include unshared

theorem edit_writes_alone (f : Digits → Digits) :
    p.Writes slot (.ok (f digits)) (p.edit limit slot f) := by
  have writes := edit_writes limit counted shown f
  rw [unshared] at writes
  exact writes

/-- A slot with a block of its own is trimmed in place. -/
theorem trim_writes : p.Writes slot (.ok digits.trim) (p.trim limit slot) := by
  simp only [trim, truncate, digits_eq shown, unshared]
  split
  · rename_i whole
    have same : digits.trim = digits := by
      rw [Digits.trim, List.take_of_length_le whole]
    rw [same]
    exact .done (.refl counted shown) unshared
  · exact overwrite_writes counted shown unshared (·.take digits.significantLength)

end Writes

end Pool

/-! ### Steps of one in place -/

namespace Registers

open Pool

variable {slot : Nat} {p : Pool} {digits : Digits}

/-- A step away from zero in place is one on the digits alone. -/
theorem stepUp_writes (limit : Nat) (counted : p.Counted) (shown : p.shown? slot = some digits) :
    p.Writes slot (digits.stepUp limit (p.isShared slot)) (stepUp limit slot p) := by
  unfold stepUp Digits.stepUp Digits.widened
  simp only [digits_eq shown]
  split
  · have grown := append_writes limit counted shown Nat.one_ne_zero 0
    have writes := grown.andThen fun _ _ counted shown unshared =>
      edit_writes_alone limit counted shown unshared fun ds => (Digits.increment ds).1
    rw [map_map] at writes
    exact writes
  · exact edit_writes limit counted shown fun ds => (Digits.increment ds).1

/-- A step toward zero in place is one on the digits alone: what it trims away was its own. -/
theorem stepDown_writes (limit : Nat) (counted : p.Counted) (shown : p.shown? slot = some digits) :
    p.Writes slot (digits.stepDown limit (p.isShared slot)) (stepDown limit slot p) := by
  have writes := (edit_writes limit counted shown Digits.decrement).andThen
    fun _ _ counted shown unshared => trim_writes limit counted shown unshared
  rw [map_map] at writes
  exact writes

/-! ### Steps of one on registers -/

theorem value?_eq (rs : Registers) (r : Nat) :
    rs.value? r = (rs.pool.shown? r).map fun digits =>
      { negative := rs.isNegative r, digits := digits } := by
  unfold value? Pool.shown?
  cases rs.pool.block? r <;> rfl

theorem shown_of_value? {rs : Registers} {r : Nat} {v : Integer} (found : rs.value? r = some v) :
    rs.pool.shown? r = some v.digits ∧ rs.isNegative r = v.negative := by
  rw [value?_eq] at found
  obtain ⟨digits, shown, rfl⟩ := Option.map_eq_some_iff.mp found
  exact ⟨shown, rfl⟩

/-- A step on one register, which follows a calculation on integers: its register gets the result,
in a block of its own, or the registers are what they were. -/
structure InPlace (rs : Registers) (r : Nat) (result : Except ArithmeticError Integer)
    (done : Result) : Prop where
  answer : done.1 = (result.map fun _ => ()).mapError .arithmetic
  wrote : ∀ v, result = .ok v → ∃ q,
    done.2 = { pool := q, negative := rs.negative.set r v.negative } ∧
      rs.pool.Wrote r v.digits q ∧ q.isShared r = false
  refused : ∀ e, result = .error e → done.2 = rs

section InPlace

variable {r : Nat} {rs : Registers} {v : Integer}

/-- A write with a sign is a step. -/
theorem stepWith_inPlace {grant : Grant} {result : Except AllocationError Digits}
    {sign : Pool → Bool} {negative : Bool} (writes : rs.pool.Writes r result grant)
    (signed : ∀ stepped, result = .ok stepped →
      sign grant.2 = (Integer.ofCanonical negative stepped).negative) :
    rs.InPlace r (liftAllocation (result.map (Integer.ofCanonical negative)))
      (rs.stepWith r grant sign) := by
  have answer := writes.answer
  cases result with
  | error cause =>
      have same : rs.stepWith r grant sign = (.error (.arithmetic (.allocation cause)), rs) := by
        simp only [stepWith, answer, writes.refused cause rfl]
        rfl
      rw [same]
      exact ⟨rfl, nofun, fun _ _ => rfl⟩
  | ok stepped =>
      obtain ⟨wrote, unshared⟩ := writes.wrote stepped rfl
      have same : rs.stepWith r grant sign =
          (.ok (), { pool := grant.2,
                     negative := rs.negative.set r
                       (Integer.ofCanonical negative stepped).negative }) := by
        simp only [stepWith, answer, signed stepped rfl]
        rfl
      rw [same]
      refine ⟨rfl, fun _ made => ?_, nofun⟩
      exact Except.ok.inj made ▸ ⟨grant.2, rfl, wrote, unshared⟩

variable (limit : Nat) (counted : rs.pool.Counted)

include counted

/-- A step away from zero, after which there is a digit to put a sign to. -/
theorem stepUp_inPlace (shown : rs.pool.shown? r = some digits) (negative : Bool) :
    rs.InPlace r (liftAllocation
        ((digits.stepUp limit (rs.pool.isShared r)).map (Integer.ofCanonical negative)))
      (rs.stepWith r (stepUp limit r rs.pool) fun _ => negative) := by
  refine stepWith_inPlace (stepUp_writes limit counted shown) fun stepped made => ?_
  rw [Integer.ofCanonical, List.isEmpty_eq_false_iff.mpr (Digits.stepUp_ne_nil made),
    Bool.not_false, Bool.and_true]

/-- A step toward zero, which takes the sign away with the last digit. -/
theorem stepDown_inPlace (shown : rs.pool.shown? r = some digits) {negative : Bool}
    {sign : Pool → Bool} (signed : ∀ q, sign q = (negative && !(q.digits r).isEmpty)) :
    rs.InPlace r (liftAllocation
        ((digits.stepDown limit (rs.pool.isShared r)).map (Integer.ofCanonical negative)))
      (rs.stepWith r (stepDown limit r rs.pool) sign) := by
  have writes := stepDown_writes limit counted shown
  refine stepWith_inPlace writes fun stepped made => ?_
  rw [signed, digits_eq (writes.wrote stepped made).1.self]
  rfl

variable (found : rs.value? r = some v)

include found

/-- **A step up in place** is one on the integer alone. -/
theorem increment_inPlace :
    rs.InPlace r (v.increment limit (rs.pool.isShared r)) (rs.increment limit r) := by
  obtain ⟨shown, sign⟩ := shown_of_value? found
  unfold increment Integer.increment
  rw [sign]
  split
  · exact stepDown_inPlace limit counted shown fun q => (Bool.true_and _).symm
  · exact stepUp_inPlace limit counted shown false

/-- **A step down in place** is one on the integer alone. -/
theorem decrement_inPlace :
    rs.InPlace r (v.decrement limit (rs.pool.isShared r)) (rs.decrement limit r) := by
  obtain ⟨shown, sign⟩ := shown_of_value? found
  unfold decrement Integer.decrement Integer.isZero
  rw [sign, digits_eq shown]
  split
  · exact stepUp_inPlace limit counted shown true
  · exact stepDown_inPlace limit counted shown fun q => (Bool.false_and _).symm

end InPlace

end Registers

end Bignum
