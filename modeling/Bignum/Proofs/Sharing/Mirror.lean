import Bignum.Proofs.Integer.Room
import Bignum.Proofs.Sharing.Private
import Bignum.Proofs.Sharing.Writing

/-!
Registers that share digits behave like registers that do not.

`Mirrors` ties the registers on a pool to a plain machine in which each holds an integer of its own.
Every step keeps that, answers the same on both sides and, when it fails, changes nothing.

* `Mirrors.wrote`, `Mirrors.share`: one register written, and one made an owner of another's block.
* `RegisterOp.agrees`: one step, of any kind.
* `registers_mirror`: every run, with what the counts of owners are and which steps can make two
  registers share a block.
* `exchange_shares`: an exchange takes what a register shares along, so that two registers may share
  a block after it that did not before.
-/

namespace Bignum

/-- The registers on a pool show what a plain machine holds, in canonical form and with room to
copy it. -/
structure Mirrors (limit : Nat) (rs : Registers) (m : Privates) : Prop where
  counted : rs.pool.Counted
  slots : rs.pool.slots.length = m.length
  signs : rs.negative.length = m.length
  values : ∀ r, rs.value? r = m.value? r
  canonical : ∀ r v, m.value? r = some v → v.Canonical ∧ v.digits.length < limit

namespace Mirrors

variable {limit : Nat} {rs : Registers} {m : Privates} {r target source : Nat} {v w : Integer}

/-! ### Looking -/

theorem held_eq (held : m.Holds r) : m.value? r = some (m.valueAt r) := by
  obtain ⟨v, found⟩ := Option.isSome_iff_exists.mp held
  rw [Privates.valueAt, found, Option.getD_some]

theorem lt_length_of_value? (found : m.value? r = some v) : r < m.length := by
  by_contra beyond
  rw [Privates.value?, List.getElem?_eq_none (Nat.le_of_not_lt beyond)] at found
  cases found

theorem shown (mirrors : Mirrors limit rs m) (found : m.value? r = some v) :
    rs.pool.shown? r = some v.digits ∧ rs.isNegative r = v.negative :=
  Registers.shown_of_value? ((mirrors.values r).trans found)

theorem valueAt_eq (mirrors : Mirrors limit rs m) (r : Nat) :
    RegisterOp.valueAt rs r = m.valueAt r := by
  rw [RegisterOp.valueAt, mirrors.values, Privates.valueAt]

theorem rightSide_eq (mirrors : Mirrors limit rs m) (rhs : RightSide) :
    RegisterOp.rightSide rs rhs = m.rightSide rhs := by
  cases rhs with
  | register r => exact congrArg Operand.big (mirrors.valueAt_eq r)
  | operand b => rfl

theorem rightSide_canonical (mirrors : Mirrors limit rs m) {rhs : RightSide}
    (ready : rhs.Ready m) : (m.rightSide rhs).Canonical := by
  cases rhs with
  | register r => exact (mirrors.canonical r _ (held_eq ready)).1
  | operand b => exact ready

/-! ### One register changed -/

theorem isNegative_set (signs : List Bool) (inRange : target < signs.length) (negative : Bool)
    (r : Nat) :
    (signs.set target negative).getD r false =
      if r = target then negative else signs.getD r false := by
  rw [List.getD_eq_getElem?_getD, List.getD_eq_getElem?_getD]
  split
  · rename_i same
    rw [same, List.getElem?_set_self inRange, Option.getD_some]
  · rename_i other
    rw [List.getElem?_set_ne (Ne.symm other)]

theorem value?_set (inRange : target < m.length) (new : Option Integer) (r : Nat) :
    Privates.value? (m.set target new) r = if r = target then new else m.value? r := by
  unfold Privates.value?
  split
  · rename_i same
    rw [same, List.getElem?_set_self inRange, Option.join_some]
  · rename_i other
    rw [List.getElem?_set_ne (Ne.symm other)]

/-- Any way to make a pool show new digits in one register, with a sign, changes that one alone. -/
theorem value?_changed (inRange : target < rs.negative.length) {q : Pool}
    (shown : ∀ s, q.shown? s = if s = target then some w.digits else rs.pool.shown? s) (r : Nat) :
    Registers.value? { pool := q, negative := rs.negative.set target w.negative } r =
      if r = target then some w else rs.value? r := by
  have sign := isNegative_set rs.negative inRange w.negative r
  rw [Registers.value?_eq, shown]
  simp only [Registers.isNegative, sign]
  split
  · rfl
  · rw [Registers.value?_eq]
    rfl

/-- On the plain machine that is a `put`. -/
theorem changed (mirrors : Mirrors limit rs m) (inRange : target < m.length) {q : Pool}
    (counted : q.Counted) (length : q.slots.length = rs.pool.slots.length)
    (shown : ∀ s, q.shown? s = if s = target then some w.digits else rs.pool.shown? s)
    (good : w.Canonical ∧ w.digits.length < limit) :
    Mirrors limit { pool := q, negative := rs.negative.set target w.negative }
      (m.put target w) where
  counted := counted
  slots := by
    rw [length, mirrors.slots, Privates.put, List.length_set]
  signs := by
    rw [List.length_set, mirrors.signs, Privates.put, List.length_set]
  values := by
    intro r
    rw [value?_changed (mirrors.signs ▸ inRange) shown, Privates.put, value?_set inRange,
      mirrors.values]
  canonical := by
    intro r v found
    rw [Privates.put, value?_set inRange] at found
    split at found
    · exact Option.some.inj found ▸ good
    · exact mirrors.canonical r v found

theorem wrote (mirrors : Mirrors limit rs m) (inRange : target < m.length) {q : Pool}
    (wrote : rs.pool.Wrote target w.digits q) (good : w.Canonical ∧ w.digits.length < limit) :
    Mirrors limit { pool := q, negative := rs.negative.set target w.negative } (m.put target w) :=
  mirrors.changed inRange wrote.counted wrote.length wrote.shown good

theorem place (mirrors : Mirrors limit rs m) (inRange : target < m.length)
    (good : w.Canonical ∧ w.digits.length < limit) :
    Mirrors limit (rs.place target w) (m.put target w) :=
  mirrors.wrote inRange (Pool.wrote_place mirrors.counted (mirrors.slots.symm ▸ inRange)) good

theorem share (mirrors : Mirrors limit rs m) (inRange : target < m.length)
    (found : m.value? source = some v) (digits : w.digits = v.digits) (canonical : w.Canonical) :
    Mirrors limit (rs.shareAs source target w.negative) (m.put target w) := by
  have shown := (mirrors.shown found).1
  obtain ⟨own, owned⟩ := Pool.owned?_of_shown? shown
  have inPool : target < rs.pool.slots.length := mirrors.slots.symm ▸ inRange
  refine mirrors.changed inRange (mirrors.counted.share owned inPool) ?_ ?_
    ⟨canonical, digits ▸ (mirrors.canonical source v found).2⟩
  · rw [Pool.slots_share owned inPool, List.length_set]
  · intro s
    rw [Pool.shown?_share owned inPool, shown, digits]

/-- The digits of a canonical integer are all significant: when they are shared and then trimmed,
trimming drops none and asks for nothing. -/
theorem trim_share (mirrors : Mirrors limit rs m) (inRange : target < m.length)
    (found : m.value? source = some v) :
    (rs.pool.share source target).digits target = v.digits ∧
      (rs.pool.share source target).trim limit target =
        (.ok (), rs.pool.share source target) := by
  have canonical := (mirrors.canonical source v found).1
  have shared := mirrors.share inRange found rfl canonical
  have digits : (rs.pool.share source target).digits target = v.digits :=
    Pool.digits_eq (shared.shown ((value?_set inRange _ target).trans (if_pos rfl))).1
  have long : v.digits.length ≤ v.digits.significantLength := by
    have length := congrArg List.length canonical.1.trim_eq
    rw [Digits.trim, List.length_take] at length
    omega
  refine ⟨digits, ?_⟩
  simp only [Pool.trim, Pool.truncate, digits, if_pos long]

end Mirrors

/-! ### Steps -/

/-- A step on shared registers does what it does on the plain machine. Registers share a block
afterwards only if they did before, where an exchange moved them from, or if the step may share. -/
structure Agrees (limit : Nat) (rs : Registers) (m : Privates) (origin : Nat → Nat)
    (shares : Prop) (done : Registers.Result) (plain : Privates.Result) : Prop where
  answer : done.1 = plain.1
  mirrors : Mirrors limit done.2 plain.2
  refused : ∀ e, done.1 = .error e → done.2 = rs
  parted : ∀ r s, r ≠ s → done.2.pool.sameBlock r s = true →
    rs.pool.sameBlock (origin r) (origin s) = true ∨ shares

namespace Agrees

variable {limit : Nat} {rs : Registers} {m : Privates} {shares : Prop} {target source : Nat}
  {v w : Integer}

/-- A step that fails and changes nothing. -/
theorem failed (mirrors : Mirrors limit rs m) (cause : StepError) :
    Agrees limit rs m id shares (.error cause, rs) (.error cause, m) where
  answer := rfl
  mirrors := mirrors
  refused := by
    intro e _
    rfl
  parted := by
    intro r s _ same
    exact .inl same

/-- A step that succeeds on both sides. -/
theorem done {origin : Nat → Nat} {after : Registers} {plain : Privates}
    (mirrors : Mirrors limit after plain)
    (parted : ∀ r s, r ≠ s → after.pool.sameBlock r s = true →
      rs.pool.sameBlock (origin r) (origin s) = true ∨ shares) :
    Agrees limit rs m origin shares (.ok (), after) (.ok (), plain) where
  answer := rfl
  mirrors := mirrors
  refused := by
    intro e impossible
    cases impossible
  parted := parted

/-- A result is put into a block of its own, or not at all. -/
theorem placeResult (mirrors : Mirrors limit rs m) (inRange : target < m.length)
    (result : Except ArithmeticError Integer)
    (good : ∀ v, result = .ok v → v.Canonical ∧ v.digits.length < limit) :
    Agrees limit rs m id shares (RegisterOp.placeResult target result rs)
      (m.putResult target result) := by
  cases result with
  | error cause => exact failed mirrors _
  | ok v =>
      refine done (mirrors.place inRange (good v rfl)) ?_
      intro r s apart same
      have placed : rs.pool.Wrote target v.digits _ :=
        Pool.wrote_place mirrors.counted (mirrors.slots.symm ▸ inRange)
      exact .inl (placed.parted r s apart same)

/-- Two results are put into blocks of their own, one after the other. -/
theorem placeBoth {rest : Nat} (mirrors : Mirrors limit rs m) (inRange : target < m.length)
    (inRange' : rest < m.length) (first : v.Canonical ∧ v.digits.length < limit)
    (second : w.Canonical ∧ w.digits.length < limit) :
    Agrees limit rs m id shares (.ok (), (rs.place rest w).place target v)
      (.ok (), (m.put rest w).put target v) := by
  have once := mirrors.place inRange' second
  have inRange'' : target < (m.put rest w).length := by
    rw [Privates.put, List.length_set]
    exact inRange
  refine done (once.place inRange'' first) ?_
  intro r s apart same
  have wrote : rs.pool.Wrote rest w.digits _ :=
    Pool.wrote_place mirrors.counted (mirrors.slots.symm ▸ inRange')
  have wrote' : (rs.place rest w).pool.Wrote target v.digits _ :=
    Pool.wrote_place once.counted (once.slots.symm ▸ inRange'')
  exact .inl (wrote.parted r s apart (wrote'.parted r s apart same))

/-- A step that may share takes over digits with a sign. -/
theorem shareAs (mirrors : Mirrors limit rs m) (inRange : target < m.length)
    (found : m.value? source = some v) (digits : w.digits = v.digits) (canonical : w.Canonical)
    (allowed : shares) :
    Agrees limit rs m id shares (.ok (), rs.shareAs source target w.negative)
      (.ok (), m.put target w) := by
  refine done (mirrors.share inRange found digits canonical) ?_
  intro r s _ _
  exact .inr allowed

/-- A step that stops the program where it has no result. -/
theorem orPanic {done : Registers.Result} {plain : Privates.Result}
    (agrees : Agrees limit rs m id shares done plain) :
    Agrees limit rs m id shares done.orPanic plain.orPanic := by
  obtain ⟨answer, after⟩ := done
  obtain ⟨answer', after'⟩ := plain
  obtain rfl : answer = answer' := agrees.answer
  cases answer with
  | ok _ => exact agrees
  | error e =>
      cases e with
      | panic cause => exact agrees
      | arithmetic cause =>
          exact ⟨rfl, agrees.mirrors, fun _ _ => agrees.refused _ rfl, agrees.parted⟩

/-- A step in place is a `put` of what it follows. -/
theorem inPlace (mirrors : Mirrors limit rs m) (inRange : target < m.length)
    {result : Except ArithmeticError Integer} {after : Registers.Result}
    (inPlace : rs.InPlace target result after)
    (good : ∀ v, result = .ok v → v.Canonical ∧ v.digits.length < limit) :
    Agrees limit rs m id shares after (m.putResult target result) := by
  obtain ⟨answer, changed⟩ := after
  obtain rfl := inPlace.answer
  cases result with
  | error cause =>
      obtain rfl := inPlace.refused cause rfl
      exact failed mirrors _
  | ok v =>
      obtain ⟨q, rfl, wrote, -⟩ := inPlace.wrote v rfl
      refine done (mirrors.wrote inRange wrote (good v rfl)) ?_
      intro r s apart together
      exact .inl (wrote.parted r s apart together)

/-- A function of two integers puts a result of its own, or takes the digits of the left one over
with a product that leaves them as they are. -/
theorem applyFn (large : 1 < limit) (mirrors : Mirrors limit rs m) (inRange : target < m.length)
    (found : m.value? source = some v) {b : Operand} (right : b.Canonical) (fn : BinaryFn)
    (allowed : ∀ op, fn = .operator op → RegisterOp.UnitProduct op v b → shares) :
    Agrees limit rs m id shares (RegisterOp.applyFn limit fn target source b rs)
      (m.putResult target (fn.checked limit v b)) := by
  have left := mirrors.canonical source v found
  have same : RegisterOp.valueAt rs source = v := by
    rw [mirrors.valueAt_eq, Privates.valueAt, found, Option.getD_some]
  simp only [RegisterOp.applyFn, same]
  split
  · rename_i keeps
    obtain ⟨rfl, keeps⟩ := keeps
    have product := Integer.mul_of_keepsDigits limit keeps
    have canonical := left.1.mul product
    generalize same : ({ negative := v.negative != b.normalize.negative, digits := v.digits } :
      Integer) = w at *
    have digits : w.digits = v.digits := by rw [← same]
    have sign : (v.negative != b.normalize.negative) = w.negative := by rw [← same]
    rw [show (BinaryFn.operator .mul).checked limit v b = .ok w from product, sign]
    exact shareAs mirrors inRange found digits canonical
      (allowed .mul rfl (Integer.unitProduct_of_keepsDigits right keeps))
  · exact placeResult mirrors inRange _ fun w made =>
      BinaryFn.checked_canonical large left right made

end Agrees

namespace Mirrors

variable {limit : Nat} {rs : Registers} {m : Privates}

/-- A register that is given up. -/
theorem drop (mirrors : Mirrors limit rs m) {target : Nat} (inRange : target < m.length) :
    Mirrors limit { rs with pool := rs.pool.release target } (m.set target none) where
  counted := mirrors.counted.release (mirrors.slots.symm ▸ inRange)
  slots := by
    rw [Pool.length_slots_release, mirrors.slots, List.length_set]
  signs := by
    rw [mirrors.signs, List.length_set]
  values := by
    intro r
    rw [value?_set inRange, Registers.value?_eq, Pool.shown?_release]
    split
    · rfl
    · rw [← mirrors.values, Registers.value?_eq]
      rfl
  canonical := by
    intro r v found
    rw [value?_set inRange] at found
    split at found
    · cases found
    · exact mirrors.canonical r v found

/-- Two registers that change places. -/
theorem exchange (mirrors : Mirrors limit rs m) {r s : Nat}
    (inRange : r < m.length ∧ s < m.length) :
    Mirrors limit
      (({ rs with pool := rs.pool.exchange r s }.setSign r (rs.isNegative s)).setSign s
        (rs.isNegative r))
      ((m.set r (m.value? s)).set s (m.value? r)) := by
  have inPool : r < rs.pool.slots.length ∧ s < rs.pool.slots.length := by
    rw [mirrors.slots]
    exact inRange
  have inSigns : r < rs.negative.length ∧ s < (rs.negative.set r (rs.isNegative s)).length := by
    rw [List.length_set, mirrors.signs]
    exact inRange
  have moved (slot : Nat) : Privates.value? ((m.set r (m.value? s)).set s (m.value? r)) slot =
      m.value? (Pool.exchanged r s slot) := by
    rw [value?_set (by simpa using inRange.2), value?_set inRange.1]
    unfold Pool.exchanged
    by_cases right : slot = s <;> by_cases left : slot = r <;> simp_all
  refine ⟨mirrors.counted.exchange inPool, ?_, ?_, ?_, ?_⟩
  · simp [Registers.setSign, Pool.slots_exchange inPool, mirrors.slots]
  · simp [Registers.setSign, mirrors.signs]
  · intro slot
    have sign := isNegative_set (rs.negative.set r (rs.isNegative s)) inSigns.2 (rs.isNegative r)
      slot
    rw [isNegative_set rs.negative inSigns.1] at sign
    rw [moved, ← mirrors.values, Registers.value?_eq, Registers.value?_eq]
    simp only [Registers.setSign, Registers.isNegative, Pool.shown?_exchange inPool] at sign ⊢
    rw [sign]
    unfold Pool.exchanged
    by_cases right : slot = s <;> by_cases left : slot = r <;> simp_all
  · intro slot v found
    rw [moved] at found
    exact mirrors.canonical _ v found

end Mirrors

/-- **One step.** Whatever a step is, it answers and leaves behind what it does on a plain machine,
changes nothing when it fails, and makes registers share only if it is of a kind that may. -/
theorem RegisterOp.agrees {limit : Nat} {rs : Registers} {m : Privates} (large : 1 < limit)
    (mirrors : Mirrors limit rs m) (op : RegisterOp) (ready : op.Ready m) :
    Agrees limit rs m op.origin (op.Shares m) (op.run limit rs) (m.step limit op) := by
  have positive : 0 < limit := Nat.lt_of_succ_lt large
  have value (r : Nat) : valueAt rs r = m.valueAt r := mirrors.valueAt_eq r
  have operand (rhs : RightSide) : rightSide rs rhs = m.rightSide rhs := mirrors.rightSide_eq rhs
  cases op with
  | set target v =>
      exact .placeResult mirrors ready _ fun w made =>
        ⟨Integer.canonical_ofDigits made, Integer.length_ofDigits_lt positive made⟩
  | clone target source =>
      obtain ⟨inRange, held⟩ := ready
      have found := Mirrors.held_eq held
      have sign := (mirrors.shown found).2
      simp only [run, sign]
      exact .shareAs mirrors inRange found rfl (mirrors.canonical source _ found).1 trivial
  | abs target source =>
      obtain ⟨inRange, held⟩ := ready
      have found := Mirrors.held_eq held
      have canonical := (mirrors.canonical source _ found).1.abs
      exact .shareAs (w := (m.valueAt source).abs) mirrors inRange found rfl canonical trivial
  | neg target source =>
      obtain ⟨inRange, held⟩ := ready
      have found := Mirrors.held_eq held
      simp only [run, value]
      exact .shareAs mirrors inRange found rfl (mirrors.canonical source _ found).1.neg trivial
  | drop target =>
      refine .done (mirrors.drop ready) ?_
      intro r s _ same
      obtain ⟨block, left, right⟩ := Pool.sameBlock_iff.mp same
      rw [Pool.owned?_release] at left right
      refine .inl (Pool.sameBlock_iff.mpr ⟨block, ?_, ?_⟩)
      · split at left
        · cases left
        · exact left
      · split at right
        · cases right
        · exact right
  | exchange r s =>
      refine .done (mirrors.exchange ready) ?_
      intro x y _ same
      have inPool : r < rs.pool.slots.length ∧ s < rs.pool.slots.length := by
        rw [mirrors.slots]
        exact ready
      obtain ⟨block, left, right⟩ := Pool.sameBlock_iff.mp same
      refine .inl (Pool.sameBlock_iff.mpr ⟨block, ?_, ?_⟩)
      · exact (Pool.owned?_exchange inPool x).symm.trans left
      · exact (Pool.owned?_exchange inPool y).symm.trans right
  | negate target =>
      have found := Mirrors.held_eq ready
      obtain ⟨canonical, short⟩ := mirrors.canonical target _ found
      have same : rs.pool.Wrote target (m.valueAt target).neg.digits rs.pool :=
        .refl mirrors.counted (mirrors.shown found).1
      have inRange := Mirrors.lt_length_of_value? found
      simp only [run, value]
      refine .done (mirrors.wrote inRange same ⟨canonical.neg, short⟩) ?_
      intro r s _ together
      exact .inl together
  | increment target =>
      have found := Mirrors.held_eq ready
      obtain ⟨canonical, short⟩ := mirrors.canonical target _ found
      have follows := Registers.increment_inPlace limit mirrors.counted
        ((mirrors.values target).trans found)
      rw [Integer.increment_of_short short] at follows
      exact .inPlace mirrors (Mirrors.lt_length_of_value? found) follows fun w made =>
        ⟨canonical.increment made, Integer.length_increment_lt short made⟩
  | decrement target =>
      have found := Mirrors.held_eq ready
      obtain ⟨canonical, short⟩ := mirrors.canonical target _ found
      have follows := Registers.decrement_inPlace limit mirrors.counted
        ((mirrors.values target).trans found)
      rw [Integer.decrement_of_short short] at follows
      exact .inPlace mirrors (Mirrors.lt_length_of_value? found) follows fun w made =>
        ⟨canonical.decrement made, Integer.length_decrement_lt short made⟩
  | shl target source bits =>
      obtain ⟨inRange, held⟩ := ready
      simp only [run, value]
      exact .placeResult mirrors inRange _ fun w made =>
        ⟨Integer.canonical_shl made, Integer.length_shl_lt positive made⟩
  | shr target source bits =>
      obtain ⟨inRange, held⟩ := ready
      simp only [run, value]
      exact .placeResult mirrors inRange _ fun w made =>
        ⟨Integer.canonical_shr made, Integer.length_shr_lt positive made⟩
  | pow target source exponent =>
      obtain ⟨inRange, held⟩ := ready
      simp only [run, value]
      exact .placeResult mirrors inRange _ fun w made =>
        ⟨Integer.canonical_pow made, Integer.length_pow_lt large made⟩
  | rebuild target source negative =>
      obtain ⟨inRange, held⟩ := ready
      have found := Mirrors.held_eq held
      have canonical := (mirrors.canonical source _ found).1
      obtain ⟨digits, kept⟩ := mirrors.trim_share inRange found
      have whole : Integer.ofMagnitude negative (m.valueAt source).digits =
          Integer.ofCanonical negative (m.valueAt source).digits := by
        rw [Integer.ofMagnitude, canonical.1.trim_eq]
      have good := Integer.canonical_ofCanonical negative canonical.1
      simp only [run, kept, digits, Privates.step, whole]
      exact .shareAs (w := Integer.ofCanonical negative (m.valueAt source).digits) mirrors inRange
        found rfl good trivial
  | apply op target source rhs =>
      obtain ⟨inRange, held, ready⟩ := ready
      simp only [run, operand]
      refine (Agrees.applyFn large mirrors inRange (Mirrors.held_eq held)
        (mirrors.rightSide_canonical ready) (.operator op) ?_).orPanic
      rintro _ ⟨rfl⟩ unit
      exact unit
  | assign op target rhs =>
      obtain ⟨held, ready⟩ := ready
      have found := Mirrors.held_eq held
      simp only [run, operand]
      refine (Agrees.applyFn large mirrors (Mirrors.lt_length_of_value? found) found
        (mirrors.rightSide_canonical ready) (.operator op) ?_).orPanic
      rintro _ ⟨rfl⟩ unit
      exact unit
  | divMod target rest source divisor =>
      obtain ⟨inRange, inRange', held, held'⟩ := ready
      simp only [run, value, Privates.step]
      cases divided : (m.valueAt source).divRem limit (.big (m.valueAt divisor)) with
      | error cause => exact .failed mirrors _
      | ok result =>
          have canonical := Integer.canonical_divRem divided
          have short := Integer.length_divRem_lt large divided
          exact .placeBoth mirrors inRange inRange' ⟨canonical.1, short.1⟩ ⟨canonical.2, short.2⟩
  | binary fn target source rhs =>
      obtain ⟨inRange, held, ready⟩ := ready
      simp only [run, operand]
      refine Agrees.applyFn large mirrors inRange (Mirrors.held_eq held)
        (mirrors.rightSide_canonical ready) fn ?_
      rintro op rfl unit
      exact unit

/-! ### Runs -/

theorem Mirrors.empty (limit count : Nat) :
    Mirrors limit (.empty count) (List.replicate count none) where
  counted := Pool.counted_empty count
  slots := by simp [Registers.empty, Pool.empty]
  signs := by simp [Registers.empty]
  values := by
    intro r
    simp only [Registers.value?, Pool.block?, Pool.owned?, Registers.empty, Pool.empty,
      Privates.value?, List.getElem?_replicate]
    split <;> rfl
  canonical := by
    intro r v found
    rw [Privates.value?, List.getElem?_replicate] at found
    split at found <;> cases found

theorem Mirrors.runAll {limit : Nat} (large : 1 < limit) {rs : Registers} {m : Privates}
    (mirrors : Mirrors limit rs m) {ops : List RegisterOp}
    (ready : RegisterOp.ReadyAll limit ops m) :
    Mirrors limit (RegisterOp.runAll limit ops rs) (m.stepAll limit ops) := by
  induction ops generalizing rs m with
  | nil => exact mirrors
  | cons op ops ih => exact ih (op.agrees large mirrors ready.1).mirrors ready.2

/-- **Sharing cannot be seen.** After any run every register has the value that it has on a machine
where nothing is shared, and the count of owners is the number of registers on the same block. Any
step that follows answers what it does there. One that fails changes nothing, and two registers
share a block after a step only if they did before, where an exchange moved them from, or if the
step is one that takes digits over. -/
theorem registers_mirror {limit count : Nat} {ops : List RegisterOp} (large : 1 < limit)
    (ready : RegisterOp.ReadyAll limit ops (List.replicate count none)) :
    let rs := RegisterOp.runAll limit ops (.empty count)
    let m := Privates.stepAll limit ops (List.replicate count none)
    (∀ r, rs.value? r = m.value? r) ∧
      (∀ r, rs.pool.owners r = (List.range rs.pool.slots.length).countP (rs.pool.sameBlock r)) ∧
      ∀ op : RegisterOp, op.Ready m →
        (op.run limit rs).1 = (m.step limit op).1 ∧
          (∀ e, (op.run limit rs).1 = .error e → (op.run limit rs).2 = rs) ∧
          ∀ r s, r ≠ s → (op.run limit rs).2.pool.sameBlock r s = true →
            rs.pool.sameBlock (op.origin r) (op.origin s) = true ∨ op.Shares m := by
  have mirrors := (Mirrors.empty limit count).runAll large ready
  refine ⟨mirrors.values, mirrors.counted.owners_eq_countP, ?_⟩
  intro op next
  have agrees := op.agrees large mirrors next
  exact ⟨agrees.answer, agrees.refused, agrees.parted⟩

/-- A step on a copy of the largest digit. -/
theorem registers_mirror_increment :
    let ops : List RegisterOp :=
      [.set 0 { negative := false, digits := [Digit.max] }, .clone 1 0, .increment 1]
    let rs := RegisterOp.runAll 65536 ops (.empty 2)
    RegisterOp.ReadyAll 65536 ops (List.replicate 2 none) ∧
      rs.value? 0 = some { negative := false, digits := [Digit.max] } ∧
      rs.value? 1 = some { negative := false, digits := [0, 1] } ∧
      rs.pool.owners 0 = 1 := by
  have ready : RegisterOp.ReadyAll 65536
      [.set 0 { negative := false, digits := [Digit.max] }, .clone 1 0, .increment 1]
      (List.replicate 2 none) := by decide
  obtain ⟨values, owners, -⟩ := registers_mirror (by decide) ready
  exact ⟨ready, (values 0).trans (by decide), (values 1).trans (by decide),
    (owners 0).trans (by decide)⟩

/-- After an exchange two registers may share a block that did not before, though none of its digits
were taken over: the first and the last of three share what the first two did. -/
theorem exchange_shares :
    let ops : List RegisterOp :=
      [.set 0 { negative := false, digits := [5] }, .clone 1 0,
        .set 2 { negative := false, digits := [7] }]
    let rs := RegisterOp.runAll 65536 ops (.empty 3)
    let m := Privates.stepAll 65536 ops (List.replicate 3 none)
    RegisterOp.ReadyAll 65536 ops (List.replicate 3 none) ∧
      (RegisterOp.exchange 1 2).Ready m ∧ ¬ (RegisterOp.exchange 1 2).Shares m ∧
      rs.pool.sameBlock 0 2 = false ∧
      ((RegisterOp.exchange 1 2).run 65536 rs).2.pool.sameBlock 0 2 = true := by
  refine ⟨by decide, by decide, id, by decide, by decide⟩

end Bignum
