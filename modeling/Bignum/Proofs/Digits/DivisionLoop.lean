import Bignum.Proofs.Digits.DivisionRound
import Bignum.Proofs.Digits.Quotient
import Bignum.Proofs.Digits.ShiftLoop

/-!
Long division as a loop over one remainder, in words.

The loop goes down the places of the quotient. What it has not come to yet are the low digits of the
dividend; above them stands the remainder of the windows so far, which has as many digits as the
divisor, and above that nothing is left. This is `afterRounds`, and the next digit of the dividend
makes a window of the remainder, so that each round is exact (`afterRounds_exact`) and the loop
never stops (`wordRounds_eq`).

* `wordDivide_of_divRemSchoolbook`: the loop, with the shifts before and after it, divides as the
  schoolbook method over numbers does.
* `LongDivisionSound`: what long division is started on, that every round is exact, and that the
  loop ends with the quotient and the remainder.
* `long_division_exact`: this holds of every dividend and every divisor of two digits or more.
-/

namespace Bignum

namespace Digits

/-! ### The loop -/

/-- The state after a number of rounds, from the highest place of the quotient down. -/
def wordRounds (divisor : Digits) (start : DivisionState) : (rounds : Nat) → Option DivisionState
  | 0 => some start
  | rounds + 1 =>
      (wordRounds divisor start rounds).bind
        (wordRound divisor (start.quotient.length - (rounds + 1)))

/-- The divisor and the dividend, shifted by the bits that the divisor leaves free. -/
def wordStart (n d : Digits) : Option (Digits × DivisionState) :=
  let bits := 64 - (d.getLastD 0).bitLength
  (wordShiftUp bits d).bind fun divisor =>
    (wordShiftUp bits n).map fun dividend =>
      let whole := dividend.1 ++ [dividend.2]
      let count := whole.length - divisor.1.length
      (divisor.1, { rest := whole, quotient := List.replicate count 0 })

/-- All of long division: the quotient, and the remainder shifted back. -/
def wordDivide (n d : Digits) : Option (Digits × Digits) :=
  (wordStart n d).bind fun start =>
    (wordRounds start.1 start.2 start.2.quotient.length).bind fun state =>
      (wordShiftDown (64 - (d.getLastD 0).bitLength) (state.rest.take start.1.length)).map
        fun rest => (trim state.quotient, trim rest)

/-! ### States -/

section Rounds

/-- What a number of rounds leave of a dividend, whose top digits are `high`. -/
def afterRounds (divisor low high : Digits) (rounds : Nat) : DivisionState :=
  let left := low.length - rounds
  let above := divideWindows divisor (low.drop left) high
  { rest := low.take left ++ above.2 ++ List.replicate rounds 0
    quotient := List.replicate left 0 ++ above.1 }

theorem take_append_zero {ds : Digits} {n : Nat} (length : ds.length = n + 1)
    (small : ds.toNat < Digit.base ^ n) : ds.take n ++ [0] = ds := by
  have whole : ds.take (n + 1) = ds.take n ++ ds[n]?.toList := List.take_add_one
  rw [List.take_of_length_le length.le, read_top_zero length small] at whole
  exact whole.symm

variable {divisor low high : Digits} {place rounds : Nat}

/-- The next digit of the dividend and the remainder above it are a window. -/
theorem afterRounds_window (inRange : place < low.length) (now : low.length - rounds = place + 1) :
    afterRounds divisor low high rounds =
      { rest := low.take place ++
          low[place] :: (divideWindows divisor (low.drop (place + 1)) high).2 ++
          List.replicate rounds 0
        quotient := List.replicate (place + 1) 0 ++
          (divideWindows divisor (low.drop (place + 1)) high).1 } := by
  have lower : low.take (place + 1) = low.take place ++ [low[place]] := by
    rw [List.take_add_one, List.getElem?_eq_getElem inRange]
    rfl
  rw [afterRounds, now, lower, List.append_assoc (low.take place), List.singleton_append]

/-- After the round the window is the remainder, with a zero above it. -/
theorem afterRounds_succ (inRange : place < low.length) (next : low.length - (rounds + 1) = place)
    {above : Digits × Digits} (before : divideWindows divisor (low.drop (place + 1)) high = above)
    (length : (divideWindow divisor (low[place] :: above.2)).2.length = divisor.length + 1)
    (small : (divideWindow divisor (low[place] :: above.2)).2.toNat < Digit.base ^ divisor.length) :
    afterRounds divisor low high (rounds + 1) =
      { rest := low.take place ++ (divideWindow divisor (low[place] :: above.2)).2 ++
          List.replicate rounds 0
        quotient := (List.replicate (place + 1) 0 ++ above.1).set place
          (divideWindow divisor (low[place] :: above.2)).1 } := by
  have digit : low.drop place = low[place] :: low.drop (place + 1) :=
    List.drop_eq_getElem_cons inRange
  have top := take_append_zero length small
  have changed : (List.replicate (place + 1) 0 ++ above.1).set place
      (divideWindow divisor (low[place] :: above.2)).1 =
        List.replicate place 0 ++ (divideWindow divisor (low[place] :: above.2)).1 :: above.1 := by
    rw [List.replicate_succ', List.append_assoc, List.set_append_right _ _ (by simp)]
    simp
  rw [afterRounds, next, digit, changed]
  simp only [divideWindows, before]
  nth_rewrite 2 [← top]
  simp [List.replicate_succ]

section Exact

variable (canonical : divisor.Canonical) (long : 2 ≤ divisor.length)
  (fits : high.length = divisor.length) (below : high.toNat < divisor.toNat)
  (topBit : 2 ^ 63 ≤ digitAt divisor (divisor.length - 1))

include canonical long fits below topBit

/-- **Every round is exact**, from what the rounds before it have left. -/
theorem afterRounds_exact (step : low.length = place + 1 + rounds) :
    ∃ factor reduced,
      RoundExact divisor place (afterRounds divisor low high rounds)
        (afterRounds divisor low high (rounds + 1)) factor reduced := by
  have inRange : place < low.length := by omega
  obtain ⟨-, less, length⟩ :=
    divideWindows_exact canonical long (low.drop (place + 1)) fits below
  rw [afterRounds_window inRange (by omega)]
  obtain ⟨above, before⟩ : ∃ above, divideWindows divisor (low.drop (place + 1)) high = above :=
    ⟨_, rfl⟩
  rw [before] at less length ⊢
  have window := cons_lt_mul_base low[place] less
  have fitsWindow : (low[place] :: above.2).length = divisor.length + 1 := by
    rw [List.length_cons, length]
  obtain ⟨-, restExact, lengthRest⟩ := divideWindow_exact canonical long fitsWindow window
  have small : (divideWindow divisor (low[place] :: above.2)).2.toNat <
      Digit.base ^ divisor.length := by
    rw [restExact]
    exact (Nat.mod_lt _ (Nat.zero_lt_of_lt less)).trans (toNat_lt_pow_length divisor)
  rw [afterRounds_succ inRange (by omega) before (lengthRest.trans fitsWindow) small]
  have lengthLow : (low.take place).length = place := List.length_take_of_le inRange.le
  have room : (low.take place).length < (List.replicate (place + 1) 0 ++ above.1).length := by
    rw [lengthLow, List.length_append, List.length_replicate]
    omega
  have exact := wordRound_exact canonical long fitsWindow window (low.take place)
    (List.replicate rounds 0) topBit room
  rwa [lengthLow] at exact

/-- **The loop never stops**, and leaves what the windows so far have left. -/
theorem wordRounds_eq (few : rounds ≤ low.length) :
    wordRounds divisor { rest := low ++ high, quotient := List.replicate low.length 0 } rounds =
      some (afterRounds divisor low high rounds) := by
  induction rounds with
  | zero => simp [wordRounds, afterRounds, divideWindows]
  | succ rounds ih =>
      have step : low.length = low.length - (rounds + 1) + 1 + rounds := by omega
      obtain ⟨factor, reduced, exact⟩ :=
        afterRounds_exact canonical long fits below topBit step
      rw [wordRounds, ih (Nat.le_of_succ_le few), Option.bind_some, List.length_replicate]
      exact exact.runs

end Exact

end Rounds

/-! ### Long division -/

section Division

variable {limit : Nat} {n d : Digits}

/-- **The top bit of the shifted divisor is set.** -/
theorem topBit_shiftUp (canonical : d.Canonical) (nonempty : d ≠ []) :
    2 ^ 63 ≤ digitAt (shiftUp (64 - (d.getLastD 0).bitLength) d 0).1
      ((shiftUp (64 - (d.getLastD 0).bitLength) d 0).1.length - 1) := by
  have top := canonical.getLastD_ne_zero nonempty
  have positive := Digit.bitLength_pos top
  have most := (d.getLastD 0).bitLength_le
  have value := toNat_shiftUp_divisor canonical nonempty
  have length := length_shiftUp (64 - (d.getLastD 0).bitLength) d 0
  have some := List.length_pos_of_ne_nil nonempty
  have leading := digitAt_add (shiftUp (64 - (d.getLastD 0).bitLength) d 0).1 (d.length - 1)
  have nothing := div_pow_length (shiftUp (64 - (d.getLastD 0).bitLength) d 0).1
  rw [length] at nothing
  rw [Nat.sub_add_cancel some, nothing, Nat.mul_zero, Nat.add_zero] at leading
  rw [length, leading, value, Nat.le_div_iff_mul_le (Digit.base_pow_pos _)]
  have large : Digit.base ^ (d.length - 1) * (d.getLastD 0).toNat ≤ d.toNat := by
    rcases List.eq_nil_or_concat' d with rfl | ⟨low, last, rfl⟩
    · exact absurd rfl nonempty
    · rw [List.getLastD_concat, List.length_append, List.length_singleton, Nat.add_sub_cancel,
        toNat_append, toNat_cons, toNat_nil, Nat.mul_zero, Nat.add_zero]
      exact Nat.le_add_left _ _
  calc 2 ^ 63 * Digit.base ^ (d.length - 1)
      = Digit.base ^ (d.length - 1) * 2 ^ ((d.getLastD 0).bitLength - 1) *
          2 ^ (64 - (d.getLastD 0).bitLength) := by
        rw [Nat.mul_assoc, ← Nat.pow_add, Nat.mul_comm]
        congr 2
        omega
    _ ≤ Digit.base ^ (d.length - 1) * (d.getLastD 0).toNat *
          2 ^ (64 - (d.getLastD 0).bitLength) :=
        Nat.mul_le_mul_right _ (Nat.mul_le_mul_left _ (Digit.pow_bitLength_le top))
    _ ≤ d.toNat * 2 ^ (64 - (d.getLastD 0).bitLength) := Nat.mul_le_mul_right _ large

/-- What the loop is started on: the shifted divisor, and the digits of the shifted dividend, the
top ones of which are less than the divisor. -/
structure Started (n d divisor low high : Digits) : Prop where
  starts : wordStart n d =
    some (divisor, { rest := low ++ high, quotient := List.replicate low.length 0 })
  isDivisor : divisor = (shiftUp (64 - (d.getLastD 0).bitLength) d 0).1
  isDividend : low ++ high = dividendOf (64 - (d.getLastD 0).bitLength) n
  count : low.length = n.length + 1 - d.length
  canonical : divisor.Canonical
  long : 2 ≤ divisor.length
  fits : high.length = divisor.length
  below : high.toNat < divisor.toNat
  topBit : 2 ^ 63 ≤ digitAt divisor (divisor.length - 1)

theorem exists_started (canonical : d.Canonical) (long : 2 ≤ d.length) (le : d.length ≤ n.length) :
    ∃ divisor low high, Started n d divisor low high := by
  have nonempty : d ≠ [] := List.ne_nil_of_length_pos (Nat.zero_lt_of_lt long)
  have few := canonical.free_lt nonempty
  have less := dividendOf_lt canonical nonempty le
  have scaled := canonical_shiftUp_divisor canonical nonempty
  have topBit := topBit_shiftUp canonical nonempty
  have dividend := length_dividendOf (64 - (d.getLastD 0).bitLength) n
  have divisor := length_shiftUp (64 - (d.getLastD 0).bitLength) d 0
  have count :
      ((dividendOf (64 - (d.getLastD 0).bitLength) n).take (n.length + 1 - d.length)).length =
        n.length + 1 - d.length := List.length_take_of_le (by omega)
  refine ⟨_, _, (dividendOf (64 - (d.getLastD 0).bitLength) n).drop (n.length + 1 - d.length),
    { starts := ?_
      isDivisor := rfl
      isDividend := List.take_append_drop _ _
      count := count
      canonical := scaled
      long := divisor ▸ long
      fits := ?_
      below := ?_
      topBit := topBit }⟩
  · rw [List.take_append_drop, count]
    simp only [wordStart, wordShiftUp_eq few, Option.bind_some, Option.map_some, length_shiftUp,
      List.length_append, List.length_singleton, dividendOf]
  · rw [List.length_drop, divisor]
    omega
  · rw [toNat_drop]
    exact Nat.div_lt_of_lt_mul (Nat.mul_comm _ _ ▸ less)

/-- **The loop divides as the schoolbook method does.** -/
theorem wordDivide_of_divRemSchoolbook (canonical : d.Canonical) (long : 2 ≤ d.length)
    (le : d.length ≤ n.length) {result : Digits × Digits}
    (done : divRemSchoolbook limit n d = .ok result) : wordDivide n d = some result := by
  have few := canonical.free_lt (List.ne_nil_of_length_pos (Nat.zero_lt_of_lt long))
  obtain ⟨divisor, low, high, started⟩ := exists_started canonical long le
  have made := divRemSchoolbook_eq done
  simp only at made
  rw [← started.isDivisor, ← started.isDividend, ← started.count, List.take_left,
    List.drop_left] at made
  have rounds := wordRounds_eq started.canonical started.long started.fits started.below
    started.topBit (Nat.le_refl low.length)
  obtain ⟨-, -, length⟩ :=
    divideWindows_exact started.canonical started.long low started.fits started.below
  rw [wordDivide, started.starts, Option.bind_some, List.length_replicate, rounds, Option.bind_some]
  simp only [afterRounds, Nat.sub_self, List.drop_zero, List.take_zero, List.nil_append,
    List.replicate_zero]
  rw [← length, List.take_left, wordShiftDown_eq few, Option.map_some, made]

/-! ### All rounds -/

/-- What long division is started on, what its rounds do, and what it comes to. -/
structure LongDivisionSound (n d divisor : Digits) (start : DivisionState) : Prop where
  starts : wordStart n d = some (divisor, start)
  scaled : divisor.toNat = d.toNat * 2 ^ (64 - (d.getLastD 0).bitLength) ∧
    start.rest.toNat = n.toNat * 2 ^ (64 - (d.getLastD 0).bitLength)
  count : start.quotient.length = n.length + 1 - d.length
  /-- At every place there is a state before the round and one after it. -/
  rounds : ∀ place < start.quotient.length, ∃ s t factor reduced,
    wordRounds divisor start (start.quotient.length - (place + 1)) = some s ∧
      wordRounds divisor start (start.quotient.length - place) = some t ∧
      RoundExact divisor place s t factor reduced
  ends : ∃ result, wordDivide n d = some result ∧
    result.1.toNat = n.toNat / d.toNat ∧ result.2.toNat = n.toNat % d.toNat
  agrees : ∀ limit result, divRemSchoolbook limit n d = .ok result → wordDivide n d = some result

theorem exists_longDivisionSound (canonical : d.Canonical) (long : 2 ≤ d.length)
    (le : d.length ≤ n.length) : ∃ divisor start, LongDivisionSound n d divisor start := by
  have nonempty : d ≠ [] := List.ne_nil_of_length_pos (Nat.zero_lt_of_lt long)
  obtain ⟨divisor, low, high, started⟩ := exists_started canonical long le
  refine ⟨divisor, { rest := low ++ high, quotient := List.replicate low.length 0 },
    { starts := started.starts
      scaled := ⟨?divisor, ?dividend⟩
      count := List.length_replicate.trans started.count
      rounds := ?rounds
      ends := ?ends
      agrees := fun limit result => wordDivide_of_divRemSchoolbook canonical long le }⟩
  case divisor =>
    rw [started.isDivisor, toNat_shiftUp_divisor canonical nonempty]
  case dividend =>
    exact started.isDividend ▸ toNat_dividendOf (canonical.free_lt nonempty) n
  case rounds =>
    intro place inRange
    rw [List.length_replicate] at inRange ⊢
    have step : low.length = place + 1 + (low.length - (place + 1)) := by omega
    have next : low.length - place = low.length - (place + 1) + 1 := by omega
    obtain ⟨factor, reduced, exact⟩ := afterRounds_exact started.canonical started.long started.fits
      started.below started.topBit step
    have runs {rounds : Nat} (few : rounds ≤ low.length) :=
      wordRounds_eq started.canonical started.long started.fits started.below started.topBit few
    rw [next]
    exact ⟨_, _, factor, reduced, runs (by omega), runs (by omega), exact⟩
  case ends =>
    cases done : divRemSchoolbook (n.length + 2) n d with
    | error cause =>
        have full := le_of_divRemSchoolbook_error le done
        omega
    | ok result =>
        exact ⟨result, wordDivide_of_divRemSchoolbook canonical long le done,
          divRemSchoolbook_exact canonical long le done⟩

end Division

/-- **Every step of long division is exact.** Its rounds find every digit of the quotient, whatever
is divided by whatever divisor of two digits or more that is not larger. -/
theorem long_division_exact {n d : Digits} (canonical : d.Canonical) (long : 2 ≤ d.length)
    (le : d.toNat ≤ n.toNat) : ∃ divisor start, LongDivisionSound n d divisor start :=
  exists_longDivisionSound canonical long (canonical.length_le_of_toNat_le le)

/-- A division in whose last round the largest digit is tried, which is one too large. -/
theorem long_division_exact_added_back :
    let n : Digits := [0, 0, 0x8000000000000000, 0x7fffffffffffffff]
    let d : Digits := [1, 0, 0x8000000000000000]
    d.Canonical ∧ 2 ≤ d.length ∧ d.toNat ≤ n.toNat ∧
      ∃ divisor start, LongDivisionSound n d divisor start ∧
        ∃ s t factor reduced, wordRounds divisor start 1 = some s ∧
          wordRounds divisor start 2 = some t ∧ RoundExact divisor 0 s t factor reduced ∧
          factor = Digit.max ∧ reduced.2 = true := by
  intro n d
  have canonical : d.Canonical := by decide
  have long : 2 ≤ d.length := by decide
  have le : d.toNat ≤ n.toNat := by decide
  obtain ⟨divisor, start, sound⟩ := long_division_exact canonical long le
  -- The divisor has its top bit set as it is, and the round at the place above finds a zero.
  have starts : wordStart n d = some (d, { rest := n ++ [0], quotient := [0, 0] }) := by
    decide +kernel
  have first : wordRounds d { rest := n ++ [0], quotient := [0, 0] } 1 =
      some { rest := n ++ [0], quotient := [0, 0] } := by decide +kernel
  have tried : wordTrial d (n ++ [0]) 0 = some { quotient := Digit.base - 1, rest := 0 } := by
    decide +kernel
  cases sound.starts.symm.trans starts
  obtain ⟨s, t, factor, reduced, before, after, exact⟩ := sound.rounds 0 (by decide)
  cases before.symm.trans first
  have isFactor := exact.isDigit
  rw [Option.some.inj (exact.tried.symm.trans tried)] at isFactor
  have largest : factor = Digit.max := UInt64.toNat_inj.mp isFactor.symm
  have excess : factor.toNat = (windowAt d (n ++ [0]) 0).toNat / d.toNat + 1 := by
    rw [largest]
    decide
  exact ⟨canonical, long, le, _, _, sound, _, t, factor, reduced, first, after, exact, largest,
    exact.overshoots.mpr excess⟩

end Digits

end Bignum
