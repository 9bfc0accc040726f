import Bignum.Proofs.Digits.ProductLoop
import Bignum.Proofs.Digits.Schoolbook

/-!
One round of long division, in words.

A round reads its window from the remainder and changes it there. Its trial digit comes from
numbers of two words, and nothing else in it is wider than a word. `wordRound` is such a round; it
stops at a place outside of the digits, at a number that gets too wide for its words, and at one
that would fall below zero.

* `wordTrial_eq`, `wordReduce_eq`, `wordRestore_eq`: no part of a round stops, and each does to the
  window what is done to a window alone.
* `RoundExact`: what a round finds and what it leaves.
* `wordRound_exact`: a round over a window that is below the divisor times the base does that.
-/

namespace Bignum

/-! ### Two words -/

namespace Digit

/-- A number that two words hold. -/
def wide? (n : Nat) : Option Nat := if n < base * base then some n else none

/-- A number moved up by a word, with a word below it. -/
def joined? (high : Nat) (low : Digit) : Option Nat :=
  (wide? (high <<< 64)).map (· ||| low.toNat)

/-- `x * y + carry` in words: the digit that stays, and the high digit of the product with the carry
of the addition, if one digit holds that. -/
def wordScale (x y carry : Digit) : Option (Digit × Digit) :=
  let product := split (x.toNat * y.toNat)
  let low := addCarry product.1 carry false
  let high := product.2.toNat + low.2.toNat
  if high < base then some (low.1, UInt64.ofNat high) else none

theorem joined?_eq {high : Nat} (small : high < base) (low : Digit) :
    joined? high low = some (high * base + low.toNat) := by
  have moved : high <<< 64 = high * base := Nat.shiftLeft_eq high 64
  have fits : high * base < base * base := Nat.mul_lt_mul_of_pos_right small base_pos
  rw [joined?, moved, wide?, if_pos fits, Option.map_some, ← moved,
    Nat.shiftLeft_add_eq_or_of_lt low.toNat_lt_base]

/-- **No carry of a multiple overflows.** -/
theorem wordScale_eq (x y carry : Digit) :
    wordScale x y carry = some (split (x.toNat * y.toNat + carry.toNat)) := by
  have fits : x.toNat * y.toNat + carry.toNat < base * base := by
    simpa using row_total_lt 0 x y carry
  have wide := split_toNat (Nat.lt_of_le_of_lt (Nat.le_add_right _ carry.toNat) fits)
  simp only [wordScale]
  generalize split (x.toNat * y.toNat) = product at wide ⊢
  have sum := Digits.addCarry_toNat product.1 carry false
  generalize addCarry product.1 carry false = low at sum ⊢
  simp only [Bool.toNat_false, Nat.add_zero] at sum
  have whole : low.1.toNat + base * (product.2.toNat + low.2.toNat) =
      x.toNat * y.toNat + carry.toNat := by
    linear_combination wide + sum
  exact if_high_lt whole fits

end Digit

namespace Digits

/-! ### The trial digit -/

/-- The first trial, of a number of two words. -/
def wordFirst (top : Digit) (leading : Nat) : Option Trial :=
  if top = 0 then none
  else if leading / top.toNat < Digit.base then
    some { quotient := leading / top.toNat, rest := leading % top.toNat }
  else
    (Digit.wide? ((Digit.base - 1) * top.toNat)).bind fun multiple =>
      if multiple ≤ leading then
        some { quotient := Digit.base - 1, rest := leading - multiple }
      else none

/-- Lower a trial while it is seen to be too large. Two words have to hold its product with the
second digit, its rest moved up by a word, and a raised rest; a trial of zero cannot be lowered. -/
def wordRefine (top second third : Digit) (trial : Trial) : Option Trial :=
  if trial.rest < Digit.base then
    (Digit.wide? (trial.quotient * second.toNat)).bind fun product =>
      (Digit.joined? trial.rest third).bind fun rest =>
        if product ≤ rest then some trial
        else if _ : 0 < trial.quotient then
          (Digit.wide? (trial.rest + top.toNat)).bind fun rest =>
            wordRefine top second third { quotient := trial.quotient - 1, rest := rest }
        else none
  else some trial
termination_by trial.quotient
decreasing_by exact Nat.sub_lt ‹_› Nat.one_pos

/-- The quotient digit to try for the window at a place of the remainder. -/
def wordTrial (divisor rest : Digits) (place : Nat) : Option Trial := do
  let n := divisor.length
  let top ← divisor[n - 1]?
  let second ← divisor[n - 2]?
  let highest ← rest[place + n]?
  let next ← rest[place + n - 1]?
  let third ← rest[place + n - 2]?
  let leading ← Digit.joined? highest.toNat next
  let first ← wordFirst top leading
  wordRefine top second third first

theorem Trial.first_lt (top leading : Nat) : (first top leading).quotient < Digit.base := by
  unfold first
  split
  · assumption
  · exact Nat.sub_one_lt (by decide)

theorem wordFirst_eq {top : Digit} (nonzero : top ≠ 0) (leading : Nat) :
    wordFirst top leading = some (Trial.first top.toNat leading) := by
  have positive := Digit.toNat_pos nonzero
  rw [wordFirst, if_neg nonzero, Trial.first]
  split
  · rfl
  · rename_i large
    have enough : Digit.base * top.toNat ≤ leading :=
      (Nat.le_div_iff_mul_le positive).mp (Nat.le_of_not_lt large)
    have less : Digit.base - 1 < Digit.base := Nat.sub_one_lt (by decide)
    have narrow := Nat.mul_lt_mul'' less top.toNat_lt_base
    have within := (Nat.mul_le_mul_right top.toNat less.le).trans enough
    rw [Digit.wide?, if_pos narrow, Option.bind_some, if_pos within]

/-- **No trial gets too wide** while it is lowered, and none falls below zero. -/
theorem wordRefine_eq (top second third : Digit) {trial : Trial}
    (isDigit : trial.quotient < Digit.base) :
    wordRefine top second third trial =
      some (trial.refine top.toNat second.toNat third.toNat) := by
  have smallTop := top.toNat_lt_base
  have smallSecond := second.toNat_lt_base
  fun_induction Trial.refine top.toNat second.toNat third.toNat trial with
  | case1 trial exceeds ih =>
      obtain ⟨short, larger⟩ := exceeds
      have product : trial.quotient * second.toNat < Digit.base * Digit.base :=
        Nat.mul_lt_mul'' isDigit smallSecond
      have wider : trial.rest + top.toNat < Digit.base * Digit.base :=
        (Nat.add_lt_add short smallTop).trans_le (by decide)
      have lowered : (trial.lower top.toNat).quotient < Digit.base :=
        Nat.lt_of_le_of_lt (Nat.sub_le _ 1) isDigit
      rw [wordRefine, if_pos short, Digit.wide?, if_pos product, Option.bind_some,
        Digit.joined?_eq short, Option.bind_some, if_neg (Nat.not_le.mpr larger),
        dif_pos (Trial.Exceeds.quotient_pos ⟨short, larger⟩), Digit.wide?, if_pos wider,
        Option.bind_some]
      exact ih lowered
  | case2 trial settled =>
      rw [wordRefine]
      split
      · rename_i short
        have product : trial.quotient * second.toNat < Digit.base * Digit.base :=
          Nat.mul_lt_mul'' isDigit smallSecond
        rw [Digit.wide?, if_pos product, Option.bind_some, Digit.joined?_eq short,
          Option.bind_some, if_pos (Nat.le_of_not_lt fun larger => settled ⟨short, larger⟩)]
      · rfl

/-! ### Multiples -/

/-- Subtract `factor * divisor + carry` and a borrow from a place of the remainder on, the carry at
last from the digit above those of the divisor. The flag says whether more was subtracted than there
was. -/
def wordReduce (factor : Digit) : (divisor rest : Digits) → (place : Nat) → (carry : Digit) →
    (borrow : Bool) → Option (Digits × Bool)
  | [], rest, place, carry, borrow =>
      (rest[place]?).map fun here =>
        let last := Digit.subBorrow here carry borrow
        (rest.set place last.1, last.2)
  | v :: vs, rest, place, carry, borrow =>
      (rest[place]?).bind fun here =>
        (Digit.wordScale factor v carry).bind fun product =>
          let difference := Digit.subBorrow here product.1 borrow
          wordReduce factor vs (rest.set place difference.1) (place + 1) product.2 difference.2

/-- Add the divisor and a carry from a place of the remainder on. The digit above those of the
divisor takes the last carry and wraps around. -/
def wordRestore : (divisor rest : Digits) → (place : Nat) → (carry : Bool) → Option Digits
  | [], rest, place, carry =>
      (rest[place]?).map fun here => rest.set place (here + if carry then 1 else 0)
  | v :: vs, rest, place, carry =>
      (rest[place]?).bind fun here =>
        let sum := Digit.addCarry here v carry
        wordRestore vs (rest.set place sum.1) (place + 1) sum.2

/-! ### The round -/

/-- What is left of the dividend, and the digits of the quotient. -/
structure DivisionState where
  rest : Digits
  quotient : Digits
  deriving DecidableEq, Repr

/-- The quotient digit and the remainder, once the multiple of a tried digit has been subtracted:
where that was too much, the digit is lowered, which one of zero cannot be, and one divisor is added
back. -/
def wordSettle (divisor : Digits) (factor : Digit) (place : Nat) (reduced : Digits × Bool) :
    Option (Digit × Digits) :=
  if reduced.2 then
    if factor = 0 then none
    else (wordRestore divisor reduced.1 place false).map fun rest => (factor - 1, rest)
  else some (factor, reduced.1)

/-- A round at a place of the remainder, which finds the quotient digit at that place. -/
def wordRound (divisor : Digits) (place : Nat) (s : DivisionState) : Option DivisionState :=
  (wordTrial divisor s.rest place).bind fun trial =>
    if trial.quotient < Digit.base then
      let factor := UInt64.ofNat trial.quotient
      (wordReduce factor divisor s.rest place 0 false).bind fun reduced =>
        (wordSettle divisor factor place reduced).bind fun settled =>
          if place < s.quotient.length then
            some { rest := settled.2, quotient := s.quotient.set place settled.1 }
          else none
    else none

/-- The window of a place: as many digits as the divisor has, and one more. -/
def windowAt (divisor rest : Digits) (place : Nat) : Digits :=
  (rest.drop place).take (divisor.length + 1)

/-- What a round finds and what it leaves, where `factor` is the digit that is tried. -/
structure RoundExact (divisor : Digits) (place : Nat) (s t : DivisionState) (factor : Digit)
    (reduced : Digits × Bool) : Prop where
  topBit : 2 ^ 63 ≤ digitAt divisor (divisor.length - 1)
  below : (windowAt divisor s.rest place).toNat < divisor.toNat * Digit.base
  /-- Nothing gets too wide and nothing falls below zero. -/
  runs : wordRound divisor place s = some t
  tried : wordTrial divisor s.rest place =
    some (trialDigit divisor (windowAt divisor s.rest place))
  isDigit : (trialDigit divisor (windowAt divisor s.rest place)).quotient = factor.toNat
  oneOff : factor.toNat = (windowAt divisor s.rest place).toNat / divisor.toNat ∨
    factor.toNat = (windowAt divisor s.rest place).toNat / divisor.toNat + 1
  subtracted : wordReduce factor divisor s.rest place 0 false = some reduced
  overshoots : reduced.2 = true ↔
    factor.toNat = (windowAt divisor s.rest place).toNat / divisor.toNat + 1
  kept : reduced.2 = false → t.rest = reduced.1
  /-- One divisor is enough to add back. -/
  restored : reduced.2 = true → wordRestore divisor reduced.1 place false = some t.rest
  rest : (windowAt divisor t.rest place).toNat =
    (windowAt divisor s.rest place).toNat % divisor.toNat
  settled : (windowAt divisor t.rest place).toNat < divisor.toNat
  cleared : t.rest[place + divisor.length]? = some 0
  frame : t.rest.take place = s.rest.take place ∧
    t.rest.drop (place + divisor.length + 1) = s.rest.drop (place + divisor.length + 1)
  digit : ∃ d : Digit, d.toNat = (windowAt divisor s.rest place).toNat / divisor.toNat ∧
    divideWindow divisor (windowAt divisor s.rest place) = (d, windowAt divisor t.rest place) ∧
    t.quotient = s.quotient.set place d

section Window

variable {divisor window : Digits}

theorem exists_digitAt {ds : Digits} {place : Nat} (inRange : place < ds.length) :
    ∃ d : Digit, ds[place]? = some d ∧ d.toNat = digitAt ds place := by
  refine ⟨ds[place], List.getElem?_eq_getElem inRange, ?_⟩
  rw [digitAt, List.getD_eq_getElem?_getD, List.getElem?_eq_getElem inRange, Option.getD_some]

/-- Digits whose number needs one digit less have a zero at the top. -/
theorem read_top_zero {ds : Digits} {n : Nat} (length : ds.length = n + 1)
    (small : ds.toNat < Digit.base ^ n) : ds[n]? = some 0 := by
  obtain ⟨top, read, value⟩ := exists_digitAt (show n < ds.length by omega)
  rw [digitAt_eq, Nat.div_eq_of_lt small, Nat.zero_mod, ← Digit.eq_zero_iff_toNat] at value
  rw [read, value]

theorem getElem?_window (below above : Digits) {place : Nat} (inRange : place < window.length) :
    (below ++ window ++ above)[below.length + place]? = window[place]? := by
  rw [List.append_assoc, List.getElem?_append_right (Nat.le_add_right _ _), Nat.add_sub_cancel_left,
    List.getElem?_append_left inRange]

/-- **The trial digit of a window** is found in place. -/
theorem wordTrial_eq (canonical : divisor.Canonical) (long : 2 ≤ divisor.length)
    (fits : window.length = divisor.length + 1) (below above : Digits) :
    wordTrial divisor (below ++ window ++ above) below.length =
      some (trialDigit divisor window) := by
  obtain ⟨top, readTop, isTop⟩ :=
    exists_digitAt (show divisor.length - 1 < divisor.length by omega)
  obtain ⟨second, readSecond, isSecond⟩ :=
    exists_digitAt (show divisor.length - 2 < divisor.length by omega)
  obtain ⟨highest, readHighest, isHighest⟩ :=
    exists_digitAt (show divisor.length < window.length by omega)
  obtain ⟨next, readNext, isNext⟩ :=
    exists_digitAt (show divisor.length - 1 < window.length by omega)
  obtain ⟨third, readThird, isThird⟩ :=
    exists_digitAt (show divisor.length - 2 < window.length by omega)
  have nonzero : top ≠ 0 := by
    rw [Ne, Digit.eq_zero_iff_toNat, isTop]
    exact (leads_of_window canonical long fits).top_pos.ne'
  rw [← getElem?_window below above (by omega)] at readHighest readNext readThird
  have made : trialDigit divisor window =
      (Trial.first top.toNat (highest.toNat * Digit.base + next.toNat)).refine top.toNat
        second.toNat third.toNat := by
    rw [isTop, isSecond, isHighest, isNext, isThird, trialDigit]
  rw [made, ← wordRefine_eq top second third (Trial.first_lt _ _), wordTrial,
    Nat.add_sub_assoc (by omega), Nat.add_sub_assoc (by omega)]
  simp only [readTop, readSecond, readHighest, readNext, readThird, Option.bind_eq_bind,
    Option.bind_some]
  rw [Digit.joined?_eq highest.toNat_lt_base, Option.bind_some, wordFirst_eq nonzero,
    Option.bind_some]

/-- **A multiple is subtracted from its window only**, and that as from the window alone. -/
theorem wordReduce_eq (factor : Digit) (fits : window.length = divisor.length + 1)
    (below above : Digits) (carry : Digit) (borrow : Bool) :
    wordReduce factor divisor (below ++ window ++ above) below.length carry borrow =
      some (below ++ (subMultiple factor divisor window carry borrow).1 ++ above,
        (subMultiple factor divisor window carry borrow).2) := by
  induction divisor generalizing window below carry borrow with
  | nil =>
      obtain ⟨here, rfl⟩ := List.length_eq_one_iff.mp fits
      simp only [wordReduce, read_window, Option.map_some, set_window, subMultiple, subPass,
        List.headD_cons]
      simp
  | cons v vs ih =>
      cases window with
      | nil => cases fits
      | cons here window =>
          simp only [wordReduce, read_window, Option.bind_some, Digit.wordScale_eq, set_window,
            subMultiple, List.headD_cons, List.tail_cons]
          rw [length_joined, ih (Nat.succ.inj fits)]
          simp

/-- **A divisor is added to its window only**, and that as to the window alone. -/
theorem wordRestore_eq (fits : window.length = divisor.length + 1) (below above : Digits)
    (carry : Bool) :
    wordRestore divisor (below ++ window ++ above) below.length carry =
      some (below ++ (addPass window divisor carry).1 ++ above) := by
  induction divisor generalizing window below carry with
  | nil =>
      obtain ⟨here, rfl⟩ := List.length_eq_one_iff.mp fits
      have last : here + (if carry then 1 else 0) = (Digit.addCarry here 0 carry).1 := by
        rw [← UInt64.toNat_inj, UInt64.toNat_add, Digit.addCarry, Digit.toNat_ofNat_mod]
        cases carry <;> rfl
      simp only [wordRestore, read_window, Option.map_some, set_window, last, addPass,
        List.headD_nil]
      simp
  | cons v vs ih =>
      cases window with
      | nil => cases fits
      | cons here window =>
          simp only [wordRestore, read_window, Option.bind_some, set_window, addPass,
            List.headD_cons, List.tail_cons]
          rw [length_joined, ih (Nat.succ.inj fits)]
          simp

theorem windowAt_eq (fits : window.length = divisor.length + 1) (below above : Digits) :
    windowAt divisor (below ++ window ++ above) below.length = window := by
  rw [windowAt, List.append_assoc, List.drop_left, ← fits, List.take_left]

/-! ### What a round does -/

variable (canonical : divisor.Canonical) (long : 2 ≤ divisor.length)
  (fits : window.length = divisor.length + 1)
  (small : window.toNat < divisor.toNat * Digit.base) (low high : Digits)

theorem divideWindow_eq {factor : Digit}
    (tried : UInt64.ofNat (trialDigit divisor window).quotient = factor) :
    divideWindow divisor window =
      if (subMultiple factor divisor window 0 false).2 then
        (factor - 1, (addPass (subMultiple factor divisor window 0 false).1 divisor false).1)
      else (factor, (subMultiple factor divisor window 0 false).1) := by
  rw [divideWindow, tried]

section Settled

include fits

/-- A digit that was tried for too large a multiple is not zero, so that it can be lowered. -/
theorem wordSettle_eq {factor : Digit}
    (tried : UInt64.ofNat (trialDigit divisor window).quotient = factor) :
    wordSettle divisor factor low.length
        (low ++ (subMultiple factor divisor window 0 false).1 ++ high,
          (subMultiple factor divisor window 0 false).2) =
      some ((divideWindow divisor window).1, low ++ (divideWindow divisor window).2 ++ high) := by
  have longer : divisor.length < window.length := fits ▸ Nat.lt_succ_self _
  have overshot := subMultiple_overshoots factor longer
  have length := length_subMultiple factor longer 0 false
  rw [divideWindow_eq tried]
  unfold wordSettle
  split
  · rename_i more
    have nonzero : factor ≠ 0 := by
      rintro rfl
      rw [more, eq_comm, decide_eq_true_iff, UInt64.toNat_zero, Nat.zero_mul] at overshot
      exact Nat.not_lt_zero _ overshot
    rw [if_neg nonzero, wordRestore_eq (length.trans fits)]
    rfl
  · rfl

end Settled

include canonical long fits small

/-- **A round divides its window** and changes nothing else. -/
theorem wordRound_eq {quotient : Digits} (inRange : low.length < quotient.length) :
    wordRound divisor low.length { rest := low ++ window ++ high, quotient := quotient } =
      some
        { rest := low ++ (divideWindow divisor window).2 ++ high
          quotient := quotient.set low.length (divideWindow divisor window).1 } := by
  have isDigit := (trialDigit_covers canonical long fits small).1
  rw [wordRound, wordTrial_eq canonical long fits, Option.bind_some, if_pos isDigit]
  simp only [wordReduce_eq _ fits, Option.bind_some, wordSettle_eq fits low high rfl,
    if_pos inRange]

/-- **Every round is exact**, as long as its window is below the divisor times the base. -/
theorem wordRound_exact (topBit : 2 ^ 63 ≤ digitAt divisor (divisor.length - 1))
    {quotient : Digits} (inRange : low.length < quotient.length) :
    ∃ factor reduced,
      RoundExact divisor low.length { rest := low ++ window ++ high, quotient := quotient }
        { rest := low ++ (divideWindow divisor window).2 ++ high
          quotient := quotient.set low.length (divideWindow divisor window).1 }
        factor reduced := by
  have longer : divisor.length < window.length := fits ▸ Nat.lt_succ_self _
  have positive := (leads_of_window canonical long fits).divisor_pos
  have tried := wordTrial_eq canonical long fits low high
  have runs := wordRound_eq canonical long fits small low high inRange
  obtain ⟨isDigit, notBelow, notAbove⟩ := trialDigit_covers canonical long fits small
  obtain ⟨quotientExact, restExact, length⟩ := divideWindow_exact canonical long fits small
  have fitsRest := length.trans fits
  have window' := windowAt_eq fits low high
  have rest' := windowAt_eq fitsRest low high
  have less := Nat.mod_lt window.toNat positive
  have isFactor := Digit.toNat_ofNat_of_lt isDigit
  obtain ⟨factor, tryIt⟩ : ∃ factor, UInt64.ofNat (trialDigit divisor window).quotient = factor :=
    ⟨_, rfl⟩
  have made := divideWindow_eq tryIt
  rw [tryIt] at isFactor
  rw [← isFactor] at notBelow notAbove
  have lengthReduced := (length_subMultiple factor longer 0 false).trans fits
  have subtracted := wordReduce_eq factor fits low high 0 false
  refine ⟨factor, _,
    { topBit := topBit
      below := by rwa [window']
      runs := runs
      tried := by rwa [window']
      isDigit := by rw [window', isFactor]
      oneOff := by rw [window']; omega
      subtracted := subtracted
      overshoots := ?overshoots
      kept := ?kept
      restored := ?restored
      rest := by rw [window', rest', restExact]
      settled := by rwa [rest', restExact]
      cleared := ?cleared
      frame := ?frame
      digit := ⟨_, by rw [window', quotientExact], by rw [window', rest'], rfl⟩ }⟩
  case overshoots =>
    rw [window']
    rcases Nat.lt_or_eq_of_le notAbove with notMore | excess
    · have exact := Nat.le_antisymm (Nat.le_of_lt_succ notMore) notBelow
      rw [(subMultiple_exact longer exact).1]
      exact iff_of_false Bool.false_ne_true notMore.ne
    · exact iff_of_true (addBack_exact longer positive excess).1 excess
  case kept =>
    intro enough
    rw [made, if_neg (Bool.not_eq_true _ ▸ enough)]
  case restored =>
    intro more
    rw [made, if_pos more]
    exact wordRestore_eq lengthReduced low high false
  case cleared =>
    rw [getElem?_window low high (by omega)]
    exact read_top_zero fitsRest (restExact ▸ less.trans (toNat_lt_pow_length divisor))
  case frame =>
    constructor
    · simp only [List.append_assoc, List.take_left]
    · have skipped {middle : Digits} (same : middle.length = divisor.length + 1) :
          (low ++ middle ++ high).drop (low.length + divisor.length + 1) = high := by
        rw [Nat.add_assoc, ← same, ← List.length_append, List.drop_left]
      rw [skipped fitsRest, skipped fits]

end Window

end Digits

end Bignum
