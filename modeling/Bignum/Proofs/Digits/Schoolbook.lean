import Bignum.Digits.Quotient
import Bignum.Proofs.Digits.Product

/-!
Division by two or more digits, by the numbers.

A trial digit is never below the quotient digit of its window, before and after it is lowered
(`Trial.Covers`), and what stops the lowering bounds it from above: it then exceeds the quotient
digit by at most one (`Trial.Covers.le_succ`). So subtracting its multiple of the divisor borrows
from beyond the window exactly if it is one too large, and adding one divisor back mends that.

* `divideWindow_exact`: a window below the divisor times the base is divided exactly.
* `divideWindows_exact`: so is a number whose upper part is below the divisor, by induction on the
  windows.
* `divRemSchoolbook_exact`: shifting both numbers first and the remainder back changes nothing.
-/

namespace Bignum.Digits

/-! ### Digits at places -/

/-- The digit at a place is the lowest one of what stands from there up. -/
theorem digitAt_eq (ds : Digits) (place : Nat) :
    digitAt ds place = ds.toNat / Digit.base ^ place % Digit.base := by
  rw [← toNat_drop, toNat_eq_headD_add_tail, Nat.add_mul_mod_self_left,
    Nat.mod_eq_of_lt (Digit.toNat_lt_base _), digitAt, List.getD_eq_getElem?_getD,
    List.headD_eq_head?_getD, List.head?_drop]

theorem digitAt_lt (ds : Digits) (place : Nat) : digitAt ds place < Digit.base :=
  Digit.toNat_lt_base _

/-- What stands from a place up is the digit there, below what stands above it. -/
theorem digitAt_add (ds : Digits) (place : Nat) :
    digitAt ds place + Digit.base * (ds.toNat / Digit.base ^ (place + 1)) =
      ds.toNat / Digit.base ^ place := by
  rw [digitAt_eq, pow_succ, ← Nat.div_div_eq_div_mul, Nat.mod_add_div]

/-- Nothing stands beyond the top. -/
theorem div_pow_length (ds : Digits) : ds.toNat / Digit.base ^ ds.length = 0 :=
  Nat.div_eq_of_lt (toNat_lt_pow_length ds)

/-! ### Trial digits -/

/-- What the trial digit of a window is taken from: the top digit of the divisor and the one below
it, and the top two digits of the window and the one below them. -/
structure Leads (divisor window top second leading third scale : Nat) : Prop where
  divisor_div : divisor / scale = top * Digit.base + second
  window_div : window / scale = leading * Digit.base + third
  second_lt : second < Digit.base
  third_lt : third < Digit.base
  top_pos : 0 < top
  scale_pos : 0 < scale

namespace Leads

variable {divisor window top second leading third scale : Nat}
  (leads : Leads divisor window top second leading third scale)

include leads

theorem le_divisor : scale * (top * Digit.base + second) ≤ divisor := by
  rw [← leads.divisor_div]
  exact Nat.mul_div_le divisor scale

theorem divisor_lt : divisor < scale * (top * Digit.base + second + 1) := by
  rw [← leads.divisor_div]
  exact Nat.lt_mul_div_succ divisor leads.scale_pos

theorem le_window : scale * (leading * Digit.base + third) ≤ window := by
  rw [← leads.window_div]
  exact Nat.mul_div_le window scale

theorem window_lt : window < scale * (leading * Digit.base + third + 1) := by
  rw [← leads.window_div]
  exact Nat.lt_mul_div_succ window leads.scale_pos

theorem scale_mul_base_le : scale * Digit.base ≤ divisor := by
  refine Nat.le_trans (Nat.mul_le_mul_left scale ?_) leads.le_divisor
  exact Nat.le_add_right_of_le (Nat.le_mul_of_pos_left _ leads.top_pos)

theorem divisor_pos : 0 < divisor :=
  Nat.lt_of_lt_of_le (Nat.mul_pos leads.scale_pos Digit.base_pos) leads.scale_mul_base_le

/-- The leading digits of a multiple that fits into the window fit into those of the window. -/
theorem mul_le_of_mul_le {q : Nat} (fits : q * divisor ≤ window) :
    q * (top * Digit.base + second) ≤ leading * Digit.base + third := by
  have multiple : scale * (q * (top * Digit.base + second)) ≤ q * divisor := by
    rw [Nat.mul_left_comm]
    exact Nat.mul_le_mul_left q leads.le_divisor
  have below := Nat.lt_of_le_of_lt (Nat.le_trans multiple fits) leads.window_lt
  exact Nat.le_of_lt_succ (Nat.lt_of_mul_lt_mul_left below)

end Leads

namespace Trial

/-- A trial accounts for the top two digits of its window, is one digit, and is not below the
quotient digit. -/
structure Covers (top leading quotient : Nat) (trial : Trial) : Prop where
  splits : trial.quotient * top + trial.rest = leading
  isDigit : trial.quotient < Digit.base
  notBelow : quotient ≤ trial.quotient

variable {divisor window top second leading third scale : Nat}
  (leads : Leads divisor window top second leading third scale)

include leads

/-- The first trial is not too small. -/
theorem first_covers (small : window / divisor < Digit.base) :
    (first top leading).Covers top leading (window / divisor) := by
  unfold first
  split
  · rename_i isDigit
    refine ⟨Nat.div_add_mod' leading top, isDigit, ?_⟩
    have fits := leads.mul_le_of_mul_le (Nat.div_mul_le_self window divisor)
    have third := leads.third_lt
    have head : window / divisor * top * Digit.base < (leading + 1) * Digit.base := by
      rw [Nat.mul_add, ← Nat.mul_assoc] at fits
      rw [Nat.add_one_mul]
      omega
    exact (Nat.le_div_iff_mul_le leads.top_pos).mpr
      (Nat.le_of_lt_succ (Nat.lt_of_mul_lt_mul_right head))
  · rename_i large
    have enough : Digit.base * top ≤ leading :=
      (Nat.le_div_iff_mul_le leads.top_pos).mp (Nat.le_of_not_lt large)
    refine ⟨Nat.add_sub_cancel' ?_, Nat.sub_one_lt (by decide), Nat.le_sub_one_of_lt small⟩
    exact Nat.le_trans (Nat.mul_le_mul_right top (Nat.sub_le _ 1)) enough

/-- A trial that is seen to be too large is, and can be lowered. -/
theorem Covers.lower {trial : Trial} (covers : trial.Covers top leading (window / divisor))
    (exceeds : trial.Exceeds second third) :
    (trial.lower top).Covers top leading (window / divisor) := by
  have positive := exceeds.quotient_pos
  have tooLarge : window < divisor * trial.quotient := by
    rw [Nat.mul_comm]
    refine Nat.lt_of_not_le fun fits => ?_
    have bound := leads.mul_le_of_mul_le fits
    rw [← covers.splits, Nat.mul_add, ← Nat.mul_assoc, Nat.add_mul] at bound
    have seen := exceeds.2
    omega
  have less := Nat.div_lt_of_lt_mul tooLarge
  refine ⟨?_, Nat.lt_of_le_of_lt (Nat.sub_le _ 1) covers.isDigit, Nat.le_sub_one_of_lt less⟩
  show (trial.quotient - 1) * top + (trial.rest + top) = leading
  rw [Nat.add_comm trial.rest, ← Nat.add_assoc, ← Nat.add_one_mul, Nat.sub_add_cancel positive]
  exact covers.splits

/-- Lowering a trial while it is seen to be too large keeps it from being too small. -/
theorem Covers.refine {trial : Trial} (covers : trial.Covers top leading (window / divisor)) :
    (trial.refine top second third).Covers top leading (window / divisor) ∧
      ¬ (trial.refine top second third).Exceeds second third := by
  fun_induction Trial.refine with
  | case1 trial exceeds ih => exact ih (covers.lower leads exceeds)
  | case2 trial settled => exact ⟨covers, settled⟩

/-- **A trial exceeds the quotient digit by at most one** once nothing shows that it is too
large. -/
theorem Covers.le_succ {trial : Trial} (covers : trial.Covers top leading (window / divisor))
    (settled : ¬ trial.Exceeds second third) : trial.quotient ≤ window / divisor + 1 := by
  -- A rest of more than one digit says by itself what the comparison would.
  have shown : trial.quotient * second ≤ trial.rest * Digit.base + third := by
    by_cases short : trial.rest < Digit.base
    · exact Nat.le_of_not_lt fun larger => settled ⟨short, larger⟩
    · calc trial.quotient * second ≤ Digit.base * Digit.base :=
          Nat.mul_le_mul covers.isDigit.le leads.second_lt.le
        _ ≤ trial.rest * Digit.base := Nat.mul_le_mul_right _ (Nat.le_of_not_lt short)
        _ ≤ trial.rest * Digit.base + third := Nat.le_add_right _ _
  have head : trial.quotient * (top * Digit.base + second) ≤ leading * Digit.base + third := by
    rw [← covers.splits, Nat.mul_add, ← Nat.mul_assoc, Nat.add_mul]
    omega
  have multiple : trial.quotient * divisor ≤ window + divisor := by
    calc trial.quotient * divisor
        ≤ trial.quotient * (scale * (top * Digit.base + second + 1)) :=
          Nat.mul_le_mul_left _ leads.divisor_lt.le
      _ = scale * (trial.quotient * (top * Digit.base + second)) + scale * trial.quotient := by ring
      _ ≤ scale * (leading * Digit.base + third) + scale * Digit.base :=
          Nat.add_le_add (Nat.mul_le_mul_left _ head) (Nat.mul_le_mul_left _ covers.isDigit.le)
      _ ≤ window + divisor := Nat.add_le_add leads.le_window leads.scale_mul_base_le
  rw [← Nat.add_div_right window leads.divisor_pos]
  exact (Nat.le_div_iff_mul_le leads.divisor_pos).mpr multiple

end Trial

/-! ### One window -/

section Window

variable {divisor window : Digits}

/-- **The multiple of a divisor is subtracted exactly**, with what is borrowed from beyond the
window counted in. -/
theorem toNat_subMultiple (factor : Digit) (longer : divisor.length < window.length)
    (carry : Digit) (borrow : Bool) :
    (subMultiple factor divisor window carry borrow).1.toNat + factor.toNat * divisor.toNat +
        carry.toNat + borrow.toNat =
      window.toNat +
        Digit.base ^ window.length * (subMultiple factor divisor window carry borrow).2.toNat := by
  induction divisor generalizing window carry borrow with
  | nil =>
      have pass := toNat_subPass (b := [carry]) longer borrow
      simp only [toNat_cons, toNat_nil, Nat.mul_zero, Nat.add_zero] at pass ⊢
      exact pass
  | cons v vs ih =>
      cases window with
      | nil => exact absurd longer (Nat.not_lt_zero _)
      | cons w ws =>
          have fits : factor.toNat * v.toNat + carry.toNat < Digit.base * Digit.base := by
            simpa using Digit.row_total_lt 0 factor v carry
          have product := Digit.split_toNat fits
          have here := subBorrow_toNat w
            (Digit.split (factor.toNat * v.toNat + carry.toNat)).1 borrow
          have above := ih (Nat.lt_of_succ_lt_succ longer)
            (Digit.split (factor.toNat * v.toNat + carry.toNat)).2
            (Digit.subBorrow w (Digit.split (factor.toNat * v.toNat + carry.toNat)).1 borrow).2
          simp only [subMultiple, List.headD_cons, List.tail_cons, toNat_cons, List.length_cons,
            pow_succ]
          linear_combination here + Digit.base * above - product

theorem length_subMultiple (factor : Digit) (longer : divisor.length < window.length)
    (carry : Digit) (borrow : Bool) :
    (subMultiple factor divisor window carry borrow).1.length = window.length := by
  induction divisor generalizing window carry borrow with
  | nil => exact length_subPass window [carry] borrow
  | cons v vs ih =>
      cases window with
      | nil => exact absurd longer (Nat.not_lt_zero _)
      | cons w ws =>
          simp only [subMultiple, List.tail_cons, List.length_cons,
            ih (Nat.lt_of_succ_lt_succ longer)]

/-- More is subtracted than there was exactly if the multiple is larger than the window. -/
theorem subMultiple_overshoots (factor : Digit) (longer : divisor.length < window.length) :
    (subMultiple factor divisor window 0 false).2 =
      decide (window.toNat < factor.toNat * divisor.toNat) := by
  have exact := toNat_subMultiple factor longer 0 false
  have small := toNat_lt_pow_length (subMultiple factor divisor window 0 false).1
  rw [length_subMultiple factor longer] at small
  simp only [UInt64.toNat_zero, Bool.toNat_false, Nat.add_zero] at exact
  cases overshot : (subMultiple factor divisor window 0 false).2 with
  | false =>
      simp only [overshot, Bool.toNat_false, Nat.mul_zero, Nat.add_zero] at exact
      exact (decide_eq_false (by omega)).symm
  | true =>
      simp only [overshot, Bool.toNat_true, Nat.mul_one] at exact
      exact (decide_eq_true (by omega)).symm

/-- Subtracting the right multiple leaves the remainder. -/
theorem subMultiple_exact {factor : Digit} (longer : divisor.length < window.length)
    (right : factor.toNat = window.toNat / divisor.toNat) :
    (subMultiple factor divisor window 0 false).2 = false ∧
      (subMultiple factor divisor window 0 false).1.toNat = window.toNat % divisor.toNat := by
  have parts := Nat.div_add_mod' window.toNat divisor.toNat
  have reduced := toNat_subMultiple factor longer 0 false
  have overshot := subMultiple_overshoots factor longer
  rw [← right] at parts
  rw [decide_eq_false (by omega)] at overshot
  simp only [overshot, UInt64.toNat_zero, Bool.toNat_false, Nat.mul_zero, Nat.add_zero] at reduced
  exact ⟨overshot, by omega⟩

/-- Subtracting one multiple more overshoots, and adding one divisor back leaves the remainder: what
it carries out of the top is what was borrowed. -/
theorem addBack_exact {factor : Digit} (longer : divisor.length < window.length)
    (positive : 0 < divisor.toNat) (excess : factor.toNat = window.toNat / divisor.toNat + 1) :
    (subMultiple factor divisor window 0 false).2 = true ∧
      (addPass (subMultiple factor divisor window 0 false).1 divisor false).1.toNat =
        window.toNat % divisor.toNat := by
  have parts := Nat.div_add_mod' window.toNat divisor.toNat
  have below := Nat.mod_lt window.toNat positive
  have multiple : factor.toNat * divisor.toNat =
      window.toNat / divisor.toNat * divisor.toNat + divisor.toNat := by
    rw [excess, Nat.add_one_mul]
  have reduced := toNat_subMultiple factor longer 0 false
  have length := length_subMultiple factor longer 0 false
  have overshot := subMultiple_overshoots factor longer
  rw [decide_eq_true (by omega)] at overshot
  simp only [overshot, UInt64.toNat_zero, Bool.toNat_false, Bool.toNat_true, Nat.add_zero,
    Nat.mul_one] at reduced
  refine ⟨overshot, ?_⟩
  generalize (subMultiple factor divisor window 0 false).1 = rest at *
  have back := toNat_addPass (length.symm ▸ longer.le : divisor.length ≤ rest.length) false
  have small := toNat_lt_pow_length (addPass rest divisor false).1
  rw [length_addPass, length] at small
  rw [length, Bool.toNat_false, Nat.add_zero] at back
  cases carried : (addPass rest divisor false).2 with
  | false =>
      simp only [carried, Bool.toNat_false, Nat.mul_zero, Nat.add_zero] at back
      omega
  | true =>
      simp only [carried, Bool.toNat_true, Nat.mul_one] at back
      omega

variable (canonical : divisor.Canonical) (long : 2 ≤ divisor.length)
  (fits : window.length = divisor.length + 1)

include canonical long fits

/-- The digits that a trial is made from lead the divisor and the window. -/
theorem leads_of_window :
    Leads divisor.toNat window.toNat (digitAt divisor (divisor.length - 1))
      (digitAt divisor (divisor.length - 2))
      (digitAt window divisor.length * Digit.base + digitAt window (divisor.length - 1))
      (digitAt window (divisor.length - 2)) (Digit.base ^ (divisor.length - 2)) := by
  obtain ⟨n, length⟩ : ∃ n, divisor.length = n + 2 := ⟨divisor.length - 2, by omega⟩
  have nonempty : divisor ≠ [] := List.ne_nil_of_length_pos (by omega)
  have large := canonical.pow_le_toNat nonempty
  have none := div_pow_length divisor
  have top := digitAt_add divisor (n + 1)
  have second := digitAt_add divisor n
  have none' := div_pow_length window
  have first := digitAt_add window (n + 2)
  have next := digitAt_add window (n + 1)
  have third := digitAt_add window n
  rw [fits] at none'
  rw [length] at large none none' ⊢
  simp only [Nat.add_sub_cancel, show n + 2 - 1 = n + 1 from rfl] at large ⊢
  rw [none, Nat.mul_zero, Nat.add_zero] at top
  rw [none', Nat.mul_zero, Nat.add_zero] at first
  refine ⟨?_, ?_, digitAt_lt _ _, digitAt_lt _ _, ?_, Digit.base_pow_pos n⟩
  · rw [← second, ← top]
    ring
  · rw [← third, ← next, ← first]
    ring
  · rw [top]
    exact Nat.div_pos large (Digit.base_pow_pos _)

variable (below : window.toNat < divisor.toNat * Digit.base)

include below

/-- **The trial digit of a window** is its quotient digit or one more. -/
theorem trialDigit_covers :
    (trialDigit divisor window).quotient < Digit.base ∧
      window.toNat / divisor.toNat ≤ (trialDigit divisor window).quotient ∧
      (trialDigit divisor window).quotient ≤ window.toNat / divisor.toNat + 1 := by
  have leads := leads_of_window canonical long fits
  have first := Trial.first_covers leads (Nat.div_lt_of_lt_mul below)
  obtain ⟨covers, settled⟩ := first.refine leads
  exact ⟨covers.isDigit, covers.notBelow, covers.le_succ leads settled⟩

/-- **A window is divided exactly.** -/
theorem divideWindow_exact :
    (divideWindow divisor window).1.toNat = window.toNat / divisor.toNat ∧
      (divideWindow divisor window).2.toNat = window.toNat % divisor.toNat ∧
      (divideWindow divisor window).2.length = window.length := by
  have longer : divisor.length < window.length := fits ▸ Nat.lt_succ_self _
  obtain ⟨isDigit, notBelow, notAbove⟩ := trialDigit_covers canonical long fits below
  have factor := Digit.toNat_ofNat_of_lt isDigit
  simp only [divideWindow]
  generalize UInt64.ofNat (trialDigit divisor window).quotient = trial at *
  rw [← factor] at notBelow notAbove
  have length := length_subMultiple trial longer 0 false
  rcases Nat.lt_or_eq_of_le notAbove with notMore | oneMore
  · have digit := Nat.le_antisymm (Nat.le_of_lt_succ notMore) notBelow
    obtain ⟨kept, rest⟩ := subMultiple_exact longer digit
    simp only [kept, Bool.false_eq_true, if_false]
    exact ⟨digit, rest, length⟩
  · have positive := (leads_of_window canonical long fits).divisor_pos
    obtain ⟨overshot, rest⟩ := addBack_exact longer positive oneMore
    have some : 1 ≤ trial := by
      rw [UInt64.le_iff_toNat_le, UInt64.toNat_one, oneMore]
      exact Nat.le_add_left 1 _
    have lowered : (trial - 1).toNat = trial.toNat - 1 := UInt64.toNat_sub_of_le trial 1 some
    simp only [overshot, if_true]
    refine ⟨?_, rest, (length_addPass _ _ _).trans length⟩
    rw [lowered, oneMore, Nat.add_sub_cancel]

end Window

/-! ### All windows -/

/-- A remainder with a digit below it is a window. -/
theorem cons_lt_mul_base (d : Digit) {rest : Digits} {m : Nat} (less : rest.toNat < m) :
    toNat (d :: rest) < m * Digit.base := by
  have small := Digit.toNat_lt_base d
  calc toNat (d :: rest) < Digit.base * (rest.toNat + 1) := by
        rw [toNat_cons, Nat.mul_add_one]
        omega
    _ ≤ Digit.base * m := Nat.mul_le_mul_left _ less
    _ = m * Digit.base := Nat.mul_comm _ _

section Windows

variable {divisor high : Digits} (canonical : divisor.Canonical) (long : 2 ≤ divisor.length)

include canonical long

/-- **Window by window, the whole number is divided exactly**: the remainder of the windows above
stays below the divisor, so that with the next digit it is a window again. -/
theorem divideWindows_exact (low : Digits) (fits : high.length = divisor.length)
    (below : high.toNat < divisor.toNat) :
    (divideWindows divisor low high).1.toNat * divisor.toNat +
        (divideWindows divisor low high).2.toNat = toNat (low ++ high) ∧
      (divideWindows divisor low high).2.toNat < divisor.toNat ∧
      (divideWindows divisor low high).2.length = divisor.length := by
  induction low with
  | nil => exact ⟨by simp [divideWindows], below, fits⟩
  | cons d ds ih =>
      obtain ⟨exact, rest, length⟩ := ih
      have window := cons_lt_mul_base d rest
      have oneMore : (d :: (divideWindows divisor ds high).2).length = divisor.length + 1 := by
        rw [List.length_cons, length]
      obtain ⟨quotient, remainder, longer⟩ := divideWindow_exact canonical long oneMore window
      have positive : 0 < divisor.toNat := Nat.zero_lt_of_lt rest
      have less := Nat.mod_lt (toNat (d :: (divideWindows divisor ds high).2)) positive
      have parts := Nat.div_add_mod' (toNat (d :: (divideWindows divisor ds high).2)) divisor.toNat
      -- The remainder has nothing in the digit above those of the divisor.
      have kept : toNat ((divideWindow divisor (d :: (divideWindows divisor ds high).2)).2.take
          divisor.length) = toNat (d :: (divideWindows divisor ds high).2) % divisor.toNat := by
        rw [toNat_take, remainder]
        exact Nat.mod_eq_of_lt (less.trans (toNat_lt_pow_length divisor))
      simp only [divideWindows]
      refine ⟨?_, kept.trans_lt less, ?_⟩
      · rw [kept, toNat_cons, quotient, List.cons_append, toNat_cons d (ds ++ high), ← exact]
        rw [toNat_cons] at parts ⊢
        linear_combination parts
      · rw [List.length_take, longer, List.length_cons, length]
        exact Nat.min_eq_left (Nat.le_succ _)

/-- A number that is too small to reach beyond the windows is divided from its top digits down. -/
theorem divideWindows_whole {whole : Digits} (le : divisor.length ≤ whole.length)
    (below : whole.toNat < divisor.toNat * Digit.base ^ (whole.length - divisor.length)) :
    let result := divideWindows divisor (whole.take (whole.length - divisor.length))
      (whole.drop (whole.length - divisor.length))
    result.1.toNat = whole.toNat / divisor.toNat ∧
      result.2.toNat = whole.toNat % divisor.toNat := by
  intro result
  have fits : (whole.drop (whole.length - divisor.length)).length = divisor.length := by
    rw [List.length_drop]
    omega
  have start : toNat (whole.drop (whole.length - divisor.length)) < divisor.toNat := by
    rw [toNat_drop]
    exact Nat.div_lt_of_lt_mul (Nat.mul_comm _ _ ▸ below)
  obtain ⟨exact, rest, -⟩ := divideWindows_exact canonical long
    (whole.take (whole.length - divisor.length)) fits start
  rw [List.take_append_drop, Nat.add_comm, Nat.mul_comm] at exact
  obtain ⟨quotient, remainder⟩ := (Nat.div_mod_unique (Nat.zero_lt_of_lt rest)).mpr ⟨exact, rest⟩
  exact ⟨quotient.symm, remainder.symm⟩

end Windows

/-! ### Shifted numbers -/

/-- A shift by the bits that the top digit leaves free carries nothing out. -/
theorem toNat_mul_pow_lt {ds : Digits} (nonempty : ds ≠ []) :
    ds.toNat * 2 ^ (64 - (ds.getLastD 0).bitLength) < Digit.base ^ ds.length := by
  rcases List.eq_nil_or_concat' ds with rfl | ⟨low, top, rfl⟩
  · exact absurd rfl nonempty
  · have small := toNat_lt_pow_length low
    have bits := top.toNat_lt_pow_bitLength
    have whole : toNat (low ++ [top]) < Digit.base ^ low.length * 2 ^ top.bitLength := by
      calc toNat (low ++ [top]) = toNat low + Digit.base ^ low.length * top.toNat := by
            rw [toNat_append, toNat_cons, toNat_nil, Nat.mul_zero, Nat.add_zero]
        _ < Digit.base ^ low.length * (top.toNat + 1) := by rw [Nat.mul_add_one]; omega
        _ ≤ Digit.base ^ low.length * 2 ^ top.bitLength := Nat.mul_le_mul_left _ bits
    rw [List.getLastD_concat, List.length_append, List.length_singleton, pow_succ]
    calc toNat (low ++ [top]) * 2 ^ (64 - top.bitLength)
        < Digit.base ^ low.length * 2 ^ top.bitLength * 2 ^ (64 - top.bitLength) :=
          Nat.mul_lt_mul_of_pos_right whole (Nat.two_pow_pos _)
      _ = Digit.base ^ low.length * Digit.base := by
          rw [Nat.mul_assoc, ← Digit.base_eq_mul top.bitLength_le]

section Schoolbook

variable {limit : Nat} {n d : Digits} {result : Digits × Digits}

theorem Canonical.getLastD_ne_zero (canonical : d.Canonical) (nonempty : d ≠ []) :
    d.getLastD 0 ≠ 0 := by
  intro zero
  refine canonical ?_
  rw [List.getLastD_eq_getLast?] at zero
  rw [List.getLast?_eq_some_getLast nonempty] at zero ⊢
  exact congrArg some zero

/-- The top digit of a canonical sequence leaves fewer bits free than a digit has. -/
theorem Canonical.free_lt (canonical : d.Canonical) (nonempty : d ≠ []) :
    64 - (d.getLastD 0).bitLength < 64 := by
  have some := Digit.bitLength_pos (canonical.getLastD_ne_zero nonempty)
  omega

/-- The shifted divisor holds all of its number. -/
theorem toNat_shiftUp_divisor (canonical : d.Canonical) (nonempty : d ≠ []) :
    (shiftUp (64 - (d.getLastD 0).bitLength) d 0).1.toNat =
      d.toNat * 2 ^ (64 - (d.getLastD 0).bitLength) := by
  have small := toNat_mul_pow_lt nonempty
  have shifted := toNat_shiftUp (canonical.free_lt nonempty) d 0
  rw [UInt64.toNat_zero, Nat.add_zero] at shifted
  have nothing : (shiftUp (64 - (d.getLastD 0).bitLength) d 0).2.toNat = 0 := by
    by_contra some
    have := Nat.le_mul_of_pos_right (Digit.base ^ d.length) (Nat.pos_of_ne_zero some)
    omega
  rwa [nothing, Nat.mul_zero, Nat.add_zero] at shifted

/-- The shifted divisor is as long as the divisor, and its top digit is not zero either. -/
theorem canonical_shiftUp_divisor (canonical : d.Canonical) (nonempty : d ≠ []) :
    (shiftUp (64 - (d.getLastD 0).bitLength) d 0).1.Canonical := by
  refine canonical_of_pow_le_toNat ?_
  rw [length_shiftUp, toNat_shiftUp_divisor canonical nonempty]
  exact Nat.le_trans (canonical.pow_le_toNat nonempty)
    (Nat.le_mul_of_pos_right _ (Nat.two_pow_pos _))

/-- The shifted dividend, with what is carried out of its digits above them. -/
def dividendOf (bits : Nat) (n : Digits) : Digits := (shiftUp bits n 0).1 ++ [(shiftUp bits n 0).2]

theorem toNat_dividendOf {bits : Nat} (few : bits < 64) (n : Digits) :
    (dividendOf bits n).toNat = n.toNat * 2 ^ bits := by
  have shifted := toNat_shiftUp few n 0
  rw [UInt64.toNat_zero, Nat.add_zero] at shifted
  rw [dividendOf, toNat_append, length_shiftUp, toNat_cons, toNat_nil, Nat.mul_zero, Nat.add_zero,
    shifted]

theorem length_dividendOf (bits : Nat) (n : Digits) :
    (dividendOf bits n).length = n.length + 1 := by
  rw [dividendOf, List.length_append, length_shiftUp, List.length_singleton]

/-- As many windows as a number has digits more than its divisor, and one, are enough for it. -/
theorem toNat_lt_mul_pow (canonical : d.Canonical) (nonempty : d ≠ [])
    (le : d.length ≤ n.length) :
    n.toNat < d.toNat * Digit.base ^ (n.length + 1 - d.length) := by
  have some := List.length_pos_of_ne_nil nonempty
  calc n.toNat < Digit.base ^ n.length := toNat_lt_pow_length n
    _ = Digit.base ^ (d.length - 1) * Digit.base ^ (n.length + 1 - d.length) := by
        rw [← pow_add]
        congr 1
        omega
    _ ≤ d.toNat * Digit.base ^ (n.length + 1 - d.length) :=
        Nat.mul_le_mul_right _ (canonical.pow_le_toNat nonempty)

/-- The shifted dividend has a window for each digit that its quotient can have. -/
theorem dividendOf_lt (canonical : d.Canonical) (nonempty : d ≠ []) (le : d.length ≤ n.length) :
    (dividendOf (64 - (d.getLastD 0).bitLength) n).toNat <
      (shiftUp (64 - (d.getLastD 0).bitLength) d 0).1.toNat *
        Digit.base ^ (n.length + 1 - d.length) := by
  rw [toNat_dividendOf (canonical.free_lt nonempty), toNat_shiftUp_divisor canonical nonempty,
    Nat.mul_right_comm]
  exact Nat.mul_lt_mul_of_pos_right (toNat_lt_mul_pow canonical nonempty le) (Nat.two_pow_pos _)

/-- What the schoolbook method gives, once room for all of it has been granted. -/
theorem divRemSchoolbook_eq (done : divRemSchoolbook limit n d = .ok result) :
    let bits := 64 - (d.getLastD 0).bitLength
    let count := n.length + 1 - d.length
    let divided := divideWindows (shiftUp bits d 0).1 ((dividendOf bits n).take count)
      ((dividendOf bits n).drop count)
    (trim divided.1, trim (shiftDown bits divided.2)) = result := by
  obtain ⟨_, -, done⟩ := bind_eq_ok_iff.mp done
  obtain ⟨_, -, done⟩ := bind_eq_ok_iff.mp done
  obtain ⟨_, -, made⟩ := bind_eq_ok_iff.mp done
  rw [← Except.ok.inj made, ← dividendOf, length_dividendOf, length_shiftUp]

/-- **The schoolbook method is exact.** -/
theorem divRemSchoolbook_exact (canonical : d.Canonical) (long : 2 ≤ d.length)
    (le : d.length ≤ n.length) (done : divRemSchoolbook limit n d = .ok result) :
    result.1.toNat = n.toNat / d.toNat ∧ result.2.toNat = n.toNat % d.toNat := by
  have nonempty : d ≠ [] := List.ne_nil_of_length_pos (Nat.zero_lt_of_lt long)
  have few := canonical.free_lt nonempty
  have divisor := toNat_shiftUp_divisor canonical nonempty
  have scaledCanonical := canonical_shiftUp_divisor canonical nonempty
  have below := dividendOf_lt canonical nonempty le
  have length := length_shiftUp (64 - (d.getLastD 0).bitLength) d 0
  have longer := length_dividendOf (64 - (d.getLastD 0).bitLength) n
  have dividend := toNat_dividendOf few n
  have made := divRemSchoolbook_eq done
  simp only at made
  generalize 64 - (d.getLastD 0).bitLength = bits at *
  generalize dividendOf bits n = whole at *
  generalize (shiftUp bits d 0).1 = scaled at *
  have scale : 0 < 2 ^ bits := Nat.two_pow_pos bits
  rw [← longer, ← length] at below made
  obtain ⟨quotient, remainder⟩ := divideWindows_whole scaledCanonical (length ▸ long)
    (by omega : scaled.length ≤ whole.length) below
  rw [← made, toNat_trim, toNat_trim, toNat_shiftDown few.le, quotient, remainder, dividend,
    divisor, Nat.mul_div_mul_right _ _ scale, Nat.mul_mod_mul_right, Nat.mul_div_cancel _ scale]
  exact ⟨rfl, rfl⟩

end Schoolbook

end Bignum.Digits
