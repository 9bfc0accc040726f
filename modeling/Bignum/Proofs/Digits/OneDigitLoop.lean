import Bignum.Proofs.Digits.DivisionRound
import Bignum.Proofs.Digits.OneDigit
import Mathlib.Data.List.Induction

/-!
Division and multiplication by one digit as loops over words, the second of which undoes the first.

Both visit every digit once, change it in place and hand one word on to the next visit. Division
goes from the top down and hands on its remainder; multiplication goes from the bottom up and hands
on its carry. What a visit works with has two words. A loop stops where two words are too few for
that, and where one is too few for what is written or handed on.

* `wordDivRemDigit_eq`, `wordMulAddDigit_eq`: the loops never stop, and make the passes over
  numbers.
* `Digit.wordMultiple_of_wordQuotient`, `visit_reverse`: multiplication undoes a visit of division,
  and comes to the places in the opposite order, so that it undoes them all.
* `mulAddDigit_divRemDigit`: what was divided is restored, with the zeros at its top.
* `one_digit_loops_exact`: what both loops leave and hand on, and that they are inverse.
-/

namespace Bignum

/-! ### Visits -/

namespace Digit

/-- A number that one word holds. -/
def narrow? (n : Nat) : Option Digit := if n < base then some (UInt64.ofNat n) else none

/-- A visit of division: the digit of the quotient and the next remainder, from the remainder so far
and the digit below it. -/
def wordQuotient (divisor rest d : Digit) : Option (Digit × Digit) :=
  if divisor = 0 then none
  else
    (joined? rest.toNat d).bind fun current =>
      (narrow? (current / divisor.toNat)).bind fun quotient =>
        (narrow? (current % divisor.toNat)).map fun rest => (quotient, rest)

/-- A visit of multiplication: the digit that stays, which is the low word of the total, and the
next carry. -/
def wordMultiple (factor carry d : Digit) : Option (Digit × Digit) :=
  (wide? (d.toNat * factor.toNat)).bind fun product =>
    (wide? (product + carry.toNat)).bind fun total =>
      (narrow? (total >>> 64)).map fun carry => (UInt64.ofNat total, carry)

variable {divisor rest d : Digit}

/-- **No quotient of a visit is wider than a word**, as long as the remainder is below the
divisor. -/
theorem wordQuotient_eq (below : rest.toNat < divisor.toNat) (d : Digit) :
    wordQuotient divisor rest d =
      some (UInt64.ofNat ((rest.toNat * base + d.toNat) / divisor.toNat),
        UInt64.ofNat ((rest.toNat * base + d.toNat) % divisor.toNat)) := by
  have nonzero : divisor ≠ 0 := by
    rintro rfl
    exact Nat.not_lt_zero _ below
  have quotient := current_div_lt below d.toNat_lt_base
  have next := (Nat.mod_lt (rest.toNat * base + d.toNat) (toNat_pos nonzero)).trans
    divisor.toNat_lt_base
  rw [wordQuotient, if_neg nonzero, joined?_eq rest.toNat_lt_base, Option.bind_some, narrow?,
    if_pos quotient, Option.bind_some, narrow?, if_pos next, Option.map_some]

/-- **No total of a visit is wider than two words.** -/
theorem wordMultiple_eq (factor carry d : Digit) :
    wordMultiple factor carry d =
      some (split ((0 : Digit).toNat + factor.toNat * d.toNat + carry.toNat)) := by
  have fits := row_total_lt 0 factor d carry
  rw [UInt64.toNat_zero, Nat.zero_add, Nat.mul_comm] at fits ⊢
  have product := Nat.lt_of_le_of_lt (Nat.le_add_right _ carry.toNat) fits
  have high : (d.toNat * factor.toNat + carry.toNat) >>> 64 < base := by
    rw [Nat.shiftRight_eq_div_pow, ← base_eq]
    exact Nat.div_lt_of_lt_mul fits
  rw [wordMultiple, wide?, if_pos product, Option.bind_some, wide?, if_pos fits, Option.bind_some,
    narrow?, if_pos high, Option.map_some, Nat.shiftRight_eq_div_pow, ← base_eq, split]

theorem toNat_of_narrow? {n : Nat} {word : Digit} (held : narrow? n = some word) :
    word.toNat = n := by
  unfold narrow? at held
  split at held
  · rename_i small
    rw [← Option.some.inj held, toNat_ofNat_of_lt small]
  · cases held

/-- **Multiplication undoes a visit of division**: the remainder comes back as the carry. -/
theorem wordMultiple_of_wordQuotient {quotient next : Digit}
    (divided : wordQuotient divisor rest d = some (quotient, next)) :
    wordMultiple divisor next quotient = some (d, rest) := by
  unfold wordQuotient at divided
  split at divided
  · cases divided
  · rw [joined?_eq rest.toNat_lt_base, Option.bind_some] at divided
    obtain ⟨word, isQuotient, divided⟩ := Option.bind_eq_some_iff.mp divided
    obtain ⟨word', isNext, same⟩ := Option.map_eq_some_iff.mp divided
    cases same
    have whole : d.toNat + base * rest.toNat =
        (0 : Digit).toNat + divisor.toNat * quotient.toNat + next.toNat := by
      rw [toNat_of_narrow? isQuotient, toNat_of_narrow? isNext, UInt64.toNat_zero, Nat.zero_add,
        Nat.div_add_mod, Nat.add_comm, Nat.mul_comm]
    rw [wordMultiple_eq, split_eq whole, UInt64.ofNat_toNat]

end Digit

namespace Digits

/-! ### Loops -/

/-- Visit places one after the other. A visit changes the digit at its place and gets what the visit
before it has handed on. -/
def visit (step : Digit → Digit → Option (Digit × Digit)) :
    (places : List Nat) → Digits → (handed : Digit) → Option (Digits × Digit)
  | [], ds, handed => some (ds, handed)
  | place :: places, ds, handed =>
      (ds[place]?).bind fun here =>
        (step handed here).bind fun next =>
          visit step places (ds.set place next.1) next.2

/-- Divide by one digit, from the top place down: the quotient, and the remainder. -/
def wordDivRemDigit (divisor : Digit) (ds : Digits) : Option (Digits × Digit) :=
  visit (Digit.wordQuotient divisor) (List.range ds.length).reverse ds 0

/-- Multiply by one digit and add another, from the bottom place up: the digits that stay, and what
is carried out of the top. -/
def wordMulAddDigit (factor addend : Digit) (ds : Digits) : Option (Digits × Digit) :=
  visit (Digit.wordMultiple factor) (List.range ds.length) ds addend

section Visit

variable {step back : Digit → Digit → Option (Digit × Digit)}

theorem visit_append (places later : List Nat) (ds : Digits) (handed : Digit) :
    visit step (places ++ later) ds handed =
      (visit step places ds handed).bind fun s => visit step later s.1 s.2 := by
  induction places generalizing ds handed with
  | nil => rfl
  | cons place places ih => simp only [List.cons_append, visit, ih, Option.bind_assoc]

/-- **Visits are undone in the opposite order**, if each one is. -/
theorem visit_reverse
    (undoes : ∀ handed d next, step handed d = some next → back next.2 next.1 = some (d, handed))
    {places : List Nat} {ds result : Digits} {handed last : Digit}
    (done : visit step places ds handed = some (result, last)) :
    visit back places.reverse result last = some (ds, handed) := by
  induction places generalizing ds handed with
  | nil =>
      cases done
      rfl
  | cons place places ih =>
      obtain ⟨here, read, first⟩ := Option.bind_eq_some_iff.mp done
      obtain ⟨next, stepped, rest⟩ := Option.bind_eq_some_iff.mp first
      obtain ⟨inRange, rfl⟩ := List.getElem?_eq_some_iff.mp read
      rw [List.reverse_cons, visit_append, ih rest, Option.bind_some]
      simp only [visit, List.getElem?_set_self inRange, Option.bind_some, undoes _ _ _ stepped,
        List.set_set, List.set_getElem_self]

/-- A visit between two parts changes the digit there and neither part. -/
theorem visit_between (below : Digits) (d : Digit) (above : Digits) (places : List Nat)
    (handed : Digit) :
    visit step (below.length :: places) (below ++ d :: above) handed =
      (step handed d).bind fun next => visit step places (below ++ next.1 :: above) next.2 := by
  simp only [visit, List.getElem?_append_right (Nat.le_refl _), Nat.sub_self,
    List.getElem?_cons_zero, Option.bind_some, List.set_append_right _ _ (Nat.le_refl _),
    List.set_cons_zero]

end Visit

/-! ### The loops make the passes -/

/-- The digits above a place have been divided. The visits below it divide the rest. -/
theorem visit_wordQuotient {divisor : Digit} (nonzero : divisor ≠ 0) (low high : Digits) :
    visit (Digit.wordQuotient divisor) (List.range low.length).reverse
        (low ++ (divRemDigit divisor high).1) (divRemDigit divisor high).2 =
      some (divRemDigit divisor (low ++ high)) := by
  induction low using List.reverseRecOn generalizing high with
  | nil => rfl
  | append_singleton low d ih =>
      have step := Digit.wordQuotient_eq (divRemDigit_recompose nonzero high).1 d
      have places : (List.range (low ++ [d]).length).reverse =
          low.length :: (List.range low.length).reverse := by
        simp [List.range_succ]
      rw [places, List.append_assoc, List.append_assoc, List.singleton_append,
        List.singleton_append, visit_between, step, Option.bind_some]
      exact ih (d :: high)

/-- **The loop downward never stops**, and divides as the pass over numbers does. -/
theorem wordDivRemDigit_eq {divisor : Digit} (nonzero : divisor ≠ 0) (ds : Digits) :
    wordDivRemDigit divisor ds = some (divRemDigit divisor ds) := by
  have visits := visit_wordQuotient nonzero ds []
  simpa [wordDivRemDigit, divRemDigit] using visits

/-- The digits below a place are final. The visits from there on make a row of the others. -/
theorem visit_wordMultiple (factor : Digit) (below ds : Digits) (carry : Digit) :
    visit (Digit.wordMultiple factor) (List.range' below.length ds.length) (below ++ ds) carry =
      some (below ++ (mulRow factor ds [] carry).1, (mulRow factor ds [] carry).2) := by
  induction ds generalizing below carry with
  | nil => simp [visit, mulRow]
  | cons d ds ih =>
      rw [List.length_cons, List.range'_succ, visit_between, Digit.wordMultiple_eq,
        Option.bind_some]
      generalize total : Digit.split
        ((0 : Digit).toNat + factor.toNat * d.toNat + carry.toNat) = split
      have next := ih (below ++ [split.1]) split.2
      rw [← length_joined, List.append_assoc, List.singleton_append, List.append_assoc,
        List.singleton_append] at next
      simpa only [mulRow, List.headD_nil, List.tail_nil, total] using next

/-- **The loop upward never stops**, and multiplies as a row of a product does. -/
theorem wordMulAddDigit_eq (factor addend : Digit) (ds : Digits) :
    wordMulAddDigit factor addend ds = some (mulRow factor ds [] addend) := by
  have visits := visit_wordMultiple factor [] ds addend
  simpa [wordMulAddDigit, List.range_eq_range'] using visits

/-! ### One loop undoes the other -/

/-- **Division is undone digit by digit.** The carry ends as the remainder that division began with,
which is zero. -/
theorem mulRow_divRemDigit {divisor : Digit} (nonzero : divisor ≠ 0) (ds : Digits) :
    mulRow divisor (divRemDigit divisor ds).1 [] (divRemDigit divisor ds).2 = (ds, 0) := by
  have forth := wordDivRemDigit_eq nonzero ds
  have back : visit (Digit.wordMultiple divisor) (List.range ds.length).reverse.reverse
      (divRemDigit divisor ds).1 (divRemDigit divisor ds).2 = some (ds, 0) :=
    visit_reverse (fun _ _ _ => Digit.wordMultiple_of_wordQuotient) forth
  rw [List.reverse_reverse, ← length_divRemDigit divisor ds] at back
  exact Option.some.inj ((wordMulAddDigit_eq divisor _ _).symm.trans back)

/-- What was divided is restored, with no digit more to ask for. -/
theorem mulAddDigit_divRemDigit {divisor : Digit} (nonzero : divisor ≠ 0) (limit room : Nat)
    (ds : Digits) :
    (divRemDigit divisor ds).1.mulAddDigit limit room divisor (divRemDigit divisor ds).2 =
      .ok ds := by
  simp only [mulAddDigit, mulRow_divRemDigit nonzero ds, if_true]

/-! ### Both loops -/

/-- The quotient has at each place what the remainder of the digits above it and the digit there
make, which is one digit. -/
theorem digitAt_divRemDigit {divisor : Digit} (nonzero : divisor ≠ 0) {ds : Digits} {place : Nat}
    (inRange : place < ds.length) :
    let current := toNat (ds.drop (place + 1)) % divisor.toNat * Digit.base + ds[place].toNat
    current / divisor.toNat < Digit.base ∧
      digitAt (divRemDigit divisor ds).1 place = current / divisor.toNat := by
  induction ds generalizing place with
  | nil => exact absurd inRange (Nat.not_lt_zero place)
  | cons d ds ih =>
      cases place with
      | zero =>
          obtain ⟨-, rest⟩ := toNat_divRemDigit nonzero ds
          have fits := Digit.current_div_lt (divRemDigit_recompose nonzero ds).1 d.toNat_lt_base
          rw [rest] at fits
          refine ⟨fits, ?_⟩
          simp only [divRemDigit, digitAt, List.getD_cons_zero, rest]
          exact Digit.toNat_ofNat_of_lt fits
      | succ place => exact ih (Nat.lt_of_succ_lt_succ inRange)

/-- What division by one digit leaves and answers, and how it is undone. -/
structure DigitDivisionSound (divisor : Digit) (ds : Digits) : Prop where
  /-- No number on the way is too wide. -/
  loop : wordDivRemDigit divisor ds = some (divRemDigit divisor ds)
  digits : ∀ place (_ : place < ds.length),
    let current := toNat (ds.drop (place + 1)) % divisor.toNat * Digit.base + ds[place].toNat
    current / divisor.toNat < Digit.base ∧
      digitAt (divRemDigit divisor ds).1 place = current / divisor.toNat
  length : (divRemDigit divisor ds).1.length = ds.length
  below : (divRemDigit divisor ds).2.toNat < divisor.toNat
  whole : ds.toNat =
    (divRemDigit divisor ds).1.toNat * divisor.toNat + (divRemDigit divisor ds).2.toNat
  restored : ∀ limit room,
    (divRemDigit divisor ds).1.mulAddDigit limit room divisor (divRemDigit divisor ds).2 = .ok ds

/-- What multiplication by one digit with another one added leaves, and when the storage of the
digits, with room for `room` of them, cannot grow for it. -/
structure DigitProductSound (limit room : Nat) (factor addend : Digit) (ds : Digits) : Prop where
  /-- No number on the way is too wide. -/
  loop : wordMulAddDigit factor addend ds = some (mulRow factor ds [] addend)
  carried : (mulRow factor ds [] addend).2 = 0 ↔
    ds.toNat * factor.toNat + addend.toNat < Digit.base ^ ds.length
  pushed : ∀ result, ds.mulAddDigit limit room factor addend = .ok result →
    result = (mulRow factor ds [] addend).1 ++
      if (mulRow factor ds [] addend).2 = 0 then [] else [(mulRow factor ds [] addend).2]
  value : ∀ result, ds.mulAddDigit limit room factor addend = .ok result →
    result.toNat = ds.toNat * factor.toNat + addend.toNat
  length : ∀ result, ds.mulAddDigit limit room factor addend = .ok result →
    result.length = ds.length + if (mulRow factor ds [] addend).2 = 0 then 0 else 1
  granted : (mulRow factor ds [] addend).2 = 0 ∨
      Storage.grow limit room (ds.length + 1) = .ok () →
    ∃ result, ds.mulAddDigit limit room factor addend = .ok result
  refused : ∀ cause, ds.mulAddDigit limit room factor addend = .error cause ↔
    (mulRow factor ds [] addend).2 ≠ 0 ∧ Storage.grow limit room (ds.length + 1) = .error cause
  /-- A refusal says how long the digits would have been, whatever room was asked for. -/
  named : ∀ cause, ds.mulAddDigit limit room factor addend = .error cause →
    cause.requested = min (ds.length + 1) Storage.maxRequest

theorem digitDivisionSound {divisor : Digit} (nonzero : divisor ≠ 0) (ds : Digits) :
    DigitDivisionSound divisor ds where
  loop := wordDivRemDigit_eq nonzero ds
  digits _ inRange := digitAt_divRemDigit nonzero inRange
  length := length_divRemDigit divisor ds
  below := (divRemDigit_recompose nonzero ds).1
  whole := (divRemDigit_recompose nonzero ds).2
  restored limit room := mulAddDigit_divRemDigit nonzero limit room ds

theorem digitProductSound (limit room : Nat) (factor addend : Digit) (ds : Digits) :
    DigitProductSound limit room factor addend ds where
  loop := wordMulAddDigit_eq factor addend ds
  carried := carry_eq_zero_iff factor addend ds
  pushed _ := eq_of_mulAddDigit
  value _ := toNat_of_mulAddDigit
  length _ := length_eq_of_mulAddDigit
  granted asked := by
    cases made : ds.mulAddDigit limit room factor addend with
    | ok result => exact ⟨result, rfl⟩
    | error cause =>
        obtain ⟨carried, refused⟩ := mulAddDigit_eq_error_iff.mp made
        rcases asked with nothing | granted
        · exact absurd nothing carried
        · exact absurd (refused.symm.trans granted) nofun
  refused _ := mulAddDigit_eq_error_iff
  named _ made := Storage.requested_of_grow_error (mulAddDigit_eq_error_iff.mp made).2

/-- **Division by a digit and multiplication by it are exact and inverse**, over digits of any
length and with any zeros at their top. -/
theorem one_digit_loops_exact (limit room : Nat) (factor : Digit) (ds : Digits) :
    (∀ addend, DigitProductSound limit room factor addend ds) ∧
      (factor ≠ 0 → DigitDivisionSound factor ds) :=
  ⟨fun addend => digitProductSound limit room factor addend ds,
    fun nonzero => digitDivisionSound nonzero ds⟩

/-- Digits with a zero at their top, which a division makes two of, and a product that grows. -/
theorem one_digit_loops_exact_zeros :
    let ds : Digits := [10, 1, 0]
    let quotient : Digits := [1844674407370955162, 0, 0]
    (10 : Digit) ≠ 0 ∧ divRemDigit 10 ds = (quotient, 6) ∧
      ds.toNat = quotient.toNat * 10 + 6 ∧ quotient.mulAddDigit 0 3 10 6 = .ok ds ∧
      (mulRow 2 [Digit.max] [] 3).2 ≠ 0 ∧ Storage.grow 5 1 2 = .ok () ∧
      Digits.mulAddDigit 5 1 [Digit.max] 2 3 = .ok [1, 2] ∧
      Digits.toNat [1, 2] = Digits.toNat [Digit.max] * 2 + 3 := by
  intro ds quotient
  have nonzero : (10 : Digit) ≠ 0 := by decide
  have divided : divRemDigit 10 ds = (quotient, 6) := by decide
  have sound := (one_digit_loops_exact 0 3 10 ds).2 nonzero
  have whole := sound.whole
  have restored := sound.restored 0 3
  rw [divided] at whole restored
  have grown : Digits.mulAddDigit 5 1 [Digit.max] 2 3 = .ok [1, 2] := by decide
  exact ⟨nonzero, divided, whole, restored, by decide, by decide, grown,
    ((one_digit_loops_exact 5 1 2 [Digit.max]).1 3).value _ grown⟩

end Digits

end Bignum
