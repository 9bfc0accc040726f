import Bignum.Proofs.Digits.Shift

/-!
Shifts and masks as loops over words.

Here a shift has nothing but words in it: what a word loses at one end is put into the other end of
the next word, in the bits that this one left free. A word cannot be moved by as many bits as it
has, so a shift by whole digits is a copy. `wordShl`, `wordShr` and `wordLowBits` are these loops;
they stop at a word moved too far, and at a mask for a digit that is not there.

* `wordShiftUp_eq`, `wordShiftDown_eq`, `wordMask_eq`: the loops never stop, and make the passes
  over numbers.
* `wordShl_of_shl`, `wordShr_of_shr`, `wordLowBits_of_lowBits`: what is left of their output without
  the zeros at its top is the result.
-/

namespace Bignum

namespace Digit

/-- A word moved up by fewer bits than it has. -/
def up? (d : Digit) (bits : Nat) : Option Digit :=
  if bits < 64 then some (d <<< UInt64.ofNat bits) else none

/-- A word moved down by fewer bits than it has. -/
def down? (d : Digit) (bits : Nat) : Option Digit :=
  if bits < 64 then some (d >>> UInt64.ofNat bits) else none

/-- A word takes a number of bits as it is, if it can be moved by so many. -/
theorem toNat_count {bits : Nat} (few : bits < 64) : (UInt64.ofNat bits).toNat % 64 = bits := by
  rw [toNat_ofNat_of_lt (Nat.lt_trans few (by decide)), Nat.mod_eq_of_lt few]

theorem exists_up {bits : Nat} (few : bits < 64) (d : Digit) :
    ∃ moved, d.up? bits = some moved ∧ moved.toNat = d.toNat * 2 ^ bits % base := by
  refine ⟨_, if_pos few, ?_⟩
  rw [UInt64.toNat_shiftLeft, toNat_count few, Nat.shiftLeft_eq]

theorem exists_down {bits : Nat} (few : bits < 64) (d : Digit) :
    ∃ moved, d.down? bits = some moved ∧ moved.toNat = d.toNat / 2 ^ bits := by
  refine ⟨_, if_pos few, ?_⟩
  rw [UInt64.toNat_shiftRight, toNat_count few, Nat.shiftRight_eq_div_pow]

/-- The largest word, moved down, has ones in the places that are left to it. -/
theorem exists_ones {bits : Nat} (positive : 0 < bits) (few : bits < 64) :
    ∃ mask, max.down? (64 - bits) = some mask ∧ mask.toNat = 2 ^ bits - 1 := by
  have rest : 64 - bits < 64 := by omega
  obtain ⟨mask, down, ones⟩ := max.exists_down rest
  have base := base_eq_mul few.le
  have least := Nat.two_pow_pos (64 - bits)
  have whole : max.toNat = 2 ^ (64 - bits) * (2 ^ bits - 1) + (2 ^ (64 - bits) - 1) := by
    have scaled : 2 ^ (64 - bits) ≤ 2 ^ (64 - bits) * 2 ^ bits :=
      Nat.le_mul_of_pos_right _ (Nat.two_pow_pos bits)
    rw [Nat.mul_comm] at base
    rw [show max.toNat = Digit.base - 1 from rfl, base, Nat.mul_sub_one]
    omega
  refine ⟨mask, down, ?_⟩
  rw [ones, whole, Nat.mul_add_div least, Nat.div_eq_of_lt (Nat.sub_one_lt_of_lt least),
    Nat.add_zero]

/-- A mask of ones leaves the rest of a division. -/
theorem and_ones {bits : Nat} {mask : Digit} (ones : mask.toNat = 2 ^ bits - 1)
    (d : Digit) : d &&& mask = UInt64.ofNat (d.toNat % (1 <<< bits)) := by
  rw [← UInt64.toNat_inj, UInt64.toNat_and, ones, Nat.and_two_pow_sub_one_eq_mod,
    Nat.one_shiftLeft, toNat_ofNat_of_lt]
  exact Nat.lt_of_le_of_lt (Nat.mod_le _ _) d.toNat_lt_base

/-! ### Two words in one -/

section Joined

variable {bits : Nat} {d moved : Digit}

/-- What stays of a word that is moved up is a multiple of a power of two, so its lowest bits are
free. -/
theorem mul_mod_base (few : bits ≤ 64) (n : Nat) :
    n * 2 ^ bits % base = 2 ^ bits * (n % 2 ^ (64 - bits)) := by
  rw [base_eq_mul few, Nat.mul_comm, Nat.mul_mod_mul_left]

/-- **No bit is written twice**: a word that was moved up has its lowest bits free for the carry.
What it lost is the digit above. -/
theorem split_moved_up {lost carry : Digit} (few : bits ≤ 64)
    (low : moved.toNat = d.toNat * 2 ^ bits % base) (high : lost.toNat = d.toNat / 2 ^ (64 - bits))
    (fits : carry.toNat < 2 ^ bits) :
    split (d.toNat <<< bits + carry.toNat) = (moved ||| carry, lost) := by
  rw [mul_mod_base few] at low
  have joined : (moved ||| carry).toNat = moved.toNat + carry.toNat := by
    rw [UInt64.toNat_or, low, Nat.two_pow_add_eq_or_of_lt fits]
  have whole : (moved ||| carry).toNat + base * lost.toNat = d.toNat <<< bits + carry.toNat := by
    rw [joined, low, high, base_eq_mul few, Nat.shiftLeft_eq]
    linear_combination 2 ^ bits * Nat.div_add_mod d.toNat (2 ^ (64 - bits))
  rw [split_eq whole, UInt64.ofNat_toNat]

/-- A word that was moved down has its highest bits free for what it takes from the word above. -/
theorem moved_down_or {above taken : Digit} (few : bits ≤ 64)
    (low : moved.toNat = d.toNat / 2 ^ bits)
    (high : taken.toNat = above.toNat * 2 ^ (64 - bits) % base) :
    UInt64.ofNat ((d.toNat >>> bits) + (above.toNat <<< (64 - bits))) = moved ||| taken := by
  have small : moved.toNat < 2 ^ (64 - bits) := by
    rw [low]
    exact Nat.div_lt_of_lt_mul (base_eq_mul few ▸ d.toNat_lt_base)
  rw [mul_mod_base (Nat.sub_le _ _), Nat.sub_sub_self few] at high
  rw [← UInt64.toNat_inj, toNat_shiftedDown few, UInt64.toNat_or, Nat.or_comm, high,
    ← Nat.two_pow_add_eq_or_of_lt small, low, Nat.add_comm]

end Joined

end Digit

namespace Digits

/-! ### Passes over words -/

/-- A pass upward. What a word loses at its top is carried into the next one. -/
def wordUp (bits : Nat) : Digits → (carry : Digit) → Option (Digits × Digit)
  | [], carry => some ([], carry)
  | d :: ds, carry =>
      (d.up? bits).bind fun moved =>
        (d.down? (64 - bits)).bind fun lost =>
          (wordUp bits ds lost).map fun above => ((moved ||| carry) :: above.1, above.2)

/-- A pass downward. A word takes what the one above it loses. -/
def wordDown (bits : Nat) : Digits → Option Digits
  | [] => some []
  | d :: ds =>
      (d.down? bits).bind fun moved =>
        (match ds.head? with
          | none => some 0
          | some above => above.up? (64 - bits)).bind fun taken =>
          (wordDown bits ds).map ((moved ||| taken) :: ·)

/-- Clear all bits of the word at a place but the lowest ones. -/
def wordMask (place bits : Nat) (ds : Digits) : Option Digits :=
  (ds[place]?).bind fun here =>
    (Digit.max.down? (64 - bits)).map fun mask => ds.set place (here &&& mask)

/-! ### Loops over words -/

/-- A shift up by fewer bits than a word has; one by none is a copy. -/
def wordShiftUp (bits : Nat) (ds : Digits) : Option (Digits × Digit) :=
  if bits = 0 then some (ds, 0) else wordUp bits ds 0

/-- A shift down by fewer bits than a word has; one by none is a copy. -/
def wordShiftDown (bits : Nat) (ds : Digits) : Option Digits :=
  if bits = 0 then some ds else wordDown bits ds

/-- The output of a shift up: zeros, the words that are moved, and what is carried out of them. -/
def wordShl (a : Digits) (bits : Nat) : Option Digits :=
  (wordShiftUp (bits % 64) a).map fun shifted =>
    List.replicate (bits / 64) 0 ++ shifted.1 ++ [shifted.2]

/-- The output of a shift down. -/
def wordShr (a : Digits) (bits : Nat) : Option Digits :=
  if a.length ≤ bits / 64 then some [] else wordShiftDown (bits % 64) (a.drop (bits / 64))

/-- The output of a mask, which keeps a part of a word only if bits are left over. -/
def wordLowBits (a : Digits) (bits : Nat) : Option Digits :=
  if a.length ≤ bits / 64 then some a
  else if bits % 64 = 0 then some (a.take (bits / 64))
  else wordMask (bits / 64) (bits % 64) (a.take (bits / 64 + 1))

/-! ### The loops make the passes -/

/-- **The pass upward never stops**, and what a word carries fits in the bits that the next one
leaves free. -/
theorem wordUp_eq {bits : Nat} (positive : 0 < bits) (few : bits < 64) (ds : Digits) {carry : Digit}
    (fits : carry.toNat < 2 ^ bits) : wordUp bits ds carry = some (shiftUp bits ds carry) := by
  have rest : 64 - bits < 64 := by omega
  induction ds generalizing carry with
  | nil => rfl
  | cons d ds ih =>
      obtain ⟨moved, up, low⟩ := d.exists_up few
      obtain ⟨lost, down, high⟩ := d.exists_down rest
      have next : lost.toNat < 2 ^ bits := by
        rw [high]
        refine Nat.div_lt_of_lt_mul ?_
        rw [Nat.mul_comm, ← Digit.base_eq_mul few.le]
        exact d.toNat_lt_base
      simp only [wordUp, up, down, ih next, Option.bind_some, Option.map_some, shiftUp,
        Digit.split_moved_up few.le low high fits]

/-- The pass downward never stops. The word at the top takes nothing. -/
theorem wordDown_eq {bits : Nat} (positive : 0 < bits) (few : bits < 64) (ds : Digits) :
    wordDown bits ds = some (shiftDown bits ds) := by
  have rest : 64 - bits < 64 := by omega
  induction ds with
  | nil => rfl
  | cons d ds ih =>
      obtain ⟨moved, down, low⟩ := d.exists_down few
      cases ds with
      | nil =>
          have none : (0 : Digit).toNat = (0 : Digit).toNat * 2 ^ (64 - bits) % Digit.base := by
            simp
          have word := Digit.moved_down_or few.le low none
          simp only [wordDown, down, List.head?_nil, Option.bind_some, Option.map_some, shiftDown,
            List.headD_nil, word]
      | cons above ds =>
          obtain ⟨taken, up, high⟩ := above.exists_up rest
          have word := Digit.moved_down_or few.le low high
          rw [wordDown, down, ih]
          simp only [List.head?_cons, up, Option.bind_some, Option.map_some, shiftDown,
            List.headD_cons, word]

theorem shiftUp_zero (ds : Digits) : shiftUp 0 ds 0 = (ds, 0) := by
  induction ds with
  | nil => rfl
  | cons d ds ih =>
      have whole : d.toNat + Digit.base * 0 = d.toNat <<< 0 + (0 : Digit).toNat := rfl
      simp only [shiftUp, Digit.split_eq whole, show UInt64.ofNat 0 = 0 from rfl, ih]

theorem shiftDown_zero (ds : Digits) : shiftDown 0 ds = ds := by
  induction ds with
  | nil => rfl
  | cons d ds ih =>
      have here : UInt64.ofNat (d.toNat >>> 0 + (ds.headD 0).toNat <<< 64) = d := by
        rw [← UInt64.toNat_inj, Digit.toNat_shiftedDown (by decide)]
        simp [Nat.mod_one]
      rw [shiftDown, ih, here]

/-- **A shift up in words is the pass over numbers**, also one by no bits, which moves no word. -/
theorem wordShiftUp_eq {bits : Nat} (few : bits < 64) (ds : Digits) :
    wordShiftUp bits ds = some (shiftUp bits ds 0) := by
  unfold wordShiftUp
  split
  · rename_i none
    rw [none, shiftUp_zero]
  · rename_i positive
    exact wordUp_eq (Nat.pos_of_ne_zero positive) few ds (Nat.two_pow_pos bits)

theorem wordShiftDown_eq {bits : Nat} (few : bits < 64) (ds : Digits) :
    wordShiftDown bits ds = some (shiftDown bits ds) := by
  unfold wordShiftDown
  split
  · rename_i none
    rw [none, shiftDown_zero]
  · rename_i positive
    exact wordDown_eq (Nat.pos_of_ne_zero positive) few ds

/-- **A mask of words clears what a mask of digits clears.** -/
theorem wordMask_eq {place bits : Nat} {ds : Digits} (inRange : place < ds.length)
    (positive : 0 < bits) (few : bits < 64) :
    wordMask place bits ds = some (maskAt place bits ds) := by
  obtain ⟨mask, down, ones⟩ := Digit.exists_ones positive few
  simp only [wordMask, down, List.getElem?_eq_getElem inRange, Option.bind_some, Option.map_some,
    Digit.and_ones ones, maskAt, List.modify_eq_set_getElem?, Option.map_eq_map, Option.getD_some]

/-! ### Results -/

section Results

variable {limit bits : Nat} {a result : Digits}

theorem wordShl_of_shl (nonzero : a ≠ []) (done : a.shl limit bits = .ok result) :
    ∃ output, a.wordShl bits = some output ∧ output.length = bits / 64 + a.length + 1 ∧
      output.trim = result := by
  have few : bits % 64 < 64 := Nat.mod_lt bits (by decide)
  rw [shl, if_neg fun empty => nonzero (List.isEmpty_iff.mp empty)] at done
  obtain ⟨_, -, made⟩ := bind_eq_ok_iff.mp done
  refine ⟨_, by rw [wordShl, wordShiftUp_eq few, Option.map_some], ?_, Except.ok.inj made⟩
  rw [List.length_append, List.length_append, List.length_replicate, length_shiftUp,
    List.length_singleton]

theorem wordShr_of_shr (done : a.shr limit bits = .ok result) :
    ∃ output, a.wordShr bits = some output ∧ output.length = a.length - bits / 64 ∧
      output.trim = result := by
  have few : bits % 64 < 64 := Nat.mod_lt bits (by decide)
  unfold shr at done
  unfold wordShr
  split at done
  · rename_i short
    obtain rfl := Except.ok.inj done
    exact ⟨[], if_pos short, (Nat.sub_eq_zero_of_le short).symm, rfl⟩
  · rename_i long
    obtain ⟨_, -, made⟩ := bind_eq_ok_iff.mp done
    refine ⟨_, by rw [if_neg long, wordShiftDown_eq few], ?_, Except.ok.inj made⟩
    rw [length_shiftDown, List.length_drop]

theorem wordLowBits_of_lowBits (canonical : a.Canonical)
    (done : a.lowBits limit bits = .ok result) :
    ∃ output, a.wordLowBits bits = some output ∧ output.trim = result := by
  unfold lowBits at done
  unfold wordLowBits
  split at done
  · rename_i short
    obtain ⟨-, rfl⟩ := copy_eq_ok_iff.mp done
    exact ⟨a, if_pos short, canonical.trim_eq⟩
  · rename_i long
    rw [if_neg long]
    split at done
    · rename_i whole
      obtain ⟨kept, copied, rfl⟩ := map_eq_ok_iff.mp done
      obtain ⟨-, rfl⟩ := copy_eq_ok_iff.mp copied
      exact ⟨_, if_pos whole, rfl⟩
    · rename_i part
      obtain ⟨kept, copied, rfl⟩ := map_eq_ok_iff.mp done
      obtain ⟨-, rfl⟩ := copy_eq_ok_iff.mp copied
      have inRange : bits / 64 < (a.take (bits / 64 + 1)).length := by
        rw [List.length_take_of_le (Nat.lt_of_not_le long)]
        exact Nat.lt_succ_self _
      refine ⟨_, ?_, rfl⟩
      rw [if_neg part]
      exact wordMask_eq inRange (Nat.pos_of_ne_zero part) (Nat.mod_lt bits (by decide))

end Results

end Digits

end Bignum
