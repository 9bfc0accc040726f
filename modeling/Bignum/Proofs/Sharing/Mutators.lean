import Bignum.Proofs.Sharing.Isolation

/-!
What a mutator makes of a buffer does not depend on who else owns its block.

A shared buffer and one of its own ask for different room: a whole copy or only its kept part, the
total or what is missing of it, or nothing at all. `Mutator.result` is what becomes of the digits
alone, and `Storage.offer` refuses it by its length. `Mutator.shows_grant` says that this is the
answer of every mutator on every buffer, so that two buffers with the same digits cannot be told
apart by one (`mutators_ignore_sharing`).
-/

namespace Bignum

/-! ### Mutators -/

/-- What changes the digits of one buffer. -/
inductive Mutator where
  /-- Write digits one after another, each if there is one at its place. -/
  | mutate (writes : List (Nat × Digit))
  | resize (length : Nat)
  | append (count : Nat) (digit : Digit)
  | push (digit : Digit)
  | truncate (length : Nat)
  | trim
  | assign (digits : Digits)
  deriving DecidableEq, Repr

namespace Mutator

/-- Digits with others written over them. -/
def rewrite (writes : List (Nat × Digit)) (ds : Digits) : Digits :=
  writes.foldl (fun ds write => ds.set write.1 write.2) ds

/-- The change that a mutator makes to the pool of a buffer. -/
def grant (limit slot : Nat) (m : Mutator) (p : Pool) : Grant :=
  match m with
  | mutate writes => p.edit limit slot (rewrite writes)
  | resize length => p.resize limit slot length
  | append count digit => p.append limit slot count digit
  | push digit => p.append limit slot 1 digit
  | truncate length => p.truncate limit slot length
  | trim => p.trim limit slot
  | assign digits => p.assign limit slot digits

/-- What becomes of the digits alone. -/
def result (m : Mutator) (ds : Digits) : Digits :=
  match m with
  | mutate writes => rewrite writes ds
  | resize length => ds.take length ++ List.replicate (length - ds.length) 0
  | append count digit => ds ++ List.replicate count digit
  | push digit => ds ++ [digit]
  | truncate length => ds.take length
  | trim => ds.rdropWhile (· == 0)
  | assign digits => digits

theorem length_rewrite (writes : List (Nat × Digit)) (ds : Digits) :
    (rewrite writes ds).length = ds.length := by
  induction writes generalizing ds with
  | nil => rfl
  | cons write writes ih => exact (ih _).trans List.length_set

end Mutator

/-- What a slot shows after a change, if the change is granted. -/
def Grant.shows (grant : Grant) (slot : Nat) : Except AllocationError (Option Digits) :=
  grant.1.map fun _ => grant.2.shown? slot

/-! ### Room -/

namespace Storage

/-- Digits where they are fewer than the limit, and otherwise a refusal that names how many they
would be, as far as it can. -/
def offer (limit : Nat) (ds : Digits) : Except AllocationError (Option Digits) :=
  if ds.length < limit then .ok (some ds)
  else .error { requested := min ds.length maxRequest }

variable {limit : Nat}

theorem request_map (positive : 0 < limit) (ds : Digits) :
    (request limit ds.length).map (fun _ => some ds) = offer limit ds := by
  unfold request offer
  by_cases room : ds.length < limit
  · rw [if_pos (.inr room), if_pos room]
    rfl
  · rw [if_neg (by omega), if_neg room]
    rfl

/-- On top of digits that are there, only the total counts. -/
theorem extend_eq {length : Nat} (short : length < limit) (additional : Nat) :
    extend limit length additional = request limit (length + additional) := by
  unfold extend
  split
  · rename_i none
    rw [none, Nat.add_zero, request_eq_ok_iff.mpr (.inr short)]
  · rfl

end Storage

theorem Grant.shows_ok {limit slot : Nat} {p : Pool} {digits : Digits}
    (shown : p.shown? slot = some digits) (short : digits.length < limit) :
    Grant.shows (.ok (), p) slot = Storage.offer limit digits := by
  rw [Storage.offer, if_pos short, ← shown]
  rfl

/-! ### Answers -/

namespace Pool

variable {limit slot : Nat} {p : Pool} {digits : Digits}

/-- Moving away from a shared block shows nowhere in the slot. -/
theorem shown?_exclusive (shown : p.shown? slot = some digits) (additional : Nat) :
    (p.exclusive limit slot additional).2.shown? slot = some digits := by
  obtain ⟨block, owned⟩ := owned?_of_shown? shown
  simp only [exclusive, digits_eq shown]
  split
  · cases Storage.request limit (digits.length + additional) with
    | error cause => exact shown
    | ok _ => exact shown?_place_self digits (lt_length_of_owned? owned)
  · exact shown

variable (shown : p.shown? slot = some digits) (short : digits.length < limit)

include shown short

/-- Sharing is nothing to the room that is asked for. -/
theorem exclusive_asks (additional : Nat) :
    (p.exclusive limit slot additional).1 = Storage.request limit (digits.length + additional) := by
  rw [exclusive_answer shown, Storage.extend_eq short, ite_self]

theorem shows_rewrite {additional : Nat} {f : Digits → Digits}
    (grows : (f digits).length = digits.length + additional) :
    ((p.exclusive limit slot additional).thenChange (overwrite slot f)).shows slot =
      Storage.offer limit (f digits) := by
  have asks := exclusive_asks shown short additional
  rw [← grows] at asks
  rw [← Storage.request_map (Nat.zero_lt_of_lt short), ← asks]
  unfold Grant.shows Grant.thenChange Grant.andThen
  cases answer : (p.exclusive limit slot additional).1 with
  | error cause => rfl
  | ok _ =>
      have moved : (p.exclusive limit slot additional).2.shown? slot = some digits :=
        shown?_exclusive shown additional
      have written := shown?_overwrite_self f moved
      simp only [Except.map, written]

/-- What is kept is fewer than what is there, so that no copy of it is refused. -/
theorem shows_truncate (length : Nat) :
    (p.truncate limit slot length).shows slot = Storage.offer limit (digits.take length) := by
  obtain ⟨block, owned⟩ := owned?_of_shown? shown
  have kept : (digits.take length).length < limit := by
    rw [List.length_take]
    omega
  simp only [truncate, digits_eq shown]
  split
  · rename_i whole
    rw [List.take_of_length_le whole] at kept ⊢
    exact Grant.shows_ok shown kept
  · split
    · have room : Storage.request limit length = .ok () :=
        Storage.request_eq_ok_iff.mpr (.inr (by omega))
      rw [room]
      exact Grant.shows_ok (shown?_place_self _ (lt_length_of_owned? owned)) kept
    · exact Grant.shows_ok (shown?_overwrite_self (·.take length) shown) kept

/-- New storage for all digits and room for those that are missing are refused alike. -/
theorem shows_assign (new : Digits) :
    (p.assign limit slot new).shows slot = Storage.offer limit new := by
  obtain ⟨block, owned⟩ := owned?_of_shown? shown
  rw [← Storage.request_map (Nat.zero_lt_of_lt short)]
  simp only [assign, digits_eq shown]
  split
  · cases Storage.request limit new.length with
    | error cause => rfl
    | ok _ =>
        exact congrArg Except.ok (shown?_place_self new (lt_length_of_owned? owned))
  · have asks : Storage.extend limit digits.length (new.length - digits.length) =
        Storage.request limit new.length := by
      rw [Storage.extend_eq short]
      rcases Nat.le_total digits.length new.length with longer | shorter
      · rw [Nat.add_sub_of_le longer]
      · rw [Nat.sub_eq_zero_of_le shorter, Nat.add_zero,
          Storage.request_eq_ok_iff.mpr (.inr short),
          Storage.request_eq_ok_iff.mpr (.inr (Nat.lt_of_le_of_lt shorter short))]
    rw [asks]
    cases Storage.request limit new.length with
    | error cause => rfl
    | ok _ => exact congrArg Except.ok (shown?_overwrite_self (fun _ => new) shown)

theorem shows_append (count : Nat) (digit : Digit) :
    (p.append limit slot count digit).shows slot =
      Storage.offer limit (digits ++ List.replicate count digit) := by
  unfold append
  split
  · rename_i none
    rw [none, List.replicate_zero, List.append_nil]
    exact Grant.shows_ok shown short
  · exact shows_rewrite (f := (· ++ List.replicate count digit)) shown short (by simp)

theorem shows_resize (length : Nat) :
    (p.resize limit slot length).shows slot =
      Storage.offer limit (digits.take length ++ List.replicate (length - digits.length) 0) := by
  simp only [resize, digits_eq shown]
  split
  · rename_i shorter
    rw [Nat.sub_eq_zero_of_le shorter, List.replicate_zero, List.append_nil]
    exact shows_truncate shown short length
  · rename_i longer
    rw [List.take_of_length_le (by omega)]
    exact shows_rewrite (f := (· ++ List.replicate (length - digits.length) 0)) shown short
      (by simp)

end Pool

/-- **Every mutator** shows what becomes of the digits alone, or is refused by the length of
that. -/
theorem Mutator.shows_grant {limit slot : Nat} {p : Pool} {digits : Digits}
    (shown : p.shown? slot = some digits) (short : digits.length < limit) (m : Mutator) :
    (m.grant limit slot p).shows slot = Storage.offer limit (m.result digits) := by
  cases m with
  | mutate writes =>
      have kept : (rewrite writes digits).length = digits.length + 0 := length_rewrite writes digits
      exact Pool.shows_rewrite shown short kept
  | resize length => exact Pool.shows_resize shown short length
  | append count digit => exact Pool.shows_append shown short count digit
  | push digit => exact Pool.shows_append shown short 1 digit
  | truncate length => exact Pool.shows_truncate shown short length
  | trim =>
      have trimmed := Pool.shows_truncate shown short digits.significantLength
      rw [grant, Pool.trim, Pool.digits_eq shown, result, ← Digits.trim_eq_rdropWhile]
      exact trimmed
  | assign new => exact Pool.shows_assign shown short new

/-- **Mutators do not depend on sharing.** Two buffers with the same digits, in whatever pools and
whoever else owns their blocks, answer a mutator alike: both show what becomes of the digits alone
if that is shorter than the limit, and otherwise both are refused for its length, or for the most
that a refusal can name. -/
theorem mutators_ignore_sharing {limit : Nat} {p q : Pool} {s t : Nat} {digits : Digits}
    (left : p.shown? s = some digits) (right : q.shown? t = some digits)
    (short : digits.length < limit) (m : Mutator) :
    let result := m.result digits
    (m.grant limit s p).shows s = (m.grant limit t q).shows t ∧
      (m.grant limit s p).shows s =
        if result.length < limit then .ok (some result)
        else .error { requested := min result.length 18446744073709551615 } := by
  have alike := m.shows_grant left short
  exact ⟨alike.trans (m.shows_grant right short).symm, alike⟩

/-- A buffer of its own and a shared one are both asked for one more digit, and for more than can be
named. -/
theorem mutators_ignore_sharing_append :
    let ops : List BufferOp := [.create 0 [1, 2], .create 1 [1, 2], .clone 1 2]
    let p := BufferOp.runAll 4 ops (.empty 3)
    let most : Mutator := .append 18446744073709551615 9
    p.shown? 0 = some [1, 2] ∧ p.shown? 1 = some [1, 2] ∧ List.length [1, 2] < 4 ∧
      p.isShared 0 = false ∧ p.isShared 1 = true ∧
      (Mutator.grant 4 0 (.push 9) p).shows 0 = .ok (some [1, 2, 9]) ∧
      (Mutator.grant 4 1 (.push 9) p).shows 1 = .ok (some [1, 2, 9]) ∧
      (most.grant 4 0 p).shows 0 = .error { requested := 18446744073709551615 } ∧
      (most.grant 4 1 p).shows 1 = .error { requested := 18446744073709551615 } := by
  intro ops p most
  have alone : p.shown? 0 = some [1, 2] := by decide
  have shared : p.shown? 1 = some [1, 2] := by decide
  have short : List.length ([1, 2] : Digits) < 4 := by decide
  obtain ⟨alike, granted⟩ := mutators_ignore_sharing alone shared short (.push 9)
  -- The count is a variable here, so that nothing writes its digits out.
  have refused (count : Nat) (many : 18446744073709551613 ≤ count) :
      (Mutator.grant 4 0 (.append count 9) p).shows 0 =
          .error { requested := 18446744073709551615 } ∧
        (Mutator.grant 4 1 (.append count 9) p).shows 1 =
          .error { requested := 18446744073709551615 } := by
    obtain ⟨alike, refused⟩ := mutators_ignore_sharing alone shared short (.append count 9)
    have length : (Mutator.result (.append count 9) [1, 2]).length = count + 2 := by
      simp [Mutator.result]
    rw [length, if_neg (by omega), Nat.min_eq_right (by omega)] at refused
    exact ⟨refused, alike ▸ refused⟩
  obtain ⟨refused0, refused1⟩ := refused 18446744073709551615 (by omega)
  exact ⟨alone, shared, short, by decide, by decide, granted, alike ▸ granted, refused0, refused1⟩

end Bignum
