import Bignum.ArithmeticError
import Bignum.Digits.Basic

/-!
What a granted calculation was made of.

A calculation with refusals is a chain of parts, and its result is there exactly if each part has
one. The lemmas here take such a chain apart (`map_eq_ok_iff`, `bind_eq_ok_iff`), find the part that
was refused (`bind_eq_error_iff`), say when a request is granted (`request_eq_ok_iff`), also one for
more than is needed at once (`grow_eq_ok_iff`), and that a copy has the digits that it was made from
(`copy_eq_ok_iff`). What was granted once is granted again (`Grants.extend_eq`), so storage
that is asked for exactly does not have to know its room.
-/

namespace Bignum

section Parts

variable {ε α β : Type}

theorem map_eq_ok_iff {part : Except ε α} {f : α → β} {result : β} :
    part.map f = .ok result ↔ ∃ a, part = .ok a ∧ f a = result := by
  cases part with
  | error cause => simp [Except.map]
  | ok a => simp [Except.map]

theorem map_eq_error_iff {part : Except ε α} {f : α → β} {cause : ε} :
    part.map f = .error cause ↔ part = .error cause := by
  cases part with
  | error cause => simp [Except.map]
  | ok a => simp [Except.map]

theorem map_map {γ : Type} {part : Except ε α} {f : α → β} {g : β → γ} :
    (part.map f).map g = part.map fun a => g (f a) := by
  cases part <;> rfl

theorem bind_eq_ok_iff {part : Except ε α} {f : α → Except ε β} {result : β} :
    part.bind f = .ok result ↔ ∃ a, part = .ok a ∧ f a = .ok result := by
  cases part with
  | error cause => simp [Except.bind]
  | ok a => simp [Except.bind]

/-- A chain fails with its first part, or with what follows a first part that was granted. -/
theorem bind_eq_error_iff {part : Except ε α} {f : α → Except ε β} {cause : ε} :
    part.bind f = .error cause ↔ part = .error cause ∨ ∃ a, part = .ok a ∧ f a = .error cause := by
  cases part with
  | error cause => simp [Except.bind]
  | ok a => simp [Except.bind]

theorem liftAllocation_eq_ok_iff {part : Except AllocationError α} {result : α} :
    liftAllocation part = .ok result ↔ part = .ok result := by
  cases part with
  | error cause =>
      constructor
      · intro impossible
        cases impossible
      · intro impossible
        cases impossible
  | ok a =>
      constructor
      · intro granted
        rw [Except.ok.inj granted]
      · intro granted
        obtain rfl := Except.ok.inj granted
        rfl

/-- The only error of a calculation that only asks for storage is a refusal. -/
theorem liftAllocation_eq_error_iff {part : Except AllocationError α} {e : ArithmeticError} :
    liftAllocation part = .error e ↔ ∃ cause, part = .error cause ∧ .allocation cause = e := by
  cases part with
  | error cause =>
      constructor
      · intro refused
        exact ⟨cause, rfl, Except.error.inj refused⟩
      · rintro ⟨cause', same, rfl⟩
        obtain rfl := Except.error.inj same
        rfl
  | ok a =>
      constructor
      · intro impossible
        cases impossible
      · rintro ⟨cause, impossible, -⟩
        cases impossible

theorem orPanic_eq_ok_iff {part : Except ArithmeticError α} {result : α} :
    orPanic part = .ok result ↔ part = .ok result := by
  cases part with
  | error cause =>
      constructor
      · intro impossible
        cases impossible
      · intro impossible
        cases impossible
  | ok a =>
      constructor
      · intro granted
        rw [Except.ok.inj granted]
      · intro granted
        obtain rfl := Except.ok.inj granted
        rfl

/-- The program stops exactly if there is an error, and with its wording. -/
theorem orPanic_eq_error_iff {part : Except ArithmeticError α} {panic : Panic} :
    orPanic part = .error panic ↔ ∃ e, part = .error e ∧ panic.message = e.message := by
  cases part with
  | error e =>
      constructor
      · intro stopped
        exact ⟨e, rfl, congrArg Panic.message (Except.error.inj stopped).symm⟩
      · rintro ⟨e, same, wording⟩
        obtain rfl := Except.error.inj same
        cases panic
        cases wording
        rfl
  | ok a =>
      constructor
      · intro impossible
        cases impossible
      · rintro ⟨e, impossible, -⟩
        cases impossible

end Parts

theorem Storage.request_eq_ok_iff {limit count : Nat} :
    request limit count = .ok () ↔ count = 0 ∨ count < limit := by
  unfold request
  split
  · rename_i room
    simp [room]
  · rename_i full
    simp [full]

theorem Storage.lt_of_request {limit count : Nat} (positive : 0 < limit)
    (granted : request limit count = .ok ()) : count < limit := by
  rcases request_eq_ok_iff.mp granted with rfl | room
  · exact positive
  · exact room

theorem Storage.le_of_request_error {limit count : Nat} {cause : AllocationError}
    (refused : request limit count = .error cause) : limit ≤ count := by
  refine Nat.le_of_not_lt fun room => ?_
  rw [request_eq_ok_iff.mpr (.inr room)] at refused
  cases refused

/-- Every request of at most so many digits is granted. -/
def Storage.Grants (limit count : Nat) : Prop :=
  ∀ n ≤ count, request limit n = .ok ()

theorem Storage.grants_iff {limit count : Nat} :
    Grants limit count ↔ count = 0 ∨ count < limit := by
  refine ⟨fun grants => request_eq_ok_iff.mp (grants count (Nat.le_refl _)), ?_⟩
  rintro (rfl | room) n le
  · exact request_eq_ok_iff.mpr (.inl (Nat.le_zero.mp le))
  · exact request_eq_ok_iff.mpr (.inr (Nat.lt_of_le_of_lt le room))

theorem Storage.Grants.lt {limit count : Nat} (grants : Grants limit count) (some : 0 < count) :
    count < limit :=
  (grants_iff.mp grants).resolve_left (Nat.ne_of_gt some)

theorem Storage.grants_of_request {limit count : Nat} (granted : request limit count = .ok ()) :
    Grants limit count :=
  grants_iff.mpr (request_eq_ok_iff.mp granted)

theorem Storage.Grants.mono {limit count fewer : Nat} (grants : Grants limit count)
    (le : fewer ≤ count) : Grants limit fewer :=
  fun n few => grants n (Nat.le_trans few le)

/-- **Room that was granted once is granted again**: digits that fit into it are never refused, so
that it does not matter whether they are asked for. -/
theorem Storage.Grants.extend_eq {limit room length additional : Nat} (grants : Grants limit room)
    (fits : length + additional ≤ room) : extend limit length additional = .ok () := by
  rw [extend, grants _ fits, ite_self]

theorem Storage.extend_eq_ok_iff {limit length additional : Nat} :
    extend limit length additional = .ok () ↔
      additional = 0 ∨ request limit (length + additional) = .ok () := by
  unfold extend
  split
  · rename_i none
    simp [none]
  · rename_i some
    simp [some]

/-- What is never refused has a result. -/
theorem Storage.Grants.exists_ok {α : Type} {limit count n : Nat} {part : Except AllocationError α}
    (grants : Grants limit count) (le : n ≤ count)
    (asks : ∀ cause, part = .error cause → request limit n = .error cause) :
    ∃ result, part = .ok result := by
  cases made : part with
  | ok result => exact ⟨result, rfl⟩
  | error cause => exact absurd ((grants n le).symm.trans (asks cause made)) nofun

/-- A refusal names what was asked for, as far as a refusal can. -/
theorem Storage.requested_of_request_error {limit count : Nat} {cause : AllocationError}
    (refused : request limit count = .error cause) : cause.requested = min count maxRequest := by
  unfold request at refused
  split at refused
  · cases refused
  · exact congrArg AllocationError.requested (Except.error.inj refused).symm

/-! ### Storage that grows -/

theorem Storage.grow_eq_ok_iff {limit room count : Nat} :
    grow limit room count = .ok () ↔
      count ≤ room ∨ request limit (roomFor room count) = .ok () := by
  unfold grow
  split
  · rename_i fits
    simp [fits]
  · rename_i full
    rw [or_iff_right full]
    cases request limit (roomFor room count) with
    | ok _ => exact ⟨fun _ => rfl, fun _ => rfl⟩
    | error _ => exact ⟨nofun, nofun⟩

/-- The most room that is asked for to put one digit on top of `length` others. -/
def Storage.mostRoom (length : Nat) : Nat := max 4 (2 * length)

/-- Digits only have to ask where they fill their room. -/
theorem Storage.le_of_grow_error {limit room length : Nat} {cause : AllocationError}
    (refused : grow limit room (length + 1) = .error cause) : limit ≤ mostRoom length := by
  have ungranted := mt grow_eq_ok_iff.mpr (by rw [refused]; nofun)
  obtain ⟨full, ungranted⟩ := not_or.mp ungranted
  have asked := mt request_eq_ok_iff.mpr ungranted
  rw [roomFor, if_neg full] at asked
  unfold mostRoom
  omega

/-- A refusal to grow names the digits that were to be held, as far as a refusal can. -/
theorem Storage.requested_of_grow_error {limit room count : Nat} {cause : AllocationError}
    (refused : grow limit room count = .error cause) : cause.requested = min count maxRequest := by
  unfold grow at refused
  split at refused
  · cases refused
  · cases asked : request limit (roomFor room count) with
    | ok _ =>
        rw [asked] at refused
        cases refused
    | error _ =>
        rw [asked] at refused
        exact congrArg AllocationError.requested (Except.error.inj refused).symm

/-! ### Copies -/

theorem Digits.copy_eq_ok_iff {limit : Nat} {ds result : Digits} :
    ds.copy limit = .ok result ↔ Storage.request limit ds.length = .ok () ∧ ds = result := by
  unfold copy
  cases granted : Storage.request limit ds.length with
  | error cause => simp [bind, Except.bind]
  | ok _ => simp [bind, Except.bind, pure, Except.pure]

theorem Storage.Grants.copy_eq {limit count : Nat} {ds : Digits} (grants : Grants limit count)
    (le : ds.length ≤ count) : ds.copy limit = .ok ds :=
  Digits.copy_eq_ok_iff.mpr ⟨grants _ le, rfl⟩

theorem Digits.copy_eq_error_iff {limit : Nat} {ds : Digits} {cause : AllocationError} :
    ds.copy limit = .error cause ↔ Storage.request limit ds.length = .error cause := by
  refine bind_eq_error_iff.trans ⟨?_, .inl⟩
  rintro (refused | ⟨_, -, impossible⟩)
  · exact refused
  · cases impossible

theorem Digits.le_of_copy_error {limit : Nat} {ds : Digits} {cause : AllocationError}
    (refused : ds.copy limit = .error cause) : limit ≤ ds.length :=
  Storage.le_of_request_error (copy_eq_error_iff.mp refused)

end Bignum
