import Bignum.Proofs.Sharing.Writing
import Bignum.Sharing.Buffer
import Mathlib.Data.List.DropRight
import Mathlib.Logic.Equiv.Basic

/-!
Buffers keep their digits to themselves.

`BufferOp.effect` is what an operation does to plain lists of digits, one for each slot, none of
which knows of another. `Isolated` says of an operation on a pool that its slots show that effect if
it is granted, that the pool is as it was if not, and that only a buffer as long as the limit is
refused. As long as digits that are taken over have been granted to whoever made them, all digits
that are shown have been (`BufferOp.Held`).

* `isolated_truncate`, `isolated_rewrite`, `isolated_assign`: the three ways to write, each on a
  shared buffer and on one of its own.
* `BufferOp.isolated`: every operation.
* `buffers_isolated`: every run, with what the counts of owners are.
-/

namespace Bignum

/-! ### Effects on plain lists -/

namespace BufferOp

section Plain

/-- What each slot shows, if it is in use. -/
abbrev Shown := Nat → Option Digits

/-- Change the digits of one slot. -/
def onDigits (slot : Nat) (f : Digits → Digits) (shown : Shown) : Shown :=
  Function.update shown slot ((shown slot).map f)

/-- The effect of an operation on digits that nobody shares. -/
def effect (op : BufferOp) (shown : Shown) : Shown :=
  match op with
  | create slot digits | copy slot digits | assign slot digits =>
      Function.update shown slot (some digits)
  | zeroed slot count => Function.update shown slot (some (List.replicate count 0))
  | clone source target => Function.update shown target (shown source)
  | drop slot | take slot => Function.update shown slot none
  | exchange s t => shown ∘ Equiv.swap s t
  | write slot place digit => onDigits slot (·.set place digit) shown
  | resize slot length =>
      onDigits slot (fun ds => ds.take length ++ List.replicate (length - ds.length) 0) shown
  | append slot count digit => onDigits slot (· ++ List.replicate count digit) shown
  | truncate slot length => onDigits slot (·.take length) shown
  | trim slot => onDigits slot (·.rdropWhile (· == 0)) shown

/-- The answer of an operation on digits that nobody shares. -/
def answer (op : BufferOp) (shown : Shown) : BufferReply :=
  match op with
  | take slot => .taken ((shown slot).getD [])
  | write slot place _ => .written (place < ((shown slot).getD []).length)
  | _ => .done

/-- The slots that an operation changes. -/
def changes : BufferOp → List Nat
  | create slot _ | copy slot _ | zeroed slot _ | clone _ slot | drop slot | take slot
  | write slot _ _ | resize slot _ | append slot _ _ | truncate slot _ | trim slot
  | assign slot _ => [slot]
  | exchange s t => [s, t]

/-- All other slots keep their digits. -/
theorem effect_of_notMem {op : BufferOp} {shown : Shown} {slot : Nat}
    (other : slot ∉ op.changes) : op.effect shown slot = shown slot := by
  cases op with
  | exchange s t =>
      simp only [changes, List.mem_cons, List.not_mem_nil, or_false, not_or] at other
      exact congrArg shown (Equiv.swap_apply_of_ne_of_ne other.1 other.2)
  | _ => exact Function.update_of_ne (fun same => other (List.mem_singleton.mpr same)) _ _

end Plain

/-- The slots that an operation reads are in use, and those that it puts a buffer into are there.
Digits that are taken over have been granted. -/
def Ready (limit : Nat) (p : Pool) : BufferOp → Prop
  | create slot digits => slot < p.slots.length ∧ Storage.request limit digits.length = .ok ()
  | copy slot _ | zeroed slot _ => slot < p.slots.length
  | clone source target => (p.shown? source).isSome = true ∧ target < p.slots.length
  | exchange s t => (p.shown? s).isSome = true ∧ (p.shown? t).isSome = true
  | drop slot | take slot | write slot _ _ | resize slot _ | append slot _ _ | truncate slot _
  | trim slot | assign slot _ => (p.shown? slot).isSome = true

instance (limit : Nat) (p : Pool) (op : BufferOp) : Decidable (op.Ready limit p) := by
  cases op <;> unfold Ready <;> infer_instance

/-- Carry operations out one after another, whether they are granted or not. -/
def runAll (limit : Nat) (ops : List BufferOp) (p : Pool) : Pool :=
  ops.foldl (fun p op => (op.run limit p).2) p

/-- Every operation of a run can be carried out when its turn comes. -/
def ReadyAll (limit : Nat) : List BufferOp → Pool → Prop
  | [], _ => True
  | op :: ops, p => op.Ready limit p ∧ ReadyAll limit ops (op.run limit p).2

instance (limit : Nat) : (ops : List BufferOp) → (p : Pool) → Decidable (ReadyAll limit ops p)
  | [], _ => .isTrue trivial
  | op :: ops, p =>
      have := instDecidableReadyAll limit ops (op.run limit p).2
      inferInstanceAs (Decidable (op.Ready limit p ∧ ReadyAll limit ops (op.run limit p).2))

/-- The digits of all slots have been granted. -/
def Held (limit : Nat) (shown : Shown) : Prop :=
  ∀ slot digits, shown slot = some digits → Storage.Grants limit digits.length

theorem Held.update {limit slot : Nat} {shown : Shown} {entry : Option Digits}
    (held : Held limit shown)
    (grants : ∀ digits, entry = some digits → Storage.Grants limit digits.length) :
    Held limit (Function.update shown slot entry) := by
  intro s digits shows
  rw [Function.update_apply] at shows
  split at shows
  · exact grants digits shows
  · exact held s digits shows

end BufferOp

/-! ### Isolation -/

/-- If it is granted, the slots show `shown`, and if not, the pool is as it was; and it is granted
if they would then show no buffer as long as the limit. What they show has then been granted, if
what they showed had been. -/
structure Isolated (limit : Nat) (p : Pool) (shown : BufferOp.Shown) (grant : Grant) : Prop where
  counted : grant.2.Counted
  granted : grant.1 = .ok () → grant.2.shown? = shown
  refused : ∀ cause, grant.1 = .error cause → grant.2 = p
  possible : (∀ s ds, shown s = some ds → ds.length < limit) → grant.1 = .ok ()
  held : BufferOp.Held limit p.shown? → grant.1 = .ok () → BufferOp.Held limit shown

namespace Isolated

variable {limit slot : Nat} {p q : Pool} {shown : BufferOp.Shown} {digits : Digits}

theorem done (counted : q.Counted) (shows : ∀ s, q.shown? s = shown s)
    (held : BufferOp.Held limit p.shown? → BufferOp.Held limit shown) :
    Isolated limit p shown (.ok (), q) where
  counted := counted
  granted := by
    intro _
    exact funext shows
  refused := by
    intro cause impossible
    cases impossible
  possible := by
    intro _
    rfl
  held := by
    intro before _
    exact held before

theorem wrote (wrote : p.Wrote slot digits q)
    (room : BufferOp.Held limit p.shown? → Storage.Grants limit digits.length) :
    Isolated limit p (Function.update p.shown? slot (some digits)) (.ok (), q) := by
  refine done wrote.counted (fun s => ?_) fun held => held.update fun _ same => ?_
  · rw [wrote.shown, Function.update_apply]
  · exact Option.some.inj same ▸ room held

theorem failed (counted : p.Counted) {cause : AllocationError} (shows : shown slot = some digits)
    (long : limit ≤ digits.length) : Isolated limit p shown (.error cause, p) where
  counted := counted
  granted := by
    intro impossible
    cases impossible
  refused := by
    intro _ _
    rfl
  possible := by
    intro short
    exact absurd (short slot digits shows) (Nat.not_lt_of_le long)
  held := by
    intro _ impossible
    cases impossible

/-- What is shown afterwards has been granted, whether the operation was or not. -/
theorem held_after {grant : Grant} (isolated : Isolated limit p shown grant)
    (held : BufferOp.Held limit p.shown?) : BufferOp.Held limit grant.2.shown? := by
  cases answer : grant.1 with
  | error cause =>
      rw [isolated.refused cause answer]
      exact held
  | ok _ =>
      rw [isolated.granted answer]
      exact isolated.held held answer

end Isolated

namespace Storage

theorem le_of_extend_error {limit length additional : Nat} {cause : AllocationError}
    (refused : extend limit length additional = .error cause) :
    0 < additional ∧ limit ≤ length + additional := by
  unfold extend at refused
  split at refused
  · cases refused
  · rename_i some
    exact ⟨Nat.pos_of_ne_zero some, le_of_request_error refused⟩

end Storage

namespace Digits

/-- To trim is to drop zeros from the right. -/
theorem trim_eq_rdropWhile (ds : Digits) : ds.trim = ds.rdropWhile (· == 0) := by
  have same : toNat (ds.rdropWhile (· == 0)) = ds.toNat := by
    induction ds using List.reverseRecOn with
    | nil => rfl
    | append_singleton ds d ih =>
        rw [List.rdropWhile_concat]
        split
        · rename_i zero
          rw [ih, eq_of_beq zero, toNat_append]
          simp
        · rfl
  have canonical : Canonical (ds.rdropWhile (· == 0)) := by
    intro top
    have nonempty : ds.rdropWhile (· == 0) ≠ [] := by
      intro empty
      rw [empty] at top
      cases top
    rw [List.getLast?_eq_some_getLast nonempty] at top
    exact List.rdropWhile_last_not (· == 0) ds nonempty (by simp [Option.some.inj top])
  exact (canonical_trim ds).eq_of_toNat_eq canonical ((toNat_trim ds).trans same.symm)

end Digits

/-! ### Writing -/

namespace Pool

variable {limit slot : Nat} {p : Pool} {digits : Digits}

/-- A slot is only refused room for a buffer as long as the limit. -/
theorem le_of_exclusive_error {additional : Nat} {cause : AllocationError}
    (refused : (p.exclusive limit slot additional).1 = .error cause) :
    limit ≤ (p.digits slot).length + additional := by
  simp only [exclusive] at refused
  split at refused
  · cases room : Storage.request limit ((p.digits slot).length + additional) with
    | error cause => exact Storage.le_of_request_error room
    | ok _ =>
        rw [room] at refused
        exact (Storage.le_of_extend_error refused).2
  · exact (Storage.le_of_extend_error refused).2

/-- Digits that are added have been granted with those that are there. -/
theorem grants_of_exclusive {additional : Nat} (shown : p.shown? slot = some digits)
    (held : BufferOp.Held limit p.shown?)
    (granted : (p.exclusive limit slot additional).1 = .ok ()) :
    Storage.Grants limit (digits.length + additional) := by
  rw [exclusive_answer shown] at granted
  split at granted
  · exact Storage.grants_of_request granted
  · rcases Storage.extend_eq_ok_iff.mp granted with rfl | more
    · exact held slot digits shown
    · exact Storage.grants_of_request more

variable (counted : p.Counted) (shown : p.shown? slot = some digits)

include counted shown

/-- Digits are rewritten in place once the slot has them to itself, with room for those that are
added. -/
theorem isolated_rewrite {additional : Nat} {f : Digits → Digits}
    (grows : (f digits).length = digits.length + additional) :
    Isolated limit p (Function.update p.shown? slot (some (f digits)))
      ((p.exclusive limit slot additional).thenChange (overwrite slot f)) := by
  cases answer : (p.exclusive limit slot additional).1 with
  | error cause =>
      simp only [Grant.thenChange, Grant.andThen, answer, exclusive_refused answer]
      have long := le_of_exclusive_error answer
      rw [digits_eq shown, ← grows] at long
      exact .failed counted (Function.update_self _ _ _) long
  | ok _ =>
      obtain ⟨wrote, unshared⟩ := exclusive_granted counted shown answer
      simp only [Grant.thenChange, Grant.andThen, answer]
      refine .wrote (wrote.trans (wrote_overwrite wrote.counted unshared wrote.self f)) ?_
      intro held
      exact grows ▸ grants_of_exclusive shown held answer

/-- A shared buffer copies what it keeps, and one of its own drops the rest. -/
theorem isolated_truncate (length : Nat) :
    Isolated limit p (Function.update p.shown? slot (some (digits.take length)))
      (p.truncate limit slot length) := by
  obtain ⟨block, owned⟩ := owned?_of_shown? shown
  simp only [truncate, digits_eq shown]
  split
  · rename_i whole
    rw [List.take_of_length_le whole]
    exact .wrote (.refl counted shown) fun held => held slot digits shown
  · rename_i more
    have shorter : (digits.take length).length ≤ length := List.length_take_le ..
    split
    · cases room : Storage.request limit length with
      | error cause =>
          refine .failed counted (Function.update_self _ _ _) ?_
          rw [List.length_take_of_le (by omega)]
          exact Storage.le_of_request_error room
      | ok _ =>
          refine .wrote (wrote_place counted (lt_length_of_owned? owned)) fun _ => ?_
          exact (Storage.grants_of_request room).mono shorter
    · rename_i unshared
      refine .wrote (wrote_overwrite counted (Bool.not_eq_true _ ▸ unshared) shown _) ?_
      intro held
      exact (held slot digits shown).mono (shorter.trans (Nat.le_of_not_le more))

/-- A shared buffer gets new storage, and one of its own grows only by what it is short of. -/
theorem isolated_assign (new : Digits) :
    Isolated limit p (Function.update p.shown? slot (some new)) (p.assign limit slot new) := by
  obtain ⟨block, owned⟩ := owned?_of_shown? shown
  simp only [assign, digits_eq shown]
  split
  · cases room : Storage.request limit new.length with
    | error cause =>
        exact .failed counted (Function.update_self _ _ _) (Storage.le_of_request_error room)
    | ok _ =>
        refine .wrote (wrote_place counted (lt_length_of_owned? owned)) fun _ => ?_
        exact Storage.grants_of_request room
  · rename_i unshared
    cases room : Storage.extend limit digits.length (new.length - digits.length) with
    | error cause =>
        have long := Storage.le_of_extend_error room
        exact .failed counted (Function.update_self _ _ _) (by omega)
    | ok _ =>
        have alone := Bool.not_eq_true _ ▸ unshared
        refine .wrote (wrote_overwrite counted alone shown fun _ => new) fun held => ?_
        rcases Storage.extend_eq_ok_iff.mp room with none | granted
        · exact (held slot digits shown).mono (Nat.sub_eq_zero_iff_le.mp none)
        · exact (Storage.grants_of_request granted).mono (by omega)

theorem isolated_append (count : Nat) (digit : Digit) :
    Isolated limit p
      (Function.update p.shown? slot (some (digits ++ List.replicate count digit)))
      (p.append limit slot count digit) := by
  unfold append
  split
  · rename_i none
    rw [none, List.replicate_zero, List.append_nil]
    exact .wrote (.refl counted shown) fun held => held slot digits shown
  · exact isolated_rewrite (f := (· ++ List.replicate count digit)) counted shown (by simp)

theorem isolated_resize (length : Nat) :
    Isolated limit p
      (Function.update p.shown? slot
        (some (digits.take length ++ List.replicate (length - digits.length) 0)))
      (p.resize limit slot length) := by
  simp only [resize, digits_eq shown]
  split
  · rename_i shorter
    rw [Nat.sub_eq_zero_of_le shorter, List.replicate_zero, List.append_nil]
    exact isolated_truncate counted shown length
  · rename_i longer
    rw [List.take_of_length_le (by omega)]
    exact isolated_rewrite (f := (· ++ List.replicate (length - digits.length) 0)) counted shown
      (by simp)

theorem isolated_trim :
    Isolated limit p (Function.update p.shown? slot (some (digits.rdropWhile (· == 0))))
      (p.trim limit slot) := by
  rw [trim, digits_eq shown, ← Digits.trim_eq_rdropWhile]
  exact isolated_truncate counted shown _

end Pool

/-! ### Operations -/

namespace BufferOp

variable {limit : Nat} {p : Pool}

/-- A new buffer shows its digits, if storage for them is granted. -/
theorem isolated_placeNew {slot : Nat} (counted : p.Counted) (inRange : slot < p.slots.length)
    {made : Except AllocationError Digits} {digits : Digits}
    (good : made = .ok digits ∧ Storage.Grants limit digits.length ∨
      ∃ cause, made = .error cause ∧ limit ≤ digits.length) :
    Isolated limit p (Function.update p.shown? slot (some digits)) (placeNew slot made p) := by
  rcases good with ⟨rfl, grants⟩ | ⟨cause, rfl, long⟩
  · exact .wrote (Pool.wrote_place counted inRange) fun _ => grants
  · exact .failed counted (Function.update_self _ _ _) long

/-- Storage for a number of digits is granted, or is refused for that number. -/
theorem storage_answer {count : Nat} {digits : Digits} (length : digits.length = count) :
    (do Storage.request limit count; return digits) = (Except.ok digits : Except _ _) ∧
        Storage.Grants limit digits.length ∨
      ∃ cause, (do Storage.request limit count; return digits) = (Except.error cause : Except _ _) ∧
        limit ≤ digits.length := by
  cases room : Storage.request limit count with
  | ok _ => exact .inl ⟨rfl, length ▸ Storage.grants_of_request room⟩
  | error cause => exact .inr ⟨cause, rfl, length ▸ Storage.le_of_request_error room⟩

theorem onDigits_eq {slot : Nat} {shown : Shown} {digits : Digits}
    (shows : shown slot = some digits) (f : Digits → Digits) :
    onDigits slot f shown = Function.update shown slot (some (f digits)) := by
  rw [onDigits, shows, Option.map_some]

theorem isolated_release {slot : Nat} (counted : p.Counted)
    (used : (p.shown? slot).isSome = true) :
    Isolated limit p (Function.update p.shown? slot none) (.ok (), p.release slot) := by
  obtain ⟨digits, shown⟩ := Option.isSome_iff_exists.mp used
  obtain ⟨block, owned⟩ := Pool.owned?_of_shown? shown
  refine .done (counted.release (Pool.lt_length_of_owned? owned)) (fun s => ?_) fun held =>
    held.update nofun
  rw [Pool.shown?_release, Function.update_apply]

/-- **Every operation** shows its plain effect, or changes nothing. -/
theorem isolated (op : BufferOp) (counted : p.Counted) (ready : op.Ready limit p) :
    Isolated limit p (op.effect p.shown?) (op.change limit p) := by
  cases op with
  | create slot digits =>
      refine .wrote (Pool.wrote_place counted ready.1) fun _ => ?_
      exact Storage.grants_of_request ready.2
  | copy slot digits => exact isolated_placeNew counted ready (storage_answer rfl)
  | zeroed slot count =>
      exact isolated_placeNew counted ready (storage_answer List.length_replicate)
  | clone source target =>
      obtain ⟨used, inRange⟩ := ready
      obtain ⟨digits, shown⟩ := Option.isSome_iff_exists.mp used
      obtain ⟨block, owned⟩ := Pool.owned?_of_shown? shown
      refine .done (counted.share owned inRange) (fun s => ?_) fun held =>
        held.update (held source)
      rw [Pool.shown?_share owned inRange, effect, Function.update_apply]
  | drop slot => exact isolated_release counted ready
  | take slot => exact isolated_release counted ready
  | exchange s t =>
      obtain ⟨digits, shown⟩ := Option.isSome_iff_exists.mp ready.1
      obtain ⟨digits', shown'⟩ := Option.isSome_iff_exists.mp ready.2
      obtain ⟨block, owned⟩ := Pool.owned?_of_shown? shown
      obtain ⟨block', owned'⟩ := Pool.owned?_of_shown? shown'
      have inRange := And.intro (Pool.lt_length_of_owned? owned) (Pool.lt_length_of_owned? owned')
      refine .done (counted.exchange inRange) (fun slot => ?_) fun held slot => held _
      rw [Pool.shown?_exchange inRange, effect, Function.comp_apply, Equiv.swap_apply_def]
      rfl
  | write slot place digit =>
      obtain ⟨digits, shown⟩ := Option.isSome_iff_exists.mp ready
      rw [effect, onDigits_eq shown]
      exact Pool.isolated_rewrite (f := (·.set place digit)) counted shown List.length_set
  | resize slot length =>
      obtain ⟨digits, shown⟩ := Option.isSome_iff_exists.mp ready
      rw [effect, onDigits_eq shown]
      exact Pool.isolated_resize counted shown length
  | append slot count digit =>
      obtain ⟨digits, shown⟩ := Option.isSome_iff_exists.mp ready
      rw [effect, onDigits_eq shown]
      exact Pool.isolated_append counted shown count digit
  | truncate slot length =>
      obtain ⟨digits, shown⟩ := Option.isSome_iff_exists.mp ready
      rw [effect, onDigits_eq shown]
      exact Pool.isolated_truncate counted shown length
  | trim slot =>
      obtain ⟨digits, shown⟩ := Option.isSome_iff_exists.mp ready
      rw [effect, onDigits_eq shown]
      exact Pool.isolated_trim counted shown
  | assign slot digits =>
      obtain ⟨before, shown⟩ := Option.isSome_iff_exists.mp ready
      exact Pool.isolated_assign counted shown digits

theorem reply_eq_answer (op : BufferOp) (p : Pool) : op.reply p = op.answer p.shown? := by
  have same (slot : Nat) : p.digits slot = (p.shown? slot).getD [] := by
    unfold Pool.digits Pool.shown?
    cases p.block? slot <;> rfl
  cases op <;> simp only [reply, answer, same]

end BufferOp

/-! ### Runs -/

/-- A run keeps the counts, and shows only digits that have been granted. -/
theorem BufferOp.held_runAll {limit : Nat} {ops : List BufferOp} {p : Pool} (counted : p.Counted)
    (held : BufferOp.Held limit p.shown?) (ready : BufferOp.ReadyAll limit ops p) :
    (BufferOp.runAll limit ops p).Counted ∧
      BufferOp.Held limit (BufferOp.runAll limit ops p).shown? := by
  induction ops generalizing p with
  | nil => exact ⟨counted, held⟩
  | cons op ops ih =>
      have isolated := op.isolated counted ready.1
      exact ih isolated.counted (isolated.held_after held) ready.2

/-- **Buffers are isolated and fail atomically.** After any run the count of owners of each slot is
the number of slots on the same block, and what the slots show has been granted. Of any operation
that follows: if it is granted, it answers what it would on plain lists, the slots that it changes
show what they would there, and all others show what they did; if it is refused, the pool is as it
was, blocks and counts included; and it is not refused unless a buffer would become as long as the
limit. -/
theorem buffers_isolated {limit count : Nat} {ops : List BufferOp}
    (ready : BufferOp.ReadyAll limit ops (.empty count)) :
    let p := BufferOp.runAll limit ops (.empty count)
    (∀ s, p.owners s = (List.range p.slots.length).countP (p.sameBlock s)) ∧
      BufferOp.Held limit p.shown? ∧
      ∀ op : BufferOp, op.Ready limit p →
        (∀ reply, (op.run limit p).1 = .ok reply →
          reply = op.answer p.shown? ∧ (op.run limit p).2.shown? = op.effect p.shown? ∧
            ∀ s ∉ op.changes, (op.run limit p).2.shown? s = p.shown? s) ∧
        (∀ cause, (op.run limit p).1 = .error cause → (op.run limit p).2 = p) ∧
        ((∀ s digits, op.effect p.shown? s = some digits → digits.length < limit) →
          ∃ reply, (op.run limit p).1 = .ok reply) := by
  intro p
  have nothing : BufferOp.Held limit (Pool.empty count).shown? := by
    intro s digits shows
    rw [Pool.shown?_empty] at shows
    cases shows
  obtain ⟨counted, held⟩ : p.Counted ∧ BufferOp.Held limit p.shown? :=
    BufferOp.held_runAll (Pool.counted_empty count) nothing ready
  refine ⟨counted.owners_eq_countP, held, fun op next => ?_⟩
  have isolated : Isolated limit p (op.effect p.shown?) (op.change limit p) :=
    op.isolated counted next
  refine ⟨?_, ?_, ?_⟩
  · intro reply granted
    obtain ⟨_, change, rfl⟩ := map_eq_ok_iff.mp granted
    have shows := isolated.granted change
    refine ⟨op.reply_eq_answer p, shows, fun s other => ?_⟩
    exact (congrFun shows s).trans (BufferOp.effect_of_notMem other)
  · intro cause refused
    exact isolated.refused cause (map_eq_error_iff.mp refused)
  · intro short
    exact ⟨_, map_eq_ok_iff.mpr ⟨(), isolated.possible short, rfl⟩⟩

/-- One digit is added to a copy of a buffer, and two are refused. -/
theorem buffers_isolated_append :
    let ops : List BufferOp := [.create 0 [1, 2], .clone 0 1]
    let p := BufferOp.runAll 4 ops (.empty 2)
    let grown := (BufferOp.append 1 1 9).run 4 p
    BufferOp.ReadyAll 4 ops (.empty 2) ∧ (BufferOp.append 1 1 9).Ready 4 p ∧ p.owners 0 = 2 ∧
      grown.1 = .ok .done ∧ grown.2.shown? 0 = some [1, 2] ∧ grown.2.shown? 1 = some [1, 2, 9] ∧
      ((BufferOp.append 1 2 9).run 4 p).2 = p := by
  intro ops p grown
  have ready : BufferOp.ReadyAll 4 ops (.empty 2) := by decide
  have next : (BufferOp.append 1 1 9).Ready 4 p := by decide
  obtain ⟨owners, -, steps⟩ := buffers_isolated ready
  obtain ⟨granted, -, possible⟩ := steps (.append 1 1 9) next
  obtain ⟨-, refused, -⟩ := steps (.append 1 2 9) next
  have done : grown.1 = .ok .done := rfl
  obtain ⟨-, shows, others⟩ := granted _ done
  refine ⟨ready, next, (owners 0).trans (by decide), done, ?_, ?_, refused _ rfl⟩
  · exact (others 0 (by decide)).trans (by decide)
  · exact (congrFun shows 1).trans (by decide)

end Bignum
