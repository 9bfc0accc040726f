import Bignum.Sharing.Pool
import Mathlib.Data.List.Basic
import Mathlib.Tactic.ByContra

/-!
Pools whose blocks count their owners.

What a slot shows depends on its block alone, and a block counts the slots that own it
(`Pool.Counted`). For each way to change a pool there is what it does to the block that a slot owns
(`owned?_place`, ...), to what slots show (`shown?_place`, ...) and that it keeps the counts
(`Counted.place`, ...).

* `Counted.sole`: a block with one owner is behind one slot, so that writing to it shows in no other
  slot (`shown?_overwrite`).
-/

namespace Bignum.Pool

/-! ### Views -/

/-- The digits in a block. -/
def digitsOf? (p : Pool) (block : Nat) : Option Digits := (p.blocks[block]?).map (·.digits)

/-- The digits that a slot shows, if it is in use. -/
def shown? (p : Pool) (slot : Nat) : Option Digits := (p.block? slot).map (·.digits)

/-- Blocks are where slots look for them, and each counts the slots that own it. -/
structure Counted (p : Pool) : Prop where
  placed : ∀ slot block, p.owned? slot = some block → block < p.blocks.length
  counted : ∀ block b, p.blocks[block]? = some b → b.owners = p.slots.count (some block)

theorem owned?_empty (count slot : Nat) : (empty count).owned? slot = none := by
  rw [empty, owned?, List.getElem?_replicate]
  split <;> rfl

theorem counted_empty (count : Nat) : (empty count).Counted := by
  constructor
  · intro slot block owned
    rw [owned?_empty] at owned
    cases owned
  · intro block b found
    cases found

section Views

variable {p : Pool} {slot block : Nat} {digits : Digits}

theorem shown?_eq (p : Pool) (slot : Nat) : p.shown? slot = (p.owned? slot).bind p.digitsOf? := by
  unfold shown? block? digitsOf?
  cases p.owned? slot <;> rfl

theorem shown?_empty (count slot : Nat) : (empty count).shown? slot = none := by
  rw [shown?_eq, owned?_empty, Option.bind_none]

theorem digits_eq (shown : p.shown? slot = some digits) : p.digits slot = digits := by
  unfold shown? at shown
  unfold Pool.digits
  cases found : p.block? slot with
  | none => rw [found] at shown; cases shown
  | some b =>
      rw [found] at shown
      exact Option.some.inj shown

theorem lt_length_of_owned? (owned : p.owned? slot = some block) : slot < p.slots.length := by
  by_contra beyond
  rw [owned?, List.getElem?_eq_none (Nat.le_of_not_lt beyond)] at owned
  cases owned

theorem owned?_of_shown? (shown : p.shown? slot = some digits) :
    ∃ block, p.owned? slot = some block := by
  rw [shown?_eq] at shown
  obtain ⟨block, owned, -⟩ := Option.bind_eq_some_iff.mp shown
  exact ⟨block, owned⟩

theorem mem_slots_iff : some block ∈ p.slots ↔ ∃ slot, p.owned? slot = some block := by
  rw [List.mem_iff_getElem?]
  refine exists_congr fun slot => ?_
  unfold owned?
  cases p.slots[slot]? <;> simp

/-- The count that a slot shows is that of the slots on its block. -/
theorem Counted.owners_eq (counted : p.Counted) (owned : p.owned? slot = some block) :
    p.owners slot = p.slots.count (some block) := by
  have placed := counted.placed slot block owned
  unfold owners block?
  rw [owned, Option.bind_some, List.getElem?_eq_getElem placed]
  exact counted.counted block _ (List.getElem?_eq_getElem placed)

theorem slots_eq_map (p : Pool) : p.slots = (List.range p.slots.length).map p.owned? := by
  apply List.ext_getElem
  · simp
  · intro i left right
    simp [owned?, List.getElem?_eq_getElem left]

/-- **The count of owners** of a slot is the number of slots on the same block. -/
theorem Counted.owners_eq_countP (counted : p.Counted) (slot : Nat) :
    p.owners slot = (List.range p.slots.length).countP (p.sameBlock slot) := by
  cases owned : p.owned? slot with
  | none =>
      have apart : p.sameBlock slot = fun _ => false := by
        funext s
        simp [sameBlock, owned]
      simp [owners, block?, owned, apart]
  | some block =>
      have together : p.sameBlock slot = (fun o => o == some block) ∘ p.owned? := by
        funext s
        simp [sameBlock, owned, Bool.beq_comm]
      rw [counted.owners_eq owned, together, ← List.countP_map, ← slots_eq_map]
      rfl

end Views

/-! ### Slots -/

section Slots

variable {slots : List (Option Nat)} {slot : Nat}

theorem join_set (inRange : slot < slots.length) (new : Option Nat) (s : Nat) :
    ((slots.set slot new)[s]?).join = if s = slot then new else (slots[s]?).join := by
  split
  · rename_i same
    rw [same, List.getElem?_set_self inRange, Option.join_some]
  · rename_i other
    rw [List.getElem?_set_ne (Ne.symm other)]

/-- Putting a block into a slot takes the slot away from its block before. -/
theorem count_set_add (inRange : slot < slots.length) (new : Option Nat) (block : Nat) :
    (slots.set slot new).count (some block) +
        (if (slots[slot]?).join = some block then 1 else 0) =
      slots.count (some block) + (if new = some block then 1 else 0) := by
  rw [List.count_set inRange, List.getElem?_eq_getElem inRange, Option.join_some]
  simp only [beq_iff_eq]
  by_cases before : slots[slot] = some block
  · have positive : 0 < slots.count (some block) :=
      List.count_pos_iff.mpr (before ▸ List.getElem_mem inRange)
    rw [if_pos before]
    omega
  · rw [if_neg before]
    omega

end Slots

/-- The only owner of a block is one slot. -/
theorem Counted.sole {p : Pool} (counted : p.Counted) {slot s block : Nat}
    (unshared : p.isShared slot = false) (owned : p.owned? slot = some block)
    (other : p.owned? s = some block) : s = slot := by
  by_contra apart
  have few : ¬ 1 < p.owners slot := of_decide_eq_false unshared
  rw [counted.owners_eq owned] at few
  have inRange := lt_length_of_owned? owned
  have left := count_set_add inRange none block
  rw [show (p.slots[slot]?).join = some block from owned, if_pos rfl,
    if_neg (Option.some_ne_none block).symm] at left
  have stays : some block ∈ p.slots.set slot none := by
    refine (@mem_slots_iff { p with slots := p.slots.set slot none } _).mpr ⟨s, ?_⟩
    exact (join_set inRange none s).trans ((if_neg apart).trans other)
  have positive := List.count_pos_iff.mpr stays
  omega

/-! ### Releasing -/

section Release

variable (slot : Nat) (p : Pool)

theorem slots_release : (p.release slot).slots = p.slots.set slot none := by
  cases owned : p.owned? slot with
  | some block => simp only [release, owned]
  | none =>
      simp only [release, owned]
      by_cases inRange : slot < p.slots.length
      · have empty : p.slots[slot] = none := by
          simpa [owned?, List.getElem?_eq_getElem inRange] using owned
        rw [← empty, List.set_getElem_self]
      · rw [List.set_eq_of_length_le (Nat.le_of_not_lt inRange)]

/-- Only the block that is given up counts one owner less. -/
theorem getElem?_blocks_release (block : Nat) :
    (p.release slot).blocks[block]? = (p.blocks[block]?).map fun b =>
      if p.owned? slot = some block then { b with owners := b.owners - 1 } else b := by
  cases owned : p.owned? slot with
  | none =>
      simp only [release, owned, if_neg (Option.some_ne_none block).symm]
      exact (Option.map_id' (x := p.blocks[block]?)).symm
  | some own =>
      simp only [release, owned, List.getElem?_modify, Option.some.injEq]
      rfl

@[simp] theorem length_blocks_release : (p.release slot).blocks.length = p.blocks.length := by
  unfold release
  split
  · rfl
  · exact List.length_modify _ _ _

@[simp] theorem length_slots_release : (p.release slot).slots.length = p.slots.length := by
  rw [slots_release, List.length_set]

theorem owned?_release (s : Nat) :
    (p.release slot).owned? s = if s = slot then none else p.owned? s := by
  rw [owned?, slots_release]
  by_cases inRange : slot < p.slots.length
  · exact join_set inRange none s
  · rw [List.set_eq_of_length_le (Nat.le_of_not_lt inRange)]
    split
    · rename_i same
      rw [same, List.getElem?_eq_none (Nat.le_of_not_lt inRange)]
      rfl
    · rfl

@[simp] theorem digitsOf?_release (block : Nat) :
    (p.release slot).digitsOf? block = p.digitsOf? block := by
  unfold digitsOf?
  rw [getElem?_blocks_release]
  cases p.blocks[block]? with
  | none => rfl
  | some b =>
      simp only [Option.map_some]
      split <;> rfl

theorem shown?_release (s : Nat) :
    (p.release slot).shown? s = if s = slot then none else p.shown? s := by
  rw [shown?_eq, shown?_eq, owned?_release, funext (digitsOf?_release slot p)]
  split <;> rfl

variable {slot p}

theorem Counted.release (counted : p.Counted) (inRange : slot < p.slots.length) :
    (p.release slot).Counted := by
  constructor
  · intro s block owned
    rw [owned?_release] at owned
    split at owned
    · cases owned
    · rw [length_blocks_release]
      exact counted.placed s block owned
  · intro block b found
    rw [getElem?_blocks_release] at found
    obtain ⟨before, there, rfl⟩ := Option.map_eq_some_iff.mp found
    have count := counted.counted block before there
    have added := count_set_add inRange none block
    rw [if_neg (Option.some_ne_none block).symm] at added
    rw [slots_release, owned?]
    split
    · rename_i given
      rw [if_pos given] at added
      simp only
      omega
    · rename_i kept
      rw [if_neg kept] at added
      omega

end Release

/-! ### Placing -/

section Place

variable {slot : Nat} {p : Pool} (digits : Digits)

@[simp] theorem length_slots_place : (p.place slot digits).slots.length = p.slots.length := by
  simp [place]

variable (inRange : slot < p.slots.length)

include inRange

/-- Placed digits are in a block that no slot owned before. -/
theorem owned?_place (s : Nat) :
    (p.place slot digits).owned? s = if s = slot then some p.blocks.length else p.owned? s := by
  unfold place owned?
  rw [join_set (by simpa using inRange), length_blocks_release]
  split
  · rfl
  · rename_i other
    exact (owned?_release slot p s).trans (if_neg other)

theorem shown?_place_self : (p.place slot digits).shown? slot = some digits := by
  rw [shown?_eq, owned?_place digits inRange, if_pos rfl]
  simp [digitsOf?, place]

theorem shown?_place (counted : p.Counted) (s : Nat) :
    (p.place slot digits).shown? s = if s = slot then some digits else p.shown? s := by
  by_cases same : s = slot
  · rw [if_pos same, same, shown?_place_self digits inRange]
  · rw [if_neg same, shown?_eq, owned?_place digits inRange, if_neg same, shown?_eq]
    cases owned : p.owned? s with
    | none => rfl
    | some block =>
        have placed := counted.placed s block owned
        have kept := digitsOf?_release slot p block
        simp only [Option.bind_some, digitsOf?, place] at kept ⊢
        rw [List.getElem?_append_left (by simpa using placed), kept]

theorem Counted.place (counted : p.Counted) : (p.place slot digits).Counted := by
  have released := counted.release inRange
  constructor
  · intro s block owned
    rw [owned?_place digits inRange] at owned
    rw [show (p.place slot digits).blocks.length = p.blocks.length + 1 by simp [Pool.place]]
    split at owned
    · obtain rfl := Option.some.inj owned
      exact Nat.lt_succ_self _
    · exact Nat.lt_succ_of_lt (counted.placed s block owned)
  · intro block b found
    have free : ((p.release slot).slots[slot]?).join = none :=
      (owned?_release slot p slot).trans (if_pos rfl)
    have added := count_set_add (by simpa using inRange : slot < (p.release slot).slots.length)
      (some (p.release slot).blocks.length) block
    rw [free, if_neg (Option.some_ne_none block).symm] at added
    simp only [Pool.place, Option.some.injEq] at found added ⊢
    rw [List.getElem?_append] at found
    split at found
    · rename_i old
      have count := released.counted block b found
      rw [if_neg (by omega)] at added
      omega
    · rename_i new
      obtain ⟨first, same⟩ := List.getElem?_eq_some_iff.mp found
      have here : (p.release slot).blocks.length = block := by
        have : block - (p.release slot).blocks.length < 1 := first
        omega
      subst here
      -- No slot owned the block before it was there.
      have unused : (p.release slot).slots.count (some (p.release slot).blocks.length) = 0 := by
        refine List.count_eq_zero.mpr fun mem => ?_
        obtain ⟨s, owned⟩ := mem_slots_iff.mp mem
        exact Nat.lt_irrefl _ (released.placed s _ owned)
      simp only [Nat.sub_self, List.getElem_singleton] at same
      rw [unused, if_pos rfl] at added
      rw [← same]
      exact added.symm

end Place

/-! ### Sharing -/

section Share

variable {source target own : Nat} {p : Pool}

/-- A pool in which a block counts one owner more than it has. -/
def joined (own : Nat) (p : Pool) : Pool :=
  { p with blocks := p.blocks.modify own fun b => { b with owners := b.owners + 1 } }

@[simp] theorem digitsOf?_joined (block : Nat) :
    (p.joined own).digitsOf? block = p.digitsOf? block := by
  simp only [digitsOf?, joined, List.getElem?_modify]
  cases p.blocks[block]? with
  | none => rfl
  | some b =>
      simp only [Option.map_eq_map, Option.map_some]
      split <;> rfl

variable (owned : p.owned? source = some own) (inRange : target < p.slots.length)

include owned inRange

theorem share_eq :
    p.share source target =
      { (p.joined own).release target with
        slots := ((p.joined own).release target).slots.set target (some own) } := by
  simp only [share, owned, if_pos inRange, joined]

theorem slots_share : (p.share source target).slots = p.slots.set target (some own) := by
  rw [share_eq owned inRange]
  simp only [slots_release, List.set_set]
  rfl

theorem owned?_share (s : Nat) :
    (p.share source target).owned? s = if s = target then some own else p.owned? s := by
  rw [owned?, slots_share owned inRange]
  exact join_set inRange (some own) s

theorem digitsOf?_share (block : Nat) :
    (p.share source target).digitsOf? block = p.digitsOf? block := by
  rw [share_eq owned inRange]
  exact (digitsOf?_release target (p.joined own) block).trans (digitsOf?_joined block)

/-- The target shows what the source does. -/
theorem shown?_share (s : Nat) :
    (p.share source target).shown? s = if s = target then p.shown? source else p.shown? s := by
  rw [shown?_eq, owned?_share owned inRange, funext (digitsOf?_share owned inRange)]
  split
  · rw [shown?_eq, owned]
  · rw [shown?_eq]

theorem Counted.share (counted : p.Counted) : (p.share source target).Counted := by
  constructor
  · intro s block here
    have same : (p.share source target).blocks.length = p.blocks.length := by
      rw [share_eq owned inRange]
      simp [joined]
    rw [same]
    rw [owned?_share owned inRange] at here
    split at here
    · obtain rfl := Option.some.inj here
      exact counted.placed source _ owned
    · exact counted.placed s block here
  · intro block b found
    have added := count_set_add inRange (some own) block
    rw [slots_share owned inRange]
    rw [share_eq owned inRange] at found
    simp only [getElem?_blocks_release, joined, List.getElem?_modify] at found
    obtain ⟨more, there, rfl⟩ := Option.map_eq_some_iff.mp found
    obtain ⟨before, first, rfl⟩ := Option.map_eq_some_iff.mp there
    have count := counted.counted block before first
    simp only [Option.some.injEq, owned?] at added ⊢
    by_cases given : (p.slots[target]?).join = some block
    · by_cases gains : own = block
      · simp only [given, gains, if_true] at added ⊢
        omega
      · simp only [given, gains, if_true, if_false] at added ⊢
        omega
    · by_cases gains : own = block
      · simp only [given, gains, if_true, if_false] at added ⊢
        omega
      · simp only [given, gains, if_false] at added ⊢
        omega

end Share

/-! ### Exchanging -/

/-- The slot that takes part in an exchange in the place of another. -/
def exchanged (s t slot : Nat) : Nat := if slot = s then t else if slot = t then s else slot

section Exchange

variable {s t : Nat} {p : Pool} (inRange : s < p.slots.length ∧ t < p.slots.length)

include inRange

theorem slots_exchange :
    (p.exchange s t).slots = (p.slots.set s (p.owned? t)).set t (p.owned? s) := by
  simp only [exchange, if_pos inRange]

theorem blocks_exchange : (p.exchange s t).blocks = p.blocks := by
  simp only [exchange, if_pos inRange]

theorem owned?_exchange (slot : Nat) :
    (p.exchange s t).owned? slot = p.owned? (exchanged s t slot) := by
  rw [owned?, slots_exchange inRange, join_set (by simpa using inRange.2), join_set inRange.1]
  unfold exchanged
  by_cases left : slot = s <;> by_cases right : slot = t <;> simp_all [owned?]

theorem shown?_exchange (slot : Nat) :
    (p.exchange s t).shown? slot = p.shown? (exchanged s t slot) := by
  have same : (p.exchange s t).digitsOf? = p.digitsOf? := by
    funext block
    rw [digitsOf?, blocks_exchange inRange, digitsOf?]
  rw [shown?_eq, owned?_exchange inRange, same, shown?_eq]

theorem Counted.exchange (counted : p.Counted) : (p.exchange s t).Counted := by
  constructor
  · intro slot block owned
    rw [owned?_exchange inRange] at owned
    rw [blocks_exchange inRange]
    exact counted.placed _ block owned
  · intro block b found
    rw [blocks_exchange inRange] at found
    rw [counted.counted block b found, slots_exchange inRange]
    have first : (p.slots.set s (p.owned? t)).count (some block) +
          (if p.owned? s = some block then 1 else 0) =
        p.slots.count (some block) + (if p.owned? t = some block then 1 else 0) :=
      count_set_add inRange.1 (p.owned? t) block
    have second := count_set_add
      (show t < (p.slots.set s (p.owned? t)).length by simpa using inRange.2) (p.owned? s) block
    have there : ((p.slots.set s (p.owned? t))[t]?).join = p.owned? t := by
      rw [join_set inRange.1]
      split <;> rfl
    rw [there] at second
    omega

end Exchange

/-! ### Writing -/

section Overwrite

variable {slot : Nat} {p : Pool} (f : Digits → Digits)

theorem slots_overwrite : (p.overwrite slot f).slots = p.slots := by
  unfold overwrite
  split <;> rfl

theorem owned?_overwrite (s : Nat) : (p.overwrite slot f).owned? s = p.owned? s := by
  rw [owned?, slots_overwrite, owned?]

theorem getElem?_blocks_overwrite {own : Nat} (owned : p.owned? slot = some own) (block : Nat) :
    (p.overwrite slot f).blocks[block]? = (p.blocks[block]?).map fun b =>
      if own = block then { b with digits := f b.digits } else b := by
  simp only [overwrite, owned, List.getElem?_modify]
  rfl

theorem shown?_overwrite_self {digits : Digits} (shown : p.shown? slot = some digits) :
    (p.overwrite slot f).shown? slot = some (f digits) := by
  obtain ⟨own, owned⟩ := owned?_of_shown? shown
  rw [shown?_eq, owned, Option.bind_some, digitsOf?] at shown
  obtain ⟨b, there, rfl⟩ := Option.map_eq_some_iff.mp shown
  rw [shown?_eq, owned?_overwrite, owned, Option.bind_some, digitsOf?,
    getElem?_blocks_overwrite f owned, there]
  simp

/-- Writing to a block with a single owner shows in no other slot. -/
theorem shown?_overwrite (counted : p.Counted) (unshared : p.isShared slot = false)
    {digits : Digits} (shown : p.shown? slot = some digits) (s : Nat) :
    (p.overwrite slot f).shown? s = if s = slot then some (f digits) else p.shown? s := by
  by_cases same : s = slot
  · rw [if_pos same, same, shown?_overwrite_self f shown]
  · obtain ⟨own, owned⟩ := owned?_of_shown? shown
    rw [if_neg same, shown?_eq, owned?_overwrite, shown?_eq]
    cases other : p.owned? s with
    | none => rfl
    | some block =>
        have apart : own ≠ block := by
          rintro rfl
          exact same (counted.sole unshared owned other)
        simp only [Option.bind_some, digitsOf?, getElem?_blocks_overwrite f owned]
        cases p.blocks[block]? <;> simp [apart]

theorem Counted.overwrite (counted : p.Counted) : (p.overwrite slot f).Counted := by
  constructor
  · intro s block owned
    rw [owned?_overwrite] at owned
    have same : (p.overwrite slot f).blocks.length = p.blocks.length := by
      unfold Pool.overwrite
      split
      · rfl
      · exact List.length_modify _ _ _
    rw [same]
    exact counted.placed s block owned
  · intro block b found
    rw [slots_overwrite]
    cases owned : p.owned? slot with
    | none =>
        simp only [Pool.overwrite, owned] at found
        exact counted.counted block b found
    | some own =>
        rw [getElem?_blocks_overwrite f owned] at found
        obtain ⟨before, there, rfl⟩ := Option.map_eq_some_iff.mp found
        have count := counted.counted block before there
        split
        · exact count
        · exact count

end Overwrite

end Bignum.Pool
