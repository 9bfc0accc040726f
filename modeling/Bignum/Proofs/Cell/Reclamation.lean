import Bignum.Proofs.Cell.Moves
import Mathlib.Data.List.Nodup
import Mathlib.Data.List.Perm.Basic

/-!
What a cell frees, it frees once and after its last use.

* `Cell.Accounted`: every version that is not current any more waits in the queue or has been
  freed, once and not both, and the counters say how many of each there are.
* `Cell.Covers`: every operation in progress has a slot to itself, in which it announces a version
  that has not been freed.

Both are kept by every move of a run (`Point.Sound.after`), so they hold whenever a program or a
closure has control (`versions_reclaimed_once`). It is the slot that keeps a version from being
freed, so a scan must see it (`Cell.mem_freed_retire`); and it is the queue that keeps a version
from being freed twice, so what a scan does not free must go back (`Cell.timesRetired_scan`).
-/

namespace Bignum

namespace Cell

/-- Let a replaced version wait, without a scan. -/
def enqueue (replaced : Version) (c : Cell) : Cell :=
  { c with
    queue := c.queue ++ [replaced]
    pending := c.pending + 1
    counters := { c.counters with retired := c.counters.retired + 1 } }

theorem retire_eq (replaced : Version) (c : Cell) :
    c.retire replaced =
      if c.settings.reclaimThreshold ≤ (c.enqueue replaced).pending then (c.enqueue replaced).scan
      else c.enqueue replaced := rfl

/-! ### Every version in one place -/

/-- How often a cell has a version waiting or freed. -/
def timesRetired (c : Cell) (number : Nat) : Nat :=
  (c.queue.map (·.number)).count number + c.freed.count number

/-- The counters agree with the queue. -/
structure Counted (c : Cell) : Prop where
  pending : c.pending = c.queue.length
  retired : c.counters.retired = c.counters.reclaimed + c.queue.length

/-- The accounts of a cell. The versions that were replaced are those that were published and are
not current; each of them waits or has been freed, and no other does. -/
structure Accounted (c : Cell) : Prop where
  numbered : c.current.number < c.nextNumber
  once : ∀ n < c.nextNumber, n ≠ c.current.number → c.timesRetired n = 1
  never : ∀ n, n = c.current.number ∨ c.nextNumber ≤ n → c.timesRetired n = 0
  counted : c.Counted

section Steps

variable {c : Cell} (replaced : Version)

theorem timesRetired_scan (c : Cell) (n : Nat) : c.scan.timesRetired n = c.timesRetired n := by
  have sorted := ((List.filter_append_perm (fun v : Version => c.announced.contains v.number)
    c.queue).map (·.number)).count_eq n
  simp only [List.map_append, List.count_append] at sorted
  simp only [timesRetired, scan, List.count_append]
  omega

/-- Retiring a version adds it to those that wait or have been freed. -/
theorem timesRetired_retire (c : Cell) (n : Nat) :
    (c.retire replaced).timesRetired n =
      c.timesRetired n + if replaced.number = n then 1 else 0 := by
  have waiting : (c.enqueue replaced).timesRetired n =
      c.timesRetired n + if replaced.number = n then 1 else 0 := by
    simp only [timesRetired, enqueue, List.map_append, List.count_append, List.map_cons,
      List.map_nil, List.count_singleton, beq_iff_eq]
    omega
  rw [retire_eq]
  split
  · rw [timesRetired_scan, waiting]
  · exact waiting

theorem Counted.enqueue (counted : c.Counted) : (c.enqueue replaced).Counted where
  pending := by simp [Cell.enqueue, counted.pending]
  retired := by simp [Cell.enqueue, counted.retired, Nat.add_assoc]

theorem Counted.scan (counted : c.Counted) : c.scan.Counted := by
  have sorted : c.queue.length = _ :=
    List.length_eq_length_filter_add fun v : Version => c.announced.contains v.number
  obtain ⟨pending, retired⟩ := counted
  constructor
  · simp only [Cell.scan]
    omega
  · simp only [Cell.scan]
    omega

theorem Counted.retire (counted : c.Counted) : (c.retire replaced).Counted := by
  rw [retire_eq]
  split
  · exact (counted.enqueue replaced).scan
  · exact counted.enqueue replaced

end Steps

namespace Accounted

variable {c : Cell}

theorem create (settings : CellSettings) (value : Integer) :
    (create settings value).Accounted where
  numbered := Nat.zero_lt_one
  once := fun _ bound other => absurd (Nat.lt_one_iff.mp bound) other
  never := fun _ _ => rfl
  counted := ⟨rfl, rfl⟩

/-- The current version does not wait and is not freed. -/
theorem current_kept (accounted : c.Accounted) :
    (∀ v ∈ c.queue, v.number ≠ c.current.number) ∧ c.current.number ∉ c.freed := by
  obtain ⟨waiting, freed⟩ := Nat.add_eq_zero_iff.mp (accounted.never _ (.inl rfl))
  refine ⟨fun v mem same => ?_, List.count_eq_zero.mp freed⟩
  exact List.count_eq_zero.mp waiting (same ▸ List.mem_map_of_mem mem)

theorem acquire (accounted : c.Accounted) : c.acquire.2.Accounted := by
  unfold Cell.acquire
  split
  · exact ⟨accounted.numbered, accounted.once, accounted.never, accounted.counted.pending,
    accounted.counted.retired⟩
  · exact ⟨accounted.numbered, accounted.once, accounted.never, accounted.counted.pending,
    accounted.counted.retired⟩

/-- Slots and the counts that do not concern retiring may change. -/
theorem congr (accounted : c.Accounted) (slots : List HazardSlot) (loads attempts failures : Nat)
    (log : List CellEvent) :
    { c with
      slots := slots
      counters := { c.counters with
        loads := loads, casAttempts := attempts, casFailures := failures }
      log := log : Cell }.Accounted :=
  ⟨accounted.numbered, accounted.once, accounted.never, accounted.counted.pending,
    accounted.counted.retired⟩

/-- A value is published, and the version before it is retired. -/
theorem replace (accounted : c.Accounted) {replaced : Version}
    (same : replaced.number = c.current.number) (value : Integer) :
    ((c.publish value).retire replaced).Accounted := by
  have current : ((c.publish value).retire replaced).current.number = c.nextNumber := by simp
  have next : ((c.publish value).retire replaced).nextNumber = c.nextNumber + 1 := by simp
  have numbered := accounted.numbered
  have times (n : Nat) : ((c.publish value).retire replaced).timesRetired n =
      c.timesRetired n + if c.current.number = n then 1 else 0 := by
    rw [timesRetired_retire, same]
    rfl
  refine ⟨by omega, ?_, ?_, Counted.retire replaced ⟨accounted.counted.pending,
    accounted.counted.retired⟩⟩
  · intro n bound other
    rw [times]
    by_cases was : c.current.number = n
    · rw [if_pos was, accounted.never n (.inl was.symm)]
    · rw [if_neg was, accounted.once n (by omega) (Ne.symm was)]
  · intro n unpublished
    rw [times, if_neg (by omega), accounted.never n (by omega)]

/-- The end of an attempt publishes a value, or changes nothing but slots and counts. -/
theorem conclude (accounted : c.Accounted) (slot attempt : Nat) (observed : Version)
    (verdict : Verdict) : (c.conclude slot attempt observed verdict).2.Accounted := by
  cases verdict with
  | decline => exact accounted.congr _ _ _ _ _
  | fail cause => exact accounted.congr _ _ _ _ _
  | install value =>
      by_cases same : c.current.number = observed.number
      · simp only [Cell.conclude, Cell.compareSwap, same, if_true]
        have given := accounted.congr (c.slots.set slot .idle) c.counters.loads
          (c.counters.casAttempts + 1) c.counters.casFailures c.log
        exact given.replace same.symm value
      · simp only [Cell.conclude, Cell.compareSwap, same, if_false]
        exact accounted.congr _ _ _ _ _

theorem timesRetired_le (accounted : c.Accounted) (n : Nat) : c.timesRetired n ≤ 1 := by
  by_cases replaced : n < c.nextNumber ∧ n ≠ c.current.number
  · exact Nat.le_of_eq (accounted.once n replaced.1 replaced.2)
  · exact Nat.le_trans (Nat.le_of_eq (accounted.never n (by omega))) (Nat.zero_le 1)

/-- No version waits twice. -/
theorem queue_nodup (accounted : c.Accounted) : (c.queue.map (·.number)).Nodup :=
  List.nodup_iff_count_le_one.mpr fun n =>
    Nat.le_trans (Nat.le_add_right _ _) (accounted.timesRetired_le n)

/-- Fewer versions wait than have been published. -/
theorem pending_lt (accounted : c.Accounted) : c.pending < c.nextNumber := by
  have apart : (c.current.number :: c.queue.map (·.number)).Nodup := by
    refine List.nodup_cons.mpr ⟨fun mem => ?_, accounted.queue_nodup⟩
    obtain ⟨v, mem, same⟩ := List.mem_map.mp mem
    exact accounted.current_kept.1 v mem same
  have published : c.current.number :: c.queue.map (·.number) ⊆ List.range c.nextNumber := by
    intro n mem
    rcases List.mem_cons.mp mem with rfl | mem
    · exact List.mem_range.mpr accounted.numbered
    · refine List.mem_range.mpr (Nat.lt_of_not_le fun unpublished => ?_)
      have none := accounted.never n (.inr unpublished)
      have some := List.count_pos_iff.mpr mem
      rw [timesRetired] at none
      omega
  have bound := (List.subperm_of_subset apart published).length_le
  rwa [List.length_cons, List.length_map, List.length_range, ← accounted.counted.pending] at bound

end Accounted

/-! ### Slots and freeing -/

section Steps

variable {c : Cell} (replaced : Version)

theorem retire_slots (c : Cell) : (c.retire replaced).slots = c.slots := by
  rw [retire_eq]
  split <;> rfl

/-- **What a slot announces is not freed.** -/
theorem mem_freed_retire {n : Nat} (freed : n ∈ (c.retire replaced).freed) :
    n ∈ c.freed ∨ n ∉ c.announced := by
  rw [retire_eq] at freed
  split at freed
  · rcases List.mem_append.mp freed with before | now
    · exact .inl before
    · obtain ⟨v, mem, rfl⟩ := List.mem_map.mp now
      have unseen := (List.mem_filter.mp mem).2
      exact .inr (by simpa [Cell.enqueue, announced] using unseen)
  · exact .inl freed

end Steps

/-! ### Slots of one's own -/

section Slots

variable {c : Cell} {k slot : Nat} {s : HazardSlot}

theorem idle_of_idleSlot? (found : c.idleSlot? = some slot) :
    ∃ s, c.slots[slot]? = some s ∧ s.active = false := by
  have idle := List.find?_some found
  simpa [Option.any_eq_true] using idle

theorem acquire_freed (c : Cell) : c.acquire.2.freed = c.freed := by
  unfold acquire
  split <;> rfl

/-- A slot that is taken is none that was active before, and those stay as they are. -/
theorem acquire_slots (at_k : c.slots[k]? = some s) (active : s.active = true) :
    k ≠ c.acquire.1 ∧ c.acquire.2.slots[k]? = some s := by
  unfold acquire
  split
  · rename_i slot found
    obtain ⟨t, at_slot, idle⟩ := idle_of_idleSlot? found
    have other : k ≠ slot := by
      rintro rfl
      rw [at_k] at at_slot
      cases at_slot
      rw [active] at idle
      cases idle
    exact ⟨other, (List.getElem?_modify_ne _ _ (Ne.symm other)).trans at_k⟩
  · have bound := (List.getElem?_eq_some_iff.mp at_k).1
    exact ⟨Nat.ne_of_lt bound, by simp [List.getElem?_append_left bound, at_k]⟩

theorem acquire_active (c : Cell) :
    ∃ s, c.acquire.2.slots[c.acquire.1]? = some s ∧ s.active = true := by
  unfold acquire
  split
  · rename_i slot found
    obtain ⟨t, at_slot, -⟩ := idle_of_idleSlot? found
    exact ⟨{ t with active := true }, by simp [List.getElem?_modify_eq, at_slot], rfl⟩
  · exact ⟨{ active := true, announced := none }, by simp, rfl⟩

theorem protect_slots_ne (other : k ≠ slot) : (c.protect slot).slots[k]? = c.slots[k]? :=
  List.getElem?_modify_ne _ _ (Ne.symm other)

theorem protect_slots_self (at_slot : c.slots[slot]? = some s) :
    (c.protect slot).slots[slot]? = some { s with announced := some c.current.number } := by
  simp [protect, at_slot]

theorem release_slots_ne (other : k ≠ slot) : (c.release slot).slots[k]? = c.slots[k]? :=
  List.getElem?_set_ne (Ne.symm other)

theorem mem_announced {n : Nat} (at_k : c.slots[k]? = some s) (announces : s.announced = some n) :
    n ∈ c.announced :=
  List.mem_filterMap.mpr ⟨s, List.mem_of_getElem? at_k, announces⟩

end Slots

/-! ### Operations in progress -/

/-- The slots of the operations in progress: each has one to itself, and announces a version there
that has been published and not freed. -/
structure Covers (c : Cell) (held : List Guard) : Prop where
  apart : (held.map (·.slot)).Nodup
  announced : ∀ g ∈ held, c.slots[g.slot]? = some { active := true, announced := g.version.number }
  kept : ∀ g ∈ held, g.version.number < c.nextNumber ∧ g.version.number ∉ c.freed

namespace Covers

variable {c d : Cell} {held outer : List Guard} {g : Guard} {slot attempt : Nat}

/-- Other slots than those that are held do not matter. -/
theorem congr (covers : c.Covers held)
    (slots : ∀ g ∈ held, ∀ s, c.slots[g.slot]? = some s → d.slots[g.slot]? = some s)
    (nextNumber : c.nextNumber ≤ d.nextNumber)
    (freed : ∀ n ∈ c.announced, n ∈ d.freed → n ∈ c.freed) : d.Covers held where
  apart := covers.apart
  announced := fun g mem => slots g mem _ (covers.announced g mem)
  kept := by
    intro g mem
    obtain ⟨numbered, unfreed⟩ := covers.kept g mem
    refine ⟨Nat.lt_of_lt_of_le numbered nextNumber, fun now => unfreed (freed _ ?_ now)⟩
    exact mem_announced (covers.announced g mem) rfl

theorem nobody (c : Cell) : c.Covers [] :=
  ⟨List.nodup_nil, fun _ mem => (List.not_mem_nil mem).elim,
    fun _ mem => (List.not_mem_nil mem).elim⟩

theorem publish (covers : c.Covers held) (value : Integer) : (c.publish value).Covers held :=
  covers.congr (fun _ _ _ at_g => at_g) (Nat.le_succ _) (fun _ _ freed => freed)

/-- Counts and the log do not matter. -/
theorem count (covers : c.Covers held) (counters : CellCounters) (log : List CellEvent) :
    { c with counters := counters, log := log : Cell }.Covers held :=
  ⟨covers.apart, covers.announced, covers.kept⟩

/-- The slot of the innermost operation is none of the others'. -/
theorem other (covers : c.Covers (g :: outer)) {h : Guard} (mem : h ∈ outer) : h.slot ≠ g.slot := by
  intro same
  exact (List.nodup_cons.mp covers.apart).1 (List.mem_map.mpr ⟨h, mem, same⟩)

theorem tail (covers : c.Covers (g :: outer)) : c.Covers outer where
  apart := (List.nodup_cons.mp covers.apart).2
  announced := fun h mem => covers.announced h (List.mem_cons_of_mem _ mem)
  kept := fun h mem => covers.kept h (List.mem_cons_of_mem _ mem)

/-- Giving back the slot of the innermost operation leaves the others theirs. -/
theorem release (covers : c.Covers (g :: outer)) : (c.release g.slot).Covers outer :=
  covers.tail.congr
    (fun _ mem _ at_h => (release_slots_ne (covers.other mem)).trans at_h)
    (Nat.le_refl _) (fun _ _ freed => freed)

theorem retire (covers : c.Covers held) (replaced : Version) : (c.retire replaced).Covers held := by
  refine covers.congr ?_ ?_ ?_
  · intro g _ s at_g
    rw [retire_slots]
    exact at_g
  · exact Nat.le_of_eq (retire_nextNumber replaced c).symm
  · intro n announced freed
    rcases mem_freed_retire replaced freed with before | unseen
    · exact before
    · exact absurd announced unseen

/-- An operation that holds an active slot of its own may announce the current version there. -/
theorem protect (covers : c.Covers held) {s : HazardSlot} (at_slot : c.slots[slot]? = some s)
    (active : s.active = true) (own : ∀ g ∈ held, g.slot ≠ slot) (live : c.current.number ∉ c.freed)
    (numbered : c.current.number < c.nextNumber) :
    (c.protect slot).Covers ({ slot, attempt, version := c.current } :: held) := by
  have others : (c.protect slot).Covers held :=
    covers.congr (fun g mem s at_g => (protect_slots_ne (own g mem)).trans at_g) (Nat.le_refl _)
      (fun _ _ freed => freed)
  refine ⟨List.nodup_cons.mpr ⟨?_, others.apart⟩, ?_, ?_⟩
  · intro mem
    obtain ⟨g, mem, same⟩ := List.mem_map.mp mem
    exact own g mem same
  · intro g mem
    rcases List.mem_cons.mp mem with rfl | mem
    · rw [protect_slots_self at_slot, active]
    · exact others.announced g mem
  · intro g mem
    rcases List.mem_cons.mp mem with rfl | mem
    · exact ⟨numbered, live⟩
    · exact others.kept g mem

end Covers

end Cell

/-! ### Points -/

/-- The accounts are in order, and every operation in progress is covered. -/
structure Point.Sound (p : Point) : Prop where
  accounted : p.cell.Accounted
  covers : p.cell.Covers p.held

namespace Point

theorem sound_start (settings : CellSettings) (value : Integer) : (start settings value).Sound where
  accounted := .create settings value
  covers := .nobody _

namespace Sound

variable {c : Cell} {held : List Guard} {slot : Nat}

/-- An operation that holds an active slot of its own announces the current version. -/
theorem announce (accounted : c.Accounted) (covers : c.Covers held) (attempt : Nat)
    {s : HazardSlot} (at_slot : c.slots[slot]? = some s) (active : s.active = true)
    (own : ∀ g ∈ held, g.slot ≠ slot) : (Point.announce slot attempt c held).Sound where
  accounted := accounted.congr _ _ _ _ _
  covers := covers.protect at_slot active own accounted.current_kept.2 accounted.numbered

theorem enter (accounted : c.Accounted) (covers : c.Covers held) :
    (Point.after ⟨c, held⟩ .enter).Sound := by
  obtain ⟨s, at_slot, active⟩ := c.acquire_active
  have taken : c.acquire.2.Covers held := by
    refine covers.congr ?_ (Nat.le_of_eq c.acquire_nextNumber.symm) ?_
    · intro g mem s at_g
      rw [covers.announced g mem] at at_g
      obtain rfl := Option.some.inj at_g
      exact (Cell.acquire_slots (covers.announced g mem) rfl).2
    · intro n _ freed
      rwa [Cell.acquire_freed] at freed
  refine announce accounted.acquire taken 0 at_slot active ?_
  intro g mem
  exact (Cell.acquire_slots (covers.announced g mem) rfl).1

/-- An update that installs a value has given its slot back when the version that it replaced is
retired. One that loses a race keeps its slot, and announces the version that won. -/
theorem conclude {g : Guard} (accounted : c.Accounted) (covers : c.Covers (g :: held))
    (verdict : Verdict) : (Point.after ⟨c, g :: held⟩ (.conclude verdict)).Sound := by
  have kept := accounted.conclude g.slot g.attempt g.version verdict
  cases verdict with
  | decline => exact ⟨kept, covers.release⟩
  | fail cause => exact ⟨kept, covers.release⟩
  | install value =>
      by_cases same : c.current.number = g.version.number
      · simp only [Cell.conclude, Cell.compareSwap, same, if_true] at kept
        simp only [Point.after, Cell.conclude, Cell.compareSwap, same, if_true]
        exact ⟨kept, ((covers.count _ _).publish value).release.retire _⟩
      · simp only [Cell.conclude, Cell.compareSwap, same, if_false] at kept
        simp only [Point.after, Cell.conclude, Cell.compareSwap, same, if_false]
        refine announce kept (covers.tail.count _ _) _
          (covers.announced g List.mem_cons_self) rfl ?_
        intro h mem
        exact covers.other mem

/-- **Every move keeps the accounts and covers the operations in progress.** -/
theorem after (p : Point) (move : Move) (sound : p.Sound) : (p.after move).Sound := by
  obtain ⟨c, held⟩ := p
  obtain ⟨accounted, covers⟩ := sound
  cases move with
  | enter => exact enter accounted covers
  | replace value => exact ⟨accounted.replace rfl value, (covers.publish value).retire _⟩
  | leave =>
      cases held with
      | nil => exact ⟨accounted, covers⟩
      | cons g outer => exact ⟨accounted.congr _ _ _ _ _, covers.release.count _ _⟩
  | conclude verdict =>
      cases held with
      | nil => exact ⟨accounted, covers⟩
      | cons g outer => exact conclude accounted covers verdict

end Sound

end Point

/-! ### Runs -/

/-- The accounts are in order after a program if they were so before it. -/
theorem Body.accounted (program : Body) {c : Cell} (accounted : c.Accounted) :
    (program.run c).cell.Accounted := by
  have sound := Point.afterAll_keeps (p := ⟨c, []⟩) Point.Sound.after ⟨accounted, .nobody c⟩
    (program.moves c)
  rw [program.moves_lead] at sound
  exact sound.accounted

theorem CellOp.accounted (op : CellOp) {c : Cell} (accounted : c.Accounted) :
    (op.run c).2.Accounted :=
  (Body.perform op fun _ => .finish .decline).accounted accounted

/-- Addresses for the versions of a cell: no two that have not been freed have the same one. The
address of a freed version may be used again. -/
def Cell.Addressed (c : Cell) (address : Nat → Nat) : Prop :=
  ∀ m < c.nextNumber, ∀ n < c.nextNumber, m ∉ c.freed → n ∉ c.freed →
    address m = address n → m = n

theorem Cell.Covers.same_address {c : Cell} {held : List Guard} (covers : c.Covers held)
    (accounted : c.Accounted) {g : Guard} (mem : g ∈ held) {address : Nat → Nat}
    (addressed : c.Addressed address) :
    address c.current.number = address g.version.number ↔
      c.current.number = g.version.number := by
  obtain ⟨numbered, unfreed⟩ := covers.kept g mem
  constructor
  · exact addressed _ accounted.numbered _ numbered accounted.current_kept.2 unfreed
  · exact congrArg address

/-- **A cell frees no version in use and loses none.** Take any settings, any value and any
program, with closures that operate on the cell to any depth, and any point of its run. The current
version neither waits nor is freed. Every version that was current before and is not now waits or
has been freed, once, and nothing else has. The version that an operation in progress announces has
not been freed, so that its address is that of the current version only if it is the current
version. And the counters say how many versions wait. -/
theorem versions_reclaimed_once (settings : CellSettings) (value : Integer) (program : Body)
    (past : List Move) (reached : past <+: program.moves (Cell.create settings value)) :
    let c := ((Point.start settings value).afterAll past).cell
    (∀ v ∈ c.queue, v.number ≠ c.current.number) ∧ c.current.number ∉ c.freed ∧
      (∀ earlier, earlier <+: past →
        let replaced := ((Point.start settings value).afterAll earlier).cell.current
        replaced.number ≠ c.current.number →
          (c.queue.map (·.number)).count replaced.number + c.freed.count replaced.number = 1) ∧
      (∀ n, (c.queue.map (·.number)).count n + c.freed.count n ≤ 1) ∧
      (∀ g ∈ ((Point.start settings value).afterAll past).held,
        c.slots[g.slot]? = some { active := true, announced := some g.version.number } ∧
          g.version.number ∉ c.freed ∧
          ∀ address, c.Addressed address →
            (address c.current.number = address g.version.number ↔
              c.current.number = g.version.number)) ∧
      c.pending = c.queue.length ∧ c.counters.reclaimed ≤ c.counters.retired ∧
      c.pending = c.counters.retired - c.counters.reclaimed := by
  intro c
  have sound (moves : List Move) : ((Point.start settings value).afterAll moves).Sound :=
    Point.afterAll_keeps Point.Sound.after (Point.sound_start settings value) moves
  obtain ⟨(accounted : c.Accounted), (covers : c.Covers _)⟩ := sound past
  obtain ⟨waiting, unfreed⟩ := accounted.current_kept
  obtain ⟨pending, retired⟩ := accounted.counted
  refine ⟨waiting, unfreed, ?_, ?_, ?_, pending, ?_, ?_⟩
  · rintro earlier ⟨later, rfl⟩ replaced other
    have grows := ((Point.start settings value).afterAll earlier).afterAll_nextNumber later
    rw [← Point.afterAll_append] at grows
    have numbered : replaced.number < c.nextNumber :=
      Nat.lt_of_lt_of_le (sound earlier).accounted.numbered grows
    exact accounted.once _ numbered other
  · exact accounted.timesRetired_le
  · intro g mem
    exact ⟨covers.announced g mem, (covers.kept g mem).2,
      fun address addressed => covers.same_address accounted mem addressed⟩
  · omega
  · omega

/-- A store inside a closure call retires the version that the update has announced. The scan that
follows puts it back. -/
theorem versions_reclaimed_once_nested :
    let settings : CellSettings := { reclaimThreshold := 1, initialSlots := 1, warnRetries := 1 }
    let body : Body := .perform (.replace .one) fun _ => .finish (.install .one)
    let closure : Closure := .call (fun _ => body) (.settle fun _ => .install .minusOne)
    let program : Body := .perform (.update closure) fun _ => .finish .decline
    let past : List Move := [.enter, .replace .one]
    let p := (Point.start settings .zero).afterAll past
    past <+: program.moves (Cell.create settings .zero) ∧
      p.held = [{ slot := 0, attempt := 0, version := { number := 0, value := .zero } }] ∧
      0 ∉ p.cell.freed ∧
      (p.cell.queue.map (·.number)).count 0 + p.cell.freed.count 0 = 1 := by
  intro settings body closure program past p
  have reached : past <+: program.moves (Cell.create settings .zero) := by decide
  obtain ⟨-, -, replaced, -, held, -⟩ :=
    versions_reclaimed_once settings .zero program past reached
  refine ⟨reached, by decide, ?_, ?_⟩
  · exact (held { slot := 0, attempt := 0, version := ⟨0, .zero⟩ } (by decide)).2.1
  · exact replaced [] List.nil_prefix (by decide)

end Bignum
