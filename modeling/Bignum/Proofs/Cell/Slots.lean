import Bignum.Proofs.Cell.Counting

/-!
Who holds the hazard slots of a cell, and how many of them there are.

The operations in progress have a slot each (`Cell.Covers`), and all other slots are idle
(`Cell.Spare`). So a slot is idle unless somebody holds it, and a new one is registered only where
there are as many operations in progress as slots: one more operation makes one more slot. The
number of slots is the largest number of operations that were in progress at once, or the number
that the cell was made with if that is larger (`Point.length_slots_after`).

* `slots_returned`: all of this at every point of a run; and where no operation is in progress,
  every slot is idle, whichever way the operations have ended.
-/

namespace Bignum

namespace Cell

/-- A slot that no operation in progress holds is idle. -/
def Spare (c : Cell) (held : List Guard) : Prop :=
  ∀ k s, c.slots[k]? = some s → k ∉ held.map (·.slot) → s = .idle

variable {c d : Cell} {held outer : List Guard} {g h : Guard}

/-! ### Taking a slot -/

theorem active_of_idleSlot? (none : c.idleSlot? = none) : ∀ s ∈ c.slots, s.active = true := by
  intro s mem
  obtain ⟨k, bound, at_k⟩ := List.mem_iff_getElem.mp mem
  have busy := List.find?_eq_none.mp none k (List.mem_reverse.mpr (List.mem_range.mpr bound))
  simpa [bound, at_k] using busy

/-- Either a slot is taken that was idle, or all were active and one is added. -/
theorem acquire_length_cases (c : Cell) :
    c.acquire.2.slots.length = c.slots.length ∨
      (∀ s ∈ c.slots, s.active = true) ∧ c.acquire.2.slots.length = c.slots.length + 1 := by
  unfold acquire
  split
  · exact .inl (List.length_modify _ _ _)
  · rename_i none
    exact .inr ⟨active_of_idleSlot? none, List.length_append⟩

/-- Taking a slot leaves the other ones as they are. -/
theorem acquire_slots_ne {k : Nat} (other : k ≠ c.acquire.1) :
    c.acquire.2.slots[k]? = c.slots[k]? := by
  unfold acquire at other ⊢
  split at other
  · exact List.getElem?_modify_ne _ _ (Ne.symm other)
  · rcases Nat.lt_or_gt_of_ne other with before | behind
    · exact List.getElem?_append_left before
    · rw [List.getElem?_eq_none (Nat.le_of_lt behind), List.getElem?_eq_none]
      rw [List.length_append]
      exact behind

/-! ### Idle slots -/

namespace Spare

/-- Only the slots matter. -/
theorem congr (spare : c.Spare held) (same : d.slots = c.slots) : d.Spare held := fun k s at_k =>
  spare k s (same ▸ at_k)

theorem create (settings : CellSettings) (value : Integer) : (create settings value).Spare [] :=
  fun _ _ at_k _ => List.eq_of_mem_replicate (List.mem_of_getElem? at_k)

/-- Somebody holds a slot that is not idle. -/
theorem held_of_ne_idle (spare : c.Spare held) {k : Nat} {s : HazardSlot}
    (at_k : c.slots[k]? = some s) (busy : s ≠ .idle) : k ∈ held.map (·.slot) :=
  Decidable.of_not_not fun free => busy (spare k s at_k free)

/-- An operation begins. -/
theorem enter (spare : c.Spare held) (attempt : Nat) (version : Version) :
    (c.acquire.2.protect c.acquire.1).Spare
      ({ slot := c.acquire.1, attempt, version } :: held) := by
  intro k s at_k free
  obtain ⟨other, free⟩ := not_or.mp fun mem => free (List.mem_cons.mpr mem)
  rw [protect_slots_ne other, acquire_slots_ne other] at at_k
  exact spare k s at_k free

/-- An operation announces another version in its slot. -/
theorem protect (spare : c.Spare (g :: outer)) (same : h.slot = g.slot) :
    (c.protect g.slot).Spare (h :: outer) := by
  intro k s at_k free
  rw [List.map_cons, same] at free
  rw [protect_slots_ne (List.ne_of_not_mem_cons free)] at at_k
  exact spare k s at_k free

/-- An operation gives its slot back. -/
theorem release (spare : c.Spare (g :: outer)) : (c.release g.slot).Spare outer := by
  intro k s at_k free
  by_cases own : k = g.slot
  · subst own
    have bound := (List.getElem?_eq_some_iff.mp at_k).1
    rw [release_length] at bound
    rw [Cell.release, List.getElem?_set_self bound] at at_k
    exact (Option.some.inj at_k).symm
  · rw [release_slots_ne own] at at_k
    refine spare k s at_k fun mem => ?_
    rcases List.mem_cons.mp mem with same | mem
    · exact own same
    · exact free mem

/-- Where all slots are active, all are held. -/
theorem length_le (spare : c.Spare held) (active : ∀ s ∈ c.slots, s.active = true) :
    c.slots.length ≤ held.length := by
  have taken : List.range c.slots.length ⊆ held.map (·.slot) := by
    intro k mem
    have at_k := List.getElem?_eq_getElem (List.mem_range.mp mem)
    refine spare.held_of_ne_idle at_k fun idle => ?_
    have busy := active _ (List.mem_of_getElem? at_k)
    rw [idle] at busy
    cases busy
  have bound := (List.subperm_of_subset List.nodup_range taken).length_le
  rwa [List.length_range, List.length_map] at bound

end Spare

/-- There is a slot for every operation in progress. -/
theorem Covers.length_le (covers : c.Covers held) : held.length ≤ c.slots.length := by
  have registered : held.map (·.slot) ⊆ List.range c.slots.length := by
    intro k mem
    obtain ⟨g, held_g, rfl⟩ := List.mem_map.mp mem
    exact List.mem_range.mpr (List.getElem?_eq_some_iff.mp (covers.announced g held_g)).1
  have bound := (List.subperm_of_subset covers.apart registered).length_le
  rwa [List.length_range, List.length_map] at bound

theorem conclude_length (slot attempt : Nat) (observed : Version) (verdict : Verdict) (c : Cell) :
    (c.conclude slot attempt observed verdict).2.slots.length = c.slots.length := by
  cases verdict with
  | decline => exact release_length slot c
  | fail cause => exact release_length slot c
  | install value =>
      by_cases same : c.current.number = observed.number
      · simp only [conclude, compareSwap, same, if_true, retire_slots]
        exact release_length slot _
      · simp only [conclude, compareSwap, same, if_false]
        rfl

end Cell

/-! ### Points -/

/-- The operations in progress hold their slots, and the other slots are idle. -/
structure Point.Tidy (p : Point) : Prop where
  sound : p.Sound
  spare : p.cell.Spare p.held

namespace Point

theorem tidy_start (settings : CellSettings) (value : Integer) : (start settings value).Tidy where
  sound := sound_start settings value
  spare := .create settings value

/-- An update that loses a race keeps its slot; however else an attempt ends, the slot is given
back. -/
theorem spare_conclude {c : Cell} {g : Guard} {outer : List Guard} (spare : c.Spare (g :: outer))
    (verdict : Verdict) :
    (Point.after ⟨c, g :: outer⟩ (.conclude verdict)).cell.Spare
      (Point.after ⟨c, g :: outer⟩ (.conclude verdict)).held := by
  cases verdict with
  | decline => exact spare.release
  | fail cause => exact spare.release
  | install value =>
      by_cases same : c.current.number = g.version.number
      · simp only [after, Cell.conclude, Cell.compareSwap, same, if_true]
        exact spare.release.congr (Cell.retire_slots _ _)
      · simp only [after, Cell.conclude, Cell.compareSwap, same, if_false]
        exact spare.protect rfl

/-- **Every move leaves idle all slots that nobody holds.** -/
theorem Tidy.after (p : Point) (move : Move) (tidy : p.Tidy) : (p.after move).Tidy := by
  refine ⟨tidy.sound.after p move, ?_⟩
  obtain ⟨c, held⟩ := p
  have spare : c.Spare held := tidy.spare
  cases move with
  | enter => exact spare.enter _ _
  | replace value => exact spare.congr (Cell.retire_slots _ _)
  | leave =>
      cases held with
      | nil => exact spare
      | cons g outer => exact spare.release
  | conclude verdict =>
      cases held with
      | nil => exact spare
      | cons g outer => exact spare_conclude spare verdict

theorem Tidy.afterAll {p : Point} (tidy : p.Tidy) (moves : List Move) : (p.afterAll moves).Tidy :=
  afterAll_keeps Tidy.after tidy moves

/-- Every point of a run on a new cell is tidy. -/
theorem tidy_reached (settings : CellSettings) (value : Integer) (past : List Move) :
    ((start settings value).afterAll past).Tidy :=
  (tidy_start settings value).afterAll past

/-- A slot is active exactly if an operation in progress holds it. -/
theorem Tidy.active_iff {p : Point} (tidy : p.Tidy) (k : Nat) :
    (∃ s, p.cell.slots[k]? = some s ∧ s.active = true) ↔ k ∈ p.held.map (·.slot) := by
  constructor
  · rintro ⟨s, at_k, active⟩
    refine tidy.spare.held_of_ne_idle at_k ?_
    rintro rfl
    cases active
  · intro mem
    obtain ⟨g, held_g, rfl⟩ := List.mem_map.mp mem
    exact ⟨_, tidy.sound.covers.announced g held_g, rfl⟩

theorem Tidy.idle {p : Point} (tidy : p.Tidy) (nobody : p.held = []) :
    ∀ s ∈ p.cell.slots, s = .idle := by
  intro s mem
  obtain ⟨k, at_k⟩ := List.mem_iff_getElem?.mp mem
  refine tidy.spare k s at_k ?_
  rw [nobody]
  exact List.not_mem_nil

/-! ### How many slots there are -/

/-- A move registers no slot, or all are active, one is registered and one more operation is in
progress. -/
theorem length_slots_after_cases (p : Point) (move : Move) :
    (p.after move).cell.slots.length = p.cell.slots.length ∨
      (∀ s ∈ p.cell.slots, s.active = true) ∧
        (p.after move).cell.slots.length = p.cell.slots.length + 1 ∧
        (p.after move).held.length = p.held.length + 1 := by
  obtain ⟨c, held⟩ := p
  cases move with
  | enter =>
      rcases c.acquire_length_cases with same | ⟨active, more⟩
      · exact .inl ((Cell.protect_length _ _).trans same)
      · exact .inr ⟨active, (Cell.protect_length _ _).trans more, rfl⟩
  | replace value => exact .inl (congrArg List.length (Cell.retire_slots _ _))
  | leave =>
      cases held with
      | nil => exact .inl rfl
      | cons g outer => exact .inl (Cell.release_length g.slot c)
  | conclude verdict =>
      refine .inl ?_
      cases held with
      | nil => rfl
      | cons g outer =>
          simp only [after]
          split
          · exact Cell.conclude_length g.slot g.attempt g.version verdict c
          · rw [announce, Cell.protect_length]
            exact Cell.conclude_length g.slot g.attempt g.version verdict c

/-- **One more slot is registered exactly if one more operation is in progress than there are
slots.** -/
theorem length_slots_after {p : Point} (tidy : p.Tidy) (move : Move) :
    (p.after move).cell.slots.length = max p.cell.slots.length (p.after move).held.length := by
  have room := (tidy.after p move).sound.covers.length_le
  rcases p.length_slots_after_cases move with same | ⟨active, more, longer⟩
  · omega
  · have full := tidy.spare.length_le active
    have held := tidy.sound.covers.length_le
    omega

/-- The largest number of operations that are in progress at once. -/
def peak (p : Point) : List Move → Nat
  | [] => p.held.length
  | move :: moves => max p.held.length ((p.after move).peak moves)

theorem held_le_peak (p : Point) (moves : List Move) : p.held.length ≤ p.peak moves := by
  cases moves with
  | nil => exact Nat.le_refl _
  | cons move moves => exact Nat.le_max_left _ _

/-- **There are as many slots as there were before, or as there were operations in progress at
once since then.** -/
theorem length_slots_afterAll {p : Point} (tidy : p.Tidy) (moves : List Move) :
    (p.afterAll moves).cell.slots.length = max p.cell.slots.length (p.peak moves) := by
  induction moves generalizing p with
  | nil => exact (Nat.max_eq_left tidy.sound.covers.length_le).symm
  | cons move moves ih =>
      have later := ih (tidy.after p move)
      have grown := length_slots_after tidy move
      have room := tidy.sound.covers.length_le
      have now := (p.after move).held_le_peak moves
      simp only [afterAll, List.foldl_cons, peak] at later ⊢
      omega

end Point

/-! ### Runs -/

/-- **Hazard slots are given back, and more are made only where all are held.** Take any settings,
any value and any program, with closures that operate on the cell to any depth, and any point of its
run, the last of which has the cell that the run ends with. The active slots are those of the
operations in progress, and no two of these share one. No move that may follow registers a slot
unless every slot is active. There are as many slots as the cell was made with, or as many as
operations were in progress at once so far if these were more. And where no operation is in
progress, as at the end, every slot is idle and announces nothing. -/
theorem slots_returned (settings : CellSettings) (value : Integer) (program : Body)
    (past : List Move) (reached : past <+: program.moves (Cell.create settings value)) :
    let p := (Point.start settings value).afterAll past
    (∀ k, (∃ s, p.cell.slots[k]? = some s ∧ s.active = true) ↔ k ∈ p.held.map (·.slot)) ∧
      (p.held.map (·.slot)).Nodup ∧
      (∀ move, p.cell.slots.length < (p.after move).cell.slots.length →
        ∀ s ∈ p.cell.slots, s.active = true) ∧
      p.cell.slots.length =
        max settings.initialSlots ((Point.start settings value).peak past) ∧
      (p.held = [] → ∀ s ∈ p.cell.slots, s.active = false ∧ s.announced = none) ∧
      (past = program.moves (Cell.create settings value) →
        p = { cell := (program.run (Cell.create settings value)).cell, held := [] }) := by
  intro p
  have tidy : p.Tidy := Point.tidy_reached settings value past
  refine ⟨tidy.active_iff, tidy.sound.covers.apart, ?_, ?_, ?_, ?_⟩
  · intro move more
    rcases p.length_slots_after_cases move with same | ⟨active, -⟩
    · exact absurd same (Nat.ne_of_gt more)
    · exact active
  · have grown := Point.length_slots_afterAll (Point.tidy_start settings value) past
    rwa [Point.start, Cell.create, List.length_replicate] at grown
  · intro nobody s mem
    rw [tidy.idle nobody s mem]
    exact ⟨rfl, rfl⟩
  · rintro rfl
    exact program.moves_lead (Cell.create settings value) []

/-- An update inside the closure of another one, which loses to it and declines. -/
theorem slots_returned_nested :
    let settings : CellSettings := { reclaimThreshold := 1, initialSlots := 1, warnRetries := 1 }
    let body : Body := .perform (.modify fun _ => .install .one) fun _ => .finish (.install .one)
    let program : Body :=
      .perform (.update (.call (fun _ => body) (.settle fun _ => .decline))) fun _ =>
        .finish .decline
    let past : List Move :=
      [.enter, .enter, .conclude (.install .one), .conclude (.install .one), .conclude .decline]
    let p := (Point.start settings .zero).afterAll past
    past <+: program.moves (Cell.create settings .zero) ∧
      p.held = [] ∧ (Point.start settings .zero).peak past = 2 ∧ p.cell.slots.length = max 1 2 ∧
      ∀ s ∈ p.cell.slots, s.active = false ∧ s.announced = none := by
  intro settings body program past
  have reached : past <+: program.moves (Cell.create settings .zero) := by decide
  have peak : (Point.start settings .zero).peak past = 2 := by decide
  obtain ⟨-, -, -, length, idle, ends⟩ :=
    slots_returned settings .zero program past reached
  rw [peak] at length
  have nobody := congrArg Point.held (ends (by decide))
  exact ⟨reached, nobody, peak, length, idle nobody⟩

end Bignum
