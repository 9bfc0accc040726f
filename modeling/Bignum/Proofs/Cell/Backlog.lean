import Bignum.Proofs.Cell.Slots

/-!
How many replaced versions wait, and what a scan leaves.

A move that replaces the current version retires it, and no other move lets a version wait or makes
a scan (`Point.backlog_after_cases`). A scan leaves the versions that the operations in progress
announce (`Point.Tidy.queue_length`), at most one for each slot; where no scan is made, fewer
versions wait than the threshold says. Slots are never taken away, so what a scan has left is not
too much later on, however many operations have ended in the meantime (`Point.Bounded.after`).

* `backlog_bounded`: the bound at every point of a run, and what each move after it logs of scans.
-/

namespace Bignum

def CellEvent.isScan : CellEvent → Bool
  | .scan _ _ _ => true
  | .lostRace _ => false
  | .contended _ => false

namespace Cell

/-- The scans that a cell has logged. -/
def scans (c : Cell) : List CellEvent := c.log.filter CellEvent.isScan

/-- The same versions wait, and no scan has been made in between. -/
structure SameBacklog (c d : Cell) : Prop where
  settings : d.settings = c.settings
  queue : d.queue = c.queue
  pending : d.pending = c.pending
  retired : d.counters.retired = c.counters.retired
  reclaimed : d.counters.reclaimed = c.counters.reclaimed
  scans : d.scans = c.scans

variable {c d : Cell} (replaced : Version)

theorem SameBacklog.counted (same : c.SameBacklog d) (counted : c.Counted) : d.Counted where
  pending := by rw [same.pending, same.queue, counted.pending]
  retired := by rw [same.retired, same.reclaimed, same.queue, counted.retired]

/-! ### Retiring -/

theorem retire_waits (few : ¬ c.settings.reclaimThreshold ≤ c.pending + 1) :
    c.retire replaced = c.enqueue replaced := by
  rw [retire_eq]
  exact if_neg few

theorem retire_scans (enough : c.settings.reclaimThreshold ≤ c.pending + 1) :
    c.retire replaced = (c.enqueue replaced).scan := by
  rw [retire_eq]
  exact if_pos enough

theorem retire_settings (c : Cell) : (c.retire replaced).settings = c.settings := by
  rw [retire_eq]
  split <;> rfl

/-- A scan logs how many versions it has freed and how many it has left, and leaves only such as are
announced. -/
theorem scan_leaves (counted : c.Counted) :
    (∃ reclaimed, c.scan.scans =
        c.scans ++ [.scan reclaimed c.scan.queue.length c.scan.queue.length] ∧
        reclaimed + c.scan.queue.length = c.pending) ∧
      ∀ v ∈ c.scan.queue, v.number ∈ c.scan.announced := by
  have sorted : c.queue.length = c.scan.queue.length + _ :=
    List.length_eq_length_filter_add fun v : Version => c.announced.contains v.number
  have logged : c.scan.scans = c.scans ++ [.scan _ c.scan.queue.length c.scan.pending] :=
    List.filter_append _ _
  rw [counted.scan.pending] at logged
  refine ⟨⟨_, logged, ?_⟩, ?_⟩
  · rw [counted.pending, sorted]
    exact Nat.add_comm _ _
  · intro v mem
    simpa [scan, announced] using (List.mem_filter.mp mem).2

/-- A lost race is logged, but not as a scan. -/
theorem loseRace_scans (attempt : Nat) (c : Cell) : (c.loseRace attempt).scans = c.scans := by
  simp only [scans, loseRace, List.filter_append]
  split
  · exact List.append_nil _
  · exact List.append_nil _

end Cell

namespace Point

/-! ### What is announced -/

/-- Whether an operation in progress announces a version in its slot. -/
def announces (p : Point) (number : Nat) : Bool :=
  p.held.any fun g => (p.cell.slots[g.slot]?).any fun s => s.announced == some number

/-- How many of the versions that have been replaced the operations in progress announce. -/
def deferred (p : Point) : Nat :=
  (List.range p.cell.nextNumber).countP fun n => n != p.cell.current.number && p.announces n

variable {p : Point}

theorem deferred_nobody (nobody : p.held = []) : p.deferred = 0 := by
  simp [deferred, announces, nobody]

theorem Sound.announces_iff (sound : p.Sound) (n : Nat) :
    p.announces n = true ↔ ∃ g ∈ p.held, g.version.number = n := by
  rw [announces, List.any_eq_true]
  refine exists_congr fun g => and_congr_right fun mem => ?_
  rw [sound.covers.announced g mem]
  simp

theorem Tidy.mem_announced (tidy : p.Tidy) {n : Nat} :
    n ∈ p.cell.announced ↔ p.announces n = true := by
  rw [tidy.sound.announces_iff]
  constructor
  · intro mem
    obtain ⟨s, mem, announces⟩ := List.mem_filterMap.mp mem
    obtain ⟨k, at_k⟩ := List.mem_iff_getElem?.mp mem
    have taken : k ∈ p.held.map (·.slot) := by
      refine tidy.spare.held_of_ne_idle at_k ?_
      rintro rfl
      cases announces
    obtain ⟨g, held, rfl⟩ := List.mem_map.mp taken
    rw [tidy.sound.covers.announced g held] at at_k
    obtain rfl := Option.some.inj at_k
    exact ⟨g, held, Option.some.inj announces⟩
  · rintro ⟨g, held, rfl⟩
    exact Cell.mem_announced (tidy.sound.covers.announced g held) rfl

/-- An operation in progress keeps at most one version from being freed. -/
theorem Sound.deferred_le (sound : p.Sound) : p.deferred ≤ p.held.length := by
  have announced : (List.range p.cell.nextNumber).filter (fun n =>
      n != p.cell.current.number && p.announces n) ⊆ p.held.map (·.version.number) := by
    intro n mem
    have announces := (Bool.and_eq_true_iff.mp (List.mem_filter.mp mem).2).2
    exact List.mem_map.mpr ((sound.announces_iff n).mp announces)
  have bound := (List.subperm_of_subset (List.nodup_range.filter _) announced).length_le
  rwa [List.length_map, ← List.countP_eq_length_filter] at bound

/-- If only announced versions wait, these are all the replaced ones that are announced: none of
them has been freed. -/
theorem Tidy.mem_queue (tidy : p.Tidy) (kept : ∀ v ∈ p.cell.queue, v.number ∈ p.cell.announced)
    (n : Nat) : n ∈ p.cell.queue.map (·.number) ↔
      n < p.cell.nextNumber ∧ n ≠ p.cell.current.number ∧ p.announces n = true := by
  have accounted := tidy.sound.accounted
  constructor
  · intro mem
    have waits : p.cell.timesRetired n ≠ 0 := by
      have once := List.count_pos_iff.mpr mem
      rw [Cell.timesRetired]
      omega
    have replaced := not_or.mp (mt (accounted.never n) waits)
    obtain ⟨v, waiting, rfl⟩ := List.mem_map.mp mem
    exact ⟨Nat.lt_of_not_le replaced.2, replaced.1, tidy.mem_announced.mp (kept v waiting)⟩
  · rintro ⟨numbered, other, announces⟩
    obtain ⟨g, held, rfl⟩ := (tidy.sound.announces_iff n).mp announces
    have unfreed := List.count_eq_zero.mpr (tidy.sound.covers.kept g held).2
    have once := accounted.once _ numbered other
    rw [Cell.timesRetired] at once
    exact List.count_pos_iff.mp (by omega)

/-- **What a scan leaves is counted by the slots of the operations in progress.** -/
theorem Tidy.queue_length (tidy : p.Tidy)
    (kept : ∀ v ∈ p.cell.queue, v.number ∈ p.cell.announced) :
    p.cell.queue.length = p.deferred := by
  have same := (List.perm_ext_iff_of_nodup tidy.sound.accounted.queue_nodup
    (List.nodup_range.filter fun n => n != p.cell.current.number && p.announces n)).mpr fun n => by
      rw [List.mem_filter, List.mem_range, Bool.and_eq_true, bne_iff_ne]
      exact tidy.mem_queue kept n
  rw [deferred, List.countP_eq_length_filter, ← same.length_eq, List.length_map]

/-! ### Moves -/

/-- A move that puts a value in the place of the current version: a store or a swap, or the end of
an update that installs one. -/
def replaces (p : Point) (move : Move) : Prop :=
  .replaced ∈ p.completes move ∨ .installed ∈ p.completes move

instance (p : Point) (move : Move) : Decidable (p.replaces move) :=
  inferInstanceAs (Decidable (_ ∨ _))

/-- **A move that replaces the current version retires it, and no other move changes what
waits.** -/
theorem backlog_after_cases (p : Point) (move : Move) :
    (¬ p.replaces move ∧ p.cell.SameBacklog (p.after move).cell) ∨
      p.replaces move ∧ ∃ d replaced,
        (p.after move).cell = d.retire replaced ∧ p.cell.SameBacklog d := by
  obtain ⟨c, held⟩ := p
  have same : c.SameBacklog c := ⟨rfl, rfl, rfl, rfl, rfl, rfl⟩
  cases move with
  | enter =>
      refine .inl ⟨by simp [replaces, completes], ?_⟩
      simp only [after, announce]
      rw [c.acquire_eq]
      exact ⟨rfl, rfl, rfl, rfl, rfl, rfl⟩
  | replace value =>
      exact .inr ⟨.inl List.mem_cons_self, c.publish value, c.current, rfl, rfl, rfl, rfl,
        rfl, rfl, rfl⟩
  | leave =>
      cases held with
      | nil => exact .inl ⟨by simp [replaces, completes], same⟩
      | cons g outer => exact .inl ⟨by simp [replaces, completes], rfl, rfl, rfl, rfl, rfl, rfl⟩
  | conclude verdict =>
      cases held with
      | nil => exact .inl ⟨by simp [replaces, completes], same⟩
      | cons g outer =>
          cases verdict with
          | decline =>
              exact .inl ⟨by simp [replaces, completes, Cell.conclude, Outcome.completion],
                rfl, rfl, rfl, rfl, rfl, rfl⟩
          | fail cause =>
              exact .inl ⟨by simp [replaces, completes, Cell.conclude, Outcome.completion],
                rfl, rfl, rfl, rfl, rfl, rfl⟩
          | install value =>
              by_cases current : c.current.number = g.version.number
              · simp only [replaces, completes, after, Cell.conclude, Cell.compareSwap, current,
                  if_true]
                exact .inr ⟨.inr List.mem_cons_self, _, _, rfl, rfl, rfl, rfl, rfl, rfl, rfl⟩
              · simp only [replaces, completes, after, Cell.conclude, Cell.compareSwap, current,
                  if_false]
                exact .inl ⟨by simp, rfl, rfl, rfl, rfl, rfl, Cell.loseRace_scans g.attempt c⟩

/-- **Where enough versions wait after a move that replaces one, there is a scan.** It is the only
one, and leaves the versions that are announced. -/
theorem Tidy.scan_after (tidy : p.Tidy) {move : Move} (replaces : p.replaces move)
    (enough : p.cell.settings.reclaimThreshold ≤ p.cell.pending + 1) :
    ∃ reclaimed, (p.after move).cell.scans = p.cell.scans ++
        [.scan reclaimed (p.after move).deferred (p.after move).deferred] ∧
      reclaimed + (p.after move).deferred = p.cell.pending + 1 ∧
      (p.after move).cell.pending = (p.after move).deferred := by
  rcases p.backlog_after_cases move with ⟨other, -⟩ | ⟨-, d, replaced, retires, same⟩
  · exact absurd replaces other
  rw [← same.settings, ← same.pending] at enough
  have scanned := retires.trans (Cell.retire_scans replaced enough)
  have counted := (same.counted tidy.sound.accounted.counted).enqueue replaced
  obtain ⟨⟨reclaimed, logged, total⟩, kept⟩ := Cell.scan_leaves counted
  rw [← scanned] at logged total kept
  have left := (tidy.after p move).queue_length kept
  rw [left] at logged total
  refine ⟨reclaimed, ?_, ?_, ?_⟩
  · rw [← same.scans]
    exact logged
  · rw [← same.pending]
    exact total
  · rw [← left]
    exact (tidy.after p move).sound.accounted.counted.pending

/-- Any other move makes no scan, and leaves fewer versions than the threshold says if it lets one
more of them wait. -/
theorem waits_after (p : Point) {move : Move}
    (waits : ¬ (p.replaces move ∧ p.cell.settings.reclaimThreshold ≤ p.cell.pending + 1)) :
    (p.after move).cell.scans = p.cell.scans ∧
      ((p.after move).cell.pending = p.cell.pending ∨
        (p.after move).cell.pending < p.cell.settings.reclaimThreshold) := by
  rcases p.backlog_after_cases move with ⟨-, same⟩ | ⟨replaces, d, replaced, retires, same⟩
  · exact ⟨same.scans, .inl same.pending⟩
  · have few := not_and.mp waits replaces
    rw [← same.settings, ← same.pending] at few
    rw [retires, Cell.retire_waits replaced few, ← same.settings]
    exact ⟨same.scans, .inr (Nat.lt_of_not_le few)⟩

theorem settings_after (p : Point) (move : Move) :
    (p.after move).cell.settings = p.cell.settings := by
  rcases p.backlog_after_cases move with ⟨-, same⟩ | ⟨-, d, replaced, retires, same⟩
  · exact same.settings
  · rw [retires, Cell.retire_settings, same.settings]

/-! ### The bound -/

/-- No more versions wait than there are slots, or fewer than the threshold says. -/
structure Bounded (settings : CellSettings) (p : Point) : Prop where
  tidy : p.Tidy
  unchanged : p.cell.settings = settings
  pending : p.cell.pending ≤ max (settings.reclaimThreshold - 1) p.cell.slots.length

theorem bounded_start (settings : CellSettings) (value : Integer) :
    (start settings value).Bounded settings where
  tidy := tidy_start settings value
  unchanged := rfl
  pending := Nat.zero_le _

/-- **Every move keeps the bound.** -/
theorem Bounded.after {settings : CellSettings} (p : Point) (move : Move)
    (bounded : p.Bounded settings) : (p.after move).Bounded settings := by
  obtain ⟨tidy, unchanged, pending⟩ := bounded
  have later := tidy.after p move
  refine ⟨later, (p.settings_after move).trans unchanged, ?_⟩
  by_cases scan : p.replaces move ∧ p.cell.settings.reclaimThreshold ≤ p.cell.pending + 1
  · obtain ⟨-, -, -, left⟩ := tidy.scan_after scan.1 scan.2
    rw [left]
    have room := Nat.le_trans later.sound.deferred_le later.sound.covers.length_le
    exact Nat.le_trans room (Nat.le_max_right _ _)
  · have slots := (p.gained_after move).slots
    have waits := (p.waits_after scan).2
    rw [unchanged] at waits
    omega

end Point

/-! ### Runs -/

/-- **Replaced versions do not pile up, and a scan frees all that it can.** Take any settings, any
value and any program, with closures that operate on the cell to any depth, and any point of its
run, the last of which has the cell that the run ends with. The versions that have been retired and
not freed are fewer than the threshold, or at most as many as there are slots. A move that may
follow makes a scan if it replaces the current version and lets as many versions wait as the
threshold says, and otherwise none. Of the versions that wait, the scan leaves those that are
announced by the operations still in progress, which enclose the one that makes it, and frees the
others. Where none is in progress, every version that has been retired has been freed. -/
theorem backlog_bounded (settings : CellSettings) (value : Integer) (program : Body)
    (past : List Move) (reached : past <+: program.moves (Cell.create settings value)) :
    let p := (Point.start settings value).afterAll past
    p.cell.counters.retired = p.cell.counters.reclaimed + p.cell.pending ∧
      p.cell.pending ≤ max (settings.reclaimThreshold - 1) p.cell.slots.length ∧
      (∀ move,
        let q := p.after move
        if p.replaces move ∧ settings.reclaimThreshold ≤ p.cell.pending + 1 then
          ∃ reclaimed, q.cell.scans = p.cell.scans ++ [.scan reclaimed q.deferred q.deferred] ∧
            reclaimed + q.deferred = p.cell.pending + 1 ∧
            (q.held = [] → q.deferred = 0 ∧ q.cell.counters.retired = q.cell.counters.reclaimed)
        else q.cell.scans = p.cell.scans) ∧
      (past = program.moves (Cell.create settings value) →
        p = { cell := (program.run (Cell.create settings value)).cell, held := [] }) := by
  intro p
  have bounded : p.Bounded settings :=
    Point.afterAll_keeps Point.Bounded.after (Point.bounded_start settings value) past
  obtain ⟨tidy, unchanged, pending⟩ := bounded
  have counted := tidy.sound.accounted.counted
  refine ⟨?_, pending, ?_, ?_⟩
  · rw [counted.retired, counted.pending]
  · intro move q
    split
    · rename_i scan
      rw [← unchanged] at scan
      obtain ⟨reclaimed, logged, total, left⟩ := tidy.scan_after scan.1 scan.2
      refine ⟨reclaimed, logged, total, fun nobody => ?_⟩
      have none := Point.deferred_nobody nobody
      have after := (tidy.after p move).sound.accounted.counted
      refine ⟨none, ?_⟩
      rw [after.retired, ← after.pending, left, none]
      rfl
    · rename_i waits
      rw [← unchanged] at waits
      exact (p.waits_after waits).1
  · rintro rfl
    exact program.moves_lead (Cell.create settings value) []

/-- An update loses to a store in its closure, and installs a value at its second attempt. The store
leaves the version that the update announces, and the update leaves nothing. -/
theorem backlog_bounded_nested :
    let settings : CellSettings := { reclaimThreshold := 1, initialSlots := 1, warnRetries := 1 }
    let body : Body := .perform (.replace .one) fun _ => .finish (.install .one)
    let program : Body :=
      .perform (.update (.call (fun _ => body) (.settle fun _ => .install .minusOne))) fun _ =>
        .finish .decline
    let past : List Move := [.enter, .replace .one, .conclude (.install .one)]
    let p := (Point.start settings .zero).afterAll past
    let q := p.after (.conclude (.install .minusOne))
    past <+: program.moves (Cell.create settings .zero) ∧
      p.cell.scans = [.scan 0 1 1] ∧ p.cell.pending = 1 ∧
      (∃ reclaimed, q.cell.scans = p.cell.scans ++ [.scan reclaimed q.deferred q.deferred] ∧
        reclaimed + q.deferred = 2) ∧
      q.deferred = 0 ∧ q.cell.counters.retired = q.cell.counters.reclaimed := by
  intro settings body program past
  have reached : past <+: program.moves (Cell.create settings .zero) := by decide
  obtain ⟨-, -, step, -⟩ := backlog_bounded settings .zero program past reached
  have last := step (.conclude (.install .minusOne))
  rw [if_pos (by decide)] at last
  obtain ⟨reclaimed, logged, total, nobody⟩ := last
  exact ⟨reached, by decide, by decide, ⟨reclaimed, logged, total⟩, nobody rfl⟩

end Bignum
