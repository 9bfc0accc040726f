import Bignum.Proofs.Threads.Memory

/-!
How a cell lies in memory.

`Shared.Represents`: the versions of a `Cell` lie in memory, each at some address, and a slot
announces the address of the version whose number the cell has there. Each step that operations on
a cell consist of has its counterpart in memory, which keeps this: `Represents.protect`,
`Represents.release`, `Represents.install`, `Represents.reclaim`, `Represents.send` and others.
-/

namespace Bignum.Threads

namespace Shared

/-- The number of the version at an address, if there is one. -/
def numberAt (s : Shared) (a : Address) : Option Nat :=
  match s.memory a with
  | some (.version v) => some v.number
  | _ => none

/-- A slot with the number of the version that it announces. -/
def view (s : Shared) (x : Slot) : HazardSlot :=
  { active := x.active, announced := x.announced.bind s.numberAt }

/-- How a cell lies in memory. -/
structure Represents (s : Shared) (c : Cell) : Prop where
  threshold : s.threshold = c.settings.reclaimThreshold
  current : s.memory s.current = some (.version c.current)
  nextNumber : s.nextNumber = c.nextNumber
  slots : ∀ k : Nat, c.slots[k]? = (s.slots[k]?).map s.view
  announced : ∀ x ∈ s.slots, ∀ a, x.announced = some a → ∃ v, s.memory a = some (.version v)
  queue : s.queue.map s.memory = c.queue.map fun v => some (.version v)
  freed : s.freed = c.freed
  pending : s.pending.toNat = c.pending

variable {s t : Shared} {c d : Cell} {slot : Nat} {a : Address}

theorem numberAt_eq {v : Version} (found : s.memory a = some (.version v)) :
    s.numberAt a = some v.number := by
  rw [numberAt, found]

/-- A candidate is not a version. -/
theorem ne_version_of_candidate {value : Integer} (found : s.memory a = some (.candidate value))
    (v : Version) : s.memory a ≠ some (.version v) := by
  rw [found]
  intro same
  cases same

namespace Represents

theorem create (settings : CellSettings) (value : Integer) :
    (Shared.create settings value).Represents (.create settings value) where
  threshold := rfl
  current := rfl
  nextNumber := rfl
  slots := by
    intro k
    simp only [Shared.create, Cell.create, List.getElem?_replicate]
    split <;> rfl
  announced := by
    intro x mem a announces
    rw [List.eq_of_mem_replicate mem] at announces
    cases announces
  queue := rfl
  freed := rfl
  pending := rfl

/-- Counters and the log are not in memory. -/
theorem count (represents : s.Represents c) (counters : CellCounters) (log : List CellEvent) :
    s.Represents { c with counters := counters, log := log } :=
  ⟨represents.threshold, represents.current, represents.nextNumber, represents.slots,
    represents.announced, represents.queue, represents.freed, represents.pending⟩

theorem slots_eq (represents : s.Represents c) : c.slots = s.slots.map s.view :=
  List.ext_getElem? fun k => (represents.slots k).trans List.getElem?_map.symm

theorem length_slots (represents : s.Represents c) : c.slots.length = s.slots.length := by
  rw [represents.slots_eq, List.length_map]

/-- A cell announces the number of a version exactly if some slot announces its address. -/
theorem announced_iff (represents : s.Represents c) (numbered : s.Numbered) {v : Version}
    (found : s.memory a = some (.version v)) :
    v.number ∈ c.announced ↔ ∃ x ∈ s.slots, x.announced = some a := by
  rw [Cell.announced, represents.slots_eq]
  constructor
  · intro mem
    obtain ⟨y, mem, announces⟩ := List.mem_filterMap.mp mem
    obtain ⟨x, inSlots, rfl⟩ := List.mem_map.mp mem
    obtain ⟨b, atX, number⟩ := Option.bind_eq_some_iff.mp announces
    obtain ⟨w, there⟩ := represents.announced x inSlots b atX
    rw [numberAt_eq there] at number
    obtain rfl := numbered.apart b a w v there found (Option.some.inj number)
    exact ⟨x, inSlots, atX⟩
  · rintro ⟨x, mem, announces⟩
    refine List.mem_filterMap.mpr ⟨s.view x, List.mem_map_of_mem mem, ?_⟩
    simp only [view, announces, Option.bind_some]
    exact numberAt_eq found

/-- Addresses say which version is current as well as numbers do. -/
theorem current_iff (represents : s.Represents c) (numbered : s.Numbered) {v : Version}
    (found : s.memory a = some (.version v)) :
    s.current = a ↔ c.current.number = v.number := by
  constructor
  · rintro rfl
    have same := represents.current.symm.trans found
    cases same
    rfl
  · exact numbered.apart _ _ _ _ represents.current found

/-! ### Slots -/

theorem modify (represents : s.Represents c) (slot : Nat) {f : Slot → Slot}
    {g : HazardSlot → HazardSlot} (same : ∀ x, s.view (f x) = g (s.view x))
    (announced : ∀ x a, (f x).announced = some a → x.announced = some a ∨ a = s.current) :
    { s with slots := s.slots.modify slot f : Shared }.Represents
      { c with slots := c.slots.modify slot g } where
  threshold := represents.threshold
  current := represents.current
  nextNumber := represents.nextNumber
  slots := by
    intro k
    show (c.slots.modify slot g)[k]? = ((s.slots.modify slot f)[k]?).map s.view
    rw [List.getElem?_modify, List.getElem?_modify, represents.slots k]
    cases s.slots[k]? with
    | none => rfl
    | some x =>
        by_cases here : slot = k
        · simp [here, same]
        · simp [here]
  announced := by
    intro x mem a announces
    obtain ⟨k, modified⟩ := List.mem_iff_getElem?.mp mem
    rw [List.getElem?_modify] at modified
    obtain ⟨y, at_k, rfl⟩ := Option.map_eq_some_iff.mp modified
    have before := represents.announced y (List.mem_of_getElem? at_k)
    by_cases here : slot = k
    · rw [if_pos here] at announces
      rcases announced y a announces with announces | rfl
      · exact before a announces
      · exact ⟨c.current, represents.current⟩
    · rw [if_neg here] at announces
      exact before a announces
  queue := represents.queue
  freed := represents.freed
  pending := represents.pending

theorem protect (represents : s.Represents c) (slot : Nat) :
    (s.announce slot (some s.current)).Represents (c.protect slot) := by
  refine represents.modify slot (fun x => ?_) fun x a announces => ?_
  · simp [view, numberAt_eq represents.current]
  · exact .inr (Option.some.inj announces).symm

theorem claim (represents : s.Represents c) (slot : Nat) :
    (s.setActive slot true).Represents
      { c with slots := c.slots.modify slot fun x => { x with active := true } } :=
  represents.modify slot (fun _ => rfl) fun _ _ announces => .inl announces

theorem release (represents : s.Represents c) (slot : Nat) :
    ((s.announce slot none).setActive slot false).Represents (c.release slot) := by
  have cleared : (s.announce slot none).Represents
      { c with slots := c.slots.modify slot fun x => { x with announced := none } } :=
    represents.modify slot (fun _ => rfl) fun _ _ impossible => nomatch impossible
  have idle : (c.slots.modify slot fun x => { x with announced := none }).modify slot
      (fun x => { x with active := false }) = c.slots.set slot .idle := by
    refine List.ext_getElem? fun k => ?_
    rw [List.getElem?_modify, List.getElem?_modify, List.getElem?_set']
    by_cases here : slot = k
    · cases c.slots[k]? with
      | none => simp [here]
      | some x => simp [here, HazardSlot.idle]
    · simp [here]
  show (((s.announce slot none).setActive slot false)).Represents
    { c with slots := c.slots.set slot .idle }
  rw [← idle]
  exact cleared.modify slot (fun _ => rfl) fun _ _ announces => .inl announces

theorem register (represents : s.Represents c) :
    s.register.Represents
      { c with slots := c.slots ++ [{ active := true, announced := none }] } where
  threshold := represents.threshold
  current := represents.current
  nextNumber := represents.nextNumber
  slots := by
    intro k
    show (c.slots ++ [{ active := true, announced := none }])[k]? =
      ((s.slots ++ [{ active := true, announced := none }])[k]?).map s.view
    rw [List.getElem?_append, List.getElem?_append, represents.length_slots, represents.slots k]
    split
    · rfl
    · cases k - s.slots.length <;> rfl
  announced := by
    intro x mem a announces
    rcases List.mem_append.mp mem with mem | mem
    · exact represents.announced x mem a announces
    · rw [List.mem_singleton.mp mem] at announces
      cases announces
  queue := represents.queue
  freed := represents.freed
  pending := represents.pending

/-! ### Memory -/

/-- Writing where no version lies that the cell has or a slot announces. -/
theorem write (represents : s.Represents c) (content : Option Content) (current : a ≠ s.current)
    (queue : a ∉ s.queue) (announced : ∀ x ∈ s.slots, x.announced ≠ some a) :
    (s.write a content).Represents c where
  threshold := represents.threshold
  current := (write_other current.symm s content).trans represents.current
  nextNumber := represents.nextNumber
  slots := by
    intro k
    rw [represents.slots k]
    cases at_k : s.slots[k]? with
    | none => simp [Shared.write, at_k]
    | some x =>
        have same : (s.write a content).view x = s.view x := by
          cases announces : x.announced with
          | none => simp [view, announces]
          | some b =>
              have other : b ≠ a := by
                rintro rfl
                exact announced x (List.mem_of_getElem? at_k) announces
              simp only [view, announces, Option.bind_some, numberAt, write_other other]
        show some (s.view x) = (s.slots[k]?).map (s.write a content).view
        rw [at_k, Option.map_some, same]
  announced := by
    intro x mem b announces
    have other : b ≠ a := by
      rintro rfl
      exact announced x mem announces
    rw [write_other other]
    exact represents.announced x mem b announces
  queue := by
    rw [← represents.queue]
    refine List.map_congr_left fun b mem => write_other ?_ s content
    rintro rfl
    exact queue mem
  freed := represents.freed
  pending := represents.pending

theorem queue_version (represents : s.Represents c) (mem : a ∈ s.queue) :
    ∃ v, s.memory a = some (.version v) := by
  have found := List.mem_map_of_mem (f := s.memory) mem
  rw [represents.queue] at found
  obtain ⟨v, -, same⟩ := List.mem_map.mp found
  exact ⟨v, same.symm⟩

/-- Writing where no version lies. -/
theorem write_draft (represents : s.Represents c) (content : Option Content)
    (draft : ∀ v, s.memory a ≠ some (.version v)) : (s.write a content).Represents c := by
  refine represents.write content ?_ ?_ ?_
  · rintro rfl
    exact draft _ represents.current
  · intro mem
    obtain ⟨v, found⟩ := represents.queue_version mem
    exact draft v found
  · intro x mem announces
    obtain ⟨v, found⟩ := represents.announced x mem a announces
    exact draft v found

theorem allocate (represents : s.Represents c) (empty : s.memory a = none) (value : Integer) :
    (s.allocate a value).Represents c :=
  represents.write_draft _ fun _ found => nomatch empty.symm.trans found

theorem discard (represents : s.Represents c) {value : Integer}
    (found : s.memory a = some (.candidate value)) : (s.free a).Represents c := by
  have freed : s.free a = s.write a none := by simp [free, found]
  rw [freed]
  exact represents.write_draft _ (ne_version_of_candidate found)

theorem install (represents : s.Represents c) {value : Integer}
    (found : s.memory a = some (.candidate value)) :
    (s.install a).Represents (c.publish value) := by
  have written := represents.write_draft
    (some (.version { number := s.nextNumber, value := value })) (ne_version_of_candidate found)
  simp only [Shared.install, found, Content.value]
  exact
    { threshold := written.threshold
      current := by
        rw [Cell.publish, ← represents.nextNumber]
        exact write_self s a _
      nextNumber := congrArg (· + 1) represents.nextNumber
      slots := written.slots
      announced := written.announced
      queue := written.queue
      freed := written.freed
      pending := written.pending }

/-- A value is allocated and installed, and the version before it stays where it is. -/
theorem publish (represents : s.Represents c) (empty : s.memory a = none) (value : Integer) :
    ((s.allocate a value).install a).Represents (c.publish value) ∧
      ((s.allocate a value).install a).memory s.current = some (.version c.current) := by
  have allocated := represents.allocate empty value
  refine ⟨allocated.install (write_self s a _), ?_⟩
  have other : s.current ≠ a := by
    rintro rfl
    exact nomatch empty.symm.trans represents.current
  obtain ⟨content, written⟩ := install_memory (s.allocate a value) a
  rw [written, write_other other]
  exact allocated.current

theorem reclaim (represents : s.Represents c) {v : Version}
    (found : s.memory a = some (.version v)) (current : a ≠ s.current) (queue : a ∉ s.queue)
    (announced : ∀ x ∈ s.slots, x.announced ≠ some a) :
    (s.free a).Represents { c with freed := c.freed ++ [v.number] } := by
  have written := represents.write none current queue announced
  simp only [Shared.free, found]
  exact
    { threshold := written.threshold
      current := written.current
      nextNumber := written.nextNumber
      slots := written.slots
      announced := written.announced
      queue := written.queue
      freed := congrArg (· ++ [v.number]) represents.freed
      pending := written.pending }

/-! ### The queue -/

/-- Other versions wait. -/
theorem requeue (represents : s.Represents c) {queue : List Address} {waiting : List Version}
    (pending : UInt64) (same : queue.map s.memory = waiting.map fun v => some (.version v)) :
    { s with queue := queue, pending := pending : Shared }.Represents
      { c with queue := waiting, pending := pending.toNat } :=
  { represents with queue := same, pending := rfl }

theorem send (represents : s.Represents c) {v : Version}
    (found : s.memory a = some (.version v)) :
    (s.send a).Represents { c with queue := c.queue ++ [v] } := by
  have same : (s.queue ++ [a]).map s.memory =
      (c.queue ++ [v]).map fun v => some (.version v) := by
    simp only [List.map_append, List.map_cons, List.map_nil, found, represents.queue]
  have sent := represents.requeue s.pending same
  rwa [represents.pending] at sent

end Represents

end Shared

end Bignum.Threads
