import Bignum.Proofs.Threads.Safety
import Bignum.Proofs.Threads.Representation
import Bignum.Proofs.Cell.Reclamation

/-!
A thread that is not interrupted makes of a shared cell what `Cell` makes of itself.

Each step that operations on a cell consist of has a run of accesses that does the same in memory
(`Runs.acquire`, `Runs.scan`, `Runs.retire`, `Runs.conclude` and others), and hence so has every
operation, whatever it nests (`runs_op`). What programs make of a cell is thus among what threads
can make of it (`reachable_run`).

The counter of waiting versions is the one place where the two differ: in memory it can overflow.
It does not as long as the number of versions fits (`Cell.Accounted.pending_lt`).
-/

namespace Bignum

namespace Threads

/-! ### What a scan does to a cell -/

/-- A cell after the versions of a batch have been freed or put back, and `n` others freed. -/
def settled (versions : List Version) (n : Nat) (c : Cell) : Cell :=
  let reclaimed := versions.filter fun v => !c.announced.contains v.number
  { c with
    queue := c.queue ++ versions.filter fun v => c.announced.contains v.number
    freed := c.freed ++ reclaimed.map (·.number)
    pending := c.pending - (n + reclaimed.length) }

section Settled

variable {c : Cell} {v : Version} {versions : List Version} {n : Nat}

theorem settled_nil : settled [] n c = { c with pending := c.pending - n } := by
  simp [settled]

theorem settled_defer (announced : v.number ∈ c.announced) :
    settled versions n { c with queue := c.queue ++ [v] } = settled (v :: versions) n c := by
  have seen : c.announced.contains v.number = true := List.contains_iff_mem.mpr announced
  have same : Cell.announced { c with queue := c.queue ++ [v] } = c.announced := rfl
  simp only [settled, same, List.filter_cons, seen, if_true, Bool.not_true, Bool.false_eq_true,
    if_false, List.append_assoc, List.singleton_append]

theorem settled_reclaim (unannounced : v.number ∉ c.announced) :
    settled versions (n + 1) { c with freed := c.freed ++ [v.number] } =
      settled (v :: versions) n c := by
  have unseen : c.announced.contains v.number = false := by simpa using unannounced
  have same : Cell.announced { c with freed := c.freed ++ [v.number] } = c.announced := rfl
  simp only [settled, same, List.filter_cons, unseen, if_true, Bool.not_false, Bool.false_eq_true,
    if_false, List.append_assoc, List.singleton_append, List.map_cons, List.length_cons,
    Nat.add_assoc, Nat.add_comm 1]

end Settled

namespace Runs

variable {s t : Shared} {c : Cell} {fs gs outer : List Frame} {k : Nat} {a : Address} {v : Version}

/-- What an operation does, it does whatever waits for it. -/
theorem under (runs : Runs s fs t gs) (outer : List Frame) :
    Runs s (fs ++ outer) t (gs ++ outer) := by
  induction runs with
  | done => exact .done
  | @next s t u φ next waiting fs access _ ih =>
      rw [List.append_assoc] at ih
      exact .next access ih

/-! ### Slots -/

/-- A walk finds the idle slot that was registered last. -/
theorem walk (represents : s.Represents c) (goal : Goal) {left : Nat}
    (bound : left ≤ s.slots.length) :
    Runs s [.walk goal left] s
      (match (List.range left).reverse.find? fun k => (c.slots[k]?).any fun x => !x.active with
        | some k => [.claim goal k]
        | none => [.walk goal 0]) := by
  induction left with
  | zero => exact .done
  | succ k ih =>
      have rest := ih (Nat.le_of_succ_le bound)
      have at_k : s.slots[k]? = some s.slots[k] := List.getElem?_eq_getElem bound
      rw [List.range_succ, List.reverse_append, List.reverse_singleton, List.singleton_append,
        List.find?_cons, represents.slots k, at_k]
      cases active : s.slots[k].active with
      | true =>
          simp only [Option.map_some, Option.any_some, Shared.view, active, Bool.not_true]
          exact .next (.busy at_k active) rest
      | false =>
          simp only [Option.map_some, Option.any_some, Shared.view, active, Bool.not_false]
          exact .next (.idle at_k active) .done

/-- A slot is taken as `Cell.acquire` takes it. -/
theorem acquire (represents : s.Represents c) (goal : Goal) :
    ∃ t, Runs s [.seek goal] t [.read goal c.acquire.1 none] ∧ t.Represents c.acquire.2 := by
  have walked := walk represents goal (Nat.le_refl s.slots.length)
  cases found : c.idleSlot? with
  | none =>
      have taken : c.acquire = (c.slots.length,
          { c with slots := c.slots ++ [{ active := true, announced := none }] }) := by
        rw [Cell.acquire, found]
      rw [Cell.idleSlot?, represents.length_slots] at found
      rw [found] at walked
      rw [taken, represents.length_slots]
      exact ⟨s.register, .next .seek (walked.trans (.next .exhausted (.next .link .done))),
        represents.register⟩
  | some k =>
      have taken : c.acquire =
          (k, { c with slots := c.slots.modify k fun x => { x with active := true } }) := by
        rw [Cell.acquire, found]
      obtain ⟨x, at_k, active⟩ := Cell.idle_of_idleSlot? found
      rw [represents.slots k] at at_k
      obtain ⟨y, idle, rfl⟩ := Option.map_eq_some_iff.mp at_k
      rw [Cell.idleSlot?, represents.length_slots] at found
      rw [found] at walked
      rw [taken]
      exact ⟨s.setActive k true, .next .seek (walked.trans (.next (.claim idle active) .done)),
        represents.claim k⟩

/-- The current version is announced, and found current. -/
theorem protect (represents : s.Represents c) (goal : Goal) (k : Nat) (kept : Option Kept) :
    Runs s [.read goal k kept] (s.announce k (some s.current))
      [goal.frame k ⟨s.current, c.current⟩] :=
  .next .read (.next .announce (.next (.validate represents.current) .done))

/-- A slot is given back. -/
theorem release (s : Shared) (k : Nat) (kept : Kept) (replaced : Option Address) :
    Runs s [.clear k kept replaced] ((s.announce k none).setActive k false)
      (replaced.map Frame.send).toList := by
  have given : Runs s [.clear k kept replaced] ((s.announce k none).setActive k false)
      ((replaced.map Frame.send).toList ++ []) := .next .clear (.next .release .done)
  rwa [List.append_nil] at given

/-- A load does what `Cell.load` does. -/
theorem load (represents : s.Represents c) :
    ∃ t, Runs s [.seek .load] t [] ∧ t.Represents c.load.2 := by
  obtain ⟨t, acquired, taken⟩ := acquire represents .load
  have guarded := taken.protect c.acquire.1
  have protecting := protect taken .load c.acquire.1 none
  have found : (t.announce c.acquire.1 (some t.current)).memory t.current =
    some (.version c.acquire.2.current) := taken.current
  exact ⟨_, acquired.trans (protecting.trans (.next (.copy found) (release _ _ _ none))),
    (guarded.release c.acquire.1).count _ _⟩

/-! ### Reclamation -/

/-- Everything that waits is received. -/
theorem drain (s : Shared) (batch : List Address) :
    Runs s [.drain batch] { s with queue := [] } [.scan (batch ++ s.queue)] := by
  cases s with
  | mk threshold memory nextNumber current slots queue pending freed astray =>
      induction queue generalizing batch with
      | nil =>
          rw [List.append_nil]
          exact .next (.drained rfl) .done
      | cons a queue ih =>
          have rest := ih (batch ++ [a])
          rw [List.append_assoc] at rest
          exact .next (.receive rfl) rest

/-- What the slots announce is read, the newest slot first. -/
theorem collect (s : Shared) (batch : List Address) {left : Nat} (bound : left ≤ s.slots.length)
    (before : List Address) :
    ∃ announced, Runs s [.collect batch left before] s [.settle batch announced 0] ∧
      ∀ a, a ∈ announced ↔ a ∈ before ∨ ∃ x ∈ s.slots.take left, x.announced = some a := by
  induction left generalizing before with
  | zero => exact ⟨before, .next .collected .done, by simp⟩
  | succ k ih =>
      have at_k : s.slots[k]? = some s.slots[k] := List.getElem?_eq_getElem bound
      obtain ⟨announced, runs, mem⟩ := ih (Nat.le_of_succ_le bound)
        (before ++ s.slots[k].announced.toList)
      refine ⟨announced, .next (.collect at_k) runs, fun a => ?_⟩
      rw [mem, List.mem_append, Option.mem_toList, List.take_add_one, at_k]
      constructor
      · rintro ((mem | announces) | ⟨x, mem, announces⟩)
        · exact .inl mem
        · exact .inr ⟨_, List.mem_append_right _ (List.mem_singleton.mpr rfl), announces⟩
        · exact .inr ⟨x, List.mem_append_left _ mem, announces⟩
      · rintro (mem | ⟨x, mem, announces⟩)
        · exact .inl (.inl mem)
        · rcases List.mem_append.mp mem with mem | mem
          · exact .inr ⟨x, mem, announces⟩
          · obtain rfl := List.mem_singleton.mp mem
            exact .inl (.inr announces)

/-- What is not announced is freed, and the rest is sent back. -/
theorem settle {batch announced : List Address} {versions : List Version} {n : Nat}
    (represents : s.Represents c) (sound : s.Sound (.settle batch announced n :: outer))
    (seen : ∀ a, a ∈ announced ↔ ∃ x ∈ s.slots, x.announced = some a)
    (same : batch.map s.memory = versions.map fun v => some (.version v))
    (counted : n + versions.length ≤ c.pending) :
    ∃ t, Runs s [.settle batch announced n] t [] ∧ t.Represents (settled versions n c) := by
  induction batch generalizing s c versions n with
  | nil =>
      -- No more was freed than had been counted, so the subtraction does not wrap.
      obtain rfl := List.map_eq_nil_iff.mp same.symm
      have fewer : (s.pending - n.toUInt64).toNat = c.pending - n := by
        have below : n ≤ s.pending.toNat := represents.pending ▸ counted
        have small : n.toUInt64.toNat = n :=
          UInt64.toNat_ofNat_of_lt' (Nat.lt_of_le_of_lt below s.pending.toNat_lt_size)
        rw [UInt64.toNat_sub_of_le, represents.pending, small]
        rwa [UInt64.le_iff_toNat_le, small]
      rw [settled_nil, ← fewer]
      exact ⟨_, .next .settle .done, represents.requeue _ represents.queue⟩
  | cons a batch ih =>
      match versions, same with
      | v :: versions, same =>
        obtain ⟨found, same⟩ := List.cons.inj same
        have announces :=
          (seen a).trans (represents.announced_iff sound.accounted.numbered found).symm
        rw [List.length_cons] at counted
        by_cases mem : a ∈ announced
        · have access : Access s (.settle (a :: batch) announced n) (s.send a)
              [.settle batch announced n] := .defer mem
          obtain ⟨t, runs, after⟩ := ih (represents.send found) (sound.access access) seen same
            (Nat.le_trans (by omega) counted)
          rw [settled_defer (announces.mp mem)] at after
          exact ⟨t, .next access runs, after⟩
        · -- Its only owner is the scan, so that freeing it takes it from nobody else, and leaves
          -- the rest of the batch where it is.
          obtain ⟨notCurrent, unqueued, once⟩ :=
            sound.accounted.owned_once (a := a) List.mem_cons_self
          have unseen : ∀ x ∈ s.slots, x.announced ≠ some a :=
            fun x inSlots atX => mem ((seen a).mpr ⟨x, inSlots, atX⟩)
          have access : Access s (.settle (a :: batch) announced n) (s.free a)
              [.settle batch announced (n + 1)] := .reclaim mem
          have others : batch.map (s.free a).memory =
              versions.map fun v => some (.version v) := by
            rw [← same, Shared.free_memory]
            refine List.map_congr_left fun b inBatch => Shared.write_other ?_ s none
            rintro rfl
            rw [Frame.owns, List.count_cons_self] at once
            exact List.count_eq_zero.mp (Nat.succ.inj once) inBatch
          obtain ⟨t, runs, after⟩ := ih (represents.reclaim found notCurrent unqueued unseen)
            (sound.access access) (by rwa [Shared.free_slots]) others
            (Nat.le_trans (by omega) counted)
          rw [settled_reclaim (mt announces.mpr mem)] at after
          exact ⟨t, .next access runs, after⟩

/-- A scan does what `Cell.scan` does. -/
theorem scan (represents : s.Represents c) (sound : s.Sound (.drain [] :: outer))
    (counted : c.queue.length ≤ c.pending) :
    ∃ t, Runs s [.drain []] t [] ∧ t.Represents c.scan := by
  obtain ⟨announced, collected, mem⟩ := collect { s with queue := [] } s.queue
    (Nat.le_refl s.slots.length) []
  have received : Runs s [.drain []] { s with queue := [] } [.settle s.queue announced 0] :=
    (drain s []).trans (.next .scan collected)
  have nothing : [].map s.memory = ([] : List Version).map fun v => some (.version v) := rfl
  have emptied := represents.requeue s.pending nothing
  rw [represents.pending] at emptied
  obtain ⟨t, sorted, after⟩ := settle (n := 0) emptied ((received.under outer).sound sound)
    (fun a => by simpa using mem a) represents.queue (by simpa using counted)
  refine ⟨t, received.trans sorted, ?_⟩
  have scanned := after.count c.scan.counters c.scan.log
  rw [settled, Nat.zero_add] at scanned
  exact scanned

/-- Retiring a version does what `Cell.retire` does, as long as the count of waiting versions does
not overflow. -/
theorem retire (represents : s.Represents c) (sound : s.Sound (.send a :: outer))
    (counted : c.Counted) (room : c.pending + 1 < UInt64.size)
    (found : s.memory a = some (.version v)) :
    ∃ t, Runs s [.send a] t [] ∧ t.Represents (c.retire v) := by
  have more : (s.pending + 1).toNat = (c.enqueue v).pending := by
    rw [UInt64.toNat_add, represents.pending]
    exact Nat.mod_eq_of_lt room
  let waiting : Shared := { s.send a with pending := s.pending + 1 }
  have represents : waiting.Represents (c.enqueue v) := by
    have sent := (represents.send found).requeue (s.pending + 1) (represents.send found).queue
    rw [more] at sent
    exact sent.count _ _
  have sent : Runs s [.send a] waiting
      (if s.threshold ≤ (s.pending + 1).toNat then [.drain []] else []) := by
    have steps : Runs s [.send a] waiting
        ((if s.threshold ≤ (s.pending + 1).toNat then [.drain []] else []) ++ []) :=
      .next .send (.next .count .done)
    rwa [List.append_nil] at steps
  have threshold : s.threshold = c.settings.reclaimThreshold := represents.threshold
  rw [more, threshold] at sent
  rw [Cell.retire_eq]
  by_cases enough : c.settings.reclaimThreshold ≤ (c.enqueue v).pending
  · rw [if_pos enough] at sent
    have counted := counted.enqueue v
    obtain ⟨t, scanned, after⟩ := scan represents ((sent.under outer).sound sound)
      (Nat.le_of_eq counted.pending.symm)
    rw [if_pos enough]
    exact ⟨t, sent.trans scanned, after⟩
  · rw [if_neg enough] at sent
    rw [if_neg enough]
    exact ⟨waiting, sent, represents⟩

/-! ### Publishing -/

/-- A store or a swap does what `Cell.replace` does. -/
theorem replace (represents : s.Represents c) (value : Integer)
    (sound : s.Sound (.allocateNew value :: outer)) (accounted : c.Accounted)
    (room : c.nextNumber < UInt64.size) :
    ∃ t, Runs s [.allocateNew value] t [] ∧ t.Represents (c.replace value).2 := by
  obtain ⟨a, empty⟩ := sound.accounted.exists_empty
  obtain ⟨published, found⟩ := represents.publish empty value
  have exchanged : Runs s [.allocateNew value] ((s.allocate a value).install a)
      [.send s.current] :=
    .next (.allocateNew empty) (.next .exchange (.next (.copyOld found) .done))
  obtain ⟨t, retired, after⟩ := retire published ((exchanged.under outer).sound sound)
    ⟨accounted.counted.pending, accounted.counted.retired⟩
    (Nat.lt_of_le_of_lt accounted.pending_lt room) found
  exact ⟨t, exchanged.trans retired, after⟩

/-- The end of an attempt does what `Cell.conclude` does. -/
theorem conclude (represents : s.Represents c) {kept : Kept}
    (sound : s.Sound (.compute k kept :: outer)) (accounted : c.Accounted) (attempt : Nat)
    (verdict : Verdict) (room : c.nextNumber < UInt64.size) :
    ∃ t, Runs s [.compute k kept] t
        (match (c.conclude k attempt kept.version verdict).1 with
          | some _ => []
          | none => [.read .update k (some kept)]) ∧
      t.Represents (c.conclude k attempt kept.version verdict).2 := by
  have protects : Frame.Protects (.compute k kept) k kept := ⟨rfl, rfl⟩
  have present := (sound.guarded.serves _ List.mem_cons_self).present k kept protects
  have declined : Runs s [.compute k kept] ((s.announce k none).setActive k false) [] :=
    .next (.stop present) (release s k kept none)
  cases verdict with
  | decline => exact ⟨_, declined, represents.release k⟩
  | fail cause => exact ⟨_, declined, represents.release k⟩
  | install value =>
      obtain ⟨a, empty⟩ := sound.accounted.exists_empty
      have computed : Runs s [.compute k kept] (s.allocate a value)
          [.compareSwap k kept kept.version a] :=
        .next (.compute value present) (.next (.allocate empty) .done)
      let tried : Cell :=
        { c with counters := { c.counters with casAttempts := c.counters.casAttempts + 1 } }
      have represents : s.Represents tried := represents.count _ _
      have same : s.current = kept.address ↔ tried.current.number = kept.version.number :=
        represents.current_iff sound.accounted.numbered present
      -- Memory compares addresses where a cell compares numbers.
      by_cases won : s.current = kept.address
      · have ending : c.conclude k attempt kept.version (.install value) =
            (some (.installed kept.version.value value),
              ((tried.publish value).release k).retire kept.version) := by
          simp only [Cell.conclude, Cell.compareSwap]
          rw [if_pos (same.mp won)]
          rfl
        obtain ⟨published, found⟩ := represents.publish empty value
        have isCurrent : tried.current = kept.version := by
          rw [← won] at present
          exact Content.version.inj (Option.some.inj (represents.current.symm.trans present))
        rw [isCurrent, won] at found
        have installed := computed.trans <|
          .next (.won won) (.next (.copyReplaced found) (release _ k kept (some kept.address)))
        obtain ⟨t, retired, after⟩ := retire (published.release k)
          ((installed.under outer).sound sound)
          ⟨accounted.counted.pending, accounted.counted.retired⟩
          (Nat.lt_of_le_of_lt accounted.pending_lt room) found
        rw [ending]
        exact ⟨t, installed.trans retired, after⟩
      · have ending : c.conclude k attempt kept.version (.install value) =
            (none, tried.loseRace attempt) := by
          simp only [Cell.conclude, Cell.compareSwap]
          rw [if_neg (mt same.mpr won)]
          rfl
        have lost := computed.trans (.next (.lost won) (.next .discard .done))
        rw [ending]
        exact ⟨_, lost,
          ((represents.allocate empty value).discard (Shared.write_self s a _)).count _ _⟩

end Runs

/-! ### Programs -/

end Threads

namespace CellOp

/-- What kind of operation it is. -/
def operation : CellOp → Threads.Operation
  | .load => .load
  | .replace value => .swap value
  | .update _ => .update

end CellOp

namespace Closure

/-- How the first attempt of an update ends, if its closure is called on the cell. -/
def firstAttempt (body : Integer → Body) (slot attempt : Nat) (c : Cell) : Option Outcome × Cell :=
  let called := (body c.current.value).run (c.protect slot)
  called.cell.conclude slot attempt c.current called.verdict

section Attempt

variable {body : Integer → Body} {slot attempt : Nat} {c : Cell}

theorem cell_of_ended {outcome : Outcome}
    (ended : (firstAttempt body slot attempt c).1 = some outcome) (rest : Closure) :
    ((Closure.call body rest).run slot attempt c).cell = (firstAttempt body slot attempt c).2 := by
  simp only [firstAttempt] at ended
  simp only [Closure.run, Cell.protect_current, ended, firstAttempt]

/-- An update that has lost a race goes on with the rest of its calls. -/
theorem cell_of_lost (lost : (firstAttempt body slot attempt c).1 = none) (rest : Closure) :
    ((Closure.call body rest).run slot attempt c).cell =
      (rest.run slot (Cell.nextAttempt attempt) (firstAttempt body slot attempt c).2).cell := by
  simp only [firstAttempt] at lost
  simp only [Closure.run, Cell.protect_current, lost, firstAttempt]

theorem firstAttempt_le_nextNumber (body : Integer → Body) (rest : Closure) (slot attempt : Nat)
    (c : Cell) : (firstAttempt body slot attempt c).2.nextNumber ≤
      ((Closure.call body rest).run slot attempt c).cell.nextNumber := by
  cases ending : (firstAttempt body slot attempt c).1 with
  | some outcome => exact Nat.le_of_eq (congrArg Cell.nextNumber (cell_of_ended ending rest).symm)
  | none =>
      rw [cell_of_lost ending]
      exact rest.le_nextNumber slot (Cell.nextAttempt attempt) _

end Attempt

end Closure

namespace Threads

mutual

/-- A thread that is not interrupted does what `CellOp.run` does. -/
theorem runs_op (op : CellOp) {s : Shared} {c : Cell} {outer : List Frame}
    (represents : s.Represents c) (accounted : c.Accounted) (sound : s.Sound outer)
    (room : (op.run c).2.nextNumber < UInt64.size) :
    ∃ t, Runs s [op.operation.frame] t [] ∧ t.Represents (op.run c).2 := by
  have bound := Nat.lt_of_le_of_lt (op.le_nextNumber c) room
  cases op with
  | load => exact Runs.load represents
  | replace value =>
      exact Runs.replace represents value (sound.begin (.swap value)) accounted bound
  | update closure =>
      obtain ⟨t, acquired, taken⟩ := Runs.acquire represents .update
      obtain ⟨u, done, after⟩ := runs_closure closure c.acquire.1 0 none taken accounted.acquire
        ((acquired.under outer).sound (sound.begin .update)) room
      exact ⟨u, acquired.trans done, after⟩

/-- An update that has its slot does what `Closure.run` does from an attempt on. -/
theorem runs_closure (closure : Closure) (k attempt : Nat) (kept : Option Kept) {s : Shared}
    {c : Cell} {outer : List Frame} (represents : s.Represents c) (accounted : c.Accounted)
    (sound : s.Sound (.read .update k kept :: outer))
    (room : (closure.run k attempt c).cell.nextNumber < UInt64.size) :
    ∃ t, Runs s [.read .update k kept] t [] ∧ t.Represents (closure.run k attempt c).cell := by
  have protecting := Runs.protect represents .update k kept
  have guarded := represents.protect k
  have announced := (protecting.under outer).sound sound
  have accounted : (c.protect k).Accounted := accounted.congr _ _ _ _ _
  cases closure with
  | settle verdict =>
      obtain ⟨t, concluded, after⟩ := Runs.conclude guarded announced accounted attempt
        (verdict c.current.value)
        (Nat.lt_of_le_of_lt ((Closure.settle verdict).le_nextNumber k attempt c) room)
      have same : (c.protect k).current.number = c.current.number := rfl
      obtain ⟨outcome, ends⟩ := Cell.conclude_ends k attempt (verdict c.current.value) same
      rw [ends] at concluded
      exact ⟨t, protecting.trans concluded, after⟩
  | call body rest =>
      let called := (body c.current.value).run (c.protect k)
      have bound : called.cell.nextNumber < UInt64.size :=
        Nat.lt_of_le_of_lt (Nat.le_trans (Cell.conclude_nextNumber k attempt called.verdict)
          (Closure.firstAttempt_le_nextNumber body rest k attempt c)) room
      obtain ⟨t, nested, returned⟩ := runs_body (body c.current.value) guarded accounted announced
        bound
      have computed := (nested.under outer).sound announced
      have accounted := Body.accounted (body c.current.value) accounted
      obtain ⟨u, concluded, after⟩ := Runs.conclude returned computed accounted attempt
        called.verdict bound
      have attempted := (protecting.trans nested).trans concluded
      cases ending : (Closure.firstAttempt body k attempt c).1 with
      | some outcome =>
          rw [Closure.cell_of_ended ending]
          rw [Closure.firstAttempt] at ending
          rw [ending] at attempted
          exact ⟨u, attempted, after⟩
      | none =>
          rw [Closure.cell_of_lost ending] at room ⊢
          rw [Closure.firstAttempt] at ending
          rw [ending] at attempted
          obtain ⟨v, others, last⟩ := runs_closure rest k (Cell.nextAttempt attempt) _ after
            (accounted.conclude k attempt _ called.verdict) ((attempted.under outer).sound sound)
            room
          exact ⟨v, attempted.trans others, last⟩

/-- A closure call does what `Body.run` does, and its update still protects what it did. -/
theorem runs_body (body : Body) {k : Nat} {kept : Kept} {s : Shared} {c : Cell}
    {outer : List Frame} (represents : s.Represents c) (accounted : c.Accounted)
    (sound : s.Sound (.compute k kept :: outer))
    (room : (body.run c).cell.nextNumber < UInt64.size) :
    ∃ t, Runs s [.compute k kept] t [.compute k kept] ∧ t.Represents (body.run c).cell := by
  cases body with
  | finish verdict => exact ⟨s, .done, represents⟩
  | perform op next =>
      have begun : Runs s [.compute k kept] s ([op.operation.frame] ++ [.compute k kept]) :=
        .next (.nest op.operation) .done
      obtain ⟨t, nested, later⟩ := runs_op op represents accounted sound
        (Nat.lt_of_le_of_lt ((next (op.run c).1).le_nextNumber _) room)
      obtain ⟨u, others, after⟩ := runs_body (next (op.run c).1) later (op.accounted accounted)
        ((nested.under _).sound (sound.begin op.operation)) room
      exact ⟨u, (begun.trans (nested.under _)).trans others, after⟩

end

section Reachable

variable {settings : CellSettings} {value : Integer} {threads : Nat}

/-- A thread between two operations may run a program while the others wait. -/
theorem reachable_program (program : Body) {s : Shared} {c : Cell} {running : List (List Frame)}
    {i : Nat} (reachable : Reachable settings value threads ⟨s, running⟩)
    (at_i : running[i]? = some []) (represents : s.Represents c) (accounted : c.Accounted)
    (room : (program.run c).cell.nextNumber < UInt64.size) :
    ∃ t, Reachable settings value threads ⟨t, running⟩ ∧ t.Represents (program.run c).cell := by
  cases program with
  | finish verdict => exact ⟨s, reachable, represents⟩
  | perform op next =>
      obtain ⟨bound, idle⟩ := List.getElem?_eq_some_iff.mp at_i
      obtain ⟨t, runs, later⟩ := runs_op op represents accounted reachable.sound
        (Nat.lt_of_le_of_lt ((next (op.run c).1).le_nextNumber _) room)
      have done := (reachable.turn (.begin op.operation at_i)).runs
        (List.getElem?_set_self bound) runs
      rw [List.set_set, ← idle, List.set_getElem_self] at done
      exact reachable_program (next (op.run c).1) done at_i later (op.accounted accounted) room

/-- **What a program makes of a cell is among what threads can make of it**, for any settings, any
value and any program that publishes fewer versions than a counter can count: one thread runs the
program, and the others wait. -/
theorem reachable_run (settings : CellSettings) (value : Integer) (threads : Nat)
    (some_thread : 0 < threads) (program : Body)
    (room : (program.run (Cell.create settings value)).cell.nextNumber < UInt64.size) :
    ∃ s, Reachable settings value threads s ∧ s.frames = [] ∧
      s.shared.Represents (program.run (Cell.create settings value)).cell := by
  have idle : (State.create settings value threads).threads[0]? = some [] := by
    simp [State.create, some_thread]
  obtain ⟨t, reachable, represents⟩ := reachable_program program .create idle
    (.create settings value) (.create settings value) room
  exact ⟨_, reachable, State.frames_create settings value threads, represents⟩

end Reachable

end Threads

end Bignum
