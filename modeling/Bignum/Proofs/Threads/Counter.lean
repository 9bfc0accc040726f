import Bignum.Proofs.Threads.Safety

/-!
What the counter of waiting versions says when threads share a cell.

A version is sent to the queue before it is counted, and a scan takes a version from the counter
after it has taken it from the queue. So the counter lags behind on one side and runs ahead on the
other: together with the versions that are sent and not counted yet, it says how many wait in the
queue or have been taken from it by a scan that has not settled (`counter_follows`).

A version that is sent and not counted yet can be received and freed by another thread already.
Then the scan takes more from the counter than that holds, and the counter wraps below zero
(`counter_wraps`).
-/

namespace Bignum.Threads

namespace Frame

/-- How many versions a scan has taken from the queue and not from the counter yet. -/
def taken : Frame → Nat
  | .drain batch => batch.length
  | .scan batch => batch.length
  | .collect batch _ _ => batch.length
  | .settle batch _ reclaimed => batch.length + reclaimed
  | _ => 0

/-- How many versions an operation has sent and not counted yet. -/
def uncounted : Frame → Nat
  | .count => 1
  | _ => 0

end Frame

/-- An operation that begins has taken and sent nothing. -/
theorem Operation.frame_counts (op : Operation) :
    op.frame.taken = 0 ∧ op.frame.uncounted = 0 := by
  cases op <;> exact ⟨rfl, rfl⟩

theorem Goal.frame_counts (goal : Goal) (slot : Nat) (kept : Kept) :
    (goal.frame slot kept).taken = 0 ∧ (goal.frame slot kept).uncounted = 0 := by
  cases goal <;> exact ⟨rfl, rfl⟩

/-- A number of versions, over all operations. -/
def total (number : Frame → Nat) : List Frame → Nat
  | [] => 0
  | φ :: fs => number φ + total number fs

/-- All versions that operations have sent and not counted yet. -/
def uncounted (fs : List Frame) : Nat := total Frame.uncounted fs

section Totals

variable (number : Frame → Nat)

theorem total_append (next rest : List Frame) :
    total number (next ++ rest) = total number next + total number rest := by
  induction next with
  | nil => exact (Nat.zero_add _).symm
  | cons φ fs ih => rw [List.cons_append, total, total, ih, Nat.add_assoc]

/-- It does not matter in which order the operations stand. -/
theorem total_perm {fs gs : List Frame} (perm : fs.Perm gs) :
    total number fs = total number gs := by
  induction perm with
  | nil => rfl
  | cons φ _ ih => exact congrArg (number φ + ·) ih
  | swap φ ψ fs => exact Nat.add_left_comm _ _ _
  | trans _ _ first second => exact first.trans second

end Totals

theorem uncounted_cons (φ : Frame) (rest : List Frame) :
    uncounted (φ :: rest) = φ.uncounted + uncounted rest := rfl

theorem uncounted_append (next rest : List Frame) :
    uncounted (next ++ rest) = uncounted next + uncounted rest :=
  total_append Frame.uncounted next rest

theorem uncounted_perm {fs gs : List Frame} (perm : fs.Perm gs) : uncounted fs = uncounted gs :=
  total_perm Frame.uncounted perm

namespace Shared

/-- The versions in the queue, and those that scans have taken from it and not from the counter. -/
def waiting (s : Shared) (fs : List Frame) : Nat := s.queue.length + total Frame.taken fs

/-- The counter and the versions that are not counted yet make up those that wait, as far as 64 bits
can tell. -/
def Follows (s : Shared) (fs : List Frame) : Prop :=
  (s.pending.toNat + uncounted fs) % UInt64.size = s.waiting fs % UInt64.size

section Waiting

variable (s : Shared) (φ : Frame) (next rest : List Frame)

theorem waiting_cons : s.waiting (φ :: rest) = φ.taken + s.waiting rest :=
  Nat.add_left_comm _ _ _

theorem waiting_append : s.waiting (next ++ rest) = total Frame.taken next + s.waiting rest := by
  rw [waiting, total_append]
  exact Nat.add_left_comm _ _ _

theorem waiting_perm {fs gs : List Frame} (perm : fs.Perm gs) : s.waiting fs = s.waiting gs :=
  congrArg (s.queue.length + ·) (total_perm Frame.taken perm)

theorem free_queue (s : Shared) (a : Address) : (s.free a).queue = s.queue := by
  unfold free
  split <;> rfl

theorem free_pending (s : Shared) (a : Address) : (s.free a).pending = s.pending := by
  unfold free
  split <;> rfl

theorem install_queue (s : Shared) (a : Address) : (s.install a).queue = s.queue := by
  unfold install
  split <;> rfl

theorem install_pending (s : Shared) (a : Address) : (s.install a).pending = s.pending := by
  unfold install
  split <;> rfl

end Waiting

namespace Follows

variable {s t : Shared} {φ ψ : Frame} {fs gs next rest : List Frame}

theorem create (settings : CellSettings) (value : Integer) :
    (Shared.create settings value).Follows [] := rfl

theorem perm (follows : s.Follows fs) (perm : fs.Perm gs) : s.Follows gs := by
  rw [Follows, ← uncounted_perm perm, ← waiting_perm s perm]
  exact follows

theorem begin (follows : s.Follows fs) (op : Operation) : s.Follows (op.frame :: fs) := by
  obtain ⟨taken, unsent⟩ := op.frame_counts
  rw [Follows, uncounted_cons, waiting_cons, taken, unsent, Nat.zero_add, Nat.zero_add]
  exact follows

/-- An access that leaves the counter alone may hand versions over, between the queue and the
operation or from those that wait to those that are not counted. -/
theorem handOver (follows : s.Follows (φ :: rest)) (pending : t.pending = s.pending)
    (kept : t.queue.length + total Frame.taken next + φ.uncounted =
      s.queue.length + φ.taken + uncounted next) : t.Follows (next ++ rest) := by
  have before := follows
  rw [Follows, uncounted_cons, waiting_cons] at before
  rw [Follows, uncounted_append, waiting_append, pending]
  simp only [waiting, UInt64.size] at before ⊢
  omega

/-- Counting a version that was sent. A scan may follow, which has taken nothing yet. -/
theorem count (follows : s.Follows (.count :: rest))
    (quiet : total Frame.taken next = 0 ∧ uncounted next = 0) :
    { s with pending := s.pending + 1 : Shared }.Follows (next ++ rest) := by
  have before := follows
  rw [Follows, uncounted_cons, waiting_cons] at before
  rw [Follows, uncounted_append, waiting_append, quiet.1, quiet.2, UInt64.toNat_add]
  simp only [waiting, Frame.uncounted, Frame.taken, UInt64.size, UInt64.toNat_one] at before ⊢
  omega

/-- The end of a scan takes from the counter what the scan has freed. -/
theorem settle {announced : List Address} {n : Nat}
    (follows : s.Follows (.settle [] announced n :: rest)) :
    { s with pending := s.pending - n.toUInt64 : Shared }.Follows rest := by
  have before := follows
  rw [Follows, uncounted_cons, waiting_cons] at before
  have held : n.toUInt64.toNat = n % 18446744073709551616 := UInt64.toNat_ofNat'
  rw [Follows, UInt64.toNat_sub, held]
  simp only [waiting, Frame.uncounted, Frame.taken, UInt64.size, List.length_nil] at before ⊢
  omega

/-- **Every access keeps the counter with the versions that wait.** -/
theorem access (follows : s.Follows (φ :: rest)) (access : Access s φ t next) :
    t.Follows (next ++ rest) := by
  -- Most accesses leave the counter, the queue and what is taken from it as they are.
  have quiet {t : Shared} {next : List Frame} (pending : t.pending = s.pending)
      (queue : t.queue = s.queue) (taken : total Frame.taken next = φ.taken)
      (unsent : uncounted next = φ.uncounted) : t.Follows (next ++ rest) :=
    follows.handOver pending (by rw [queue, taken, unsent])
  cases access with
  | seek | busy | idle | claim | beaten | exhausted | link | relink | read | announce | moved
  | copy | compute | stop | lost | copyReplaced | clear | copyOld | allocate | allocateNew
  | drained | scan | collect | collected | stray =>
      exact quiet rfl rfl (Nat.add_zero _) (Nat.add_zero _)
  | won | exchange =>
      exact quiet (install_pending _ _) (install_queue _ _) (Nat.add_zero _) (Nat.add_zero _)
  | discard =>
      exact quiet (free_pending _ _) (free_queue _ _) (Nat.add_zero _) (Nat.add_zero _)
  | @validate goal k v found =>
      obtain ⟨taken, unsent⟩ := goal.frame_counts k ⟨s.current, v⟩
      exact quiet rfl rfl taken unsent
  | nest op => exact follows.begin op
  | @release k replaced =>
      exact quiet rfl rfl (by cases replaced <;> rfl) (by cases replaced <;> rfl)
  | count => exact follows.count (by split <;> exact ⟨rfl, rfl⟩)
  | settle => exact follows.settle
  | send =>
      refine follows.handOver rfl ?_
      show (s.queue ++ [_]).length + 0 + 0 = s.queue.length + 0 + 1
      rw [List.length_append, List.length_singleton]
  | @receive a waiting batch head =>
      refine follows.handOver rfl ?_
      show waiting.length + (batch ++ [a]).length + 0 = s.queue.length + batch.length + 0
      rw [head, List.length_append, List.length_singleton, List.length_cons]
      omega
  | @defer a batch announced n seen =>
      refine follows.handOver rfl ?_
      show (s.queue ++ [a]).length + (batch.length + n) + 0 =
        s.queue.length + ((a :: batch).length + n) + 0
      rw [List.length_append, List.length_singleton, List.length_cons]
      omega
  | @reclaim a batch announced n unseen =>
      refine follows.handOver (free_pending _ _) ?_
      rw [free_queue]
      show s.queue.length + (batch.length + (n + 1)) + 0 =
        s.queue.length + ((a :: batch).length + n) + 0
      rw [List.length_cons]
      omega

end Follows

end Shared

/-! ### Reachable states -/

/-- Some thread continues so in its next turn. -/
def State.AboutTo (s : State) (φ : Frame) : Prop :=
  ∃ (i : Nat) (outer : List Frame), s.threads[i]? = some (φ :: outer)

section Reachable

variable {settings : CellSettings} {value : Integer} {threads : Nat} {s : State}

/-- **In every interleaving the counter follows the versions that wait.** -/
theorem Reachable.follows (reachable : Reachable settings value threads s) :
    s.shared.Follows s.frames := by
  induction reachable with
  | create =>
      rw [State.frames_create]
      exact .create settings value
  | turn _ turn follows =>
      exact turn.keeps (P := Shared.Follows) Shared.Follows.perm
        (fun op follows => follows.begin op) (fun follows access => follows.access access) follows

/-- What one thread has taken or sent is among what all have. -/
theorem State.AboutTo.le {φ : Frame} (next : s.AboutTo φ) :
    φ.taken ≤ s.shared.waiting s.frames ∧ φ.uncounted ≤ uncounted s.frames := by
  obtain ⟨i, outer, at_i⟩ := next
  have perm := flatten_perm at_i
  rw [State.frames, Shared.waiting_perm s.shared perm, uncounted_perm perm, List.cons_append,
    Shared.waiting_cons, uncounted_cons]
  exact ⟨Nat.le_add_right _ _, Nat.le_add_right _ _⟩

/-- **What the counter says of the versions that wait.** Take any settings, any value, any number of
threads, and any state that their turns lead to. Up to what 64 bits can tell, the counter and the
versions that are sent and not counted yet make up those that wait in the queue or that a scan has
taken from it. As long as no more are sent and not counted than wait, the counter is exact, counting
another does not overflow, and a scan takes more from the counter than it holds exactly if more
versions are sent and not counted than wait besides those that the scan has freed. -/
theorem counter_follows (reachable : Reachable settings value threads s) :
    (s.shared.pending.toNat + uncounted s.frames) % UInt64.size =
        s.shared.waiting s.frames % UInt64.size ∧
      (s.shared.waiting s.frames < UInt64.size → uncounted s.frames ≤ s.shared.waiting s.frames →
        s.shared.pending.toNat = s.shared.waiting s.frames - uncounted s.frames ∧
          (s.AboutTo .count → s.shared.pending.toNat + 1 < UInt64.size) ∧
          ∀ announced reclaimed, s.AboutTo (.settle [] announced reclaimed) →
            (s.shared.pending.toNat < reclaimed ↔
              s.shared.waiting s.frames - reclaimed < uncounted s.frames)) := by
  have follows : (s.shared.pending.toNat + uncounted s.frames) % UInt64.size =
    s.shared.waiting s.frames % UInt64.size := reachable.follows
  refine ⟨follows, fun room behind => ?_⟩
  have bound := s.shared.pending.toNat_lt_size
  have exact : s.shared.pending.toNat = s.shared.waiting s.frames - uncounted s.frames := by
    simp only [UInt64.size] at follows room bound
    omega
  refine ⟨exact, fun next => ?_, fun announced reclaimed next => ?_⟩
  · have sent : 1 ≤ uncounted s.frames := next.le.2
    omega
  · have taken : 0 + reclaimed ≤ s.shared.waiting s.frames := next.le.1
    omega

end Reachable

/-! ### A version that is freed before it is counted -/

/-- Settings with which a scan is made for every version. -/
def eager : CellSettings := { reclaimThreshold := 1, initialSlots := 1, warnRetries := 1 }

/-- Two threads swap. The first one has sent the version that it replaced and is about to count it.
The second one has sent and counted another, has received both, and has freed them. -/
def raced : State :=
  let first := ((Shared.create eager .zero).allocate 1 .one).install 1
  let second := ((first.send 0).allocate 2 .minusOne).install 2
  let received : Shared := { second with queue := [], pending := 1 }
  { shared := (received.free 0).free 1, threads := [[.count], [.settle [] [] 2]] }

theorem reachable_raced : Reachable eager .zero 2 raced := by
  let first := ((Shared.create eager .zero).allocate 1 .one).install 1
  let second := ((first.send 0).allocate 2 .minusOne).install 2
  have sent : Runs (.create eager .zero) [.allocateNew .one] (first.send 0) [.count] :=
    .next (.allocateNew rfl) <| .next .exchange <| .next (.copyOld rfl) <| .next .send .done
  have sentToo : Runs (first.send 0) [.allocateNew .minusOne] (second.send 1) [.count] :=
    .next (.allocateNew rfl) <| .next .exchange <| .next (.copyOld rfl) <| .next .send .done
  have scanned : Runs (second.send 1) [.count] raced.shared [.settle [] [] 2] :=
    .next .count <| .next (.receive rfl) <| .next (.receive rfl) <| .next (.drained rfl) <|
      .next .scan <| .next (.collect rfl) <| .next .collected <|
      .next (.reclaim List.not_mem_nil) <| .next (.reclaim List.not_mem_nil) .done
  have started : Reachable eager .zero 2 ⟨.create eager .zero, [[.allocateNew .one], []]⟩ :=
    Reachable.create.turn (.begin (i := 0) (.swap .one) rfl)
  have one := started.runs (i := 0) rfl sent
  have both := one.turn (.begin (i := 1) (.swap .minusOne) rfl)
  exact both.runs (i := 1) rfl (sentToo.trans scanned)

/-- The scan takes two from a counter that holds one. -/
theorem counter_follows_raced :
    Reachable eager .zero 2 raced ∧ raced.shared.waiting raced.frames < UInt64.size ∧
      uncounted raced.frames ≤ raced.shared.waiting raced.frames ∧
      raced.shared.pending.toNat < 2 := by
  have room : raced.shared.waiting raced.frames < UInt64.size := by decide
  have behind : uncounted raced.frames ≤ raced.shared.waiting raced.frames := by decide
  obtain ⟨-, below⟩ := counter_follows reachable_raced
  obtain ⟨-, -, overdrawn⟩ := below room behind
  exact ⟨reachable_raced, room, behind, (overdrawn [] 2 ⟨1, [], rfl⟩).mpr Nat.zero_lt_one⟩

/-- **The counter can wrap below zero**: the scan takes two from a counter that holds one. The
counter is the largest number of 64 bits then, although nothing waits, and the first thread is about
to add one to it. -/
theorem counter_wraps :
    eager.check = .ok () ∧ ∃ s t : State, Reachable eager .zero 2 s ∧ Turn s t ∧
      s.AboutTo (.settle [] [] 2) ∧ s.shared.pending = 1 ∧
      t.AboutTo .count ∧ t.shared.queue = [] ∧ t.shared.pending.toNat + 1 = UInt64.size :=
  ⟨rfl, raced, _, reachable_raced, .access (i := 1) rfl .settle, ⟨1, [], rfl⟩, rfl, ⟨0, [], rfl⟩,
    rfl, rfl⟩

end Bignum.Threads
