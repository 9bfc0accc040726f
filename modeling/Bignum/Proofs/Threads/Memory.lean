import Bignum.Cell.Threads
import Mathlib.Data.Fintype.EquivFin
import Mathlib.Data.List.Basic

/-!
Who is to free what, when threads share a cell.

Every version has exactly one owner: the cell itself if it is current, the queue, or an operation
that has unlinked or received it; and every candidate has the operation that has allocated it
(`Shared.Accounted`). Accesses hand addresses from one owner to another (`Accounted.handOver`),
and only allocating, installing and freeing change what lies in memory. Hence no access frees a
version twice or finds nothing where it looks, in whatever order the accesses are made
(`Accounted.access`).
-/

namespace Bignum.Threads

namespace Frame

/-- The versions that an operation has to retire or free. -/
def owns : Frame → List Address
  | .copyReplaced _ kept => [kept.address]
  | .clear _ _ replaced => replaced.toList
  | .release _ replaced => replaced.toList
  | .copyOld replaced => [replaced]
  | .send replaced => [replaced]
  | .drain batch => batch
  | .scan batch => batch
  | .collect batch _ _ => batch
  | .settle batch _ _ => batch
  | _ => []

/-- The candidate that an operation has to install or free. -/
def drafts : Frame → List Address
  | .compareSwap _ _ _ candidate => [candidate]
  | .discard _ _ candidate => [candidate]
  | .exchange candidate => [candidate]
  | _ => []

end Frame

/-- An operation that begins owns nothing. -/
theorem Operation.frame_owns (op : Operation) : op.frame.owns = [] ∧ op.frame.drafts = [] := by
  cases op <;> exact ⟨rfl, rfl⟩

/-- An operation that has just protected a version owns nothing. -/
theorem Goal.frame_owns (goal : Goal) (slot : Nat) (kept : Kept) :
    (goal.frame slot kept).owns = [] ∧ (goal.frame slot kept).drafts = [] := by
  cases goal <;> exact ⟨rfl, rfl⟩

namespace Shared

/-- How many owners a version at an address has. -/
def owners (s : Shared) (fs : List Frame) (a : Address) : Nat :=
  [s.current].count a + s.queue.count a + (fs.flatMap Frame.owns).count a

/-- How many owners a candidate at an address has. -/
def authors (fs : List Frame) (a : Address) : Nat := (fs.flatMap Frame.drafts).count a

/-- What lies at an address, and how many owners it has there as a version and as a candidate. -/
def Fits : Option Content → (owners authors : Nat) → Prop
  | none, owners, authors => owners = 0 ∧ authors = 0
  | some (.candidate _), owners, authors => owners = 0 ∧ authors = 1
  | some (.version _), owners, authors => owners = 1 ∧ authors = 0

/-- Versions have numbers of their own, and those that have been freed are in memory no more. -/
structure Numbered (s : Shared) : Prop where
  bound : ∀ a v, s.memory a = some (.version v) → v.number < s.nextNumber ∧ v.number ∉ s.freed
  apart : ∀ a b v w, s.memory a = some (.version v) → s.memory b = some (.version w) →
    v.number = w.number → a = b
  freedOnce : s.freed.Nodup
  freedBound : ∀ n ∈ s.freed, n < s.nextNumber

/-- The accounts of the memory. -/
structure Accounted (s : Shared) (fs : List Frame) : Prop where
  fits : ∀ a, Fits (s.memory a) (s.owners fs a) (authors fs a)
  numbered : s.Numbered
  straight : s.astray = false

variable {s t : Shared} {φ ψ : Frame} {fs gs next rest : List Frame} {a b : Address}

/-! ### Counting owners -/

theorem owners_cons (s : Shared) (φ : Frame) (rest : List Frame) (a : Address) :
    s.owners (φ :: rest) a = s.owners rest a + φ.owns.count a := by
  simp only [owners, List.flatMap_cons, List.count_append]
  omega

theorem authors_append (next rest : List Frame) (a : Address) :
    authors (next ++ rest) a = authors rest a + (next.flatMap Frame.drafts).count a := by
  simp only [authors, List.flatMap_append, List.count_append]
  omega

theorem authors_cons (φ : Frame) (rest : List Frame) (a : Address) :
    authors (φ :: rest) a = authors rest a + φ.drafts.count a := by
  simp only [authors, List.flatMap_cons, List.count_append]
  omega

theorem count_self (a : Address) : [a].count a = 1 := by simp

theorem count_other (other : b ≠ a) : [a].count b = 0 := by simp [other.symm]

theorem write_self (s : Shared) (a : Address) (content : Option Content) :
    (s.write a content).memory a = content := if_pos rfl

theorem write_other (other : b ≠ a) (s : Shared) (content : Option Content) :
    (s.write a content).memory b = s.memory b := if_neg other

theorem write_none_of_empty (empty : s.memory a = none) : (s.write a none).memory = s.memory := by
  funext b
  by_cases same : b = a
  · rw [same, write_self, empty]
  · exact write_other same s none

theorem free_memory (s : Shared) (a : Address) : (s.free a).memory = (s.write a none).memory := by
  unfold free
  split
  · rfl
  · rfl
  · rename_i empty
    exact (write_none_of_empty empty).symm

theorem install_memory (s : Shared) (a : Address) :
    ∃ content, (s.install a).memory = (s.write a content).memory := by
  unfold install
  split
  · exact ⟨_, rfl⟩
  · rename_i empty
    exact ⟨none, (write_none_of_empty empty).symm⟩

theorem free_slots (s : Shared) (a : Address) : (s.free a).slots = s.slots := by
  unfold free
  split <;> rfl

theorem install_slots (s : Shared) (a : Address) : (s.install a).slots = s.slots := by
  unfold install
  split <;> rfl

theorem Fits.version {content : Option Content} {owners authors : Nat}
    (fits : Fits content owners authors) (owned : 0 < owners) :
    ∃ v, content = some (.version v) := by
  match content, fits with
  | none, ⟨zero, _⟩ => omega
  | some (.candidate _), ⟨zero, _⟩ => omega
  | some (.version v), _ => exact ⟨v, rfl⟩

theorem Fits.candidate {content : Option Content} {owners authors : Nat}
    (fits : Fits content owners authors) (owned : 0 < authors) :
    ∃ x, content = some (.candidate x) := by
  match content, fits with
  | none, ⟨_, zero⟩ => omega
  | some (.candidate x), _ => exact ⟨x, rfl⟩
  | some (.version _), ⟨_, zero⟩ => omega

/-! ### Numbers -/

namespace Numbered

/-- No version is new. -/
theorem mono (numbered : s.Numbered) (nextNumber : t.nextNumber = s.nextNumber)
    (freed : t.freed = s.freed)
    (memory : ∀ a v, t.memory a = some (.version v) → s.memory a = some (.version v)) :
    t.Numbered where
  bound := by
    intro a v found
    rw [nextNumber, freed]
    exact numbered.bound a v (memory a v found)
  apart := fun a b v w atA atB => numbered.apart a b v w (memory a v atA) (memory b w atB)
  freedOnce := freed ▸ numbered.freedOnce
  freedBound := by
    rw [nextNumber, freed]
    exact numbered.freedBound

/-- Versions that are in memory after a write, unless it is the one that was written. -/
theorem version_write {content : Option Content} {v : Version}
    (found : (s.write a content).memory b = some (.version v)) :
    b = a ∧ content = some (.version v) ∨ b ≠ a ∧ s.memory b = some (.version v) := by
  by_cases same : b = a
  · rw [same, write_self] at found
    exact .inl ⟨same, found⟩
  · rw [write_other same] at found
    exact .inr ⟨same, found⟩

theorem install (numbered : s.Numbered) (a : Address) (value : Integer) :
    { s.write a (some (.version { number := s.nextNumber, value := value })) with
      current := a
      nextNumber := s.nextNumber + 1 : Shared }.Numbered where
  bound := by
    intro b v found
    rcases version_write found with ⟨-, same⟩ | ⟨-, found⟩
    · cases same
      exact ⟨Nat.lt_succ_self _, fun mem => Nat.lt_irrefl _ (numbered.freedBound _ mem)⟩
    · obtain ⟨bound, unfreed⟩ := numbered.bound b v found
      exact ⟨Nat.lt_succ_of_lt bound, unfreed⟩
  apart := by
    intro b c v w atB atC same
    rcases version_write atB with ⟨isA, isNew⟩ | ⟨-, atB⟩
    · rcases version_write atC with ⟨isAToo, -⟩ | ⟨-, atC⟩
      · rw [isA, isAToo]
      · cases isNew
        exact absurd same (Nat.ne_of_gt (numbered.bound c w atC).1)
    · rcases version_write atC with ⟨-, isNew⟩ | ⟨-, atC⟩
      · cases isNew
        exact absurd same (Nat.ne_of_lt (numbered.bound b v atB).1)
      · exact numbered.apart b c v w atB atC same
  freedOnce := numbered.freedOnce
  freedBound := fun n mem => Nat.lt_succ_of_lt (numbered.freedBound n mem)

theorem free (numbered : s.Numbered) {v : Version} (found : s.memory a = some (.version v)) :
    { s.write a none with freed := s.freed ++ [v.number] : Shared }.Numbered := by
  obtain ⟨bound, unfreed⟩ := numbered.bound a v found
  have before {b : Address} {w : Version}
      (atB : (s.write a none).memory b = some (.version w)) :
      b ≠ a ∧ s.memory b = some (.version w) :=
    (version_write atB).resolve_left fun same => nomatch same.2
  constructor
  · intro b w atB
    obtain ⟨other, atB⟩ := before atB
    obtain ⟨boundB, unfreedB⟩ := numbered.bound b w atB
    refine ⟨boundB, fun mem => ?_⟩
    rcases List.mem_append.mp mem with mem | mem
    · exact unfreedB mem
    · exact other (numbered.apart b a w v atB found (List.mem_singleton.mp mem))
  · intro b c w x atB atC
    exact numbered.apart b c w x (before atB).2 (before atC).2
  · refine List.nodup_append.mpr ⟨numbered.freedOnce, List.pairwise_singleton _ _, ?_⟩
    intro n mem m single same
    exact unfreed (List.mem_singleton.mp single ▸ same ▸ mem)
  · intro n mem
    rcases List.mem_append.mp mem with mem | mem
    · exact numbered.freedBound n mem
    · exact List.mem_singleton.mp mem ▸ bound

end Numbered

/-! ### Accounts -/

namespace Accounted

theorem create (settings : CellSettings) (value : Integer) :
    (Shared.create settings value).Accounted [] := by
  have empty {a : Address} (later : a ≠ 0) : (Shared.create settings value).memory a = none :=
    if_neg later
  have only {a : Address} {v : Version}
      (found : (Shared.create settings value).memory a = some (.version v)) :
      a = 0 ∧ v.number = 0 := by
    by_cases first : a = 0
    · rw [first] at found
      cases found
      exact ⟨first, rfl⟩
    · rw [empty first] at found
      cases found
  refine ⟨fun a => ?_, ⟨?_, ?_, List.nodup_nil, fun _ mem => (List.not_mem_nil mem).elim⟩, rfl⟩
  · by_cases first : a = 0
    · rw [first]
      exact ⟨rfl, rfl⟩
    · rw [empty first]
      exact ⟨by simp [Shared.owners, Shared.create, Ne.symm first], rfl⟩
  · intro a v found
    refine ⟨?_, List.not_mem_nil⟩
    rw [(only found).2]
    exact Nat.zero_lt_one
  · intro a b v w atA atB _
    rw [(only atA).1, (only atB).1]

theorem perm (accounted : s.Accounted fs) (perm : fs.Perm gs) : s.Accounted gs := by
  have owners (a : Address) : s.owners fs a = s.owners gs a := by
    simp only [Shared.owners, (perm.flatMap_right Frame.owns).count_eq a]
  have authors (a : Address) : Shared.authors fs a = Shared.authors gs a :=
    (perm.flatMap_right Frame.drafts).count_eq a
  exact { accounted with fits := fun a => owners a ▸ authors a ▸ accounted.fits a }

theorem current_version (accounted : s.Accounted fs) :
    ∃ v, s.memory s.current = some (.version v) := by
  refine (accounted.fits s.current).version ?_
  simp only [owners, count_self]
  omega

/-- Memory is never full. -/
theorem exists_empty (accounted : s.Accounted fs) : ∃ a, s.memory a = none := by
  obtain ⟨a, unused⟩ := Infinite.exists_notMem_finset
    ([s.current] ++ s.queue ++ fs.flatMap Frame.owns ++ fs.flatMap Frame.drafts).toFinset
  simp only [List.mem_toFinset, List.mem_append, not_or] at unused
  obtain ⟨⟨⟨notCurrent, unqueued⟩, unowned⟩, undrafted⟩ := unused
  have fits := accounted.fits a
  rw [owners, authors, List.count_eq_zero.mpr notCurrent, List.count_eq_zero.mpr unqueued,
    List.count_eq_zero.mpr unowned, List.count_eq_zero.mpr undrafted] at fits
  refine ⟨a, ?_⟩
  match s.memory a, fits with
  | none, _ => rfl

/-- No operation owns the current version. -/
theorem current_unowned (accounted : s.Accounted fs) (mem : φ ∈ fs) :
    s.current ∉ φ.owns ∧ s.current ∉ φ.drafts := by
  obtain ⟨v, found⟩ := accounted.current_version
  have fits := accounted.fits s.current
  rw [found] at fits
  obtain ⟨owners, authors⟩ := fits
  simp only [Shared.owners, count_self] at owners
  constructor
  · intro owns
    have positive := List.count_pos_iff.mpr (List.mem_flatMap.mpr ⟨φ, mem, owns⟩)
    omega
  · intro drafts
    have positive := List.count_pos_iff.mpr (List.mem_flatMap.mpr ⟨φ, mem, drafts⟩)
    rw [Shared.authors] at authors
    omega

/-- What an operation owns is a version. -/
theorem owned_version (accounted : s.Accounted (φ :: rest)) (mem : a ∈ φ.owns) :
    ∃ v, s.memory a = some (.version v) := by
  refine (accounted.fits a).version ?_
  rw [owners_cons]
  exact Nat.lt_of_lt_of_le (List.count_pos_iff.mpr mem) (Nat.le_add_left _ _)

/-- What an operation owns has no other owner. -/
theorem owned_once (accounted : s.Accounted (φ :: rest)) (mem : a ∈ φ.owns) :
    a ≠ s.current ∧ a ∉ s.queue ∧ φ.owns.count a = 1 := by
  obtain ⟨v, found⟩ := accounted.owned_version mem
  have fits := accounted.fits a
  rw [found, owners_cons] at fits
  obtain ⟨owners, -⟩ := fits
  rw [Shared.owners] at owners
  have positive := List.count_pos_iff.mpr mem
  refine ⟨?_, List.count_eq_zero.mp (by omega), by omega⟩
  rintro rfl
  rw [count_self] at owners
  omega

/-- What an operation has allocated is a candidate. -/
theorem drafted_candidate (accounted : s.Accounted (φ :: rest)) (mem : a ∈ φ.drafts) :
    ∃ x, s.memory a = some (.candidate x) := by
  refine (accounted.fits a).candidate ?_
  rw [authors_cons]
  exact Nat.lt_of_lt_of_le (List.count_pos_iff.mpr mem) (Nat.le_add_left _ _)

theorem begin (accounted : s.Accounted fs) (op : Operation) : s.Accounted (op.frame :: fs) := by
  obtain ⟨owns, drafts⟩ := op.frame_owns
  refine { accounted with fits := fun a => ?_ }
  rw [owners_cons, authors_cons, owns, drafts]
  exact accounted.fits a

/-- An operation, the cell and the queue hand versions to each other. -/
theorem handOver (accounted : s.Accounted (φ :: rest)) (slots : List Slot) (queue : List Address)
    (pending : UInt64)
    (owns : ∀ a, queue.count a + (next.flatMap Frame.owns).count a =
      s.queue.count a + φ.owns.count a)
    (drafts : next.flatMap Frame.drafts = φ.drafts) :
    { s with slots := slots, queue := queue, pending := pending : Shared
      }.Accounted (next ++ rest) := by
  refine ⟨fun a => ?_, accounted.numbered.mono rfl rfl fun _ _ found => found, accounted.straight⟩
  have total := owns a
  have owners : [s.current].count a + queue.count a +
      ((next ++ rest).flatMap Frame.owns).count a = s.owners (φ :: rest) a := by
    simp only [Shared.owners, List.flatMap_append, List.flatMap_cons, List.count_append]
    omega
  have authors : authors (next ++ rest) a = authors (φ :: rest) a := by
    rw [authors_append, authors_cons, drafts]
  have fits := accounted.fits a
  rw [← owners, ← authors] at fits
  exact fits

/-- Writing at an address that an operation has at its disposal. -/
theorem fits_write (accounted : s.Accounted (φ :: rest)) (content : Option Content)
    (memory : t.memory = (s.write a content).memory) (queue : t.queue = s.queue)
    (here : Fits content (t.owners (ψ :: rest) a) (authors (ψ :: rest) a))
    (owns : ∀ b ≠ a, [t.current].count b + ψ.owns.count b =
      [s.current].count b + φ.owns.count b)
    (drafts : ∀ b ≠ a, ψ.drafts.count b = φ.drafts.count b) :
    ∀ b, Fits (t.memory b) (t.owners (ψ :: rest) b) (authors (ψ :: rest) b) := by
  intro b
  by_cases same : b = a
  · rw [same, memory, write_self]
    exact here
  · have total := owns b same
    have owners : t.owners (ψ :: rest) b = s.owners (φ :: rest) b := by
      simp only [Shared.owners, List.flatMap_cons, List.count_append, queue]
      omega
    have authors : authors (ψ :: rest) b = authors (φ :: rest) b := by
      rw [authors_cons, authors_cons, drafts b same]
    rw [memory, write_other same, owners, authors]
    exact accounted.fits b

theorem allocate (accounted : s.Accounted (φ :: rest)) (empty : s.memory a = none)
    (value : Integer) (owns : ψ.owns = φ.owns) (before : φ.drafts = []) (after : ψ.drafts = [a]) :
    (s.allocate a value).Accounted (ψ :: rest) := by
  have fits := accounted.fits a
  rw [empty, owners_cons, authors_cons, before, ← owns] at fits
  obtain ⟨owners, authors⟩ := fits
  refine ⟨accounted.fits_write (some (.candidate value)) rfl rfl ⟨?_, ?_⟩ ?_ ?_,
    accounted.numbered.mono rfl rfl ?_, accounted.straight⟩
  · exact (owners_cons s ψ rest a).trans owners
  · rw [authors_cons, after, count_self]
    exact congrArg (· + 1) authors
  · intro b _
    rw [owns]
    rfl
  · intro b other
    rw [before, after, count_other other, List.count_nil]
  · intro b v found
    exact (Numbered.version_write found).elim (fun same => nomatch same.2) (·.2)

/-- A candidate becomes the current version, and the one before it is unlinked. -/
theorem install (accounted : s.Accounted (φ :: rest)) (ownsBefore : φ.owns = [])
    (ownsAfter : ψ.owns = [s.current]) (before : φ.drafts = [a]) (after : ψ.drafts = []) :
    (s.install a).Accounted (ψ :: rest) := by
  obtain ⟨x, found⟩ := accounted.drafted_candidate (a := a) (before ▸ List.mem_cons_self)
  have installed : s.install a =
      { s.write a (some (.version { number := s.nextNumber, value := x })) with
        current := a
        nextNumber := s.nextNumber + 1 } := by
    simp [Shared.install, found, Content.value]
  have fits := accounted.fits a
  rw [found, owners_cons, authors_cons, before, ownsBefore, count_self] at fits
  obtain ⟨owners, authors⟩ := fits
  rw [installed]
  refine ⟨accounted.fits_write (some (.version { number := s.nextNumber, value := x }))
    rfl rfl ⟨?_, ?_⟩ ?_ ?_, accounted.numbered.install a x, accounted.straight⟩
  · rw [List.count_nil, Shared.owners] at owners
    simp only [Shared.owners, write, List.flatMap_cons, List.count_append, ownsAfter, count_self]
    omega
  · rw [authors_cons, after, List.count_nil]
    omega
  · intro b other
    rw [ownsBefore, ownsAfter]
    show [a].count b + _ = _
    rw [count_other other, List.count_nil, Nat.zero_add, Nat.add_zero]
  · intro b other
    rw [before, after, count_other other, List.count_nil]

theorem discard (accounted : s.Accounted (φ :: rest)) (owns : ψ.owns = φ.owns)
    (before : φ.drafts = [a]) (after : ψ.drafts = []) : (s.free a).Accounted (ψ :: rest) := by
  obtain ⟨x, found⟩ := accounted.drafted_candidate (a := a) (before ▸ List.mem_cons_self)
  have freed : s.free a = s.write a none := by simp [Shared.free, found]
  have fits := accounted.fits a
  rw [found, owners_cons, authors_cons, before, ← owns, count_self] at fits
  obtain ⟨owners, authors⟩ := fits
  rw [freed]
  refine ⟨accounted.fits_write none rfl rfl ⟨?_, ?_⟩ ?_ ?_,
    accounted.numbered.mono rfl rfl ?_, accounted.straight⟩
  · exact (owners_cons s ψ rest a).trans owners
  · rw [authors_cons, after, List.count_nil]
    omega
  · intro b _
    rw [owns]
    rfl
  · intro b other
    rw [before, after, count_other other, List.count_nil]
  · intro b v atB
    exact (Numbered.version_write atB).elim (fun same => nomatch same.2) (·.2)

theorem reclaim (accounted : s.Accounted (φ :: rest)) (owns : φ.owns = a :: ψ.owns)
    (drafts : ψ.drafts = φ.drafts) : (s.free a).Accounted (ψ :: rest) := by
  obtain ⟨v, found⟩ := accounted.owned_version (a := a) (owns ▸ List.mem_cons_self)
  have freed : s.free a = { s.write a none with freed := s.freed ++ [v.number] } := by
    simp [Shared.free, found]
  have fits := accounted.fits a
  rw [found, owners_cons, authors_cons, owns, ← drafts, List.count_cons_self] at fits
  obtain ⟨owners, authors⟩ := fits
  rw [freed]
  refine ⟨accounted.fits_write none rfl rfl ⟨?_, ?_⟩ ?_ ?_,
    accounted.numbered.free found, accounted.straight⟩
  · show s.owners (ψ :: rest) a = 0
    rw [owners_cons]
    omega
  · rw [authors_cons]
    exact authors
  · intro b other
    rw [owns, List.count_cons_of_ne other.symm]
    rfl
  · intro b _
    rw [drafts]

/-- **No access frees a version twice or loses one**, provided that a version lies where the
operation looks for one. -/
theorem access (accounted : s.Accounted (φ :: rest)) (access : Access s φ t next)
    (here : ∀ a, φ.looksAt s.current = some a → ∃ v, s.memory a = some (.version v)) :
    t.Accounted (next ++ rest) := by
  -- Most accesses leave to the operation what it owns, and touch neither memory nor the queue.
  have quiet {next : List Frame} (slots : List Slot) (pending : UInt64)
      (owns : next.flatMap Frame.owns = φ.owns) (drafts : next.flatMap Frame.drafts = φ.drafts) :
      { s with slots := slots, pending := pending : Shared }.Accounted (next ++ rest) :=
    accounted.handOver slots s.queue pending (fun a => by rw [owns]) drafts
  have goesOn {ψ : Frame} (slots : List Slot) (pending : UInt64)
      (owns : ψ.owns = φ.owns) (drafts : ψ.drafts = φ.drafts) :
      { s with slots := slots, pending := pending : Shared }.Accounted ([ψ] ++ rest) :=
    quiet slots pending ((List.flatMap_singleton _ _).trans owns)
      ((List.flatMap_singleton _ _).trans drafts)
  cases access with
  | seek | busy | idle | claim | beaten | exhausted | link | relink | read | announce | moved
  | copy | compute | stop | lost | copyReplaced | clear | copyOld | drained | scan | collect
  | collected => exact goesOn _ _ (by rfl) (by rfl)
  | @validate goal k v found =>
      obtain ⟨owns, drafts⟩ := goal.frame_owns k ⟨s.current, v⟩
      exact goesOn _ _ owns drafts
  | nest op => exact accounted.begin op
  | @release k replaced => exact quiet _ _ (by cases replaced <;> rfl) (by cases replaced <;> rfl)
  | count => exact quiet _ _ (by split <;> rfl) (by split <;> rfl)
  | settle => exact quiet _ _ rfl rfl
  | allocate empty => exact accounted.allocate empty _ rfl rfl rfl
  | allocateNew empty => exact accounted.allocate empty _ rfl rfl rfl
  | won same => exact accounted.install rfl (congrArg (fun a => [a]) same.symm) rfl rfl
  | exchange => exact accounted.install rfl rfl rfl rfl
  | discard => exact accounted.discard rfl rfl rfl
  | reclaim => exact accounted.reclaim rfl rfl
  | send =>
      refine accounted.handOver _ _ _ (fun b => ?_) rfl
      simp only [List.flatMap_singleton, Frame.owns, List.count_append, List.count_nil]
      omega
  | @receive a waiting batch head =>
      refine accounted.handOver _ _ _ (fun b => ?_) rfl
      simp only [List.flatMap_singleton, Frame.owns, head, List.count_append,
        List.count_cons (a := b) (b := a) (l := waiting), List.count_singleton]
      omega
  | @defer a batch announced n seen =>
      refine accounted.handOver _ _ _ (fun b => ?_) rfl
      simp only [List.flatMap_singleton, Frame.owns, List.count_append,
        List.count_cons (a := b) (b := a) (l := batch), List.count_singleton]
      omega
  | stray looks none =>
      obtain ⟨v, found⟩ := here _ looks
      exact absurd found (none v)

end Accounted

end Shared

end Bignum.Threads
