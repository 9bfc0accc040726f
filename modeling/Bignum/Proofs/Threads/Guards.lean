import Bignum.Proofs.Threads.Memory

/-!
What hazard slots protect, when threads share a cell.

An operation that has a slot has it to itself, and what it has found current after announcing it
stays where it is (`Shared.Guarded`). Two kinds of operations free versions: one that drops a
candidate, which nobody else has seen, and one that scans. A scan that has a protected version in
its batch has still to read the slot that protects it, or has read it there (`Frame.Spares`): the
version was unlinked before it was received, so the slot announced it before the scan loaded the
list, and has done so ever since.
-/

namespace Bignum.Threads

namespace Frame

/-- The slot that an operation has taken. -/
def slot? : Frame → Option Nat
  | .read _ slot _ => some slot
  | .announce _ slot _ _ => some slot
  | .validate _ slot _ => some slot
  | .copy slot _ => some slot
  | .compute slot _ => some slot
  | .allocate slot _ _ _ => some slot
  | .compareSwap slot _ _ _ => some slot
  | .discard slot _ _ => some slot
  | .copyReplaced slot _ => some slot
  | .clear slot _ _ => some slot
  | .release slot _ => some slot
  | _ => none

/-- What the slot of an operation protects: from the moment at which the address was found current
until something else is announced or the slot is cleared. -/
def kept? : Frame → Option Kept
  | .read _ _ kept => kept
  | .announce _ _ _ kept => kept
  | .copy _ kept => some kept
  | .compute _ kept => some kept
  | .allocate _ kept _ _ => some kept
  | .compareSwap _ kept _ _ => some kept
  | .discard _ kept _ => some kept
  | .copyReplaced _ kept => some kept
  | .clear _ kept _ => some kept
  | _ => none

/-- What the slot of an operation announces, as far as that is known. -/
def announced? : Frame → Option Address
  | .validate _ _ a => some a
  | φ => φ.kept?.map (·.address)

/-- An operation protects a version in a slot. -/
def Protects (φ : Frame) (slot : Nat) (kept : Kept) : Prop :=
  φ.slot? = some slot ∧ φ.kept? = some kept

/-- An operation is not going to overwrite or free what a slot protects. -/
def Spares (slot : Nat) (kept : Kept) : Frame → Prop
  | .compareSwap _ _ _ candidate => candidate ≠ kept.address
  | .discard _ _ candidate => candidate ≠ kept.address
  | .exchange candidate => candidate ≠ kept.address
  | .collect batch left announced =>
      kept.address ∈ batch → slot < left ∨ kept.address ∈ announced
  | .settle batch announced _ => kept.address ∈ batch → kept.address ∈ announced
  | _ => True

/-- A candidate is computed from the version that is protected. -/
def Fair : Frame → Prop
  | .allocate _ kept seen _ => seen = kept.version
  | .compareSwap _ kept seen _ => seen = kept.version
  | _ => True

/-- A later frame of the same operation has the same slot or none, and protects the same version or
none. -/
structure Continues (φ ψ : Frame) : Prop where
  slot : ψ.slot? = φ.slot? ∨ ψ.slot? = none
  kept : ψ.kept? = φ.kept? ∨ ψ.kept? = none

theorem Continues.same {φ ψ : Frame} (slot : ψ.slot? = φ.slot?) (kept : ψ.kept? = φ.kept?) :
    φ.Continues ψ :=
  ⟨.inl slot, .inl kept⟩

theorem Continues.protects {φ ψ : Frame} (continues : φ.Continues ψ) {slot : Nat} {kept : Kept}
    (protects : ψ.Protects slot kept) : φ.Protects slot kept := by
  obtain ⟨atSlot, keeps⟩ := protects
  rcases continues.slot with slot | none
  · rcases continues.kept with kept | none
    · exact ⟨slot ▸ atSlot, kept ▸ keeps⟩
    · rw [none] at keeps
      cases keeps
  · rw [none] at atSlot
    cases atSlot

theorem announced?_eq {φ : Frame} {kept : Kept} (keeps : φ.kept? = some kept) :
    φ.announced? = some kept.address := by
  cases φ <;> simp_all [announced?, kept?]

theorem spares_of_unowned {φ : Frame} {kept : Kept} (owns : kept.address ∉ φ.owns)
    (drafts : kept.address ∉ φ.drafts) (slot : Nat) : φ.Spares slot kept := by
  cases φ with
  | compareSwap | discard | exchange =>
      exact fun same => drafts (List.mem_singleton.mpr same.symm)
  | collect | settle => exact fun mem => absurd mem owns
  | _ => trivial

end Frame

theorem Goal.frame_spec (goal : Goal) (slot : Nat) (kept : Kept) :
    (goal.frame slot kept).slot? = some slot ∧ (goal.frame slot kept).kept? = some kept ∧
      (goal.frame slot kept).Fair ∧ ∀ k other, (goal.frame slot kept).Spares k other := by
  cases goal with
  | load => exact ⟨rfl, rfl, trivial, fun _ _ => trivial⟩
  | update => exact ⟨rfl, rfl, trivial, fun _ _ => trivial⟩

namespace Shared

theorem modify_self {slots : List Slot} {slot : Nat} {x : Slot} (atSlot : slots[slot]? = some x)
    (f : Slot → Slot) : (slots.modify slot f)[slot]? = some (f x) := by
  simp [atSlot]

/-- What an operation relies on: its slot is marked as taken, and announces what it should; the
version that it protects is where it was. -/
structure Serves (s : Shared) (φ : Frame) : Prop where
  active : ∀ slot, φ.slot? = some slot → ∃ x, s.slots[slot]? = some x ∧ x.active = true
  announced : ∀ slot a, φ.slot? = some slot → φ.announced? = some a →
    s.slots[slot]? = some { active := true, announced := some a }
  present : ∀ slot kept, φ.Protects slot kept →
    s.memory kept.address = some (.version kept.version)
  fair : φ.Fair

/-- The slots of all operations in progress. -/
structure Guarded (s : Shared) (fs : List Frame) : Prop where
  apart : (fs.filterMap Frame.slot?).Nodup
  serves : ∀ φ ∈ fs, s.Serves φ
  spares : ∀ φ ∈ fs, ∀ slot kept, φ.Protects slot kept → ∀ ψ ∈ fs, ψ.Spares slot kept

variable {s t : Shared} {φ ψ : Frame} {fs gs rest : List Frame} {slot : Nat} {kept : Kept}

/-- An operation relies on nothing but its own slot and the version that it protects. -/
theorem Serves.congr (serves : s.Serves φ)
    (slots : ∀ slot, φ.slot? = some slot → ∀ x, s.slots[slot]? = some x → t.slots[slot]? = some x)
    (memory : ∀ slot kept, φ.Protects slot kept → ∀ v,
      s.memory kept.address = some v → t.memory kept.address = some v) : t.Serves φ where
  active := by
    intro slot has
    obtain ⟨x, atSlot, active⟩ := serves.active slot has
    exact ⟨x, slots slot has x atSlot, active⟩
  announced := fun slot a has announces => slots slot has _ (serves.announced slot a has announces)
  present := fun slot kept protects =>
    memory slot kept protects _ (serves.present slot kept protects)
  fair := serves.fair

theorem Serves.continues (serves : s.Serves φ) (continues : φ.Continues ψ)
    (announced : ψ.announced? = φ.announced? ∨ ψ.announced? = none) (fair : ψ.Fair) :
    s.Serves ψ where
  active := by
    intro slot has
    rcases continues.slot with same | none
    · exact serves.active slot (same ▸ has)
    · rw [none] at has
      cases has
  announced := by
    intro slot a has announces
    rcases continues.slot with same | none
    · rcases announced with before | none
      · exact serves.announced slot a (same ▸ has) (before ▸ announces)
      · rw [none] at announces
        cases announces
    · rw [none] at has
      cases has
  present := fun slot kept protects => serves.present slot kept (continues.protects protects)
  fair := fair

theorem Serves.of_same (serves : s.Serves φ) (slots : t.slots = s.slots)
    (memory : t.memory = s.memory) : t.Serves φ :=
  serves.congr (fun _ _ _ atSlot => slots ▸ atSlot) (fun _ _ _ _ found => memory ▸ found)

/-- Changing a slot that an operation does not have. -/
theorem Serves.modify (serves : s.Serves φ) (slot : Nat) (f : Slot → Slot)
    (other : φ.slot? ≠ some slot) :
    { s with slots := s.slots.modify slot f : Shared }.Serves φ := by
  refine serves.congr (fun k has x atK => ?_) (fun _ _ _ _ found => found)
  have ne : slot ≠ k := by
    rintro rfl
    exact other has
  exact (List.getElem?_modify_ne f s.slots ne).trans atK

/-- Writing to an address where nothing lies, or nothing that an operation protects. -/
theorem Serves.write (serves : s.Serves φ) (a : Address) (content : Option Content)
    (other : ∀ slot kept, φ.Protects slot kept → kept.address ≠ a) : (s.write a content).Serves φ :=
  serves.congr (fun _ _ _ atK => atK)
    (fun slot kept protects _ found =>
      (write_other (other slot kept protects) s content).trans found)

theorem Serves.protecting (serves : s.Serves φ) (protects : φ.Protects slot kept) :
    s.slots[slot]? = some { active := true, announced := some kept.address } :=
  serves.announced slot _ protects.1 (Frame.announced?_eq protects.2)

namespace Guarded

theorem nobody (s : Shared) : s.Guarded [] :=
  ⟨List.nodup_nil, fun _ mem => (List.not_mem_nil mem).elim,
    fun _ mem => (List.not_mem_nil mem).elim⟩

theorem perm (guarded : s.Guarded fs) (perm : fs.Perm gs) : s.Guarded gs where
  apart := ((perm.filterMap _).nodup_iff).mp guarded.apart
  serves := fun φ mem => guarded.serves φ (perm.mem_iff.mpr mem)
  spares := fun φ mem slot kept protects ψ mem' =>
    guarded.spares φ (perm.mem_iff.mpr mem) slot kept protects ψ (perm.mem_iff.mpr mem')

theorem of_same (guarded : s.Guarded fs) (slots : t.slots = s.slots)
    (memory : t.memory = s.memory) : t.Guarded fs :=
  ⟨guarded.apart, fun φ mem => (guarded.serves φ mem).of_same slots memory, guarded.spares⟩

theorem drop (guarded : s.Guarded (φ :: rest)) : s.Guarded rest where
  apart := guarded.apart.sublist ((List.sublist_cons_self φ rest).filterMap _)
  serves := fun ψ mem => guarded.serves ψ (List.mem_cons_of_mem _ mem)
  spares := fun ψ mem slot kept protects χ mem' =>
    guarded.spares ψ (List.mem_cons_of_mem _ mem) slot kept protects χ (List.mem_cons_of_mem _ mem')

/-- Nobody else has the slot of an operation. -/
theorem alone (guarded : s.Guarded (φ :: rest)) (has : φ.slot? = some slot) :
    ∀ ψ ∈ rest, ψ.slot? ≠ some slot := by
  intro ψ mem hasToo
  have apart := guarded.apart
  rw [List.filterMap_cons_some has] at apart
  exact (List.nodup_cons.mp apart).1 (List.mem_filterMap.mpr ⟨ψ, mem, hasToo⟩)

/-- Nobody protects a version at an address where none lies. -/
theorem untouched (guarded : s.Guarded fs) {a : Address} (empty : s.memory a = none) :
    ∀ φ ∈ fs, ∀ slot kept, φ.Protects slot kept → kept.address ≠ a := by
  rintro φ mem slot kept protects rfl
  have there := (guarded.serves φ mem).present slot kept protects
  rw [empty] at there
  cases there

theorem write (guarded : s.Guarded fs) {a : Address} {content : Option Content}
    (slots : t.slots = s.slots) (memory : t.memory = (s.write a content).memory)
    (apart : ∀ φ ∈ fs, ∀ slot kept, φ.Protects slot kept → kept.address ≠ a) : t.Guarded fs :=
  ⟨guarded.apart,
    fun φ mem => ((guarded.serves φ mem).write a content (apart φ mem)).of_same slots memory,
    guarded.spares⟩

theorem install (guarded : s.Guarded fs) {a : Address}
    (apart : ∀ φ ∈ fs, ∀ slot kept, φ.Protects slot kept → a ≠ kept.address) :
    (s.install a).Guarded fs := by
  obtain ⟨content, memory⟩ := s.install_memory a
  exact guarded.write (s.install_slots a) memory
    fun φ mem slot kept protects => (apart φ mem slot kept protects).symm

theorem free (guarded : s.Guarded fs) {a : Address}
    (apart : ∀ φ ∈ fs, ∀ slot kept, φ.Protects slot kept → a ≠ kept.address) :
    (s.free a).Guarded fs :=
  guarded.write (s.free_slots a) (s.free_memory a)
    fun φ mem slot kept protects => (apart φ mem slot kept protects).symm

/-- Changing a slot that nobody has. -/
theorem modify (guarded : s.Guarded fs) (f : Slot → Slot) (apart : ∀ φ ∈ fs, φ.slot? ≠ some slot) :
    { s with slots := s.slots.modify slot f : Shared }.Guarded fs :=
  ⟨guarded.apart, fun φ mem => (guarded.serves φ mem).modify slot f (apart φ mem), guarded.spares⟩

/-- An operation joins others. -/
theorem cons (guarded : s.Guarded rest) (serves : s.Serves φ)
    (apart : ∀ slot, φ.slot? = some slot → ∀ ψ ∈ rest, ψ.slot? ≠ some slot)
    (spared : ∀ slot kept, φ.Protects slot kept → ∀ ψ ∈ φ :: rest, ψ.Spares slot kept)
    (spares : ∀ ψ ∈ rest, ∀ slot kept, ψ.Protects slot kept → φ.Spares slot kept) :
    s.Guarded (φ :: rest) where
  apart := by
    cases has : φ.slot? with
    | none =>
        rw [List.filterMap_cons_none has]
        exact guarded.apart
    | some slot =>
        rw [List.filterMap_cons_some has]
        refine List.nodup_cons.mpr ⟨fun mem => ?_, guarded.apart⟩
        obtain ⟨ψ, mem, same⟩ := List.mem_filterMap.mp mem
        exact apart slot has ψ mem same
  serves := by
    intro ψ mem
    rcases List.mem_cons.mp mem with rfl | mem
    · exact serves
    · exact guarded.serves ψ mem
  spares := by
    intro ψ mem slot kept protects χ other
    rcases List.mem_cons.mp mem with rfl | before
    · exact spared slot kept protects χ other
    · rcases List.mem_cons.mp other with rfl | other
      · exact spares ψ before slot kept protects
      · exact guarded.spares ψ before slot kept protects χ other

/-- An operation goes on. -/
theorem goOn (guarded : s.Guarded (φ :: rest)) (continues : φ.Continues ψ)
    (announced : ψ.announced? = φ.announced? ∨ ψ.announced? = none) (fair : ψ.Fair)
    (spares : ∀ χ ∈ φ :: rest, ∀ slot kept, χ.Protects slot kept → φ.Spares slot kept →
      ψ.Spares slot kept) : s.Guarded (ψ :: rest) := by
  have spared {χ : Frame} (mem : χ ∈ φ :: rest) {slot : Nat} {kept : Kept}
      (protects : χ.Protects slot kept) : ψ.Spares slot kept :=
    spares χ mem slot kept protects
      (guarded.spares χ mem slot kept protects φ List.mem_cons_self)
  have serves := (guarded.serves φ List.mem_cons_self).continues continues announced fair
  refine guarded.drop.cons serves ?_ ?_ ?_
  · intro slot has χ mem same
    rcases continues.slot with kept | none
    · exact guarded.alone (kept ▸ has) χ mem same
    · rw [none] at has
      cases has
  · intro slot kept protects χ mem
    have before := continues.protects protects
    rcases List.mem_cons.mp mem with rfl | mem
    · exact spared List.mem_cons_self before
    · exact guarded.spares φ List.mem_cons_self slot kept before χ (List.mem_cons_of_mem _ mem)
  · intro χ mem slot kept protects
    exact spared (List.mem_cons_of_mem _ mem) protects

/-- An operation that has no slot and is not going to free a protected version. -/
theorem bystander (guarded : s.Guarded rest) (none : φ.slot? = none) (fair : φ.Fair)
    (spares : ∀ slot kept, φ.Spares slot kept) : s.Guarded (φ :: rest) := by
  have nothing {slot : Nat} (has : φ.slot? = some slot) : False := by
    rw [none] at has
    cases has
  refine guarded.cons ?_ ?_ ?_ ?_
  · exact ⟨fun _ has => (nothing has).elim, fun _ _ has _ => (nothing has).elim,
      fun _ _ protects => (nothing protects.1).elim, fair⟩
  · exact fun _ has => (nothing has).elim
  · exact fun _ _ protects => (nothing protects.1).elim
  · exact fun _ _ slot kept _ => spares slot kept

theorem begin (guarded : s.Guarded rest) (op : Operation) : s.Guarded (op.frame :: rest) := by
  cases op with
  | load => exact guarded.bystander rfl trivial fun _ _ => trivial
  | swap value => exact guarded.bystander rfl trivial fun _ _ => trivial
  | update => exact guarded.bystander rfl trivial fun _ _ => trivial

/-- An operation takes a slot that nobody has. -/
theorem take (guarded : s.Guarded rest) (goal : Goal) {x : Slot} (atSlot : s.slots[slot]? = some x)
    (active : x.active = true) (apart : ∀ ψ ∈ rest, ψ.slot? ≠ some slot) :
    s.Guarded (.read goal slot none :: rest) := by
  refine guarded.cons ?_ ?_ ?_ ?_
  · refine ⟨?_, ?_, ?_, trivial⟩
    · intro k has
      obtain rfl := Option.some.inj has
      exact ⟨x, atSlot, active⟩
    · intro k a _ announces
      cases announces
    · intro k kept protects
      cases protects.2
  · intro k has
    obtain rfl := Option.some.inj has
    exact apart
  · intro k kept protects
    cases protects.2
  · exact fun _ _ _ _ _ => trivial

/-- What an operation has announced and then found current is protected. -/
theorem protect {goal : Goal} {v : Version}
    (guarded : s.Guarded (.validate goal slot s.current :: rest))
    (accounted : s.Accounted (.validate goal slot s.current :: rest))
    (found : s.memory s.current = some (.version v)) :
    s.Guarded (goal.frame slot { address := s.current, version := v } :: rest) := by
  obtain ⟨has, keeps, fair, spares⟩ :=
    goal.frame_spec slot { address := s.current, version := v }
  have own := guarded.serves _ List.mem_cons_self
  have only {k : Nat} {kept : Kept} (protects : (goal.frame slot ⟨s.current, v⟩).Protects k kept) :
      k = slot ∧ kept = { address := s.current, version := v } := by
    obtain ⟨hasK, keepsK⟩ := protects
    rw [has] at hasK
    rw [keeps] at keepsK
    exact ⟨(Option.some.inj hasK).symm, (Option.some.inj keepsK).symm⟩
  refine guarded.drop.cons ⟨?_, ?_, ?_, fair⟩ ?_ ?_ (fun _ _ slot kept _ => spares slot kept)
  · intro k hasK
    exact own.active k (has.symm.trans hasK ▸ rfl)
  · intro k a hasK announces
    rw [Frame.announced?_eq keeps] at announces
    rw [has] at hasK
    exact own.announced k a hasK announces
  · intro k kept protects
    obtain ⟨rfl, rfl⟩ := only protects
    exact found
  · intro k hasK ψ mem same
    rw [has] at hasK
    exact guarded.alone hasK ψ mem same
  · intro k kept protects ψ mem
    obtain ⟨rfl, rfl⟩ := only protects
    rcases List.mem_cons.mp mem with rfl | mem
    · exact spares _ _
    · obtain ⟨owns, drafts⟩ := accounted.current_unowned (List.mem_cons_of_mem _ mem)
      exact Frame.spares_of_unowned owns drafts _

/-- Taking a slot that is idle. -/
theorem claim (guarded : s.Guarded rest) (goal : Goal) {x : Slot} (atSlot : s.slots[slot]? = some x)
    (idle : x.active = false) : (s.setActive slot true).Guarded (.read goal slot none :: rest) := by
  have free : ∀ φ ∈ rest, φ.slot? ≠ some slot := by
    intro φ mem has
    obtain ⟨y, atY, active⟩ := (guarded.serves φ mem).active slot has
    rw [atSlot] at atY
    obtain rfl := Option.some.inj atY
    rw [idle] at active
    cases active
  exact (guarded.modify _ free).take goal (modify_self atSlot _) rfl free

/-- Taking a slot that is linked in. -/
theorem register (guarded : s.Guarded rest) (goal : Goal) :
    s.register.Guarded (.read goal s.slots.length none :: rest) := by
  have linked (k : Nat) (x : Slot) (atK : s.slots[k]? = some x) : s.register.slots[k]? = some x :=
    (List.getElem?_append_left (List.getElem?_eq_some_iff.mp atK).1).trans atK
  have others : s.register.Guarded rest :=
    ⟨guarded.apart,
      fun φ mem => (guarded.serves φ mem).congr (fun k _ => linked k) (fun _ _ _ _ found => found),
      guarded.spares⟩
  refine others.take goal (List.getElem?_concat_length ..) rfl fun φ mem has => ?_
  obtain ⟨x, atK, -⟩ := (guarded.serves φ mem).active _ has
  exact Nat.lt_irrefl _ (List.getElem?_eq_some_iff.mp atK).1

/-- Storing in the slot of an operation, which ends what the slot protects. -/
theorem store (guarded : s.Guarded (φ :: rest)) (has : φ.slot? = some slot)
    (hasStill : ψ.slot? = some slot) {announced : Option Address}
    (announces : ∀ a, ψ.announced? = some a → announced = some a) (nothing : ψ.kept? = none)
    (fair : ψ.Fair) (spares : ∀ slot kept, ψ.Spares slot kept) :
    (s.announce slot announced).Guarded (ψ :: rest) := by
  obtain ⟨x, atSlot, active⟩ := (guarded.serves φ List.mem_cons_self).active slot has
  have stored := modify_self atSlot fun x => { x with announced := announced }
  have none {k : Nat} {kept : Kept} (protects : ψ.Protects k kept) : False := by
    rw [Frame.Protects, nothing] at protects
    cases protects.2
  refine (guarded.drop.modify _ (guarded.alone has)).cons ⟨?_, ?_, ?_, fair⟩ ?_ ?_
    fun _ _ slot kept _ => spares slot kept
  · intro k hasK
    rw [hasStill] at hasK
    obtain rfl := Option.some.inj hasK
    exact ⟨_, stored, active⟩
  · intro k a hasK announcesA
    rw [hasStill] at hasK
    obtain rfl := Option.some.inj hasK
    rw [← announces a announcesA]
    exact active ▸ stored
  · exact fun _ _ protects => (none protects).elim
  · intro k hasK
    rw [hasStill] at hasK
    obtain rfl := Option.some.inj hasK
    exact guarded.alone has
  · exact fun _ _ protects => (none protects).elim

/-- **No access takes a slot or a version from an operation that relies on it.** -/
theorem access {next : List Frame} (guarded : s.Guarded (φ :: rest))
    (accounted : s.Accounted (φ :: rest)) (access : Access s φ t next) :
    t.Guarded (next ++ rest) := by
  have own : s.Serves φ := guarded.serves φ List.mem_cons_self
  have spared : ∀ χ ∈ φ :: rest, ∀ slot kept, χ.Protects slot kept → φ.Spares slot kept :=
    fun χ mem slot kept protects => guarded.spares χ mem slot kept protects φ List.mem_cons_self
  cases access with
  | seek | busy | idle | beaten | exhausted | relink | read | copy | stop | copyReplaced | copyOld
  | drained | send | receive =>
      exact Guarded.goOn (guarded.of_same rfl rfl) (.same rfl rfl) (.inl rfl) trivial
        fun _ _ _ _ _ _ => trivial
  | moved =>
      exact guarded.goOn (.same rfl rfl) (.inr rfl) trivial fun _ _ _ _ _ _ => trivial
  | lost => exact guarded.goOn (.same rfl rfl) (.inl rfl) trivial fun _ _ _ _ _ spares => spares
  | stray => exact guarded.of_same rfl rfl
  | validate found => exact guarded.protect accounted found
  | nest op => exact guarded.begin op
  | @compute k kept v value found =>
      have same : v = kept.version := by
        have there := own.present k kept ⟨rfl, rfl⟩
        rw [found] at there
        exact Content.version.inj (Option.some.inj there)
      exact guarded.goOn (.same rfl rfl) (.inl rfl) same fun _ _ _ _ _ _ => trivial
  | claim atSlot idle => exact guarded.drop.claim _ atSlot idle
  | link => exact guarded.drop.register _
  | @announce goal k a kept =>
      exact guarded.store rfl rfl (fun b same => same) rfl trivial fun _ _ => trivial
  | clear =>
      exact guarded.store rfl rfl (fun b impossible => nomatch impossible) rfl trivial
        fun _ _ => trivial
  | @release k replaced =>
      have given := guarded.drop.modify (fun x => { x with active := false }) (guarded.alone rfl)
      cases replaced with
      | none => exact given
      | some a => exact given.bystander rfl trivial fun _ _ => trivial
  | @allocate k kept seen value a empty =>
      refine Guarded.goOn (guarded.write rfl rfl (guarded.untouched empty)) (.same rfl rfl)
        (.inl rfl) own.fair fun χ mem slot other protects _ => ?_
      exact (guarded.untouched empty χ mem slot other protects).symm
  | @allocateNew value a empty =>
      refine Guarded.goOn (guarded.write rfl rfl (guarded.untouched empty)) (.same rfl rfl)
        (.inl rfl) trivial fun χ mem slot other protects _ => ?_
      exact (guarded.untouched empty χ mem slot other protects).symm
  | won =>
      exact Guarded.goOn (guarded.install spared) (.same rfl rfl) (.inl rfl) trivial
        fun _ _ _ _ _ _ => trivial
  | exchange =>
      exact Guarded.goOn (guarded.install spared) (.same rfl rfl) (.inl rfl) trivial
        fun _ _ _ _ _ _ => trivial
  | discard =>
      exact Guarded.goOn (guarded.free spared) (.same rfl rfl) (.inl rfl) trivial
        fun _ _ _ _ _ _ => trivial
  | @reclaim a batch announced n absent =>
      refine Guarded.goOn (guarded.free fun χ mem slot kept protects => ?_) (.same rfl rfl)
        (.inl rfl) trivial fun χ mem slot kept protects spares inBatch => ?_
      · rintro rfl
        exact absent (spared χ mem slot kept protects List.mem_cons_self)
      · exact spares (List.mem_cons_of_mem _ inBatch)
  | scan =>
      -- What is protected now is announced in a slot that is in the list already.
      refine guarded.goOn (.same rfl rfl) (.inl rfl) trivial fun χ mem k kept protects _ _ => ?_
      exact .inl (List.getElem?_eq_some_iff.mp ((guarded.serves χ mem).protecting protects)).1
  | @collect batch left announced slot atLeft =>
      refine guarded.goOn (.same rfl rfl) (.inl rfl) trivial
        fun χ mem k kept protects spares inBatch => ?_
      rcases spares inBatch with unread | seen
      · rcases Nat.lt_succ_iff_lt_or_eq.mp unread with unread | rfl
        · exact .inl unread
        · have announces := (guarded.serves χ mem).protecting protects
          rw [atLeft] at announces
          obtain rfl := Option.some.inj announces
          exact .inr (List.mem_append_right _ (List.mem_singleton.mpr rfl))
      · exact .inr (List.mem_append_left _ seen)
  | collected =>
      refine guarded.goOn (.same rfl rfl) (.inl rfl) trivial
        fun χ mem k kept protects spares inBatch => ?_
      exact (spares inBatch).resolve_left (Nat.not_lt_zero k)
  | defer =>
      refine Guarded.goOn (guarded.of_same rfl rfl) (.same rfl rfl) (.inl rfl) trivial
        fun χ mem k kept protects spares inBatch => ?_
      exact spares (List.mem_cons_of_mem _ inBatch)
  | count =>
      have behind := guarded.drop.of_same (t := { s with pending := s.pending + 1 }) rfl rfl
      split
      · exact behind.bystander rfl trivial fun _ _ => trivial
      · exact behind
  | settle => exact guarded.drop.of_same rfl rfl

end Guarded

end Shared

end Bignum.Threads
