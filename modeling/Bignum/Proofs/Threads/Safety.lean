import Bignum.Proofs.Threads.Guards
import Mathlib.Data.List.Perm.Basic

/-!
Threads may share a cell.

Every turn of every thread keeps the accounts of the memory and the slots of the operations in
progress in order (`Turn.sound`), so they are in order in every state that turns lead to, in
whatever order they are taken (`Reachable.sound`).

* `Access.ends_protection`, `Access.begins_protection`: from when to when a version is protected.
* `threads_safe`: no two operations have one slot, nothing is freed twice or while it is protected,
  and an update replaces the very version that its candidate was computed from.
-/

namespace Bignum.Threads

/-! ### Turns -/

theorem flatten_perm {threads : List (List Frame)} {i : Nat} {fs : List Frame}
    (at_i : threads[i]? = some fs) :
    threads.flatten.Perm (fs ++ (threads.eraseIdx i).flatten) := by
  obtain ⟨bound, rfl⟩ := List.getElem?_eq_some_iff.mp at_i
  exact (List.getElem_cons_eraseIdx_perm bound).symm.flatten

theorem flatten_set_perm {threads : List (List Frame)} {i : Nat} {fs : List Frame}
    (at_i : threads[i]? = some fs) (gs : List Frame) :
    (threads.set i gs).flatten.Perm (gs ++ (threads.eraseIdx i).flatten) := by
  obtain ⟨bound, -⟩ := List.getElem?_eq_some_iff.mp at_i
  have changed := flatten_perm (List.getElem?_set_self (a := gs) bound)
  rwa [List.eraseIdx_set_eq] at changed

/-- What every access and every operation that begins preserve, every turn preserves, if it does not
depend on the order of the frames. -/
theorem Turn.keeps {P : Shared → List Frame → Prop}
    (perm : ∀ {s : Shared} {fs gs : List Frame}, P s fs → fs.Perm gs → P s gs)
    (begin : ∀ {s : Shared} {fs : List Frame} (op : Operation), P s fs → P s (op.frame :: fs))
    (access : ∀ {s t : Shared} {φ : Frame} {next rest : List Frame},
      P s (φ :: rest) → Access s φ t next → P t (next ++ rest))
    {s t : State} (turn : Turn s t) (before : P s.shared s.frames) : P t.shared t.frames := by
  cases turn with
  | begin op at_i =>
      exact perm (begin op (perm before (flatten_perm at_i)))
        (flatten_set_perm at_i [op.frame]).symm
  | @access i φ outer next shared at_i accessed =>
      have first : P s.shared (φ :: (outer ++ (s.threads.eraseIdx i).flatten)) :=
        perm before (flatten_perm at_i)
      have after := access first accessed
      rw [← List.append_assoc] at after
      exact perm after (flatten_set_perm at_i (next ++ outer)).symm

/-- What one thread does in some of its turns while the others wait. -/
inductive Runs : Shared → List Frame → Shared → List Frame → Prop where
  | done {s : Shared} {fs : List Frame} : Runs s fs s fs
  | next {s t u : Shared} {φ : Frame} {next outer fs : List Frame} :
      Access s φ t next → Runs t (next ++ outer) u fs → Runs s (φ :: outer) u fs

theorem Runs.trans {s t u : Shared} {fs gs hs : List Frame} (first : Runs s fs t gs)
    (second : Runs t gs u hs) : Runs s fs u hs := by
  induction first with
  | done => exact second
  | next access _ ih => exact .next access (ih second)

/-- The accounts of the memory and the slots of the operations in progress are in order. -/
structure Shared.Sound (s : Shared) (fs : List Frame) : Prop where
  accounted : s.Accounted fs
  guarded : s.Guarded fs

namespace Shared.Sound

variable {s t : Shared} {φ : Frame} {fs gs next rest : List Frame}

theorem create (settings : CellSettings) (value : Integer) :
    (Shared.create settings value).Sound [] :=
  ⟨.create settings value, .nobody _⟩

theorem perm (sound : s.Sound fs) (perm : fs.Perm gs) : s.Sound gs :=
  ⟨sound.accounted.perm perm, sound.guarded.perm perm⟩

theorem begin (sound : s.Sound fs) (op : Operation) : s.Sound (op.frame :: fs) :=
  ⟨sound.accounted.begin op, sound.guarded.begin op⟩

/-- A version lies wherever an operation is about to look for one. -/
theorem here (sound : s.Sound (φ :: rest)) (a : Address) (looks : φ.looksAt s.current = some a) :
    ∃ v, s.memory a = some (.version v) := by
  have own := sound.guarded.serves φ List.mem_cons_self
  cases φ with
  | validate goal slot b =>
      simp only [Frame.looksAt] at looks
      split at looks
      · rename_i same
        obtain rfl := Option.some.inj looks
        exact same ▸ sound.accounted.current_version
      · cases looks
  | copy slot kept | compute slot kept | copyReplaced slot kept =>
      obtain rfl := Option.some.inj looks
      exact ⟨kept.version, own.present slot kept ⟨rfl, rfl⟩⟩
  | copyOld replaced =>
      obtain rfl := Option.some.inj looks
      exact sound.accounted.owned_version List.mem_cons_self
  | _ => cases looks

/-- **Every access keeps the accounts and the slots in order.** -/
theorem access (sound : s.Sound (φ :: rest)) (access : Access s φ t next) :
    t.Sound (next ++ rest) :=
  ⟨sound.accounted.access access sound.here, sound.guarded.access sound.accounted access⟩

end Shared.Sound

theorem Runs.sound {s t : Shared} {fs gs : List Frame} (runs : Runs s fs t gs)
    (sound : s.Sound fs) : t.Sound gs := by
  induction runs with
  | done => exact sound
  | next access _ ih => exact ih (sound.access access)

/-- So does every turn. -/
theorem Turn.sound {s t : State} (turn : Turn s t) (sound : s.shared.Sound s.frames) :
    t.shared.Sound t.frames :=
  turn.keeps (P := Shared.Sound) Shared.Sound.perm (fun op sound => sound.begin op)
    (fun sound access => sound.access access) sound

theorem State.frames_create (settings : CellSettings) (value : Integer) (threads : Nat) :
    (State.create settings value threads).frames = [] := by
  simp [frames, create]

section Reachable

variable {settings : CellSettings} {value : Integer} {threads : Nat} {s : State}

/-- One thread may take some turns while the others wait. -/
theorem Reachable.runs {shared : Shared} {running : List (List Frame)}
    (reachable : Reachable settings value threads ⟨shared, running⟩) {i : Nat} {fs gs : List Frame}
    {after : Shared} (at_i : running[i]? = some fs) (runs : Runs shared fs after gs) :
    Reachable settings value threads ⟨after, running.set i gs⟩ := by
  induction runs generalizing running with
  | done =>
      obtain ⟨bound, rfl⟩ := List.getElem?_eq_some_iff.mp at_i
      rwa [List.set_getElem_self]
  | next access _ ih =>
      have one := ih (reachable.turn (.access at_i access)) ?_
      · rwa [List.set_set] at one
      · exact List.getElem?_set_self (List.getElem?_eq_some_iff.mp at_i).1

/-- The accounts and the slots are in order in every interleaving. -/
theorem Reachable.sound (reachable : Reachable settings value threads s) :
    s.shared.Sound s.frames := by
  induction reachable with
  | create =>
      rw [State.frames_create]
      exact .create settings value
  | turn _ turn sound => exact turn.sound sound

end Reachable

/-! ### How long a version is protected -/

/-- A version is protected from the moment at which an operation finds its address current after it
has announced it. -/
theorem Access.begins_protection {s t : Shared} {φ ψ : Frame} {next : List Frame}
    (access : Access s φ t next) (mem : ψ ∈ next) {slot : Nat} {kept : Kept}
    (protects : ψ.Protects slot kept) :
    φ.Protects slot kept ∨
      ∃ goal, φ = .validate goal slot s.current ∧ kept.address = s.current ∧
        s.memory s.current = some (.version kept.version) := by
  cases access with
  | seek | busy | idle | beaten | exhausted | relink | allocateNew | exchange | copyOld | send
  | receive | drained | scan | collect | collected | defer | reclaim =>
      obtain rfl := List.mem_singleton.mp mem
      cases protects.1
  | claim | link | announce | moved | clear =>
      obtain rfl := List.mem_singleton.mp mem
      cases protects.2
  | read | copy | compute | stop | allocate | won | lost | discard | copyReplaced | stray =>
      obtain rfl := List.mem_singleton.mp mem
      exact .inl protects
  | @validate goal k v found =>
      obtain rfl := List.mem_singleton.mp mem
      obtain ⟨has, keeps, -, -⟩ := goal.frame_spec k ⟨s.current, v⟩
      obtain ⟨hasToo, keepsToo⟩ := protects
      rw [has] at hasToo
      rw [keeps] at keepsToo
      obtain rfl := Option.some.inj hasToo
      obtain rfl := Option.some.inj keepsToo
      exact .inr ⟨goal, rfl, rfl, found⟩
  | nest op =>
      rcases List.mem_cons.mp mem with rfl | mem
      · cases op <;> cases protects.1
      · obtain rfl := List.mem_singleton.mp mem
        exact .inl protects
  | @release k replaced =>
      cases replaced with
      | none => cases mem
      | some a =>
          obtain rfl := List.mem_singleton.mp mem
          cases protects.1
  | count =>
      split at mem
      · obtain rfl := List.mem_singleton.mp mem
        cases protects.1
      · cases mem
  | settle => cases mem

/-- It is so until the operation announces something else or clears its slot. -/
theorem Access.ends_protection {s t : Shared} {φ : Frame} {next : List Frame}
    (access : Access s φ t next) {slot : Nat} {kept : Kept} (protects : φ.Protects slot kept) :
    (∃ ψ ∈ next, ψ.Protects slot kept) ∨
      (∃ goal a, φ = .announce goal slot a (some kept)) ∨
      ∃ replaced, φ = .clear slot kept replaced := by
  cases access with
  | read | copy | compute | stop | allocate | won | lost | discard | copyReplaced | stray =>
      exact .inl ⟨_, List.mem_cons_self, protects⟩
  | nest op => exact .inl ⟨_, List.mem_cons_of_mem _ List.mem_cons_self, protects⟩
  | @announce goal k a before =>
      obtain ⟨has, keeps⟩ := protects
      obtain rfl := Option.some.inj has
      exact .inr (.inl ⟨goal, a, congrArg _ keeps⟩)
  | @clear k before replaced =>
      obtain ⟨has, keeps⟩ := protects
      obtain rfl := Option.some.inj has
      obtain rfl := Option.some.inj keeps
      exact .inr (.inr ⟨replaced, rfl⟩)
  | validate | moved | release => cases protects.2
  | _ => cases protects.1

/-! ### Safety -/

section Reachable

variable {settings : CellSettings} {value : Integer} {threads : Nat} {s : State}

/-- **Threads may share a cell.** Take any settings, any value, any number of threads, and any state
that their turns lead to. No two operations in progress have the same slot. No version has been
freed twice, and nothing was ever looked for where it was not. What an operation has announced and
then found current is where it was, and has not been freed, until the operation announces something
else or clears its slot. And if an update is about to swap and would succeed, then the current
version is the very one that its candidate was computed from, although addresses are used again. -/
theorem threads_safe (reachable : Reachable settings value threads s) :
    (s.frames.filterMap Frame.slot?).Nodup ∧
      s.shared.freed.Nodup ∧ s.shared.astray = false ∧
      (∀ φ ∈ s.frames, ∀ slot kept, φ.Protects slot kept →
        s.shared.memory kept.address = some (.version kept.version) ∧
          kept.version.number ∉ s.shared.freed) ∧
      ∀ slot kept seen candidate, .compareSwap slot kept seen candidate ∈ s.frames →
        s.shared.current = kept.address →
          s.shared.memory s.shared.current = some (.version seen) := by
  obtain ⟨accounted, guarded⟩ := reachable.sound
  refine ⟨guarded.apart, accounted.numbered.freedOnce, accounted.straight, ?_, ?_⟩
  · intro φ mem slot kept protects
    have present := (guarded.serves φ mem).present slot kept protects
    exact ⟨present, (accounted.numbered.bound _ _ present).2⟩
  · intro slot kept seen candidate mem same
    have own := guarded.serves _ mem
    have computed : seen = kept.version := own.fair
    rw [same, computed]
    exact own.present slot kept ⟨rfl, rfl⟩

/-- One thread is about to swap when another has replaced the version that it protects, and has
scanned. -/
theorem threads_safe_update_and_swap :
    let settings : CellSettings := { reclaimThreshold := 1, initialSlots := 1, warnRetries := 1 }
    let v : Version := { number := 0, value := .zero }
    ∃ s : State, Reachable settings .zero 2 s ∧
      .compareSwap 0 { address := 0, version := v } v 1 ∈ s.frames ∧ s.shared.queue = [0] ∧
      s.shared.memory 0 = some (.version v) ∧ 0 ∉ s.shared.freed := by
  intro settings v
  let kept : Kept := { address := 0, version := v }
  let protecting := ((Shared.create settings .zero).setActive 0 true).announce 0 (some 0)
  let drafted := protecting.allocate 1 .one
  let swapped := (drafted.allocate 2 .minusOne).install 2
  have update : Runs (.create settings .zero) [.seek .update] drafted [.compareSwap 0 kept v 1] :=
    .next .seek <| .next (.idle rfl rfl) <| .next (.claim rfl rfl) <| .next .read <|
      .next .announce <| .next (.validate rfl) <| .next (.compute .one rfl) <|
      .next (.allocate rfl) .done
  have swap : Runs drafted [.allocateNew .minusOne] swapped [.send 0] :=
    .next (.allocateNew rfl) <| .next .exchange <| .next (.copyOld rfl) .done
  have retire : Runs swapped [.send 0] { swapped with queue := [0], pending := 1 }
      [.settle [] [0] 0] :=
    .next .send <| .next .count <| .next (.receive rfl) <| .next (.drained rfl) <| .next .scan <|
      .next (.collect rfl) <| .next .collected <| .next (.defer List.mem_cons_self) .done
  have started : Reachable settings .zero 2 ⟨.create settings .zero, [[.seek .update], []]⟩ :=
    Reachable.create.turn (.begin (i := 0) .update rfl)
  have updating := started.runs (i := 0) rfl update
  have both := updating.turn (.begin (i := 1) (.swap .minusOne) rfl)
  have reached := both.runs (i := 1) rfl (swap.trans retire)
  obtain ⟨-, -, -, safe, -⟩ := threads_safe reached
  obtain ⟨present, unfreed⟩ := safe _ List.mem_cons_self 0 kept ⟨rfl, rfl⟩
  exact ⟨_, reached, List.mem_cons_self, rfl, present, unfreed⟩

end Reachable

end Bignum.Threads
