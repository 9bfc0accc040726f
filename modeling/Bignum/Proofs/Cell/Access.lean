import Bignum.Cell.Call

/-!
Accesses to a plain variable, one after another.

An access is an operation on a cell at the moment at which it takes effect, or an attempt of an
update that comes to nothing. `Access.Acts` says what it finds and leaves behind on a variable that
nothing else touches, and `Access.Plays` what a list of accesses leads to.

What an operation takes from the variable, and what it makes of that, is read off the operation and
its trace (`CellOp.taken?`): the verdict of an update is that of its closure, which is run again on
what the trace says that it was given (`Closure.last?`).

* `Plays.values`: the variable holds only its first value and what is written to it.
* `Acts.answered`: every call answers what it would on a plain variable
  (`CellCall.onVariable?`), and leaves the same value.
-/

namespace Bignum

/-! ### What an operation takes and makes of it -/

namespace Verdict

/-- The value that is to be installed. -/
def value? : Verdict → Option Integer
  | install value => some value
  | decline | fail _ => none

/-- The value that a verdict leaves in the place of another one. -/
def left (verdict : Verdict) (before : Integer) : Integer := verdict.value?.getD before

/-- How an update ends with a verdict on the value that it exchanges. -/
def outcome (verdict : Verdict) (before : Integer) : Outcome :=
  match verdict with
  | .install value => .installed before value
  | .decline => .declined before
  | .fail cause => .failed cause

end Verdict

/-- The calls of the closure among the moments of an update: the snapshots and what was done. -/
def Moment.calls (moments : List Moment) : List (Integer × List Trace) :=
  moments.filterMap fun
    | .called snapshot nested => some (snapshot, nested)
    | _ => none

/-- The verdict of a closure call whose operations did what traces say. -/
def Body.verdict : Body → List Trace → Verdict
  | .finish verdict, _ => verdict
  | .perform _ _, [] => .decline
  | .perform _ next, first :: others => (next first).verdict others

/-- What the last of some calls of a closure was given, and its verdict. -/
def Closure.last? : Closure → List (Integer × List Trace) → Option (Integer × Verdict)
  | _, [] => none
  | .settle verdict, (seen, _) :: _ => some (seen, verdict seen)
  | .call body rest, (seen, nested) :: calls =>
      if calls = [] then some (seen, (body seen).verdict nested) else rest.last? calls

/-- What an operation takes, and its verdict on that. A load has no other value to put in the place,
and one that replaces the value has none to wait for. -/
def CellOp.taken? : CellOp → Trace → Option (Integer × Verdict)
  | .load, .loaded version => some (version.value, .decline)
  | .replace value, .replaced previous => some (previous, .install value)
  | .update closure, .updated moments _ => closure.last? (Moment.calls moments)
  | _, _ => none

/-! ### Accesses -/

/-- An access to the value of a cell. -/
inductive Access where
  /-- An attempt of an update that loses its race has only looked. -/
  | lose (seen : Integer)
  /-- An operation, with what it did. -/
  | perform (op : CellOp) (trace : Trace)

namespace Access

/-- What an access takes, and its verdict on that. -/
def taken? : Access → Option (Integer × Verdict)
  | .lose seen => some (seen, .decline)
  | .perform op trace => op.taken? trace

/-- The value that an access finds. -/
def seen? (a : Access) : Option Integer := a.taken?.map (·.1)

/-- The value that an access puts in the place of the one that it finds. -/
def written? (a : Access) : Option Integer := a.taken?.bind (·.2.value?)

def Writes (a : Access) : Prop := a.written?.isSome = true

instance : DecidablePred Writes := fun a => inferInstanceAs (Decidable (a.written?.isSome = true))

/-- The operation that takes effect, with what it did. -/
def operation? : Access → Option (CellOp × Trace)
  | .lose _ => none
  | .perform op trace => some (op, trace)

/-- The end of the update that takes effect. -/
def outcome? : Access → Option Outcome
  | .perform _ (.updated _ outcome) => some outcome
  | _ => none

/-- What an access does to a variable that holds the value `before`: it takes that value, leaves
what its verdict says, and if it is an update, ends by the verdict too. -/
def Acts (a : Access) (before after : Integer) : Prop :=
  ∃ verdict, a.taken? = some (before, verdict) ∧ after = verdict.left before ∧
    ∀ outcome ∈ a.outcome?, outcome = verdict.outcome before

/-- Accesses one after another, from one value of the variable to another. -/
inductive Plays : Integer → List Access → Integer → Prop where
  | done (v : Integer) : Plays v [] v
  | next {u v w : Integer} {a : Access} {as : List Access} :
      a.Acts u v → Plays v as w → Plays u (a :: as) w

theorem Plays.append {u v w : Integer} {as bs : List Access} (first : Plays u as v)
    (second : Plays v bs w) : Plays u (as ++ bs) w := by
  induction first with
  | done v => exact second
  | next acts _ ih => exact .next acts (ih second)

theorem Plays.single {u v : Integer} {a : Access} (acts : a.Acts u v) : Plays u [a] v :=
  .next acts (.done v)

/-- Any access divides the others into those before it and those after it. -/
theorem Plays.split {u w : Integer} {earlier later : List Access} {a : Access}
    (plays : Plays u (earlier ++ a :: later) w) :
    ∃ before after, Plays u earlier before ∧ a.Acts before after ∧ Plays after later w := by
  induction earlier generalizing u with
  | nil =>
      cases plays with
      | next acts rest => exact ⟨u, _, .done u, acts, rest⟩
  | cons b earlier ih =>
      cases plays with
      | next acts rest =>
          obtain ⟨before, after, first, middle, last⟩ := ih rest
          exact ⟨before, after, .next acts first, middle, last⟩

theorem acts_lose (v : Integer) : (lose v).Acts v v :=
  ⟨.decline, rfl, rfl, nofun⟩

section Taken

variable {a : Access} {before : Integer} {verdict : Verdict}

theorem written?_eq (taken : a.taken? = some (before, verdict)) : a.written? = verdict.value? := by
  rw [written?, taken, Option.bind_some]

/-- An update acts if it ended by its verdict. -/
theorem acts_of_taken (taken : a.taken? = some (before, verdict))
    (ends : a.outcome? = some (verdict.outcome before)) : a.Acts before (verdict.left before) := by
  refine ⟨verdict, taken, rfl, fun outcome mem => ?_⟩
  rw [ends] at mem
  exact (Option.some.inj mem).symm

end Taken

/-- An access finds the value before it, and leaves that or the one that it writes. -/
theorem Acts.seen_eq {u v : Integer} {a : Access} (acts : a.Acts u v) :
    a.seen? = some u ∧ v ∈ u :: a.written?.toList := by
  obtain ⟨verdict, taken, rfl, -⟩ := acts
  refine ⟨by rw [seen?, taken, Option.map_some], ?_⟩
  rw [written?_eq taken, Verdict.left]
  cases verdict.value? with
  | none => exact List.mem_cons_self
  | some value => exact List.mem_cons_of_mem _ List.mem_cons_self

/-- The variable never holds anything but its first value and what is written to it. -/
theorem Plays.values {u v : Integer} {as : List Access} (plays : Plays u as v) :
    v ∈ u :: as.filterMap written? ∧
      ∀ a ∈ as, ∀ seen ∈ a.seen?, seen ∈ u :: as.filterMap written? := by
  induction plays with
  | done v => exact ⟨List.mem_cons_self, fun a mem => nomatch mem⟩
  | @next u v w a as acts _ ih =>
      obtain ⟨found, left⟩ := acts.seen_eq
      have later {x : Integer} (mem : x ∈ v :: as.filterMap written?) :
          x ∈ u :: (a :: as).filterMap written? := by
        rw [List.filterMap_cons]
        cases written : a.written? with
        | none =>
            rw [written] at left
            obtain rfl := List.mem_singleton.mp left
            exact mem
        | some value =>
            rw [written] at left
            rcases List.mem_cons.mp mem with rfl | mem
            · exact List.mem_append_left (as.filterMap written?) left
            · exact List.mem_cons_of_mem _ (List.mem_cons_of_mem _ mem)
      refine ⟨later ih.1, fun b mem seen sees => ?_⟩
      rcases List.mem_cons.mp mem with rfl | mem
      · obtain rfl := Option.some.inj (found.symm.trans sees)
        exact List.mem_cons_self
      · exact later (ih.2 b mem seen sees)

end Access

/-! ### Calls on a plain variable -/

namespace CellCall

/-- Leave the result of a calculation, or the value before where it has none. -/
def compute (before : Integer) (result : Except ArithmeticError Integer)
    (answer : Integer → Integer) : CellReply × Integer :=
  match result with
  | .ok value => (.result (.ok (answer value)), value)
  | .error cause => (.result (.error (.arithmetic cause)), before)

/-- The answer of a call on a plain variable, and the value that it leaves there. Where the call has
a closure, its verdict is given; there is no answer for one that failed and may not. -/
def onVariable? (call : CellCall) (verdict : Verdict) (before : Integer) :
    Option (CellReply × Integer) :=
  match call with
  | load => some (.value before, before)
  | inspect limit => some (.text (Cell.inspect limit before), before)
  | store value => some (.done, value)
  | swap value => some (.value before, value)
  | compareExchange expected value =>
      if before = expected then some (.exchange (.ok before), value)
      else some (.exchange (.error before), before)
  | fetchUpdate _ =>
      match verdict with
      | .install value => some (.exchange (.ok before), value)
      | .decline => some (.exchange (.error before), before)
      | .fail _ => none
  | tryUpdate _ =>
      match verdict with
      | .install value => some (.result (.ok before), value)
      | .decline => some (.result (.ok before), before)
      | .fail cause => some (.result (.error (.arithmetic cause)), before)
  | fetch limit op b => compute before (op.checked limit before b) fun _ => before
  | fetchMax b =>
      some (.value before, if before.compareOperand b = .lt then b.toInteger else before)
  | fetchMin b =>
      some (.value before, if before.compareOperand b = .gt then b.toInteger else before)
  | increment limit => compute before (before.increment limit true) fun value => value
  | decrement limit => compute before (before.decrement limit true) fun value => value

/-- A call took the value `before` and left `after`, and it has answered and left what it would on a
plain variable with the value that it took. -/
def Answered (call : CellCall) (trace : Trace) (before after : Integer) : Prop :=
  ∃ verdict, call.op.taken? trace = some (before, verdict) ∧
    call.onVariable? verdict before = (call.reply? trace).map fun reply => (reply, after)

end CellCall

/-- An update that does not touch the cell has the verdict that it always has. -/
theorem last?_settle {f : Integer → Verdict} {calls : List (Integer × List Trace)} {seen : Integer}
    {verdict : Verdict} (last : (Closure.settle f).last? calls = some (seen, verdict)) :
    verdict = f seen := by
  cases calls with
  | nil => cases last
  | cons call calls =>
      cases last
      rfl

namespace Access

variable {before after : Integer} {trace : Trace}

/-- An update answers as a call if what it would on a plain variable is what the call reads off the
end of the update. -/
theorem Acts.answered_update {call : CellCall} {closure : Closure}
    (same : call.op = .update closure)
    (acts : (perform call.op trace).Acts before after)
    (agree : ∀ moments verdict, closure.last? (Moment.calls moments) = some (before, verdict) →
      call.onVariable? verdict before =
        (call.reply? (.updated moments (verdict.outcome before))).map
          fun reply => (reply, verdict.left before)) :
    call.Answered trace before after := by
  obtain ⟨verdict, taken, rfl, ends⟩ := acts
  refine ⟨verdict, taken, ?_⟩
  rw [same] at taken
  cases trace with
  | loaded version => cases taken
  | replaced previous => cases taken
  | updated moments outcome =>
      rw [ends outcome rfl]
      exact agree moments verdict taken

/-- **A call answers what it would on a plain variable.** -/
theorem Acts.answered {call : CellCall} (acts : (perform call.op trace).Acts before after) :
    call.Answered trace before after := by
  cases call with
  | load | inspect _ =>
      obtain ⟨verdict, taken, rfl, -⟩ := acts
      cases trace with
      | loaded version =>
          cases taken
          exact ⟨.decline, rfl, rfl⟩
      | replaced previous => cases taken
      | updated moments outcome => cases taken
  | store value | swap value =>
      obtain ⟨verdict, taken, rfl, -⟩ := acts
      cases trace with
      | loaded version => cases taken
      | replaced previous =>
          cases taken
          exact ⟨.install value, rfl, rfl⟩
      | updated moments outcome => cases taken
  | fetchUpdate _ | tryUpdate _ =>
      refine acts.answered_update rfl fun moments verdict _ => ?_
      cases verdict <;> rfl
  | compareExchange _ _ | fetchMax _ | fetchMin _ =>
      refine acts.answered_update rfl fun moments verdict last => ?_
      obtain rfl := last?_settle last
      simp only [CellCall.onVariable?]
      split <;> rfl
  | fetch limit op b =>
      refine acts.answered_update rfl fun moments verdict last => ?_
      obtain rfl := last?_settle last
      simp only [CellCall.onVariable?]
      cases op.checked limit before b <;> rfl
  | increment limit =>
      refine acts.answered_update rfl fun moments verdict last => ?_
      obtain rfl := last?_settle last
      simp only [CellCall.onVariable?]
      cases before.increment limit true <;> rfl
  | decrement limit =>
      refine acts.answered_update rfl fun moments verdict last => ?_
      obtain rfl := last?_settle last
      simp only [CellCall.onVariable?]
      cases before.decrement limit true <;> rfl

end Access

end Bignum
