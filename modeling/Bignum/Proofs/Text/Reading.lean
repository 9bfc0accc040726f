import Bignum.Proofs.Digits.Product
import Bignum.Proofs.Integer.Canonical
import Bignum.Proofs.Text.Language

/-!
Reading accepts exactly the texts that write integers, and reports the first character out of place.

The reader collects symbols until they fill a digit. `Collected` ties what it has collected to the
characters behind it: the digits and the waiting symbols together have the value of all symbols so
far, and neither the waiting value nor its scale outgrows a digit.

* `Collected.skip`, `Collected.push`: every character keeps that.
* `readSymbols_ends`: the reader stops at the first character that is out of place.
* `ofText_eq_iff`: the answer for a text is what the text means, as long as storage is granted; and
  storage for as many digits as the text has characters is enough, or for four.
-/

namespace Bignum

namespace Text

variable {limit radix : Nat}

/-! ### Bringing symbols in -/

namespace Reading

/-- A waiting value and its scale that fit into digits. -/
structure Fits (radix : Nat) (r : Reading) : Prop where
  scale : radix ^ r.count < Digit.base
  pending : r.pending < radix ^ r.count

/-- What is brought in is neither more nor less than what waited. -/
theorem Fits.flush_ok {r next : Reading} (fits : r.Fits radix)
    (done : r.flush limit radix = .ok next) :
    next.digits.toNat = r.digits.toNat * radix ^ r.count + r.pending ∧
      next.digits.length ≤ r.digits.length + 1 ∧
      next.pending = 0 ∧ next.count = 0 ∧ next.seen = r.seen := by
  obtain ⟨digits, scaled, rfl⟩ := map_eq_ok_iff.mp done
  have scale : (UInt64.ofNat (radix.pow r.count)).toNat = radix ^ r.count :=
    Digit.toNat_ofNat_of_lt fits.scale
  have value := Digits.toNat_of_mulAddDigit scaled
  rw [scale, Digit.toNat_ofNat_of_lt (fits.pending.trans fits.scale)] at value
  exact ⟨value, Digits.length_of_mulAddDigit scaled, rfl, rfl, rfl⟩

theorem le_of_flush_error {r : Reading} {cause : AllocationError}
    (refused : r.flush limit radix = .error cause) : limit ≤ Storage.mostRoom r.digits.length :=
  Digits.le_of_mulAddDigit_error (map_eq_error_iff.mp refused)

/-! ### What has been collected -/

/-- Characters have been read into a reading, and their symbols have the given values. -/
structure Collected (radix : Nat) (chars : List Char) (values : List Nat) (r : Reading) :
    Prop where
  proper : Proper radix chars
  spells : Spells radix chars values
  seen : r.seen = true ↔ values ≠ []
  short : r.count < chunkLength radix
  pending : r.pending < radix ^ r.count
  value : r.digits.toNat * radix ^ r.count + r.pending = Nat.ofDigits radix values.reverse
  /-- A digit is only added for symbols that no longer wait, of which there are two or more. -/
  length : 2 * r.digits.length + r.count ≤ values.length

namespace Collected

variable {chars : List Char} {values : List Nat} {r : Reading}

theorem start (small : radix ≤ 36) : Collected radix [] [] .start where
  proper := proper_nil
  spells := .nil
  seen := by simp [Reading.start]
  short := chunkLength_pos small
  pending := Nat.one_pos
  value := rfl
  length := Nat.le_refl 0

/-- There is room in a digit for the scale with one more symbol. -/
theorem scale_lt (collected : Collected radix chars values r) (large : 2 ≤ radix) :
    radix ^ (r.count + 1) < Digit.base :=
  Nat.lt_of_le_of_lt (Nat.pow_le_pow_right (by omega) collected.short) (pow_chunkLength_lt radix)

/-- There is room in the scale for one more symbol. -/
theorem pending_lt (collected : Collected radix chars values r) {value : Nat}
    (below : value < radix) : r.pending * radix + value < radix ^ (r.count + 1) := by
  have room : (r.pending + 1) * radix ≤ radix ^ r.count * radix :=
    Nat.mul_le_mul_right radix collected.pending
  rw [Nat.pow_succ]
  rw [Nat.add_mul, Nat.one_mul] at room
  omega

theorem fits (collected : Collected radix chars values r) (large : 2 ≤ radix) : r.Fits radix where
  scale := Nat.lt_of_le_of_lt (Nat.pow_le_pow_right (by omega) (Nat.le_succ r.count))
    (collected.scale_lt large)
  pending := collected.pending

/-- An underscore may be skipped once there was a symbol. -/
theorem skip (collected : Collected radix chars values r) (small : radix ≤ 36)
    (seen : r.seen = true) : Collected radix (chars ++ ['_']) values r := by
  have symbols := (collected.spells.ne_nil_iff small).mp (collected.seen.mp seen)
  exact { collected with
    proper := collected.proper.snoc (.inr ⟨rfl, symbols⟩)
    spells := collected.spells.snoc_underscore }

/-- The state after a symbol, before it is checked whether a chunk is full. -/
theorem ofDigits_snoc (collected : Collected radix chars values r) (value : Nat) :
    r.digits.toNat * radix ^ (r.count + 1) + (r.pending * radix + value) =
      Nat.ofDigits radix (values ++ [value]).reverse := by
  rw [List.reverse_append, List.reverse_singleton, List.singleton_append, Nat.ofDigits_cons,
    ← collected.value]
  ring

/-- A symbol is appended to what has been collected, whether it fills a chunk or not. -/
theorem push (collected : Collected radix chars values r) (range : 2 ≤ radix ∧ radix ≤ 36)
    {c : Char} {value : Nat} (symbol : IsSymbol radix c value) {next : Reading}
    (done : r.push limit radix value = .ok next) :
    Collected radix (chars ++ [c]) (values ++ [value]) next := by
  have length := collected.length
  have longer : (values ++ [value]).length = values.length + 1 := List.length_append
  have written := collected.ofDigits_snoc value
  have proper : Proper radix (chars ++ [c]) := collected.proper.snoc (.inl ⟨value, symbol⟩)
  have spells : Spells radix (chars ++ [c]) (values ++ [value]) :=
    collected.spells.snoc range.2 symbol
  simp only [Reading.push] at done
  split at done
  · rename_i full
    have symbols := two_le_chunkLength range.2
    have fits : Fits radix
        { digits := r.digits, room := r.room, pending := r.pending * radix + value,
          count := r.count + 1, seen := true } :=
      { scale := collected.scale_lt range.1, pending := collected.pending_lt symbol.1 }
    obtain ⟨digits, grown, pending, count, seen⟩ := fits.flush_ok done
    simp only at digits grown seen
    refine ⟨proper, spells, ?_, ?_, ?_, ?_, ?_⟩
    · simp [seen]
    · rw [count]
      exact chunkLength_pos range.2
    · rw [count, pending]
      exact Nat.one_pos
    · rw [count, pending, digits, ← written]
      ring
    · rw [count, longer]
      omega
  · rename_i more
    obtain rfl := Except.ok.inj done
    have short := collected.short
    refine ⟨proper, spells, ?_, ?_, collected.pending_lt symbol.1, written, ?_⟩
    · simp
    · simp only at more ⊢
      omega
    · simp only [longer]
      omega

/-- The room for the digits is no more than what their symbols take, if it is more than four. -/
theorem le_of_le_mostRoom (collected : Collected radix chars values r)
    (le : limit ≤ Storage.mostRoom r.digits.length) : limit ≤ 4 ∨ limit ≤ values.length := by
  have length := collected.length
  rcases le_max_iff.mp le with few | many
  · exact .inl few
  · exact .inr (by omega)

theorem le_of_push_error (collected : Collected radix chars values r) {value : Nat}
    {cause : AllocationError}
    (refused : r.push limit radix value = .error cause) : limit ≤ 4 ∨ limit ≤ values.length := by
  simp only [Reading.push] at refused
  split at refused
  · have grown := le_of_flush_error refused
    exact collected.le_of_le_mostRoom grown
  · cases refused

end Collected

end Reading

/-! ### Reading all characters -/

/-- How reading `rest` may end once `chars` have been read. -/
def Ends (limit radix : Nat) (chars rest : List Char) (index : Nat) :
    Except ParseError Reading → Prop
  | .ok r => ∃ values, Reading.Collected radix (chars ++ rest) values r
  | .error (.invalidDigit place c) =>
      ∃ before after, rest = before ++ c :: after ∧ Proper radix (chars ++ before) ∧
        ¬ Follows radix (chars ++ before) c ∧ place = index + bytes before
  | .error (.allocation _) => limit ≤ 4 ∨ limit ≤ (chars ++ rest).length
  | .error _ => False

theorem Ends.cons {chars rest : List Char} {c : Char} {index : Nat}
    {result : Except ParseError Reading}
    (ends : Ends limit radix (chars ++ [c]) rest (index + c.utf8Size) result) :
    Ends limit radix chars (c :: rest) index result := by
  cases result with
  | ok r =>
      obtain ⟨values, collected⟩ := ends
      refine ⟨values, ?_⟩
      rw [← List.singleton_append, ← List.append_assoc]
      exact collected
  | error e =>
      cases e with
      | empty => exact ends
      | invalidRadix radix => exact ends
      | allocation cause =>
          unfold Ends at ends ⊢
          rw [← List.singleton_append, ← List.append_assoc]
          exact ends
      | invalidDigit place d =>
          obtain ⟨before, after, rfl, proper, stray, rfl⟩ := ends
          rw [List.append_assoc] at proper stray
          refine ⟨c :: before, after, rfl, proper, stray, ?_⟩
          rw [← List.singleton_append, bytes_append, bytes_singleton, Nat.add_assoc]

/-- **The reader stops at the first character that is out of place**, and else at the end, with the
value of all symbols. -/
theorem readSymbols_ends (limit : Nat) (range : 2 ≤ radix ∧ radix ≤ 36) {chars : List Char}
    {values : List Nat} {r : Reading} (collected : r.Collected radix chars values)
    (rest : List Char) (index : Nat) :
    Ends limit radix chars rest index (readSymbols limit radix rest index r) := by
  induction rest generalizing chars values r index with
  | nil => exact ⟨values, (List.append_nil chars).symm ▸ collected⟩
  | cons c cs ih =>
      unfold readSymbols
      split
      · rename_i skipped
        obtain ⟨underscore, seen⟩ := (Bool.and_eq_true _ _).mp skipped
        obtain rfl := of_decide_eq_true underscore
        exact (ih (collected.skip range.2 seen) _).cons
      · rename_i kept
        cases found : symbolValue? radix c with
        | none =>
            refine ⟨[], cs, rfl, ?_, ?_, rfl⟩
            · rw [List.append_nil]
              exact collected.proper
            · rw [List.append_nil]
              rintro (symbol | ⟨rfl, before⟩)
              · exact (symbolValue?_eq_none_iff range.2).mp found symbol
              · have seen := collected.seen.mpr ((collected.spells.ne_nil_iff range.2).mpr before)
                exact kept (by rw [seen]; rfl)
        | some value =>
            have symbol := (symbolValue?_eq_some_iff range.2).mp found
            simp only
            cases pushed : r.push limit radix value with
            | error cause =>
                have full := collected.le_of_push_error pushed
                have length := collected.spells.length_le
                show limit ≤ 4 ∨ limit ≤ (chars ++ c :: cs).length
                rw [List.length_append, List.length_cons]
                omega
            | ok next => exact (ih (collected.push range symbol pushed) _).cons

/-- Signs are split off as the language says. -/
theorem splitSign_splitsOff (text : List Char) :
    ∃ sign, SplitsOff text sign (splitSign text).2.1 ∧
      (splitSign text).1 = decide (sign = ['-']) ∧ (splitSign text).2.2 = bytes sign := by
  unfold splitSign
  split
  · exact ⟨['-'], ⟨rfl, .inl rfl⟩, rfl, rfl⟩
  · exact ⟨['+'], ⟨rfl, .inr (.inl rfl)⟩, rfl, rfl⟩
  · rename_i minus plus
    refine ⟨[], ⟨rfl, .inr (.inr ⟨rfl, ?_⟩)⟩, rfl, rfl⟩
    intro c head
    cases text with
    | nil => cases head
    | cons d ds =>
        obtain rfl := Option.some.inj head
        refine ⟨?_, ?_⟩
        · rintro rfl
          exact minus ds rfl
        · rintro rfl
          exact plus ds rfl

end Text

namespace Integer

open Text

/-! ### What has been collected answers the text -/

section Collected

variable {radix : Nat} {text sign body : List Char} {values : List Nat} {r : Reading}
  (range : 2 ≤ radix ∧ radix ≤ 36) (splits : SplitsOff text sign body)
  (collected : r.Collected radix body values)

include range splits collected

/-- Without a symbol the text is empty. -/
theorem reads_empty (unseen : r.seen = false) : Reads radix text (.error .empty) := by
  refine .empty range splits collected.proper ?_
  intro c mem symbol
  have some := (collected.spells.ne_nil_iff range.2).mpr ⟨c, mem, symbol⟩
  rw [collected.seen.mpr some] at unseen
  cases unseen

/-- Digits that write the value of all symbols answer the text, with the sign in front of it. -/
theorem reads_ofMagnitude (seen : r.seen = true) {digits : Digits}
    (value : digits.toNat = r.digits.toNat * radix ^ r.count + r.pending) :
    Reads radix text (.ok (ofMagnitude (decide (sign = ['-'])) digits)) := by
  refine .value range splits collected.proper collected.spells (collected.seen.mp seen)
    (canonical_ofMagnitude _ _) ?_
  rw [toInt_ofMagnitude, value, collected.value]
  by_cases minus : sign = ['-'] <;> simp [minus]

/-- If no symbol waits, the digits have the whole value. -/
theorem reads_settled (seen : r.seen = true) (nothing : r.count = 0) :
    Reads radix text (.ok (ofMagnitude (decide (sign = ['-'])) r.digits)) := by
  apply reads_ofMagnitude range splits collected seen
  have pending := collected.pending
  rw [nothing, Nat.pow_zero] at pending ⊢
  omega

theorem reads_flushed {limit : Nat} {last : Reading} (seen : r.seen = true)
    (flushed : r.flush limit radix = .ok last) :
    Reads radix text (.ok (ofMagnitude (decide (sign = ['-'])) last.digits)) := by
  obtain ⟨value, -⟩ := (collected.fits range.1).flush_ok flushed
  exact reads_ofMagnitude range splits collected seen value

end Collected

/-- A text is refused storage only at a limit that is no larger than itself, or than the room for
four digits that is asked for at least; and it is answered with its meaning otherwise. -/
theorem ofText_reads (limit radix : Nat) (text : String) :
    (∃ cause, ofText limit radix text = .error (.allocation cause)) ∧
        (limit ≤ 4 ∨ limit ≤ text.length) ∨
      Reads radix text.toList (ofText limit radix text) := by
  unfold ofText
  split
  · rename_i outside
    refine .inr (.invalidRadix ?_)
    rintro ⟨large, small⟩
    simp at outside
    omega
  · rename_i inside
    have range : 2 ≤ radix ∧ radix ≤ 36 := by
      simp at inside
      omega
    obtain ⟨sign, splits, minus, index⟩ := splitSign_splitsOff text.toList
    have ends := readSymbols_ends limit range (Reading.Collected.start range.2)
      (splitSign text.toList).2.1 (splitSign text.toList).2.2
    have whole := congrArg List.length splits.1
    rw [String.length_toList, List.length_append] at whole
    generalize splitSign text.toList = parts at *
    obtain ⟨negative, body, start⟩ := parts
    simp only at *
    cases read : readSymbols limit radix body start .start with
    | error e =>
        rw [read] at ends
        cases e with
        | empty => exact ends.elim
        | invalidRadix radix => exact ends.elim
        | allocation cause =>
            refine .inl ⟨⟨cause, rfl⟩, ?_⟩
            have full : limit ≤ 4 ∨ limit ≤ ([] ++ body).length := ends
            rw [List.nil_append] at full
            omega
        | invalidDigit place c =>
            obtain ⟨before, after, place', proper, stray, rfl⟩ := ends
            rw [List.nil_append] at proper stray
            rw [index, ← bytes_append]
            exact .inr (.stray range splits place' proper stray)
    | ok r =>
        rw [read] at ends
        obtain ⟨values, collected⟩ := ends
        rw [List.nil_append] at collected
        simp only [Except.bind, minus]
        cases seen : r.seen with
        | false => exact .inr (reads_empty range splits collected seen)
        | true =>
            rw [Bool.not_true, if_neg Bool.false_ne_true]
            split
            · rename_i nothing
              exact .inr (reads_settled range splits collected seen nothing)
            · cases flushed : r.flush limit radix with
              | error cause =>
                  have grown :=
                    collected.le_of_le_mostRoom (Reading.le_of_flush_error flushed)
                  have spelled := collected.spells.length_le
                  exact .inl ⟨⟨cause, rfl⟩, by omega⟩
              | ok last => exact .inr (reads_flushed range splits collected seen flushed)

/-- **Reading answers what a text means**, as long as storage is granted; and the limit has to be
within the length of the text, or four, for a refusal. At no point of a text does a value that
waits, its scale or a product in place outgrow the words that hold it. -/
theorem ofText_eq_iff (limit radix : Nat) (text : String) :
    ((∃ cause, ofText limit radix text = .error (.allocation cause)) ∧
        (limit ≤ 4 ∨ limit ≤ text.length) ∨
      ∀ result, ofText limit radix text = result ↔ Reads radix text.toList result) ∧
    (∀ chars index r, 2 ≤ radix ∧ radix ≤ 36 →
      readSymbols limit radix chars index .start = .ok r →
        radix ^ (r.count + 1) < Digit.base ∧
          ∀ value < radix, r.pending * radix + value < radix ^ (r.count + 1)) ∧
    ∀ d factor carry : Digit,
      d.toNat * factor.toNat + carry.toNat < Digit.base * Digit.base := by
  refine ⟨?_, ?_, ?_⟩
  · rcases ofText_reads limit radix text with refused | reads
    · exact .inl refused
    · refine .inr fun result => ⟨?_, reads.unique⟩
      rintro rfl
      exact reads
  · intro chars index r range read
    have ends := readSymbols_ends limit range (Reading.Collected.start range.2)
      chars index
    rw [read] at ends
    obtain ⟨values, collected⟩ := ends
    exact ⟨collected.scale_lt range.1, fun value below => collected.pending_lt below⟩
  · intro d factor carry
    have fits := Digit.row_total_lt 0 d factor carry
    rw [UInt64.toNat_zero, Nat.zero_add] at fits
    exact fits

/-- A sign, and an underscore behind a symbol. -/
theorem ofText_negative_ten :
    ofText 65536 10 "-1_0" = .ok { negative := true, digits := [10] } ∧
      Reads 10 "-1_0".toList (.ok { negative := true, digits := [10] }) ∧
      readSymbols 65536 10 ['1', '_', '0'] 1 .start =
        .ok { digits := [], room := 0, pending := 10, count := 2, seen := true } ∧
      10 * 10 + 9 < 10 ^ (2 + 1) := by
  have answer : ofText 65536 10 "-1_0" = .ok { negative := true, digits := [10] } := by decide
  have read : readSymbols 65536 10 ['1', '_', '0'] 1 .start =
      .ok { digits := [], room := 0, pending := 10, count := 2, seen := true } := by decide
  obtain ⟨answers, room, -⟩ := ofText_eq_iff 65536 10 "-1_0"
  refine ⟨answer, ?_, read, (room _ _ _ (by decide) read).2 9 (by decide)⟩
  rcases answers with ⟨-, short⟩ | reads
  · exact absurd short (by decide)
  · exact (reads _).mp answer

/-- The first digit asks for the room of four, and is all that the refusal names. -/
example : ofText 4 10 "5" = .error (.allocation { requested := 1 }) := by decide

end Integer

end Bignum
