import Bignum.Integer.Operand
import Bignum.Proofs.Integer.Value
import Bignum.Proofs.Text.Symbol
import Bignum.Text.Parse
import Mathlib.Data.List.Forall2
import Mathlib.Data.Nat.Digits.Defs

/-!
The texts that write integers, described without a reader.

`Reads` tells what a text means: one sign may be split off, and then symbols follow in either case,
with underscores anywhere behind the first symbol. Their value is that of Mathlib's `Nat.ofDigits`;
the first character that is out of place makes the text mean nothing.

* `Reads.unique`: a text means at most one thing.
-/

namespace Bignum

namespace Text

/-! ### The language -/

/-- Whether `c` may stand behind the characters `before`: a symbol may always, an underscore only
with a symbol somewhere before it. -/
def Follows (radix : Nat) (before : List Char) (c : Char) : Prop :=
  (∃ value, IsSymbol radix c value) ∨
    c = '_' ∧ ∃ d ∈ before, ∃ value, IsSymbol radix d value

/-- Every character may stand where it stands. -/
def Proper (radix : Nat) (chars : List Char) : Prop :=
  ∀ before c after, chars = before ++ c :: after → Follows radix before c

/-- The values of the symbols, underscores left out. -/
def Spells (radix : Nat) (chars : List Char) (values : List Nat) : Prop :=
  List.Forall₂ (IsSymbol radix) (chars.filter (· ≠ '_')) values

/-- One sign is split off a text, if it starts with one. -/
def SplitsOff (text sign body : List Char) : Prop :=
  text = sign ++ body ∧
    (sign = ['-'] ∨ sign = ['+'] ∨ sign = [] ∧ ∀ c ∈ body.head?, c ≠ '-' ∧ c ≠ '+')

/-- The length of characters in bytes. -/
def bytes (chars : List Char) : Nat := (String.ofList chars).utf8ByteSize

/-- What a text means in a radix: an integer, or the reason why it is none. -/
inductive Reads (radix : Nat) (text : List Char) : Except ParseError Integer → Prop where
  | invalidRadix : ¬ (2 ≤ radix ∧ radix ≤ 36) → Reads radix text (.error (.invalidRadix radix))
  /-- The first character out of place is reported with the bytes in front of it. -/
  | stray {sign body before after : List Char} {c : Char} :
      2 ≤ radix ∧ radix ≤ 36 → SplitsOff text sign body → body = before ++ c :: after →
        Proper radix before → ¬ Follows radix before c →
        Reads radix text (.error (.invalidDigit (bytes (sign ++ before)) c))
  | empty {sign body : List Char} :
      2 ≤ radix ∧ radix ≤ 36 → SplitsOff text sign body → Proper radix body →
        (∀ c ∈ body, ¬ ∃ value, IsSymbol radix c value) → Reads radix text (.error .empty)
  | value {sign body : List Char} {values : List Nat} {v : Integer} :
      2 ≤ radix ∧ radix ≤ 36 → SplitsOff text sign body → Proper radix body →
        Spells radix body values → values ≠ [] → v.Canonical →
        v.toInt =
            (if sign = ['-'] then -1 else 1) * ((Nat.ofDigits radix values.reverse : Nat) : Int) →
        Reads radix text (.ok v)

/-! ### Properties of the language -/

section Language

variable {radix : Nat} {before after chars : List Char} {c : Char} {values : List Nat}

theorem proper_nil : Proper radix [] := by
  intro before c after split
  cases before with
  | nil => cases split
  | cons b bs => cases split

theorem Proper.snoc (proper : Proper radix chars) (follows : Follows radix chars c) :
    Proper radix (chars ++ [c]) := by
  intro before d after split
  rcases List.eq_nil_or_concat' after with rfl | ⟨after, last, rfl⟩
  · obtain ⟨rfl, same⟩ := List.append_inj' split rfl
    obtain rfl := (List.cons.inj same).1
    exact follows
  · rw [← List.cons_append, ← List.append_assoc] at split
    obtain ⟨rfl, -⟩ := List.append_inj' split rfl
    exact proper before d after rfl

/-- Two first characters out of place are one. -/
theorem stray_unique {before' after' : List Char} {c' : Char}
    (same : before ++ c :: after = before' ++ c' :: after') (proper : Proper radix before)
    (stray : ¬ Follows radix before c) (proper' : Proper radix before')
    (stray' : ¬ Follows radix before' c') : before = before' ∧ c = c' := by
  rcases List.append_eq_append_iff.mp same with ⟨more, rfl, rest⟩ | ⟨more, rfl, rest⟩
  · cases more with
    | nil => exact ⟨(List.append_nil before).symm, (List.cons.inj rest).1⟩
    | cons d ds =>
        obtain ⟨rfl, -⟩ := List.cons.inj rest
        exact absurd (proper' before c ds rfl) stray
  · cases more with
    | nil => exact ⟨List.append_nil before', (List.cons.inj rest).1.symm⟩
    | cons d ds =>
        obtain ⟨rfl, -⟩ := List.cons.inj rest
        exact absurd (proper before' c' ds rfl) stray'

theorem Spells.length_le (spells : Spells radix chars values) : values.length ≤ chars.length := by
  rw [← spells.length_eq]
  exact List.length_filter_le _ _

theorem Spells.unique (small : radix ≤ 36) {values' : List Nat} (first : Spells radix chars values)
    (second : Spells radix chars values') : values = values' := by
  unfold Spells at first second
  generalize chars.filter (· ≠ '_') = kept at first second
  induction first generalizing values' with
  | nil =>
      cases second
      rfl
  | cons symbol _ ih =>
      cases second with
      | cons symbol' rest => rw [symbol.unique small symbol', ih rest]

/-- There are values exactly if there are symbols. -/
theorem Spells.ne_nil_iff (small : radix ≤ 36) (spells : Spells radix chars values) :
    values ≠ [] ↔ ∃ c ∈ chars, ∃ value, IsSymbol radix c value := by
  constructor
  · intro some
    unfold Spells at spells
    cases found : chars.filter (· ≠ '_') with
    | nil =>
        rw [found] at spells
        cases spells
        exact absurd rfl some
    | cons c cs =>
        rw [found] at spells
        cases spells with
        | @cons _ value _ _ symbol _ =>
            have mem : c ∈ chars.filter (· ≠ '_') := found ▸ List.mem_cons_self
            exact ⟨c, (List.mem_filter.mp mem).1, value, symbol⟩
  · rintro ⟨c, mem, value, symbol⟩ rfl
    have none : chars.filter (· ≠ '_') = [] := List.forall₂_nil_right_iff.mp spells
    have kept : c ∈ chars.filter (· ≠ '_') := by
      refine List.mem_filter.mpr ⟨mem, ?_⟩
      refine decide_eq_true ?_
      rintro rfl
      exact not_isSymbol_underscore small value symbol
    rw [none] at kept
    cases kept

theorem Spells.snoc (small : radix ≤ 36) (spells : Spells radix chars values) {value : Nat}
    (symbol : IsSymbol radix c value) : Spells radix (chars ++ [c]) (values ++ [value]) := by
  have other : c ≠ '_' := by
    rintro rfl
    exact not_isSymbol_underscore small value symbol
  have kept : [c].filter (· ≠ '_') = [c] := by simp [other]
  unfold Spells
  rw [List.filter_append, kept]
  exact List.rel_append spells (.cons symbol .nil)

theorem Spells.snoc_underscore (spells : Spells radix chars values) :
    Spells radix (chars ++ ['_']) values := by
  have dropped : ['_'].filter (· ≠ '_') = [] := rfl
  unfold Spells
  rw [List.filter_append, dropped, List.append_nil]
  exact spells

theorem bytes_append (first second : List Char) :
    bytes (first ++ second) = bytes first + bytes second := by
  rw [bytes, String.ofList_append, String.utf8ByteSize_append]
  rfl

theorem bytes_singleton (c : Char) : bytes [c] = c.utf8Size := by
  rw [bytes, ← String.singleton_eq_ofList, String.utf8ByteSize_singleton]

end Language

theorem SplitsOff.unique {text sign body sign' body' : List Char}
    (first : SplitsOff text sign body) (second : SplitsOff text sign' body') :
    sign = sign' ∧ body = body' := by
  obtain ⟨rfl, shape⟩ := first
  obtain ⟨same, shape'⟩ := second
  rcases shape with rfl | rfl | ⟨rfl, other⟩ <;> rcases shape' with rfl | rfl | ⟨rfl, plain⟩
  · exact ⟨rfl, (List.cons.inj same).2⟩
  · cases (List.cons.inj same).1
  · subst same
    exact absurd rfl (plain '-' rfl).1
  · cases (List.cons.inj same).1
  · exact ⟨rfl, (List.cons.inj same).2⟩
  · subst same
    exact absurd rfl (plain '+' rfl).2
  · subst same
    exact absurd rfl (other '-' rfl).1
  · subst same
    exact absurd rfl (other '+' rfl).2
  · exact ⟨rfl, same⟩

/-- **A text means at most one thing.** -/
theorem Reads.unique {radix : Nat} {text : List Char} {first second : Except ParseError Integer}
    (left : Reads radix text first) (right : Reads radix text second) : first = second := by
  cases left with
  | invalidRadix wrong =>
      cases right with
      | invalidRadix => rfl
      | stray right => exact absurd right wrong
      | empty right => exact absurd right wrong
      | value right => exact absurd right wrong
  | stray range split place proper stray =>
      cases right with
      | invalidRadix wrong => exact absurd range wrong
      | stray _ split' place' proper' stray' =>
          obtain ⟨rfl, rfl⟩ := split.unique split'
          obtain ⟨rfl, rfl⟩ := stray_unique (place.symm.trans place') proper stray proper' stray'
          rfl
      | empty _ split' proper' =>
          obtain ⟨rfl, rfl⟩ := split.unique split'
          exact absurd (proper' _ _ _ place) stray
      | value _ split' proper' =>
          obtain ⟨rfl, rfl⟩ := split.unique split'
          exact absurd (proper' _ _ _ place) stray
  | empty range split proper none =>
      cases right with
      | invalidRadix wrong => exact absurd range wrong
      | stray _ split' place' _ stray' =>
          obtain ⟨rfl, rfl⟩ := split.unique split'
          exact absurd (proper _ _ _ place') stray'
      | empty => rfl
      | value _ split' _ spells some =>
          obtain ⟨rfl, rfl⟩ := split.unique split'
          obtain ⟨c, mem, symbol⟩ := (spells.ne_nil_iff range.2).mp some
          exact absurd symbol (none c mem)
  | value range split proper spells some canonical value =>
      cases right with
      | invalidRadix wrong => exact absurd range wrong
      | stray _ split' place' _ stray' =>
          obtain ⟨rfl, rfl⟩ := split.unique split'
          exact absurd (proper _ _ _ place') stray'
      | empty _ split' _ none =>
          obtain ⟨rfl, rfl⟩ := split.unique split'
          obtain ⟨c, mem, symbol⟩ := (spells.ne_nil_iff range.2).mp some
          exact absurd symbol (none c mem)
      | value _ split' _ spells' _ canonical' value' =>
          obtain ⟨rfl, rfl⟩ := split.unique split'
          obtain rfl := spells.unique range.2 spells'
          rw [canonical.eq_of_toInt_eq canonical' (value.trans value'.symm)]

end Text

end Bignum
