import Bignum.Proofs.Text.Numeral
import Bignum.Proofs.Text.Reading

/-!
What is written is read back.

A written text consists of a sign and symbols, in either case, and so means its value
(`reads_symbols`, `reads_signed`). Reading collects the digits of what it has read so far and no
more, so that a text is refused only if its value outgrows the room that there may be for them
(`ofText_of_reads`).

* `toText_reads_back`: the text of an integer is its value, written, and is read back in upper case
  and in lower case.
-/

namespace Bignum

/-! ### When reading is refused storage -/

/-- Storage with the given limit may not have grown enough for a value. -/
def Outgrows (limit value : Nat) : Prop :=
  ∃ length, limit ≤ Storage.mostRoom length ∧ Digit.base ^ length ≤ value

theorem Outgrows.mono {limit value larger : Nat} (outgrows : Outgrows limit value)
    (le : value ≤ larger) : Outgrows limit larger := by
  obtain ⟨length, full, long⟩ := outgrows
  exact ⟨length, full, long.trans le⟩

/-- The digits of a value are more than those that it outgrew. -/
theorem Outgrows.le_mostRoom {limit : Nat} {ds : Digits} (canonical : ds.Canonical)
    (outgrows : Outgrows limit ds.toNat) : limit ≤ Storage.mostRoom ds.length := by
  obtain ⟨length, full, long⟩ := outgrows
  have shorter := mt (canonical.length_le_iff length).mp (Nat.not_lt_of_le long)
  unfold Storage.mostRoom at full ⊢
  omega

/-- A product in place is only refused when the digits cannot hold it as they are. -/
theorem Digits.outgrows_of_mulAddDigit_error {limit room : Nat} {ds : Digits}
    {factor addend : Digit} {cause : AllocationError}
    (refused : ds.mulAddDigit limit room factor addend = .error cause) :
    Outgrows limit (ds.toNat * factor.toNat + addend.toNat) := by
  have carried := (mulAddDigit_eq_error_iff.mp refused).1
  refine ⟨ds.length, le_of_mulAddDigit_error refused, Nat.le_of_not_lt fun fits => ?_⟩
  exact carried ((carry_eq_zero_iff factor addend ds).mpr fits)

namespace Text

variable {limit radix : Nat}

/-- Symbols are only refused to be brought in when their value is too long. -/
theorem Reading.Fits.outgrows_of_flush_error {r : Reading} (fits : r.Fits radix)
    {cause : AllocationError} (refused : r.flush limit radix = .error cause) :
    Outgrows limit (r.digits.toNat * radix ^ r.count + r.pending) := by
  have long := Digits.outgrows_of_mulAddDigit_error (map_eq_error_iff.mp refused)
  have scale : (UInt64.ofNat (radix.pow r.count)).toNat = radix ^ r.count :=
    Digit.toNat_ofNat_of_lt fits.scale
  rw [scale, Digit.toNat_ofNat_of_lt (fits.pending.trans fits.scale)] at long
  exact long

theorem Reading.Collected.outgrows_of_push_error (range : 2 ≤ radix ∧ radix ≤ 36)
    {chars : List Char} {values : List Nat} {r : Reading}
    (collected : r.Collected radix chars values) {value : Nat} (below : value < radix)
    {cause : AllocationError} (refused : r.push limit radix value = .error cause) :
    Outgrows limit (Nat.ofDigits radix (values ++ [value]).reverse) := by
  rw [← collected.ofDigits_snoc value]
  simp only [Reading.push] at refused
  split at refused
  · have fits : Reading.Fits radix
        { digits := r.digits, room := r.room, pending := r.pending * radix + value,
          count := r.count + 1, seen := true } :=
      { scale := collected.scale_lt range.1, pending := collected.pending_lt below }
    exact fits.outgrows_of_flush_error refused
  · cases refused

/-- The symbols of a prefix have a prefix of the values. -/
theorem Spells.prefix (small : radix ≤ 36) {before after : List Char} {values values' : List Nat}
    (whole : Spells radix (before ++ after) values) (part : Spells radix before values') :
    ∃ more, values = values' ++ more := by
  unfold Spells at whole part
  rw [List.filter_append] at whole
  have first := List.forall₂_take_append _ _ _ whole.flip
  refine ⟨values.drop (before.filter (· ≠ '_')).length, ?_⟩
  have first' : Spells radix before (values.take (before.filter (· ≠ '_')).length) := first.flip
  have same := first'.unique small part
  rw [← same, List.take_append_drop]

/-- More places make a number no smaller. -/
theorem ofDigits_reverse_le (large : 2 ≤ radix) (values more : List Nat) :
    Nat.ofDigits radix values.reverse ≤ Nat.ofDigits radix (values ++ more).reverse := by
  rw [List.reverse_append, Nat.ofDigits_append]
  exact (Nat.le_mul_of_pos_left _ (Nat.pow_pos (by omega))).trans (Nat.le_add_left _ _)

/-- Reading on is only refused when the value of what has been read is too long. -/
theorem readSymbols_refused (range : 2 ≤ radix ∧ radix ≤ 36) {chars : List Char}
    {values : List Nat} {r : Reading} (collected : r.Collected radix chars values)
    (rest : List Char) (index : Nat) {cause : AllocationError}
    (refused : readSymbols limit radix rest index r = .error (.allocation cause)) :
    ∃ before after values', rest = before ++ after ∧ Spells radix (chars ++ before) values' ∧
      Outgrows limit (Nat.ofDigits radix values'.reverse) := by
  induction rest generalizing chars values r index with
  | nil => cases refused
  | cons c cs ih =>
      unfold readSymbols at refused
      split at refused
      · rename_i skipped
        obtain ⟨underscore, seen⟩ := (Bool.and_eq_true _ _).mp skipped
        obtain rfl := of_decide_eq_true underscore
        obtain ⟨before, after, values', rfl, spells, long⟩ :=
          ih (collected.skip range.2 seen) _ refused
        exact ⟨'_' :: before, after, values', rfl, by simpa using spells, long⟩
      · cases found : symbolValue? radix c with
        | none =>
            rw [found] at refused
            cases refused
        | some value =>
            have symbol := (symbolValue?_eq_some_iff range.2).mp found
            rw [found] at refused
            simp only at refused
            cases pushed : r.push limit radix value with
            | error cause' =>
                exact ⟨[c], cs, values ++ [value], rfl, collected.spells.snoc range.2 symbol,
                  collected.outgrows_of_push_error range symbol.1 pushed⟩
            | ok next =>
                rw [pushed] at refused
                obtain ⟨before, after, values', rfl, spells, long⟩ :=
                  ih (collected.push range symbol pushed) _ refused
                exact ⟨c :: before, after, values', rfl, by simpa using spells, long⟩

/-! ### What written texts mean -/

section Meaning

variable {chars sign body : List Char} {values : List Nat}

/-- Symbols may stand anywhere. -/
theorem proper_of_symbols (symbols : List.Forall₂ (IsSymbol radix) chars values) :
    Proper radix chars := by
  rintro before c after rfl
  have some : ∀ d ∈ before ++ c :: after, ∃ value, IsSymbol radix d value := by
    intro d mem
    obtain ⟨i, inRange, rfl⟩ := List.getElem_of_mem mem
    exact ⟨_, symbols.get inRange (symbols.length_eq ▸ inRange)⟩
  exact .inl (some c (List.mem_append_right _ List.mem_cons_self))

theorem spells_of_symbols (small : radix ≤ 36)
    (symbols : List.Forall₂ (IsSymbol radix) chars values) : Spells radix chars values := by
  induction symbols with
  | nil => exact .nil
  | @cons c value _ _ symbol _ ih =>
      have other : c ≠ '_' := by
        rintro rfl
        exact not_isSymbol_underscore small value symbol
      unfold Spells
      rw [List.filter_cons_of_pos (by simpa using other)]
      exact .cons symbol ih

/-- A sign and symbols mean the value of the symbols with the sign. -/
theorem reads_symbols (range : 2 ≤ radix ∧ radix ≤ 36) {text : List Char}
    (splits : SplitsOff text sign body) (symbols : List.Forall₂ (IsSymbol radix) body values)
    (nonempty : values ≠ []) {v : Integer} (canonical : v.Canonical)
    (value : v.toInt =
      (if sign = ['-'] then -1 else 1) * ((Nat.ofDigits radix values.reverse : Nat) : Int)) :
    Reads radix text (.ok v) :=
  .value range splits (proper_of_symbols symbols) (spells_of_symbols range.2 symbols) nonempty
    canonical value

end Meaning

/-- The ways to change the case of a text: not at all, to upper case, and to lower case. -/
def IsCase (change : Char → Char) : Prop :=
  change = id ∨ change = Char.toUpper ∨ change = Char.toLower

/-- Symbols without a sign in front have none to be split off. -/
theorem splitsOff_nil (small : radix ≤ 36) {body : List Char} {values : List Nat}
    (symbols : List.Forall₂ (IsSymbol radix) body values) : SplitsOff ([] ++ body) [] body := by
  refine ⟨rfl, .inr (.inr ⟨rfl, fun c first => ?_⟩)⟩
  obtain ⟨i, inRange, rfl⟩ := List.getElem_of_mem (List.mem_of_mem_head? first)
  have found := (symbolValue?_eq_some_iff small).mpr
    (symbols.get inRange (symbols.length_eq ▸ inRange))
  rw [symbolValue?_eq_filter small] at found
  constructor <;> intro sign <;> rw [List.get_eq_getElem, sign] at found <;> cases found

theorem isSymbol_of_isCase {change : Char → Char} (isCase : IsCase change) (small : radix ≤ 36)
    {value : Nat} (below : value < radix) : IsSymbol radix (change (symbol value)) value := by
  have upper : ∀ value < 36, (symbol value).toUpper = symbol value := by decide
  refine ⟨below, ?_⟩
  rcases isCase with rfl | rfl | rfl
  · exact .inl rfl
  · exact .inl (upper value (by omega))
  · exact .inr rfl

/-- The places of a padded numeral, most significant first. -/
def paddedValues (radix minDigits n : Nat) : List Nat :=
  List.replicate (minDigits - (standard radix n).length) 0 ++
    if n = 0 then [0] else (Nat.digits radix n).reverse

theorem leftpad_standard (range : 2 ≤ radix ∧ radix ≤ 36) (minDigits n : Nat) :
    (standard radix n).leftpad minDigits '0' = (paddedValues radix minDigits n).map symbol := by
  have zero : symbol 0 = '0' := by decide
  rw [paddedValues, List.leftpad, List.map_append, List.map_replicate, zero]
  congr 1
  split
  · rename_i nothing
    rw [nothing]
    rfl
  · rename_i positive
    exact standard_eq_map_symbol range positive

/-- Zeros in front change no value. -/
theorem ofDigits_paddedValues (radix minDigits n : Nat) :
    Nat.ofDigits radix (paddedValues radix minDigits n).reverse = n := by
  have zeros (count : Nat) : Nat.ofDigits radix (List.replicate count 0) = 0 := by
    induction count with
    | zero => rfl
    | succ count ih => rw [List.replicate_succ, Nat.ofDigits_cons, ih, Nat.mul_zero]
  rw [paddedValues, List.reverse_append, List.reverse_replicate, Nat.ofDigits_append, zeros,
    Nat.mul_zero, Nat.add_zero]
  split
  · rename_i nothing
    rw [nothing]
    rfl
  · rw [List.reverse_reverse, Nat.ofDigits_digits]

theorem paddedValues_lt (range : 2 ≤ radix ∧ radix ≤ 36) (minDigits n : Nat) :
    ∀ value ∈ paddedValues radix minDigits n, value < radix := by
  intro value mem
  rcases List.mem_append.mp mem with zeros | places
  · rw [(List.mem_replicate.mp zeros).2]
    omega
  · split at places
    · rw [List.mem_singleton.mp places]
      omega
    · exact Nat.digits_lt_base (by omega) (List.mem_reverse.mp places)

theorem paddedValues_ne_nil (radix minDigits n : Nat) : paddedValues radix minDigits n ≠ [] := by
  unfold paddedValues
  split
  · simp
  · rename_i positive
    simp [Nat.digits_ne_nil_iff_ne_zero.mpr positive]

/-- The signs that may stand before the numeral of a value. -/
def MaySign (sign : List Char) (value : Int) : Prop :=
  if value < 0 then sign = ['-'] else sign = [] ∨ sign = ['+']

/-- **A sign and a padded numeral mean the value**, whatever the case of the numeral. -/
theorem reads_signed {change : Char → Char} (isCase : IsCase change)
    (range : 2 ≤ radix ∧ radix ≤ 36) {v : Integer} (canonical : v.Canonical) {sign : List Char}
    (maySign : MaySign sign v.toInt) (minDigits : Nat) :
    Reads radix (sign ++ ((standard radix v.toInt.natAbs).leftpad minDigits '0').map change)
      (.ok v) := by
  have symbols : List.Forall₂ (IsSymbol radix)
      (((paddedValues radix minDigits v.toInt.natAbs).map symbol).map change)
      (paddedValues radix minDigits v.toInt.natAbs) := by
    rw [List.map_map, List.forall₂_map_left_iff, List.forall₂_same]
    intro value mem
    exact isSymbol_of_isCase isCase range.2 (paddedValues_lt range _ _ value mem)
  have nonempty := paddedValues_ne_nil radix minDigits v.toInt.natAbs
  have whole := ofDigits_paddedValues radix minDigits v.toInt.natAbs
  rw [leftpad_standard range]
  unfold MaySign at maySign
  split at maySign
  · subst maySign
    refine reads_symbols range ⟨rfl, .inl rfl⟩ symbols nonempty canonical ?_
    rw [whole, if_pos rfl]
    omega
  · rcases maySign with rfl | rfl
    · refine reads_symbols range (splitsOff_nil range.2 symbols) symbols nonempty canonical ?_
      rw [whole, if_neg (List.cons_ne_nil _ _).symm]
      omega
    · refine reads_symbols range ⟨rfl, .inr (.inl rfl)⟩ symbols nonempty canonical ?_
      rw [whole, if_neg (by decide)]
      omega

/-- **A written text means its value**, whatever its case. -/
theorem reads_written {change : Char → Char} (isCase : IsCase change)
    (range : 2 ≤ radix ∧ radix ≤ 36) {v : Integer} (canonical : v.Canonical) (minDigits : Nat) :
    Reads radix ((written radix minDigits v.toInt).toList.map change) (.ok v) := by
  have minus : change '-' = '-' := by
    rcases isCase with rfl | rfl | rfl <;> decide
  rw [written, String.toList_ofList, List.map_append]
  refine reads_signed isCase range canonical ?_ minDigits
  unfold MaySign
  split
  · rw [List.map_singleton, minus]
  · exact .inl rfl

end Text

namespace Integer

open Text

variable {limit radix : Nat}

/-- A text is refused only if there may be no room for the digits of its value. -/
theorem le_mostRoom_of_ofText_refused {text : String} {v : Integer}
    (reads : Reads radix text.toList (.ok v)) {cause : AllocationError}
    (refused : ofText limit radix text = .error (.allocation cause)) :
    limit ≤ Storage.mostRoom v.digits.length := by
  cases reads with
  | @value sign body values _ range splits proper spells some canonical value =>
      have written : v.digits.toNat = Nat.ofDigits radix values.reverse := by
        rw [← natAbs_toInt, value]
        split <;> simp
      -- It is enough that the symbols read so far have too long a value.
      suffices long : Outgrows limit v.digits.toNat from long.le_mostRoom canonical.1
      obtain ⟨sign', splits', -, -⟩ := splitSign_splitsOff text.toList
      obtain ⟨-, body'⟩ := splits.unique splits'
      unfold ofText at refused
      rw [if_neg (by simp; omega)] at refused
      generalize splitSign text.toList = parts at *
      obtain ⟨negative, rest, start⟩ := parts
      simp only at refused body'
      subst body'
      cases read : readSymbols limit radix body start .start with
      | error e =>
          rw [read] at refused
          obtain rfl := Except.error.inj refused
          obtain ⟨before, after, values', rfl, spells', long⟩ :=
            readSymbols_refused range (Reading.Collected.start range.2) body start read
          obtain ⟨more, rfl⟩ := spells.prefix range.2 spells'
          exact written ▸ long.mono (ofDigits_reverse_le range.1 values' more)
      | ok r =>
          have ends := readSymbols_ends limit range (Reading.Collected.start range.2) body start
          rw [read] at ends
          obtain ⟨values', collected⟩ := ends
          obtain rfl := spells.unique range.2 collected.spells
          rw [read] at refused
          simp only [Except.bind] at refused
          split at refused
          · cases refused
          · split at refused
            · cases refused
            · cases flushed : r.flush limit radix with
              | error cause' =>
                  rw [written, ← collected.value]
                  exact (collected.fits range.1).outgrows_of_flush_error flushed
              | ok last =>
                  rw [flushed] at refused
                  cases refused

/-- **Whoever has room for a value can read it**, from every text that means it. -/
theorem ofText_of_reads {text : String} {v : Integer} (reads : Reads radix text.toList (.ok v))
    (room : Storage.mostRoom v.digits.length < limit) : ofText limit radix text = .ok v := by
  rcases ofText_reads limit radix text with ⟨⟨cause, refused⟩, -⟩ | answer
  · exact absurd (le_mostRoom_of_ofText_refused reads refused) (Nat.not_le_of_lt room)
  · exact answer.unique reads

/-- **Texts are exact and read back.** As long as the digits of an integer can be copied, its text
is its value, written in the given radix with at least so many places; and where there is room for
them to be collected again, that text is read as the same integer, as it is, in upper case and in
lower case. -/
theorem toText_reads_back (range : 2 ≤ radix ∧ radix ≤ 36) {v : Integer} (canonical : v.Canonical)
    (room : v.digits.length < limit) (minDigits : Nat) :
    let text := written radix minDigits v.toInt
    v.toText limit radix minDigits = .ok text ∧
      (Storage.mostRoom v.digits.length < limit → ofText limit radix text = .ok v ∧
        ofText limit radix text.toUpper = .ok v ∧ ofText limit radix text.toLower = .ok v) := by
  intro text
  have reads {change : Char → Char} (isCase : IsCase change) :
      Reads radix (text.toList.map change) (.ok v) :=
    reads_written isCase range canonical minDigits
  refine ⟨toText_eq range canonical room minDigits, fun ahead => ⟨?_, ?_, ?_⟩⟩
  · refine ofText_of_reads ?_ ahead
    rw [← List.map_id text.toList]
    exact reads (.inl rfl)
  · refine ofText_of_reads ?_ ahead
    rw [show text.toUpper = text.map Char.toUpper from rfl, String.toList_map]
    exact reads (.inr (.inl rfl))
  · refine ofText_of_reads ?_ ahead
    rw [show text.toLower = text.map Char.toLower from rfl, String.toList_map]
    exact reads (.inr (.inr rfl))

/-- Twenty places, of which the numeral needs seventeen: more than one remainder, with zeros that
have to be kept. -/
theorem toText_reads_back_two_digits :
    let v : Integer := { negative := true, digits := [14, 1] }
    (2 ≤ 16 ∧ 16 ≤ 36) ∧ v.Canonical ∧ v.digits.length < 65536 ∧
      Storage.mostRoom v.digits.length < 65536 ∧
      v.toText 65536 16 20 = .ok "-0001000000000000000E" ∧
      ofText 65536 16 "-0001000000000000000e" = .ok v := by
  intro v
  have canonical : v.Canonical := by decide
  have text : written 16 20 v.toInt = "-0001000000000000000E" := by decide
  have room : v.digits.length < 65536 := by decide
  have ahead : Storage.mostRoom v.digits.length < 65536 := by decide
  obtain ⟨made, back⟩ := toText_reads_back (by decide : 2 ≤ 16 ∧ 16 ≤ 36) canonical room 20
  obtain ⟨-, -, lower⟩ := back ahead
  have lowered : "-0001000000000000000E".toLower = "-0001000000000000000e" := by
    rw [← String.toList_inj]
    exact String.toList_map.trans (by decide)
  rw [text] at made lower
  exact ⟨by decide, canonical, room, ahead, made, lowered ▸ lower⟩

end Integer

end Bignum
