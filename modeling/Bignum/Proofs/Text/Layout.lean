import Bignum.Proofs.Text.RoundTrip
import Bignum.Text.Layout
import Mathlib.Algebra.Order.Group.Unbundled.Int

/-!
Integers laid out in a field keep their numeral.

A number has a front, its sign and the mark of its radix where they are asked for, and a numeral.
`Layout.Places` says what a field may do to the two: put fill around them, split as the alignment
has it, or put zeros between them, and either way no more than the width takes.

* `Layout.number_places`: that is all that is done, in every layout.
* `Layout.columns_of_inField`: a layout takes any width that sixteen bits hold.
* `Integer.format_eq`: the numeral is that of the absolute value, in the letters of the style.
* `Integer.ofText_of_inserted`: zeros between a sign and a numeral change nothing for a reader.
* `formatting_exact`: all of this for every integer, style and layout.
-/

namespace Bignum

namespace Text

/-! ### The parts of a number -/

/-- The sign of a value, a plus only where it is asked for. -/
def signOf (plus : Bool) (value : Int) : List Char :=
  if value < 0 then ['-'] else if plus then ['+'] else []

/-- The letters that a style writes instead of capitals. -/
def Style.letters (style : Style) : Char → Char :=
  if style = .lowerHex then Char.toLower else id

namespace Layout

/-- What stands before the numeral of a value: its sign, and the mark of the radix. -/
def front (layout : Layout) (style : Style) (value : Int) : List Char :=
  signOf layout.plus value ++ if layout.alternate then style.mark else []

/-! ### Fields -/

/-- How fill is split. In the middle, one that is left over stands on the right; a number without
an alignment stands at the right. -/
def Splits (layout : Layout) (left right : Nat) : Prop :=
  match layout.alignment with
  | some .left => left = 0
  | some .center => right = left ∨ right = left + 1
  | some .right | none => right = 0

/-- What a layout makes of a front and a numeral. -/
structure Places (layout : Layout) (front numeral text : List Char) : Prop where
  length : text.length = max layout.columns (front ++ numeral).length
  filled : layout.zeros = false → ∃ left right, layout.Splits left right ∧
    text = List.replicate left layout.fill ++ (front ++ numeral) ++
      List.replicate right layout.fill
  /-- Neither fill nor alignment has a say where zeros are inserted. -/
  inserted : layout.zeros = true → ∃ count, text = front ++ List.replicate count '0' ++ numeral

theorem before_le (layout : Layout) (missing : Nat) : layout.before missing ≤ missing := by
  unfold before
  split
  · exact Nat.zero_le _
  · exact Nat.div_le_self _ _
  · exact Nat.le_refl _
  · exact Nat.le_refl _

theorem splits_before (layout : Layout) (missing : Nat) :
    layout.Splits (layout.before missing) (missing - layout.before missing) := by
  unfold Splits before
  cases layout.alignment with
  | none => exact Nat.sub_self missing
  | some alignment =>
      cases alignment with
      | left => rfl
      | center =>
          show missing - missing / 2 = missing / 2 ∨ missing - missing / 2 = missing / 2 + 1
          omega
      | right => exact Nat.sub_self missing

/-- **A layout moves nothing**: it pads around a number or before its numeral, up to the width. -/
theorem number_places (layout : Layout) (negative : Bool) (mark numeral : List Char) :
    layout.Places ((if negative then ['-'] else if layout.plus then ['+'] else []) ++
        if layout.alternate then mark else [])
      numeral (layout.number negative mark numeral) := by
  simp only [number]
  generalize (if negative then ['-'] else if layout.plus then ['+'] else []) ++
    (if layout.alternate then mark else []) = front
  generalize missing : layout.columns - (front.length + numeral.length) = gap
  have le := layout.before_le gap
  cases flag : layout.zeros with
  | true =>
      simp only [if_true]
      refine { length := ?_, filled := fun none => ?_, inserted := fun _ => ⟨_, rfl⟩ }
      · simp only [List.length_append, List.length_replicate]
        omega
      · rw [flag] at none
        cases none
  | false =>
      simp only [Bool.false_eq_true, if_false]
      refine { length := ?_, filled := fun _ => ?_, inserted := fun some => ?_ }
      · simp only [List.length_append, List.length_replicate]
        omega
      · exact ⟨_, _, layout.splits_before gap, by simp⟩
      · rw [flag] at some
        cases some

/-- A field is refused exactly if sixteen bits are too few for its width. -/
theorem inField_eq_error_iff {layout : Layout} {width : Nat} :
    layout.inField width = .error tooWide ↔ 65535 < width := by
  unfold inField
  split
  · rename_i fits
    exact ⟨nofun, fun wide => absurd fits (Nat.not_lt_of_le wide)⟩
  · rename_i wide
    exact ⟨fun _ => Nat.le_of_not_lt wide, fun _ => rfl⟩

/-- A field that is granted has the width that was asked for, and changes nothing else. -/
theorem columns_of_inField {layout field : Layout} {width : Nat}
    (granted : layout.inField width = .ok field) :
    field.columns = width ∧ { field with width := layout.width } = layout := by
  unfold inField at granted
  split at granted
  · rename_i fits
    obtain rfl := Except.ok.inj granted
    exact ⟨UInt16.toNat_ofNat_of_lt fits, rfl⟩
  · cases granted

end Layout

/-- No style changes a zero. -/
theorem Style.letters_zero (style : Style) : style.letters '0' = '0' := by
  unfold letters
  split <;> rfl

theorem Style.radix_range (style : Style) : 2 ≤ style.radix ∧ style.radix ≤ 36 := by
  cases style <;> decide

theorem Style.isCase_letters (style : Style) : IsCase style.letters := by
  unfold letters
  split
  · exact .inr (.inr rfl)
  · exact .inl rfl

/-- The numeral of an absolute value, with nothing in front. -/
theorem toList_written_abs (radix : Nat) (value : Int) :
    (written radix 0 |value|).toList = standard radix value.natAbs := by
  have positive : ¬ |value| < 0 := not_lt.mpr (abs_nonneg value)
  rw [written, if_neg positive, String.toList_ofList, Int.natAbs_abs, List.leftpad]
  simp

theorem maySign_signOf (plus : Bool) (value : Int) : MaySign (signOf plus value) value := by
  unfold MaySign signOf
  split
  · rfl
  · split
    · exact .inr rfl
    · exact .inl rfl

end Text

namespace Integer

open Text

variable {limit : Nat} {v : Integer}

/-! ### What is laid out -/

theorem toInt_abs (v : Integer) : v.abs.toInt = |v.toInt| := by
  rw [Int.abs_eq_natAbs, natAbs_toInt]
  rfl

/-- Only the digits have to be copied, and zero has none. -/
theorem format_eq_error_iff {style : Style} {layout : Layout} {cause : AllocationError} :
    v.format limit style layout = .error cause ↔
      Storage.request limit v.digits.length = .error cause := by
  rw [format, map_eq_error_iff, styledNumeral]
  split
  · rename_i zero
    have granted : Storage.request limit v.digits.length = .ok () := by
      rw [List.isEmpty_iff.mp zero]
      exact Storage.request_eq_ok_iff.mpr (.inl rfl)
    rw [granted]
    constructor <;> intro impossible <;> cases impossible
  · rw [map_eq_error_iff, numeral, map_eq_error_iff, Digits.copy_eq_error_iff]

variable (canonical : v.Canonical) (room : v.digits.length < limit)

include canonical room

/-- The numeral in a style is that of the absolute value, in the letters of the style. -/
theorem styledNumeral_eq (style : Style) :
    v.styledNumeral limit style =
      .ok ((standard style.radix v.toInt.natAbs).map style.letters) := by
  rw [natAbs_toInt]
  unfold styledNumeral Style.letters
  split
  · rename_i zero
    rw [List.isEmpty_iff.mp zero, Digits.toNat_nil, standard, if_pos rfl]
    split <;> rfl
  · rename_i some
    have positive := (canonical.1.toNat_pos fun empty => some (List.isEmpty_iff.mpr empty)).ne'
    rw [numeral_eq style.radix_range canonical.1 room,
      standard_eq_map_symbol style.radix_range positive, Except.map]
    split
    · rfl
    · rw [List.map_id]

/-- **A text is a number in its layout.** -/
theorem format_eq (style : Style) (layout : Layout) :
    v.format limit style layout = .ok (String.ofList
      (layout.number (decide (v.toInt < 0)) style.mark
        ((standard style.radix v.toInt.natAbs).map style.letters))) := by
  rw [format, styledNumeral_eq canonical room, ← canonical.negative_eq]
  rfl

omit room in
/-- **Inserted zeros change no value**: with nothing else before the numeral than a sign, the text
is read back. -/
theorem ofText_of_inserted (ahead : Storage.mostRoom v.digits.length < limit) (style : Style)
    (plus : Bool) (count : Nat) :
    ofText limit style.radix (String.ofList (signOf plus v.toInt ++ List.replicate count '0' ++
      (standard style.radix v.toInt.natAbs).map style.letters)) = .ok v := by
  refine ofText_of_reads ?_ ahead
  have padded : List.replicate count '0' ++
      (standard style.radix v.toInt.natAbs).map style.letters =
      ((standard style.radix v.toInt.natAbs).leftpad
        (count + (standard style.radix v.toInt.natAbs).length) '0').map style.letters := by
    rw [List.leftpad, List.map_append, List.map_replicate, style.letters_zero,
      Nat.add_sub_cancel]
  rw [String.toList_ofList, List.append_assoc, padded]
  exact reads_signed style.isCase_letters style.radix_range canonical (maySign_signOf plus _) _

end Integer

/-- **Formatting never loses or moves a number.** In every style and layout, an integer is refused
only the room to copy its digits. Where they are fewer than the limit, its text is the front of its
value and the numeral that its absolute value has in that radix, placed in the field; and if zeros
are inserted and the radix is not marked, the text is read back where there is room for that. A
layout takes every width of sixteen bits for its field, and the program stops for any other. -/
theorem formatting_exact {v : Integer} (canonical : v.Canonical) (limit : Nat)
    (style : Text.Style) (layout : Text.Layout) :
    let digits := Text.written style.radix 0 |v.toInt|
    (∀ cause, v.format limit style layout = .error cause ↔
      Storage.request limit v.digits.length = .error cause) ∧
    (v.digits.length < limit → v.abs.toText limit style.radix 0 = .ok digits ∧
      ∃ text, v.format limit style layout = .ok text ∧
        layout.Places (layout.front style v.toInt) (digits.toList.map style.letters)
          text.toList ∧
        (layout.zeros = true → layout.alternate = false →
          Storage.mostRoom v.digits.length < limit →
            Integer.ofText limit style.radix text = .ok v)) ∧
    ∀ width, (layout.inField width = .error Text.Layout.tooWide ↔ 65535 < width) ∧
      ∀ field, layout.inField width = .ok field →
        field.columns = width ∧ { field with width := layout.width } = layout := by
  intro digits
  refine ⟨fun cause => Integer.format_eq_error_iff, fun room => ?_, fun width =>
    ⟨Text.Layout.inField_eq_error_iff, fun _ => Text.Layout.columns_of_inField⟩⟩
  have numeral : v.abs.toText limit style.radix 0 = .ok (Text.written style.radix 0 v.abs.toInt) :=
    Integer.toText_eq style.radix_range canonical.abs room 0
  have places := layout.number_places (decide (v.toInt < 0)) style.mark
    ((Text.standard style.radix v.toInt.natAbs).map style.letters)
  simp only [decide_eq_true_eq] at places
  rw [Integer.toInt_abs] at numeral
  refine ⟨numeral, _, Integer.format_eq canonical room style layout, ?_⟩
  rw [Text.toList_written_abs, String.toList_ofList]
  refine ⟨places, fun zeros plain ahead => ?_⟩
  obtain ⟨count, inserted⟩ := places.inserted zeros
  rw [inserted, if_neg (Bool.eq_false_iff.mp plain), List.append_nil]
  exact Integer.ofText_of_inserted canonical ahead style layout.plus count

/-- Zeros up to a width of 21 for a numeral of two digits, where the fill and the alignment say
otherwise. -/
theorem formatting_exact_zeros :
    let v : Integer := { negative := false, digits := [14, 1] }
    let layout : Text.Layout :=
      { fill := '*', alignment := some .center, plus := true, alternate := false, zeros := true
        width := some 21 }
    v.Canonical ∧ v.digits.length < 65536 ∧ Storage.mostRoom v.digits.length < 65536 ∧
      v.format 65536 .lowerHex layout = .ok "+0001000000000000000e" ∧
      Integer.ofText 65536 16 "+0001000000000000000e" = .ok v ∧
      layout.inField 65536 = .error Text.Layout.tooWide := by
  intro v layout
  have canonical : v.Canonical := by decide
  have room : v.digits.length < 65536 := by decide
  have ahead : Storage.mostRoom v.digits.length < 65536 := by decide
  have written : v.format 65536 .lowerHex layout = .ok "+0001000000000000000e" := by decide
  obtain ⟨-, granted, fields⟩ := formatting_exact canonical 65536 .lowerHex layout
  obtain ⟨-, text, made, -, back⟩ := granted room
  obtain rfl := Except.ok.inj (made.symm.trans written)
  exact ⟨canonical, room, ahead, written, back rfl rfl ahead, (fields 65536).1.mpr (by decide)⟩

end Bignum
