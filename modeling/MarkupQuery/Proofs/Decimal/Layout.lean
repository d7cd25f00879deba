import Mathlib.Data.List.Basic
import MarkupQuery.Decimal.Layout

/-!
# How decimals are laid out

Where the point stands in the text of a decimal depends on the power of ten that its digits are multiplied
by: behind all digits and perhaps some zeros, among the digits, or in front of all of them and perhaps some
zeros. Only if the leading digit would be too far from the point, the point stands behind this digit and the
power of ten follows.

## Main definitions

- `Decimal.Pointed`: the text of digits with the point in its place.
- `DecimalLayout.Writes`: the text of a decimal.

## Main results

- `DecimalLayout.writes_iff`: a decimal has one text, and it is this that is written.
-/

namespace MarkupQuery

/-- The text of digits that are multiplied by a power of ten, with the point in its place. -/
inductive Decimal.Pointed (digits : List Char) (exponent : Int) : List Char → Prop where
  /-- It stands behind all digits and so many zeros as the power has. -/
  | behind (zeros : Nat) (hexponent : exponent = zeros) :
      Pointed digits exponent (digits ++ List.replicate zeros '0' ++ ['.', '0'])
  /-- It stands among the digits. -/
  | among {whole fraction : List Char} (hdigits : digits = whole ++ fraction) (hwhole : whole ≠ [])
      (hfraction : fraction ≠ []) (hexponent : exponent = -fraction.length) :
      Pointed digits exponent (whole ++ '.' :: fraction)
  /-- It stands in front of all digits and some zeros. -/
  | before (zeros : Nat) (hexponent : exponent = -(digits.length + zeros : Nat)) :
      Pointed digits exponent ('0' :: '.' :: (List.replicate zeros '0' ++ digits))

namespace DecimalLayout

/-- The text of a decimal. -/
inductive Writes (layout : DecimalLayout) : Decimal → List Char → Prop where
  /-- Zero keeps its sign. -/
  | zero (negative : Bool) (exponent : Int) :
      Writes layout ⟨negative, 0, exponent⟩ ((if negative then ['-'] else []) ++ ['0', '.', '0'])
  /-- With its leading digit near the point, a decimal has only a point. -/
  | plain {negative : Bool} {number : Nat} {exponent power : Int} {digits text : List Char}
      (hnumber : number ≠ 0) (hdigits : digits = Nat.toDigits 10 number)
      (hpower : power = exponent + digits.length - 1)
      (hnear : layout.leastPlain ≤ power ∧ power ≤ layout.greatestPlain)
      (htext : Decimal.Pointed digits exponent text) :
      Writes layout ⟨negative, number, exponent⟩ ((if negative then ['-'] else []) ++ text)
  /-- With its leading digit far from where the point would be, a decimal has the point behind this digit, if
  there are others, and the power of ten follows with its sign. -/
  | scientific {negative : Bool} {number : Nat} {exponent power : Int} {digit : Char}
      {fraction : List Char} (hnumber : number ≠ 0) (hdigits : digit :: fraction = Nat.toDigits 10 number)
      (hpower : power = exponent + fraction.length)
      (hfar : ¬(layout.leastPlain ≤ power ∧ power ≤ layout.greatestPlain)) :
      Writes layout ⟨negative, number, exponent⟩ ((if negative then ['-'] else []) ++
        digit :: ((if fraction = [] then [] else '.' :: fraction) ++
          'e' :: (if power < 0 then '-' else '+') :: Nat.toDigits 10 power.natAbs))

/-! ### What is written -/

/-- The characters of digits in front of which the point stands. -/
theorem toList_plain_of_neg {digits : List Char} {power : Int} (h : power < 0) :
    (plain (String.ofList digits) power).toList =
      '0' :: '.' :: (List.replicate (-power - 1).toNat '0' ++ digits) := by
  rw [plain, if_pos h]
  simp [zeros]

/-- The characters of digits behind some of which the point stands. -/
theorem toList_plain_of_nonneg (whole fraction : List Char) {power : Int} (h : 0 ≤ power)
    (hwhole : (whole ++ fraction).take (power.toNat + 1) = whole) :
    (plain (String.ofList (whole ++ fraction)) power).toList =
      whole ++ List.replicate (power + 1 - whole.length).toNat '0' ++
        '.' :: (if fraction = [] then ['0'] else fraction) := by
  have hfraction : (whole ++ fraction).drop (power.toNat + 1) = fraction := by
    have hall := List.take_append_drop (power.toNat + 1) (whole ++ fraction)
    rw [hwhole] at hall
    exact List.append_cancel_left hall
  rw [plain, if_neg (Int.not_lt.2 h)]
  dsimp only
  rw [String.toList_ofList, hwhole, hfraction]
  cases fraction <;> simp [zeros]

/-- The characters of digits that are followed by the power of the leading one. -/
theorem toList_scientific (digit : Char) (fraction : List Char) (power : Int) :
    (scientific (String.ofList (digit :: fraction)) power).toList =
      digit :: ((if fraction = [] then [] else '.' :: fraction) ++
        'e' :: (if power < 0 then '-' else '+') :: Nat.toDigits 10 power.natAbs) := by
  rw [scientific]
  by_cases hneg : power < 0 <;> cases fraction <;> simp [hneg]

end DecimalLayout

/-! ### Where the point stands -/

namespace Decimal

variable {digits text : List Char} {exponent : Int}

/-- There is a place for the point. -/
theorem exists_pointed (hdigits : digits ≠ []) (exponent : Int) :
    ∃ text, Pointed digits exponent text := by
  have hpos := List.length_pos_of_ne_nil hdigits
  rcases Int.lt_or_le exponent 0 with hneg | hnonneg
  · rcases Int.lt_or_le (-exponent) digits.length with hlt | hle
    · -- As many digits as the exponent says stand behind the point.
      refine ⟨_, .among (List.take_append_drop (digits.length + exponent).toNat digits).symm ?_ ?_ ?_⟩
      · rw [ne_eq, List.take_eq_nil_iff, not_or]
        exact ⟨by omega, hdigits⟩
      · rw [ne_eq, List.drop_eq_nil_iff]
        omega
      · rw [List.length_drop]
        omega
    · exact ⟨_, .before (-exponent - digits.length).toNat (by omega)⟩
  · exact ⟨_, .behind exponent.toNat (Int.toNat_of_nonneg hnonneg).symm⟩

/-- In plain writing the point is put in its place. -/
theorem Pointed.eq_toList_plain (h : Pointed digits exponent text) (hdigits : digits ≠ []) :
    text = (DecimalLayout.plain (String.ofList digits) (exponent + digits.length - 1)).toList := by
  have hpos := List.length_pos_of_ne_nil hdigits
  cases h with
  | behind zeros hexponent =>
    have hzeros : (exponent + digits.length - 1 + 1 - digits.length).toNat = zeros := by omega
    have htake : (digits ++ []).take ((exponent + digits.length - 1).toNat + 1) = digits := by
      rw [List.append_nil, List.take_of_length_le (by omega)]
    have hplain := DecimalLayout.toList_plain_of_nonneg digits [] (by omega) htake
    rw [List.append_nil, hzeros] at hplain
    exact hplain.symm
  | @among whole fraction h hwhole hfraction hexponent =>
    subst h
    rw [List.length_append] at hpos ⊢
    have hlength := List.length_pos_of_ne_nil hwhole
    have hzeros : (exponent + (whole.length + fraction.length : Nat) - 1 + 1 - whole.length).toNat = 0 := by
      omega
    have htake : (exponent + (whole.length + fraction.length : Nat) - 1).toNat + 1 = whole.length := by
      omega
    rw [DecimalLayout.toList_plain_of_nonneg whole fraction (by omega) (by rw [htake, List.take_left]),
      hzeros, if_neg hfraction, List.replicate_zero, List.append_nil]
  | before zeros hexponent =>
    have hzeros : (-(exponent + digits.length - 1) - 1).toNat = zeros := by omega
    rw [DecimalLayout.toList_plain_of_neg (by omega), hzeros]

end Decimal

namespace DecimalLayout

variable {layout : DecimalLayout} {decimal : Decimal} {text : List Char}

/-- A decimal other than zero is written by its digits behind its sign. -/
theorem toList_write {negative : Bool} {number : Nat} {exponent power : Int} {digits : List Char}
    (hnumber : number ≠ 0) (hdigits : digits = Nat.toDigits 10 number)
    (hpower : power = exponent + digits.length - 1) :
    (layout.write ⟨negative, number, exponent⟩).toList = (if negative then ['-'] else []) ++
      (if layout.leastPlain ≤ power ∧ power ≤ layout.greatestPlain then plain (String.ofList digits) power
        else scientific (String.ofList digits) power).toList := by
  rw [write]
  dsimp only
  rw [if_neg hnumber, Nat.toString_eq_ofList_toDigits, ← hdigits, String.length_ofList, ← hpower,
    String.toList_append]
  cases negative <;> simp only [Bool.false_eq_true, if_true, if_false] <;> rfl

/-- A decimal is written as it is laid out. -/
theorem Writes.eq_toList_write (h : layout.Writes decimal text) :
    text = (layout.write decimal).toList := by
  cases h with
  | zero negative exponent =>
    rw [write]
    cases negative <;> simp
  | plain hnumber hdigits hpower hnear htext =>
    have hplain := htext.eq_toList_plain (by rw [hdigits]; exact Nat.toDigits_ne_nil)
    rw [toList_write hnumber hdigits hpower, if_pos hnear, hpower, hplain]
  | @scientific _ _ exponent power digit fraction hnumber hdigits hpower hfar =>
    have hleading : power = exponent + (digit :: fraction).length - 1 := by
      rw [hpower, List.length_cons]
      omega
    rw [toList_write hnumber hdigits hleading, if_neg hfar, toList_scientific]

/-- All decimals can be laid out. -/
theorem exists_writes (layout : DecimalLayout) (decimal : Decimal) : ∃ text, layout.Writes decimal text := by
  obtain ⟨negative, number, exponent⟩ := decimal
  by_cases hnumber : number = 0
  · subst hnumber
    exact ⟨_, .zero negative exponent⟩
  · obtain ⟨digit, fraction, hdigits⟩ :=
      List.exists_cons_of_ne_nil (Nat.toDigits_ne_nil (n := number) (b := 10))
    by_cases hnear : layout.leastPlain ≤ exponent + fraction.length ∧
        exponent + fraction.length ≤ layout.greatestPlain
    · obtain ⟨text, htext⟩ := Decimal.exists_pointed (List.cons_ne_nil digit fraction) exponent
      exact ⟨_, .plain hnumber hdigits.symm (by rw [List.length_cons]; omega) hnear htext⟩
    · exact ⟨_, .scientific hnumber hdigits.symm rfl hnear⟩

/-- A decimal has one text, and it is this that is written. -/
theorem writes_iff : layout.Writes decimal text ↔ text = (layout.write decimal).toList := by
  constructor
  · exact Writes.eq_toList_write
  · rintro rfl
    obtain ⟨text, htext⟩ := exists_writes layout decimal
    exact htext.eq_toList_write ▸ htext

-- With the leading digit near the point there is no power of ten, with it far from the point there is one.
example : (⟨-5, 15⟩ : DecimalLayout).write ⟨false, 15, -6⟩ = "0.000015" := by decide
example : (⟨-5, 15⟩ : DecimalLayout).write ⟨true, 15, -7⟩ = "-1.5e-6" := by decide

end DecimalLayout

end MarkupQuery
