import Mathlib
import MarkupQuery.Decimal.Shortest

/-!
# What the shortest decimal is

The bits of positive numbers, read as a whole number, ascend with the numbers. So the neighbours of a number
are those whose bits come before and after, and a real number rounds to it if it lies between the points half
way to both. Of the decimals that round to the number, the one that is written is a multiple of the greatest
possible power of ten, and of these multiples the nearest one.

Real numbers are counted in units of `2 ^ -1074`, in which all numbers are whole.

## Main definitions

- `magnitude`: the number with given bits, and `halfway`, the real number half way to the next one.
- `RoundsTo`: a real number rounds to the number with given bits.
- `IsNearest`, `IsShortest`: the nearest multiple of a unit, and the shortest decimal.
- `Decimal.OfBits`: the decimal of a number with given bits.

## Main results

- `Rounding.ofBits_eq`: the interval of a number is that between the points half way to its neighbours.
- `Rounding.findsNearest_onGrid`: of the multiples of a power of ten the nearest one is found.
- `Rounding.isShortest_shortest`, `IsShortest.unique`: there is one shortest decimal, and it is found.
- `Decimal.ofBits_iff`: the decimal of a number is the shortest one of its bits.
-/

namespace MarkupQuery

/-! ### Numbers and their bits -/

/-- The number with given bits, among which there is none for a sign, in units of `2 ^ -1074`. -/
def magnitude (bits : Nat) : Nat :=
  (if bits / 2 ^ 52 = 0 then bits % 2 ^ 52 else bits % 2 ^ 52 + 2 ^ 52) * 2 ^ (bits / 2 ^ 52 - 1)

/-- How far it is to the next number. -/
def gap (bits : Nat) : Nat :=
  2 ^ (bits / 2 ^ 52 - 1)

/-- The bits that follow are those of the next number. -/
theorem magnitude_succ (bits : Nat) : magnitude (bits + 1) = magnitude bits + gap bits := by
  rw [magnitude, magnitude, gap]
  rcases Nat.lt_or_ge (bits % 2 ^ 52 + 1) (2 ^ 52) with hlt | hge
  · have hdiv : (bits + 1) / 2 ^ 52 = bits / 2 ^ 52 := by omega
    have hmod : (bits + 1) % 2 ^ 52 = bits % 2 ^ 52 + 1 := by omega
    rw [hdiv, hmod]
    split <;> ring
  · -- The fraction is full, so the exponent is the next one.
    have hdiv : (bits + 1) / 2 ^ 52 = bits / 2 ^ 52 + 1 := by omega
    have hmod : (bits + 1) % 2 ^ 52 = 0 := by omega
    have hlast : bits % 2 ^ 52 = 2 ^ 52 - 1 := by omega
    rw [hdiv, hmod, if_neg (Nat.succ_ne_zero _), hlast, Nat.add_sub_cancel]
    rcases Nat.eq_zero_or_pos (bits / 2 ^ 52) with hzero | hpos
    · rw [hzero]
      rfl
    · rw [if_neg (Nat.ne_of_gt hpos)]
      have hpow : 2 ^ (bits / 2 ^ 52) = 2 * 2 ^ (bits / 2 ^ 52 - 1) := by
        rw [← Nat.pow_succ', Nat.succ_eq_add_one, Nat.sub_add_cancel hpos]
      omega

/-- A number is limited by its exponent. -/
theorem magnitude_le {bits power : Nat} (h : bits / 2 ^ 52 - 1 ≤ power) :
    (magnitude bits : ℚ) ≤ 2 ^ 53 * 2 ^ power := by
  have hsignificand :
      (if bits / 2 ^ 52 = 0 then bits % 2 ^ 52 else bits % 2 ^ 52 + 2 ^ 52) ≤ 2 ^ 53 := by
    split <;> omega
  have hle : magnitude bits ≤ 2 ^ 53 * 2 ^ power :=
    Nat.mul_le_mul hsignificand (Nat.pow_le_pow_right Nat.two_pos h)
  exact_mod_cast hle

/-- The real number half way between the number with given bits and the next one. -/
def halfway (bits : Nat) : ℚ :=
  (magnitude bits + magnitude (bits + 1)) / 2

/-- From a number it is half a unit or more to the point half way, and from there to the next number. -/
theorem le_halfway_and (bits : Nat) :
    magnitude bits + 1 / 2 ≤ halfway bits ∧ halfway bits + 1 / 2 ≤ magnitude (bits + 1) := by
  have hlt : magnitude bits < magnitude (bits + 1) := by
    rw [magnitude_succ]
    exact Nat.lt_add_of_pos_right (Nat.two_pow_pos _)
  have hle : (magnitude bits : ℚ) + 1 ≤ magnitude (bits + 1) := by exact_mod_cast hlt
  rw [halfway]
  constructor <;> linarith

/-- A real number rounds to the number with given bits: it lies between the points half way to both
neighbours, which themselves round to the number if its last bit is zero. -/
def RoundsTo (bits : Nat) (real : ℚ) : Prop :=
  if bits % 2 = 0 then halfway (bits - 1) ≤ real ∧ real ≤ halfway bits
  else halfway (bits - 1) < real ∧ real < halfway bits

namespace RoundsTo

variable {bits : Nat} {real other : ℚ}

/-- What rounds to a number is no farther than half way to its neighbours. -/
theorem le_and_le (h : RoundsTo bits real) : halfway (bits - 1) ≤ real ∧ real ≤ halfway bits := by
  rw [RoundsTo] at h
  split at h
  · exact h
  · exact ⟨h.1.le, h.2.le⟩

/-- What is nearer than half way to the neighbours of a number rounds to it. -/
theorem of_lt_of_lt (h : halfway (bits - 1) < real) (h' : real < halfway bits) : RoundsTo bits real := by
  rw [RoundsTo]
  split
  · exact ⟨h.le, h'.le⟩
  · exact ⟨h, h'⟩

/-- With a real number, those between it and the number round to the number. -/
theorem of_le_of_le (h : RoundsTo bits real) (hle : real ≤ other) (hother : other ≤ magnitude bits) :
    RoundsTo bits other := by
  have hlt := (le_halfway_and bits).1
  rw [RoundsTo] at h ⊢
  split at h
  · rw [if_pos ‹_›]
    constructor <;> linarith
  · rw [if_neg ‹_›]
    constructor <;> linarith

/-- With a real number, those between it and the number round to the number. -/
theorem of_ge_of_ge (hbits : bits ≠ 0) (h : RoundsTo bits real) (hle : other ≤ real)
    (hother : magnitude bits ≤ other) : RoundsTo bits other := by
  have hlt := (le_halfway_and (bits - 1)).2
  rw [Nat.sub_add_cancel (Nat.pos_of_ne_zero hbits)] at hlt
  rw [RoundsTo] at h ⊢
  split at h
  · rw [if_pos ‹_›]
    constructor <;> linarith
  · rw [if_neg ‹_›]
    constructor <;> linarith

end RoundsTo

/-! ### The nearest multiple -/

/-- A multiple of a unit is the nearest one to the number with given bits among those that round to it. If
another one is as near, it is even. -/
structure IsNearest (bits : Nat) (unit : ℚ) (digits : Nat) : Prop where
  /-- It rounds to the number. -/
  rounds : RoundsTo bits (digits * unit)
  /-- No other multiple that rounds to the number is nearer. -/
  nearest : ∀ other : Nat, RoundsTo bits (other * unit) →
    |digits * unit - magnitude bits| ≤ |other * unit - magnitude bits|
  /-- If one is as near, this one is even. -/
  even : ∀ other : Nat, RoundsTo bits (other * unit) →
    |other * unit - magnitude bits| = |digits * unit - magnitude bits| → other = digits ∨ digits % 2 = 0

/-- What is found among the multiples of a unit is the nearest one, and one is found if there is any that
rounds to the number. -/
def FindsNearest (bits : Nat) (unit : ℚ) : Option Nat → Prop
  | some digits => IsNearest bits unit digits
  | none => ∀ other : Nat, ¬RoundsTo bits (other * unit)

/-- There are no two nearest multiples. -/
theorem IsNearest.unique {bits : Nat} (hbits : bits ≠ 0) {unit : ℚ} (hunit : 0 < unit) {digits digits' : Nat}
    (h : IsNearest bits unit digits) (h' : IsNearest bits unit digits') : digits = digits' := by
  wlog hle : digits ≤ digits' generalizing digits digits'
  · exact (this h' h (Nat.le_of_not_le hle)).symm
  have htie := le_antisymm (h'.nearest digits h.rounds) (h.nearest digits' h'.rounds)
  by_contra hne
  -- Both are even, so there is a multiple between them, which is nearer.
  have heven := (h.even digits' h'.rounds htie).resolve_left (Ne.symm hne)
  have heven' := (h'.even digits h.rounds htie.symm).resolve_left hne
  have hlt : ((digits + 1 : Nat) : ℚ) * unit + unit ≤ digits' * unit := by
    rw [← add_one_mul]
    exact mul_le_mul_of_nonneg_right (by exact_mod_cast (by omega : digits + 1 + 1 ≤ digits')) hunit.le
  have hstep : ((digits + 1 : Nat) : ℚ) * unit = digits * unit + unit := by
    push_cast
    ring
  have hmiddle : (digits : ℚ) * unit ≤ magnitude bits ∧ (magnitude bits : ℚ) ≤ digits' * unit := by
    rcases abs_cases ((digits : ℚ) * unit - magnitude bits) with hcase | hcase <;>
      rcases abs_cases ((digits' : ℚ) * unit - magnitude bits) with hcase' | hcase' <;>
      constructor <;> linarith
  have hrounds : RoundsTo bits ((digits + 1 : Nat) * unit) := by
    rcases le_total (((digits + 1 : Nat) : ℚ) * unit) (magnitude bits) with hbelow | habove
    · exact h.rounds.of_le_of_le (by linarith) hbelow
    · exact h'.rounds.of_ge_of_ge hbits (by linarith) habove
  have hnear := h.nearest _ hrounds
  rw [abs_of_nonpos (by linarith : (digits : ℚ) * unit - magnitude bits ≤ 0)] at hnear htie
  rw [abs_of_nonneg (by linarith : 0 ≤ (digits' : ℚ) * unit - magnitude bits)] at htie
  rcases abs_cases (((digits + 1 : Nat) : ℚ) * unit - magnitude bits) with hcase | hcase <;> linarith

section Neighbours

variable {bits low : Nat} {unit : ℚ} (hbits : bits ≠ 0) (hunit : 0 < unit)
  (hlow : low * unit ≤ magnitude bits) (hhigh : magnitude bits < (low + 1 : Nat) * unit)

include hbits hunit hlow hhigh

/-- A multiple that rounds to the number lies so many steps beyond one of the two multiples next to the
number, which rounds to the number as well. -/
theorem RoundsTo.exists_neighbour {other : Nat} (h : RoundsTo bits (other * unit)) :
    ∃ neighbour steps : Nat, (neighbour = low ∨ neighbour = low + 1) ∧
      RoundsTo bits (neighbour * unit) ∧
      |other * unit - magnitude bits| = |neighbour * unit - magnitude bits| + steps * unit ∧
      (steps = 0 → other = neighbour) := by
  rcases Nat.lt_or_ge low other with hlt | hle
  · have hmul : ((low + 1 : Nat) : ℚ) * unit ≤ other * unit :=
      mul_le_mul_of_nonneg_right (by exact_mod_cast hlt) hunit.le
    refine ⟨low + 1, other - (low + 1), .inr rfl, h.of_ge_of_ge hbits hmul hhigh.le, ?_, by omega⟩
    rw [abs_of_nonneg (by linarith), abs_of_nonneg (by linarith), Nat.cast_sub hlt]
    ring
  · have hmul : (other : ℚ) * unit ≤ low * unit :=
      mul_le_mul_of_nonneg_right (by exact_mod_cast hle) hunit.le
    refine ⟨low, low - other, .inl rfl, h.of_le_of_le hmul hlow, ?_, by omega⟩
    rw [abs_of_nonpos (by linarith), abs_of_nonpos (by linarith), Nat.cast_sub hle]
    ring

/-- If neither of the multiples next to the number rounds to it, none does. -/
theorem not_roundsTo (hlowNot : ¬RoundsTo bits (low * unit))
    (hhighNot : ¬RoundsTo bits ((low + 1 : Nat) * unit)) (other : Nat) : ¬RoundsTo bits (other * unit) := by
  intro h
  obtain ⟨neighbour, -, rfl | rfl, hrounds, -⟩ := h.exists_neighbour hbits hunit hlow hhigh
  · exact hlowNot hrounds
  · exact hhighNot hrounds

/-- The better one of the two multiples next to the number is the nearest one. -/
theorem isNearest_of_neighbour {digits : Nat} (h : RoundsTo bits (digits * unit))
    (hbetter : ∀ neighbour, (neighbour = low ∨ neighbour = low + 1) → RoundsTo bits (neighbour * unit) →
      neighbour = digits ∨ |digits * unit - magnitude bits| < |neighbour * unit - magnitude bits| ∨
        |digits * unit - magnitude bits| = |neighbour * unit - magnitude bits| ∧ digits % 2 = 0) :
    IsNearest bits unit digits := by
  have hfar : ∀ other : Nat, RoundsTo bits (other * unit) →
      |digits * unit - magnitude bits| ≤ |other * unit - magnitude bits| ∧
        (|other * unit - magnitude bits| = |digits * unit - magnitude bits| →
          other = digits ∨ digits % 2 = 0) := by
    intro other hother
    obtain ⟨neighbour, steps, hside, hrounds, hsteps, hzero⟩ :=
      hother.exists_neighbour hbits hunit hlow hhigh
    have hnonneg : 0 ≤ steps * unit := by positivity
    rcases hbetter neighbour hside hrounds with rfl | hlt | ⟨heq, heven⟩
    · refine ⟨by linarith, fun htie => .inl (hzero ?_)⟩
      have hsteps : (steps : ℚ) * unit = 0 := by linarith
      exact_mod_cast (mul_eq_zero.1 hsteps).resolve_right hunit.ne'
    · exact ⟨by linarith, fun htie => by linarith⟩
    · exact ⟨by linarith, fun _ => .inr heven⟩
  exact ⟨h, fun other hother => (hfar other hother).1, fun other hother => (hfar other hother).2⟩

/-- The multiple below the number is the nearest one if the one above does not round to the number or is not
better. -/
theorem isNearest_low (h : RoundsTo bits (low * unit))
    (hbetter : RoundsTo bits ((low + 1 : Nat) * unit) →
      |low * unit - magnitude bits| < |(low + 1 : Nat) * unit - magnitude bits| ∨
        |low * unit - magnitude bits| = |(low + 1 : Nat) * unit - magnitude bits| ∧ low % 2 = 0) :
    IsNearest bits unit low := by
  refine isNearest_of_neighbour hbits hunit hlow hhigh h fun neighbour hside hrounds => ?_
  rcases hside with rfl | rfl
  · exact .inl rfl
  · exact .inr (hbetter hrounds)

/-- The multiple above the number is the nearest one if the one below does not round to the number or is not
better. -/
theorem isNearest_high (h : RoundsTo bits ((low + 1 : Nat) * unit))
    (hbetter : RoundsTo bits (low * unit) →
      |(low + 1 : Nat) * unit - magnitude bits| < |low * unit - magnitude bits| ∨
        |(low + 1 : Nat) * unit - magnitude bits| = |low * unit - magnitude bits| ∧ (low + 1) % 2 = 0) :
    IsNearest bits unit (low + 1) := by
  refine isNearest_of_neighbour hbits hunit hlow hhigh h fun neighbour hside hrounds => ?_
  rcases hside with rfl | rfl
  · exact .inr (hbetter hrounds)
  · exact .inl rfl

end Neighbours

namespace Rounding

/-- The interval of the real numbers that round to the number with given bits, among which there is none for a
sign. -/
def around (bits : Nat) : Rounding where
  least := 2 * (magnitude (bits - 1) + magnitude bits)
  value := 4 * magnitude bits
  greatest := 2 * (magnitude bits + magnitude (bits + 1))
  endsRound := bits % 2 = 0

/-- The interval of a number is that around its bits. -/
theorem ofBits_eq {bits : UInt64} (h : bits.toNat % 2 ^ 63 ≠ 0) :
    ofBits bits = around (bits.toNat % 2 ^ 63) := by
  have hbiased : bits.toNat / 2 ^ 52 % 2048 = bits.toNat % 2 ^ 63 / 2 ^ 52 := by omega
  have hfraction : bits.toNat % 2 ^ 52 = bits.toNat % 2 ^ 63 % 2 ^ 52 := by omega
  rw [ofBits, around]
  simp only [Nat.pow_eq, hbiased, hfraction]
  obtain ⟨before, hbefore⟩ := Nat.exists_eq_succ_of_ne_zero h
  rw [hbefore, Nat.succ_eq_add_one, Nat.add_sub_cancel, magnitude_succ (before + 1)]
  have hlast := magnitude_succ before
  have hvalue : magnitude (before + 1) = (if (before + 1) / 2 ^ 52 = 0 then (before + 1) % 2 ^ 52
      else (before + 1) % 2 ^ 52 + 2 ^ 52) * gap (before + 1) := rfl
  rw [show 2 ^ ((before + 1) / 2 ^ 52 - 1) = gap (before + 1) from rfl]
  congr 1
  · -- Below a power of two the gap is half as large as above it.
    have hgap : (if (before + 1) % 2 ^ 52 = 0 ∧ 1 < (before + 1) / 2 ^ 52 then 1 else 2) *
        gap (before + 1) = 2 * gap before := by
      rw [gap, gap]
      split
      · next hfirst =>
        have hdiv : before / 2 ^ 52 = (before + 1) / 2 ^ 52 - 1 := by omega
        rw [hdiv, Nat.one_mul, ← Nat.pow_succ', Nat.succ_eq_add_one, Nat.sub_add_cancel (by omega)]
      · next hfirst =>
        have hdiv : before / 2 ^ 52 - 1 = (before + 1) / 2 ^ 52 - 1 := by omega
        rw [hdiv]
    rw [Nat.sub_mul, hgap, Nat.mul_assoc, ← hvalue]
    omega
  · rw [Nat.mul_assoc, ← hvalue]
  · rw [Nat.add_mul, Nat.mul_assoc, ← hvalue]
    omega
  · congr 1
    rw [eq_iff_iff]
    split <;> omega

section Fractions

variable {bits num den low : Nat} {unit : ℚ} (hden : 0 < den) (hnum : (num : ℚ) = 4 * unit * den)

/-- The number over a denominator, counted in quarters of its unit. -/
theorem cast_value_mul (bits den : Nat) :
    (((around bits).value * den : Nat) : ℚ) = 4 * magnitude bits * den := by
  rw [around]
  push_cast
  ring

include hnum

/-- A multiple over the denominator, counted in quarters of the unit. -/
theorem cast_mul_num (n : Nat) : ((n * num : Nat) : ℚ) = 4 * (n * unit) * den := by
  rw [Nat.cast_mul, hnum]
  ring

include hden

/-- Whether a multiple is in the interval is found out with whole numbers. -/
theorem contains_around_iff (hbits : bits ≠ 0) (n : Nat) :
    (around bits).contains num den n = true ↔ RoundsTo bits (n * unit) := by
  have hpos : (0 : ℚ) < den := by exact_mod_cast hden
  have hleast : (((around bits).least * den : Nat) : ℚ) = 4 * halfway (bits - 1) * den := by
    rw [halfway, Nat.sub_add_cancel (Nat.pos_of_ne_zero hbits), around]
    push_cast
    ring
  have hgreatest : (((around bits).greatest * den : Nat) : ℚ) = 4 * halfway bits * den := by
    rw [halfway, around]
    push_cast
    ring
  have hreal := cast_mul_num hnum n
  rw [contains, RoundsTo, show (around bits).endsRound = decide (bits % 2 = 0) from rfl]
  -- The last bit tells whether the ends belong to the interval, so all comparisons are ≤ or all are <.
  by_cases heven : bits % 2 = 0
  · rw [if_pos heven, if_pos (decide_eq_true heven), decide_eq_true_eq, ← Nat.cast_le (α := ℚ),
      ← Nat.cast_le (α := ℚ), hleast, hgreatest, hreal, mul_le_mul_iff_left₀ hpos,
      mul_le_mul_iff_left₀ hpos]
    constructor <;> rintro ⟨h, h'⟩ <;> constructor <;> linarith
  · rw [if_neg heven, if_neg (by simpa using heven), decide_eq_true_eq, ← Nat.cast_lt (α := ℚ),
      ← Nat.cast_lt (α := ℚ), hleast, hgreatest, hreal, mul_lt_mul_iff_left₀ hpos,
      mul_lt_mul_iff_left₀ hpos]
    constructor <;> rintro ⟨h, h'⟩ <;> constructor <;> linarith

/-- The multiples next to the number are found by division. -/
theorem le_and_lt_of_eq_div (hunit : 0 < unit) (hlow : low = (around bits).value * den / num) :
    low * unit ≤ magnitude bits ∧ magnitude bits < (low + 1 : Nat) * unit := by
  subst hlow
  have hdenPos : (0 : ℚ) < den := by exact_mod_cast hden
  have hnumPos : 0 < num := by
    have hpos : (0 : ℚ) < num := by rw [hnum]; positivity
    exact_mod_cast hpos
  have hle := Nat.div_mul_le_self ((around bits).value * den) num
  have hlt := Nat.lt_mul_of_div_lt (Nat.lt_succ_self ((around bits).value * den / num)) hnumPos
  rw [← Nat.cast_le (α := ℚ), cast_mul_num hnum, cast_value_mul, mul_le_mul_iff_left₀ hdenPos] at hle
  rw [← Nat.cast_lt (α := ℚ), cast_mul_num hnum, cast_value_mul, mul_lt_mul_iff_left₀ hdenPos] at hlt
  constructor <;> linarith

/-- How far the number is from the multiples next to it is found out with whole numbers. -/
theorem exists_cast_sub (hlow : low * unit ≤ magnitude bits)
    (hhigh : magnitude bits < (low + 1 : Nat) * unit) :
    ∃ scale : ℚ, 0 < scale ∧
      (((around bits).value * den - low * num : Nat) : ℚ) = |low * unit - magnitude bits| * scale ∧
      (((low + 1) * num - (around bits).value * den : Nat) : ℚ) =
        |(low + 1 : Nat) * unit - magnitude bits| * scale := by
  have hdenPos : (0 : ℚ) < den := by exact_mod_cast hden
  have hle : low * num ≤ (around bits).value * den := by
    rw [← Nat.cast_le (α := ℚ), cast_mul_num hnum, cast_value_mul, mul_le_mul_iff_left₀ hdenPos]
    linarith
  have hge : (around bits).value * den ≤ (low + 1) * num := by
    rw [← Nat.cast_le (α := ℚ), cast_mul_num hnum, cast_value_mul, mul_le_mul_iff_left₀ hdenPos]
    linarith
  refine ⟨4 * den, by positivity, ?_, ?_⟩
  · rw [abs_of_nonpos (by linarith), Nat.cast_sub hle, cast_mul_num hnum, cast_value_mul]
    ring
  · rw [abs_of_nonneg (by linarith), Nat.cast_sub hge, cast_mul_num hnum, cast_value_mul]
    ring

/-- Of the two multiples next to the number, if both round to it, the nearest one is found: the one that is
nearer or, if both are as near, even. -/
theorem findsNearest_of_roundsTo (hbits : bits ≠ 0) (hunit : 0 < unit) (hlow : low * unit ≤ magnitude bits)
    (hhigh : magnitude bits < (low + 1 : Nat) * unit) (hlowRounds : RoundsTo bits (low * unit))
    (hhighRounds : RoundsTo bits ((low + 1 : Nat) * unit)) :
    FindsNearest bits unit
      (if (around bits).value * den - low * num < (low + 1) * num - (around bits).value * den then some low
      else if (low + 1) * num - (around bits).value * den < (around bits).value * den - low * num then
        some (low + 1)
      else if low % 2 = 0 then some low
      else some (low + 1)) := by
  have hisLow := isNearest_low hbits hunit hlow hhigh hlowRounds
  have hisHigh := isNearest_high hbits hunit hlow hhigh hhighRounds
  obtain ⟨scale, hscale, hbelow, habove⟩ := exists_cast_sub hden hnum hlow hhigh
  generalize (around bits).value * den - low * num = belowBy at hbelow ⊢
  generalize (low + 1) * num - (around bits).value * den = aboveBy at habove ⊢
  have hcloser {first second : Nat} {x y : ℚ} (hfirst : (first : ℚ) = x * scale)
      (hsecond : (second : ℚ) = y * scale) : first < second ↔ x < y := by
    rw [← Nat.cast_lt (α := ℚ), hfirst, hsecond, mul_lt_mul_iff_left₀ hscale]
  by_cases hless : belowBy < aboveBy
  · rw [if_pos hless]
    exact hisLow fun _ => .inl ((hcloser hbelow habove).1 hless)
  by_cases hgreater : aboveBy < belowBy
  · rw [if_neg hless, if_pos hgreater]
    exact hisHigh fun _ => .inl ((hcloser habove hbelow).1 hgreater)
  -- Neither is nearer, so the even one is taken.
  have htie := le_antisymm (not_lt.1 (mt (hcloser habove hbelow).2 hgreater))
    (not_lt.1 (mt (hcloser hbelow habove).2 hless))
  rw [if_neg hless, if_neg hgreater]
  by_cases heven : low % 2 = 0
  · rw [if_pos heven]
    exact hisLow fun _ => .inr ⟨htie, heven⟩
  · rw [if_neg heven]
    exact hisHigh fun _ => .inr ⟨htie.symm, by omega⟩

/-- Of the multiples of a unit that is given as a fraction, the nearest one is found. -/
theorem findsNearest_nearestMultiple (hbits : bits ≠ 0) (hunit : 0 < unit) :
    FindsNearest bits unit ((around bits).nearestMultiple num den) := by
  rw [nearestMultiple]
  dsimp only
  obtain ⟨low, hdiv⟩ : ∃ low, low = (around bits).value * den / num := ⟨_, rfl⟩
  rw [← hdiv]
  obtain ⟨hlow, hhigh⟩ := le_and_lt_of_eq_div hden hnum hunit hdiv
  have hlowRounds := contains_around_iff hden hnum hbits low
  have hhighRounds := contains_around_iff hden hnum hbits (low + 1)
  cases hin : (around bits).contains num den low <;>
    cases hnext : (around bits).contains num den (low + 1)
  case false.false =>
    rw [hin, Bool.false_eq_true, false_iff] at hlowRounds
    rw [hnext, Bool.false_eq_true, false_iff] at hhighRounds
    exact not_roundsTo hbits hunit hlow hhigh hlowRounds hhighRounds
  case true.false =>
    rw [hnext, Bool.false_eq_true, false_iff] at hhighRounds
    exact isNearest_low hbits hunit hlow hhigh (hlowRounds.1 hin) fun h => absurd h hhighRounds
  case false.true =>
    rw [hin, Bool.false_eq_true, false_iff] at hlowRounds
    exact isNearest_high hbits hunit hlow hhigh (hhighRounds.1 hnext) fun h => absurd h hlowRounds
  case true.true =>
    exact findsNearest_of_roundsTo hden hnum hbits hunit hlow hhigh (hlowRounds.1 hin)
      (hhighRounds.1 hnext)

end Fractions

end Rounding

/-! ### Powers of ten -/

/-- A power of ten, in units of `2 ^ -1074`. -/
def powerUnit (exponent : Int) : ℚ :=
  10 ^ exponent * 2 ^ 1074

/-- Powers of ten are positive. -/
theorem powerUnit_pos (exponent : Int) : 0 < powerUnit exponent := by
  rw [powerUnit]
  positivity

/-- Powers of ten ascend. -/
theorem powerUnit_le {exponent coarser : Int} (h : exponent ≤ coarser) :
    powerUnit exponent ≤ powerUnit coarser := by
  rw [powerUnit, powerUnit]
  exact mul_le_mul_of_nonneg_right (zpow_le_zpow_right₀ (by norm_num) h) (by positivity)

/-- A power of ten as a fraction, in which four times the unit is one. -/
theorem cast_num {power quarter : Nat} (h : quarter = power + 2) (exponent : Int) :
    ((Nat.pow 2 quarter * Nat.pow 10 exponent.toNat : Nat) : ℚ) =
      4 * (10 ^ exponent * 2 ^ power) * (Nat.pow 10 (-exponent).toNat : Nat) := by
  subst h
  simp only [Nat.pow_eq, Nat.cast_mul, Nat.cast_pow, Nat.cast_ofNat]
  obtain ⟨power, rfl | rfl⟩ := exponent.eq_nat_or_neg
  · rw [Int.toNat_natCast, Int.toNat_of_nonpos (by omega), zpow_natCast]
    ring
  · rw [Int.toNat_of_nonpos (by omega), Int.neg_neg, Int.toNat_natCast, zpow_neg, zpow_natCast]
    field_simp
    ring

/-- Powers of two and ten that are nearly equal, so that greater ones can be compared through them. -/
theorem pow_two_le_pow_ten : ((2 : ℚ) ^ 93) ^ 11 ≤ (10 ^ 28) ^ 11 :=
  pow_le_pow_left₀ (by positivity) (by norm_num) 11

/-- The multiples of `10 ^ -324` are so close to one another that one rounds to the number. -/
theorem exists_roundsTo_powerUnit {bits : Nat} (hbits : bits ≠ 0) :
    ∃ n : Nat, RoundsTo bits (n * powerUnit (-324)) := by
  have hclose : powerUnit (-324) ≤ 1 / 2 := by
    have htwo : (2 : ℚ) ^ 1074 = (2 ^ 93) ^ 11 * 2 ^ 51 := by rw [← pow_mul, ← pow_add]
    have hten : (10 : ℚ) ^ 324 = (10 ^ 28) ^ 11 * 10 ^ 16 := by rw [← pow_mul, ← pow_add]
    have hmul : (2 : ℚ) ^ 1074 * 2 ≤ 10 ^ 324 := by
      rw [htwo, hten, mul_assoc]
      exact mul_le_mul pow_two_le_pow_ten (by norm_num) (by positivity) (by positivity)
    have hpos : (0 : ℚ) < 10 ^ 324 := by positivity
    show (10 : ℚ) ^ (-((324 : Nat) : Int)) * 2 ^ 1074 ≤ 1 / 2
    rw [zpow_neg, zpow_natCast, inv_mul_le_iff₀ hpos, mul_one_div, le_div_iff₀ two_pos]
    exact hmul
  have hpos := powerUnit_pos (-324)
  have hle := Nat.floor_le (by positivity : (0 : ℚ) ≤ magnitude bits / powerUnit (-324))
  have hlt := Nat.lt_floor_add_one ((magnitude bits : ℚ) / powerUnit (-324))
  rw [le_div_iff₀ hpos] at hle
  rw [div_lt_iff₀ hpos] at hlt
  have hbelow := (le_halfway_and (bits - 1)).2
  rw [Nat.sub_add_cancel (Nat.pos_of_ne_zero hbits)] at hbelow
  have habove := (le_halfway_and bits).1
  refine ⟨⌊(magnitude bits : ℚ) / powerUnit (-324)⌋₊, .of_lt_of_lt ?_ ?_⟩ <;> linarith

/-- No multiple of a power above `10 ^ 309` rounds to the number. -/
theorem not_roundsTo_powerUnit {bits : Nat} (hlt : bits < 2 ^ 63) {exponent : Int} (h : 309 < exponent)
    (n : Nat) : ¬RoundsTo bits (n * powerUnit exponent) := by
  intro hrounds
  obtain ⟨hleast, hgreatest⟩ := hrounds.le_and_le
  rcases Nat.eq_zero_or_pos n with rfl | hpos
  · -- The points half way are all positive.
    have hhalf := (le_halfway_and (bits - 1)).1
    have hnonneg : (0 : ℚ) ≤ magnitude (bits - 1) := by positivity
    rw [Nat.cast_zero, zero_mul] at hleast
    linarith
  · have hfar : (magnitude (bits + 1) : ℚ) < powerUnit 310 := by
      have htwo : (2 : ℚ) ^ 53 * 2 ^ 2047 = (2 ^ 93) ^ 11 * 2 ^ 3 * 2 ^ 1074 := by
        rw [← pow_mul, ← pow_add, ← pow_add, ← pow_add]
      have hten : (10 : ℚ) ^ 310 = (10 ^ 28) ^ 11 * 10 ^ 2 := by rw [← pow_mul, ← pow_add]
      refine (magnitude_le (by omega : (bits + 1) / 2 ^ 52 - 1 ≤ 2047)).trans_lt ?_
      show _ < (10 : ℚ) ^ ((310 : Nat) : Int) * 2 ^ 1074
      rw [zpow_natCast, hten, htwo]
      exact mul_lt_mul_of_pos_right
        (mul_lt_mul' pow_two_le_pow_ten (by norm_num) (by positivity) (by positivity)) (by positivity)
    have hgreater := (le_halfway_and bits).2
    have hunit : powerUnit 310 ≤ powerUnit exponent := powerUnit_le h
    have hone : (1 : ℚ) ≤ n := by exact_mod_cast hpos
    have hmul := le_mul_of_one_le_left (powerUnit_pos exponent).le hone
    linarith

/-! ### The shortest decimal -/

/-- A decimal is the shortest one of the number with given bits: it is the nearest multiple of its power of
ten, and no multiple of a greater power of ten rounds to the number. -/
structure IsShortest (bits digits : Nat) (exponent : Int) : Prop where
  /-- It is the nearest one with its power of ten. -/
  nearest : IsNearest bits (powerUnit exponent) digits
  /-- There is none with a greater power of ten. -/
  coarsest : ∀ coarser, exponent < coarser → ∀ other : Nat, ¬RoundsTo bits (other * powerUnit coarser)

/-- There are no two shortest decimals. -/
theorem IsShortest.unique {bits digits digits' : Nat} {exponent exponent' : Int} (hbits : bits ≠ 0)
    (h : IsShortest bits digits exponent) (h' : IsShortest bits digits' exponent') :
    digits = digits' ∧ exponent = exponent' := by
  rcases lt_trichotomy exponent exponent' with hlt | rfl | hgt
  · exact absurd h'.nearest.rounds (h.coarsest _ hlt digits')
  · exact ⟨h.nearest.unique hbits (powerUnit_pos exponent) h'.nearest, rfl⟩
  · exact absurd h.nearest.rounds (h'.coarsest _ hgt digits)

namespace Rounding

/-- Of the multiples of a power of ten, the nearest one is found. -/
theorem findsNearest_onGrid {bits : Nat} (hbits : bits ≠ 0) (exponent : Int) :
    FindsNearest bits (powerUnit exponent) ((around bits).onGrid exponent) := by
  rw [onGrid]
  have hquarter : (1076 : Nat) = 1074 + 2 := rfl
  generalize (1076 : Nat) = quarter at hquarter ⊢
  exact findsNearest_nearestMultiple (Nat.pow_pos (by decide)) (cast_num hquarter exponent) hbits
    (powerUnit_pos exponent)

/-- On descending grids that are all those from `10 ^ -324` to `10 ^ 309`, the shortest decimal is found. -/
theorem isShortest_of_findSome? {bits digits : Nat} {exponent : Int} (hbits : bits ≠ 0)
    (hlt : bits < 2 ^ 63) {grids : List Int} (hmem : ∀ grid, grid ∈ grids ↔ -324 ≤ grid ∧ grid ≤ 309)
    (hdescending : grids.Pairwise (· > ·))
    (hfound : grids.findSome? (fun grid => ((around bits).onGrid grid).map (·, grid)) =
      some (digits, exponent)) : IsShortest bits digits exponent := by
  obtain ⟨before, grid, after, rfl, hgrid, hbefore⟩ := List.findSome?_eq_some_iff.1 hfound
  obtain ⟨found, hon, heq⟩ := Option.map_eq_some_iff.1 hgrid
  obtain ⟨rfl, rfl⟩ := Prod.mk.inj heq
  constructor
  · have hfinds := findsNearest_onGrid hbits grid
    rwa [hon] at hfinds
  · intro coarser hcoarser
    have hleast := ((hmem grid).1 (List.mem_append_right _ List.mem_cons_self)).1
    rcases Int.lt_or_le 309 coarser with hlarge | hle
    · exact not_roundsTo_powerUnit hlt hlarge
    · -- The coarser grid comes before, and nothing was found on it.
      rw [List.pairwise_append, List.pairwise_cons] at hdescending
      obtain ⟨-, ⟨hafter, -⟩, -⟩ := hdescending
      have hin : coarser ∈ before := by
        rcases List.mem_append.1 ((hmem coarser).2 ⟨by omega, hle⟩) with hin | hin
        · exact hin
        rcases List.mem_cons.1 hin with rfl | hin
        · exact absurd hcoarser (Int.lt_irrefl _)
        · exact absurd hcoarser (Int.not_lt.2 (Int.le_of_lt (hafter coarser hin)))
      have hfinds := findsNearest_onGrid hbits coarser
      rwa [Option.map_eq_none_iff.1 (hbefore coarser hin)] at hfinds

/-- The shortest decimal is found. -/
theorem isShortest_shortest {bits : Nat} (hbits : bits ≠ 0) (hlt : bits < 2 ^ 63) :
    IsShortest bits (around bits).shortest.1 (around bits).shortest.2 := by
  have hindex (index : Nat) : index ∈ List.range 634 ↔ index < 634 := List.mem_range
  have hascending : (List.range 634).Pairwise (· < ·) := List.pairwise_lt_range
  delta shortest
  generalize List.range 634 = indices at hindex hascending ⊢
  dsimp only
  have hmem (grid : Int) :
      (grid ∈ indices.map fun i : Nat => (309 : Int) - i) ↔ -324 ≤ grid ∧ grid ≤ 309 := by
    rw [List.mem_map]
    constructor
    · rintro ⟨index, hin, rfl⟩
      have := (hindex index).1 hin
      omega
    · rintro ⟨hleast, hgreatest⟩
      exact ⟨(309 - grid).toNat, (hindex _).2 (by omega), by omega⟩
  have hdescending : (indices.map fun i : Nat => (309 : Int) - i).Pairwise (· > ·) :=
    hascending.map _ fun a b hlt => by omega
  generalize indices.map (fun i : Nat => (309 : Int) - i) = grids at hmem hdescending ⊢
  rcases hfound : grids.findSome? fun grid => ((around bits).onGrid grid).map (·, grid) with
    _ | ⟨digits, exponent⟩
  · -- On the finest grid there is a multiple.
    have hnone := List.findSome?_eq_none_iff.1 hfound (-324) ((hmem _).2 (by decide))
    have hfinds := findsNearest_onGrid hbits (-324)
    rw [Option.map_eq_none_iff.1 hnone] at hfinds
    obtain ⟨n, hrounds⟩ := exists_roundsTo_powerUnit hbits
    exact absurd hrounds (hfinds n)
  · exact isShortest_of_findSome? hbits hlt hmem hdescending hfound

end Rounding

namespace Decimal

/-- The decimal of a number, given its bits: its sign is that of the bits, and it is zero or the shortest
one. -/
inductive OfBits (bits : Nat) : Decimal → Prop where
  /-- Zero has no digits but 0. -/
  | zero {negative : Bool} (hnegative : negative = true ↔ 2 ^ 63 ≤ bits) (hzero : bits % 2 ^ 63 = 0) :
      OfBits bits ⟨negative, 0, 0⟩
  /-- All others have a shortest decimal. -/
  | shortest {negative : Bool} {digits : Nat} {exponent : Int}
      (hnegative : negative = true ↔ 2 ^ 63 ≤ bits) (hpositive : bits % 2 ^ 63 ≠ 0)
      (h : IsShortest (bits % 2 ^ 63) digits exponent) : OfBits bits ⟨negative, digits, exponent⟩

/-- The decimal of a number is that of its bits. -/
theorem ofBits_iff {number : Float} {decimal : Decimal} :
    OfBits number.toBits.toNat decimal ↔ decimal = ofFloat number := by
  rw [ofFloat]
  generalize number.toBits = bits
  have hsign : decide (2 ^ 63 ≤ bits.toNat) = true ↔ 2 ^ 63 ≤ bits.toNat := decide_eq_true_iff
  have hlt : bits.toNat % 2 ^ 63 < 2 ^ 63 := Nat.mod_lt _ (by decide)
  dsimp only [Nat.pow_eq]
  constructor
  · rintro (⟨hnegative, hzero⟩ | ⟨hnegative, hpositive, h⟩)
    · rw [if_pos hzero, Bool.eq_iff_iff.2 (hnegative.trans hsign.symm)]
    · have hunique := h.unique hpositive (Rounding.isShortest_shortest hpositive hlt)
      rw [if_neg hpositive, Rounding.ofBits_eq hpositive, hunique.1, hunique.2,
        Bool.eq_iff_iff.2 (hnegative.trans hsign.symm)]
  · rintro rfl
    split
    · next hzero => exact .zero hsign hzero
    · next hpositive =>
      rw [Rounding.ofBits_eq hpositive]
      exact .shortest hsign hpositive (Rounding.isShortest_shortest hpositive hlt)

end Decimal

end MarkupQuery
