import HostCall.Number.Nearest
import Mathlib.Algebra.Order.Field.Power
import Mathlib.Algebra.Order.Ring.Rat
import Mathlib.Tactic.FieldSimp
import Mathlib.Tactic.Linarith
import Mathlib.Tactic.NormNum
import Mathlib.Tactic.Positivity
import Mathlib.Tactic.Ring

/-!
# Nearest numbers

The floating point number that is read for a decimal is nearest to it: no other is nearer, and
where another one is just as near, the significand is even. Infinity stands in for the number that
would come next after the largest finite one.

Distances are taken in units of the lowest place. At some place, every size either lies below all
the leading significands there or is a multiple of the step between them, so it is enough to round
to a multiple of that step.
-/

namespace HostCall.Binary64

/-! ## Rounding to an integer -/

/-- An integer that is no further than a half from a number is nearest to it. -/
theorem near_of_close {s t : ℕ} {x unit : ℚ} (hunit : 0 < unit)
    (hclose : |s * unit - x| ≤ unit / 2) (hne : t ≠ s) :
    |s * unit - x| ≤ |t * unit - x| ∧
      (|t * unit - x| = |s * unit - x| → |s * unit - x| = unit / 2) := by
  have hgap : unit ≤ |t * unit - s * unit| := by
    have hone : (1 : ℚ) ≤ |(t : ℚ) - s| := by
      have hint : (1 : ℤ) ≤ |(t : ℤ) - s| := Int.one_le_abs (by omega)
      exact_mod_cast hint
    rw [← sub_mul, abs_mul, abs_of_pos hunit]
    exact le_mul_of_one_le_left hunit.le hone
  have htriangle : |t * unit - s * unit| ≤ |t * unit - x| + |s * unit - x| := by
    rw [abs_sub_comm (s * unit) x]
    exact abs_sub_le _ _ _
  constructor
  · linarith
  · intro htie
    linarith

/-- A rounded quotient is no further than a half from the quotient, and even where it is a half. -/
theorem divideToEven_close (num : ℕ) {den : ℕ} (hden : 0 < den) :
    |(divideToEven num den : ℚ) - num / den| ≤ 1 / 2 ∧
      (|(divideToEven num den : ℚ) - num / den| = 1 / 2 → Even (divideToEven num den)) := by
  have hpos : (0 : ℚ) < den := by exact_mod_cast hden
  obtain ⟨part, hpart⟩ : ∃ part : ℚ, part = (num % den : ℕ) / den := ⟨_, rfl⟩
  have hquotient : (num : ℚ) / den = (num / den : ℕ) + part := by
    have hnum : (num : ℚ) = den * (num / den : ℕ) + (num % den : ℕ) := by
      exact_mod_cast (Nat.div_add_mod num den).symm
    rw [hpart, hnum]
    field_simp
  have hbelow : 2 * (num % den) < den ↔ part < 1 / 2 := by
    rw [hpart, div_lt_iff₀ hpos, ← Nat.cast_lt (α := ℚ)]
    push_cast
    constructor <;> intro h <;> linarith
  have habove : den < 2 * (num % den) ↔ 1 / 2 < part := by
    rw [hpart, lt_div_iff₀ hpos, ← Nat.cast_lt (α := ℚ)]
    push_cast
    constructor <;> intro h <;> linarith
  have hnonneg : 0 ≤ part := by
    rw [hpart]
    positivity
  have hlt : part < 1 := by
    rw [hpart, div_lt_one hpos]
    exact_mod_cast Nat.mod_lt num hden
  rw [hquotient, divideToEven]
  simp only [hbelow, habove]
  split_ifs with hlow hhigh
  · rw [sub_add_cancel_left, abs_neg, abs_of_nonneg hnonneg]
    exact ⟨hlow.le, fun htie => absurd htie hlow.ne⟩
  · have hdistance : |((num / den + 1 : ℕ) : ℚ) - ((num / den : ℕ) + part)| = 1 - part := by
      rw [Nat.cast_add, Nat.cast_one, add_sub_add_left_eq_sub, abs_of_pos (by linarith)]
    rw [hdistance]
    exact ⟨by linarith, fun htie => by linarith⟩
  · have hhalf : part = 1 / 2 := le_antisymm (not_lt.mp hhigh) (not_lt.mp hlow)
    have heven : Even (num / den + num / den % 2) := by
      rw [Nat.even_iff]
      omega
    have hdistance :
        |((num / den + num / den % 2 : ℕ) : ℚ) - ((num / den : ℕ) + part)| = 1 / 2 := by
      rw [hhalf, Nat.cast_add, add_sub_add_left_eq_sub]
      rcases Nat.mod_two_eq_zero_or_one (num / den) with h | h <;> rw [h] <;> norm_num
    exact ⟨hdistance.le, fun _ => heven⟩

/-! ## Sizes -/

/-- What a number comes to without its sign, in units of `2 ^ -1074`. Infinity comes to what would
come next after the largest finite number. -/
def size (x : Binary64) : ℕ := x.significand * 2 ^ x.place

section Sizes

variable {x : Binary64}

theorem isNaN_eq_false_iff : x.isNaN = false ↔ x.magnitude ≤ 2047 * leadingBit := by
  rw [isNaN, decide_eq_false_iff_not, not_lt]
  rfl

theorem significand_lt (x : Binary64) : x.significand < 2 * leadingBit := by
  simp only [significand, place, leadingBit]
  omega

/-- A rounded significand may be one too large for its place: its pattern is that of the next. -/
theorem size_of_magnitude {place s : ℕ} (h : x.magnitude = place * leadingBit + s)
    (hlow : place = 0 ∨ leadingBit ≤ s) (hhigh : s ≤ 2 * leadingBit) :
    x.size = s * 2 ^ place := by
  rcases hhigh.lt_or_eq with hlt | heq
  · have hplace : x.place = place := by
      simp only [Binary64.place, leadingBit] at *
      omega
    have hsignificand : x.significand = s := by
      rw [significand, hplace, h, Nat.add_sub_cancel_left]
    rw [size, hplace, hsignificand]
  · have hplace : x.place = place + 1 := by
      simp only [Binary64.place, leadingBit] at *
      omega
    have hsignificand : x.significand = leadingBit := by
      rw [significand, hplace, h, heq]
      simp only [leadingBit]
      omega
    rw [size, hplace, hsignificand, heq, pow_succ]
    ring

theorem leading_le_leading {place place' : ℕ} (h : place ≤ place') :
    leadingBit * 2 ^ place ≤ leadingBit * 2 ^ place' :=
  Nat.mul_le_mul_left _ (Nat.pow_le_pow_right two_pos h)

theorem size_lt_of_place_lt {place : ℕ} (h : x.place < place) :
    x.size < leadingBit * 2 ^ place :=
  calc x.size < 2 * leadingBit * 2 ^ x.place :=
        Nat.mul_lt_mul_of_pos_right x.significand_lt (by positivity)
    _ = leadingBit * 2 ^ (x.place + 1) := by ring
    _ ≤ leadingBit * 2 ^ place := leading_le_leading h

/-- Every size lies below all the leading significands at a place or is a multiple of the step
there. -/
theorem size_lt_or_dvd (x : Binary64) (place : ℕ) :
    x.size < leadingBit * 2 ^ place ∨ 2 ^ place ∣ x.size := by
  rcases le_or_gt place x.place with hle | hlt
  · exact .inr (Dvd.dvd.mul_left (pow_dvd_pow 2 hle) _)
  · exact .inl (size_lt_of_place_lt hlt)

/-- The place at which infinity would be a significand. -/
def highestPlace : ℕ := 2046

theorem size_of_infinite (h : x.magnitude = 2047 * leadingBit) :
    x.size = leadingBit * 2 ^ highestPlace := by
  refine size_of_magnitude ?_ (.inr le_rfl) (by omega)
  rw [h, highestPlace]
  rfl

theorem size_le (h : x.isNaN = false) : x.size ≤ leadingBit * 2 ^ highestPlace := by
  rw [isNaN_eq_false_iff] at h
  rcases h.eq_or_lt with heq | hlt
  · exact (size_of_infinite heq).le
  · have hplace : x.place < highestPlace := by
      simp only [place, leadingBit, highestPlace] at *
      omega
    exact (size_lt_of_place_lt hplace).le

/-- Patterns and significands are even together. -/
theorem even_significand_iff (x : Binary64) : Even x.significand ↔ Even x.magnitude := by
  simp only [significand, place, leadingBit, Nat.even_iff]
  omega

end Sizes

/-! ## The nearest number -/

/-- A number is nearest to an amount of the lowest unit: no other is nearer, and one that is just
as near has an odd significand where this one has an even one. -/
structure IsNearest (x : Binary64) (amount : ℚ) : Prop where
  number : x.isNaN = false
  near : ∀ y : Binary64, y.isNaN = false → |x.size - amount| ≤ |y.size - amount|
  even : ∀ y : Binary64, y.isNaN = false → y.size ≠ x.size →
    |y.size - amount| = |x.size - amount| → Even x.significand

variable {x : Binary64} {amount : ℚ}

/-- Zero is nearest to what is less than half the lowest unit. -/
theorem IsNearest.of_vanishing (hx : x.magnitude = 0) (hnonneg : 0 ≤ amount)
    (hlow : amount < 1 / 2) : x.IsNearest amount := by
  have hsize : x.size = 0 := by
    rw [size, significand, hx, Nat.zero_sub, Nat.zero_mul]
  have hzero : |((x.size : ℕ) : ℚ) - amount| = amount := by
    rw [hsize, Nat.cast_zero, zero_sub, abs_neg, abs_of_nonneg hnonneg]
  refine ⟨?_, ?_, ?_⟩
  · rw [isNaN_eq_false_iff, hx]
    exact Nat.zero_le _
  · intro y _
    rcases Nat.eq_zero_or_pos y.size with hy | hy
    · rw [hy, hsize]
    · have hone : (1 : ℚ) ≤ y.size := by exact_mod_cast hy
      rw [hzero, abs_of_pos (by linarith)]
      linarith
  · intro y _ _ _
    rw [even_significand_iff, hx]
    exact Even.zero

/-- Infinity is nearest to what is at or past the amount that it stands for. -/
theorem IsNearest.of_infinite (hx : x.magnitude = 2047 * leadingBit)
    (hhigh : ((leadingBit * 2 ^ highestPlace : ℕ) : ℚ) ≤ amount) : x.IsNearest amount := by
  have hsize := size_of_infinite hx
  have hmost (y : Binary64) (hy : y.isNaN = false) : (y.size : ℚ) ≤ x.size := by
    rw [hsize]
    exact_mod_cast size_le hy
  rw [← hsize] at hhigh
  refine ⟨by rw [isNaN_eq_false_iff, hx], ?_, ?_⟩
  · intro y hy
    rw [abs_sub_comm, abs_sub_comm _ amount, abs_of_nonneg (by linarith),
      abs_of_nonneg (by linarith [hmost y hy])]
    linarith [hmost y hy]
  · intro y hy hne htie
    have hsame : (y.size : ℚ) = x.size := by
      rw [abs_sub_comm, abs_sub_comm _ amount, abs_of_nonneg (by linarith [hmost y hy]),
        abs_of_nonneg (by linarith)] at htie
      linarith
    exact absurd (by exact_mod_cast hsame) hne

/-- A significand that was rounded at the place of an amount gives the number nearest to it. -/
theorem IsNearest.of_rounded {place s : ℕ} (hx : x.magnitude = place * leadingBit + s)
    (hle : x.magnitude ≤ 2047 * leadingBit) (hlow : place = 0 ∨ leadingBit ≤ s)
    (hhigh : s ≤ 2 * leadingBit)
    (hleading : place = 0 ∨ ((leadingBit * 2 ^ place : ℕ) : ℚ) ≤ amount)
    (hclose : |(s : ℚ) * 2 ^ place - amount| ≤ 2 ^ place / 2)
    (heven : |(s : ℚ) * 2 ^ place - amount| = 2 ^ place / 2 → Even s) : x.IsNearest amount := by
  have hunit : (0 : ℚ) < 2 ^ place := by positivity
  have hsize : (x.size : ℚ) = s * 2 ^ place := by
    rw [size_of_magnitude hx hlow hhigh]
    push_cast
    rfl
  have hmultiple (t : ℕ) : |(s : ℚ) * 2 ^ place - amount| ≤ |(t : ℚ) * 2 ^ place - amount| := by
    rcases eq_or_ne t s with rfl | hne
    · exact le_rfl
    · exact (near_of_close hunit hclose hne).1
  -- what lies below the leading significands is further away than the least of these
  have hbelow (y : Binary64) (hy : y.size < leadingBit * 2 ^ place)
      (hamount : ((leadingBit * 2 ^ place : ℕ) : ℚ) ≤ amount) :
      |(x.size : ℚ) - amount| < |(y.size : ℚ) - amount| := by
    have hleast := hmultiple leadingBit
    have hlt : (y.size : ℚ) < (leadingBit * 2 ^ place : ℕ) := by exact_mod_cast hy
    push_cast at hamount hlt
    have hstart : |(leadingBit : ℚ) * 2 ^ place - amount| = amount - leadingBit * 2 ^ place := by
      rw [abs_of_nonpos (by linarith), neg_sub]
    have hbehind : |(y.size : ℚ) - amount| = amount - y.size := by
      rw [abs_of_nonpos (by linarith), neg_sub]
    rw [hstart] at hleast
    rw [hsize, hbehind]
    linarith
  have hcases (y : Binary64) : |(x.size : ℚ) - amount| < |(y.size : ℚ) - amount| ∨
      ∃ t : ℕ, (y.size : ℚ) = t * 2 ^ place := by
    rcases y.size_lt_or_dvd place with hy | ⟨t, ht⟩
    · rcases hleading with rfl | hamount
      · exact .inr ⟨y.size, by rw [pow_zero, mul_one]⟩
      · exact .inl (hbelow y hy hamount)
    · refine .inr ⟨t, ?_⟩
      rw [ht, mul_comm]
      push_cast
      rfl
  refine ⟨isNaN_eq_false_iff.mpr hle, ?_, ?_⟩
  · intro y _
    rcases hcases y with hlt | ⟨t, ht⟩
    · exact hlt.le
    · rw [hsize, ht]
      exact hmultiple t
  · intro y _ hne htie
    rcases hcases y with hlt | ⟨t, ht⟩
    · exact absurd htie hlt.ne'
    · have hts : t ≠ s := by
        rintro rfl
        exact hne (by exact_mod_cast ht.trans hsize.symm)
      rw [hsize, ht] at htie
      have hs : Even s := heven ((near_of_close hunit hclose hts).2 htie)
      have hleast : Even leadingBit := ⟨0x8000000000000, rfl⟩
      rw [even_significand_iff, hx]
      exact (hleast.mul_left place).add hs

/-! ## Quotients -/

theorem divideToEven_bounds (num den : ℕ) :
    num / den ≤ divideToEven num den ∧ divideToEven num den ≤ num / den + 1 := by
  rw [divideToEven]
  split_ifs <;> omega

/-- The place of a number of units: it stays below the significands that are too large there. -/
theorem lt_of_log2 (n : ℕ) : n < 2 * leadingBit * 2 ^ (n.log2 - 52) := by
  have hexponent : n.log2 + 1 ≤ 53 + (n.log2 - 52) := by omega
  calc n < 2 ^ (n.log2 + 1) := Nat.lt_log2_self
    _ ≤ 2 ^ (53 + (n.log2 - 52)) := Nat.pow_le_pow_right two_pos hexponent
    _ = 2 * leadingBit * 2 ^ (n.log2 - 52) := pow_add 2 53 _

/-- Above the lowest place it does not stay below the leading significands. -/
theorem le_of_log2 {n : ℕ} (h : n.log2 - 52 ≠ 0) : leadingBit * 2 ^ (n.log2 - 52) ≤ n := by
  have hn : n ≠ 0 := by
    rintro rfl
    exact h rfl
  calc leadingBit * 2 ^ (n.log2 - 52) = 2 ^ (52 + (n.log2 - 52)) := (pow_add 2 52 _).symm
    _ = 2 ^ n.log2 := by rw [Nat.add_sub_cancel' (by omega)]
    _ ≤ n := Nat.log2_self_le hn

section Quotient

variable {units den place s : ℕ}

/-- Above the lowest place, a quotient does not stay below the leading significands of its place. -/
theorem leading_le_quotient (hplace : place = (units / den).log2 - 52) :
    place = 0 ∨ leadingBit * 2 ^ place ≤ units / den := by
  rcases eq_or_ne place 0 with h | h
  · exact .inl h
  · rw [hplace] at h ⊢
    exact .inr (le_of_log2 h)

/-- The rounded significand is a leading one of its place, or the first one past these. -/
theorem rounded_bounds (hplace : place = (units / den).log2 - 52)
    (hs : s = divideToEven units (den * 2 ^ place)) :
    (place = 0 ∨ leadingBit ≤ s) ∧ s ≤ 2 * leadingBit := by
  have hbounds := divideToEven_bounds units (den * 2 ^ place)
  rw [← hs, ← Nat.div_div_eq_div_mul] at hbounds
  constructor
  · refine (leading_le_quotient hplace).imp_right fun h => ?_
    have hle : leadingBit ≤ units / den / 2 ^ place := by
      rwa [Nat.le_div_iff_mul_le (by positivity)]
    omega
  · have hlt : units / den / 2 ^ place < 2 * leadingBit := by
      rw [Nat.div_lt_iff_lt_mul (by positivity), hplace]
      exact lt_of_log2 _
    omega

/-- What is rounded away is no more than half a step. -/
theorem rounded_close (hden : 0 < den) (hs : s = divideToEven units (den * 2 ^ place)) :
    |(s : ℚ) * 2 ^ place - units / den| ≤ 2 ^ place / 2 ∧
      (|(s : ℚ) * 2 ^ place - units / den| = 2 ^ place / 2 → Even s) := by
  have hpos : (0 : ℚ) < den := by exact_mod_cast hden
  have hunit : (0 : ℚ) < 2 ^ place := by positivity
  have hstep : 0 < den * 2 ^ place := by positivity
  obtain ⟨hclose, heven⟩ := divideToEven_close units hstep
  rw [← hs] at hclose heven
  have hscale : |(s : ℚ) * 2 ^ place - units / den| =
      |(s : ℚ) - units / (den * 2 ^ place : ℕ)| * 2 ^ place := by
    rw [← abs_of_pos hunit, ← abs_mul, abs_of_pos hunit, sub_mul]
    push_cast
    congr 2
    field_simp
  rw [hscale]
  constructor
  · linarith [mul_le_mul_of_nonneg_right hclose hunit.le]
  · intro htie
    refine heven (mul_right_cancel₀ hunit.ne' ?_)
    linarith

/-- A quotient that is rounded at its place gives the number nearest to it. -/
theorem isNearest_of_quotient (hden : 0 < den) (hplace : place = (units / den).log2 - 52)
    (hs : s = divideToEven units (den * 2 ^ place))
    (hx : x.magnitude = min (place * leadingBit + s) (2047 * leadingBit)) :
    x.IsNearest (units / den) := by
  obtain ⟨hlow, hhigh⟩ := rounded_bounds hplace hs
  obtain ⟨hclose, heven⟩ := rounded_close hden hs
  have hleading : place = 0 ∨ ((leadingBit * 2 ^ place : ℕ) : ℚ) ≤ units / den := by
    refine (leading_le_quotient hplace).imp_right fun h => ?_
    have hpos : (0 : ℚ) < den := by exact_mod_cast hden
    rw [le_div_iff₀ hpos]
    exact_mod_cast (Nat.le_div_iff_mul_le hden).mp h
  rcases le_or_gt (place * leadingBit + s) (2047 * leadingBit) with hle | hgt
  · rw [min_eq_left hle] at hx
    exact .of_rounded hx (by rwa [hx]) hlow hhigh hleading hclose heven
  · -- even the least leading significand at this place comes to as much as infinity does
    have hpast : highestPlace ≤ place := by
      simp only [leadingBit, highestPlace] at *
      omega
    have hamount := hleading.resolve_left (by rw [highestPlace] at hpast; omega)
    have hpow : ((leadingBit * 2 ^ highestPlace : ℕ) : ℚ) ≤ (leadingBit * 2 ^ place : ℕ) :=
      Nat.cast_le.mpr (leading_le_leading hpast)
    rw [min_eq_right hgt.le] at hx
    exact .of_infinite hx (hpow.trans hamount)

end Quotient

theorem isNearest_of_nearestMagnitude {num den : ℕ} (hden : 0 < den)
    (hx : x.magnitude = nearestMagnitude num den) :
    x.IsNearest ((num * 2 ^ lowestPlace : ℕ) / den) := by
  simp only [nearestMagnitude, placeOf, Nat.pow_eq] at hx
  generalize num * 2 ^ lowestPlace = units at hx ⊢
  exact isNearest_of_quotient hden rfl rfl hx

/-! ## Decimals -/

theorem decimalLength_pos (n : ℕ) : 0 < decimalLength n :=
  List.length_pos_iff.mpr Nat.toDigits_ne_nil

theorem lt_pow_decimalLength (n : ℕ) : n < 10 ^ decimalLength n :=
  (Nat.length_toDigits_le_iff (by norm_num) (decimalLength_pos n)).mp le_rfl

theorem pow_decimalLength_le {n : ℕ} (hn : n ≠ 0) : 10 ^ (decimalLength n - 1) ≤ n := by
  by_contra hlt
  rcases Nat.eq_zero_or_pos (decimalLength n - 1) with hone | hmore
  · rw [hone] at hlt
    omega
  · have hle := (Nat.length_toDigits_le_iff (by norm_num) hmore).mpr (not_le.mp hlt)
    have hpos := decimalLength_pos n
    rw [decimalLength] at hle hmore hpos
    omega

theorem magnitude_ofMagnitude {m : ℕ} (h : m < signBit) (negative : Bool) :
    (ofMagnitude negative m).magnitude = m := by
  have hsign : signBit = 0x8000000000000000 := rfl
  rw [hsign] at h
  cases negative <;>
    simp only [magnitude, ofMagnitude, UInt64.toNat_ofNat', hsign, Bool.false_eq_true, if_false,
      if_true] <;>
    omega

theorem isNegative_ofMagnitude {m : ℕ} (h : m < signBit) (negative : Bool) :
    (ofMagnitude negative m).isNegative = negative := by
  have hsign : signBit = 0x8000000000000000 := rfl
  rw [hsign] at h
  cases negative <;>
    simp only [isNegative, ofMagnitude, UInt64.toNat_ofNat', hsign, Bool.false_eq_true, if_false,
      if_true, decide_eq_true_eq, decide_eq_false_iff_not] <;>
    omega

section Decimal

variable {digits : ℕ} {exponent : ℤ}

/-- A decimal in terms of its order of magnitude. -/
theorem decimal_lt (digits : ℕ) (exponent : ℤ) :
    (digits : ℚ) * 10 ^ exponent < 10 ^ (exponent + decimalLength digits) := by
  have hdigits : (digits : ℚ) < 10 ^ decimalLength digits := by
    exact_mod_cast lt_pow_decimalLength digits
  rw [zpow_add₀ (by norm_num), zpow_natCast, mul_comm]
  exact mul_lt_mul_of_pos_left hdigits (by positivity)

theorem le_decimal (hdigits : digits ≠ 0) (exponent : ℤ) :
    (10 : ℚ) ^ (exponent + decimalLength digits - 1) ≤ digits * 10 ^ exponent := by
  have hle : (10 : ℚ) ^ (decimalLength digits - 1) ≤ digits := by
    exact_mod_cast pow_decimalLength_le hdigits
  have hsplit : exponent + decimalLength digits - 1 =
      exponent + ((decimalLength digits - 1 : ℕ) : ℤ) := by
    have hpos := decimalLength_pos digits
    omega
  rw [hsplit, zpow_add₀ (by norm_num), zpow_natCast, mul_comm]
  exact mul_le_mul_of_nonneg_right hle (by positivity)

/-- So small an order of magnitude leaves less than half the lowest unit. -/
theorem decimal_lt_half (h : exponent + decimalLength digits < vanishingOrder) :
    (digits : ℚ) * 10 ^ exponent * 2 ^ lowestPlace < 1 / 2 := by
  have hunit : (2 : ℚ) ^ lowestPlace * 2 < 10 ^ 331 := by
    have hnat : 2 ^ lowestPlace * 2 < 10 ^ 331 := by decide +kernel
    exact_mod_cast hnat
  have horder : (10 : ℚ) ^ (exponent + decimalLength digits) ≤ 10 ^ (-331 : ℤ) := by
    refine zpow_le_zpow_right₀ (by norm_num) ?_
    rw [vanishingOrder] at h
    omega
  have hsmall := (decimal_lt digits exponent).trans_le horder
  rw [zpow_neg, zpow_ofNat] at hsmall
  calc (digits : ℚ) * 10 ^ exponent * 2 ^ lowestPlace < (10 ^ 331)⁻¹ * 2 ^ lowestPlace :=
        mul_lt_mul_of_pos_right hsmall (by positivity)
    _ < 1 / 2 := by
      rw [inv_mul_lt_iff₀ (by positivity), mul_one_div, lt_div_iff₀ two_pos]
      exact hunit

/-- So large an order of magnitude is past what infinity stands for. -/
theorem infinite_le_decimal (hdigits : digits ≠ 0)
    (h : infiniteOrder < exponent + decimalLength digits) :
    ((leadingBit * 2 ^ highestPlace : ℕ) : ℚ) ≤ digits * 10 ^ exponent * 2 ^ lowestPlace := by
  have hunit : ((leadingBit * 2 ^ highestPlace : ℕ) : ℚ) ≤ 10 ^ 310 * 2 ^ lowestPlace := by
    have hnat : leadingBit * 2 ^ highestPlace ≤ 10 ^ 310 * 2 ^ lowestPlace := by decide +kernel
    exact_mod_cast hnat
  have horder : (10 : ℚ) ^ (310 : ℤ) ≤ 10 ^ (exponent + decimalLength digits - 1) := by
    refine zpow_le_zpow_right₀ (by norm_num) ?_
    rw [infiniteOrder] at h
    omega
  have hlarge := horder.trans (le_decimal hdigits exponent)
  rw [zpow_ofNat] at hlarge
  exact hunit.trans (mul_le_mul_of_nonneg_right hlarge (by positivity))

/-- A decimal as the quotient that is rounded. -/
theorem quotient_eq_decimal (digits : ℕ) (exponent : ℤ) :
    ((digits * 10 ^ exponent.toNat * 2 ^ lowestPlace : ℕ) : ℚ) / (10 ^ (-exponent).toNat : ℕ) =
      digits * 10 ^ exponent * 2 ^ lowestPlace := by
  rcases Int.le_total 0 exponent with hsign | hsign
  · obtain ⟨n, rfl⟩ := Int.eq_ofNat_of_zero_le hsign
    have hzero : (-(n : ℤ)).toNat = 0 := by omega
    rw [hzero, Int.toNat_natCast, zpow_natCast]
    push_cast
    rw [div_one]
  · obtain ⟨n, hn⟩ := Int.eq_ofNat_of_zero_le (Int.neg_nonneg_of_nonpos hsign)
    have hzero : exponent.toNat = 0 := by omega
    have hexponent : exponent = -(n : ℤ) := by omega
    rw [hzero, hn, Int.toNat_natCast, hexponent, zpow_neg, zpow_natCast]
    push_cast
    rw [mul_one, div_eq_mul_inv]
    ring

end Decimal

/-- What is read for a decimal has its sign and is nearest to it. -/
theorem isNearest_ofDecimal (negative : Bool) (digits : ℕ) (exponent : ℤ) :
    (ofDecimal negative digits exponent).isNegative = negative ∧
      (ofDecimal negative digits exponent).IsNearest
        (digits * 10 ^ exponent * 2 ^ lowestPlace) := by
  have hmost : 2047 * leadingBit < signBit := by decide
  rw [ofDecimal]
  simp only [Bool.or_eq_true, decide_eq_true_eq]
  split_ifs with hlow hhigh
  · -- the number is zero, or too small an amount to be anything else
    have hmagnitude := magnitude_ofMagnitude (m := 0) (by decide) negative
    refine ⟨isNegative_ofMagnitude (by decide) negative, ?_⟩
    refine .of_vanishing hmagnitude (by positivity) ?_
    rcases hlow with rfl | hlow
    · norm_num
    · exact decimal_lt_half hlow
  · have hdigits : digits ≠ 0 := fun h => hlow (.inl h)
    exact ⟨isNegative_ofMagnitude hmost negative,
      .of_infinite (magnitude_ofMagnitude hmost negative) (infinite_le_decimal hdigits hhigh)⟩
  · have hlt : nearestMagnitude (digits * Nat.pow 10 exponent.toNat)
        (Nat.pow 10 (-exponent).toNat) < signBit := (Nat.min_le_right _ _).trans_lt hmost
    refine ⟨isNegative_ofMagnitude hlt negative, ?_⟩
    rw [← quotient_eq_decimal]
    exact isNearest_of_nearestMagnitude (Nat.pow_pos (by norm_num))
      (magnitude_ofMagnitude hlt negative)

end HostCall.Binary64
