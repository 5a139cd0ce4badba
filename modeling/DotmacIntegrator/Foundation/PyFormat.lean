import DotmacIntegrator.Foundation.GeneralFormat
import DotmacIntegrator.Foundation.Json

/-!
# `format(value, "g")`

An integer is first made a float: rounded to 53 binary digits, and refused with `OverflowError`
from `2 ^ 1024` on.

## Main definitions

* `PyFormat.floatOfInt`: `float(n)`
* `PyFormat.int`, `PyFormat.float`: the general format with six digits

## Main results

* `readDecimal_int_eq_iff`, `readDecimal_float_eq_iff`: the text writes the number iff that has
  six significant digits
-/

namespace PyFormat

open GeneralFormat SignificantDigits

/-- The digits `g` writes when no precision is given. -/
def precision : ℕ := 6

/-- `float(n)`, or an overflow. -/
def floatOfInt (n : ℤ) : Option ℚ :=
  if n = 0 then some 0
  else if (2 : ℚ) ^ 1024 ≤ roundDigits 2 53 |(n : ℚ)| then none
  else some (if n < 0 then -roundDigits 2 53 |(n : ℚ)| else roundDigits 2 53 |(n : ℚ)|)

/-- `format(x, "g")`. -/
def float : PyFloat → List Char
  | .finite q => general precision q
  | .negZero => ['-', '0']
  | .posInf => ['i', 'n', 'f']
  | .negInf => ['-', 'i', 'n', 'f']
  | .nan => ['n', 'a', 'n']

/-- `format(n, "g")`, or an overflow. -/
def int (n : ℤ) : Option (List Char) := (floatOfInt n).map (general precision)

/-- A power of two is not rounded. -/
theorem roundDigits_two_pow (k : ℕ) : roundDigits 2 53 ((2 : ℚ) ^ k) = 2 ^ k := by
  have hdigits : HasDigits 2 53 ((2 : ℚ) ^ k) := ⟨1, k, by decide, by simp⟩
  exact (roundDigits_eq_self_iff (by decide) (by decide) (by positivity)).mpr hdigits

/-- An integer from `2 ^ 1024` on is refused. -/
theorem floatOfInt_eq_none {n : ℤ} (h : 2 ^ 1024 ≤ |(n : ℚ)|) : floatOfInt n = none := by
  have hzero : n ≠ 0 := by
    rintro rfl
    rw [Int.cast_zero, abs_zero] at h
    exact absurd h (not_le.mpr (by positivity))
  rw [floatOfInt, if_neg hzero, if_pos]
  calc (2 : ℚ) ^ 1024 = roundDigits 2 53 (2 ^ 1024) := (roundDigits_two_pow 1024).symm
    _ ≤ roundDigits 2 53 |(n : ℚ)| := roundDigits_mono (by decide) (by decide) (by positivity) h

/-- An integer up to `2 ^ 1023` is made a float. -/
theorem floatOfInt_ne_none {n : ℤ} (h : |(n : ℚ)| ≤ 2 ^ 1023) : floatOfInt n ≠ none := by
  by_cases hzero : n = 0
  · rw [floatOfInt, if_pos hzero]
    exact Option.some_ne_none 0
  · have hpos : 0 < |(n : ℚ)| := abs_pos.mpr (by exact_mod_cast hzero)
    have hround : roundDigits 2 53 |(n : ℚ)| < 2 ^ 1024 :=
      calc roundDigits 2 53 |(n : ℚ)|
        _ ≤ roundDigits 2 53 (2 ^ 1023) := roundDigits_mono (by decide) (by decide) hpos h
        _ = 2 ^ 1023 := roundDigits_two_pow 1023
        _ < 2 ^ 1024 := pow_lt_pow_right₀ (by norm_num) (by decide)
    rw [floatOfInt, if_neg hzero, if_neg (not_le.mpr hround)]
    exact Option.some_ne_none _

/-- An integer that is made a float is rounded to one. -/
theorem floatOfInt_eq_some {n : ℤ} {q : ℚ} (h : floatOfInt n = some q) :
    q = roundSigned 2 53 (n : ℚ) := by
  unfold floatOfInt at h
  split_ifs at h with hzero _ hneg
  · obtain rfl := Option.some.inj h
    rw [hzero, Int.cast_zero, roundSigned_zero]
  · have hn : (n : ℚ) < 0 := by exact_mod_cast hneg
    rw [roundSigned_of_neg hn, ← abs_of_neg hn]
    exact (Option.some.inj h).symm
  · have hn : 0 < (n : ℚ) := by exact_mod_cast lt_of_le_of_ne (not_lt.mp hneg) (Ne.symm hzero)
    rw [roundSigned_of_pos hn]
    exact (Option.some.inj h).symm.trans (by rw [abs_of_pos hn])

/-- The number that the text of a float writes: the float, rounded to six significant digits. -/
theorem readDecimal_float (x : PyFloat) :
    readDecimal (float x) = x.value?.map (roundSigned 10 precision) := by
  cases x with
  | finite q => exact readDecimal_general_signed (by decide)
  | negZero => exact (by decide +kernel : readDecimal ['-', '0'] = some 0).trans (by
      rw [PyFloat.value?, Option.map_some, roundSigned_zero])
  | posInf | negInf | nan => decide +kernel

/-- The number that the text of an integer writes. -/
theorem readDecimal_int {n : ℤ} {cs : List Char} (h : int n = some cs) :
    readDecimal cs = some (roundSigned 10 precision (roundSigned 2 53 (n : ℚ))) := by
  obtain ⟨q, hq, rfl⟩ := Option.map_eq_some_iff.mp h
  rw [readDecimal_general_signed (by decide), floatOfInt_eq_some hq]

/-- The text of a float writes the number it is iff that has six significant digits. -/
theorem readDecimal_float_eq_iff {x : PyFloat} {q : ℚ} (h : x.value? = some q) :
    readDecimal (float x) = some q ↔ HasDigits 10 precision |q| := by
  cases x with
  | finite q' =>
    obtain rfl : q' = q := by simpa [PyFloat.value?] using h
    exact readDecimal_general_eq_iff (by decide)
  | negZero =>
    obtain rfl : (0 : ℚ) = q := by simpa [PyFloat.value?] using h
    exact iff_of_true (by decide +kernel) ⟨0, 0, by decide, by simp⟩
  | posInf | negInf | nan => simp [PyFloat.value?] at h

theorem roundDigits_float_eq_iff {x : ℚ} (hx : 0 < x) :
    roundDigits 10 precision (roundDigits 2 53 x) = x ↔ HasDigits 10 precision x := by
  have hpos : 0 < roundDigits 2 53 x := roundDigits_pos (by decide) (by decide) hx
  -- A float of 53 binary digits is finer than six decimal ones.
  constructor
  · intro h
    exact h ▸ roundDigits_hasDigits (by decide) (by decide) hpos
  · exact roundDigits_roundDigits (by decide) (by decide) hx (by decide) (by decide) (by decide)

/-- **The text of an integer writes it iff it has six significant digits**: the rounding to binary
digits in between changes nothing. -/
theorem readDecimal_int_eq_iff {n : ℤ} {cs : List Char} (h : int n = some cs) :
    readDecimal cs = some (n : ℚ) ↔ HasDigits 10 precision |(n : ℚ)| := by
  obtain ⟨q, hq, rfl⟩ := Option.map_eq_some_iff.mp h
  unfold floatOfInt at hq
  -- Zero, a negative number and a positive one; an overflow writes nothing.
  split_ifs at hq with hzero _ hneg
  · obtain rfl := Option.some.inj hq
    subst hzero
    exact iff_of_true (by decide +kernel) ⟨0, 0, by decide, by simp⟩
  · obtain rfl := Option.some.inj hq
    have hn : (n : ℚ) < 0 := by exact_mod_cast hneg
    have hy : 0 < roundDigits 2 53 |(n : ℚ)| :=
      roundDigits_pos (by decide) (by decide) (abs_pos.mpr hn.ne)
    rw [readDecimal_general (by decide) (neg_ne_zero.mpr hy.ne'), if_pos (by linarith), neg_neg,
      ← roundDigits_float_eq_iff (abs_pos.mpr hn.ne), Option.some.injEq, abs_of_neg hn]
    exact neg_eq_iff_eq_neg
  · obtain rfl := Option.some.inj hq
    have hn : 0 < (n : ℚ) := by exact_mod_cast lt_of_le_of_ne (not_lt.mp hneg) (Ne.symm hzero)
    have hy : 0 < roundDigits 2 53 |(n : ℚ)| :=
      roundDigits_pos (by decide) (by decide) (abs_pos.mpr hn.ne')
    rw [readDecimal_general (by decide) hy.ne', if_neg (by linarith),
      ← roundDigits_float_eq_iff (abs_pos.mpr hn.ne'), Option.some.injEq, abs_of_pos hn]

end PyFormat
