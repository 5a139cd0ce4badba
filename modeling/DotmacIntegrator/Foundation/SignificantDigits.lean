import Mathlib.Algebra.Order.Round
import Mathlib.Data.Int.Log
import Mathlib.Tactic.FieldSimp
import Mathlib.Tactic.GCongr
import Mathlib.Tactic.Linarith
import Mathlib.Tactic.Positivity
import Mathlib.Tactic.Ring

/-!
# Rounding to significant digits

A positive number has `p` significant digits in base `b` when it is a natural number below `b ^ p`
times a power of `b`. Rounding to `p` digits takes the nearest such number, and of two the one
whose last digit is even.

## Main definitions

* `roundHalfEven`: the nearest integer, of two the even one
* `HasDigits`: the numbers of at most `p` significant digits
* `significand`, `roundDigits`: the digits of the rounded number, and the number itself
* `roundSigned`: the rounded number, of either sign

## Main results

* `roundDigits_eq_self_iff`: exactly the numbers of `p` digits are left as they are
* `roundDigits_mono`, `roundSigned_mono`: rounding keeps the order
* `roundDigits_eq_of_near`: a number of `p` digits is recovered from one close to it
* `roundDigits_roundDigits`: a finer rounding in another base in between makes no difference to it
-/

namespace SignificantDigits

variable {K : Type*} [Field K] [LinearOrder K] [FloorRing K]

/-- The nearest integer, and of two the even one. -/
def roundHalfEven (x : K) : ℤ :=
  if x - ⌊x⌋ < 1 / 2 then ⌊x⌋
  else if 1 / 2 < x - ⌊x⌋ then ⌊x⌋ + 1
  else if Even ⌊x⌋ then ⌊x⌋ else ⌊x⌋ + 1

/-- At most `p` significant digits in base `b`. -/
def HasDigits (b p : ℕ) (x : K) : Prop := ∃ (m : ℕ) (k : ℤ), m < b ^ p ∧ x = m * (b : K) ^ k

/-- The exponent of the last of `p` digits. -/
def lastExponent (b p : ℕ) (x : K) : ℤ := Int.log b x - (p - 1)

/-- The `p` digits a positive number is rounded to; `b ^ p` where the rounding carries. -/
def significand (b p : ℕ) (x : K) : ℤ := roundHalfEven (x / (b : K) ^ lastExponent b p x)

/-- A positive number rounded to `p` digits. -/
def roundDigits (b p : ℕ) (x : K) : K := significand b p x * (b : K) ^ lastExponent b p x

/-- A number of either sign rounded to `p` digits. -/
def roundSigned (b p : ℕ) (x : K) : K :=
  if 0 < x then roundDigits b p x else if x < 0 then -roundDigits b p (-x) else 0

theorem roundSigned_of_pos {b p : ℕ} {x : K} (hx : 0 < x) :
    roundSigned b p x = roundDigits b p x := by
  rw [roundSigned, if_pos hx]

theorem roundSigned_of_neg {b p : ℕ} {x : K} (hx : x < 0) :
    roundSigned b p x = -roundDigits b p (-x) := by
  rw [roundSigned, if_neg hx.not_gt, if_pos hx]

@[simp] theorem roundSigned_zero {b p : ℕ} : roundSigned b p (0 : K) = 0 := by
  rw [roundSigned, if_neg (lt_irrefl 0), if_neg (lt_irrefl 0)]

/-! ### Rounding to an integer -/

variable [IsStrictOrderedRing K]

theorem abs_sub_roundHalfEven_le (x : K) : |x - roundHalfEven x| ≤ 1 / 2 := by
  have hlo := Int.floor_le x
  have hhi := Int.lt_floor_add_one x
  unfold roundHalfEven
  split_ifs with h₁ h₂ h₃
  · -- below the half: the floor
    rw [abs_of_nonneg (by linarith)]
    exact h₁.le
  · -- above the half: the integer above
    push_cast
    rw [abs_of_nonpos (by linarith)]
    linarith
  · -- on the half: either of the two
    rw [abs_of_nonneg (by linarith)]
    exact not_lt.mp h₂
  · push_cast
    rw [abs_of_nonpos (by linarith)]
    linarith

/-- The nearest integer, where it is strictly nearest. -/
theorem roundHalfEven_eq_of_near {x : K} {n : ℤ} (h : |x - n| < 1 / 2) : roundHalfEven x = n := by
  have hr := abs_sub_roundHalfEven_le x
  have hlt : |(roundHalfEven x : K) - n| < 1 := by
    calc |(roundHalfEven x : K) - n| = |(x - n) - (x - roundHalfEven x)| := by ring_nf
      _ ≤ |x - n| + |x - roundHalfEven x| := abs_sub _ _
      _ < 1 := by linarith
  rw [← Int.cast_sub, ← Int.cast_abs] at hlt
  have habs : |roundHalfEven x - n| < 1 := by exact_mod_cast hlt
  exact sub_eq_zero.mp (Int.abs_lt_one_iff.mp habs)

@[simp] theorem roundHalfEven_intCast (n : ℤ) : roundHalfEven (n : K) = n :=
  roundHalfEven_eq_of_near (by simp)

/-- Rounding stays between integers. -/
theorem roundHalfEven_mem_Icc {x : K} {l u : ℤ} (hl : (l : K) ≤ x) (hu : x ≤ u) :
    l ≤ roundHalfEven x ∧ roundHalfEven x ≤ u := by
  have hfloor : l ≤ ⌊x⌋ := Int.le_floor.mpr hl
  have hlo := Int.floor_le x
  have hhi := Int.lt_floor_add_one x
  constructor
  · unfold roundHalfEven
    split_ifs <;> omega
  · rcases eq_or_lt_of_le hu with rfl | hlt
    · simp
    · have hfloor' : ⌊x⌋ < u := Int.floor_lt.mpr hlt
      unfold roundHalfEven
      split_ifs <;> omega

/-- Rounding keeps the order. -/
theorem roundHalfEven_mono {x y : K} (h : x ≤ y) : roundHalfEven x ≤ roundHalfEven y := by
  rcases (Int.floor_le_floor h).lt_or_eq with hlt | heq
  · -- An integer lies between the two.
    have hx := roundHalfEven_mem_Icc (Int.floor_le x) (u := ⌊x⌋ + 1)
      (by push_cast; exact (Int.lt_floor_add_one x).le)
    have hy := roundHalfEven_mem_Icc (Int.floor_le y) (u := ⌊y⌋ + 1)
      (by push_cast; exact (Int.lt_floor_add_one y).le)
    omega
  · unfold roundHalfEven
    rw [← heq]
    split_ifs <;> first | omega | linarith

/-! ### Rounding to digits -/

variable {b p : ℕ} {x y : K}

theorem base_pos (hb : 1 < b) : (0 : K) < b := by exact_mod_cast (by omega : 0 < b)

theorem base_zpow_pos (hb : 1 < b) (k : ℤ) : (0 : K) < (b : K) ^ k := zpow_pos (base_pos hb) k

/-- Scaled to its last digit, a number lies in one decade. -/
theorem scaled_mem (hb : 1 < b) (hp : 0 < p) (hx : 0 < x) :
    (b : K) ^ (p - 1) ≤ x / (b : K) ^ lastExponent b p x ∧
      x / (b : K) ^ lastExponent b p x < (b : K) ^ p := by
  have hb0 : (b : K) ≠ 0 := (base_pos hb).ne'
  rw [le_div_iff₀ (base_zpow_pos hb _), div_lt_iff₀ (base_zpow_pos hb _), ← zpow_natCast,
    ← zpow_natCast, ← zpow_add₀ hb0, ← zpow_add₀ hb0]
  have hlo := Int.zpow_log_le_self hb hx
  have hhi := Int.lt_zpow_succ_log_self hb x
  -- Scaling moves the leading digit to the power `p - 1`.
  have e₁ : ((p - 1 : ℕ) : ℤ) + lastExponent b p x = Int.log b x := by
    unfold lastExponent
    omega
  have e₂ : (p : ℤ) + lastExponent b p x = Int.log b x + 1 := by
    unfold lastExponent
    omega
  rw [e₁, e₂]
  exact ⟨hlo, hhi⟩

theorem significand_mem (hb : 1 < b) (hp : 0 < p) (hx : 0 < x) :
    (b : ℤ) ^ (p - 1) ≤ significand b p x ∧ significand b p x ≤ (b : ℤ) ^ p := by
  obtain ⟨hlo, hhi⟩ := scaled_mem hb hp hx
  exact roundHalfEven_mem_Icc (by exact_mod_cast hlo) (by exact_mod_cast hhi.le)

theorem roundDigits_pos (hb : 1 < b) (hp : 0 < p) (hx : 0 < x) : 0 < roundDigits b p x := by
  have hpow : (0 : ℤ) < (b : ℤ) ^ (p - 1) := pow_pos (by exact_mod_cast (by omega : 0 < b)) _
  have hs : 0 < significand b p x := hpow.trans_le (significand_mem hb hp hx).1
  exact mul_pos (by exact_mod_cast hs) (base_zpow_pos hb _)

/-- Rounding to digits keeps the order of positive numbers. -/
theorem roundDigits_mono (hb : 1 < b) (hp : 0 < p) (hx : 0 < x) (h : x ≤ y) :
    roundDigits b p x ≤ roundDigits b p y := by
  have hb0 : (b : K) ≠ 0 := (base_pos hb).ne'
  rcases (Int.log_mono_right hx h : Int.log b x ≤ Int.log b y).lt_or_eq with hlt | heq
  · -- The power of the base that the rounding of the first may carry to lies between the two.
    calc roundDigits b p x
        ≤ (b : K) ^ p * (b : K) ^ lastExponent b p x := by
          refine mul_le_mul_of_nonneg_right ?_ (base_zpow_pos hb _).le
          exact_mod_cast (significand_mem hb hp hx).2
      _ = (b : K) ^ (Int.log b x + 1) := by
          rw [← zpow_natCast, ← zpow_add₀ hb0]
          congr 1
          unfold lastExponent
          omega
      _ ≤ (b : K) ^ (Int.log b y) := by
          refine zpow_le_zpow_right₀ ?_ (by omega)
          exact_mod_cast hb.le
      _ = (b : K) ^ (p - 1) * (b : K) ^ lastExponent b p y := by
          rw [← zpow_natCast, ← zpow_add₀ hb0]
          congr 1
          unfold lastExponent
          omega
      _ ≤ roundDigits b p y := by
          refine mul_le_mul_of_nonneg_right ?_ (base_zpow_pos hb _).le
          exact_mod_cast (significand_mem hb hp (hx.trans_le h)).1
  · have hexp : lastExponent b p x = lastExponent b p y := by rw [lastExponent, heq, lastExponent]
    rw [roundDigits, roundDigits, significand, significand, hexp]
    refine mul_le_mul_of_nonneg_right ?_ (base_zpow_pos hb _).le
    have hscaled : x / (b : K) ^ lastExponent b p y ≤ y / (b : K) ^ lastExponent b p y :=
      div_le_div_of_nonneg_right h (base_zpow_pos hb _).le
    exact_mod_cast roundHalfEven_mono hscaled

/-- A rounded number has `p` digits, also where the rounding carries. -/
theorem roundDigits_hasDigits (hb : 1 < b) (hp : 0 < p) (hx : 0 < x) :
    HasDigits b p (roundDigits b p x) := by
  obtain ⟨hlo, hhi⟩ := significand_mem hb hp hx
  have hnonneg : 0 ≤ significand b p x := le_trans (by positivity) hlo
  rcases eq_or_lt_of_le hhi with heq | hlt
  · -- The rounding carries to the next power of the base.
    refine ⟨1, p + lastExponent b p x, one_lt_pow₀ hb (by omega), ?_⟩
    rw [roundDigits, heq, zpow_add₀ (base_pos hb).ne']
    push_cast
    rw [one_mul, zpow_natCast]
  · refine ⟨(significand b p x).toNat, lastExponent b p x, ?_, ?_⟩
    · have := Int.toNat_of_nonneg hnonneg
      exact_mod_cast this ▸ hlt
    · have hcast : ((significand b p x).toNat : K) = (significand b p x : K) := by
        exact_mod_cast congrArg (Int.cast (R := K)) (Int.toNat_of_nonneg hnonneg)
      rw [roundDigits, hcast]

theorem abs_sub_roundDigits_le (hb : 1 < b) :
    |x - roundDigits b p x| ≤ (b : K) ^ lastExponent b p x / 2 := by
  have hpos := base_zpow_pos (K := K) hb (lastExponent b p x)
  have hx : x = x / (b : K) ^ lastExponent b p x * (b : K) ^ lastExponent b p x := by
    field_simp
  -- The error is that of the scaled number, scaled back.
  have hr := abs_sub_roundHalfEven_le (x / (b : K) ^ lastExponent b p x)
  calc |x - roundDigits b p x|
      = |x / (b : K) ^ lastExponent b p x - significand b p x| *
          (b : K) ^ lastExponent b p x := by
        rw [roundDigits]
        nth_rewrite 1 [hx]
        rw [← sub_mul, abs_mul, abs_of_pos hpos]
    _ ≤ 1 / 2 * (b : K) ^ lastExponent b p x := by
        gcongr
        exact hr
    _ = (b : K) ^ lastExponent b p x / 2 := by ring

/-- A number of `p` digits is a whole number of its last digits. -/
theorem HasDigits.exists_scaled (hb : 1 < b) (hx : 0 < x) (hd : HasDigits b p x) :
    ∃ n : ℤ, x = n * (b : K) ^ lastExponent b p x := by
  obtain ⟨m, k, hm, rfl⟩ := hd
  have hb0 : (b : K) ≠ 0 := (base_pos hb).ne'
  -- The last digit lies no higher than `k`, the power the witness is a multiple of.
  have hlt : (m : K) * (b : K) ^ k < (b : K) ^ (p + k : ℤ) := by
    rw [zpow_add₀ hb0, zpow_natCast]
    exact mul_lt_mul_of_pos_right (by exact_mod_cast hm) (base_zpow_pos hb _)
  have hlog : Int.log b ((m : K) * (b : K) ^ k) < p + k := (Int.lt_zpow_iff_log_lt hb hx).mp hlt
  have hle : lastExponent b p ((m : K) * (b : K) ^ k) ≤ k := by
    unfold lastExponent
    omega
  obtain ⟨j, hj⟩ := Int.le.dest hle
  refine ⟨m * (b : ℤ) ^ j, ?_⟩
  nth_rewrite 1 [← hj]
  rw [add_comm, zpow_add₀ hb0, zpow_natCast]
  push_cast
  ring

theorem log_eq_of_mem (hb : 1 < b) (hy : 0 < y) {l : ℤ} (hlo : (b : K) ^ l ≤ y)
    (hhi : y < (b : K) ^ (l + 1)) : Int.log b y = l := by
  have h₁ := (Int.zpow_le_iff_le_log hb hy).mp hlo
  have h₂ := (Int.lt_zpow_iff_log_lt hb hy).mp hhi
  omega

/-- The rounding of a number is the multiple of its last digit closest to it. -/
theorem roundDigits_eq_of_scaled (hb : 1 < b) {n : ℤ}
    (hn : x = n * (b : K) ^ lastExponent b p y)
    (hnear : |y - x| < (b : K) ^ lastExponent b p y / 2) : roundDigits b p y = x := by
  have hpos := base_zpow_pos (K := K) hb (lastExponent b p y)
  -- Scaled, `y` is closer than one half to the integer `n`.
  have hscaled : |y / (b : K) ^ lastExponent b p y - n| < 1 / 2 := by
    have e : y / (b : K) ^ lastExponent b p y - n = (y - x) / (b : K) ^ lastExponent b p y := by
      rw [hn]
      field_simp
    rw [e, abs_div, abs_of_pos hpos, div_lt_iff₀ hpos]
    linarith
  rw [roundDigits, significand, roundHalfEven_eq_of_near hscaled, hn]

/-- **A number of `p` digits is recovered from one close to it**: closer than half a digit one
place further down, since the close number may lie below a power of the base. -/
theorem roundDigits_eq_of_near (hb : 1 < b) (hp : 0 < p) (hx : 0 < x) (hd : HasDigits b p x)
    (hnear : |y - x| < (b : K) ^ (lastExponent b p x - 1) / 2) : roundDigits b p y = x := by
  -- `x` is a multiple of its last digit; `y` lies in the decade of `x`, or in the one below it.
  obtain ⟨n, hn⟩ := hd.exists_scaled hb hx
  have hb0 : (b : K) ≠ 0 := (base_pos hb).ne'
  have hb2 : (2 : K) ≤ b := by exact_mod_cast hb
  have hpos := base_zpow_pos (K := K) hb (lastExponent b p x - 1)
  have hbelow : (b : K) * (b : K) ^ (lastExponent b p x - 1) = (b : K) ^ lastExponent b p x := by
    rw [← zpow_one_add₀ hb0]
    congr 1
    omega
  have hstep : (b : K) ^ (lastExponent b p x - 1) ≤ (b : K) ^ (Int.log b x - 1) :=
    zpow_le_zpow_right₀ (by linarith) (by unfold lastExponent; omega)
  have hdecade : (b : K) * (b : K) ^ (Int.log b x - 1) = (b : K) ^ Int.log b x := by
    rw [← zpow_one_add₀ hb0]
    congr 1
    omega
  have hlog := Int.zpow_log_le_self hb hx
  obtain ⟨hlo, hhi⟩ := abs_lt.mp hnear
  -- `y` does not fall below the decade under that of `x` ...
  have hlower : (b : K) ^ (Int.log b x - 1) ≤ y := by nlinarith
  have hy : 0 < y := (base_zpow_pos hb _).trans_le hlower
  -- ... nor rise above that of `x`, since `n + 1` is still at most `b ^ p`.
  have hupper : y < (b : K) ^ (Int.log b x + 1) := by
    have hscaled : (n : K) < (b : K) ^ p := by
      have h := (scaled_mem hb hp hx).2
      nth_rewrite 1 [hn] at h
      rwa [mul_div_cancel_right₀ _ (base_zpow_pos hb _).ne'] at h
    have hnp : (n : K) + 1 ≤ (b : K) ^ p := by
      have h : n < (b : ℤ) ^ p := by exact_mod_cast hscaled
      exact_mod_cast Int.add_one_le_of_lt h
    have htop : (b : K) ^ p * (b : K) ^ lastExponent b p x = (b : K) ^ (Int.log b x + 1) := by
      rw [← zpow_natCast, ← zpow_add₀ hb0]
      congr 1
      unfold lastExponent
      omega
    have hmul := mul_le_mul_of_nonneg_right hnp (base_zpow_pos (K := K) hb (lastExponent b p x)).le
    rw [add_mul, ← hn, one_mul, htop] at hmul
    nlinarith
  by_cases hcase : (b : K) ^ Int.log b x ≤ y
  · -- In the decade of `x` both have the same last digit.
    have hlast : lastExponent b p y = lastExponent b p x := by
      rw [lastExponent, log_eq_of_mem hb hy hcase hupper, lastExponent]
    refine roundDigits_eq_of_scaled hb (hlast ▸ hn) ?_
    rw [hlast]
    nlinarith
  · -- One decade below, `x` is `n * b` of the last digits of `y`.
    have hlast : lastExponent b p y = lastExponent b p x - 1 := by
      rw [lastExponent, log_eq_of_mem hb hy hlower (by simpa using hcase), lastExponent]
      omega
    refine roundDigits_eq_of_scaled (n := n * b) hb ?_ (hlast ▸ hnear)
    rw [hlast]
    push_cast
    rw [mul_assoc, hbelow]
    exact hn

/-- **Rounding leaves exactly the numbers of `p` digits as they are.** -/
theorem roundDigits_eq_self_iff (hb : 1 < b) (hp : 0 < p) (hx : 0 < x) :
    roundDigits b p x = x ↔ HasDigits b p x := by
  constructor
  · intro h
    exact h ▸ roundDigits_hasDigits hb hp hx
  · intro hd
    refine roundDigits_eq_of_near hb hp hx hd ?_
    rw [sub_self, abs_zero]
    exact half_pos (base_zpow_pos hb _)

/-- **Rounding a number of `p` digits in another base first loses nothing**, where that base has
digits enough. -/
theorem roundDigits_roundDigits (hb : 1 < b) (hp : 0 < p) (hx : 0 < x) {c q : ℕ} (hc : 1 < c)
    (hq : 0 < q) (hfine : b ^ (p + 1) ≤ c ^ (q - 1)) (hd : HasDigits b p x) :
    roundDigits b p (roundDigits c q x) = x := by
  refine roundDigits_eq_of_near hb hp hx hd ?_
  have hb0 : (b : K) ≠ 0 := (base_pos hb).ne'
  have hc0 : (c : K) ≠ 0 := (base_pos hc).ne'
  have hround := abs_sub_roundDigits_le (p := q) (x := x) hc
  rw [abs_sub_comm] at hround
  -- Half a digit of the finer rounding is less than half a digit one place below those of `x`.
  refine hround.trans_lt (div_lt_div_of_pos_right ?_ two_pos)
  -- Both digits are compared with `x`, the one from below and the other from above.
  have hlogc : (c : K) ^ (q - 1) * (c : K) ^ lastExponent c q x ≤ x := by
    have h : ((q - 1 : ℕ) : ℤ) + lastExponent c q x = Int.log c x := by
      unfold lastExponent
      omega
    rw [← zpow_natCast, ← zpow_add₀ hc0, h]
    exact Int.zpow_log_le_self hc hx
  have hlogb : x < (b : K) ^ (p + 1) * (b : K) ^ (lastExponent b p x - 1) := by
    have h : ((p + 1 : ℕ) : ℤ) + (lastExponent b p x - 1) = Int.log b x + 1 := by
      unfold lastExponent
      push_cast
      ring
    rw [← zpow_natCast, ← zpow_add₀ hb0, h]
    exact Int.lt_zpow_succ_log_self hb x
  have hfine' : (b : K) ^ (p + 1) ≤ (c : K) ^ (q - 1) := by exact_mod_cast hfine
  have hpow : (0 : K) < (c : K) ^ (q - 1) := pow_pos (base_pos hc) _
  have hlast := base_zpow_pos (K := K) hb (lastExponent b p x - 1)
  refine lt_of_mul_lt_mul_left ?_ hpow.le
  calc (c : K) ^ (q - 1) * (c : K) ^ lastExponent c q x ≤ x := hlogc
    _ < (b : K) ^ (p + 1) * (b : K) ^ (lastExponent b p x - 1) := hlogb
    _ ≤ (c : K) ^ (q - 1) * (b : K) ^ (lastExponent b p x - 1) := by gcongr

/-! ### Either sign -/

theorem roundSigned_nonneg (hb : 1 < b) (hp : 0 < p) (hx : 0 ≤ x) : 0 ≤ roundSigned b p x := by
  rcases hx.eq_or_lt with rfl | hx
  · exact roundSigned_zero.ge
  · exact roundSigned_of_pos hx ▸ (roundDigits_pos hb hp hx).le

/-- Rounding leaves what was rounded. -/
theorem roundSigned_roundSigned (hb : 1 < b) (hp : 0 < p) (x : K) :
    roundSigned b p (roundSigned b p x) = roundSigned b p x := by
  have hround : ∀ y : K, 0 < y → roundDigits b p (roundDigits b p y) = roundDigits b p y :=
    fun y hy => (roundDigits_eq_self_iff hb hp (roundDigits_pos hb hp hy)).mpr
      (roundDigits_hasDigits hb hp hy)
  rcases lt_trichotomy x 0 with hx | rfl | hx
  · have hpos : 0 < roundDigits b p (-x) := roundDigits_pos hb hp (neg_pos.mpr hx)
    rw [roundSigned_of_neg hx, roundSigned_of_neg (neg_neg_of_pos hpos), neg_neg,
      hround _ (neg_pos.mpr hx)]
  · rw [roundSigned_zero, roundSigned_zero]
  · rw [roundSigned_of_pos hx, roundSigned_of_pos (roundDigits_pos hb hp hx), hround x hx]

/-- Rounding keeps the order of numbers of either sign. -/
theorem roundSigned_mono (hb : 1 < b) (hp : 0 < p) (h : x ≤ y) :
    roundSigned b p x ≤ roundSigned b p y := by
  rcases lt_trichotomy x 0 with hx | rfl | hx
  · have hneg : -roundDigits b p (-x) < 0 := neg_neg_of_pos (roundDigits_pos hb hp (neg_pos.mpr hx))
    rw [roundSigned, if_neg hx.not_gt, if_pos hx, roundSigned]
    split_ifs with hy hy'
    · exact hneg.le.trans (roundDigits_pos hb hp hy).le
    · exact neg_le_neg (roundDigits_mono hb hp (neg_pos.mpr hy') (neg_le_neg h))
    · exact hneg.le
  · rw [roundSigned, if_neg (lt_irrefl 0), if_neg (lt_irrefl 0), roundSigned]
    split_ifs with hy hy'
    · exact (roundDigits_pos hb hp hy).le
    · exact absurd hy' h.not_gt
    · exact le_rfl
  · rw [roundSigned, if_pos hx, roundSigned, if_pos (hx.trans_le h)]
    exact roundDigits_mono hb hp hx h

end SignificantDigits
