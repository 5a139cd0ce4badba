import DotmacIntegrator.Foundation.Json
import DotmacIntegrator.Foundation.SignificantDigits
import Mathlib.Data.Rat.Floor

/-!
# `x + y`, `x - y`

The sum of two floats is the float nearest to the number it is. What is not a number, an infinity
or a negative zero is added as such. A difference is a sum with what is taken away negated.

## Main definitions

* `PyFloat.nearest`: the float nearest to a number
* `PyFloat.add`, `PyFloat.sub`: the sum and the difference of two floats
* `PyFloat.Total`: what floats that are not negative add up to

## Main results

* `Total.below_add`, `below_foldl_add`: such a sum never falls
* `Reading.sub`: the readings of a clock are apart by a duration
-/

namespace PyFloat

open SignificantDigits

/-- The float nearest to a number: 53 binary digits, and an infinity from `2 ^ 1024` on. The sum of
two floats is a multiple of the smallest one, so that nothing else is rounded. -/
def nearest (q : ℚ) : PyFloat :=
  if 2 ^ 1024 ≤ roundSigned 2 53 q then posInf
  else if roundSigned 2 53 q ≤ -2 ^ 1024 then negInf
  else finite (roundSigned 2 53 q)

/-- `x + y`. -/
def add : PyFloat → PyFloat → PyFloat
  | nan, _ | _, nan | posInf, negInf | negInf, posInf => nan
  | posInf, _ | _, posInf => posInf
  | negInf, _ | _, negInf => negInf
  | negZero, y => y
  | x, negZero => x
  | finite q, finite r => nearest (q + r)

/-- Not a negative number, and not NaN. -/
def Nonneg (x : PyFloat) : Prop := x ≠ nan ∧ x.lt 0 = false

/-! ### Sums that grow -/

/-- What floats that are not negative add up to from zero: a float that is not negative, or
infinity. -/
def Total (x : PyFloat) : Prop :=
  x = posInf ∨ ∃ q, x = finite q ∧ 0 ≤ q ∧ roundSigned 2 53 q = q

/-- A number that is not above the other one, or the other one is no number. -/
def Below (x y : PyFloat) : Prop := ∀ r, y.value? = some r → ∃ q, x.value? = some q ∧ q ≤ r

theorem Below.refl (x : PyFloat) : x.Below x := fun r hr => ⟨r, hr, le_rfl⟩

theorem Below.trans {x y z : PyFloat} (h : x.Below y) (h' : y.Below z) : x.Below z := by
  intro r hr
  obtain ⟨q, hq, hle⟩ := h' r hr
  obtain ⟨p, hp, hle'⟩ := h q hq
  exact ⟨p, hp, hle'.trans hle⟩

theorem total_zero : (finite 0).Total := .inr ⟨0, rfl, le_rfl, roundSigned_zero⟩

/-- The float nearest to a number that is not negative. -/
theorem total_nearest {q : ℚ} (h : 0 ≤ q) : (nearest q).Total := by
  have hround : 0 ≤ roundSigned 2 53 q := roundSigned_nonneg (by decide) (by decide) h
  have hbound : ¬ roundSigned 2 53 q ≤ -2 ^ 1024 :=
    not_le.mpr (lt_of_lt_of_le (neg_neg_of_pos (by positivity)) hround)
  by_cases hbig : 2 ^ 1024 ≤ roundSigned 2 53 q
  · exact .inl (if_pos hbig)
  · refine .inr ⟨roundSigned 2 53 q, ?_, hround, roundSigned_roundSigned (by decide) (by decide) q⟩
    rw [nearest, if_neg hbig, if_neg hbound]

/-- **One more float** that is not negative leaves a sum, which is not below the one before. -/
theorem Total.below_add {x y : PyFloat} (hx : x.Total) (hy : y.Nonneg) :
    (x.add y).Total ∧ x.Below (x.add y) := by
  rcases hx with rfl | ⟨q, rfl, hq, hround⟩
  · have hinf : posInf.add y = posInf := by
      cases y with
      | nan => exact absurd rfl hy.1
      | negInf => exact nomatch hy.2
      | posInf | negZero | finite r => rfl
    rw [hinf]
    exact ⟨.inl rfl, .refl _⟩
  · cases y with
    | nan => exact absurd rfl hy.1
    | negInf => exact nomatch hy.2
    | posInf => exact ⟨.inl rfl, nofun⟩
    | negZero => exact ⟨.inr ⟨q, rfl, hq, hround⟩, .refl _⟩
    | finite r =>
      have hr : 0 ≤ r := not_lt.mp (of_decide_eq_false hy.2)
      refine ⟨total_nearest (add_nonneg hq hr), fun p hp => ⟨q, rfl, ?_⟩⟩
      have hmono : q ≤ roundSigned 2 53 (q + r) :=
        calc q = roundSigned 2 53 q := hround.symm
          _ ≤ roundSigned 2 53 (q + r) :=
            roundSigned_mono (by decide) (by decide) (le_add_of_nonneg_right hr)
      change (nearest (q + r)).value? = some p at hp
      unfold nearest at hp
      split at hp
      · cases hp
      · split at hp
        · cases hp
        · exact hmono.trans_eq (Option.some.inj hp)

/-- **A sum of floats that are not negative never falls.** -/
theorem below_foldl_add {xs : List PyFloat} (h : ∀ x ∈ xs, x.Nonneg) {sum : PyFloat}
    (hsum : sum.Total) : (xs.foldl add sum).Total ∧ sum.Below (xs.foldl add sum) := by
  induction xs generalizing sum with
  | nil => exact ⟨hsum, .refl _⟩
  | cons x xs ih =>
    obtain ⟨htotal, hbelow⟩ := hsum.below_add (h x (.head _))
    obtain ⟨hrest, hbelow'⟩ := ih (fun y hy => h y (.tail _ hy)) htotal
    exact ⟨hrest, hbelow.trans hbelow'⟩

/-! ### Differences -/

/-- `-x`. -/
def neg : PyFloat → PyFloat
  | finite q => if q = 0 then negZero else finite (-q)
  | negZero => finite 0
  | posInf => negInf
  | negInf => posInf
  | nan => nan

/-- `x - y`. -/
def sub (x y : PyFloat) : PyFloat := x.add y.neg

/-- `max(0.0, x)`. -/
def maxZero (x : PyFloat) : PyFloat := if x.gt 0 then x else finite 0

/-- What a clock is read as: a float that is finite and not negative. -/
def Reading (x : PyFloat) : Prop :=
  ∃ q, x = finite q ∧ 0 ≤ q ∧ q < 2 ^ 1024 ∧ roundSigned 2 53 q = q

theorem reading_zero : (finite 0).Reading :=
  ⟨0, rfl, le_rfl, by positivity, roundSigned_zero⟩

/-- The float nearest to a number up to a reading is not infinite. -/
theorem nearest_of_le {p q : ℚ} (hp : p < 2 ^ 1024) (hround : roundSigned 2 53 p = p)
    (h : q ≤ p) : nearest q = negInf ∨ nearest q = finite (roundSigned 2 53 q) := by
  have hbelow : roundSigned 2 53 q < 2 ^ 1024 :=
    calc roundSigned 2 53 q ≤ roundSigned 2 53 p := roundSigned_mono (by decide) (by decide) h
      _ = p := hround
      _ < 2 ^ 1024 := hp
  unfold nearest
  rw [if_neg (not_le.mpr hbelow)]
  split
  · exact .inl rfl
  · exact .inr rfl

/-- What is not infinite is at least zero, and finite, if zero is taken where it is more. -/
theorem finite_maxZero {x : PyFloat} (h : x ≠ posInf) :
    x.maxZero.IsFinite ∧ x.maxZero.lt 0 = false := by
  unfold maxZero
  split
  · next hpos =>
    cases x with
    | finite q => exact ⟨rfl, decide_eq_false (not_lt.mpr (of_decide_eq_true hpos).le)⟩
    | negZero | negInf | nan => cases hpos
    | posInf => exact absurd rfl h
  · exact ⟨rfl, decide_eq_false (lt_irrefl (0 : ℚ))⟩

/-- **The readings of a clock are apart by a duration**, whichever is the later one. -/
theorem Reading.sub {x y : PyFloat} (hx : x.Reading) (hy : y.Reading) :
    (x.sub y).maxZero.IsFinite ∧ (x.sub y).maxZero.lt 0 = false := by
  obtain ⟨p, rfl, -, hp, hround⟩ := hx
  obtain ⟨q, rfl, hq, -, -⟩ := hy
  apply finite_maxZero
  rw [PyFloat.sub, neg]
  split
  · exact nofun
  · show nearest (p + -q) ≠ posInf
    have hle : p + -q ≤ p := by linarith
    rcases nearest_of_le hp hround hle with h | h <;> rw [h] <;> exact nofun

end PyFloat
