import DotmacIntegrator.Foundation.SignificantDigits
import Mathlib.Algebra.Order.Floor.Ring
import Mathlib.Data.List.DropRight
import Mathlib.Data.Rat.Floor

/-!
# The general format

What `printf` writes for `%g`: the number rounded to `p` significant digits, without trailing
zeros, in fixed notation unless its exponent is below -4 or at least `p`. Read back as a decimal
number, the text is the rounded number.

## Main definitions

* `general`: the general format with `p` digits
* `readDecimal`: the number a decimal text writes

## Main results

* `readDecimal_general`: the text writes the rounded number
* `readDecimal_general_eq_iff`: it writes the number itself iff that has `p` digits
-/

namespace GeneralFormat

open SignificantDigits

/-- The number decimal digits write. -/
def ofDigits (ds : List Char) : ℕ := Nat.ofDigitChars 10 ds 0

/-- Decimal digits, at least one. -/
def IsNumeral (ds : List Char) : Prop := ds ≠ [] ∧ ∀ c ∈ ds, c.isDigit

instance (ds : List Char) : Decidable (IsNumeral ds) :=
  @instDecidableAnd _ _ _ (List.decidableBAll _ ds)

/-! ### Writing -/

/-- Digits around a decimal point that follows the first `point` of them. -/
def place (ds : List Char) (point : ℤ) : List Char :=
  if point ≤ 0 then '0' :: '.' :: (List.replicate (-point).toNat '0' ++ ds)
  else if ds.length ≤ point.toNat then ds ++ List.replicate (point.toNat - ds.length) '0'
  else ds.take point.toNat ++ '.' :: ds.drop point.toNat

/-- The digits of an exponent, two at least. -/
def exponentDigits (n : ℕ) : List Char :=
  if n < 10 then '0' :: Nat.toDigits 10 n else Nat.toDigits 10 n

/-- A signed exponent. -/
def exponentText (e : ℤ) : List Char :=
  (if e < 0 then '-' else '+') :: exponentDigits e.natAbs

/-- The significant digits of a positive number, without trailing zeros. -/
def significantDigits (p : ℕ) (x : ℚ) : List Char :=
  (Nat.toDigits 10 (significand 10 p x).toNat).rdropWhile (· == '0')

/-- Where the decimal point stands among the significant digits. -/
def decimalPoint (p : ℕ) (x : ℚ) : ℤ :=
  lastExponent 10 p x + (Nat.toDigits 10 (significand 10 p x).toNat).length

/-- The general format of a positive number. -/
def unsigned (p : ℕ) (x : ℚ) : List Char :=
  if decimalPoint p x ≤ -4 ∨ (p : ℤ) < decimalPoint p x then
    place (significantDigits p x) 1 ++ 'e' :: exponentText (decimalPoint p x - 1)
  else place (significantDigits p x) (decimalPoint p x)

/-- The general format with `p` digits. -/
def general (p : ℕ) (x : ℚ) : List Char :=
  if x = 0 then ['0'] else if x < 0 then '-' :: unsigned p (-x) else unsigned p x

/-! ### Reading -/

/-- The number a numeral writes. -/
def readNumeral (ds : List Char) : Option ℕ := if IsNumeral ds then some (ofDigits ds) else none

/-- A number with an optional fraction. -/
def readFixed (cs : List Char) : Option ℚ :=
  match cs.dropWhile (· ≠ '.') with
  | [] => (readNumeral cs).map Nat.cast
  | _ :: frac => do
    let i ← readNumeral (cs.takeWhile (· ≠ '.'))
    let f ← readNumeral frac
    return i + f / 10 ^ frac.length

/-- A signed exponent. -/
def readExponent : List Char → Option ℤ
  | '-' :: ds => (readNumeral ds).map fun n : ℕ => -(n : ℤ)
  | '+' :: ds => (readNumeral ds).map Nat.cast
  | ds => (readNumeral ds).map Nat.cast

/-- A number with an optional exponent. -/
def readUnsigned (cs : List Char) : Option ℚ :=
  match cs.dropWhile (· ≠ 'e') with
  | [] => readFixed cs
  | _ :: exponent => do
    let m ← readFixed (cs.takeWhile (· ≠ 'e'))
    let e ← readExponent exponent
    return m * 10 ^ e

/-- The number a decimal text writes. -/
def readDecimal : List Char → Option ℚ
  | '-' :: cs => (readUnsigned cs).map fun x => -x
  | cs => readUnsigned cs

/-! ### Digits -/

theorem ofDigits_append (ds es : List Char) :
    ofDigits (ds ++ es) = ofDigits ds * 10 ^ es.length + ofDigits es := by
  rw [ofDigits, Nat.ofDigitChars_append, Nat.ofDigitChars_eq_ofDigitChars_zero, mul_comm]
  rfl

@[simp] theorem ofDigits_zeros (n : ℕ) : ofDigits (List.replicate n '0') = 0 := by
  simp [ofDigits]

@[simp] theorem ofDigits_toDigits (n : ℕ) : ofDigits (Nat.toDigits 10 n) = n :=
  Nat.ofDigitChars_ten_toDigits

theorem readNumeral_of_isNumeral {ds : List Char} (h : IsNumeral ds) :
    readNumeral ds = some (ofDigits ds) :=
  if_pos h

theorem isNumeral_toDigits (n : ℕ) : IsNumeral (Nat.toDigits 10 n) :=
  ⟨Nat.toDigits_ne_nil, fun _ hc => Nat.isDigit_of_mem_toDigits (by decide) (by decide) hc⟩

theorem IsNumeral.append {ds es : List Char} (hd : IsNumeral ds) (he : ∀ c ∈ es, c.isDigit) :
    IsNumeral (ds ++ es) := by
  refine ⟨List.append_ne_nil_of_left_ne_nil hd.1 es, ?_⟩
  intro c hc
  rcases List.mem_append.mp hc with hc | hc
  · exact hd.2 c hc
  · exact he c hc

theorem isDigit_of_mem_zeros {n : ℕ} {c : Char} (hc : c ∈ List.replicate n '0') : c.isDigit := by
  rw [List.eq_of_mem_replicate hc]
  decide

/-- Neither a point nor a letter is a digit. -/
theorem IsNumeral.takeWhile_append {ds : List Char} (hd : IsNumeral ds) (rest : List Char)
    {stop : Char} (hstop : stop.isDigit = false) :
    (ds ++ stop :: rest).takeWhile (· ≠ stop) = ds ∧
      (ds ++ stop :: rest).dropWhile (· ≠ stop) = stop :: rest := by
  -- The stop is no digit, so that it does not occur among the digits.
  have hne : ∀ c ∈ ds, (decide (c ≠ stop)) = true := by
    intro c hc
    rw [decide_eq_true_eq]
    rintro rfl
    rw [hd.2 c hc] at hstop
    cases hstop
  constructor
  · rw [List.takeWhile_append_of_pos hne, List.takeWhile_cons_of_neg (by simp), List.append_nil]
  · rw [List.dropWhile_append_of_pos hne, List.dropWhile_cons_of_neg (by simp)]

/-! ### A placed point -/

theorem readFixed_of_isNumeral {ds : List Char} (hd : IsNumeral ds) :
    readFixed ds = some (ofDigits ds : ℚ) := by
  have hdrop : ds.dropWhile (· ≠ '.') = [] := by
    rw [List.dropWhile_eq_nil_iff]
    intro c hc
    rw [decide_eq_true_eq]
    rintro rfl
    exact absurd (hd.2 _ hc) (by decide)
  rw [readFixed, hdrop]
  simp [readNumeral_of_isNumeral hd]

theorem readFixed_append {ds es : List Char} (hd : IsNumeral ds) (he : IsNumeral es) :
    readFixed (ds ++ '.' :: es) = some ((ofDigits (ds ++ es) : ℚ) / 10 ^ es.length) := by
  obtain ⟨htake, hdrop⟩ := hd.takeWhile_append es (show Char.isDigit '.' = false by decide)
  rw [readFixed, hdrop, htake]
  simp only [readNumeral_of_isNumeral hd, readNumeral_of_isNumeral he, ofDigits_append]
  -- The fraction divides by ten for each of its digits.
  simp only [bind, Option.bind, pure, Option.some.injEq]
  push_cast
  field_simp

/-- **Digits around a point write the digits, scaled.** -/
theorem readFixed_place {ds : List Char} (hd : IsNumeral ds) (point : ℤ) :
    readFixed (place ds point) = some (ofDigits ds * (10 : ℚ) ^ (point - ds.length)) := by
  unfold place
  split_ifs with hpoint hlen
  · -- The point stands before all digits: zeros fill the gap.
    have hnum : IsNumeral (List.replicate (-point).toNat '0' ++ ds) := by
      refine ⟨List.append_ne_nil_of_right_ne_nil _ hd.1, ?_⟩
      intro c hc
      rcases List.mem_append.mp hc with hc | hc
      · exact isDigit_of_mem_zeros hc
      · exact hd.2 c hc
    have hzero : IsNumeral ['0'] := by decide
    have h := readFixed_append hzero hnum
    rw [List.singleton_append] at h
    rw [h, ofDigits_append, ofDigits_append, ofDigits_zeros]
    have hexp : point - ds.length = -(((-point).toNat + ds.length : ℕ) : ℤ) := by
      push_cast
      omega
    rw [hexp, zpow_neg, zpow_natCast]
    simp [ofDigits, Nat.ofDigitChars, div_eq_mul_inv]
  · -- It stands behind all digits: no point is written.
    rw [readFixed_of_isNumeral (hd.append fun _ => isDigit_of_mem_zeros), ofDigits_append,
      ofDigits_zeros, List.length_replicate]
    have hexp : point - ds.length = ((point.toNat - ds.length : ℕ) : ℤ) := by omega
    rw [hexp, zpow_natCast]
    push_cast
    ring_nf
  · -- It stands between two digits.
    have htake : IsNumeral (ds.take point.toNat) :=
      ⟨by simp [hd.1]; omega, fun c hc => hd.2 c (List.mem_of_mem_take hc)⟩
    have hdrop : IsNumeral (ds.drop point.toNat) :=
      ⟨by simp; omega, fun c hc => hd.2 c (List.mem_of_mem_drop hc)⟩
    rw [readFixed_append htake hdrop, List.take_append_drop, List.length_drop]
    have hexp : point - ds.length = -((ds.length - point.toNat : ℕ) : ℤ) := by omega
    rw [hexp, zpow_neg, zpow_natCast, div_eq_mul_inv]

theorem readNumeral_exponentDigits (n : ℕ) : readNumeral (exponentDigits n) = some n := by
  have hn := isNumeral_toDigits n
  unfold exponentDigits
  split
  · -- A single digit is padded with a zero.
    have hzero : IsNumeral ('0' :: Nat.toDigits 10 n) :=
      ⟨List.cons_ne_nil _ _, List.forall_mem_cons.mpr ⟨by decide, hn.2⟩⟩
    rw [readNumeral_of_isNumeral hzero, ← List.singleton_append, ofDigits_append,
      ofDigits_toDigits]
    simp [ofDigits, Nat.ofDigitChars]
  · rw [readNumeral_of_isNumeral hn, ofDigits_toDigits]

theorem readExponent_exponentText (e : ℤ) : readExponent (exponentText e) = some e := by
  unfold exponentText
  split
  · rw [readExponent, readNumeral_exponentDigits, Option.map_some]
    congr 1
    omega
  · rw [readExponent, readNumeral_exponentDigits, Option.map_some]
    congr 1
    omega

theorem mem_place {ds : List Char} (hd : ∀ c ∈ ds, c.isDigit) {point : ℤ} {c : Char}
    (hc : c ∈ place ds point) : c.isDigit ∨ c = '.' := by
  unfold place at hc
  split_ifs at hc
  · rcases List.mem_cons.mp hc with rfl | hc
    · exact .inl (by decide)
    rcases List.mem_cons.mp hc with rfl | hc
    · exact .inr rfl
    rcases List.mem_append.mp hc with hc | hc
    · exact .inl (isDigit_of_mem_zeros hc)
    · exact .inl (hd c hc)
  · rcases List.mem_append.mp hc with hc | hc
    · exact .inl (hd c hc)
    · exact .inl (isDigit_of_mem_zeros hc)
  · rcases List.mem_append.mp hc with hc | hc
    · exact .inl (hd c (List.mem_of_mem_take hc))
    rcases List.mem_cons.mp hc with rfl | hc
    · exact .inr rfl
    · exact .inl (hd c (List.mem_of_mem_drop hc))

theorem place_ne_nil {ds : List Char} (hd : ds ≠ []) (point : ℤ) : place ds point ≠ [] := by
  unfold place
  split_ifs <;> simp [hd]

/-! ### The general format -/

variable {p : ℕ} {x : ℚ}

theorem significand_toNat (hp : 0 < p) (hx : 0 < x) :
    0 < (significand 10 p x).toNat ∧
      (((significand 10 p x).toNat : ℕ) : ℚ) = (significand 10 p x : ℚ) := by
  have hlo := (significand_mem (b := 10) (by decide) hp hx).1
  have hpow : (0 : ℤ) < ((10 : ℕ) : ℤ) ^ (p - 1) := by positivity
  have hpos : 0 < significand 10 p x := hpow.trans_le hlo
  refine ⟨by omega, ?_⟩
  exact_mod_cast congrArg (Int.cast (R := ℚ)) (Int.toNat_of_nonneg hpos.le)

/-- The digits that are written, and the zeros that are not. -/
theorem exists_zeros (p : ℕ) (x : ℚ) : ∃ k, Nat.toDigits 10 (significand 10 p x).toNat =
    significantDigits p x ++ List.replicate k '0' := by
  refine ⟨(List.rtakeWhile (· == '0') (Nat.toDigits 10 (significand 10 p x).toNat)).length, ?_⟩
  -- What is dropped at the end is nothing but zeros.
  have hz : List.rtakeWhile (· == '0') (Nat.toDigits 10 (significand 10 p x).toNat) =
      List.replicate _ '0' :=
    List.eq_replicate_of_mem fun c hc => by simpa using List.mem_rtakeWhile_imp hc
  rw [← hz]
  exact List.rdropWhile_append_rtakeWhile.symm

theorem isNumeral_significantDigits (hp : 0 < p) (hx : 0 < x) :
    IsNumeral (significantDigits p x) := by
  obtain ⟨k, hk⟩ := exists_zeros p x
  refine ⟨?_, ?_⟩
  · -- Zeros alone would write zero, and the significand is positive.
    intro hnil
    have hval := ofDigits_toDigits (significand 10 p x).toNat
    rw [hk, hnil, List.nil_append, ofDigits_zeros] at hval
    exact absurd hval (significand_toNat hp hx).1.ne
  · intro c hc
    exact (isNumeral_toDigits (significand 10 p x).toNat).2 c
      (hk ▸ List.mem_append_left _ hc)

/-- The written digits, scaled to the decimal point, are the rounded number. -/
theorem ofDigits_significantDigits (hp : 0 < p) (hx : 0 < x) :
    (ofDigits (significantDigits p x) : ℚ) *
      10 ^ (decimalPoint p x - (significantDigits p x).length) = roundDigits 10 p x := by
  -- The `k` zeros that are not written scale the digits by `10 ^ k`.
  obtain ⟨k, hk⟩ := exists_zeros p x
  have hval := ofDigits_toDigits (significand 10 p x).toNat
  rw [hk, ofDigits_append, ofDigits_zeros, List.length_replicate, add_zero] at hval
  have hexp : decimalPoint p x - (significantDigits p x).length = k + lastExponent 10 p x := by
    rw [decimalPoint, hk, List.length_append, List.length_replicate]
    push_cast
    ring
  rw [hexp, zpow_add₀ (by norm_num), zpow_natCast, ← mul_assoc, roundDigits,
    ← (significand_toNat hp hx).2, ← hval]
  push_cast
  rfl

/-- **The text of a positive number writes the rounded number.** -/
theorem readUnsigned_unsigned (hp : 0 < p) (hx : 0 < x) :
    readUnsigned (unsigned p x) = some (roundDigits 10 p x) := by
  have hd := isNumeral_significantDigits hp hx
  have hval := ofDigits_significantDigits hp hx
  -- Digits and a point hold no `e`, so that the exponent starts at the first one.
  have hne : ∀ point, ∀ c ∈ place (significantDigits p x) point, (decide (c ≠ 'e')) = true := by
    intro point c hc
    rw [decide_eq_true_eq]
    rintro rfl
    exact absurd (mem_place hd.2 hc) (by decide)
  unfold unsigned
  split
  · -- scientific notation: one digit before the point, and the exponent behind `e`
    rw [readUnsigned, List.dropWhile_append_of_pos (hne 1),
      List.takeWhile_append_of_pos (hne 1), List.dropWhile_cons_of_neg (by simp),
      List.takeWhile_cons_of_neg (by simp), List.append_nil]
    simp only [readFixed_place hd, readExponent_exponentText]
    simp only [bind, Option.bind, pure, Option.some.injEq]
    rw [← hval, mul_assoc, ← zpow_add₀ (by norm_num)]
    congr 2
    ring
  · -- fixed notation: there is no `e`
    rw [readUnsigned, List.dropWhile_eq_nil_iff.mpr (hne _)]
    exact (readFixed_place hd _).trans (congrArg some hval)

theorem isDigit_of_mem_significantDigits {c : Char} (hc : c ∈ significantDigits p x) :
    c.isDigit :=
  (isNumeral_toDigits _).2 c ((List.rdropWhile_prefix _ _).subset hc)

/-- No blank occurs in the general format. -/
theorem space_not_mem_general (p : ℕ) (x : ℚ) : ' ' ∉ general p x := by
  have hplace : ∀ (x : ℚ) (point : ℤ), ' ' ∉ place (significantDigits p x) point := fun x point h =>
    absurd (mem_place (fun _ => isDigit_of_mem_significantDigits) h) (by decide)
  -- A sign and digits.
  have hexponent : ∀ e, ' ' ∉ exponentText e := by
    intro e h
    have hdigits : ' ' ∉ Nat.toDigits 10 e.natAbs := fun h =>
      absurd ((isNumeral_toDigits _).2 _ h) (by decide)
    unfold exponentText exponentDigits at h
    split_ifs at h <;> simp [hdigits] at h
  have hunsigned : ∀ x, ' ' ∉ unsigned p x := by
    intro x
    unfold unsigned
    split_ifs
    · simp [hplace, hexponent]
    · exact hplace x _
  unfold general
  split_ifs <;> simp [hunsigned]

theorem readDecimal_unsigned (hp : 0 < p) (hx : 0 < x) :
    readDecimal (unsigned p x) = some (roundDigits 10 p x) := by
  have hd := isNumeral_significantDigits hp hx
  -- The text starts with a digit, so that no sign is read.
  have hhead : ∀ cs, unsigned p x ≠ '-' :: cs := by
    intro cs h
    have hmem : ∀ point rest, place (significantDigits p x) point ++ rest ≠ '-' :: cs := by
      intro point rest h
      obtain ⟨c, t, ht⟩ := List.exists_cons_of_ne_nil (place_ne_nil hd.1 point)
      have hc : c = '-' := (List.cons.inj (ht ▸ h)).1
      have := mem_place hd.2 (ht ▸ List.mem_cons_self : c ∈ place (significantDigits p x) point)
      rw [hc] at this
      exact absurd this (by decide)
    unfold unsigned at h
    split_ifs at h
    · exact hmem _ _ h
    · exact hmem _ [] (by rwa [List.append_nil])
  rw [← readUnsigned_unsigned hp hx]
  unfold readDecimal
  split
  · exact absurd ‹_› (hhead _)
  · rfl

/-- **The general format writes the rounded number**, with its sign. -/
theorem readDecimal_general (hp : 0 < p) (hx : x ≠ 0) : readDecimal (general p x) =
    some (if x < 0 then -roundDigits 10 p (-x) else roundDigits 10 p x) := by
  unfold general
  rw [if_neg hx]
  split_ifs with hneg
  · rw [readDecimal, readUnsigned_unsigned hp (by linarith), Option.map_some]
  · exact readDecimal_unsigned hp (lt_of_le_of_ne (not_lt.mp hneg) hx.symm)

/-- So it does of a number of either sign, and of zero. -/
theorem readDecimal_general_signed (hp : 0 < p) :
    readDecimal (general p x) = some (roundSigned 10 p x) := by
  rcases eq_or_ne x 0 with rfl | hx
  · rw [roundSigned_zero]
    simp only [general, if_true]
    rfl
  · rw [readDecimal_general hp hx]
    rcases lt_or_gt_of_ne hx with hneg | hpos
    · rw [if_pos hneg, roundSigned_of_neg hneg]
    · rw [if_neg hpos.not_gt, roundSigned_of_pos hpos]

/-- **It writes the number itself iff that has `p` significant digits.** -/
theorem readDecimal_general_eq_iff (hp : 0 < p) :
    readDecimal (general p x) = some x ↔ HasDigits 10 p |x| := by
  -- Zero is written as such; otherwise the text writes the rounded number.
  rcases eq_or_ne x 0 with rfl | hx
  · simp only [general, if_true, abs_zero]
    exact iff_of_true rfl ⟨0, 0, by positivity, by simp⟩
  rw [readDecimal_general hp hx]
  split_ifs with hneg
  · rw [abs_of_neg hneg, ← roundDigits_eq_self_iff (by decide) hp (by linarith : 0 < -x)]
    simp only [Option.some.injEq]
    exact neg_eq_iff_eq_neg
  · rw [abs_of_nonneg (not_lt.mp hneg),
      ← roundDigits_eq_self_iff (by decide) hp (lt_of_le_of_ne (not_lt.mp hneg) hx.symm)]
    simp only [Option.some.injEq]

end GeneralFormat
