import DotmacIntegrator.Foundation.JsonEncode

/-!
# Digits

`str.isdigit` and `int` disagree on what a digit is: a superscript is a digit, and stands for no
decimal one. The Unicode database that decides it is a parameter.

## Main definitions

* `UnicodeDigits`: which characters are digits, and which of them are decimal
* `UnicodeDigits.isDigit`, `UnicodeDigits.int`: `str.isdigit`, and `int` of a text of digits

## Main results

* `int_isSome_iff`: which texts of digits are read
-/

/-- The digits of the Unicode database: every decimal digit is a digit. -/
structure UnicodeDigits where
  digit : Char → Bool
  decimal : Char → Option ℕ
  decimal_lt : ∀ c d, decimal c = some d → d < 10
  digit_of_decimal : ∀ c d, decimal c = some d → digit c = true

namespace UnicodeDigits

variable (U : UnicodeDigits)

/-- `text.isdigit()`. -/
def isDigit (text : String) : Bool := text ≠ "" && text.toList.all U.digit

/-- Every character of the text is a decimal digit, and there are not too many of them. -/
def Decimal (text : String) : Prop :=
  text.length ≤ Json.maxDigits ∧ ∀ c ∈ text.toList, (U.decimal c).isSome

instance (text : String) : Decidable (U.Decimal text) :=
  @instDecidableAnd _ _ _ (List.decidableBAll (fun c => (U.decimal c).isSome) text.toList)

/-- `int(text)` of a text of digits; none is its `ValueError`. -/
def int (text : String) : Option ℕ :=
  if text.length ≤ Json.maxDigits then
    (text.toList.mapM U.decimal).map fun ds => ds.foldl (fun n d => 10 * n + d) 0
  else none

variable {U}

/-- A text of digits is read iff each of them is decimal and there are not too many. -/
theorem int_isSome_iff {text : String} : (U.int text).isSome ↔ U.Decimal text := by
  have hmap : ∀ cs : List Char, (cs.mapM U.decimal).isSome ↔ ∀ c ∈ cs, (U.decimal c).isSome := by
    intro cs
    induction cs with
    | nil => simp
    | cons c cs ih =>
      rw [List.mapM_cons, List.forall_mem_cons, ← ih]
      cases U.decimal c <;> cases cs.mapM U.decimal <;> simp
  unfold int Decimal
  split_ifs with hlen
  · rw [Option.isSome_map, hmap, and_iff_right hlen]
  · simp [hlen]

/-- The digits of Latin-1: the decimal ones, and three superscripts. -/
def latin1 : UnicodeDigits where
  digit c := c.isDigit || c = '²' || c = '³' || c = '¹'
  decimal c := if c.isDigit then some (c.toNat - 48) else none
  decimal_lt := by
    intro c d h
    split_ifs at h with hc
    have hle : c.toNat ≤ 57 := by
      rw [Char.isDigit, Bool.and_eq_true, decide_eq_true_eq, decide_eq_true_eq] at hc
      exact hc.2
    rw [← Option.some.inj h]
    omega
  digit_of_decimal := by
    intro c d h
    split_ifs at h with hc
    simp [hc]

end UnicodeDigits
