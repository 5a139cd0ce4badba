import Mathlib.Data.List.ReduceOption
import Mathlib.Order.MinMax

/-!
# Aggregates over columns with nulls

A null in a column is no value: the minimum of a column is that of the values that are there, and
null where there is none.

## Main definitions

* `Sql.minimum`: the minimum of a column

## Main results

* `Sql.minimum_eq_some_iff`, `Sql.minimum_eq_none_iff`: the least value that is there
-/

namespace Sql

variable {α : Type*} [LinearOrder α] {column : List (Option α)} {a : α}

/-- `min(column)`. -/
def minimum (column : List (Option α)) : Option α := column.reduceOption.min?

/-- The minimum is the least value that is there. -/
theorem minimum_eq_some_iff :
    minimum column = some a ↔ some a ∈ column ∧ ∀ b, some b ∈ column → a ≤ b := by
  have : Std.IsLinearOrder α :=
    { le_refl := le_refl, le_trans := fun _ _ _ => le_trans, le_total := le_total,
      le_antisymm := fun _ _ => le_antisymm }
  have : Std.LawfulOrderMin α :=
    { min_eq_or := min_choice, le_min_iff := fun _ _ _ => le_min_iff }
  rw [minimum, List.min?_eq_some_iff]
  simp only [List.reduceOption_mem_iff]

/-- The minimum is null iff every row is. -/
theorem minimum_eq_none_iff : minimum column = none ↔ ∀ b, some b ∉ column := by
  rw [minimum, List.min?_eq_none_iff, List.eq_nil_iff_forall_not_mem]
  simp only [List.reduceOption_mem_iff]

end Sql
