import DotmacIntegrator.Foundation.Dict
import Mathlib.Data.List.Induction
import Mathlib.Data.List.Perm.Basic

/-!
# Grouping by a key

Items are collected under their keys, each behind the items of its key that came before it. Nothing
is lost, nothing is there twice, and the items of a key stay in order.

## Main definitions

* `Dict.push`, `Dict.group`: one item under its key, and all of them

## Main results

* `get?_group`: the group of a key is the items of that key, in order
* `perm_flatMap_filter`: the groups of distinct keys that cover the items are the items
-/

namespace Dict

variable {κ α : Type*} [DecidableEq κ]

/-- `d.setdefault(k, []).append(a)`. -/
def push (d : Dict κ (List α)) (k : κ) (a : α) : Dict κ (List α) :=
  d.set k ((d.get? k).getD [] ++ [a])

/-- The items under their keys. -/
def group (key : α → κ) (xs : List α) : Dict κ (List α) :=
  xs.foldl (fun d x => d.push (key x) x) []

/-- **The group of a key** is the items of that key, in order; a key without items has none. -/
theorem get?_group (key : α → κ) (xs : List α) (k : κ) :
    (group key xs).get? k =
      if xs.filter (fun x => key x = k) = [] then none
      else some (xs.filter fun x => key x = k) := by
  induction xs using List.reverseRecOn with
  | nil => rfl
  | append_singleton xs x ih =>
    rw [group, List.foldl_append, List.foldl_cons, List.foldl_nil, push, get?_set]
    change (if key x = k then _ else (group key xs).get? k) = _
    by_cases hk : key x = k
    · subst hk
      rw [if_pos rfl, show xs.foldl _ [] = group key xs from rfl, ih]
      by_cases hnone : xs.filter (fun y => key y = key x) = []
      · simp [hnone]
      · simp [hnone]
    · simp [hk, ih]

/-- The groups of distinct keys that cover the items are the items, in another order. -/
theorem perm_flatMap_filter {key : α → κ} {ks : List κ} (hks : ks.Nodup) {xs : List α}
    (hcover : ∀ x ∈ xs, key x ∈ ks) :
    (ks.flatMap fun k => xs.filter fun x => key x = k).Perm xs := by
  induction ks generalizing xs with
  | nil =>
    rw [List.eq_nil_iff_forall_not_mem.mpr fun x hx => List.not_mem_nil (hcover x hx)]
    rfl
  | cons k ks ih =>
    obtain ⟨hk, hks⟩ := List.nodup_cons.mp hks
    -- Under the other keys are the items that are not under the first.
    have hothers : (ks.flatMap fun l => xs.filter fun x => key x = l) =
        ks.flatMap fun l => (xs.filter fun x => ¬ key x = k).filter fun x => key x = l := by
      apply List.flatMap_congr
      intro l hl
      rw [List.filter_filter]
      apply List.filter_congr
      intro x _
      by_cases hx : key x = l
      · have hne : key x ≠ k := by
          rintro rfl
          exact hk (hx ▸ hl)
        simp [hx, hx ▸ hne]
      · simp [hx]
    rw [List.flatMap_cons, hothers]
    refine ((ih hks ?_).append_left _).trans ?_
    · intro x hx
      obtain ⟨hx, hne⟩ := List.mem_filter.mp hx
      exact (List.mem_cons.mp (hcover x hx)).resolve_left (by simpa using hne)
    · simpa using List.filter_append_perm (fun x => decide (key x = k)) xs

end Dict
