import DotmacIntegrator.Foundation.JsonEncode
import Mathlib.Data.List.Perm.Basic

/-!
# Values up to the order of keys

Python's dictionaries are equal when they have the same members, in whichever order they were
inserted. Sorting the keys of every object forgets nothing but this order.

## Main definitions

* `Json.EqUpToOrder`: equality up to the order of keys, at any level

## Main results

* `eqUpToOrder_of_sortKeys_eq`: sorting keys forgets their order only
-/

namespace Json

/-- Equal up to the order of the keys of objects, at any level: the members of one object, put in
another order, have the keys of the other and values that are equal in the same sense. -/
inductive EqUpToOrder : Json → Json → Prop
  | refl (v : Json) : EqUpToOrder v v
  | arr {xs ys : List Json} : List.Forall₂ EqUpToOrder xs ys → EqUpToOrder (arr xs) (arr ys)
  | obj {ms ms' ns : List (String × Json)} : ms.Perm ms' → ms'.map Prod.fst = ns.map Prod.fst →
      List.Forall₂ EqUpToOrder (ms'.map Prod.snd) (ns.map Prod.snd) → EqUpToOrder (obj ms) (obj ns)

/-- A member, with the keys of its value sorted. -/
def sortMember (p : String × Json) : String × Json := (p.1, p.2.sortKeys)

theorem sortItems_eq_map (xs : List Json) : sortItems xs = xs.map sortKeys := by
  induction xs with
  | nil => rfl
  | cons x xs ih => rw [sortItems, ih, List.map_cons]

theorem sortMembers_eq_map (ms : List (String × Json)) : sortMembers ms = ms.map sortMember := by
  induction ms with
  | nil => rfl
  | cons p ms ih => rw [sortMembers, ih, List.map_cons, sortMember]

/-- Members are equal once their values are sorted iff they have the same keys, and their values
are. -/
theorem map_sortMember_eq_iff {ms ns : List (String × Json)} :
    ms.map sortMember = ns.map sortMember ↔
      ms.map Prod.fst = ns.map Prod.fst ∧
        List.Forall₂ (fun v w => v.sortKeys = w.sortKeys) (ms.map Prod.snd) (ns.map Prod.snd) := by
  induction ms generalizing ns with
  | nil => cases ns <;> simp
  | cons p ms ih =>
    cases ns with
    | nil => simp
    | cons q ns =>
      simp only [List.map_cons, List.cons.injEq, ih, List.forall₂_cons, sortMember, Prod.mk.injEq]
      tauto

/-- Pairs of items in one relation are in another that it implies on these items. -/
theorem forall₂_imp_of_mem {α β : Type*} {R S : α → β → Prop} {xs : List α} {ys : List β}
    (himp : ∀ x ∈ xs, ∀ y, R x y → S x y) (h : List.Forall₂ R xs ys) : List.Forall₂ S xs ys := by
  induction h with
  | nil => exact .nil
  | @cons x y xs ys hxy _ ih =>
    exact .cons (himp x List.mem_cons_self y hxy)
      (ih fun z hz => himp z (List.mem_cons_of_mem x hz))

/-- **Sorting keys forgets their order only.** -/
theorem eqUpToOrder_of_sortKeys_eq {a b : Json} (h : a.sortKeys = b.sortKeys) :
    EqUpToOrder a b := by
  induction a generalizing b with
  | arr xs ih =>
    cases b with
    | arr ys =>
      simp only [sortKeys, arr.injEq, sortItems_eq_map, ← List.forall₂_eq_eq_eq,
        List.forall₂_map_left_iff, List.forall₂_map_right_iff] at h
      exact .arr (forall₂_imp_of_mem (fun x hx y => ih x hx) h)
    | _ => simp [sortKeys] at h
  | obj ms ih =>
    cases b with
    | obj ns =>
      simp only [sortKeys, obj.injEq, sortMembers_eq_map] at h
      -- A list is its sorted one, rearranged.
      have hperm : (ns.map sortMember).Perm (ms.map sortMember) := by
        have hns := List.mergeSort_perm (ns.map sortMember) fun p q => p.1 ≤ q.1
        rw [← h] at hns
        exact hns.symm.trans (List.mergeSort_perm _ _)
      obtain ⟨ms', heq, hms⟩ : ∃ ms' : List (String × Json),
          ns.map sortMember = ms'.map sortMember ∧ ms'.Perm ms :=
        (congrFun₂ (List.eq_map_comp_perm sortMember) (ns.map sortMember) ms).mpr hperm
      obtain ⟨hkeys, hvalues⟩ := map_sortMember_eq_iff.mp heq.symm
      refine .obj hms.symm hkeys (forall₂_imp_of_mem ?_ hvalues)
      rintro v hv w hvw
      obtain ⟨p, hp, rfl⟩ := List.mem_map.mp hv
      exact ih p (hms.mem_iff.mp hp) hvw
    | _ => simp [sortKeys] at h
  | _ =>
    cases b <;> simp_all [sortKeys]
    exact .refl _

/-! ### Distinct keys -/

/-- With distinct keys, the order of members does not matter once they are sorted. -/
theorem mergeSort_congr {ms ns : List (String × Json)} (h : ms.Perm ns)
    (hkeys : (ms.map Prod.fst).Nodup) :
    ms.mergeSort (fun p q => p.1 ≤ q.1) = ns.mergeSort fun p q => p.1 ≤ q.1 := by
  have hsorted : ∀ l : List (String × Json),
      (l.mergeSort fun p q => p.1 ≤ q.1).Pairwise fun p q => p.1 ≤ q.1 := by
    intro l
    have := @List.pairwise_mergeSort (String × Json) (fun p q => decide (p.1 ≤ q.1))
      (fun p q r hpq hqr => by simpa using le_trans (by simpa using hpq) (by simpa using hqr))
      (fun p q => by simpa using le_total p.1 q.1) l
    simpa using this
  refine List.Perm.eq_of_pairwise ?_ (hsorted ms) (hsorted ns)
    ((List.mergeSort_perm _ _).trans (h.trans (List.mergeSort_perm _ _).symm))
  -- Members with one key are one member.
  intro p q hp hq hpq hqp
  have hp' : p ∈ ms := (List.mergeSort_perm _ _).mem_iff.mp hp
  have hq' : q ∈ ms := h.mem_iff.mpr ((List.mergeSort_perm _ _).mem_iff.mp hq)
  exact List.inj_on_of_nodup_map hkeys hp' hq' (le_antisymm hpq hqp)

end Json
