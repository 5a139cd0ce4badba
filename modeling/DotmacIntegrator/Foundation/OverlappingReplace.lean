import DotmacIntegrator.Foundation.PickedReplace
import Mathlib.Data.List.Sort

/-!
# Texts that overlap

Several texts are replaced uniformly where the order makes no difference to how much is left, and
nothing is left of an occurrence. That is so exactly where the occurrences that are picked of
different texts do not overlap, and cover all of them. Otherwise two orders differ: one with the
shorter texts first, which masks no text that has another one in it, and one that masks such a text.

## Main definitions

* `Replace.Cut`: a text cut into items that are kept and occurrences that are masked
* `Replace.Minimal`: a text in which no other one occurs
* `Replace.Uniform`: the order makes no difference, and occurrences are covered

## Main results

* `Cut.count_le`: no way of cutting has more masks than one into texts without others in them
* `uniform_iff`: when several texts are replaced uniformly
-/

namespace Replace

variable {α β : Type*} [DecidableEq α] {key : β → α} {u w x : List α} {cs : List β}
  {V vs : List (List α)} {text : List α}

/-! ### What is left of a text, whatever the order -/

/-- No text that was masked occurs among what is kept. -/
theorem not_infix_maskOne (hne : w ≠ []) (ts : List (Option β)) :
    ¬ w.map some <:+: (maskOne key w ts).map (Option.map key) := by
  induction ts using tokens_induction key hne with
  | nil => simpa [maskOne] using hne
  | found front rest hkeys ih =>
    rw [maskOne_append hne hkeys, List.map_cons, List.infix_cons_iff]
    rintro (hbegins | hinside)
    · cases w with
      | nil => exact hne rfl
      | cons a w => cases (List.cons_prefix_cons.mp hbegins).1
    · exact ih hinside
  | kept t ts hstart ih =>
    have hstep : maskOne key w (t :: ts) = t :: maskOne key w ts := allOn_cons hstart
    rw [hstep, List.map_cons, List.infix_cons_iff]
    rintro (hbegins | hinside)
    · rw [← List.map_cons, ← hstep] at hbegins
      exact hstart (prefix_of_prefix_maskOne hne hbegins)
    · exact ih hinside

/-- What occurs among what is kept occurred before. -/
theorem infix_of_infix_maskOne (hne : w ≠ []) {ts : List (Option β)} (hu : u ≠ [])
    (h : u.map some <:+: (maskOne key w ts).map (Option.map key)) :
    u.map some <:+: ts.map (Option.map key) := by
  induction ts using tokens_induction key hne with
  | nil => exact h
  | found front rest hkeys ih =>
    rw [maskOne_append hne hkeys, List.map_cons, List.infix_cons_iff] at h
    rw [List.map_append]
    rcases h with hbegins | hinside
    · cases u with
      | nil => exact absurd rfl hu
      | cons a u => cases (List.cons_prefix_cons.mp hbegins).1
    · exact List.infix_append_of_infix_right (ih hinside)
  | kept t ts hstart ih =>
    have hstep : maskOne key w (t :: ts) = t :: maskOne key w ts := allOn_cons hstart
    rw [hstep, List.map_cons, List.infix_cons_iff] at h
    rcases h with hbegins | hinside
    · rw [← List.map_cons, ← hstep] at hbegins
      exact (prefix_of_prefix_maskOne hne hbegins).isInfix
    · exact List.infix_cons (ih hinside)

theorem leavesOn_concat (vs : List (List α)) (v : List α) (cs : List β) :
    leavesOn key (vs ++ [v]) cs = maskOne key v (leavesOn key vs cs) := by
  rw [leavesOn, List.foldl_append]
  rfl

/-- None of the texts occurs in what a sequence of replacements leaves. -/
theorem not_infix_leavesOn (hne : ∀ v ∈ vs, v ≠ []) (hu : u ∈ vs) (cs : List β) :
    ¬ u.map some <:+: (leavesOn key vs cs).map (Option.map key) := by
  induction vs using List.reverseRecOn with
  | nil => cases hu
  | append_singleton vs v ih =>
    rw [leavesOn_concat]
    have hvne : v ≠ [] := hne v (by simp)
    rcases List.mem_append.mp hu with hmem | hlast
    · intro hinside
      have hbefore := ih (fun w hw => hne w (List.mem_append_left _ hw)) hmem
      exact hbefore (infix_of_infix_maskOne hvne (hne u hu) hinside)
    · rw [List.mem_singleton.mp hlast]
      exact not_infix_maskOne hvne _

/-! ### Cutting -/

/-- A text cut into items that are kept, each of which meets `K`, and masked occurrences of texts
that meet `P`, each item of which meets `R`. -/
inductive Cut (key : β → α) (P : List α → Prop) (K R : β → Prop) :
    List β → List (Option β) → Prop
  | nil : Cut key P K R [] []
  | keep {c : β} {cs : List β} {ts : List (Option β)} (hc : K c) (h : Cut key P K R cs ts) :
      Cut key P K R (c :: cs) (some c :: ts)
  | mask {front cs : List β} {ts : List (Option β)} (hfront : P (front.map key))
      (hR : ∀ b ∈ front, R b) (h : Cut key P K R cs ts) : Cut key P K R (front ++ cs) (none :: ts)

variable {P M : List α → Prop} {K R : β → Prop} {ts us : List (Option β)}

omit [DecidableEq α] in
/-- What is kept at the front is at the front. -/
theorem Cut.of_append {front : List β} (h : Cut key P K R cs (front.map some ++ ts)) :
    ∃ rest, cs = front ++ rest ∧ Cut key P K R rest ts := by
  induction front generalizing cs with
  | nil => exact ⟨cs, rfl, h⟩
  | cons c front ih =>
    cases h with
    | keep hc h =>
      obtain ⟨rest, rfl, hrest⟩ := ih h
      exact ⟨rest, rfl, hrest⟩

/-- Masking one text more cuts further. -/
theorem Cut.maskOne (hne : w ≠ []) (h : Cut key P (fun _ => True) (fun _ => True) cs ts)
    (hP : w.map some <:+: ts.map (Option.map key) → P w) :
    Cut key P (fun _ => True) (fun _ => True) cs (maskOne key w ts) := by
  induction ts using tokens_induction key hne generalizing cs with
  | nil => exact h
  | found front rest hkeys ih =>
    obtain ⟨cs', rfl, hrest⟩ := h.of_append
    rw [maskOne_append hne hkeys]
    have hmap : (front.map some ++ rest).map (Option.map key) =
        w.map some ++ rest.map (Option.map key) := by
      rw [List.map_append, List.map_map, ← hkeys, List.map_map]
      rfl
    rw [hmap] at hP
    refine .mask ?_ (fun _ _ => trivial) (ih hrest fun hinside => hP ?_)
    · rw [hkeys]
      exact hP (List.prefix_append _ _).isInfix
    · exact List.infix_append_of_infix_right hinside
  | kept t ts hstart ih =>
    have hstep : Replace.maskOne key w (t :: ts) = t :: Replace.maskOne key w ts :=
      allOn_cons hstart
    rw [hstep]
    cases h with
    | keep hc h => exact .keep hc (ih h fun hinside => hP (List.infix_cons hinside))
    | mask hfront hR h => exact .mask hfront hR (ih h fun hinside => hP (List.infix_cons hinside))

omit [DecidableEq α] in
theorem cut_map_some (cs : List β) :
    Cut key P (fun _ => True) (fun _ => True) cs (cs.map some) := by
  induction cs with
  | nil => exact .nil
  | cons c cs ih => exact .keep trivial ih

/-- A sequence of replacements cuts into occurrences. -/
theorem cut_leavesOn (hne : ∀ v ∈ vs, v ≠ []) (hP : ∀ v ∈ vs, P v) (cs : List β) :
    Cut key P (fun _ => True) (fun _ => True) cs (leavesOn key vs cs) := by
  induction vs using List.reverseRecOn with
  | nil => exact cut_map_some cs
  | append_singleton vs v ih =>
    rw [leavesOn_concat]
    exact (ih (fun w hw => hne w (List.mem_append_left _ hw))
      fun w hw => hP w (List.mem_append_left _ hw)).maskOne (hne v (by simp))
        fun _ => hP v (by simp)

/-- A text in which no other one occurs. -/
def Minimal (V : List (List α)) (m : List α) : Prop := m ∈ V ∧ ∀ u ∈ V, u <:+: m → u = m

/-- With the shorter texts first, the texts that are masked have no other one in them. -/
theorem cut_leavesOn_of_sorted (hne : ∀ v ∈ V, v ≠ []) (hmem : ∀ v, v ∈ vs ↔ v ∈ V)
    (hsorted : vs.Pairwise fun u v => u.length ≤ v.length) (cs : List β) :
    Cut key (Minimal V) (fun _ => True) (fun _ => True) cs (leavesOn key vs cs) := by
  suffices ∀ before after, vs = before ++ after →
      Cut key (Minimal V) (fun _ => True) (fun _ => True) cs (leavesOn key before cs) from
    this vs [] (List.append_nil vs).symm
  intro before
  induction before using List.reverseRecOn with
  | nil => exact fun _ _ => cut_map_some cs
  | append_singleton before v ih =>
    intro after hvs
    have hv : v ∈ V := (hmem v).mp (by rw [hvs]; simp)
    have hbefore : ∀ w ∈ before, w ≠ [] := fun w hw =>
      hne w ((hmem w).mp (by rw [hvs]; simp [hw]))
    rw [leavesOn_concat]
    refine (ih (v :: after) (by rw [hvs]; simp)).maskOne (hne v hv) fun hinside => ⟨hv, ?_⟩
    intro u hu huv
    by_contra hne'
    -- A text in `v` is shorter, and was masked before.
    have hshorter : u.length < v.length :=
      lt_of_le_of_ne huv.length_le fun hlen => hne' (huv.eq_of_length hlen)
    have hearlier : u ∈ before := by
      have hu' := (hmem u).mpr hu
      rw [hvs, List.append_assoc] at hu' hsorted
      rcases List.mem_append.mp hu' with hmem | hmem
      · exact hmem
      · rcases List.mem_cons.mp hmem with rfl | hafter
        · exact absurd rfl hne'
        · have hpairs := (List.pairwise_append.mp hsorted).2.1
          have := (List.pairwise_cons.mp hpairs).1 u hafter
          omega
    refine not_infix_leavesOn hbefore hearlier cs (List.IsInfix.trans ?_ hinside)
    exact huv.map some

omit [DecidableEq α] in
/-- What is kept is the items that are not masked. -/
theorem Cut.countP_isSome [DecidablePred R] (h : Cut key P (fun b => ¬ R b) R cs ts) :
    ts.countP Option.isSome = cs.countP fun b => ¬ R b := by
  induction h with
  | nil => rfl
  | keep hc _ ih =>
    rw [List.countP_cons_of_pos rfl, List.countP_cons_of_pos (by simpa using hc), ih]
  | @mask front cs ts _ hR _ ih =>
    have hfront : front.countP (fun b => ¬ R b) = 0 := by
      rw [List.countP_eq_zero]
      intro b hb
      simpa using hR b hb
    rw [List.countP_cons_of_neg (by simp), List.countP_append, hfront, Nat.zero_add, ih]

omit [DecidableEq α] in
/-- An occurrence that begins in one without others in it, and does not end behind it, is the
same. -/
theorem eq_of_drop {front front' back : List β}
    (hminimal : ∀ u, P u → u <:+: front.map key → u = front.map key) {d : ℕ}
    (hd : d < front.length) (hfront' : P (front'.map key)) (hback : front.drop d = front' ++ back) :
    d = 0 ∧ front' = front ∧ back = [] := by
  have hinside : front' <:+: front :=
    (List.IsPrefix.isInfix ⟨back, hback.symm⟩).trans (List.drop_suffix d front).isInfix
  have hsame := congrArg List.length (hminimal _ hfront' (hinside.map key))
  rw [List.length_map, List.length_map] at hsame
  have hlength := congrArg List.length hback
  rw [List.length_drop, List.length_append] at hlength
  exact ⟨by omega, hinside.eq_of_length hsame, List.length_eq_zero_iff.mp (by omega)⟩

omit [DecidableEq α] in
/-- **No way of cutting has more masks than one into occurrences without others in them**, and one
that is ahead of it has fewer. -/
theorem Cut.count_le (hM : ∀ m, M m → m ≠ [] ∧ ∀ u, P u → u <:+: m → u = m)
    (hP : ∀ u, P u → u ≠ []) (h : Cut key M (fun b => ¬ R b) R cs ts) {d : ℕ}
    (hd : ∀ b ∈ cs.take d, R b) (hlen : d ≤ cs.length)
    (hus : Cut key P (fun b => ¬ R b) R (cs.drop d) us) :
    us.countP Option.isNone + min d 1 ≤ ts.countP Option.isNone := by
  have hnonempty : ∀ {front : List β}, P (front.map key) → front ≠ [] := by
    rintro front hfront rfl
    exact hP _ hfront rfl
  induction h generalizing d us with
  | nil =>
    obtain rfl : d = 0 := Nat.le_zero.mp hlen
    generalize hcs : ([] : List β).drop 0 = l at hus
    cases hus with
    | nil => exact le_rfl
    | keep hc h => cases hcs
    | mask hfront hR h =>
      exact absurd (List.append_eq_nil_iff.mp hcs.symm).1 (hnonempty hfront)
  | @keep c cs ts hc h ih =>
    -- Nothing is ahead at an item that is kept.
    obtain rfl : d = 0 := by
      by_contra hpos
      obtain ⟨k, rfl⟩ := Nat.exists_eq_succ_of_ne_zero hpos
      exact hc (hd c (.head _))
    generalize hcs : (c :: cs).drop 0 = l at hus
    cases hus with
    | nil => cases hcs
    | keep hc' h' =>
      obtain ⟨rfl, rfl⟩ := List.cons.inj hcs
      simpa using @ih _ 0 (by simp) (Nat.zero_le _) h'
    | @mask front rest _ hfront hR h' =>
      obtain ⟨b, front, rfl⟩ := List.exists_cons_of_ne_nil (hnonempty hfront)
      obtain ⟨rfl, -⟩ := List.cons.inj hcs
      exact absurd (hR _ (.head _)) hc
  | @mask front cs ts hfront hR h ih =>
    obtain ⟨hmne, hminimal⟩ := hM _ hfront
    have hpos : 0 < front.length := by
      rw [← List.length_map key]
      exact List.length_pos_iff.mpr hmne
    rw [List.countP_cons_of_pos rfl]
    rcases Nat.lt_or_ge d front.length with hlt | hge
    · rw [List.drop_append_of_le_length hlt.le] at hus
      generalize hcs : front.drop d ++ cs = l at hus
      -- The item at which the other cut stands is masked by it, too.
      have hitem : R front[d] := hR _ (List.getElem_mem hlt)
      rw [List.drop_eq_getElem_cons hlt, List.cons_append] at hcs
      cases hus with
      | nil => cases hcs
      | keep hc h' =>
        obtain ⟨rfl, -⟩ := List.cons.inj hcs
        exact absurd hitem hc
      | @mask front' rest us' hfront' hR' h' =>
        rw [← List.cons_append, ← List.drop_eq_getElem_cons hlt] at hcs
        rw [List.countP_cons_of_pos rfl]
        rcases List.append_eq_append_iff.mp hcs with ⟨ahead, hahead, hcs'⟩ | ⟨back, hback, hcs'⟩
        · -- The other cut comes to stand as far ahead as it was, or farther.
          rw [hcs'] at ih hlen
          have hrest := @ih us' ahead.length (by
              rw [List.take_left]
              exact fun b hb => hR' b (hahead ▸ List.mem_append_right _ hb))
            (by rw [List.length_append]; omega) (by rwa [List.drop_left])
          have hfar : d = 0 ∨ 0 < ahead.length := by
            rw [or_iff_not_imp_right, Nat.not_lt, Nat.le_zero, List.length_eq_zero_iff]
            rintro rfl
            rw [List.append_nil] at hahead
            have hback : front.drop d = front' ++ [] := by rw [List.append_nil, hahead]
            exact (eq_of_drop hminimal hlt hfront' hback).1
          omega
        · obtain ⟨rfl, rfl, rfl⟩ := eq_of_drop hminimal hlt hfront' hback
          rw [List.nil_append] at hcs'
          subst hcs'
          simpa using @ih us' 0 (by simp) (Nat.zero_le _) (by simpa using h')
    · rw [List.length_append] at hlen
      rw [List.drop_append, List.drop_eq_nil_of_le hge, List.nil_append] at hus
      have hrest := @ih us (d - front.length) (fun b hb => hd b (by
        rw [List.take_append]
        exact List.mem_append_right _ hb)) (by omega) hus
      omega

/-! ### Replacing uniformly -/

/-- The place is one of an occurrence. -/
def InOccurrence (V : List (List α)) (text : List α) (j : ℕ) : Prop :=
  ∃ v ∈ V, ∃ i, OccursAt v i text ∧ i ≤ j ∧ j < i + v.length

/-- The texts are replaced all the same: in any order as many items are left, and none of an
occurrence is. -/
structure Uniform (marker : ℕ) (V : List (List α)) (n : ℕ) (text : List α) : Prop where
  size : ∀ vs, vs.Perm V → ∀ vs', vs'.Perm V →
    (leavesOn Prod.fst vs (placed n text)).countP Option.isSome +
        marker * (leavesOn Prod.fst vs (placed n text)).countP Option.isNone =
      (leavesOn Prod.fst vs' (placed n text)).countP Option.isSome +
        marker * (leavesOn Prod.fst vs' (placed n text)).countP Option.isNone
  covers : ∀ vs, vs.Perm V → ∀ j, InOccurrence V text j →
    ∀ c, some (c, some (n + j)) ∉ leavesOn Prod.fst vs (placed n text)

variable {marker n : ℕ} {y : List α}

/-- An item whose place is one of an occurrence. -/
def OfOccurrence (V : List (List α)) (n : ℕ) (text : List α) (b : α × Option ℕ) : Prop :=
  ∃ j, b.2 = some (n + j) ∧ InOccurrence V text j

omit [DecidableEq α] in
/-- Cutting into occurrences masks their items, and keeps the others if it covers them. -/
theorem Cut.ofOccurrence {k : ℕ} {ts : List (Option (α × Option ℕ))} (hP : ∀ v, P v → v ∈ V)
    (h : Cut Prod.fst P (fun _ => True) (fun _ => True) (placed (n + k) (text.drop k)) ts)
    (hkept : ∀ c j, InOccurrence V text j → some (c, some (n + j)) ∉ ts) :
    Cut Prod.fst P (fun b => ¬ OfOccurrence V n text b) (OfOccurrence V n text)
      (placed (n + k) (text.drop k)) ts := by
  generalize hcs : placed (n + k) (text.drop k) = cs at h
  induction h generalizing k with
  | nil => exact .nil
  | @keep c cs ts _ h ih =>
    cases hdrop : text.drop k with
    | nil =>
      rw [hdrop] at hcs
      cases hcs
    | cons a rest =>
      rw [hdrop] at hcs
      obtain ⟨rfl, hrest⟩ := List.cons.inj hcs
      have htail : text.drop (k + 1) = rest := by
        rw [← List.drop_drop, hdrop]
        rfl
      refine .keep ?_ (@ih (k + 1) (fun c j hj hmem => hkept c j hj (.tail _ hmem)) ?_)
      · rintro ⟨j, hj, hoccurs⟩
        refine hkept a j hoccurs ?_
        rw [← hj]
        exact .head _
      · rw [htail, ← hrest]
        rfl
  | @mask front cs ts hfront _ h ih =>
    -- The front is an occurrence at the place.
    have hkeys : text.drop k = front.map Prod.fst ++ cs.map Prod.fst := by
      rw [← List.map_append, ← hcs, map_fst_placed]
    have hoccurs : OccursAt (front.map Prod.fst) k text := ⟨_, hkeys.symm⟩
    have hsplit : placed (n + k) (front.map Prod.fst ++ cs.map Prod.fst) = front ++ cs := by
      rw [← hkeys, hcs]
    refine .mask hfront (fun b hb => ?_)
      (@ih (k + front.length) (fun c j hj hmem => hkept c j hj (.tail _ hmem)) ?_)
    · obtain ⟨i, hi, rfl⟩ := List.mem_iff_getElem.mp hb
      have hplace : ((placed (n + k) (text.drop k)).drop i).head? = some front[i] := by
        rw [hcs, List.head?_drop, List.getElem?_append_left hi, List.getElem?_eq_getElem hi]
      rw [drop_placed] at hplace
      cases hdrop : (text.drop k).drop i with
      | nil =>
        rw [hdrop] at hplace
        cases hplace
      | cons a rest =>
        rw [hdrop] at hplace
        refine ⟨k + i, ?_, _, hP _ hfront, k, hoccurs, by omega, ?_⟩
        · rw [← Option.some.inj hplace, Nat.add_assoc]
        · rw [List.length_map]
          omega
    · have hlength : (front.map (Prod.fst : α × Option ℕ → α)).length = front.length :=
        List.length_map _
      rw [← List.drop_drop, ← Nat.add_assoc, ← drop_placed, hcs, List.drop_left]

omit [DecidableEq α] in
/-- There is an order with the shorter texts first. -/
theorem exists_sorted (V : List (List α)) :
    ∃ vs : List (List α), vs.Perm V ∧ vs.Pairwise fun u v => u.length ≤ v.length := by
  refine ⟨V.mergeSort fun u v => decide (u.length ≤ v.length), List.mergeSort_perm _ _, ?_⟩
  have hsorted := @List.pairwise_mergeSort _ (fun u v : List α => decide (u.length ≤ v.length))
    (fun a b c hab hbc => by simp only [decide_eq_true_eq] at *; omega)
    (fun a b => by simp only [Bool.or_eq_true, decide_eq_true_eq]; omega) V
  exact hsorted.imp fun h => by simpa using h

/-- What occurs at the front and is replaced first is masked. -/
theorem leavesOn_first (hne : ∀ v ∈ y :: vs, v ≠ []) (hy : y <+: cs.map key) :
    leavesOn key (y :: vs) cs = none :: leavesOn key (y :: vs) (cs.drop y.length) := by
  have hkeys : (cs.take y.length).map key = y := by
    rw [List.map_take]
    exact (List.prefix_iff_eq_take.mp hy).symm
  have hsplit : cs.map some = (cs.take y.length).map some ++ (cs.drop y.length).map some := by
    rw [← List.map_append, List.take_append_drop]
  rw [leavesOn, hsplit, List.foldl_cons, maskOne_append (hne y (.head _)) hkeys,
    foldl_maskOne_none fun v hv => hne v (.tail _ hv)]
  rfl

omit [DecidableEq α] in
theorem take_placed (n k : ℕ) (cs : List α) : (placed n cs).take k = placed n (cs.take k) := by
  induction cs generalizing n k with
  | nil => cases k <;> rfl
  | cons c cs ih =>
    cases k with
    | zero => rfl
    | succ k => exact congrArg ((c, some n) :: ·) (ih (n + 1) k)

omit [DecidableEq α] in
/-- The items at the front are those of the occurrence that is there. -/
theorem ofOccurrence_of_mem_take (hy : y ∈ V) (hfront : y <+: text) :
    ∀ b ∈ (placed n text).take y.length, OfOccurrence V n text b := by
  rintro ⟨c, place⟩ hb
  rw [take_placed] at hb
  obtain ⟨j, hj, hplace⟩ := place_of_mem_placed hb
  rw [List.length_take] at hj
  exact ⟨j, hplace, y, hy, 0, hfront, Nat.zero_le j, by omega⟩

/-- Texts that are replaced uniformly do not occur at one place. -/
theorem Uniform.eq_of_prefix (hmarker : 0 < marker) (hne : ∀ v ∈ V, v ≠ [])
    (h : Uniform marker V n text) (hx : x ∈ V) (hy : y ∈ V) (hfx : x <+: text) (hfy : y <+: text) :
    x = y := by
  classical
  wlog hle : x.length ≤ y.length generalizing x y
  · exact (this hy hx hfy hfx (Nat.le_of_not_le hle)).symm
  by_contra hxy
  have hbegins := List.prefix_of_prefix_length_le hfx hfy hle
  have hypos := List.length_pos_iff.mpr (hne y hy)
  -- The longer one first, against an order with the shorter ones first.
  obtain ⟨vs, hvs, hsorted⟩ := exists_sorted V
  have hus : (y :: V.erase y).Perm V := (List.perm_cons_erase hy).symm
  have husne : ∀ v ∈ y :: V.erase y, v ≠ [] := fun v hv => hne v (hus.mem_iff.mp hv)
  have hfirst := @leavesOn_first _ _ _ Prod.fst (placed n text) (V.erase y) y husne
    (by rwa [map_fst_placed])
  rw [drop_placed] at hfirst
  have hshort := Cut.ofOccurrence (k := 0) (fun v hv => hv.1)
    (cut_leavesOn_of_sorted hne (fun v => hvs.mem_iff) hsorted (placed n text))
    fun c j hj => h.covers vs hvs j hj c
  have hlong := Cut.ofOccurrence (k := y.length) (fun v hv => hv)
    (cut_leavesOn husne (fun v hv => hus.mem_iff.mp hv) _)
    fun c j hj hmem => h.covers _ hus j hj c (hfirst ▸ .tail _ hmem)
  have hahead := @ofOccurrence_of_mem_take _ V text n y hy hfy
  -- Both keep the same items, and so have as many masks.
  have hsize := h.size vs hvs _ hus
  have hzero : ((placed n text).take y.length).countP
      (fun b => ¬ OfOccurrence V n text b) = 0 := by
    rw [List.countP_eq_zero]
    intro b hb
    simpa using hahead b hb
  have hsome : (leavesOn Prod.fst vs (placed n text)).countP Option.isSome =
      (leavesOn Prod.fst (y :: V.erase y) (placed n text)).countP Option.isSome := by
    rw [hfirst, List.countP_cons_of_neg (by simp), hlong.countP_isSome]
    refine hshort.countP_isSome.trans ?_
    conv_lhs => rw [Nat.add_zero, List.drop_zero, ← List.take_append_drop y.length (placed n text)]
    rw [List.countP_append, hzero, drop_placed, Nat.zero_add]
  rw [hsome, Nat.add_left_cancel_iff, hfirst, List.countP_cons_of_pos rfl] at hsize
  have hmasks := Nat.eq_of_mul_eq_mul_left hmarker hsize
  -- The first mask of the former stands for more than that of the latter.
  rw [Nat.add_zero, List.drop_zero] at hshort
  generalize hcs : placed n text = cs at hshort hmasks hahead
  generalize leavesOn Prod.fst vs cs = ts at hshort hmasks
  have hlength : cs.length = text.length := by
    rw [← hcs, ← List.length_map Prod.fst, map_fst_placed]
  have hylength := hfy.length_le
  cases hshort with
  | nil => exact absurd hlength (by rw [List.length_nil]; omega)
  | keep hc _ =>
    obtain ⟨k, hk⟩ := Nat.exists_eq_succ_of_ne_zero hypos.ne'
    exact hc (hahead _ (by rw [hk]; exact .head _))
  | @mask front cs ts hfront hR hrest =>
    have hfm : front.map Prod.fst <+: text := by
      rw [← map_fst_placed n text, hcs, List.map_append]
      exact List.prefix_append _ _
    have hshorter : front.length < y.length := by
      by_contra hnot
      have hym := hfront.2 y hy
        (List.prefix_of_prefix_length_le hfy hfm (by rw [List.length_map]; omega)).isInfix
      exact hxy ((hfront.2 x hx (hym ▸ hbegins.isInfix)).trans hym.symm)
    have hdrop : placed (n + y.length) (text.drop y.length) =
        cs.drop (y.length - front.length) := by
      rw [← drop_placed, hcs, List.drop_append, List.drop_eq_nil_of_le hshorter.le, List.nil_append]
    rw [hdrop] at hlong hmasks
    rw [List.length_append] at hlength
    have hcount := hrest.count_le (fun m hm => ⟨hne m hm.1, hm.2⟩) hne
      (d := y.length - front.length) (fun b hb => hahead b (by
        rw [List.take_append]
        exact List.mem_append_right _ hb)) (by omega) hlong
    rw [List.countP_cons_of_pos rfl] at hmasks
    omega

/-- An occurrence leaves a mask, not behind its place. -/
theorem none_mem_take_maskOne (hne : w ≠ []) {i : ℕ} (h : OccursAt w i (cs.map key)) :
    none ∈ (maskOne key w (cs.map some)).take (i + 1) := by
  induction i generalizing cs with
  | zero =>
    have hbegins : w.map some <+: (cs.map some).map (Option.map key) := prefix_some_iff.mpr h
    rw [maskOne, allOn_of_found (by simpa using hne) hbegins]
    exact .head _
  | succ i ih =>
    cases cs with
    | nil => exact absurd (List.prefix_nil.mp h) hne
    | cons c cs =>
      by_cases hbegins : w.map some <+: ((c :: cs).map some).map (Option.map key)
      · rw [maskOne, allOn_of_found (by simpa using hne) hbegins]
        exact .head _
      · have hstep : maskOne key w ((c :: cs).map some) = some c :: maskOne key w (cs.map some) :=
          allOn_cons hbegins
        rw [hstep]
        exact .tail _ (ih h)

/-- An item stays in front while none of the texts begins at it. -/
theorem mem_foldl_maskOne {b : β} {ts : List (Option β)} (hne : ∀ v ∈ vs, v ≠ [])
    (hnone : ∀ v ∈ vs, ¬ v.map some <+: (some b :: ts).map (Option.map key)) :
    some b ∈ vs.foldl (fun ts v => maskOne key v ts) (some b :: ts) := by
  induction vs generalizing ts with
  | nil => exact .head _
  | cons v vs ih =>
    have hstep : maskOne key v (some b :: ts) = some b :: maskOne key v ts :=
      allOn_cons (hnone v (.head _))
    rw [List.foldl_cons, hstep]
    refine ih (fun u hu => hne u (.tail _ hu)) fun u hu hbegins => hnone u (.tail _ hu) ?_
    exact @prefix_of_prefix_append_maskOne _ _ _ key u v (hne v (.head _)) [b] ts hbegins

/-- Nor do they overlap one at the front. -/
theorem Uniform.others (hmarker : 0 < marker) (hne : ∀ v ∈ V, v ≠ [])
    (h : Uniform marker V n text) (hx : x ∈ V) (hfx : x <+: text) :
    ∀ w ∈ V, w ≠ x → ∀ i < x.length, ¬ OccursAt w i text := by
  intro w hw hwx i hi hoccurs
  have honly : ∀ v ∈ V, v <+: text → v = x := fun v hv hfv =>
    h.eq_of_prefix hmarker hne hv hx hfv hfx
  obtain ⟨a, rest, rfl⟩ : ∃ a rest, text = a :: rest := by
    refine List.exists_cons_of_ne_nil ?_
    rintro rfl
    exact hne x hx (List.prefix_nil.mp hfx)
  have hperm : (w :: V.erase w).Perm V := (List.perm_cons_erase hw).symm
  have hkeys := map_fst_placed n (a :: rest)
  have hstart : ¬ w.map some <+: ((placed n (a :: rest)).map some).map (Option.map Prod.fst) := by
    rw [prefix_some_iff, hkeys]
    exact fun hbegins => hwx (honly w hw hbegins)
  have hstep : maskOne Prod.fst w ((placed n (a :: rest)).map some) =
      some (a, some n) :: maskOne Prod.fst w ((placed (n + 1) rest).map some) := allOn_cons hstart
  refine h.covers _ hperm 0 ⟨x, hx, 0, hfx, le_rfl, ?_⟩ a ?_
  · have := List.length_pos_iff.mpr (hne x hx)
    omega
  · -- With the other one first, the item at the front is kept.
    rw [leavesOn, List.foldl_cons, hstep]
    refine mem_foldl_maskOne (fun v hv => hne v (List.mem_of_mem_erase hv)) fun v hv hfound => ?_
    rw [← hstep] at hfound
    have hbegins := prefix_of_prefix_maskOne (hne w hw) hfound
    rw [prefix_some_iff, hkeys] at hbegins
    obtain rfl := honly v (List.mem_of_mem_erase hv) hbegins
    -- The mask stands in what would have to be kept.
    have hmasked := none_mem_take_maskOne (hne w hw) (hkeys.symm ▸ hoccurs)
    obtain ⟨back, hback⟩ := hfound
    have htake := congrArg (List.take (i + 1)) hback
    rw [List.take_append_of_le_length (by rw [List.length_map]; omega), ← List.map_take,
      ← List.map_take] at htake
    have hnone : none ∈ ((v.take (i + 1)).map some : List (Option α)) := by
      rw [htake]
      exact List.mem_map.mpr ⟨none, hmasked, rfl⟩
    obtain ⟨b, -, hb⟩ := List.mem_map.mp hnone
    cases hb

theorem PicksApart.of_front (hne : ∀ v ∈ V, v ≠ []) (hx : x ∈ V) (hfront : x <+: text)
    (hothers : ∀ w ∈ V, w ≠ x → ∀ i < x.length, ¬ OccursAt w i text)
    (h : PicksApart V (text.drop x.length)) : PicksApart V text := by
  intro v hv w hw hvw i hi j hj
  rw [mem_picks_front hne hx hfront hothers hv] at hi
  rw [mem_picks_front hne hx hfront hothers hw] at hj
  rcases hi with ⟨rfl, rfl⟩ | ⟨i, hi, rfl⟩
  · rcases hj with ⟨rfl, -⟩ | ⟨j, hj, rfl⟩
    · exact absurd rfl hvw
    · exact .inl (by omega)
  · rcases hj with ⟨rfl, rfl⟩ | ⟨j, hj, rfl⟩
    · exact .inr (by omega)
    · have := h v hv w hw hvw i hi j hj
      omega

omit [DecidableEq α] in
theorem ne_nil_of_perm {vs : List (List α)} (hne : ∀ v ∈ V, v ≠ []) (hvs : vs.Perm V) :
    ∀ v ∈ vs, v ≠ [] :=
  fun v hv => hne v (hvs.mem_iff.mp hv)

/-- Whatever the order, an occurrence at the front is masked, if nothing else overlaps it. -/
theorem leavesOn_placed_front (hne : ∀ v ∈ V, v ≠ []) (hx : x ∈ V) (hfront : x <+: text)
    (hothers : ∀ w ∈ V, w ≠ x → ∀ i < x.length, ¬ OccursAt w i text) {vs : List (List α)}
    (hvs : vs.Perm V) : leavesOn Prod.fst vs (placed n text) =
      none :: leavesOn Prod.fst vs (placed (n + x.length) (text.drop x.length)) := by
  have hkeys := map_fst_placed n text
  rw [leavesOn_front (ne_nil_of_perm hne hvs) (hvs.mem_iff.mpr hx) (hkeys.symm ▸ hfront)
    (fun w hw => hkeys.symm ▸ hothers w (hvs.mem_iff.mp hw)), drop_placed]

/-- Whatever the order, an item at which nothing begins is kept. -/
theorem leavesOn_placed_cons (hne : ∀ v ∈ V, v ≠ []) {a : α}
    (hnone : ∀ x ∈ V, ¬ x <+: a :: text) {vs : List (List α)} (hvs : vs.Perm V) :
    leavesOn Prod.fst vs (placed n (a :: text)) =
      some (a, some n) :: leavesOn Prod.fst vs (placed (n + 1) text) :=
  leavesOn_cons (ne_nil_of_perm hne hvs) fun v hv => by simpa using hnone v (hvs.mem_iff.mp hv)

/-- Behind an occurrence at the front, texts are replaced uniformly as well. -/
theorem Uniform.behind_front (hne : ∀ v ∈ V, v ≠ []) (h : Uniform marker V n text) (hx : x ∈ V)
    (hfront : x <+: text) (hothers : ∀ w ∈ V, w ≠ x → ∀ i < x.length, ¬ OccursAt w i text) :
    Uniform marker V (n + x.length) (text.drop x.length) := by
  constructor
  · intro vs hvs vs' hvs'
    have hsize := h.size vs hvs vs' hvs'
    rw [leavesOn_placed_front hne hx hfront hothers hvs,
      leavesOn_placed_front hne hx hfront hothers hvs'] at hsize
    simp only [List.countP_cons, Option.isSome_none, Option.isNone_none, Nat.mul_add,
      Bool.false_eq_true, if_false, if_true] at hsize
    omega
  · rintro vs hvs j ⟨v, hv, i, hoccurs, hle, hlt⟩ c hc
    refine h.covers vs hvs (x.length + j) ⟨v, hv, x.length + i, ?_, by omega, by omega⟩ c ?_
    · exact occursAt_drop.mp hoccurs
    · rw [leavesOn_placed_front hne hx hfront hothers hvs, ← Nat.add_assoc]
      exact .tail _ hc

/-- So they are behind an item at which nothing begins. -/
theorem Uniform.behind_cons (hne : ∀ v ∈ V, v ≠ []) {a : α}
    (h : Uniform marker V n (a :: text)) (hnone : ∀ x ∈ V, ¬ x <+: a :: text) :
    Uniform marker V (n + 1) text := by
  constructor
  · intro vs hvs vs' hvs'
    have hsize := h.size vs hvs vs' hvs'
    rw [leavesOn_placed_cons hne hnone hvs, leavesOn_placed_cons hne hnone hvs'] at hsize
    simp only [List.countP_cons, Option.isSome_some, Option.isNone_some,
      Bool.false_eq_true, if_false, if_true, Nat.add_zero] at hsize
    omega
  · rintro vs hvs j ⟨v, hv, i, hoccurs, hle, hlt⟩ c hc
    refine h.covers vs hvs (j + 1) ⟨v, hv, i + 1, hoccurs, by omega, by omega⟩ c ?_
    rw [leavesOn_placed_cons hne hnone hvs, show n + (j + 1) = n + 1 + j by omega]
    exact .tail _ hc

/-- Where texts are replaced uniformly, the occurrences that are picked do not overlap, and cover
all. -/
theorem Uniform.pickedApart (hmarker : 0 < marker) (hne : ∀ v ∈ V, v ≠ [])
    (h : Uniform marker V n text) : PickedApart V text := by
  induction hlen : text.length using Nat.strong_induction_on generalizing text n with
  | _ l ih =>
    cases text with
    | nil =>
      refine ⟨fun v _ w _ _ i hi => (by cases hi), fun v hv i hoccurs => ?_⟩
      rw [OccursAt, List.drop_nil] at hoccurs
      exact absurd (List.prefix_nil.mp hoccurs) (hne v hv)
    | cons a text =>
      by_cases hfirst : ∃ x ∈ V, x <+: a :: text
      · obtain ⟨x, hx, hfront⟩ := hfirst
        have hothers := h.others hmarker hne hx hfront
        have hpos := List.length_pos_iff.mpr (hne x hx)
        have hlength := hfront.length_le
        have hsuffix := ih _ (by rw [← hlen, List.length_drop]; omega)
          (h.behind_front hne hx hfront hothers) rfl
        refine ⟨hsuffix.apart.of_front hne hx hfront hothers, fun v hv i hoccurs j hle hlt => ?_⟩
        rw [covered_front hne hx hfront hothers]
        rcases Nat.lt_or_ge j x.length with hin | hbehind
        · exact .inl hin
        · obtain ⟨k, rfl⟩ := Nat.exists_eq_add_of_le' hbehind
          refine .inr ⟨k, rfl, ?_⟩
          -- What is not covered would be kept.
          by_contra hnot
          have hoccurslen := hoccurs.length_le
          rw [List.length_drop] at hoccurslen
          obtain ⟨c, hc⟩ := (mem_mask_placed_iff hne hsuffix.apart (n := n + x.length)).mpr
            ⟨by rw [List.length_drop]; omega, hnot⟩
          rw [← leavesOn_eq_mask hne (by rw [map_fst_placed]; exact hsuffix.apart)
            (fun _ => Iff.rfl)] at hc
          refine h.covers V (.refl V) (k + x.length) ⟨v, hv, i, hoccurs, hle, hlt⟩ c ?_
          rw [leavesOn_placed_front hne hx hfront hothers (.refl V),
            show n + (k + x.length) = n + x.length + k by omega]
          exact .tail _ hc
      · push Not at hfirst
        have hsuffix := ih _ (by rw [← hlen]; exact Nat.lt_succ_self _)
          (h.behind_cons hne hfirst) rfl
        refine ⟨(picksApart_cons hfirst).mpr hsuffix.apart, fun v hv i hoccurs j hle hlt => ?_⟩
        cases i with
        | zero => exact absurd hoccurs (hfirst v hv)
        | succ i =>
          obtain ⟨j, rfl⟩ := Nat.exists_eq_succ_of_ne_zero (by omega : j ≠ 0)
          exact (covered_cons hfirst).mpr
            (hsuffix.covers v hv i hoccurs j (by omega) (by omega))

/-- **When several texts are replaced uniformly**: exactly where the occurrences that are picked of
different texts do not overlap, and cover every occurrence. -/
theorem uniform_iff (hmarker : 0 < marker) (hne : ∀ v ∈ V, v ≠ []) :
    Uniform marker V n text ↔ PickedApart V text := by
  refine ⟨fun h => h.pickedApart hmarker hne, fun h => ⟨fun vs hvs vs' hvs' => ?_, ?_⟩⟩
  · rw [leavesOn_eq_mask hne (by rw [map_fst_placed]; exact h.apart) fun v => hvs.mem_iff,
      leavesOn_eq_mask hne (by rw [map_fst_placed]; exact h.apart) fun v => hvs'.mem_iff]
  · rintro vs hvs j ⟨v, hv, i, hoccurs, hle, hlt⟩ c hc
    rw [leavesOn_eq_mask hne (by rw [map_fst_placed]; exact h.apart) fun v => hvs.mem_iff] at hc
    exact ((mem_mask_placed_iff hne h.apart).mp ⟨c, hc⟩).2 (h.covers v hv i hoccurs j hle hlt)

end Replace
