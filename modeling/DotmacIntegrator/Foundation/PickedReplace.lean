import DotmacIntegrator.Foundation.MarkedReplace

/-!
# The occurrences that are replaced

Of the occurrences of a text, replacing it picks the first, then the first behind that, and so on.
Several texts are replaced by one marker, one after the other. Where the occurrences that are picked
of different texts do not overlap, every order masks them all.

The items of a text carry their places, so that what is left of an occurrence can be named.

## Main definitions

* `Replace.picks`: the places of the occurrences that are replaced
* `Replace.PicksApart`, `Replace.Covered`: those of different texts do not overlap; what they cover
* `Replace.PickedApart`: and cover every occurrence
* `Replace.leavesOn`: what several replacements leave

## Main results

* `mem_mask_placed_iff`: what is kept, where every text is masked
* `leavesOn_eq_mask`: every order masks the same
-/

namespace Replace

variable {α β : Type*} [DecidableEq α] {key : β → α} {old u v w x : List α} {cs : List β} {c : β}
  {V vs : List (List α)} {text : List α}

/-! ### Picked occurrences -/

/-- The places of the occurrences that are replaced, after `skip` items that belong to the last
one. -/
def pickFrom (old : List α) : ℕ → List α → List ℕ
  | _, [] => []
  | skip + 1, _ :: cs => (pickFrom old skip cs).map (· + 1)
  | 0, c :: cs =>
    if old <+: c :: cs then 0 :: (pickFrom old (old.length - 1) cs).map (· + 1)
    else (pickFrom old 0 cs).map (· + 1)

/-- The places of the occurrences that are replaced. -/
def picks (old cs : List α) : List ℕ := pickFrom old 0 cs

@[simp] theorem picks_nil : picks old [] = [] := rfl

theorem pickFrom_eq_map (k : ℕ) (cs : List α) :
    pickFrom old k cs = (picks old (cs.drop k)).map (· + k) := by
  induction cs generalizing k with
  | nil => cases k <;> rfl
  | cons c cs ih =>
    cases k with
    | zero => exact (List.map_id _).symm
    | succ k =>
      rw [pickFrom, ih k, List.map_map]
      rfl

theorem picks_of_found {cs : List α} (hne : old ≠ []) (h : old <+: cs) :
    picks old cs = 0 :: (picks old (cs.drop old.length)).map (· + old.length) := by
  cases cs with
  | nil => exact absurd (List.prefix_nil.mp h) hne
  | cons c cs =>
    obtain ⟨n, hn⟩ : ∃ n, old.length = n + 1 :=
      Nat.exists_eq_succ_of_ne_zero (fun h => hne (List.length_eq_zero_iff.mp h))
    rw [picks, pickFrom, if_pos h, pickFrom_eq_map, hn, List.map_map]
    rfl

theorem picks_cons {c : α} {cs : List α} (h : ¬ old <+: c :: cs) :
    picks old (c :: cs) = (picks old cs).map (· + 1) := by
  rw [picks, pickFrom, if_neg h]
  rfl

/-- What is picked occurs. -/
theorem occursAt_of_mem_picks {i : ℕ} {cs : List α} (h : i ∈ picks old cs) :
    OccursAt old i cs := by
  have hfrom : ∀ (cs : List α) (k i : ℕ), i ∈ pickFrom old k cs → OccursAt old i cs := by
    intro cs
    induction cs with
    | nil => intro k i h; cases k <;> cases h
    | cons c cs ih =>
      intro k i h
      cases k with
      | succ k =>
        obtain ⟨j, hj, rfl⟩ := List.mem_map.mp h
        exact ih k j hj
      | zero =>
        rw [pickFrom] at h
        split_ifs at h with hprefix
        · rcases List.mem_cons.mp h with rfl | hmem
          · exact hprefix
          · obtain ⟨j, hj, rfl⟩ := List.mem_map.mp hmem
            exact ih _ j hj
        · obtain ⟨j, hj, rfl⟩ := List.mem_map.mp h
          exact ih 0 j hj
  exact hfrom cs 0 i h

/-- Items at which nothing occurs are passed over. -/
theorem picks_eq_map_drop {n : ℕ} {cs : List α} (h : ∀ i < n, ¬ OccursAt old i cs) :
    picks old cs = (picks old (cs.drop n)).map (· + n) := by
  induction n generalizing cs with
  | zero => exact (List.map_id _).symm
  | succ n ih =>
    cases cs with
    | nil => rfl
    | cons c cs =>
      rw [picks_cons (h 0 (Nat.succ_pos n)), ih fun i hi => h (i + 1) (Nat.succ_lt_succ hi),
        List.map_map]
      rfl

/-- The first occurrence is picked. -/
theorem exists_picks_le {i : ℕ} {cs : List α} (hne : old ≠ []) (h : OccursAt old i cs) :
    ∃ q ∈ picks old cs, q ≤ i := by
  classical
  have hex : ∃ q, OccursAt old q cs := ⟨i, h⟩
  refine ⟨Nat.find hex, ?_, Nat.find_min' hex h⟩
  rw [picks_eq_map_drop fun q hq => Nat.find_min hex hq, picks_of_found hne (Nat.find_spec hex)]
  exact List.mem_map.mpr ⟨0, .head _, Nat.zero_add _⟩

/-! ### Picked occurrences that do not overlap -/

/-- The picked occurrences of different texts do not overlap. -/
def PicksApart (V : List (List α)) (text : List α) : Prop :=
  ∀ v ∈ V, ∀ w ∈ V, v ≠ w → ∀ i ∈ picks v text, ∀ j ∈ picks w text,
    i + v.length ≤ j ∨ j + w.length ≤ i

/-- A place is covered by a picked occurrence. -/
def Covered (V : List (List α)) (text : List α) (j : ℕ) : Prop :=
  ∃ v ∈ V, ∃ k ∈ picks v text, k ≤ j ∧ j < k + v.length

/-- The picked occurrences of different texts do not overlap, and the picked ones cover every
occurrence. -/
structure PickedApart (V : List (List α)) (text : List α) : Prop where
  apart : PicksApart V text
  covers : ∀ v ∈ V, ∀ i, OccursAt v i text → ∀ j, i ≤ j → j < i + v.length → Covered V text j

/-- No other text occurs in the one at the front. -/
theorem PicksApart.front (h : PicksApart V text) (hne : ∀ v ∈ V, v ≠ []) (hx : x ∈ V)
    (hfront : x <+: text) : ∀ w ∈ V, w ≠ x → ∀ i < x.length, ¬ OccursAt w i text := by
  intro w hw hwx i hi hoccurs
  obtain ⟨q, hq, hle⟩ := exists_picks_le (hne w hw) hoccurs
  have hzero : 0 ∈ picks x text := by
    rw [picks_of_found (hne x hx) hfront]
    exact .head _
  have hpos := List.length_pos_iff.mpr (hne w hw)
  rcases h x hx w hw (Ne.symm hwx) 0 hzero q hq with hbefore | hafter <;> omega

/-- Behind the text at the front, what is picked is picked. -/
theorem mem_picks_front (hne : ∀ v ∈ V, v ≠ []) (hx : x ∈ V) (hfront : x <+: text)
    (hothers : ∀ w ∈ V, w ≠ x → ∀ i < x.length, ¬ OccursAt w i text) (hv : v ∈ V) {i : ℕ} :
    i ∈ picks v text ↔
      v = x ∧ i = 0 ∨ ∃ k ∈ picks v (text.drop x.length), i = k + x.length := by
  by_cases hvx : v = x
  · subst hvx
    rw [picks_of_found (hne v hv) hfront, List.mem_cons, List.mem_map]
    simp only [true_and, eq_comm]
  · rw [picks_eq_map_drop (hothers v hv hvx), List.mem_map]
    simp only [hvx, false_and, false_or, eq_comm]

theorem PicksApart.drop (h : PicksApart V text) (hne : ∀ v ∈ V, v ≠ []) (hx : x ∈ V)
    (hfront : x <+: text) : PicksApart V (text.drop x.length) := by
  have hpicked := fun v (hv : v ∈ V) i =>
    @mem_picks_front α _ v x V text hne hx hfront (h.front hne hx hfront) hv i
  intro v hv w hw hvw i hi j hj
  have := h v hv w hw hvw (i + x.length) ((hpicked v hv _).mpr (.inr ⟨i, hi, rfl⟩))
    (j + x.length) ((hpicked w hw _).mpr (.inr ⟨j, hj, rfl⟩))
  omega

theorem picksApart_cons {c : α} (hnone : ∀ v ∈ V, ¬ v <+: c :: text) :
    PicksApart V (c :: text) ↔ PicksApart V text := by
  have hpicked : ∀ v ∈ V, picks v (c :: text) = (picks v text).map (· + 1) := fun v hv =>
    picks_cons (hnone v hv)
  constructor
  · intro h v hv w hw hvw i hi j hj
    have := h v hv w hw hvw (i + 1) (hpicked v hv ▸ List.mem_map_of_mem hi)
      (j + 1) (hpicked w hw ▸ List.mem_map_of_mem hj)
    omega
  · intro h v hv w hw hvw i hi j hj
    rw [hpicked v hv] at hi
    rw [hpicked w hw] at hj
    obtain ⟨i, hi', rfl⟩ := List.mem_map.mp hi
    obtain ⟨j, hj', rfl⟩ := List.mem_map.mp hj
    have := h v hv w hw hvw i hi' j hj'
    omega

theorem covered_cons {c : α} (hnone : ∀ v ∈ V, ¬ v <+: c :: text) {j : ℕ} :
    Covered V (c :: text) (j + 1) ↔ Covered V text j := by
  constructor
  · rintro ⟨v, hv, k, hk, hle, hlt⟩
    rw [picks_cons (hnone v hv)] at hk
    obtain ⟨k, hk', rfl⟩ := List.mem_map.mp hk
    exact ⟨v, hv, k, hk', by omega, by omega⟩
  · rintro ⟨v, hv, k, hk, hle, hlt⟩
    refine ⟨v, hv, k + 1, ?_, by omega, by omega⟩
    rw [picks_cons (hnone v hv)]
    exact List.mem_map_of_mem hk

theorem not_covered_cons_zero {c : α} (hnone : ∀ v ∈ V, ¬ v <+: c :: text) :
    ¬ Covered V (c :: text) 0 := by
  rintro ⟨v, hv, k, hk, hle, -⟩
  obtain rfl := Nat.le_zero.mp hle
  exact hnone v hv (occursAt_of_mem_picks hk)

/-- Behind the text at the front, what is covered is covered. -/
theorem covered_front (hne : ∀ v ∈ V, v ≠ []) (hx : x ∈ V) (hfront : x <+: text)
    (hothers : ∀ w ∈ V, w ≠ x → ∀ i < x.length, ¬ OccursAt w i text) {j : ℕ} :
    Covered V text j ↔
      j < x.length ∨ ∃ k, j = k + x.length ∧ Covered V (text.drop x.length) k := by
  have hpicked := fun v (hv : v ∈ V) i =>
    @mem_picks_front α _ v x V text hne hx hfront hothers hv i
  constructor
  · rintro ⟨v, hv, k, hk, hle, hlt⟩
    rcases (hpicked v hv k).mp hk with ⟨rfl, rfl⟩ | ⟨i, hi, rfl⟩
    · exact .inl (by omega)
    · exact .inr ⟨j - x.length, by omega, v, hv, i, hi, by omega, by omega⟩
  · rintro (hlt | ⟨k, rfl, v, hv, i, hi, hle, hlt⟩)
    · exact ⟨x, hx, 0, (hpicked x hx 0).mpr (.inl ⟨rfl, rfl⟩), Nat.zero_le j, by omega⟩
    · exact ⟨v, hv, _, (hpicked v hv _).mpr (.inr ⟨i, hi, rfl⟩), by omega, by omega⟩

/-! ### Places -/

/-- The items of a text, with their places. -/
def placed : ℕ → List α → List (α × Option ℕ)
  | _, [] => []
  | n, c :: cs => (c, some n) :: placed (n + 1) cs

omit [DecidableEq α] in
@[simp] theorem map_fst_placed (n : ℕ) (cs : List α) : (placed n cs).map Prod.fst = cs := by
  induction cs generalizing n with
  | nil => rfl
  | cons c cs ih => exact congrArg (c :: ·) (ih (n + 1))

omit [DecidableEq α] in
theorem drop_placed (n k : ℕ) (cs : List α) :
    (placed n cs).drop k = placed (n + k) (cs.drop k) := by
  induction cs generalizing n k with
  | nil => cases k <;> rfl
  | cons c cs ih =>
    cases k with
    | zero => rfl
    | succ k =>
      have := ih (n + 1) k
      rw [Nat.add_right_comm] at this
      exact this

omit [DecidableEq α] in
theorem place_of_mem_placed {n : ℕ} {cs : List α} {c : α} {place : Option ℕ}
    (h : (c, place) ∈ placed n cs) : ∃ j < cs.length, place = some (n + j) := by
  induction cs generalizing n with
  | nil => cases h
  | cons a cs ih =>
    rcases List.mem_cons.mp h with heq | hmem
    · exact ⟨0, Nat.succ_pos _, (Prod.mk.inj heq).2⟩
    · obtain ⟨j, hj, hplace⟩ := ih hmem
      exact ⟨j + 1, Nat.succ_lt_succ hj, by rw [hplace]; congr 1; omega⟩

/-- **What is kept, where every text is masked**: the items that are not covered. -/
theorem mem_mask_placed_iff (hne : ∀ v ∈ V, v ≠ []) (h : PicksApart V text) {n j : ℕ} :
    (∃ c, some (c, some (n + j)) ∈ mask Prod.fst V (placed n text)) ↔
      j < text.length ∧ ¬ Covered V text j := by
  induction hlen : text.length using Nat.strong_induction_on generalizing text n j with
  | _ l ih =>
    -- What is masked of a rest has the places of the rest.
    have hplace : ∀ {m : ℕ} {rest : List α} {c : α} {p : ℕ},
        some (c, some p) ∈ mask Prod.fst V (placed m rest) → m ≤ p := by
      intro m rest c p hmem
      obtain ⟨k, -, heq⟩ := place_of_mem_placed (mem_of_mem_mask hmem)
      have := Option.some.inj heq
      omega
    cases text with
    | nil => simp [← hlen, placed]
    | cons a text =>
      have hkeys := map_fst_placed n (a :: text)
      by_cases hfirst : ∃ x ∈ V, x <+: a :: text
      · obtain ⟨x, hx, hfront⟩ := hfirst
        have hothers := h.front hne hx hfront
        have hpos := List.length_pos_iff.mpr (hne x hx)
        have honly : ∀ w ∈ V, w <+: (placed n (a :: text)).map Prod.fst → w = x := by
          intro w hw hprefix
          by_contra hwx
          exact hothers w hw hwx 0 hpos (hkeys ▸ hprefix)
        have hmask : mask Prod.fst V (placed n (a :: text)) =
            none :: mask Prod.fst V (placed (n + x.length) ((a :: text).drop x.length)) := by
          rw [mask_of_found (hne x hx) hx (hkeys.symm ▸ hfront) honly, drop_placed]
        rw [hmask, covered_front hne hx hfront hothers]
        simp only [List.mem_cons, reduceCtorEq, false_or]
        have hlength := hfront.length_le
        rcases Nat.lt_or_ge j x.length with hlt | hge
        · -- The occurrence at the front keeps nothing.
          refine iff_of_false ?_ (by simp [hlt])
          rintro ⟨c, hc⟩
          have := hplace hc
          omega
        · obtain ⟨k, rfl⟩ := Nat.exists_eq_add_of_le' hge
          have hrest := @ih _ (by rw [← hlen, List.length_drop]; omega) _
            (h.drop hne hx hfront) (n + x.length) k rfl
          rw [show n + (k + x.length) = n + x.length + k by omega, hrest, List.length_drop]
          refine and_congr ?_ (not_congr ⟨fun hcovered => .inr ⟨k, rfl, hcovered⟩, ?_⟩)
          · omega
          · rintro (hlt | ⟨i, hi, hcovered⟩)
            · omega
            · rwa [show k = i by omega]
      · push Not at hfirst
        have hnone : ∀ v ∈ V, ¬ v <+: ((a, some n) :: placed (n + 1) text).map Prod.fst := by
          simpa using hfirst
        rw [placed, mask_cons hnone]
        cases j with
        | zero =>
          exact iff_of_true ⟨a, .head _⟩ ⟨hlen ▸ Nat.succ_pos _, not_covered_cons_zero hfirst⟩
        | succ j =>
          have hrest := @ih _ (by rw [← hlen]; exact Nat.lt_succ_self _) text
            ((picksApart_cons hfirst).mp h) (n + 1) j rfl
          rw [covered_cons hfirst, ← hlen, List.length_cons, Nat.succ_lt_succ_iff, ← hrest,
            show n + (j + 1) = n + 1 + j by omega]
          refine exists_congr fun c => ?_
          rw [List.mem_cons, or_iff_right]
          intro heq
          have := (Prod.mk.inj (Option.some.inj heq)).2
          have := Option.some.inj this
          omega

/-! ### What several replacements leave -/

/-- What begins with kept items, when one text was masked, began with them. -/
theorem prefix_of_prefix_maskOne (hne : w ≠ []) {ts : List (Option β)}
    (h : u.map some <+: (maskOne key w ts).map (Option.map key)) :
    u.map some <+: ts.map (Option.map key) := by
  induction ts using tokens_induction key hne generalizing u with
  | nil => exact h
  | found front rest hkeys ih =>
    rw [maskOne_append hne hkeys] at h
    cases u with
    | nil => exact List.nil_prefix
    | cons a u => cases (List.cons_prefix_cons.mp h).1
  | kept t ts hstart ih =>
    rw [maskOne, allOn_cons hstart] at h
    cases u with
    | nil => exact List.nil_prefix
    | cons a u =>
      obtain ⟨ha, hu⟩ := List.cons_prefix_cons.mp h
      exact List.cons_prefix_cons.mpr ⟨ha, ih hu⟩

/-- And so behind items that are kept. -/
theorem prefix_of_prefix_append_maskOne (hne : w ≠ []) {front : List β} {ts : List (Option β)}
    (h : u.map some <+: (front.map some ++ maskOne key w ts).map (Option.map key)) :
    u.map some <+: (front.map some ++ ts).map (Option.map key) := by
  induction front generalizing u with
  | nil => exact prefix_of_prefix_maskOne hne h
  | cons c front ih =>
    cases u with
    | nil => exact List.nil_prefix
    | cons a u =>
      obtain ⟨ha, hu⟩ := List.cons_prefix_cons.mp h
      exact List.cons_prefix_cons.mpr ⟨ha, ih hu⟩

/-- Items at which no text occurs are kept. -/
theorem foldl_maskOne_kept {front : List β} {ts : List (Option β)} (hne : ∀ v ∈ vs, v ≠ [])
    (h : ∀ w ∈ vs, ∀ k < front.length,
      ¬ w.map some <+: ((front.drop k).map some ++ ts).map (Option.map key)) :
    vs.foldl (fun ts v => maskOne key v ts) (front.map some ++ ts) =
      front.map some ++ vs.foldl (fun ts v => maskOne key v ts) ts := by
  induction vs generalizing ts with
  | nil => rfl
  | cons v vs ih =>
    have hstep : maskOne key v (front.map some ++ ts) = front.map some ++ maskOne key v ts := by
      refine allOn_append fun k hk => ?_
      rw [List.length_map] at hk
      rw [← List.map_drop]
      exact h v (.head _) k hk
    rw [List.foldl_cons, List.foldl_cons, hstep,
      ih (fun w hw => hne w (.tail _ hw)) fun w hw k hk hprefix => ?_]
    exact h w (.tail _ hw) k hk (prefix_of_prefix_append_maskOne (hne v (.head _)) hprefix)

/-- A mask stays. -/
theorem foldl_maskOne_none (hne : ∀ v ∈ vs, v ≠ []) (ts : List (Option β)) :
    vs.foldl (fun ts v => maskOne key v ts) (none :: ts) =
      none :: vs.foldl (fun ts v => maskOne key v ts) ts := by
  induction vs generalizing ts with
  | nil => rfl
  | cons v vs ih =>
    rw [List.foldl_cons, List.foldl_cons, maskOne_none (hne v (.head _)),
      ih fun w hw => hne w (.tail _ hw)]

/-- An occurrence at the front, in which no other text occurs, is masked. -/
theorem foldl_maskOne_front {front : List β} {ts : List (Option β)} (hne : ∀ v ∈ vs, v ≠ [])
    (hfront : front.map key = x) (hx : x ∈ vs)
    (h : ∀ w ∈ vs, w ≠ x → ∀ k < front.length,
      ¬ w.map some <+: ((front.drop k).map some ++ ts).map (Option.map key)) :
    vs.foldl (fun ts v => maskOne key v ts) (front.map some ++ ts) =
      none :: vs.foldl (fun ts v => maskOne key v ts) ts := by
  induction vs generalizing ts with
  | nil => cases hx
  | cons v vs ih =>
    have hvne := hne v (.head _)
    rw [List.foldl_cons, List.foldl_cons]
    by_cases hvx : v = x
    · rw [maskOne_append hvne (hfront.trans hvx.symm),
        foldl_maskOne_none fun w hw => hne w (.tail _ hw)]
    · have hstep : maskOne key v (front.map some ++ ts) = front.map some ++ maskOne key v ts := by
        refine allOn_append fun k hk => ?_
        rw [List.length_map] at hk
        rw [← List.map_drop]
        exact h v (.head _) hvx k hk
      rw [hstep]
      refine ih (fun w hw => hne w (.tail _ hw))
        ((List.mem_cons.mp hx).resolve_left (Ne.symm hvx)) fun w hw hwx k hk hprefix => ?_
      exact h w (.tail _ hw) hwx k hk (prefix_of_prefix_append_maskOne hvne hprefix)

variable (key) in
/-- What a sequence of replacements leaves of items. -/
def leavesOn (vs : List (List α)) (cs : List β) : List (Option β) :=
  vs.foldl (fun ts v => maskOne key v ts) (cs.map some)

/-- What it leaves of an item at which no text occurs. -/
theorem leavesOn_cons (hne : ∀ v ∈ vs, v ≠ []) (hnone : ∀ v ∈ vs, ¬ v <+: (c :: cs).map key) :
    leavesOn key vs (c :: cs) = some c :: leavesOn key vs cs := by
  refine @foldl_maskOne_kept _ _ _ key vs [c] (cs.map some) hne fun w hw k hk hprefix =>
    hnone w hw ?_
  obtain rfl := Nat.lt_one_iff.mp hk
  exact (@prefix_some_iff _ _ key w (c :: cs)).mp hprefix

/-- What it leaves of an occurrence at the front, in which no other text occurs. -/
theorem leavesOn_front (hne : ∀ v ∈ vs, v ≠ []) (hx : x ∈ vs) (hfront : x <+: cs.map key)
    (hothers : ∀ w ∈ vs, w ≠ x → ∀ i < x.length, ¬ OccursAt w i (cs.map key)) :
    leavesOn key vs cs = none :: leavesOn key vs (cs.drop x.length) := by
  have hkeys : (cs.take x.length).map key = x := by
    rw [List.map_take]
    exact (List.prefix_iff_eq_take.mp hfront).symm
  have hlength : (cs.take x.length).length = x.length := by
    rw [← List.length_map key, hkeys]
  have hsplit : cs.map some = (cs.take x.length).map some ++ (cs.drop x.length).map some := by
    rw [← List.map_append, List.take_append_drop]
  rw [leavesOn, hsplit]
  refine foldl_maskOne_front hne hkeys hx fun w hw hwx k hk hprefix => ?_
  rw [hlength] at hk
  refine hothers w hw hwx k hk ?_
  rw [← List.map_append, prefix_some_iff] at hprefix
  have hdrop : (cs.take x.length).drop k ++ cs.drop x.length = cs.drop k := by
    rw [← List.drop_append_of_le_length (by omega), List.take_append_drop]
  rw [OccursAt, ← List.map_drop, ← hdrop]
  exact hprefix

/-- **Every order masks the same**, where the picked occurrences of different texts do not
overlap. -/
theorem leavesOn_eq_mask (hne : ∀ v ∈ V, v ≠ []) (h : PicksApart V (cs.map key))
    (hmem : ∀ v, v ∈ vs ↔ v ∈ V) : leavesOn key vs cs = mask key V cs := by
  have hne' : ∀ v ∈ vs, v ≠ [] := fun v hv => hne v ((hmem v).mp hv)
  induction hlen : cs.length using Nat.strong_induction_on generalizing cs with
  | _ l ih =>
    cases cs with
    | nil =>
      have hnil : ∀ vs : List (List α),
          vs.foldl (fun ts v => maskOne key v ts) ([] : List (Option β)) = [] := by
        intro vs
        induction vs with
        | nil => rfl
        | cons v vs ih => exact ih
      exact hnil vs
    | cons c cs =>
      by_cases hfirst : ∃ x ∈ V, x <+: (c :: cs).map key
      · obtain ⟨x, hx, hfront⟩ := hfirst
        have hothers := h.front hne hx hfront
        have hpos := List.length_pos_iff.mpr (hne x hx)
        have hlength := hfront.length_le
        rw [leavesOn_front hne' ((hmem x).mpr hx) hfront fun w hw => hothers w ((hmem w).mp hw),
          mask_of_found (hne x hx) hx hfront fun w hw hprefix => ?_]
        · refine congrArg (none :: ·) (ih _ ?_ ?_ rfl)
          · rw [List.length_drop, ← hlen]
            rw [List.length_map] at hlength
            omega
          · rw [List.map_drop]
            exact h.drop hne hx hfront
        · by_contra hwx
          exact hothers w hw hwx 0 hpos hprefix
      · push Not at hfirst
        rw [leavesOn_cons hne' fun v hv => hfirst v ((hmem v).mp hv), mask_cons hfirst]
        refine congrArg (some c :: ·) (ih _ (by rw [← hlen]; exact Nat.lt_succ_self _) ?_ rfl)
        exact (picksApart_cons hfirst).mp h

end Replace
