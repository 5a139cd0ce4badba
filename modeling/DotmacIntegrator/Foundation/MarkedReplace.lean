import DotmacIntegrator.Foundation.TextReplace

/-!
# Replacing many texts, one after the other

Several texts are replaced by one marker, each in what the ones before it left. Where none of them
reaches into a marker, each is looked for between the markers: what is left is the text with one
after the other masked, and the marker put in for the masks.

The items of a text may carry more than the text itself, such as the place they came from; what is
looked for are their keys.

## Main definitions

* `Replace.allOn`: every occurrence of a text replaced, in items that have keys
* `Replace.OccursAt`, `Replace.Clear`: occurrences, and that those of two texts do not overlap
* `Replace.mask`, `Replace.unmask`: items with every occurrence masked, and with the marker put in

## Main results

* `allOn_unmask`, `allOn_unmask_of_kept`: a text that does not reach into a marker, in any text or
  in this one, is looked for between the markers
* `foldl_allOn_unmask`: a sequence of replacements masks one text after the other
-/

/-- What is a permutation of an image is the image of a permutation. -/
theorem List.exists_perm_map_eq {α β : Type*} {f : α → β} {l : List α} {vs : List β}
    (h : vs.Perm (l.map f)) : ∃ l' : List α, l'.Perm l ∧ l'.map f = vs := by
  induction vs generalizing l with
  | nil =>
    obtain rfl := List.map_eq_nil_iff.mp (List.nil_perm.mp h)
    exact ⟨[], .nil, rfl⟩
  | cons v vs ih =>
    obtain ⟨a, ha, rfl⟩ := List.mem_map.mp (h.subset (.head _))
    obtain ⟨front, back, rfl⟩ := List.append_of_mem ha
    have hmiddle : ((front ++ a :: back).map f).Perm (f a :: (front ++ back).map f) := by
      rw [List.map_append, List.map_cons, List.map_append]
      exact List.perm_middle
    obtain ⟨l', hl', rfl⟩ := ih (List.perm_cons (f a) |>.mp (h.trans hmiddle))
    exact ⟨a :: l', (hl'.cons a).trans List.perm_middle.symm, rfl⟩

namespace Replace

variable {α β : Type*} [DecidableEq α] (key : β → α)

/-- Every occurrence of `old` among the keys replaced by `new`, after `skip` items that belong to
the last one. -/
def scanOn (old : List α) (new : List β) : ℕ → List β → List β
  | _, [] => []
  | skip + 1, _ :: cs => scanOn old new skip cs
  | 0, c :: cs =>
    if old <+: (c :: cs).map key then new ++ scanOn old new (old.length - 1) cs
    else c :: scanOn old new 0 cs

/-- Every occurrence of `old`, which is not empty, replaced by `new`. -/
def allOn (old : List α) (new cs : List β) : List β := scanOn key old new 0 cs

/-- `v` occurs at a place. -/
def OccursAt (v : List α) (i : ℕ) (cs : List α) : Prop := v <+: cs.drop i

/-- No occurrence of `v` overlaps one of `w`, unless it is the same. -/
def Clear (v w cs : List α) : Prop :=
  ∀ i j, OccursAt v i cs → OccursAt w j cs →
    i = j ∧ v = w ∨ i + v.length ≤ j ∨ j + w.length ≤ i

/-- Every occurrence of a text masked, after `skip` items that belong to the last one. -/
def maskFrom (V : List (List α)) : ℕ → List β → List (Option β)
  | _, [] => []
  | skip + 1, _ :: cs => maskFrom V skip cs
  | 0, c :: cs =>
    match V.find? fun v => v <+: (c :: cs).map key with
    | some v => none :: maskFrom V (v.length - 1) cs
    | none => some c :: maskFrom V 0 cs

/-- Every occurrence of a text masked. -/
def mask (V : List (List α)) (cs : List β) : List (Option β) := maskFrom key V 0 cs

omit [DecidableEq α] in
/-- The marker, put in for every mask. -/
def unmask (new : List β) (ts : List (Option β)) : List β := ts.flatMap fun
  | none => new
  | some c => [c]

/-- One text masked, in what is masked already. -/
def maskOne (w : List α) (ts : List (Option β)) : List (Option β) :=
  allOn (Option.map key) (w.map some) [none] ts

variable {key} {old v w : List α} {new cs : List β} {c : β} {V : List (List α)}

/-! ### Replacing, item by item -/

theorem scanOn_eq_drop (k : ℕ) (cs : List β) :
    scanOn key old new k cs = allOn key old new (cs.drop k) := by
  induction cs generalizing k with
  | nil => cases k <;> rfl
  | cons c cs ih =>
    cases k with
    | zero => rfl
    | succ k => exact ih k

@[simp] theorem allOn_nil : allOn key old new [] = [] := rfl

/-- Behind an occurrence, replacing goes on. -/
theorem allOn_of_found (hne : old ≠ []) (h : old <+: cs.map key) :
    allOn key old new cs = new ++ allOn key old new (cs.drop old.length) := by
  cases cs with
  | nil => exact absurd (List.prefix_nil.mp h) hne
  | cons c cs =>
    obtain ⟨n, hn⟩ : ∃ n, old.length = n + 1 :=
      Nat.exists_eq_succ_of_ne_zero (fun h => hne (List.length_eq_zero_iff.mp h))
    rw [allOn, scanOn, if_pos h, scanOn_eq_drop, hn]
    rfl

/-- An occurrence is replaced, and replacing goes on behind it. -/
theorem allOn_append_of_map_eq {front rest : List β} (hne : old ≠ []) (h : front.map key = old) :
    allOn key old new (front ++ rest) = new ++ allOn key old new rest := by
  rw [allOn_of_found hne]
  · rw [← h, List.length_map, List.drop_left]
  · rw [List.map_append, h]
    exact List.prefix_append _ _

/-- An item at which nothing occurs is kept. -/
theorem allOn_cons (h : ¬ old <+: (c :: cs).map key) :
    allOn key old new (c :: cs) = c :: allOn key old new cs := by
  rw [allOn, scanOn, if_neg h]
  rfl

/-- Items at which nothing occurs are kept. -/
theorem allOn_append {kept rest : List β}
    (h : ∀ k < kept.length, ¬ old <+: (kept.drop k ++ rest).map key) :
    allOn key old new (kept ++ rest) = kept ++ allOn key old new rest := by
  induction kept with
  | nil => rfl
  | cons c kept ih =>
    have hfirst : ¬ old <+: (c :: (kept ++ rest)).map key := h 0 (by simp)
    rw [List.cons_append, allOn_cons hfirst, ih fun k hk => h (k + 1) (by simpa using hk)]
    rfl

/-- On the keys, it is replacing in the text. -/
theorem map_allOn (cs : List β) :
    (allOn key old new cs).map key = all old (new.map key) (cs.map key) := by
  have hscan : ∀ (cs : List β) (k : ℕ),
      (scanOn key old new k cs).map key = scan old (new.map key) k (cs.map key) := by
    intro cs
    induction cs with
    | nil => intro k; cases k <;> rfl
    | cons c cs ih =>
      intro k
      cases k with
      | succ k => exact ih k
      | zero =>
        rw [scanOn, List.map_cons, scan, ← List.map_cons]
        split_ifs
        · rw [List.map_append, ih]
        · rw [List.map_cons, ih]
  exact hscan cs 0

/-- What does not occur is not replaced. -/
theorem allOn_of_not_infix (h : ¬ old <:+: cs.map key) : allOn key old new cs = cs := by
  induction cs with
  | nil => rfl
  | cons c cs ih =>
    rw [allOn_cons fun hp => h hp.isInfix, ih fun hi => h (List.infix_cons hi)]

/-- Replacing keeps nothing that was not there, and puts in the new items. -/
theorem mem_of_mem_allOn (h : c ∈ allOn key old new cs) : c ∈ cs ∨ c ∈ new := by
  have hscan : ∀ (cs : List β) (k : ℕ), c ∈ scanOn key old new k cs → c ∈ cs ∨ c ∈ new := by
    intro cs
    induction cs with
    | nil => intro k h; cases k <;> cases h
    | cons a cs ih =>
      intro k h
      cases k with
      | succ k => exact (ih k h).imp_left (List.mem_cons_of_mem a)
      | zero =>
        rw [scanOn] at h
        split_ifs at h
        · rcases List.mem_append.mp h with hnew | hrest
          · exact .inr hnew
          · exact (ih _ hrest).imp_left (List.mem_cons_of_mem a)
        · rcases List.mem_cons.mp h with rfl | hrest
          · exact .inl (.head _)
          · exact (ih 0 hrest).imp_left (List.mem_cons_of_mem a)
  exact hscan cs 0 h

/-- So does one replacement after the other. -/
theorem mem_of_mem_foldl_allOn {vs : List (List α)}
    (h : c ∈ vs.foldl (fun cs v => allOn key v new cs) cs) : c ∈ cs ∨ c ∈ new := by
  induction vs generalizing cs with
  | nil => exact .inl h
  | cons v vs ih => exact (ih h).elim mem_of_mem_allOn .inr

/-! ### Occurrences -/

omit [DecidableEq α] in
theorem occursAt_drop {cs : List α} {i k : ℕ} :
    OccursAt v i (cs.drop k) ↔ OccursAt v (k + i) cs := by
  rw [OccursAt, OccursAt, List.drop_drop]

omit [DecidableEq α] in
/-- Where a text occurs, its items are. -/
theorem OccursAt.getElem? {cs : List α} {i k : ℕ} (h : OccursAt v i cs) (hk : k < v.length) :
    cs[i + k]? = v[k]? := by
  obtain ⟨rest, hrest⟩ := h
  rw [← List.getElem?_drop, ← hrest, List.getElem?_append_left hk]

/-! ### Masked items -/

theorem maskFrom_eq_drop (k : ℕ) (cs : List β) : maskFrom key V k cs = mask key V (cs.drop k) := by
  induction cs generalizing k with
  | nil => cases k <;> rfl
  | cons c cs ih =>
    cases k with
    | zero => rfl
    | succ k => exact ih k

@[simp] theorem mask_nil : mask key V [] = [] := rfl

/-- An item at which nothing occurs is kept. -/
theorem mask_cons (h : ∀ v ∈ V, ¬ v <+: (c :: cs).map key) :
    mask key V (c :: cs) = some c :: mask key V cs := by
  have hfind : (V.find? fun v => v <+: (c :: cs).map key) = none := by
    rw [List.find?_eq_none]
    intro v hv
    simpa using h v hv
  rw [mask, maskFrom, hfind]
  rfl

/-- An occurrence is masked, where no other text occurs at its place. -/
theorem mask_of_found (hne : v ≠ []) (hv : v ∈ V) (h : v <+: cs.map key)
    (honly : ∀ w ∈ V, w <+: cs.map key → w = v) :
    mask key V cs = none :: mask key V (cs.drop v.length) := by
  cases cs with
  | nil => exact absurd (List.prefix_nil.mp h) hne
  | cons c cs =>
    -- The text that is found is the one that occurs.
    have hfind : (V.find? fun v => v <+: (c :: cs).map key) = some v := by
      cases hfound : V.find? fun v => v <+: (c :: cs).map key with
      | none =>
        rw [List.find?_eq_none] at hfound
        exact absurd h (by simpa using hfound v hv)
      | some w =>
        rw [honly w (List.mem_of_find?_eq_some hfound) (by simpa using List.find?_some hfound)]
    obtain ⟨n, hn⟩ : ∃ n, v.length = n + 1 :=
      Nat.exists_eq_succ_of_ne_zero (fun h => hne (List.length_eq_zero_iff.mp h))
    rw [mask, maskFrom, hfind]
    simp only
    rw [maskFrom_eq_drop, hn]
    rfl

/-- What is kept was there. -/
theorem mem_of_mem_mask (h : some c ∈ mask key V cs) : c ∈ cs := by
  have hfrom : ∀ (cs : List β) (k : ℕ), some c ∈ maskFrom key V k cs → c ∈ cs := by
    intro cs
    induction cs with
    | nil => intro k h; cases k <;> cases h
    | cons a cs ih =>
      intro k h
      cases k with
      | succ k => exact .tail _ (ih k h)
      | zero =>
        rw [maskFrom] at h
        split at h
        · exact .tail _ (ih _ ((List.mem_cons.mp h).resolve_left nofun))
        · rcases List.mem_cons.mp h with heq | hmem
          · exact Option.some.inj heq ▸ .head _
          · exact .tail _ (ih 0 hmem)
  exact hfrom cs 0 h

omit [DecidableEq α] in
/-- A text occurs among kept items as it does among the items. -/
theorem prefix_some_iff :
    w.map some <+: (cs.map some).map (Option.map key) ↔ w <+: cs.map key := by
  have hkeys : (cs.map some).map (Option.map key) = (cs.map key).map some := by
    rw [List.map_map, List.map_map]
    rfl
  rw [hkeys]
  exact List.prefix_map_iff_of_injective (Option.some_injective α)

/-! ### The marker in place of the masks -/

omit [DecidableEq α] in
@[simp] theorem unmask_none {ts : List (Option β)} :
    unmask new (none :: ts) = new ++ unmask new ts := rfl

omit [DecidableEq α] in
@[simp] theorem unmask_some {ts : List (Option β)} :
    unmask new (some c :: ts) = c :: unmask new ts := rfl

omit [DecidableEq α] in
theorem unmask_append (ts ts' : List (Option β)) :
    unmask new (ts ++ ts') = unmask new ts ++ unmask new ts' := List.flatMap_append

omit [DecidableEq α] in
theorem unmask_map_some (cs : List β) : unmask new (cs.map some) = cs := by
  induction cs with
  | nil => rfl
  | cons c cs ih => rw [List.map_cons, unmask_some, ih]

omit [DecidableEq α] in
theorem length_unmask (ts : List (Option β)) : (unmask new ts).length =
    ts.countP Option.isSome + new.length * ts.countP Option.isNone := by
  induction ts with
  | nil => rfl
  | cons t ts ih =>
    cases t with
    | none =>
      rw [unmask_none, List.length_append, ih, List.countP_cons_of_neg (by simp),
        List.countP_cons_of_pos rfl, Nat.mul_add]
      omega
    | some c =>
      rw [unmask_some, List.length_cons, ih, List.countP_cons_of_pos rfl,
        List.countP_cons_of_neg (by simp)]
      omega

omit [DecidableEq α] in
/-- What is in front of the tokens is kept items. -/
theorem prefix_tokens {ts : List (Option β)} (h : w.map some <+: ts.map (Option.map key)) :
    ∃ (front : List β) (rest : List (Option β)), ts = front.map some ++ rest ∧
      front.map key = w := by
  induction w generalizing ts with
  | nil => exact ⟨[], ts, rfl, rfl⟩
  | cons a w ih =>
    cases ts with
    | nil => cases List.prefix_nil.mp h
    | cons t ts =>
      obtain ⟨ht, hw⟩ := List.cons_prefix_cons.mp h
      obtain ⟨c, rfl, rfl⟩ := Option.map_eq_some_iff.mp ht.symm
      obtain ⟨front, rest, rfl, rfl⟩ := ih hw
      exact ⟨c :: front, rest, rfl, rfl⟩

omit [DecidableEq α] in
/-- What occurs at the front, occurs between the markers, or reaches into one. -/
theorem prefix_unmask {ts : List (Option β)} (h : w <+: (unmask new ts).map key) :
    (∃ (front : List β) (rest : List (Option β)), ts = front.map some ++ rest ∧
        front.map key = w) ∨
      ∃ j < w.length, (j = 0 → ts.head? = some none) ∧
        OccursAt (new.map key) j ((unmask new ts).map key) := by
  induction ts generalizing w with
  | nil =>
    obtain rfl := List.prefix_nil.mp h
    exact .inl ⟨[], [], rfl, rfl⟩
  | cons t ts ih =>
    cases w with
    | nil => exact .inl ⟨[], t :: ts, rfl, rfl⟩
    | cons a w =>
      cases t with
      | none =>
        refine .inr ⟨0, Nat.succ_pos _, fun _ => rfl, ?_⟩
        rw [unmask_none, List.map_append]
        exact List.prefix_append _ _
      | some c =>
        rw [unmask_some, List.map_cons] at h
        obtain ⟨rfl, hw⟩ := List.cons_prefix_cons.mp h
        rcases ih hw with ⟨front, rest, rfl, rfl⟩ | ⟨j, hj, -, hoccurs⟩
        · exact .inl ⟨c :: front, rest, rfl, rfl⟩
        · exact .inr ⟨j + 1, Nat.succ_lt_succ hj, nofun, hoccurs⟩

omit [DecidableEq α] in
/-- Tokens are taken apart the way a text is looked for among them: an occurrence between the
markers, or one token at which there is none. -/
theorem tokens_induction (key : β → α) (hne : w ≠ []) {P : List (Option β) → Prop} (nil : P [])
    (found : ∀ (front : List β) rest, front.map key = w → P rest → P (front.map some ++ rest))
    (kept : ∀ t ts, ¬ w.map some <+: (t :: ts).map (Option.map key) → P ts → P (t :: ts))
    (ts : List (Option β)) : P ts := by
  have hpos := List.length_pos_iff.mpr hne
  induction hn : ts.length using Nat.strong_induction_on generalizing ts with
  | _ n ih =>
    by_cases hprefix : w.map some <+: ts.map (Option.map key)
    · obtain ⟨front, rest, rfl, hkeys⟩ := prefix_tokens hprefix
      have hlength : front.length = w.length := by rw [← hkeys, List.length_map]
      refine found front rest hkeys (ih rest.length ?_ rest rfl)
      rw [← hn, List.length_append, List.length_map]
      omega
    · cases ts with
      | nil => exact nil
      | cons t ts =>
        exact kept t ts hprefix (ih ts.length (by rw [← hn]; exact Nat.lt_succ_self _) ts rfl)

/-- An occurrence between the markers is masked. -/
theorem maskOne_append {front : List β} {rest : List (Option β)} (hne : w ≠ [])
    (h : front.map key = w) :
    maskOne key w (front.map some ++ rest) = none :: maskOne key w rest := by
  refine allOn_append_of_map_eq (by simpa using hne) ?_
  rw [← h, List.map_map, List.map_map]
  rfl

/-- A mask begins no occurrence. -/
theorem maskOne_none (hne : w ≠ []) (ts : List (Option β)) :
    maskOne key w (none :: ts) = none :: maskOne key w ts := by
  refine allOn_cons fun h => ?_
  cases w with
  | nil => exact hne rfl
  | cons a w => cases (List.cons_prefix_cons.mp h).1

/-- **A text that does not reach into a marker is looked for between the markers.** -/
theorem allOn_unmask (hne : w ≠ []) (hnew : new ≠ [])
    (hclear : ∀ cs, Clear w (new.map key) cs) (ts : List (Option β)) :
    allOn key w new (unmask new ts) = unmask new (maskOne key w ts) := by
  induction ts using tokens_induction key hne with
  | nil => rfl
  | found front rest hkeys ih =>
    rw [unmask_append, unmask_map_some, allOn_append_of_map_eq hne hkeys, ih,
      maskOne_append hne hkeys, unmask_none]
  | kept t ts hstart ih =>
    have hstep : maskOne key w (t :: ts) = t :: maskOne key w ts := allOn_cons hstart
    rw [hstep]
    cases t with
    | none =>
      rw [unmask_none, unmask_none, ← ih]
      by_cases hmarker : new.map key = w
      · exact allOn_append_of_map_eq hne hmarker
      · -- No occurrence starts inside the marker.
        refine allOn_append fun k hk hoccurs => ?_
        have hplace : OccursAt w k ((new ++ unmask new ts).map key) := by
          rw [OccursAt, ← List.map_drop, List.drop_append_of_le_length hk.le]
          exact hoccurs
        have hmarked : OccursAt (new.map key) 0 ((new ++ unmask new ts).map key) := by
          rw [List.map_append]
          exact List.prefix_append _ _
        rcases hclear _ k 0 hplace hmarked with ⟨-, hsame⟩ | hbefore | hafter
        · exact hmarker hsame.symm
        · have hpos := List.length_pos_iff.mpr hne
          omega
        · rw [List.length_map] at hafter
          omega
    | some c =>
      rw [unmask_some, unmask_some, ← ih]
      refine allOn_cons fun hoccurs => ?_
      rw [← unmask_some] at hoccurs
      rcases prefix_unmask hoccurs with ⟨front, rest, hsplit, hkeys⟩ | ⟨j, hj, hzero, hmarked⟩
      · -- It would start at the item itself.
        refine hstart ?_
        rw [hsplit, List.map_append, List.map_map, ← hkeys, List.map_map]
        exact List.prefix_append _ _
      · rcases hclear _ 0 j hoccurs hmarked with ⟨rfl, -⟩ | hbefore | hafter
        · cases hzero rfl
        · omega
        · have hpos := List.length_pos_iff.mpr hnew
          rw [List.length_map] at hafter
          omega

omit [DecidableEq α] in
/-- What occurs at the front, where every item is kept, occurs between the markers. -/
theorem prefix_tokens_of_kept {kept : β → Prop} (hnew : new ≠ []) (hmarker : ∀ b ∈ new, ¬ kept b)
    {ts : List (Option β)} (h : w <+: (unmask new ts).map key)
    (hkept : ∀ b ∈ (unmask new ts).take w.length, kept b) :
    w.map some <+: ts.map (Option.map key) := by
  induction w generalizing ts with
  | nil => exact List.nil_prefix
  | cons a w ih =>
    cases ts with
    | nil => cases List.prefix_nil.mp h
    | cons t ts =>
      cases t with
      | none =>
        obtain ⟨b, new', rfl⟩ := List.exists_cons_of_ne_nil hnew
        exact absurd (hkept b (.head _)) (hmarker b (.head _))
      | some c =>
        obtain ⟨rfl, hw⟩ := List.cons_prefix_cons.mp h
        exact List.cons_prefix_cons.mpr ⟨rfl, ih hw fun b hb => hkept b (.tail _ hb)⟩

/-- **A text that occurs only where every item is kept is looked for between the markers.** -/
theorem allOn_unmask_of_kept {kept : β → Prop} (hne : w ≠ []) (hnew : new ≠ [])
    (hmarker : ∀ b ∈ new, ¬ kept b) {ts : List (Option β)}
    (h : ∀ i, OccursAt w i ((unmask new ts).map key) →
      ∀ b ∈ ((unmask new ts).drop i).take w.length, kept b) :
    allOn key w new (unmask new ts) = unmask new (maskOne key w ts) := by
  -- What occurs behind some items occurs in the whole.
  have hbehind : ∀ {front rest : List β},
      (∀ i, OccursAt w i ((front ++ rest).map key) →
        ∀ b ∈ ((front ++ rest).drop i).take w.length, kept b) →
      ∀ i, OccursAt w i (rest.map key) → ∀ b ∈ (rest.drop i).take w.length, kept b := by
    intro front rest hall i hoccurs b hb
    have hdrop : (front ++ rest).drop (front.length + i) = rest.drop i := by
      rw [← List.drop_drop, List.drop_left]
    refine hall (front.length + i) ?_ b (hdrop ▸ hb)
    rw [OccursAt, ← List.map_drop, hdrop, List.map_drop]
    exact hoccurs
  induction ts using tokens_induction key hne with
  | nil => rfl
  | found front rest hkeys ih =>
    rw [unmask_append, unmask_map_some] at h
    rw [unmask_append, unmask_map_some, allOn_append_of_map_eq hne hkeys, ih (hbehind h),
      maskOne_append hne hkeys, unmask_none]
  | kept t ts hstart ih =>
    have hstep : maskOne key w (t :: ts) = t :: maskOne key w ts := allOn_cons hstart
    rw [hstep]
    cases t with
    | none =>
      rw [unmask_none] at h
      rw [unmask_none, unmask_none, ← ih (hbehind h)]
      -- No occurrence starts inside the marker.
      refine allOn_append fun k hk hoccurs => ?_
      have hdrop : (new ++ unmask new ts).drop k = new.drop k ++ unmask new ts :=
        List.drop_append_of_le_length hk.le
      have hitem : new[k] ∈ ((new ++ unmask new ts).drop k).take w.length := by
        obtain ⟨n, hn⟩ := Nat.exists_eq_succ_of_ne_zero (mt List.length_eq_zero_iff.mp hne)
        rw [hdrop, List.drop_eq_getElem_cons hk, hn]
        exact .head _
      refine hmarker _ (List.getElem_mem hk) (h k ?_ _ hitem)
      rw [OccursAt, ← List.map_drop, hdrop]
      exact hoccurs
    | some c =>
      rw [unmask_some] at h
      rw [unmask_some, unmask_some, ← ih (@hbehind [c] _ h)]
      refine allOn_cons fun hoccurs => hstart ?_
      exact prefix_tokens_of_kept hnew hmarker hoccurs (h 0 hoccurs)

/-- Replacing in items is putting the marker in for the masks. -/
theorem allOn_eq_unmask (hne : w ≠ []) (new cs : List β) :
    allOn key w new cs = unmask new (maskOne key w (cs.map some)) := by
  have hpos := List.length_pos_iff.mpr hne
  induction hn : cs.length using Nat.strong_induction_on generalizing cs with
  | _ n ih =>
    by_cases hprefix : w <+: cs.map key
    · have hkeys : (cs.take w.length).map key = w := by
        rw [List.map_take, ← List.prefix_iff_eq_take.mp hprefix]
      have hlength := hprefix.length_le
      rw [List.length_map] at hlength
      have hsplit := (List.take_append_drop w.length cs).symm
      rw [hsplit, allOn_append_of_map_eq hne hkeys, List.map_append, maskOne_append hne hkeys,
        unmask_none, ih _ (by rw [List.length_drop]; omega) _ rfl]
    · cases cs with
      | nil => rfl
      | cons c cs =>
        have hstart : ¬ w.map some <+: (some c :: cs.map some).map (Option.map key) := by
          exact fun h => hprefix ((@prefix_some_iff _ _ key w (c :: cs)).mp h)
        rw [allOn_cons hprefix, List.map_cons, maskOne, allOn_cons hstart, unmask_some,
          ih cs.length (by rw [← hn]; exact Nat.lt_succ_self _) cs rfl]
        rfl

/-- A sequence of replacements masks one text after the other. -/
theorem foldl_allOn_unmask {vs : List (List α)} (hnew : new ≠ []) (hne : ∀ v ∈ vs, v ≠ [])
    (hclear : ∀ v ∈ vs, ∀ cs, Clear v (new.map key) cs) (ts : List (Option β)) :
    vs.foldl (fun cs v => allOn key v new cs) (unmask new ts) =
      unmask new (vs.foldl (fun ts v => maskOne key v ts) ts) := by
  induction vs generalizing ts with
  | nil => rfl
  | cons v vs ih =>
    rw [List.foldl_cons, List.foldl_cons, allOn_unmask (hne v (.head _)) hnew (hclear v (.head _)),
      ih (fun u hu => hne u (.tail _ hu)) fun u hu => hclear u (.tail _ hu)]

end Replace
