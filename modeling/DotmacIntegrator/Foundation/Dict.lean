import Mathlib.Data.List.Nodup
import Mathlib.Data.List.Forall2

/-!
# Insertion-ordered dictionaries

A dictionary is the list of its entries in insertion order. Looking a key up finds its first
entry; on a dictionary whose keys are distinct, which is what `ofPairs` builds, that is its only
entry.

## Main definitions

* `Dict.get?`, `Dict.keys`: lookup and keys
* `Dict.only`, `Dict.without`: the entries under some keys, and the others
* `Dict.set`, `Dict.ofPairs`: assignment, and the dictionary of a sequence of pairs

## Main results

* `get?_without`: dropping other keys changes no lookup
* `ofPairs_of_nodup`: pairs with distinct keys are the entries of their dictionary
-/

/-- The entries of a dictionary, in insertion order. -/
abbrev Dict (κ α : Type*) := List (κ × α)

namespace Dict

variable {κ α β : Type*}

/-- The keys, in insertion order. -/
def keys (d : Dict κ α) : List κ := d.map Prod.fst

@[simp] theorem keys_nil : keys ([] : Dict κ α) = [] := rfl

@[simp] theorem keys_cons (k : κ) (v : α) (d : Dict κ α) : keys ((k, v) :: d) = k :: keys d := rfl

@[simp] theorem keys_append (d e : Dict κ α) : keys (d ++ e) = keys d ++ keys e :=
  List.map_append

theorem mem_keys_of_mem {d : Dict κ α} {k : κ} {v : α} (h : (k, v) ∈ d) : k ∈ keys d :=
  List.mem_map_of_mem (f := Prod.fst) h

theorem mem_keys_filter {p : κ → Bool} {k : κ} {d : Dict κ α} :
    k ∈ keys (d.filter fun e => p e.1) ↔ k ∈ keys d ∧ p k := by
  simp only [keys, List.mem_map, List.mem_filter]
  constructor
  · rintro ⟨e, ⟨he, hp⟩, rfl⟩
    exact ⟨⟨e, he, rfl⟩, hp⟩
  · rintro ⟨⟨e, he, rfl⟩, hp⟩
    exact ⟨e, ⟨he, hp⟩, rfl⟩

variable [DecidableEq κ]

/-- The value under `k`, if any. -/
def get? : Dict κ α → κ → Option α
  | [], _ => none
  | (k', v) :: d, k => if k' = k then some v else get? d k

@[simp] theorem get?_nil (k : κ) : get? ([] : Dict κ α) k = none := rfl

theorem get?_cons (k' : κ) (v : α) (d : Dict κ α) (k : κ) :
    get? ((k', v) :: d) k = if k' = k then some v else get? d k := rfl

@[simp] theorem get?_cons_self (k : κ) (v : α) (d : Dict κ α) : get? ((k, v) :: d) k = some v := by
  simp [get?_cons]

theorem get?_cons_of_ne {k k' : κ} (h : k' ≠ k) (v : α) (d : Dict κ α) :
    get? ((k', v) :: d) k = get? d k := by
  simp [get?_cons, h]

theorem mem_of_get? {d : Dict κ α} {k : κ} {v : α} (h : get? d k = some v) : (k, v) ∈ d := by
  induction d with
  | nil => simp at h
  | cons p d ih =>
    obtain ⟨k', v'⟩ := p
    by_cases hk : k' = k
    · subst hk
      simp only [get?_cons_self, Option.some.injEq] at h
      simp [h]
    · rw [get?_cons_of_ne hk] at h
      exact List.mem_cons_of_mem _ (ih h)

theorem get?_eq_none_iff {d : Dict κ α} {k : κ} : get? d k = none ↔ k ∉ keys d := by
  induction d with
  | nil => simp
  | cons p d ih =>
    obtain ⟨k', v'⟩ := p
    by_cases hk : k' = k
    · simp [hk]
    · rw [get?_cons_of_ne hk, ih, keys_cons, List.mem_cons, not_or]
      exact ⟨fun h => ⟨fun e => hk e.symm, h⟩, And.right⟩

theorem get?_isSome_iff {d : Dict κ α} {k : κ} : (get? d k).isSome ↔ k ∈ keys d := by
  rw [Option.isSome_iff_ne_none, ne_eq, get?_eq_none_iff, not_not]

/-- On distinct keys every entry is found by its key. -/
theorem get?_of_mem {d : Dict κ α} (hd : (keys d).Nodup) {k : κ} {v : α} (h : (k, v) ∈ d) :
    get? d k = some v := by
  induction d with
  | nil => simp at h
  | cons p d ih =>
    obtain ⟨k', v'⟩ := p
    rw [keys_cons, List.nodup_cons] at hd
    rcases List.mem_cons.mp h with he | hm
    · simp only [Prod.mk.injEq] at he
      simp [he]
    · have hne : k' ≠ k := by
        rintro rfl
        exact hd.1 (mem_keys_of_mem hm)
      rw [get?_cons_of_ne hne, ih hd.2 hm]

theorem get?_append (d e : Dict κ α) (k : κ) : get? (d ++ e) k = (get? d k).or (get? e k) := by
  induction d with
  | nil => simp
  | cons p d ih =>
    obtain ⟨k', v'⟩ := p
    by_cases hk : k' = k <;> simp [get?_cons, hk, ih]

theorem get?_filter {p : κ → Bool} {k : κ} (h : p k) (d : Dict κ α) :
    get? (d.filter fun e => p e.1) k = get? d k := by
  induction d with
  | nil => rfl
  | cons e d ih =>
    obtain ⟨k', v'⟩ := e
    cases hp : p k' with
    | true => rw [List.filter_cons_of_pos (by simpa using hp), get?_cons, get?_cons, ih]
    | false =>
      have hne : k' ≠ k := by
        rintro rfl
        simp [h] at hp
      rw [List.filter_cons_of_neg (by simpa using hp), get?_cons_of_ne hne, ih]

/-- The entries whose key is among `names`. -/
def only (d : Dict κ α) (names : List κ) : Dict κ α := d.filter fun e => e.1 ∈ names

theorem get?_only {d : Dict κ α} {names : List κ} {k : κ} (h : k ∈ names) :
    get? (only d names) k = get? d k :=
  get?_filter (p := fun k => decide (k ∈ names)) (by simpa using h) d

theorem mem_keys_only {d : Dict κ α} {names : List κ} {k : κ} :
    k ∈ keys (only d names) ↔ k ∈ keys d ∧ k ∈ names := by
  simpa [only] using mem_keys_filter (p := fun k => decide (k ∈ names)) (d := d)

/-- The entries whose key is not among `names`. -/
def without (d : Dict κ α) (names : List κ) : Dict κ α := d.filter fun e => e.1 ∉ names

theorem get?_without {d : Dict κ α} {names : List κ} {k : κ} (h : k ∉ names) :
    get? (without d names) k = get? d k :=
  get?_filter (p := fun k => decide (k ∉ names)) (by simpa using h) d

theorem mem_keys_without {d : Dict κ α} {names : List κ} {k : κ} :
    k ∈ keys (without d names) ↔ k ∈ keys d ∧ k ∉ names := by
  simpa [without] using mem_keys_filter (p := fun k => decide (k ∉ names)) (d := d)

/-- Of the keys dropped, only those that occur matter. -/
theorem without_keys_only (d : Dict κ α) (names : List κ) :
    without d (keys (only d names)) = without d names := by
  apply List.filter_congr
  intro e he
  simp [mem_keys_only, mem_keys_of_mem he]

/-- Assign `v` to `k`: in place if `k` has an entry, else at the end. -/
def set : Dict κ α → κ → α → Dict κ α
  | [], k, v => [(k, v)]
  | (k', v') :: d, k, v => if k' = k then (k, v) :: d else (k', v') :: set d k v

/-- An entry of what a set leaves was there before, or is the one that is set. -/
theorem mem_of_mem_set {d : Dict κ α} {k : κ} {v : α} {e : κ × α} (h : e ∈ set d k v) :
    e ∈ d ∨ e = (k, v) := by
  induction d with
  | nil => exact .inr (List.mem_singleton.mp h)
  | cons p d ih =>
    obtain ⟨k', v'⟩ := p
    rw [set] at h
    split_ifs at h with hk
    · rcases List.mem_cons.mp h with rfl | h
      · exact .inr rfl
      · exact .inl (List.mem_cons_of_mem _ h)
    · rcases List.mem_cons.mp h with rfl | h
      · exact .inl List.mem_cons_self
      · exact (ih h).imp_left (List.mem_cons_of_mem _)

theorem set_of_notMem {d : Dict κ α} {k : κ} (h : k ∉ keys d) (v : α) :
    set d k v = d ++ [(k, v)] := by
  induction d with
  | nil => rfl
  | cons p d ih =>
    obtain ⟨k', v'⟩ := p
    rw [keys_cons, List.mem_cons, not_or] at h
    rw [set, if_neg (fun e => h.1 e.symm), ih h.2, List.cons_append]

theorem get?_set (d : Dict κ α) (k : κ) (v : α) (k' : κ) :
    get? (set d k v) k' = if k = k' then some v else get? d k' := by
  induction d with
  | nil => simp [set, get?_cons]
  | cons p d ih =>
    obtain ⟨l, w⟩ := p
    by_cases hl : l = k
    · subst hl
      rw [set, if_pos rfl, get?_cons, get?_cons]
      split_ifs <;> rfl
    · rw [set, if_neg hl, get?_cons, get?_cons, ih]
      -- An entry in front answers for its own key, which is not `k`.
      by_cases hl' : l = k'
      · rw [if_pos hl', if_pos hl', if_neg fun hk => hl (hl'.trans hk.symm)]
      · rw [if_neg hl', if_neg hl']

theorem keys_set (d : Dict κ α) (k : κ) (v : α) :
    keys (set d k v) = if k ∈ keys d then keys d else keys d ++ [k] := by
  by_cases hk : k ∈ keys d
  · rw [if_pos hk]
    induction d with
    | nil => cases hk
    | cons p d ih =>
      obtain ⟨l, w⟩ := p
      by_cases hl : l = k
      · rw [set, if_pos hl, keys_cons, keys_cons, hl]
      · have hmem : k ∈ keys d := (List.mem_cons.mp hk).resolve_left (Ne.symm hl)
        rw [set, if_neg hl, keys_cons, keys_cons, ih hmem]
  · rw [if_neg hk, set_of_notMem hk, keys_append, keys_cons, keys_nil]

/-- An assignment keeps the keys distinct. -/
theorem nodup_keys_set {d : Dict κ α} (h : (keys d).Nodup) (k : κ) (v : α) :
    (keys (set d k v)).Nodup := by
  rw [keys_set]
  by_cases hk : k ∈ keys d
  · rwa [if_pos hk]
  · rw [if_neg hk, ← List.concat_eq_append]
    exact h.concat hk

/-- Entries that are a function of their key are found by it. -/
theorem get?_filterMap_key (f : κ → Option α) (ks : List κ) (k : κ) :
    get? (ks.filterMap fun k => (f k).map fun v => (k, v)) k = if k ∈ ks then f k else none := by
  induction ks with
  | nil => rfl
  | cons l ks ih =>
    rw [List.filterMap_cons]
    by_cases hl : l = k
    · subst hl
      cases hf : f l with
      | none => simp [ih, hf]
      | some v => simp
    · have hmem : k ∈ l :: ks ↔ k ∈ ks := by simp [Ne.symm hl]
      cases f l with
      | none => simp [ih, hmem]
      | some v => simp [get?_cons_of_ne hl, ih, hmem]

/-- The dictionary of a sequence of pairs: later values replace earlier ones. -/
def ofPairs (ps : List (κ × α)) : Dict κ α := ps.foldl (fun d p => set d p.1 p.2) []

/-- The entries of a dictionary of pairs are among them. -/
theorem mem_of_mem_ofPairs {ps : List (κ × α)} {e : κ × α} (h : e ∈ ofPairs ps) : e ∈ ps := by
  have hfold : ∀ (ps : List (κ × α)) (d : Dict κ α),
      e ∈ ps.foldl (fun d p => set d p.1 p.2) d → e ∈ d ∨ e ∈ ps := by
    intro ps
    induction ps with
    | nil => exact fun d hd => .inl hd
    | cons p ps ih =>
      intro d hd
      rcases ih _ hd with hd | hd
      · exact (mem_of_mem_set hd).imp_right fun he => List.mem_cons.mpr (.inl he)
      · exact .inr (List.mem_cons_of_mem _ hd)
  exact (hfold ps [] h).resolve_left List.not_mem_nil

/-- The keys of a dictionary of pairs are distinct. -/
theorem nodup_keys_ofPairs (ps : List (κ × α)) : (keys (ofPairs ps)).Nodup := by
  have hfold : ∀ (ps : List (κ × α)) (d : Dict κ α), (keys d).Nodup →
      (keys (ps.foldl (fun d p => set d p.1 p.2) d)).Nodup := by
    intro ps
    induction ps with
    | nil => exact fun d hd => hd
    | cons p ps ih => exact fun d hd => ih _ (nodup_keys_set hd p.1 p.2)
  exact hfold ps [] List.nodup_nil

/-- A dictionary of pairs that are a function of their key answers by it. -/
theorem get?_ofPairs_map (f : κ → α) (ks : List κ) (k : κ) :
    get? (ofPairs (ks.map fun k => (k, f k))) k = if k ∈ ks then some (f k) else none := by
  have hfold : ∀ (ks : List κ) (d : Dict κ α),
      get? ((ks.map fun k => (k, f k)).foldl (fun d p => set d p.1 p.2) d) k =
        if k ∈ ks then some (f k) else get? d k := by
    intro ks
    induction ks with
    | nil => intro d; rfl
    | cons l ks ih =>
      intro d
      rw [List.map_cons, List.foldl_cons, ih, get?_set]
      by_cases hl : l = k
      · subst hl
        simp
      · simp [hl, Ne.symm hl]
  exact hfold ks []

theorem foldl_set_of_nodup (ps : List (κ × α)) (d : Dict κ α) (h : (keys (d ++ ps)).Nodup) :
    ps.foldl (fun d p => set d p.1 p.2) d = d ++ ps := by
  induction ps generalizing d with
  | nil => simp
  | cons p ps ih =>
    obtain ⟨k, v⟩ := p
    rw [keys_append, keys_cons] at h
    -- The next key is new, so that its entry is appended.
    have hk : k ∉ keys d := fun hm =>
      (List.nodup_append.mp h).2.2 k hm k (by simp) rfl
    rw [List.foldl_cons, set_of_notMem hk, ih]
    · simp
    · simpa using h

/-- Pairs with distinct keys are the entries of their dictionary. -/
theorem ofPairs_of_nodup {ps : List (κ × α)} (h : (keys ps).Nodup) : ofPairs ps = ps := by
  simpa [ofPairs] using foldl_set_of_nodup ps [] (by simpa using h)

end Dict
