import Mathlib.Data.List.Forall2

/-!
# Computations that may be refused

`Except ε` is the monad of computations that raise. A sequence of them succeeds iff each does,
and a traversal succeeds iff it does so on every item.

## Main results

* `Except.bind_eq_ok`, `Except.map_eq_ok`: when a sequence succeeds
* `Except.ofOption_eq_ok`: a value that may be missing
* `Except.foldlM_preserves`: what every step of a loop keeps
* `Except.exists_foldlM_eq_ok_iff`: a loop succeeds iff no item fails
* `Except.mapM_eq_ok`: a traversal that succeeds relates the items one by one
* `Except.mapM_eq_error`: a traversal raises what its first unsuccessful item raises
* `Except.mapM_congr`: a traversal depends only on what is done to each item
-/

namespace Except

universe u v

variable {ε : Type u} {α β : Type v}

@[simp] theorem ok_bind (a : α) (f : α → Except ε β) : (ok a >>= f) = f a := rfl

@[simp] theorem error_bind (e : ε) (f : α → Except ε β) : (error e >>= f) = error e := rfl

theorem bind_eq_ok {x : Except ε α} {f : α → Except ε β} {b : β} :
    (x >>= f) = ok b ↔ ∃ a, x = ok a ∧ f a = ok b := by
  cases x <;> simp

/-- What follows a value that is there, where something follows whatever it is. -/
theorem bind_eq_error {x : Except ε α} {f : α → Except ε β} {e : ε} :
    x >>= f = error e ↔ x = error e ∨ ∃ a, x = ok a ∧ f a = error e := by
  cases x <;> simp [bind, Except.bind]

theorem exists_bind_eq_ok {x : Except ε α} {f : α → Except ε β} (h : ∃ a, x = ok a)
    (hf : ∀ a, ∃ b, f a = ok b) : ∃ b, (x >>= f) = ok b := by
  obtain ⟨a, rfl⟩ := h
  exact hf a

theorem map_eq_ok {x : Except ε α} {f : α → β} {b : β} :
    x.map f = ok b ↔ ∃ a, x = ok a ∧ f a = b := by
  cases x <;> simp [Except.map]

theorem map_eq_error {x : Except ε α} {f : α → β} {e : ε} : x.map f = error e ↔ x = error e := by
  cases x <;> simp [Except.map]

theorem mapError_eq_ok {ε' : Type u} {x : Except ε α} {f : ε → ε'} {a : α} :
    x.mapError f = ok a ↔ x = ok a := by
  cases x <;> simp [Except.mapError]

theorem isOk_iff {x : Except ε α} : x.isOk ↔ ∃ a, x = ok a := by
  cases x <;> simp [Except.isOk, Except.toBool]

/-- A traversal that succeeds relates the items one by one. -/
theorem mapM_eq_ok {f : α → Except ε β} {xs : List α} {ys : List β} :
    xs.mapM f = ok ys ↔ List.Forall₂ (fun x y => f x = ok y) xs ys := by
  induction xs generalizing ys with
  | nil => cases ys <;> simp [pure, Except.pure]
  | cons x xs ih =>
    rw [List.mapM_cons, bind_eq_ok, List.forall₂_cons_left_iff]
    constructor
    · rintro ⟨y, hy, h⟩
      obtain ⟨ys', hys, he⟩ := bind_eq_ok.mp h
      cases he
      exact ⟨y, ys', hy, ih.mp hys, rfl⟩
    · rintro ⟨y, ys', hy, hys, rfl⟩
      exact ⟨y, hy, bind_eq_ok.mpr ⟨ys', ih.mpr hys, rfl⟩⟩

/-- A value, or what is raised where there is none. -/
def ofOption (e : ε) : Option α → Except ε α
  | none => error e
  | some a => ok a

theorem ofOption_eq_ok {e : ε} {x : Option α} {a : α} : ofOption e x = ok a ↔ x = some a := by
  cases x <;> simp [ofOption]

theorem ofOption_eq_error {e e' : ε} {x : Option α} (h : ofOption e x = error e') : e' = e := by
  cases x with
  | none => exact (error.inj h).symm
  | some a => cases h

/-- What a success on each item guarantees, a successful traversal guarantees item by item. -/
theorem forall₂_of_mapM_eq_ok {R : α → β → Prop} {f : α → Except ε β} {xs : List α} {ys : List β}
    (h : xs.mapM f = ok ys) (hR : ∀ x ∈ xs, ∀ y, f x = ok y → R x y) : List.Forall₂ R xs ys := by
  have hf := mapM_eq_ok.mp h
  clear h
  induction hf with
  | nil => exact .nil
  | @cons x y xs ys hxy _ ih =>
    exact .cons (hR x (by simp) y hxy) (ih fun z hz => hR z (by simp [hz]))

/-- Every result of a traversal is the result of one item. -/
theorem exists_of_mapM_eq_ok {f : α → Except ε β} {xs : List α} {ys : List β}
    (h : xs.mapM f = ok ys) : ∀ y ∈ ys, ∃ x ∈ xs, f x = ok y := by
  have hf := mapM_eq_ok.mp h
  clear h
  induction hf with
  | nil => simp
  | @cons x y xs ys hxy _ ih =>
    intro z hz
    rcases List.mem_cons.mp hz with rfl | hz
    · exact ⟨x, by simp, hxy⟩
    · obtain ⟨w, hw, hwz⟩ := ih z hz
      exact ⟨w, by simp [hw], hwz⟩

/-- The result of every item is among the results of a traversal. -/
theorem exists_mem_of_mapM_eq_ok {f : α → Except ε β} {xs : List α} {ys : List β}
    (h : xs.mapM f = ok ys) : ∀ x ∈ xs, ∃ y ∈ ys, f x = ok y := by
  have hf := mapM_eq_ok.mp h
  clear h
  induction hf with
  | nil => simp
  | @cons x y xs ys hxy _ ih =>
    intro z hz
    rcases List.mem_cons.mp hz with rfl | hz
    · exact ⟨y, by simp, hxy⟩
    · obtain ⟨w, hw, hzw⟩ := ih z hz
      exact ⟨w, by simp [hw], hzw⟩

/-- A traversal that succeeds does so on each item. -/
theorem ok_of_mapM_eq_ok {f : α → Except ε β} {xs : List α} {ys : List β}
    (h : xs.mapM f = ok ys) (x : α) (hx : x ∈ xs) : ∃ y, f x = ok y := by
  obtain ⟨y, -, hy⟩ := exists_mem_of_mapM_eq_ok h x hx
  exact ⟨y, hy⟩

/-- A traversal that may succeed on each item succeeds. -/
theorem exists_mapM_eq_ok {f : α → Except ε β} {xs : List α} (h : ∀ x ∈ xs, ∃ y, f x = ok y) :
    ∃ ys, xs.mapM f = ok ys := by
  induction xs with
  | nil => exact ⟨[], rfl⟩
  | cons x xs ih =>
    obtain ⟨y, hy⟩ := h x (by simp)
    obtain ⟨ys, hys⟩ := ih fun z hz => h z (by simp [hz])
    exact ⟨y :: ys, by rw [List.mapM_cons, hy, ok_bind, hys]; rfl⟩

/-- A traversal raises what the first item raises that is not successful. -/
theorem mapM_eq_error {f : α → Except ε β} {xs : List α} {e : ε} :
    xs.mapM f = error e ↔ ∃ before x after, xs = before ++ x :: after ∧ f x = error e ∧
      ∀ y ∈ before, ∃ z, f y = ok z := by
  induction xs with
  | nil => simp [pure, Except.pure]
  | cons x xs ih =>
    rw [List.mapM_cons]
    cases hx : f x with
    | error e' =>
      rw [error_bind, error.injEq]
      constructor
      · rintro rfl
        exact ⟨[], x, xs, rfl, hx, by simp⟩
      · rintro ⟨before, y, after, hxs, hy, hbefore⟩
        cases before with
        | nil =>
          obtain ⟨rfl, -⟩ := List.cons.inj hxs
          rw [hx] at hy
          exact error.inj hy
        | cons z before =>
          obtain ⟨rfl, -⟩ := List.cons.inj hxs
          obtain ⟨w, hw⟩ := hbefore x (by simp)
          rw [hx] at hw
          cases hw
    | ok y =>
      have htail : (xs.mapM f >>= fun ys => (pure (y :: ys) : Except ε (List β))) = error e ↔
          xs.mapM f = error e := by
        cases xs.mapM f <;> simp [pure, Except.pure]
      rw [ok_bind, htail, ih]
      constructor
      · rintro ⟨before, z, after, rfl, hz, hbefore⟩
        exact ⟨x :: before, z, after, rfl, hz, List.forall_mem_cons.mpr ⟨⟨y, hx⟩, hbefore⟩⟩
      · rintro ⟨before, z, after, hxs, hz, hbefore⟩
        cases before with
        | nil =>
          obtain ⟨rfl, -⟩ := List.cons.inj hxs
          rw [hx] at hz
          cases hz
        | cons w before =>
          obtain ⟨rfl, rfl⟩ := List.cons.inj hxs
          exact ⟨before, z, after, rfl, hz, (List.forall_mem_cons.mp hbefore).2⟩

/-- A traversal depends only on what is done to each item. -/
theorem mapM_congr {α' : Type v} {R : α → α' → Prop} {f : α → Except ε β} {g : α' → Except ε β}
    {xs : List α} {xs' : List α'} (h : List.Forall₂ R xs xs')
    (hf : ∀ x ∈ xs, ∀ x' ∈ xs', R x x' → f x = g x') : xs.mapM f = xs'.mapM g := by
  induction h with
  | nil => rfl
  | @cons x x' xs xs' hx _ ih =>
    rw [List.mapM_cons, List.mapM_cons, hf x (by simp) x' (by simp) hx,
      ih fun y hy y' hy' => hf y (by simp [hy]) y' (by simp [hy'])]

/-- What every step of a loop keeps, the loop keeps. -/
theorem foldlM_preserves {P : β → Prop} {f : β → α → Except ε β} {xs : List α}
    (hstep : ∀ b b', ∀ x ∈ xs, P b → f b x = ok b' → P b') {b b' : β} (hb : P b)
    (h : xs.foldlM f b = ok b') : P b' := by
  induction xs generalizing b with
  | nil =>
    obtain rfl := ok.inj h
    exact hb
  | cons x xs ih =>
    rw [List.foldlM_cons] at h
    obtain ⟨middle, hfirst, hrest⟩ := bind_eq_ok.mp h
    apply ih _ (hstep b middle x List.mem_cons_self hb hfirst) hrest
    intro b b' y hy
    exact hstep b b' y (List.mem_cons_of_mem x hy)

/-- A loop in which an item fails in every state or in none succeeds iff no item fails. -/
theorem exists_foldlM_eq_ok_iff {P : α → Prop} {f : β → α → Except ε β}
    (hstep : ∀ b x, (∃ b', f b x = ok b') ↔ P x) (xs : List α) (b : β) :
    (∃ b', xs.foldlM f b = ok b') ↔ ∀ x ∈ xs, P x := by
  induction xs generalizing b with
  | nil => simp [pure, Except.pure]
  | cons x xs ih =>
    simp only [List.foldlM_cons, bind_eq_ok, List.forall_mem_cons]
    constructor
    · rintro ⟨b', middle, hmiddle, hrest⟩
      exact ⟨(hstep b x).mp ⟨middle, hmiddle⟩, (ih middle).mp ⟨b', hrest⟩⟩
    · rintro ⟨hx, hxs⟩
      obtain ⟨middle, hmiddle⟩ := (hstep b x).mpr hx
      obtain ⟨b', hrest⟩ := (ih middle).mpr hxs
      exact ⟨b', middle, hmiddle, hrest⟩

end Except
