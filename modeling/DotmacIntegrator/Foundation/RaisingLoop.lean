import DotmacIntegrator.Foundation.Fallible
import Mathlib.Data.List.Basic

/-!
# Loops whose body may raise

A `for` loop over a list runs its body on one item after another. The body updates the state it
works on and may raise; what it did to the state before it raised stays done, and the items
behind it are never reached.

## Main definitions

* `RaisingLoop.run`: the state a loop leaves, and the exception that ended it
* `RaisingLoop.reached`: the items a loop reaches, when raising is a property of the item

## Main results

* `run_append`: a loop over two lists, one after the other
* `run_of_clean`: a loop none of whose items raises is a left fold
* `run_eq`: the state left is the fold over the items reached, and the exception is that of the
  first item that raises
* `run_of_mapM_ok`: a loop over what may fail, as a traversal
* `run_snd_eq_none_iff`: a loop ends without an exception iff no item raises
-/

namespace RaisingLoop

variable {σ α ε : Type*}

/-- Run `body` on the items in order, up to and including the first that raises. -/
def run (body : σ → α → σ × Option ε) : σ → List α → σ × Option ε
  | s, [] => (s, none)
  | s, x :: xs =>
    match body s x with
    | (s', none) => run body s' xs
    | (s', some e) => (s', some e)

variable (body : σ → α → σ × Option ε)

theorem run_cons_of_none {s : σ} {x : α} (xs : List α) (h : (body s x).2 = none) :
    run body s (x :: xs) = run body (body s x).1 xs := by
  rw [run]
  rcases hb : body s x with ⟨s', _ | e⟩
  · rfl
  · simp [hb] at h

theorem run_cons_of_some {s : σ} {x : α} (xs : List α) {e : ε} (h : (body s x).2 = some e) :
    run body s (x :: xs) = ((body s x).1, some e) := by
  rw [run]
  rcases hb : body s x with ⟨s', _ | e'⟩
  · simp [hb] at h
  · simp only [hb] at h
    simp [h]

/-- A loop goes on with the items behind, unless an exception ended it. -/
theorem run_append (s : σ) (xs ys : List α) :
    run body s (xs ++ ys) =
      if (run body s xs).2.isNone then run body (run body s xs).1 ys else run body s xs := by
  induction xs generalizing s with
  | nil => rfl
  | cons x xs ih =>
    rw [List.cons_append]
    cases hx : (body s x).2 with
    | none => rw [run_cons_of_none body _ hx, run_cons_of_none body _ hx, ih]
    | some e =>
      rw [run_cons_of_some body _ hx, run_cons_of_some body _ hx]
      rfl

theorem run_append_of_none {s : σ} {xs : List α} (ys : List α) (h : (run body s xs).2 = none) :
    run body s (xs ++ ys) = run body (run body s xs).1 ys := by
  rw [run_append, h]
  rfl

/-- A loop over one item runs the body once. -/
theorem run_singleton (s : σ) (x : α) : run body s [x] = body s x := by
  rw [run]
  rcases body s x with ⟨s', _ | e⟩ <;> rfl

/-- A loop none of whose items raises is a left fold. -/
theorem run_of_clean (s : σ) (xs : List α) (h : ∀ s, ∀ x ∈ xs, (body s x).2 = none) :
    run body s xs = (xs.foldl (fun s x => (body s x).1) s, none) := by
  induction xs generalizing s with
  | nil => rfl
  | cons x xs ih =>
    rw [run_cons_of_none body xs (h s x (by simp)), List.foldl_cons]
    exact ih _ fun s y hy => h s y (by simp [hy])

section Traversal

/-! ### Loops over what may fail -/

variable {β : Type*} {body} {f : α → Except ε β} {g : σ → β → σ}

/-- A loop that goes on with what does not fail is a fold over it. -/
theorem run_of_mapM_ok (hok : ∀ s x b, f x = .ok b → body s x = (g s b, none)) {xs : List α}
    {bs : List β} (h : xs.mapM f = .ok bs) (s : σ) : run body s xs = (bs.foldl g s, none) := by
  induction xs generalizing bs s with
  | nil =>
    obtain rfl : [] = bs := Except.ok.inj h
    rfl
  | cons x xs ih =>
    rw [List.mapM_cons] at h
    obtain ⟨b, hb, h⟩ := Except.bind_eq_ok.mp h
    obtain ⟨bs, hbs, h⟩ := Except.bind_eq_ok.mp h
    obtain rfl := Except.ok.inj h
    simp only [run, hok s x b hb, List.foldl_cons]
    exact ih hbs _

end Traversal

section Uniform

/-! ### Raising as a property of the item

Where the state never decides whether the body raises, `raises` names the items that end the
loop. -/

variable (raises : α → Option ε)

/-- The items a loop reaches: those before the first that raises, and that one. -/
def reached : List α → List α
  | [] => []
  | x :: xs => x :: (if (raises x).isSome then [] else reached xs)

theorem reached_of_clean {xs : List α} (h : ∀ x ∈ xs, raises x = none) :
    reached raises xs = xs := by
  induction xs with
  | nil => rfl
  | cons x xs ih =>
    rw [reached, if_neg (by simp [h x (by simp)]), ih fun y hy => h y (by simp [hy])]

variable {body raises}

/-- The state left is the fold over the items reached, and the exception that of the first item
that raises. -/
theorem run_eq (hr : ∀ s x, (body s x).2 = raises x) (s : σ) (xs : List α) :
    run body s xs =
      ((reached raises xs).foldl (fun s x => (body s x).1) s, xs.findSome? raises) := by
  induction xs generalizing s with
  | nil => rfl
  | cons x xs ih =>
    cases hx : raises x with
    | none =>
      rw [run_cons_of_none body xs ((hr s x).trans hx), ih, reached]
      simp [hx]
    | some e =>
      rw [run_cons_of_some body xs ((hr s x).trans hx), reached]
      simp [hx]

/-- A loop ends without an exception iff no item raises. -/
theorem run_snd_eq_none_iff (hr : ∀ s x, (body s x).2 = raises x) (s : σ) (xs : List α) :
    (run body s xs).2 = none ↔ ∀ x ∈ xs, raises x = none := by
  rw [run_eq hr, List.findSome?_eq_none_iff]

end Uniform

end RaisingLoop
