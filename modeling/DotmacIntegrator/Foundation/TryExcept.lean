import DotmacIntegrator.Foundation.Fallible

/-!
# `try` statements

An exception of the body is offered to the clauses in their order, and the first that takes it
handles it. A clause handles the exceptions of the body only: what a clause raises, its siblings do
not see.

## Main definitions

* `TryExcept.Clause`, `TryExcept.run`: an `except` clause, and a statement
* `TryExcept.OnlyRaises`: what may leave a statement

## Main results

* `onlyRaises_run_iff`: what leaves a statement is what leaves the clause of each exception of its
  body
* `onlyRaises_handle_cons_iff`: clause by clause
* `onlyRaises_bind_iff`, `onlyRaises_mapM_iff`: what leaves a sequence, and a traversal
-/

namespace TryExcept

universe u

variable {ε α : Type*}

/-- An `except` clause: the exceptions it takes, and what it does with one. -/
abbrev Clause (ε α : Type*) := ε → Option (Except ε α)

/-- What becomes of an exception of the body: the first clause that takes it runs. -/
def handle : List (Clause ε α) → ε → Except ε α
  | [], e => .error e
  | clause :: clauses, e => (clause e).getD (handle clauses e)

/-- A body under its clauses. -/
def run (body : Except ε α) (clauses : List (Clause ε α)) : Except ε α :=
  match body with
  | .ok a => .ok a
  | .error e => handle clauses e

/-- Only exceptions that meet `P` leave. -/
def OnlyRaises (P : ε → Prop) (x : Except ε α) : Prop := ∀ e, x = .error e → P e

variable {P : ε → Prop} {clause : Clause ε α} {clauses : List (Clause ε α)}

@[simp] theorem run_ok (a : α) : run (.ok a) clauses = .ok a := rfl

@[simp] theorem run_error (e : ε) : run (.error e) clauses = handle clauses e := rfl

theorem onlyRaises_ok (a : α) : OnlyRaises P (.ok a : Except ε α) := by
  rintro e ⟨⟩

theorem onlyRaises_error_iff {e : ε} : OnlyRaises P (.error e : Except ε α) ↔ P e := by
  constructor
  · exact fun h => h e rfl
  · rintro h _ ⟨⟩
    exact h

/-- A sequence raises only that iff each of its parts does where it is reached. -/
theorem onlyRaises_bind_iff {α β : Type u} {x : Except ε α} {f : α → Except ε β} :
    OnlyRaises P (x >>= f) ↔ OnlyRaises P x ∧ ∀ a, x = .ok a → OnlyRaises P (f a) := by
  cases x with
  | error e => simp [OnlyRaises]
  | ok a => simp [OnlyRaises]

/-- A traversal raises only that iff the first item that is not successful does. -/
theorem onlyRaises_mapM_iff {α β : Type u} {f : α → Except ε β} {xs : List α} :
    OnlyRaises P (xs.mapM f) ↔ ∀ before x after, xs = before ++ x :: after →
      (∀ y ∈ before, ∃ z, f y = .ok z) → OnlyRaises P (f x) := by
  constructor
  · intro h before x after hxs hbefore raised hraised
    exact h raised (Except.mapM_eq_error.mpr ⟨before, x, after, hxs, hraised, hbefore⟩)
  · intro h raised hraised
    obtain ⟨before, x, after, hxs, hx, hbefore⟩ := Except.mapM_eq_error.mp hraised
    exact h before x after hxs hbefore raised hx

/-- What leaves a statement is what leaves the clauses, for an exception of its body. -/
theorem onlyRaises_run_iff {body : Except ε α} :
    OnlyRaises P (run body clauses) ↔
      ∀ e, body = .error e → OnlyRaises P (handle clauses e) := by
  cases body with
  | ok a => exact iff_of_true (onlyRaises_ok a) (by rintro e ⟨⟩)
  | error e =>
    constructor
    · rintro h _ ⟨⟩
      exact h
    · exact fun h => h e rfl

theorem handle_cons_of_some {e : ε} {x : Except ε α} (h : clause e = some x) :
    handle (clause :: clauses) e = x := by
  rw [handle, h, Option.getD_some]

theorem handle_cons_of_none {e : ε} (h : clause e = none) :
    handle (clause :: clauses) e = handle clauses e := by
  rw [handle, h, Option.getD_none]

/-- **A clause that takes the exception answers for itself**, one that does not leaves it to those
behind. -/
theorem onlyRaises_handle_cons_iff {e : ε} :
    OnlyRaises P (handle (clause :: clauses) e) ↔
      (∀ x, clause e = some x → OnlyRaises P x) ∧
        (clause e = none → OnlyRaises P (handle clauses e)) := by
  cases h : clause e with
  | none => simp [handle_cons_of_none h]
  | some x => simp [handle_cons_of_some h]

end TryExcept
