import Mathlib.Logic.Basic

/-!
# Transactions

A session works on a copy of the store. A commit makes the copy the store; a rollback, and the end
of the session, drop it. A transaction that raises keeps what it committed before, and an exception
that is caught leaves the session as it stands.

## Main definitions

* `Session`: what is committed, and what the session sees
* `Transaction`: programs on a session that may raise
* `Transaction.exec`, `Transaction.within`: the run of a program, on a session and on a store
* `Transaction.Fails`: a program raises, and commits nothing

## Main results

* `exec_bind_of_ok`, `exec_bind_of_error`, `exec_catching_of_ok`: how programs are composed
* `exec_peek`, `exec_commit`: what a session does
* `Fails.bind`, `Fails.catching`, `Fails.within`: a program that fails leaves the store
-/

/-- A session on a store: what is committed, and what it sees. -/
structure Session (σ : Type) where
  committed : σ
  working : σ
  deriving DecidableEq

/-- Programs on a session that may raise. -/
def Transaction (σ ε α : Type) := Session σ → Except ε α × Session σ

namespace Transaction

variable {σ ε α β : Type}

/-- The run of a program on a session. -/
def exec (t : Transaction σ ε α) (s : Session σ) : Except ε α × Session σ := t s

instance : Monad (Transaction σ ε) where
  pure a := fun s => (.ok a, s)
  bind t f := fun s =>
    match t s with
    | (.ok a, s') => f a s'
    | (.error e, s') => (.error e, s')

/-- `raise`. -/
def raise (e : ε) : Transaction σ ε α := fun s => (.error e, s)

/-- `try`: what is raised is handled in the session as it then stands. -/
def catching (t : Transaction σ ε α) (handle : ε → Transaction σ ε α) : Transaction σ ε α :=
  fun s =>
    match t s with
    | (.ok a, s') => (.ok a, s')
    | (.error e, s') => handle e s'

/-- The store as the session sees it. -/
def peek : Transaction σ ε σ := fun s => (.ok s.working, s)

/-- Write to the session. -/
def write (f : σ → σ) : Transaction σ ε Unit :=
  fun s => (.ok (), { s with working := f s.working })

/-- Make what was written lasting. -/
def commit : Transaction σ ε Unit := fun s => (.ok (), { s with committed := s.working })

/-- Drop what was written since the last commit. -/
def rollback : Transaction σ ε Unit := fun s => (.ok (), { s with working := s.committed })

/-- The run of a program on a store, in a session of its own: what it comes to, and what is
committed. -/
def within (t : Transaction σ ε α) (store : σ) : Except ε α × σ :=
  ((t.exec ⟨store, store⟩).1, (t.exec ⟨store, store⟩).2.committed)

/-- The program raises, and commits nothing. -/
def Fails (t : Transaction σ ε α) (e : ε) (s : Session σ) : Prop :=
  ∃ s', t.exec s = (.error e, s') ∧ s'.committed = s.committed

variable {t : Transaction σ ε α} {f : α → Transaction σ ε β} {handle : ε → Transaction σ ε α}
  {s s' : Session σ}

@[simp] theorem exec_peek : (peek : Transaction σ ε σ).exec s = (.ok s.working, s) := rfl

@[simp] theorem exec_commit :
    (commit : Transaction σ ε Unit).exec s = (.ok (), ⟨s.working, s.working⟩) := rfl

/-- A program goes on where its first part returned. -/
theorem exec_bind_of_ok {a : α} (h : t.exec s = (.ok a, s')) :
    (t >>= f).exec s = (f a).exec s' := by
  have hrun : t s = (.ok a, s') := h
  simp only [exec, bind, hrun]

/-- A program ends where its first part raises. -/
theorem exec_bind_of_error {e : ε} (h : t.exec s = (.error e, s')) :
    (t >>= f).exec s = (.error e, s') := by
  have hrun : t s = (.error e, s') := h
  simp only [exec, bind, hrun]

/-- What returns is not handled. -/
theorem exec_catching_of_ok {a : α} (h : t.exec s = (.ok a, s')) :
    (t.catching handle).exec s = (.ok a, s') := by
  have hrun : t s = (.ok a, s') := h
  simp only [exec, catching, hrun]

/-- What raises is handled where it stands. -/
theorem exec_catching_of_error {e : ε} (h : t.exec s = (.error e, s')) :
    (t.catching handle).exec s = (handle e).exec s' := by
  have hrun : t s = (.error e, s') := h
  simp only [exec, catching, hrun]

theorem within_eq {store : σ} {r : Except ε α} (h : t.exec ⟨store, store⟩ = (r, s')) :
    t.within store = (r, s'.committed) := by
  unfold within
  rw [h]

/-! ### Programs that raise and commit nothing -/

theorem fails_raise (e : ε) : (raise e : Transaction σ ε α).Fails e s := ⟨s, rfl, rfl⟩

/-- What is raised ends the program. -/
theorem Fails.bind {e : ε} (h : t.Fails e s) : (t >>= f).Fails e s := by
  obtain ⟨s', ht, hs⟩ := h
  exact ⟨s', exec_bind_of_error ht, hs⟩

/-- What is raised behind a part that committed nothing. -/
theorem fails_bind_of_ok {a : α} {e : ε} (h : t.exec s = (.ok a, s'))
    (hs : s'.committed = s.committed) (hf : (f a).Fails e s') : (t >>= f).Fails e s := by
  obtain ⟨u, hu, hc⟩ := hf
  exact ⟨u, (exec_bind_of_ok h).trans hu, hc.trans hs⟩

/-- What is raised is handled, and may be raised as something else. -/
theorem Fails.catching {e e' : ε} (h : t.Fails e s) (hh : ∀ s', (handle e).Fails e' s') :
    (t.catching handle).Fails e' s := by
  obtain ⟨s', ht, hs⟩ := h
  obtain ⟨u, hu, hc⟩ := hh s'
  exact ⟨u, (exec_catching_of_error ht).trans hu, hc.trans hs⟩

/-- In a session of its own such a program leaves the store. -/
theorem Fails.within {store : σ} {e : ε} (h : t.Fails e ⟨store, store⟩) :
    t.within store = (.error e, store) := by
  obtain ⟨s', ht, hs⟩ := h
  rw [within_eq ht, hs]

end Transaction
