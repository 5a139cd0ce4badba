import DotmacIntegrator.Foundation.RaisingLoop
import Mathlib.Data.List.Induction
import Mathlib.Data.Seq.Basic

/-!
# Loops over streams

An `async for` loop pulls one item after another off a stream that may never end, and runs its body
on each. The body updates the state it works on and may raise, and nothing is pulled after that. The
loop is described moment by moment, since it need not come to an end; on the items pulled it does
what a loop over a list does.

## Main definitions

* `StreamLoop.Moment`: what a loop has pulled, the state it left, and where it stands
* `StreamLoop.after`: the moment after some attempts to pull

## Main results

* `after_running`, `after_exhausted`, `after_raised`: what a loop does on the items of a prefix, at
  the end of its stream, and on an item that raises
* `after_stable`: a loop that came to an end pulls nothing more
* `state_invariant`: what the body preserves holds at every moment
-/

namespace StreamLoop

open Stream' (Seq)

variable {α σ ε : Type}

/-- Where a loop stands: before the next item, at the end of its stream, or ended by an
exception. -/
inductive Status (ε : Type)
  | running
  | exhausted
  | raised (e : ε)
  deriving DecidableEq, Repr

/-- A moment of a loop. -/
structure Moment (α σ ε : Type) where
  /-- The items pulled so far, in order. -/
  pulled : List α
  state : σ
  rest : Seq α
  status : Status ε

/-- Where the body leaves a loop. -/
def Status.ofBody : Option ε → Status ε
  | none => running
  | some e => raised e

variable (body : σ → α → σ × Option ε)

/-- Pull the next item and run the body on it, unless the loop came to an end. -/
def pull (m : Moment α σ ε) : Moment α σ ε :=
  match m.status, m.rest.destruct with
  | .running, some (x, rest) =>
    ⟨m.pulled ++ [x], (body m.state x).1, rest, .ofBody (body m.state x).2⟩
  | .running, none => { m with status := .exhausted }
  | _, _ => m

/-- The moment after `n` attempts to pull. -/
def after (s : σ) (stream : Seq α) : ℕ → Moment α σ ε
  | 0 => ⟨[], s, stream, .running⟩
  | n + 1 => pull body (after s stream n)

variable {body} {s : σ} {stream : Seq α} {m : Moment α σ ε}

/-! ### One attempt -/

theorem pull_item {x : α} (h : m.status = .running) (hx : m.rest.head = some x) :
    pull body m =
      ⟨m.pulled ++ [x], (body m.state x).1, m.rest.tail, .ofBody (body m.state x).2⟩ := by
  have hd : m.rest.destruct = some (x, m.rest.tail) := by
    conv_lhs => rw [Seq.head_eq_some hx, Seq.destruct_cons]
  rw [pull, h, hd]

theorem pull_end (h : m.status = .running) (hx : m.rest.head = none) :
    pull body m = { m with status := .exhausted } := by
  have hd : m.rest.destruct = none := by
    rw [Seq.head_eq_none hx, Seq.destruct_nil]
  rw [pull, h, hd]

theorem pull_of_ended (h : m.status ≠ .running) : pull body m = m := by
  rw [pull]
  split
  · exact absurd ‹_› h
  · exact absurd ‹_› h
  · rfl

/-! ### Prefixes -/

/-- One item more, where there is one. -/
theorem take_succ (stream : Seq α) (n : ℕ) :
    stream.take (n + 1) = stream.take n ++ (stream.get? n).toList := by
  induction n generalizing stream with
  | zero =>
    cases stream with
    | nil => rfl
    | cons x rest => rfl
  | succ n ih =>
    cases stream with
    | nil => simp only [Seq.take_nil, Seq.get?_nil, Option.toList_none, List.append_nil]
    | cons x rest =>
      rw [Seq.take_succ_cons, ih, Seq.take_succ_cons, Seq.get?_cons_succ, List.cons_append]

/-- As many items as there are positions up to one that has an item. -/
theorem length_take_of_get? {n : ℕ} {x : α} (h : stream.get? n = some x) :
    (stream.take n).length = n := by
  induction n generalizing x with
  | zero => rfl
  | succ n ih =>
    obtain ⟨y, hy⟩ := stream.ge_stable (Nat.le_succ n) h
    rw [take_succ, hy, List.length_append, ih hy]
    rfl

/-- The items of a prefix but the last are a prefix, and the last is the item behind them. -/
theorem take_concat {xs : List α} {x : α} (h : stream.take (xs ++ [x]).length = xs ++ [x]) :
    stream.take xs.length = xs ∧ stream.get? xs.length = some x := by
  rw [List.length_append, List.length_singleton, take_succ] at h
  cases hget : stream.get? xs.length with
  | none =>
    -- Too few items.
    rw [hget, Option.toList_none, List.append_nil] at h
    have hlength : (stream.take xs.length).length ≤ xs.length := Seq.length_take_le
    rw [h, List.length_append, List.length_singleton] at hlength
    omega
  | some y =>
    rw [hget] at h
    obtain ⟨hprior, hlast⟩ := List.append_inj' h rfl
    exact ⟨hprior, by rw [List.singleton_inj.mp hlast]⟩

theorem take_ofList (xs : List α) : (Seq.ofList xs).take xs.length = xs := by
  induction xs with
  | nil => rfl
  | cons x xs ih => rw [Seq.ofList_cons, List.length_cons, Seq.take_succ_cons, ih]

/-- **On the items of a prefix** a loop does what a loop over their list does. -/
theorem after_running {xs : List α} (hxs : stream.take xs.length = xs)
    (hclean : (RaisingLoop.run body s xs).2 = none) :
    after body s stream xs.length =
      ⟨xs, (RaisingLoop.run body s xs).1, stream.drop xs.length, .running⟩ := by
  -- Induction on the last item pulled.
  induction xs using List.reverseRecOn with
  | nil => rfl
  | append_singleton xs x ih =>
    obtain ⟨htake, hget⟩ := take_concat hxs
    have hprior : (RaisingLoop.run body s xs).2 = none := by
      by_contra hraised
      rw [RaisingLoop.run_append, if_neg (by rwa [Option.isNone_iff_eq_none])] at hclean
      exact hraised hclean
    have hlast := RaisingLoop.run_append_of_none body [x] hprior
    rw [RaisingLoop.run_singleton] at hlast
    rw [hlast] at hclean
    rw [List.length_append, List.length_singleton, after, ih htake hprior,
      pull_item rfl (by rw [Seq.head_dropn, hget]), hlast, hclean]
    rfl

/-- **At the end of its stream** a loop stops. -/
theorem after_exhausted {xs : List α} (hclean : (RaisingLoop.run body s xs).2 = none) :
    after body s (.ofList xs) (xs.length + 1) =
      ⟨xs, (RaisingLoop.run body s xs).1, (Seq.ofList xs).drop xs.length, .exhausted⟩ := by
  have hend : ((Seq.ofList xs).drop xs.length).head = none := by
    rw [Seq.head_dropn, Seq.ofList_get?, List.getElem?_eq_none le_rfl]
  rw [after, after_running (take_ofList xs) hclean, pull_end rfl hend]

/-- **On an item that raises** a loop ends, with that item the last it pulled. -/
theorem after_raised {xs : List α} {x : α} {e : ε}
    (hxs : stream.take (xs ++ [x]).length = xs ++ [x])
    (hclean : (RaisingLoop.run body s xs).2 = none)
    (hraised : (body (RaisingLoop.run body s xs).1 x).2 = some e) :
    after body s stream (xs.length + 1) =
      ⟨xs ++ [x], (body (RaisingLoop.run body s xs).1 x).1, stream.drop (xs.length + 1),
        .raised e⟩ := by
  obtain ⟨htake, hget⟩ := take_concat hxs
  rw [after, after_running htake hclean, pull_item rfl (by rw [Seq.head_dropn, hget]), hraised]
  rfl

/-! ### All moments -/

/-- A loop that came to an end pulls nothing more. -/
theorem after_stable {n k : ℕ} (h : (after body s stream n).status ≠ .running) (hle : n ≤ k) :
    after body s stream k = after body s stream n := by
  induction k, hle using Nat.le_induction with
  | base => rfl
  | succ k _ ih => rw [after, ih, pull_of_ended h]

/-- **What the body preserves holds at every moment**: `I` where the loop runs on, and `J` also
where the body raised. -/
theorem state_invariant {I J : σ → Prop} (hstart : I s) (hIJ : ∀ t, I t → J t)
    (hgoes : ∀ t x, I t → (body t x).2 = none → I (body t x).1)
    (hraises : ∀ t x e, I t → (body t x).2 = some e → J (body t x).1) (n : ℕ) :
    J (after body s stream n).state := by
  -- While it runs, the state meets `I`.
  have hboth : J (after body s stream n).state ∧
      ((after body s stream n).status = .running → I (after body s stream n).state) := by
    induction n with
    | zero => exact ⟨hIJ s hstart, fun _ => hstart⟩
    | succ n ih =>
      rw [after]
      by_cases hrunning : (after body s stream n).status = .running
      · have hI := ih.2 hrunning
        cases hx : (after body s stream n).rest.head with
        | none =>
          rw [pull_end hrunning hx]
          exact ⟨ih.1, fun h => by cases h⟩
        | some x =>
          rw [pull_item hrunning hx]
          cases hb : (body (after body s stream n).state x).2 with
          | none =>
            have hnext := hgoes _ x hI hb
            exact ⟨hIJ _ hnext, fun _ => hnext⟩
          | some e => exact ⟨hraises _ x e hI hb, fun h => by cases h⟩
      · rw [pull_of_ended hrunning]
        exact ih
  exact hboth.1

end StreamLoop
