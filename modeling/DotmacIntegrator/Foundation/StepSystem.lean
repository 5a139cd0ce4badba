import Mathlib.Logic.Relation

/-!
# Labelled step systems

A step system has initial states and labelled steps. An inductive predicate holds of every
reachable state. A guard restricts the runs to those whose every step is taken from a state,
and under a label, that meets a condition; inductive predicates of the guarded system are the
invariants of exactly these runs.

## Main definitions

* `StepSystem`, `StepSystem.Leads`, `StepSystem.Reachable`: runs between states
* `StepSystem.Guarded`: the runs whose every step meets a condition
* `StepSystem.IsInductive`: a predicate that holds initially and survives every step
* `StepSystem.Run`, `StepSystem.Throughout`: runs with their steps, and what holds at each point
* `StepSystem.Moment`: one step of a run, from the state before it to the one behind it

## Main results

* `IsInductive.reachable`: inductive predicates hold of every reachable state
* `Leads.closed`: a predicate preserved by every step holds along a run
* `Run.throughout_iff`: a property that each step keeps iff it meets a guard holds throughout a run
  iff all its steps meet the guard
-/

/-- A labelled step system: its initial states, and its steps. -/
structure StepSystem (σ α : Type*) where
  init : σ → Prop
  step : σ → α → σ → Prop

namespace StepSystem

variable {σ α : Type*} (S : StepSystem σ α)

/-- One step, under some label. -/
def Next (s s' : σ) : Prop := ∃ a, S.step s a s'

/-- `s'` is reached from `s` by finitely many steps. -/
def Leads : σ → σ → Prop := Relation.ReflTransGen S.Next

/-- The states reached from an initial state. -/
def Reachable (s : σ) : Prop := ∃ s₀, S.init s₀ ∧ S.Leads s₀ s

/-- The same system, restricted to the steps whose state and label meet `G`. -/
def Guarded (G : σ → α → Prop) : StepSystem σ α where
  init := S.init
  step s a s' := S.step s a s' ∧ G s a

/-- A predicate that holds initially and survives every step. -/
structure IsInductive (I : σ → Prop) : Prop where
  init : ∀ s, S.init s → I s
  step : ∀ s a s', I s → S.step s a s' → I s'

/-- The runs, with the steps they take: the state of each, and its label. -/
inductive Run : List (σ × α) → σ → Prop
  | init {s : σ} (h : S.init s) : Run [] s
  | snoc {steps : List (σ × α)} {s t : σ} {a : α} (h : Run steps s) (hs : S.step s a t) :
      Run (steps ++ [(s, a)]) t

/-- `P` holds at every point of a run: of the steps before it, and of its state. -/
def Throughout (P : List (σ × α) → σ → Prop) (steps : List (σ × α)) (s : σ) : Prop :=
  (∀ before x after, steps = before ++ x :: after → P before x.1) ∧ P steps s

/-- The step from `s` to `t` under `a` is one of a run that ends in `u`. -/
def Moment (steps : List (σ × α)) (u s : σ) (a : α) (t : σ) : Prop :=
  ∃ before after, steps = before ++ (s, a) :: after ∧ t = (after.head?.map Prod.fst).getD u

variable {S}

theorem Leads.refl (s : σ) : S.Leads s s := Relation.ReflTransGen.refl

theorem Leads.snoc {s t u : σ} {a : α} (h : S.Leads s t) (hs : S.step t a u) : S.Leads s u :=
  Relation.ReflTransGen.tail h ⟨a, hs⟩

theorem Leads.single {s t : σ} {a : α} (hs : S.step s a t) : S.Leads s t :=
  (Leads.refl s).snoc hs

theorem Leads.trans {s t u : σ} (h : S.Leads s t) (h' : S.Leads t u) : S.Leads s u :=
  Relation.ReflTransGen.trans h h'

/-- A predicate preserved by every step holds along a run. -/
theorem Leads.closed {I : σ → Prop} (hI : ∀ s a s', I s → S.step s a s' → I s') {s t : σ}
    (h : S.Leads s t) (hs : I s) : I t := by
  induction h with
  | refl => exact hs
  | tail _ hstep ih =>
    obtain ⟨a, ha⟩ := hstep
    exact hI _ a _ ih ha

/-- Inductive predicates hold of every reachable state. -/
theorem IsInductive.reachable {I : σ → Prop} (hI : S.IsInductive I) {s : σ}
    (h : S.Reachable s) : I s := by
  obtain ⟨s₀, h₀, hl⟩ := h
  exact hl.closed hI.step (hI.init s₀ h₀)

theorem Reachable.leads {s t : σ} (h : S.Reachable s) (hl : S.Leads s t) : S.Reachable t := by
  obtain ⟨s₀, h₀, hs⟩ := h
  exact ⟨s₀, h₀, hs.trans hl⟩

theorem Leads.of_guarded {G : σ → α → Prop} {s t : σ} (h : (S.Guarded G).Leads s t) :
    S.Leads s t :=
  Relation.ReflTransGen.mono (fun _ _ ⟨a, ha⟩ => ⟨a, ha.1⟩) _ _ h

/-! ### Runs with their steps -/

variable {P : List (σ × α) → σ → Prop} {steps : List (σ × α)} {s t : σ} {a : α}

/-- A run ends in a reachable state. -/
theorem Run.reachable (h : S.Run steps s) : S.Reachable s := by
  induction h with
  | init h => exact ⟨_, h, .refl _⟩
  | snoc _ hs ih => exact ih.leads (.single hs)

/-- A reachable state ends a run. -/
theorem Reachable.exists_run (h : S.Reachable s) : ∃ steps, S.Run steps s := by
  obtain ⟨s₀, hinit, hleads⟩ := h
  induction hleads with
  | refl => exact ⟨[], .init hinit⟩
  | tail _ hnext ih =>
    obtain ⟨steps, hrun⟩ := ih
    obtain ⟨a, hs⟩ := hnext
    exact ⟨_, hrun.snoc hs⟩

/-- The last step of a run. -/
theorem moment_last (steps : List (σ × α)) (s : σ) (a : α) (t : σ) :
    Moment (steps ++ [(s, a)]) t s a t := ⟨steps, [], rfl, rfl⟩

/-- A step of a run is one of the run that goes on. -/
theorem Moment.snoc {u v : σ} {b : α} (h : Moment steps u s a t) :
    Moment (steps ++ [(u, b)]) v s a t := by
  obtain ⟨before, after, rfl, rfl⟩ := h
  refine ⟨before, after ++ [(u, b)], by simp, ?_⟩
  -- What was the last state of the run is the state before its last step now.
  cases after <;> rfl

theorem throughout_nil : Throughout P [] s ↔ P [] s := by
  simp [Throughout]

/-- One more point. -/
theorem throughout_snoc :
    Throughout P (steps ++ [(s, a)]) t ↔ Throughout P steps s ∧ P (steps ++ [(s, a)]) t := by
  constructor
  · rintro ⟨hbefore, hlast⟩
    refine ⟨⟨fun before x after heq => ?_, hbefore steps (s, a) [] rfl⟩, hlast⟩
    exact hbefore before x (after ++ [(s, a)]) (by rw [heq]; simp)
  · rintro ⟨⟨hbefore, hs⟩, hlast⟩
    refine ⟨fun before x after heq => ?_, hlast⟩
    -- The step after the point is the last one, or an earlier one.
    rcases List.eq_nil_or_concat after with rfl | ⟨after', y, rfl⟩
    · obtain ⟨rfl, hx⟩ := List.append_inj' heq rfl
      obtain rfl := List.singleton_inj.mp hx
      exact hs
    · rw [List.concat_eq_append, ← List.cons_append, ← List.append_assoc] at heq
      exact hbefore before x after' (List.append_inj' heq rfl).1

/-- A property that each step keeps iff it meets a guard holds throughout a run iff all its steps
meet the guard. -/
theorem Run.throughout_iff {G : σ → α → Prop} (hinit : ∀ s, S.init s → P [] s)
    (hstep : ∀ steps s a t, P steps s → S.step s a t → (P (steps ++ [(s, a)]) t ↔ G s a))
    (h : S.Run steps s) : Throughout P steps s ↔ ∀ x ∈ steps, G x.1 x.2 := by
  induction h with
  | init h => simpa [throughout_nil] using hinit _ h
  | @snoc steps s t a _ hs ih =>
    rw [throughout_snoc, ih, List.forall_mem_append, List.forall_mem_singleton]
    refine and_congr_right fun hguard => hstep steps s a t ?_ hs
    exact (ih.mpr hguard).2

end StepSystem
