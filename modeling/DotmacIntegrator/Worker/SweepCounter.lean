import DotmacIntegrator.Worker.Lifecycle
import Mathlib.Algebra.Field.Rat
import Mathlib.Tactic.SplitIfs

/-!
# The counter of failed sweeps

The sweep stamps the time once it has returned, and the loop that awaits it counts one that raised.
The loop that delivers receipts counts a pass of its own that raised, on the same counter. A sweep
that raises when its loop has been cancelled is not counted.

## Main definitions

* `stampedSystem`: the process, with the stamp of the last sweep
* `CountsSweeps`, `StampsSweeps`: what the counter and the stamp are to say of a run
* `CountsOnlySweeps`: the steps on which the counter goes with the sweeps

## Main results

* `stamps_sweeps`: the stamp is right in every run
* `counts_sweeps_iff`: counter and stamp are right throughout a run iff its steps all are so
-/

namespace DotmacIntegrator.Worker

open StepSystem

/-- The process, and the stamp of its worker. -/
structure StampedWorld where
  world : World
  lastSweepEpoch : Option ℚ

/-- `_sweep_once` sets the stamp after the sweep returned. -/
def stampAfter : Event × ℚ → Option ℚ → Option ℚ
  | (.finish .sweep false, now), _ => some now
  | _, lastSweepEpoch => lastSweepEpoch

/-- The process with its stamp, each step at a time. -/
def stampedSystem : StepSystem StampedWorld (Event × ℚ) where
  init s := workerSystem.init s.world ∧ s.lastSweepEpoch = none
  step s a s' :=
    Step s.world a.1 s'.world ∧ s'.lastSweepEpoch = stampAfter a s.lastSweepEpoch

variable {w w' : World} {e : Event} {s s' : StampedWorld}
  {steps : List (StampedWorld × (Event × ℚ))}

/-! ### What is said of a run -/

/-- The sweeps that raised. -/
def raisedSweeps (steps : List (StampedWorld × (Event × ℚ))) : ℕ :=
  steps.countP fun x => x.2.1 = .finish .sweep true

/-- The times of the sweeps that completed. -/
def completedSweeps (steps : List (StampedWorld × (Event × ℚ))) : List ℚ :=
  steps.filterMap fun x => if x.2.1 = .finish .sweep false then some x.2.2 else none

/-- A sweep raised, and the exception is on its way to the loop that awaits it. -/
def OnItsWay (w : World) : Prop := w.task .sweep = .awaiting ∧ w.pass .sweep = .finished true

instance (w : World) : Decidable (OnItsWay w) := inferInstanceAs (Decidable (_ ∧ _))

/-- The counter is the number of sweeps that raised, but for one that its loop has yet to see. -/
def CountsSweeps (steps : List (StampedWorld × (Event × ℚ))) (s : StampedWorld) : Prop :=
  raisedSweeps steps = s.world.sweepFailures + if OnItsWay s.world then 1 else 0

/-- The stamp is the time of the last sweep that completed. -/
def StampsSweeps (steps : List (StampedWorld × (Event × ℚ))) (s : StampedWorld) : Prop :=
  s.lastSweepEpoch = (completedSweeps steps).getLast?

/-- The delivery loop counts a pass of its own. -/
def CountsDelivery (w : World) (e : Event) : Prop :=
  e = .resume .delivery ∧ w.pass .delivery = .finished true

/-- A sweep raises and no loop will see it: its loop no longer awaits it, or is cancelled before
it could. -/
def RaisesUnseen (w : World) (e : Event) : Prop :=
  (e = .finish .sweep true ∧ w.task .sweep ≠ .awaiting) ∨ (e = .cancel .sweep ∧ OnItsWay w)

instance (w : World) (e : Event) : Decidable (CountsDelivery w e) :=
  inferInstanceAs (Decidable (_ ∧ _))

instance (w : World) (e : Event) : Decidable (RaisesUnseen w e) :=
  inferInstanceAs (Decidable (_ ∨ _))

/-- The counter goes with the sweeps: no delivery is counted, and every sweep that raises is. -/
def CountsOnlySweeps (s : StampedWorld) (a : Event × ℚ) : Prop :=
  ¬ CountsDelivery s.world a.1 ∧ ¬ RaisesUnseen s.world a.1

/-! ### One step -/

/-- A step that neither counts nor raises changes nothing that is counted. -/
theorem balance_of_quiet (hf : w'.sweepFailures = w.sweepFailures)
    (hway : OnItsWay w' ↔ OnItsWay w) (he : e ≠ .finish .sweep true) (hc : ¬ CountsDelivery w e)
    (hr : ¬ RaisesUnseen w e) :
    w.sweepFailures + (if OnItsWay w then 1 else 0) + (if e = .finish .sweep true then 1 else 0) +
        (if CountsDelivery w e then 1 else 0) =
      w'.sweepFailures + (if OnItsWay w' then 1 else 0) + if RaisesUnseen w e then 1 else 0 := by
  simp only [hf, hway, if_neg he, if_neg hc, if_neg hr]

/-- **One step**: what it adds to the sweeps that raised and to the deliveries counted, it adds to
the counter, to the exceptions on their way, and to those that are never seen. -/
theorem balance_of_step (h : Step w e w') :
    w.sweepFailures + (if OnItsWay w then 1 else 0) + (if e = .finish .sweep true then 1 else 0) +
        (if CountsDelivery w e then 1 else 0) =
      w'.sweepFailures + (if OnItsWay w' then 1 else 0) + if RaisesUnseen w e then 1 else 0 := by
  cases h with
  | @submit l ht hs | @leave l ht hs =>
    -- The loop does not await its pass, before or after.
    refine balance_of_quiet rfl ?_ (by simp) (by simp [CountsDelivery]) (by simp [RaisesUnseen])
    cases l <;> simp [OnItsWay, ht]
  | @wake l ht =>
    refine balance_of_quiet rfl ?_ (by simp) (by simp [CountsDelivery]) (by simp [RaisesUnseen])
    cases l <;> simp [OnItsWay, ht]
  | @withdraw l ht hp =>
    refine balance_of_quiet rfl ?_ (by simp) (by simp [CountsDelivery]) (by simp [RaisesUnseen])
    cases l <;> simp [OnItsWay, hp]
  | @unwind l ht hp =>
    refine balance_of_quiet rfl ?_ (by simp) (by simp [CountsDelivery]) (by simp [RaisesUnseen])
    cases l <;> simp [OnItsWay, ht]
  | @begin l hp =>
    refine balance_of_quiet rfl ?_ (by simp) (by simp [CountsDelivery]) (by simp [RaisesUnseen])
    cases l <;> simp [OnItsWay, hp]
  -- The steps of the host touch neither a loop nor a pass.
  | shutdown | skip | joined | dispose =>
    exact balance_of_quiet rfl Iff.rfl (by simp) (by simp [CountsDelivery]) (by simp [RaisesUnseen])
  | @resume l raised ht hp =>
    have hunseen : ¬ RaisesUnseen w (.resume l) := by simp [RaisesUnseen]
    cases raised with
    | false =>
      refine balance_of_quiet (by simp) ?_ (by simp) ?_ hunseen
      · cases l <;> simp [OnItsWay, hp]
      · rintro ⟨hl, hraised⟩
        obtain rfl := Event.resume.inj hl
        rw [hp] at hraised
        cases hraised
    | true =>
      cases l with
      | sweep =>
        -- The loop counts the exception that was on its way.
        have hway : OnItsWay w := ⟨ht, hp⟩
        simp only [if_pos hway, if_neg hunseen]
        simp [OnItsWay, CountsDelivery, recordsFailure]
      -- The delivery loop counts its own exception, and none of a sweep leaves its way.
      | delivery =>
        have hcounts : CountsDelivery w (.resume .delivery) := ⟨rfl, hp⟩
        have hway : OnItsWay { w with
            task := Function.update w.task .delivery .waiting
            pass := Function.update w.pass .delivery .idle
            sweepFailures := w.sweepFailures + 1 } ↔ OnItsWay w := by
          simp [OnItsWay]
        simp only [if_pos hcounts, if_neg hunseen, recordsFailure, Bool.and_self, if_true, hway]
        simp
        omega
      | polling | provision =>
        refine balance_of_quiet (by simp [recordsFailure]) (by simp [OnItsWay]) (by simp) ?_ hunseen
        simp [CountsDelivery]
  | @finish l raised hp =>
    have hcounts : ¬ CountsDelivery w (.finish l raised) := by simp [CountsDelivery]
    by_cases hl : l = .sweep ∧ raised = true
    · -- The sweep raises: its exception is on its way, or no loop awaits it.
      obtain ⟨rfl, rfl⟩ := hl
      have hway : ¬ OnItsWay w := fun h => by simp [OnItsWay, hp] at h
      by_cases ht : w.task .sweep = .awaiting
      · have hunseen : ¬ RaisesUnseen w (.finish .sweep true) := by simp [RaisesUnseen, ht]
        simp only [if_neg hway, if_neg hcounts, if_neg hunseen]
        simp [OnItsWay, ht]
      · have hunseen : RaisesUnseen w (.finish .sweep true) := .inl ⟨rfl, ht⟩
        simp only [if_neg hway, if_neg hcounts, if_pos hunseen]
        simp [OnItsWay, ht]
    · have hunseen : ¬ RaisesUnseen w (.finish l raised) := by
        rintro (⟨heq, -⟩ | ⟨heq, -⟩)
        · exact hl (Event.finish.inj heq)
        · cases heq
      refine balance_of_quiet rfl ?_ (by simpa using hl) hcounts hunseen
      cases l with
      | sweep =>
        have hfalse : raised = false := by simpa using hl
        simp [OnItsWay, hp, hfalse]
      | delivery | polling | provision => simp [OnItsWay]
  | @cancel l ls hl ha hd =>
    have hcounts : ¬ CountsDelivery w (.cancel l) := by simp [CountsDelivery]
    by_cases hway : l = .sweep ∧ OnItsWay w
    · -- The exception that was on its way is lost with its loop.
      obtain ⟨rfl, hway⟩ := hway
      have hunseen : RaisesUnseen w (.cancel .sweep) := .inr ⟨rfl, hway⟩
      simp only [if_pos hway, if_neg hcounts, if_pos hunseen]
      simp [OnItsWay]
    · have hunseen : ¬ RaisesUnseen w (.cancel l) := by simpa [RaisesUnseen] using hway
      refine balance_of_quiet rfl ?_ (by simp) hcounts hunseen
      cases l with
      | sweep =>
        have hnot : ¬ OnItsWay w := fun h => hway ⟨rfl, h⟩
        simp only [hnot, iff_false]
        simp [OnItsWay]
      | delivery | polling | provision => simp [OnItsWay]

/-- No step both counts a delivery and raises a sweep unseen. -/
theorem not_countsDelivery_of_raisesUnseen (h : RaisesUnseen w e) : ¬ CountsDelivery w e := by
  rintro ⟨rfl, -⟩
  rcases h with ⟨h, -⟩ | ⟨h, -⟩ <;> cases h

/-! ### Runs -/

/-- The stamp follows the last sweep that completed. -/
theorem stampsSweeps_step {a : Event × ℚ} (h : StampsSweeps steps s)
    (hs : stampedSystem.step s a s') : StampsSweeps (steps ++ [(s, a)]) s' := by
  obtain ⟨e, now⟩ := a
  rw [StampsSweeps, hs.2, completedSweeps, List.filterMap_append]
  by_cases he : e = .finish .sweep false
  · subst he
    simp [stampAfter]
  -- Any other step sets no stamp, and completes no sweep.
  · have hkept : stampAfter (e, now) s.lastSweepEpoch = s.lastSweepEpoch := by
      rw [stampAfter]
      rintro _ ⟨⟩
      exact he rfl
    have hnone : List.filterMap (fun x : StampedWorld × (Event × ℚ) =>
        if x.2.1 = .finish .sweep false then some x.2.2 else none) [(s, (e, now))] = [] := by
      simp [he]
    rw [hkept, hnone, List.append_nil]
    exact h

/-- **The stamp** is right in every run: none, or the time of the last sweep that completed. -/
theorem stamps_sweeps (h : stampedSystem.Run steps s) : StampsSweeps steps s := by
  induction h with
  | init h => exact h.2
  | snoc _ hs ih => exact stampsSweeps_step ih hs

/-- Where the counter was right, a step keeps it so iff it goes with the sweeps. -/
theorem countsSweeps_step_iff {a : Event × ℚ} (h : CountsSweeps steps s)
    (hs : stampedSystem.step s a s') :
    CountsSweeps (steps ++ [(s, a)]) s' ↔ CountsOnlySweeps s a := by
  have hbalance := balance_of_step hs.1
  have hraised : raisedSweeps (steps ++ [(s, a)]) =
      raisedSweeps steps + if a.1 = .finish .sweep true then 1 else 0 := by
    by_cases he : a.1 = .finish .sweep true <;> simp [raisedSweeps, he]
  rw [CountsSweeps] at h ⊢
  rw [hraised, h, CountsOnlySweeps]
  -- The counter moves with the sweeps iff neither of the two terms that disturb it is there.
  by_cases hunseen : RaisesUnseen s.world a.1
  · have hcounts := not_countsDelivery_of_raisesUnseen hunseen
    simp only [if_pos hunseen, if_neg hcounts] at hbalance
    simp only [hunseen, not_true_eq_false, and_false, iff_false]
    omega
  · by_cases hcounts : CountsDelivery s.world a.1
    · simp only [if_neg hunseen, if_pos hcounts] at hbalance
      simp only [hcounts, not_true_eq_false, false_and, iff_false]
      omega
    · simp only [if_neg hunseen, if_neg hcounts] at hbalance
      simp only [hunseen, hcounts, not_false_eq_true, and_self, iff_true]
      omega

/-- **Counter and stamp** are right at every point of a run exactly where every step of it goes
with the sweeps: no pass of the delivery loop that raised is counted, and no sweep raises that its
loop will not see. -/
theorem counts_sweeps_iff (h : stampedSystem.Run steps s) :
    Throughout (fun before s => CountsSweeps before s ∧ StampsSweeps before s) steps s ↔
      ∀ x ∈ steps, CountsOnlySweeps x.1 x.2 := by
  refine Run.throughout_iff (fun s hinit => ?_) (fun _ _ _ _ hP hs => ?_) h
  · obtain ⟨⟨enabled, installed, hworld⟩, hepoch⟩ := hinit
    refine ⟨?_, hepoch⟩
    rw [CountsSweeps, hworld]
    simp [raisedSweeps, started, OnItsWay]
  · rw [and_iff_left (stampsSweeps_step hP.2 hs)]
    exact countsSweeps_step_iff hP.1 hs

/-- The process once the worker was started, with a product port. -/
def stampedStart : StampedWorld := ⟨started true true, none⟩

theorem stampedStart_init : stampedSystem.init stampedStart := ⟨⟨true, true, rfl⟩, rfl⟩

/-- A sweep completes, and the next one raises and is counted. -/
theorem counts_sweeps_iff_sweep : ∃ steps s, stampedSystem.Run steps s ∧
    s.world.sweepFailures = 1 ∧ s.lastSweepEpoch = some 20 ∧
      Throughout (fun before s => CountsSweeps before s ∧ StampsSweeps before s) steps s := by
  have hfirst := ((((Run.init stampedStart_init).snoc (a := (.submit .sweep, 10))
    (t := ⟨_, _⟩) ⟨.submit rfl rfl, rfl⟩).snoc (a := (.begin .sweep, 11)) (t := ⟨_, _⟩)
    ⟨.begin rfl, rfl⟩).snoc (a := (.finish .sweep false, 20)) (t := ⟨_, _⟩)
    ⟨.finish false rfl, rfl⟩).snoc (a := (.resume .sweep, 21)) (t := ⟨_, _⟩) ⟨.resume rfl rfl, rfl⟩
  have hsecond := ((((hfirst.snoc (a := (.wake .sweep, 30)) (t := ⟨_, _⟩) ⟨.wake rfl, rfl⟩).snoc
    (a := (.submit .sweep, 30)) (t := ⟨_, _⟩) ⟨.submit rfl rfl, rfl⟩).snoc
    (a := (.begin .sweep, 31)) (t := ⟨_, _⟩) ⟨.begin rfl, rfl⟩).snoc
    (a := (.finish .sweep true, 32)) (t := ⟨_, _⟩) ⟨.finish true rfl, rfl⟩).snoc
    (a := (.resume .sweep, 33)) (t := ⟨_, _⟩) ⟨.resume rfl rfl, rfl⟩
  exact ⟨_, _, hsecond, rfl, rfl, (counts_sweeps_iff hsecond).mpr (by
    simp [CountsOnlySweeps, CountsDelivery, RaisesUnseen])⟩

/-- A delivery pass raises, and a failed sweep is counted. -/
theorem not_counts_sweeps_delivery : ¬ ∀ steps s, stampedSystem.Run steps s →
    Throughout (fun before s => CountsSweeps before s ∧ StampsSweeps before s) steps s := by
  intro h
  have hrun := ((((Run.init stampedStart_init).snoc (a := (.submit .delivery, 10))
    (t := ⟨_, _⟩) ⟨.submit rfl rfl, rfl⟩).snoc (a := (.begin .delivery, 11)) (t := ⟨_, _⟩)
    ⟨.begin rfl, rfl⟩).snoc (a := (.finish .delivery true, 12)) (t := ⟨_, _⟩)
    ⟨.finish true rfl, rfl⟩).snoc (a := (.resume .delivery, 13)) (t := ⟨_, _⟩)
    ⟨.resume rfl rfl, rfl⟩
  have hcounts := (h _ _ hrun).2.1
  simp [CountsSweeps, raisedSweeps, recordsFailure, OnItsWay, started, stampedStart] at hcounts

end DotmacIntegrator.Worker
