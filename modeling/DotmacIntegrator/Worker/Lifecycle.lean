import DotmacIntegrator.Foundation.StepSystem
import Mathlib.Data.Nat.Notation
import Mathlib.Logic.Function.Basic

/-!
# The worker and the application's shutdown

Four loops each start a pass on a thread, await it, and wait for the next. At shutdown the worker
is stopped, loop after loop: its task is cancelled and awaited. Cancelling a task that awaits a
pass resumes the task; a pass that has begun goes on in its thread. The engine is disposed when
the last task has been awaited.

## Main definitions

* `World`, `workerSystem`: the loops, their passes and the shutdown, step by step
* `DisposesMidPass`: the engine can be disposed while a pass has begun and not finished
* `NoCancelMidPass`: no task is cancelled while its pass is queued or runs

## Main results

* `Ended.step`: a task that has ended takes no further step
* `outlives_isInductive`: under the condition a task awaits every pass that is queued or runs,
  and the tasks the shutdown is past have ended
* `exists_disposes_midPass`: a task cancelled under its pass lets the engine be disposed under it
* `engine_outlives_passes`: the condition is enough, and each step that fails it can end so
-/

namespace DotmacIntegrator.Worker

/-! ### The process -/

/-- The loops of the worker. -/
inductive WorkerLoop
  | sweep
  | delivery
  | polling
  | provision
  deriving DecidableEq, Repr

/-- Where a loop's task is: never created, at the head of its loop, awaiting its pass, waiting for
the interval, cancelled but not yet unwound, or done. -/
inductive TaskState
  | absent
  | ready
  | awaiting
  | waiting
  | cancelling
  | done
  deriving DecidableEq, Repr

/-- The pass a loop submitted last. -/
inductive Pass
  | idle
  | queued
  | running
  | finished (raised : Bool)
  deriving DecidableEq, Repr

/-- Where the application's lifespan is: serving, about to cancel the next task, awaiting the one
it cancelled, or past the disposal of the engine. -/
inductive Lifespan
  | serving
  | stopping (tasks : List WorkerLoop)
  | joining (task : WorkerLoop) (tasks : List WorkerLoop)
  | disposed
  deriving DecidableEq, Repr

/-- The state of the process. -/
structure World where
  task : WorkerLoop → TaskState
  pass : WorkerLoop → Pass
  stopping : Bool
  lifespan : Lifespan
  sweepFailures : ℕ

/-- The process once `start` returned: a disabled worker has no task, and the delivery loop runs
only where a product port is installed. -/
def started (workerEnabled productPortInstalled : Bool) : World where
  task l :=
    match l with
    | .delivery => if workerEnabled && productPortInstalled then .ready else .absent
    | _ => if workerEnabled then .ready else .absent
  pass _ := .idle
  stopping := false
  lifespan := .serving
  sweepFailures := 0

/-- The order in which `stop` cancels the tasks. -/
def stopOrder : List WorkerLoop := [.delivery, .provision, .polling, .sweep]

/-- The loops that count a pass that raised. -/
def recordsFailure : WorkerLoop → Bool
  | .sweep | .delivery => true
  | .polling | .provision => false

/-- What happens: the steps of the loops, of the threads, and of the lifespan. -/
inductive Event
  | submit (l : WorkerLoop)
  | leave (l : WorkerLoop)
  | resume (l : WorkerLoop)
  | wake (l : WorkerLoop)
  | withdraw (l : WorkerLoop)
  | unwind (l : WorkerLoop)
  | begin (l : WorkerLoop)
  | finish (l : WorkerLoop) (raised : Bool)
  | shutdown
  | skip (l : WorkerLoop)
  | cancel (l : WorkerLoop)
  | joined (l : WorkerLoop)
  | dispose
  deriving DecidableEq, Repr

/-- One step of the process. -/
inductive Step : World → Event → World → Prop
  /-- A loop that is not stopped submits its pass and awaits it. -/
  | submit {w : World} {l : WorkerLoop} (ht : w.task l = .ready) (hs : w.stopping = false) :
      Step w (.submit l)
        { w with
          task := Function.update w.task l .awaiting
          pass := Function.update w.pass l .queued }
  | leave {w : World} {l : WorkerLoop} (ht : w.task l = .ready) (hs : w.stopping = true) :
      Step w (.leave l) { w with task := Function.update w.task l .done }
  /-- The loop goes on, whether its pass returned or raised. -/
  | resume {w : World} {l : WorkerLoop} {raised : Bool} (ht : w.task l = .awaiting)
      (hp : w.pass l = .finished raised) :
      Step w (.resume l)
        { w with
          task := Function.update w.task l .waiting
          pass := Function.update w.pass l .idle
          sweepFailures :=
            if raised && recordsFailure l then w.sweepFailures + 1 else w.sweepFailures }
  | wake {w : World} {l : WorkerLoop} (ht : w.task l = .waiting) :
      Step w (.wake l) { w with task := Function.update w.task l .ready }
  /-- The cancellation reaches the pass before the task unwinds; a pass that no thread has taken
  until then is withdrawn. -/
  | withdraw {w : World} {l : WorkerLoop} (ht : w.task l = .cancelling)
      (hp : w.pass l = .queued) :
      Step w (.withdraw l) { w with pass := Function.update w.pass l .idle }
  | unwind {w : World} {l : WorkerLoop} (ht : w.task l = .cancelling) (hp : w.pass l ≠ .queued) :
      Step w (.unwind l) { w with task := Function.update w.task l .done }
  | begin {w : World} {l : WorkerLoop} (hp : w.pass l = .queued) :
      Step w (.begin l) { w with pass := Function.update w.pass l .running }
  | finish {w : World} {l : WorkerLoop} (raised : Bool) (hp : w.pass l = .running) :
      Step w (.finish l raised) { w with pass := Function.update w.pass l (.finished raised) }
  | shutdown {w : World} (hl : w.lifespan = .serving) :
      Step w .shutdown { w with stopping := true, lifespan := .stopping stopOrder }
  /-- There is no task to cancel, or it has ended. -/
  | skip {w : World} {l : WorkerLoop} {ls : List WorkerLoop}
      (hl : w.lifespan = .stopping (l :: ls)) (ht : w.task l = .absent ∨ w.task l = .done) :
      Step w (.skip l) { w with lifespan := .stopping ls }
  | cancel {w : World} {l : WorkerLoop} {ls : List WorkerLoop}
      (hl : w.lifespan = .stopping (l :: ls)) (ha : w.task l ≠ .absent) (hd : w.task l ≠ .done) :
      Step w (.cancel l)
        { w with
          task := Function.update w.task l .cancelling
          lifespan := .joining l ls }
  | joined {w : World} {l : WorkerLoop} {ls : List WorkerLoop} (hl : w.lifespan = .joining l ls)
      (ht : w.task l = .done) :
      Step w (.joined l) { w with lifespan := .stopping ls }
  | dispose {w : World} (hl : w.lifespan = .stopping []) :
      Step w .dispose { w with lifespan := .disposed }

/-- The process, from the start of its worker. -/
def workerSystem : StepSystem World Event where
  init w := ∃ workerEnabled productPortInstalled, w = started workerEnabled productPortInstalled
  step := Step

/-- The loop's pass was submitted and has not finished. -/
def Pending (w : World) (l : WorkerLoop) : Prop := w.pass l = .queued ∨ w.pass l = .running

/-- The engine can be disposed while a pass has begun and not finished. -/
def DisposesMidPass (w : World) : Prop :=
  (∃ w', Step w .dispose w') ∧ ∃ l, w.pass l = .running

/-- No task is cancelled while its pass is queued or runs. -/
def NoCancelMidPass : World → Event → Prop := fun w e => ∀ l, e = .cancel l → ¬ Pending w l

/-! ### Tasks that have ended -/

/-- The task has ended, or there is none. -/
def Ended (w : World) (l : WorkerLoop) : Prop := w.task l = .absent ∨ w.task l = .done

theorem Ended.ne {w : World} {l l' : WorkerLoop} {t : TaskState} (h : Ended w l)
    (ht : w.task l' = t) (ha : t ≠ .absent) (hd : t ≠ .done) : l ≠ l' := by
  rintro rfl
  rcases h with h | h
  · exact ha (ht.symm.trans h)
  · exact hd (ht.symm.trans h)

/-- A task that has ended stays ended when another one moves. -/
theorem Ended.update {w w' : World} {l l' : WorkerLoop} {t : TaskState} (h : Ended w l)
    (hne : l ≠ l') (hw : w'.task = Function.update w.task l' t) : Ended w' l := by
  simpa only [Ended, hw, Function.update_of_ne hne] using h

/-- A task that has ended takes no further step. -/
theorem Ended.step {w w' : World} {e : Event} {l : WorkerLoop} (h : Ended w l)
    (hs : Step w e w') : Ended w' l := by
  -- A step that moves a task is taken from a state that has not ended.
  cases hs with
  | submit ht _ => exact h.update (h.ne ht (by decide) (by decide)) rfl
  | leave ht _ => exact h.update (h.ne ht (by decide) (by decide)) rfl
  | resume ht _ => exact h.update (h.ne ht (by decide) (by decide)) rfl
  | wake ht => exact h.update (h.ne ht (by decide) (by decide)) rfl
  | unwind ht _ => exact h.update (h.ne ht (by decide) (by decide)) rfl
  | cancel _ ha hd => exact h.update (h.ne rfl ha hd) rfl
  | withdraw | begin | finish | shutdown | skip | joined | dispose => exact h

theorem Ended.leads {w w' : World} {l : WorkerLoop} (h : Ended w l)
    (hl : workerSystem.Leads w w') : Ended w' l :=
  hl.closed (I := fun v => Ended v l) (fun _ _ _ hv hs => hv.step hs) h

/-! ### Under the condition -/

/-- The tasks the shutdown has still to end. -/
def Lifespan.remaining : Lifespan → List WorkerLoop
  | .serving => stopOrder
  | .stopping ls => ls
  | .joining l ls => l :: ls
  | .disposed => []

theorem mem_stopOrder (l : WorkerLoop) : l ∈ stopOrder := by
  cases l <;> decide

/-- A task awaits every pass that is queued or runs. -/
def Awaited (w : World) : Prop := ∀ l, Pending w l → w.task l = .awaiting

/-- The tasks the shutdown is past have ended. -/
def Joined (w : World) : Prop := ∀ l ∉ w.lifespan.remaining, Ended w l

/-- A task that does not await has no pending pass. -/
theorem Awaited.ne {w : World} {l l' : WorkerLoop} {t : TaskState} (h : Awaited w)
    (hp : Pending w l) (ht : w.task l' = t) (hne : t ≠ .awaiting) : l ≠ l' := by
  rintro rfl
  exact hne (ht.symm.trans (h l hp))

/-- A step that is not a cancellation under a pass keeps every pending pass awaited. -/
theorem Awaited.step {w w' : World} {e : Event} (h : Awaited w) (hs : Step w e w')
    (hg : NoCancelMidPass w e) : Awaited w' := by
  intro l hp
  cases hs with
  | @submit l' ht _ =>
    by_cases hl : l = l'
    · -- The pass that is queued is the one its task now awaits.
      subst hl
      exact Function.update_self ..
    · simp only [Pending, Function.update_of_ne hl] at hp ⊢
      exact h l hp
  | leave ht _ =>
    simpa only [Function.update_of_ne (h.ne hp ht (by decide))] using h l hp
  -- The pass of a task that goes on has finished; the other passes are untouched.
  | @resume l' raised ht hf =>
    by_cases hl : l = l'
    · subst hl
      simp [Pending] at hp
    · simp only [Pending, Function.update_of_ne hl] at hp ⊢
      exact h l hp
  | wake ht =>
    simpa only [Function.update_of_ne (h.ne hp ht (by decide))] using h l hp
  | @withdraw l' ht hq =>
    -- A queued pass is awaited, so that its task is not being cancelled.
    exact absurd rfl (h.ne (l := l') (.inl hq) ht (by decide))
  | unwind ht _ =>
    simpa only [Function.update_of_ne (h.ne hp ht (by decide))] using h l hp
  | @begin l' hq =>
    by_cases hl : l = l'
    · subst hl
      exact h l (.inl hq)
    · simp only [Pending, Function.update_of_ne hl] at hp
      exact h l hp
  | @finish l' raised hr =>
    by_cases hl : l = l'
    · subst hl
      exact h l (.inr hr)
    · simp only [Pending, Function.update_of_ne hl] at hp
      exact h l hp
  | @cancel l' ls hl' ha hd =>
    -- The guard: the cancelled task has no pending pass.
    have hl : l ≠ l' := by
      rintro rfl
      exact hg l rfl hp
    simpa only [Function.update_of_ne hl] using h l hp
  | shutdown | skip | joined | dispose => exact h l hp

/-- The shutdown moves past a task only once it has ended. -/
theorem Joined.step {w w' : World} {e : Event} (h : Joined w) (hs : Step w e w') :
    Joined w' := by
  have hstep : ∀ l, Ended w l → Ended w' l := fun l hl => hl.step hs
  intro l hl
  cases hs with
  | shutdown => exact absurd (mem_stopOrder l) hl
  | @skip l' ls hl' ht =>
    by_cases heq : l = l'
    · subst heq
      exact ht
    · exact hstep l (h l (by simpa [hl', Lifespan.remaining, heq] using hl))
  | @cancel l' ls hl' ha hd =>
    exact hstep l (h l (by simpa [hl', Lifespan.remaining] using hl))
  | @joined l' ls hl' ht =>
    by_cases heq : l = l'
    · subst heq
      exact .inr ht
    · exact hstep l (h l (by simpa [hl', Lifespan.remaining, heq] using hl))
  | dispose hl' => exact hstep l (h l (by simp [hl', Lifespan.remaining]))
  | submit | leave | resume | wake | withdraw | unwind | begin | finish => exact hstep l (h l hl)

/-- Under the condition a task awaits every pending pass, and the tasks the shutdown is past have
ended. -/
theorem outlives_isInductive :
    (workerSystem.Guarded NoCancelMidPass).IsInductive fun w => Awaited w ∧ Joined w where
  init w hw := by
    -- No pass is submitted yet, and every task remains to be ended.
    obtain ⟨enabled, installed, rfl⟩ := hw
    exact ⟨fun l hp => by simp [Pending, started] at hp,
      fun l hl => absurd (mem_stopOrder l) hl⟩
  step w e w' h hs := ⟨h.1.step hs.1 hs.2, h.2.step hs.1⟩

/-- No pass is pending where no task remains. -/
theorem not_pending_of_remaining {w : World} (ha : Awaited w) (hj : Joined w)
    (hl : w.lifespan.remaining = []) (l : WorkerLoop) : ¬ Pending w l := by
  intro hp
  -- Every task has ended, and a pending pass would be awaited by one of them.
  have hend : Ended w l := hj l (by simp [hl])
  exact hend.ne (ha l hp) (by decide) (by decide) rfl

/-! ### Where the condition fails -/

/-- A shutdown past a running pass can end every task that remains, and leave it running. -/
theorem exists_leads_stopping_nil {l : WorkerLoop} (ls : List WorkerLoop) :
    ∀ w : World, w.lifespan = .stopping ls → Ended w l → w.pass l = .running →
      ∃ u, workerSystem.Leads w u ∧ u.lifespan = .stopping [] ∧ u.pass l = .running := by
  -- Induction on the tasks that remain: each is skipped, or cancelled and joined.
  induction ls with
  | nil => exact fun w hl _ hp => ⟨w, .refl w, hl, hp⟩
  | cons l' ls ih =>
    intro w hl hend hp
    by_cases hend' : Ended w l'
    · have hskip : workerSystem.Leads w { w with lifespan := .stopping ls } :=
        .single (Step.skip hl hend')
      obtain ⟨u, hu, hnil, hrun⟩ := ih _ rfl (hend.leads hskip) hp
      exact ⟨u, hskip.trans hu, hnil, hrun⟩
    · obtain ⟨ha, hd⟩ := not_or.mp hend'
      have hne : l ≠ l' := hend.ne rfl ha hd
      -- The task is cancelled, its pass withdrawn if no thread took it, and it unwinds.
      have hcancel := StepSystem.Leads.single (S := workerSystem) (Step.cancel hl ha hd)
      obtain ⟨v, hv, hlv, htv, hpv⟩ : ∃ v, workerSystem.Leads w v ∧
          v.lifespan = .joining l' ls ∧ v.task l' = .done ∧ v.pass l = .running := by
        by_cases hq : w.pass l' = .queued
        · have hwithdraw := hcancel.snoc (Step.withdraw (Function.update_self ..) hq)
          refine ⟨_, hwithdraw.snoc (Step.unwind (l := l') (Function.update_self ..) ?_), rfl,
            Function.update_self .., ?_⟩
          · simp
          · simpa [Function.update_of_ne hne] using hp
        · exact ⟨_, hcancel.snoc (Step.unwind (Function.update_self ..) hq), rfl,
            Function.update_self .., hp⟩
      have hjoined := hv.snoc (Step.joined hlv htv)
      obtain ⟨u, hu, hnil, hrun⟩ := ih _ rfl (hend.leads hjoined) hpv
      exact ⟨u, hjoined.trans hu, hnil, hrun⟩

/-- A task cancelled under its pass lets the engine be disposed under it. -/
theorem exists_disposes_midPass {w w' : World} {l : WorkerLoop} (hs : Step w (.cancel l) w')
    (hp : Pending w l) : ∃ u, workerSystem.Leads w' u ∧ DisposesMidPass u := by
  cases hs with
  | @cancel _ ls hl ha hd =>
    -- A thread has taken the pass, or takes it before the cancellation reaches it.
    obtain ⟨v, hv, hlv, htv, hpv⟩ : ∃ v,
        workerSystem.Leads
          { w with
            task := Function.update w.task l .cancelling
            lifespan := .joining l ls } v ∧
        v.lifespan = .joining l ls ∧ v.task l = .cancelling ∧ v.pass l = .running := by
      rcases hp with hq | hr
      · exact ⟨_, .single (Step.begin hq), rfl, Function.update_self .., Function.update_self ..⟩
      · exact ⟨_, .refl _, rfl, Function.update_self .., hr⟩
    have hunwind := hv.snoc (Step.unwind htv (by simp [hpv]))
    have hdone : Function.update v.task l .done l = .done := Function.update_self ..
    have hjoined := hunwind.snoc (Step.joined hlv hdone)
    obtain ⟨u, hu, hnil, hrun⟩ := exists_leads_stopping_nil ls
      { v with task := Function.update v.task l .done, lifespan := .stopping ls } rfl
      (.inr hdone) hpv
    exact ⟨u, hjoined.trans hu, ⟨_, .dispose hnil⟩, l, hrun⟩

/-- **The engine outlives every pass of the worker, in every run in which no task is cancelled
while its pass is queued or runs; and each step that cancels one so can be followed by a run to
the disposal of the engine under the pass.** -/
theorem engine_outlives_passes (w : World) :
    ((workerSystem.Guarded NoCancelMidPass).Reachable w →
      ¬ DisposesMidPass w ∧ (w.lifespan = .disposed → ∀ l, ¬ Pending w l)) ∧
    ∀ e w', workerSystem.step w e w' → ¬ NoCancelMidPass w e →
      ∃ u, workerSystem.Leads w' u ∧ DisposesMidPass u := by
  constructor
  · intro hw
    obtain ⟨ha, hj⟩ := outlives_isInductive.reachable hw
    constructor
    · rintro ⟨⟨w', hd⟩, l, hr⟩
      cases hd with
      | dispose hl =>
        exact not_pending_of_remaining ha hj (by rw [hl]; rfl) l (.inr hr)
    · exact fun hl => not_pending_of_remaining ha hj (by rw [hl]; rfl)
  · intro e w' hs hg
    simp only [NoCancelMidPass, not_forall, not_not] at hg
    obtain ⟨l, rfl, hp⟩ := hg
    exact exists_disposes_midPass hs hp

/-- A sweep that finished before the shutdown leaves no pass under the disposal; a sweep cancelled
while it ran does. -/
theorem engine_outlives_passes_sweep :
    (∃ w, (workerSystem.Guarded NoCancelMidPass).Reachable w ∧ w.stopping = true ∧
      ¬ DisposesMidPass w) ∧
    ∃ w, workerSystem.Reachable w ∧ DisposesMidPass w := by
  have hinit : workerSystem.init (started true false) := ⟨true, false, rfl⟩
  constructor
  · have hpass := (((StepSystem.Leads.refl (S := workerSystem.Guarded NoCancelMidPass)
      (started true false)).snoc
      ⟨Step.submit (l := .sweep) rfl rfl, by rintro _ ⟨⟩⟩).snoc
      ⟨Step.begin (l := .sweep) rfl, by rintro _ ⟨⟩⟩).snoc
      ⟨Step.finish (l := .sweep) false rfl, by rintro _ ⟨⟩⟩
    have hstop := (hpass.snoc ⟨Step.shutdown rfl, by rintro _ ⟨⟩⟩).snoc
      ⟨Step.skip (l := .delivery) rfl (.inl rfl), by rintro _ ⟨⟩⟩
    exact ⟨_, ⟨_, hinit, hstop⟩, rfl, ((engine_outlives_passes _).1 ⟨_, hinit, hstop⟩).1⟩
  · have hpass := ((StepSystem.Leads.refl (S := workerSystem) (started true false)).snoc
      (Step.submit (l := .sweep) rfl rfl)).snoc (Step.begin (l := .sweep) rfl)
    -- The idle tasks leave their loops before their turn to be cancelled comes.
    have hidle := (((hpass.snoc (Step.shutdown rfl)).snoc
      (Step.skip (l := .delivery) rfl (.inl rfl))).snoc
      (Step.leave (l := .provision) rfl rfl)).snoc (Step.leave (l := .polling) rfl rfl)
    have hskip := (hidle.snoc (Step.skip (l := .provision) rfl (.inr rfl))).snoc
      (Step.skip (l := .polling) rfl (.inr rfl))
    have hlast : ∀ w, workerSystem.Leads (started true false) w →
        w.lifespan = .stopping [.sweep] → w.task .sweep = .awaiting → w.pass .sweep = .running →
        ∃ u, workerSystem.Reachable u ∧ DisposesMidPass u := by
      intro w hw hl ht hp
      have hcancel := Step.cancel hl (by simp [ht]) (by simp [ht])
      obtain ⟨u, hu, hmid⟩ := (engine_outlives_passes w).2 _ _ hcancel
        fun h => h .sweep rfl (.inr hp)
      exact ⟨u, ⟨_, hinit, (hw.snoc hcancel).trans hu⟩, hmid⟩
    exact hlast _ hskip rfl rfl rfl

/-- A delivery pass straddles the shutdown: its task is cancelled and awaited, the idle tasks
follow, and the engine is disposed under it. -/
theorem delivery_straddles_shutdown :
    ¬ ∀ w, workerSystem.Reachable w → ¬ DisposesMidPass w := by
  intro h
  have hpass := ((StepSystem.Leads.refl (S := workerSystem) (started true true)).snoc
    (Step.submit (l := .delivery) rfl rfl)).snoc (Step.begin (l := .delivery) rfl)
  have hdelivery := (((hpass.snoc (Step.shutdown rfl)).snoc
    (Step.cancel (l := .delivery) rfl (by decide) (by decide))).snoc
    (Step.unwind (l := .delivery) rfl (by decide))).snoc (Step.joined rfl rfl)
  have hprovision := ((hdelivery.snoc (Step.cancel (l := .provision) rfl (by decide)
    (by decide))).snoc (Step.unwind (l := .provision) rfl (by decide))).snoc (Step.joined rfl rfl)
  have hpolling := ((hprovision.snoc (Step.cancel (l := .polling) rfl (by decide)
    (by decide))).snoc (Step.unwind (l := .polling) rfl (by decide))).snoc (Step.joined rfl rfl)
  have hsweep := ((hpolling.snoc (Step.cancel (l := .sweep) rfl (by decide)
    (by decide))).snoc (Step.unwind (l := .sweep) rfl (by decide))).snoc (Step.joined rfl rfl)
  have hinit : workerSystem.init (started true true) := ⟨true, true, rfl⟩
  exact h _ ⟨_, hinit, hsweep⟩ ⟨⟨_, Step.dispose rfl⟩, .delivery, rfl⟩

end DotmacIntegrator.Worker
