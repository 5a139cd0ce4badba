import DotmacIntegrator.Ingress.Routes

/-!
# The polling pass

A pass of the polling loop discovers the connectors, selects one page of jobs, and hands each job to
the module, which makes the whole attempt. What an attempt raises is caught, so that the jobs behind
it are attempted too. Passes interleave, with each other and with the rest of the deployment.

## Main definitions

* `pollDueJobs`: a pass, as a process
* `tally`: the counts of a pass, by what its attempts came to
* `PassAccount`: how a pass stands

## Main results

* `poll_isolates`: a pass attempts every job that it selected, once and in their order
-/

namespace DotmacIntegrator.Worker.Polling

open Ingress (IngressRaised EngineOp UnitBody unitOfWork within_unitOfWork)
open Process (Goes Performed perform)
open Secrets

/-! ### The pass -/

/-- What an attempt recorded, and what it had recorded before. -/
structure PollResult where
  recorded : ℤ
  duplicates : ℤ
  deriving DecidableEq, Repr

/-- What the module does in an attempt: it asks the assembly, or a provider. -/
inductive AttemptOp (δ γ ν : Type)
  | engine (op : EngineOp δ γ)
  | provider (call : ν)

/-- What a pass does. -/
inductive PollOp (δ γ ν κ ι : Type)
  | discover
  | duePollingJobs (limit : ℕ)
  | attempt (op : AttemptOp δ γ ν)

variable {δ γ ν ρ κ ι : Type}

/-- What the module is answered. -/
def AttemptOp.answer (ρ : Type) : AttemptOp δ γ ν → Type
  | .engine op => op.answer
  | .provider _ => ρ

/-- What a pass is answered. -/
def PollOp.answer (ρ : Type) : PollOp δ γ ν κ ι → Type
  | .discover => Except IngressRaised κ
  | .duePollingJobs _ => Except IngressRaised (List ι)
  | .attempt op => op.answer ρ

/-- A part of a pass. -/
abbrev PollProgram (δ γ ν ρ κ ι α : Type) := Process (PollOp δ γ ν κ ι) (PollOp.answer ρ) α

/-- What a pass has performed. -/
abbrev PollLog (δ γ ν ρ κ ι : Type) := List (Σ o : PollOp δ γ ν κ ι, o.answer ρ)

/-- `dotmac_integration.poll_once`: the whole attempt at a job, with the connectors there are. -/
abbrev PollOnce (δ γ ν ρ κ ι : Type) :=
  ι → κ → Process (AttemptOp δ γ ν) (AttemptOp.answer ρ) (Except IngressRaised PollResult)

/-- The counts of a pass. -/
structure PollCounts where
  selected : ℕ
  succeeded : ℕ
  failed : ℕ
  recorded : ℤ
  duplicates : ℤ
  deriving DecidableEq, Repr

/-- What the module does is done in the pass. -/
def done (op : AttemptOp δ γ ν) : PollProgram δ γ ν ρ κ ι (op.answer ρ) :=
  perform (.attempt op : PollOp δ γ ν κ ι)

variable (pollOnce : PollOnce δ γ ν ρ κ ι)

/-- An attempt at a job. -/
def attempt (registry : κ) (job : ι) : PollProgram δ γ ν ρ κ ι (Except IngressRaised PollResult) :=
  (pollOnce job registry).among done

/-- A job of the page: what its attempt raises is counted, and no more. -/
def pollJob (registry : κ) (counts : PollCounts) (job : ι) :
    PollProgram δ γ ν ρ κ ι PollCounts := do
  match ← attempt pollOnce registry job with
  -- `except Exception`: the module has persisted what it makes of the failure.
  | .error _ => return { counts with failed := counts.failed + 1 }
  | .ok result =>
    return { counts with
      succeeded := counts.succeeded + 1
      recorded := counts.recorded + result.recorded
      duplicates := counts.duplicates + result.duplicates }

/-- The jobs of the page, one after the other. -/
def pollPage (registry : κ) (counts : PollCounts) (jobs : List ι) :
    PollProgram δ γ ν ρ κ ι PollCounts :=
  jobs.foldlM (pollJob pollOnce registry) counts

/-- `poll_due_jobs`. -/
def pollDueJobs (limit : ℕ) : ExceptT IngressRaised (PollProgram δ γ ν ρ κ ι) PollCounts := do
  let registry ← ExceptT.mk (perform (.discover : PollOp δ γ ν κ ι))
  let jobs ← ExceptT.mk (perform (.duePollingJobs limit : PollOp δ γ ν κ ι))
  ExceptT.lift (pollPage pollOnce registry ⟨jobs.length, 0, 0, 0, 0⟩ jobs)

/-! ### How passes interleave -/

/-- What an operation answers, and what it does to the tables. -/
def handles : (o : PollOp δ γ ν κ ι) → δ → o.answer ρ → δ → Prop
  | .discover, s, _, s' => s' = s
  | .duePollingJobs _, s, _, s' => s' = s
  | .attempt (.provider _), s, _, s' => s' = s
  | .attempt (.engine (.unit body)), s, a, s' =>
    ∃ faults, (unitOfWork faults body).within s = (a, s')
  | .attempt (.engine (.resolveSecrets refs)), s, a, s' =>
    (∃ held, a = resolveSecrets held refs) ∧ s' = s

/-- Passes of any size are started, and the rest of the deployment writes what it likes. -/
def pollRules : Threads.Rules δ (PollOp δ γ ν κ ι) (PollOp.answer ρ)
    (Except IngressRaised PollCounts) where
  starts p := ∃ limit, p = (pollDueJobs pollOnce limit).run
  handles := handles
  surroundings _ _ := True

/-- The passes of a process. -/
def pollSystem : StepSystem (Threads δ (PollOp δ γ ν κ ι) (PollOp.answer ρ)
    (Except IngressRaised PollCounts)) Threads.Event :=
  Threads.system (pollRules pollOnce) fun _ => True

/-! ### What a pass comes to -/

/-- An attempt at a job, to its end: what it performed, and what it came to. -/
structure Attempt (δ γ ν ρ κ ι : Type) where
  job : ι
  log : PollLog δ γ ν ρ κ ι
  result : Except IngressRaised PollResult

/-- It is one that the module makes, with these connectors. -/
def Attempt.Made (registry : κ) (x : Attempt δ γ ν ρ κ ι) : Prop :=
  Goes (attempt pollOnce registry x.job) x.log (.done x.result)

/-- What was recorded. -/
def recordedBy : Except IngressRaised PollResult → ℤ
  | .ok result => result.recorded
  | .error _ => 0

/-- What had been recorded before. -/
def duplicatesOf : Except IngressRaised PollResult → ℤ
  | .ok result => result.duplicates
  | .error _ => 0

/-- The counts of a page of which some jobs have been attempted. -/
def tally (selected : ℕ) (results : List (Except IngressRaised PollResult)) : PollCounts where
  selected := selected
  succeeded := results.countP (·.isOk)
  failed := results.countP fun r => !r.isOk
  recorded := (results.map recordedBy).sum
  duplicates := (results.map duplicatesOf).sum

/-- How the page of a pass stands: the jobs before the one that is attempted have been attempted to
their end, or all of them have been, and the pass has counted them. -/
inductive PageAccount (registry : κ) (jobs : List ι) :
    PollLog δ γ ν ρ κ ι → Option PollCounts → Prop
  | attempting (made : List (Attempt δ γ ν ρ κ ι)) (job : ι) (rest : List ι)
    (log : PollLog δ γ ν ρ κ ι) (now : PollProgram δ γ ν ρ κ ι (Except IngressRaised PollResult))
    (hjobs : jobs = made.map (·.job) ++ job :: rest)
    (hmade : ∀ x ∈ made, x.Made pollOnce registry)
    (hgoes : Goes (attempt pollOnce registry job) log now) :
    PageAccount registry jobs (made.flatMap (·.log) ++ log) none
  | ended (made : List (Attempt δ γ ν ρ κ ι)) (hjobs : jobs = made.map (·.job))
    (hmade : ∀ x ∈ made, x.Made pollOnce registry) :
    PageAccount registry jobs (made.flatMap (·.log))
      (some (tally jobs.length (made.map (·.result))))

/-- How a pass stands. It raises where the connectors are not discovered or no page is selected, and
nowhere else. -/
inductive PassAccount (limit : ℕ) :
    PollLog δ γ ν ρ κ ι → Option (Except IngressRaised PollCounts) → Prop
  | started : PassAccount limit [] none
  | undiscovered (e : IngressRaised) :
    PassAccount limit [⟨.discover, .error e⟩] (some (.error e))
  | discovered (registry : κ) : PassAccount limit [⟨.discover, .ok registry⟩] none
  | unselected (registry : κ) (e : IngressRaised) :
    PassAccount limit [⟨.discover, .ok registry⟩, ⟨.duePollingJobs limit, .error e⟩]
      (some (.error e))
  | selected (registry : κ) (jobs : List ι) (log : PollLog δ γ ν ρ κ ι)
    (r : Option PollCounts) (h : PageAccount pollOnce registry jobs log r) :
    PassAccount limit (⟨.discover, .ok registry⟩ :: ⟨.duePollingJobs limit, .ok jobs⟩ :: log)
      (r.map .ok)

/-- A unit of work landed whole between two states, or raised and left nothing. -/
def LandedWhole (body : UnitBody δ γ) (a : Except IngressRaised γ) (s s' : δ) : Prop :=
  (∃ result, a = .ok result ∧ body s = (.ok result, s')) ∨ ((∃ e, a = .error e) ∧ s' = s)

variable {pollOnce} {registry : κ} {jobs : List ι}
  {c : Threads δ (PollOp δ γ ν κ ι) (PollOp.answer ρ) (Except IngressRaised PollCounts)}
  {steps : List (Threads δ (PollOp δ γ ν κ ι) (PollOp.answer ρ) (Except IngressRaised PollCounts) ×
    Threads.Event)}

theorem tally_concat (selected : ℕ) (results : List (Except IngressRaised PollResult))
    (result : PollResult) :
    tally selected (results ++ [.ok result]) = { tally selected results with
      succeeded := (tally selected results).succeeded + 1
      recorded := (tally selected results).recorded + result.recorded
      duplicates := (tally selected results).duplicates + result.duplicates } := by
  simp [tally, recordedBy, duplicatesOf, Except.isOk, Except.toBool]

theorem tally_concat_error (selected : ℕ) (results : List (Except IngressRaised PollResult))
    (e : IngressRaised) :
    tally selected (results ++ [.error e]) = { tally selected results with
      failed := (tally selected results).failed + 1 } := by
  simp [tally, recordedBy, duplicatesOf, Except.isOk, Except.toBool]

/-- A job is attempted to its end, and counted as what the attempt came to. -/
theorem upholds_pollJob (selected : ℕ) (results : List (Except IngressRaised PollResult))
    (job : ι) :
    (pollJob pollOnce registry (tally selected results) job).Upholds fun log r =>
      (r = none → ∃ now, Goes (attempt pollOnce registry job) log now) ∧
        ∀ counts, r = some counts → ∃ result,
          Goes (attempt pollOnce registry job) log (.done result) ∧
            counts = tally selected (results ++ [result]) := by
  refine Process.upholds_bind ((Process.upholds_goes _).mono fun log r hlog => ⟨?_, ?_⟩)
  · rintro rfl
    obtain ⟨now, hgoes, -⟩ := hlog
    exact ⟨fun _ => ⟨now, hgoes⟩, nofun⟩
  · rintro result rfl
    obtain ⟨now, hgoes, hnow⟩ := hlog
    obtain rfl := Process.eq_done_of_result hnow
    rw [← List.append_nil log] at hgoes
    cases result with
    | error e =>
      refine ⟨nofun, fun counts hcounts => ?_⟩
      obtain rfl := Option.some.inj hcounts
      exact ⟨.error e, hgoes, (tally_concat_error selected results e).symm⟩
    | ok result =>
      refine ⟨nofun, fun counts hcounts => ?_⟩
      obtain rfl := Option.some.inj hcounts
      exact ⟨.ok result, hgoes, (tally_concat selected results result).symm⟩

/-- The jobs that are left of a page. -/
theorem upholds_pollPage {made : List (Attempt δ γ ν ρ κ ι)} {rest : List ι}
    (hjobs : jobs = made.map (·.job) ++ rest) (hmade : ∀ x ∈ made, x.Made pollOnce registry) :
    (pollPage pollOnce registry (tally jobs.length (made.map (·.result))) rest).Upholds
      fun log => PageAccount pollOnce registry jobs (made.flatMap (·.log) ++ log) := by
  -- The induction is on the jobs that are left; the account speaks of those before them.
  induction rest generalizing made with
  | nil =>
    rw [List.append_nil] at hjobs
    show PageAccount pollOnce registry jobs (made.flatMap (·.log) ++ []) _
    rw [List.append_nil]
    exact .ended made hjobs hmade
  | cons job rest ih =>
    rw [pollPage, List.foldlM_cons]
    refine Process.upholds_bind ((upholds_pollJob _ _ job).mono fun log r hlog => ⟨?_, ?_⟩)
    · intro hnone
      obtain ⟨now, hgoes⟩ := hlog.1 hnone
      exact .attempting made job rest log now hjobs hmade hgoes
    · intro counts hcounts
      -- This attempt has come to its end, and is the last of those that were made.
      obtain ⟨result, hgoes, rfl⟩ := hlog.2 counts hcounts
      have hmade' : ∀ x ∈ made ++ [⟨job, log, result⟩], x.Made pollOnce registry :=
        List.forall_mem_append.mpr ⟨hmade, List.forall_mem_singleton.mpr hgoes⟩
      have hrest := @ih (made ++ [⟨job, log, result⟩]) (by simpa using hjobs) hmade'
      simpa [pollPage] using hrest

/-- A pass stands in one of these ways. -/
theorem upholds_pollDueJobs (limit : ℕ) :
    (pollDueJobs pollOnce limit).run.Upholds (PassAccount pollOnce limit) := by
  refine Process.upholds_except_bind ⟨⟨fun _ => .started, nofun, nofun⟩,
    fun a => ⟨nofun, ?_, ?_⟩⟩
  · intro e he
    obtain rfl := Option.some.inj he
    exact .undiscovered e
  intro registry hregistry
  obtain rfl := Option.some.inj hregistry
  refine Process.upholds_except_bind ⟨⟨fun _ => .discovered registry, nofun, nofun⟩,
    fun a => ⟨nofun, ?_, ?_⟩⟩
  · intro e he
    obtain rfl := Option.some.inj he
    exact .unselected registry e
  intro jobs hjobs
  obtain rfl := Option.some.inj hjobs
  -- The page, of which no job has been attempted.
  have hpage := @upholds_pollPage δ γ ν ρ κ ι pollOnce registry jobs [] jobs rfl
    (List.forall_mem_nil _)
  refine Process.upholds_bind (hpage.mono fun log r hlog => ⟨?_, ?_⟩)
  · rintro rfl
    exact .selected registry jobs log none hlog
  · rintro counts rfl
    show PassAccount pollOnce limit (⟨.discover, .ok registry⟩ ::
      ⟨.duePollingJobs limit, .ok jobs⟩ :: (log ++ [])) _
    rw [List.append_nil]
    exact .selected registry jobs log (some counts) hlog

/-- **A pass attempts every job that it selected, once and in their order**, whatever the attempts
before raised, and comes to the counts of what they came to; each of its operations is a step of its
own of the run, and in that step a unit of work that an attempt opened landed whole, or left
nothing. -/
theorem poll_isolates (h : (pollSystem pollOnce).Run steps c) : ∀ t ∈ c.threads,
    (∃ limit, t.program = (pollDueJobs pollOnce limit).run ∧
      PassAccount pollOnce limit t.log t.now.result) ∧
    Threads.Happened (pollRules pollOnce) steps c t ∧
    ∀ i, c.threads[i]? = some t → ∀ before body a after,
      t.log = before ++ ⟨.attempt (.engine (.unit body)), a⟩ :: after →
      ∃ c₁ c₂, StepSystem.Moment steps c c₁ .act c₂ ∧
        Threads.Performs (pollRules pollOnce) i t.program before
          ⟨.attempt (.engine (.unit body)), a⟩ c₁ c₂ ∧
        LandedWhole body a c₁.state c₂.state := by
  intro t ht
  obtain ⟨limit, hprogram⟩ := Threads.starts_program h.reachable t ht
  refine ⟨⟨limit, hprogram, ?_⟩, Threads.happened h t, ?_⟩
  · exact (upholds_pollDueJobs limit).of_goes (hprogram ▸ t.goes)
  · intro i hi before body a after hlog
    obtain ⟨c₁, c₂, hmoment, hperforms⟩ := Threads.happened h t i hi before _ after hlog
    obtain ⟨faults, hwithin⟩ := hperforms.handles
    exact ⟨c₁, c₂, hmoment, hperforms, within_unitOfWork hwithin⟩

/-! ### A pass of two jobs -/

/-- A unit that raises behind what it wrote. -/
def raisingUnit : UnitBody ℕ Unit := fun n => (.error (.raised "ProviderError"), n + 1)

/-- A unit that records one event. -/
def recordingUnit : UnitBody ℕ Unit := fun n => (.ok (), n + 1)

/-- The attempt at one job raises, and that at the other one records an event. -/
def somePollOnce : PollOnce ℕ Unit Unit Unit Unit Bool
  | false, _ => .act (.engine (.unit raisingUnit)) fun _ => .done (.error (.raised "ProviderError"))
  | true, _ => .act (.engine (.unit recordingUnit)) fun _ => .done (.ok ⟨1, 0⟩)

/-- The pass, which has ended. -/
def polledThread : Thread (PollOp ℕ Unit Unit Unit Bool) (PollOp.answer Unit)
    (Except IngressRaised PollCounts) where
  program := (pollDueJobs somePollOnce 2).run
  log := [⟨.discover, .ok ()⟩, ⟨.duePollingJobs 2, .ok [false, true]⟩,
    ⟨.attempt (.engine (.unit raisingUnit)), .error (.raised "ProviderError")⟩,
    ⟨.attempt (.engine (.unit recordingUnit)), .ok ()⟩]
  now := .done (.ok ⟨2, 1, 1, 1, 0⟩)
  goes := .act (.act (.act (.act (.here _))))

theorem reachable_polled : (pollSystem somePollOnce).Reachable ⟨1, [polledThread]⟩ :=
  Threads.reachable_alone (s := 0) trivial ⟨2, rfl⟩
    (.cons rfl (.cons rfl (.cons ⟨{}, rfl⟩ (.cons ⟨{}, rfl⟩ (.nil _)))))

theorem poll_isolates_polled : ∃ steps limit,
    (pollSystem somePollOnce).Run steps ⟨1, [polledThread]⟩ ∧
      polledThread.program = (pollDueJobs somePollOnce limit).run ∧
      PassAccount somePollOnce limit polledThread.log (some (.ok ⟨2, 1, 1, 1, 0⟩)) := by
  obtain ⟨steps, hrun⟩ := reachable_polled.exists_run
  obtain ⟨⟨limit, hpolled⟩, -⟩ := poll_isolates hrun polledThread (List.mem_singleton_self _)
  exact ⟨steps, limit, hrun, hpolled⟩

end DotmacIntegrator.Worker.Polling
