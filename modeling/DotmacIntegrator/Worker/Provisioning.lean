import DotmacIntegrator.Foundation.Observed
import Mathlib.Data.List.Count

/-!
# The provisioning pump

One pass of the pump takes a page of due operations, and drives each of them unit by unit: a unit is
claimed in a session, the connector is invoked outside of any, and what it did is settled in another
session. What a unit raises ends the operation, and is counted; the next operation goes on.

## Main definitions

* `ProvisionModule`: the module, as it answers the pump
* `provisionDueOperations`: one pass
* `UnitTrace`: what is seen of one unit, for each way it ends
* `OperationRun`: what is seen of one operation

## Main results

* `sees_attemptUnit`: a unit is seen as its outcome says
* `sees_driveOperation`: an operation is driven in complete units, and one that ends it
* `provision_accounts`: a pass is the runs of its operations, and the counts account for them
-/

namespace DotmacIntegrator.Worker

/-! ### What is seen -/

/-- What a call of the pump raises. -/
inductive Failure
  | lostClaim
  | other
  deriving DecidableEq, Repr

/-- The calls of the pump: the module's, and the commits of its two sessions. -/
inductive ProvisionCall (ι : Type)
  | discover
  | due
  | get (id : ι)
  | prepare (id : ι)
  | commitClaim (id : ι)
  | invoke (id : ι)
  | settle (id : ι)
  | commitSettlement (id : ι)
  deriving DecidableEq

/-- What a call came to: `nothing` is a missing row, or nothing claimable. -/
inductive CallAnswer
  | returned
  | nothing
  | raised (failure : Failure)
  deriving DecidableEq, Repr

/-- What the pump is seen to do. -/
inductive ProvisionEvent (ι : Type)
  | opened
  | called (call : ProvisionCall ι) (answer : CallAnswer)
  | closed
  deriving DecidableEq

variable {σ ι κ δ π ρ α : Type}

/-- A call, with what it came to. -/
def ProvisionCall.came (call : ProvisionCall ι) : Except Failure α → ProvisionEvent ι
  | .ok _ => .called call .returned
  | .error failure => .called call (.raised failure)

/-- A call that may find nothing. -/
def ProvisionCall.found (call : ProvisionCall ι) : Except Failure (Option α) → ProvisionEvent ι
  | .ok (some _) => .called call .returned
  | .ok none => .called call .nothing
  | .error failure => .called call (.raised failure)

/-! ### The pump -/

/-- `dotmac_integration` and its database, as they answer the pump: any call may raise, and may
depend on everything before it. -/
structure ProvisionModule (σ ι κ δ π ρ : Type) where
  discover : σ → Except Failure κ × σ
  due : (limit : ℕ) → σ → Except Failure (List ι) × σ
  get : ι → σ → Except Failure (Option δ) × σ
  prepare : δ → κ → σ → Except Failure (Option π) × σ
  commit : σ → Except Failure Unit × σ
  invoke : π → κ → σ → Except Failure ρ × σ
  settle : π → ρ → σ → Except Failure Unit × σ

/-- The programs of the pump. -/
abbrev ProvisionProgram (σ ι α : Type) := Observed (ProvisionEvent ι) σ Failure α

/-- `with Session(engine) as db`. -/
def session (body : ProvisionProgram σ ι α) : ProvisionProgram σ ι α := do
  .emit .opened
  body.closing .closed

/-- How a unit ends. -/
inductive UnitOutcome
  | settled
  | missing
  | nothingClaimable
  | lostClaim
  | failed
  deriving DecidableEq, Repr

/-- What the handlers make of what is raised. -/
def Failure.outcome : Failure → UnitOutcome
  | .lostClaim => .lostClaim
  | .other => .failed

/-- The counts of a pass. -/
structure ProvisionCounts where
  selected : ℕ
  settled : ℕ := 0
  failed : ℕ := 0
  lost : ℕ := 0
  deriving DecidableEq, Repr

/-- `_MAX_UNITS_PER_OPERATION`. -/
def MAX_UNITS_PER_OPERATION : ℕ := 50

variable (module : ProvisionModule σ ι κ δ π ρ) (registry : κ)

/-- The first session of a unit: what is claimed, if there is a row. -/
def claimUnit (id : ι) : ProvisionProgram σ ι (Option (Option π)) := session do
  match ← .calling (module.get id) (ProvisionCall.get id).found with
  | none => return none
  | some operation =>
    let prepared ← .calling (module.prepare operation registry) (ProvisionCall.prepare id).found
    .calling module.commit (ProvisionCall.commitClaim id).came
    return some prepared

/-- The second session of a unit. -/
def settleUnit (id : ι) (prepared : π) (result : ρ) : ProvisionProgram σ ι Unit := session do
  .calling (module.settle prepared result) (ProvisionCall.settle id).came
  .calling module.commit (ProvisionCall.commitSettlement id).came

/-- What one unit tries. -/
def tryUnit (id : ι) : ProvisionProgram σ ι UnitOutcome := do
  match ← claimUnit module registry id with
  | none => return .missing
  | some none => return .nothingClaimable
  | some (some prepared) =>
    let result ← .calling (module.invoke prepared registry) (ProvisionCall.invoke id).came
    settleUnit module id prepared result
    return .settled

/-- One unit, with its handlers. -/
def attemptUnit (id : ι) : ProvisionProgram σ ι UnitOutcome :=
  (tryUnit module registry id).catching fun failure => return failure.outcome

/-- The units of one operation, as long as they settle. -/
def driveOperation (id : ι) : ℕ → ProvisionCounts → ProvisionProgram σ ι ProvisionCounts
  | 0, counts => return counts
  | units + 1, counts => do
    match ← attemptUnit module registry id with
    | .settled => driveOperation id units { counts with settled := counts.settled + 1 }
    | .missing | .nothingClaimable => return counts
    | .lostClaim => return { counts with lost := counts.lost + 1 }
    | .failed => return { counts with failed := counts.failed + 1 }

/-- The operations of a page, one after the other. -/
def drivePage (page : List ι) (counts : ProvisionCounts) : ProvisionProgram σ ι ProvisionCounts :=
  page.foldlM (fun counts id => driveOperation module registry id MAX_UNITS_PER_OPERATION counts)
    counts

/-- `provision_due_operations`. -/
def provisionDueOperations (limit : ℕ) : ProvisionProgram σ ι ProvisionCounts := do
  let registry ← .calling module.discover ProvisionCall.discover.came
  let page ← session (.calling (module.due limit) ProvisionCall.due.came)
  drivePage module registry page { selected := page.length }

/-! ### One unit -/

/-- What is seen where an operation is claimed. -/
def claimedEvents (id : ι) : List (ProvisionEvent ι) :=
  [.opened, .called (.get id) .returned, .called (.prepare id) .returned,
    .called (.commitClaim id) .returned, .closed]

/-- What is seen of a complete unit: prepare, commit, invoke, settle, commit. -/
def completeUnit (id : ι) : List (ProvisionEvent ι) :=
  claimedEvents id ++ [.called (.invoke id) .returned, .opened, .called (.settle id) .returned,
    .called (.commitSettlement id) .returned, .closed]

/-- What is seen of one unit, for each way it ends. -/
inductive UnitTrace (id : ι) : UnitOutcome → List (ProvisionEvent ι) → Prop
  | settled : UnitTrace id .settled (completeUnit id)
  | missing : UnitTrace id .missing [.opened, .called (.get id) .nothing, .closed]
  | nothingClaimable : UnitTrace id .nothingClaimable
      [.opened, .called (.get id) .returned, .called (.prepare id) .nothing,
        .called (.commitClaim id) .returned, .closed]
  | getRaised (failure : Failure) : UnitTrace id failure.outcome
      [.opened, .called (.get id) (.raised failure), .closed]
  | prepareRaised (failure : Failure) : UnitTrace id failure.outcome
      [.opened, .called (.get id) .returned, .called (.prepare id) (.raised failure), .closed]
  | commitClaimRaised (prepared : CallAnswer) (hprepared : ∀ failure, prepared ≠ .raised failure)
    (failure : Failure) : UnitTrace id failure.outcome
      [.opened, .called (.get id) .returned, .called (.prepare id) prepared,
        .called (.commitClaim id) (.raised failure), .closed]
  | invokeRaised (failure : Failure) : UnitTrace id failure.outcome
      (claimedEvents id ++ [.called (.invoke id) (.raised failure)])
  | settleRaised (failure : Failure) : UnitTrace id failure.outcome
      (claimedEvents id ++ [.called (.invoke id) .returned, .opened,
        .called (.settle id) (.raised failure), .closed])
  | commitSettlementRaised (failure : Failure) : UnitTrace id failure.outcome
      (claimedEvents id ++ [.called (.invoke id) .returned, .opened, .called (.settle id) .returned,
        .called (.commitSettlement id) (.raised failure), .closed])

variable {module registry}

/-- In a session, what is seen stands between its ends. -/
theorem sees_session {Q : List (ProvisionEvent ι) → Except Failure α → Prop}
    {body : ProvisionProgram σ ι α}
    (h : body.Sees fun seen => Q (.opened :: (seen ++ [.closed]))) : (session body).Sees Q := by
  apply Observed.Sees.bind
  apply Observed.sees_emit
  exact ⟨fun _ _ => Observed.Sees.closing h, nofun⟩

/-- What is seen of the first session, and what it came to. -/
theorem sees_claimUnit (id : ι) : (claimUnit module registry id).Sees fun seen r =>
    (∀ prepared, r = .ok (some (some prepared)) → seen = claimedEvents id) ∧
      (r = .ok none → UnitTrace id .missing seen) ∧
      (r = .ok (some none) → UnitTrace id .nothingClaimable seen) ∧
      ∀ failure, r = .error failure → UnitTrace id failure.outcome seen := by
  apply sees_session
  apply Observed.sees_calling_bind
  · rintro (_ | operation)
    · apply Observed.sees_pure
      exact ⟨nofun, fun _ => .missing, nofun, nofun⟩
    · apply Observed.sees_calling_bind
      · intro prepared
        apply Observed.sees_calling_bind
        · intro _
          apply Observed.sees_pure
          refine ⟨?_, nofun, ?_, nofun⟩
          · rintro _ ⟨⟩
            rfl
          · rintro ⟨⟩
            exact .nothingClaimable
        · intro failure
          refine ⟨nofun, nofun, nofun, ?_⟩
          rintro _ ⟨⟩
          cases prepared with
          | none => exact .commitClaimRaised .nothing nofun failure
          | some prepared => exact .commitClaimRaised .returned nofun failure
      · intro failure
        refine ⟨nofun, nofun, nofun, ?_⟩
        rintro _ ⟨⟩
        exact .prepareRaised failure
  · intro failure
    refine ⟨nofun, nofun, nofun, ?_⟩
    rintro _ ⟨⟩
    exact .getRaised failure

/-- What is seen of the second session, and what it came to. -/
theorem sees_settleUnit (id : ι) (prepared : π) (result : ρ) :
    (settleUnit module id prepared result).Sees fun seen r =>
      (r = .ok () → UnitTrace id .settled
        (claimedEvents id ++ .called (.invoke id) .returned :: seen)) ∧
      ∀ failure, r = .error failure → UnitTrace id failure.outcome
        (claimedEvents id ++ .called (.invoke id) .returned :: seen) := by
  apply sees_session
  apply Observed.sees_calling_bind
  · intro _
    apply Observed.sees_calling
    rintro (failure | _)
    · refine ⟨nofun, ?_⟩
      rintro _ ⟨⟩
      exact .commitSettlementRaised failure
    · exact ⟨fun _ => .settled, nofun⟩
  · intro failure
    refine ⟨nofun, ?_⟩
    rintro _ ⟨⟩
    exact .settleRaised failure

theorem sees_tryUnit (id : ι) : (tryUnit module registry id).Sees fun seen r =>
    (∀ outcome, r = .ok outcome → UnitTrace id outcome seen) ∧
      ∀ failure, r = .error failure → UnitTrace id failure.outcome seen := by
  apply Observed.Sees.bind
  refine (sees_claimUnit id).mono ?_
  rintro seen r ⟨hclaimed, hmissing, hnothing, hraised⟩
  refine ⟨?_, fun failure hr => ⟨nofun, ?_⟩⟩
  · rintro (_ | _ | prepared) rfl
    · apply Observed.sees_pure
      rw [List.append_nil]
      refine ⟨?_, nofun⟩
      rintro _ ⟨⟩
      exact hmissing rfl
    · apply Observed.sees_pure
      rw [List.append_nil]
      refine ⟨?_, nofun⟩
      rintro _ ⟨⟩
      exact hnothing rfl
    · -- The connector is invoked, and what it did is settled.
      obtain rfl := hclaimed prepared rfl
      apply Observed.sees_calling_bind
      · intro result
        apply Observed.Sees.bind
        refine (sees_settleUnit id prepared result).mono ?_
        rintro settling r ⟨hsettled, hfailed⟩
        refine ⟨?_, fun failure hr => ⟨nofun, ?_⟩⟩
        · rintro _ rfl
          apply Observed.sees_pure
          rw [List.append_nil]
          refine ⟨?_, nofun⟩
          rintro _ ⟨⟩
          exact hsettled rfl
        · rintro _ ⟨⟩
          exact hfailed failure hr
      · intro failure
        refine ⟨nofun, ?_⟩
        rintro _ ⟨⟩
        exact .invokeRaised failure
  · rintro _ ⟨⟩
    exact hraised failure hr

/-- **A unit is seen as its outcome says**, and its handlers let nothing escape. -/
theorem sees_attemptUnit (id : ι) : (attemptUnit module registry id).Sees fun seen r =>
    ∃ outcome, r = .ok outcome ∧ UnitTrace id outcome seen := by
  apply Observed.Sees.catching
  refine (sees_tryUnit id).mono ?_
  rintro seen r ⟨hended, hraised⟩
  refine ⟨fun outcome hr => ⟨outcome, rfl, hended outcome hr⟩, fun failure hr => ?_⟩
  apply Observed.sees_pure
  rw [List.append_nil]
  exact ⟨failure.outcome, rfl, hraised failure hr⟩

/-! ### One operation -/

/-- What is seen of one operation: complete units, as many as the bound allows, or fewer and then
one that ends the operation without being settled. -/
structure OperationRun (ι : Type) (bound : ℕ) where
  id : ι
  units : ℕ
  ending : Option UnitOutcome
  last : List (ProvisionEvent ι)
  complete : ending = none → units = bound ∧ last = []
  incomplete : ∀ outcome, ending = some outcome →
    units < bound ∧ outcome ≠ .settled ∧ UnitTrace id outcome last

namespace OperationRun

variable {bound : ℕ}

/-- The events of the run. -/
def trace (run : OperationRun ι bound) : List (ProvisionEvent ι) :=
  (List.replicate run.units (completeUnit run.id)).flatten ++ run.last

/-- No unit at all, where none is allowed. -/
def exhausted (id : ι) : OperationRun ι 0 where
  id := id
  units := 0
  ending := none
  last := []
  complete := fun _ => ⟨rfl, rfl⟩
  incomplete := nofun

/-- A first unit that is not settled. -/
def ended (id : ι) {outcome : UnitOutcome} (houtcome : outcome ≠ .settled)
    {last : List (ProvisionEvent ι)} (h : UnitTrace id outcome last) :
    OperationRun ι (bound + 1) where
  id := id
  units := 0
  ending := some outcome
  last := last
  complete := nofun
  incomplete := by
    rintro _ ⟨⟩
    exact ⟨bound.succ_pos, houtcome, h⟩

/-- A unit that is settled, in front. -/
def settledFirst (run : OperationRun ι bound) : OperationRun ι (bound + 1) where
  id := run.id
  units := run.units + 1
  ending := run.ending
  last := run.last
  complete := fun h => ⟨congrArg (· + 1) (run.complete h).1, (run.complete h).2⟩
  incomplete := fun outcome h =>
    ⟨Nat.succ_lt_succ (run.incomplete outcome h).1, (run.incomplete outcome h).2⟩

@[simp] theorem trace_exhausted (id : ι) : (exhausted id).trace = [] := rfl

@[simp] theorem trace_ended (id : ι) {outcome : UnitOutcome} (houtcome : outcome ≠ .settled)
    {last : List (ProvisionEvent ι)} (h : UnitTrace id outcome last) :
    (ended id houtcome h : OperationRun ι (bound + 1)).trace = last := rfl

@[simp] theorem trace_settledFirst (run : OperationRun ι bound) :
    run.settledFirst.trace = completeUnit run.id ++ run.trace := by
  simp only [trace, settledFirst, List.replicate_succ, List.flatten_cons, List.append_assoc]

/-- What a run adds to the counts. -/
def count (run : OperationRun ι bound) (counts : ProvisionCounts) : ProvisionCounts where
  selected := counts.selected
  settled := counts.settled + run.units
  failed := counts.failed + if run.ending = some .failed then 1 else 0
  lost := counts.lost + if run.ending = some .lostClaim then 1 else 0

end OperationRun

/-- A unit that is settled is complete. -/
theorem UnitTrace.eq_completeUnit {id : ι} {outcome : UnitOutcome}
    {seen : List (ProvisionEvent ι)} (h : UnitTrace id outcome seen)
    (houtcome : outcome = .settled) : seen = completeUnit id := by
  cases h with
  | settled => rfl
  | missing | nothingClaimable => cases houtcome
  | getRaised failure | prepareRaised failure | commitClaimRaised _ _ failure
  | invokeRaised failure | settleRaised failure | commitSettlementRaised failure =>
    cases failure <;> cases houtcome

/-- What a unit that is not settled adds to the counts. -/
theorem count_ended {bound : ℕ} {id : ι} {outcome : UnitOutcome} (houtcome : outcome ≠ .settled)
    {seen : List (ProvisionEvent ι)} (h : UnitTrace id outcome seen) (counts : ProvisionCounts) :
    (OperationRun.ended id houtcome h : OperationRun ι (bound + 1)).count counts =
      { counts with
        failed := counts.failed + if outcome = .failed then 1 else 0
        lost := counts.lost + if outcome = .lostClaim then 1 else 0 } := by
  simp [OperationRun.count, OperationRun.ended]

/-- **An operation is driven** in complete units, and one that ends it. -/
theorem sees_driveOperation (id : ι) (bound : ℕ) (counts : ProvisionCounts) :
    (driveOperation module registry id bound counts).Sees fun seen r =>
      ∃ run : OperationRun ι bound, run.id = id ∧ seen = run.trace ∧
        r = .ok (run.count counts) := by
  induction bound generalizing counts with
  | zero =>
    apply Observed.sees_pure
    exact ⟨.exhausted id, rfl, rfl, rfl⟩
  | succ bound ih =>
    apply Observed.Sees.bind
    refine (sees_attemptUnit id).mono ?_
    rintro seen _ ⟨outcome, rfl, hunit⟩
    refine ⟨?_, nofun⟩
    rintro _ ⟨⟩
    by_cases houtcome : outcome = .settled
    · -- What is left of the bound is a run of its own.
      obtain rfl := houtcome
      refine (ih { counts with settled := counts.settled + 1 }).mono ?_
      rintro rest _ ⟨run, rfl, rfl, rfl⟩
      refine ⟨run.settledFirst, rfl, ?_, ?_⟩
      · rw [hunit.eq_completeUnit rfl, OperationRun.trace_settledFirst]
      · simp only [OperationRun.count, OperationRun.settledFirst, Nat.add_assoc, Nat.add_comm 1]
        rfl
    · cases outcome with
      | settled => exact absurd rfl houtcome
      | missing | nothingClaimable | lostClaim | failed =>
        apply Observed.sees_pure
        refine ⟨.ended id houtcome hunit, rfl, List.append_nil seen, ?_⟩
        rw [count_ended]
        rfl

/-! ### Sessions and settlements -/

/-- With `n` sessions open, no connector is invoked while one is. -/
def InvokedOutside : ℕ → List (ProvisionEvent ι) → Prop
  | _, [] => True
  | n, .opened :: events => InvokedOutside (n + 1) events
  | n, .closed :: events => InvokedOutside (n - 1) events
  | n, .called (.invoke _) _ :: events => n = 0 ∧ InvokedOutside n events
  | n, .called _ _ :: events => InvokedOutside n events

/-- A settlement is committed. -/
def isSettlement : ProvisionEvent ι → Bool
  | .called (.commitSettlement _) .returned => true
  | _ => false

/-- A unit closes the sessions it opens, and invokes outside of them. -/
theorem UnitTrace.invokedOutside_append {id : ι} {outcome : UnitOutcome}
    {seen : List (ProvisionEvent ι)} (h : UnitTrace id outcome seen)
    (rest : List (ProvisionEvent ι)) :
    InvokedOutside 0 (seen ++ rest) ↔ InvokedOutside 0 rest := by
  cases h <;> simp [InvokedOutside, completeUnit, claimedEvents]

/-- A unit has one committed settlement, where it is settled. -/
theorem UnitTrace.countP_isSettlement {id : ι} {outcome : UnitOutcome}
    {seen : List (ProvisionEvent ι)} (h : UnitTrace id outcome seen) :
    seen.countP isSettlement = if outcome = .settled then 1 else 0 := by
  cases h with
  | settled | missing | nothingClaimable => rfl
  | commitClaimRaised prepared _ failure => cases prepared <;> cases failure <;> rfl
  | getRaised failure | prepareRaised failure | invokeRaised failure | settleRaised failure
  | commitSettlementRaised failure => cases failure <;> rfl

/-- A unit begins with a look at the operation. -/
theorem UnitTrace.attempted {id : ι} {outcome : UnitOutcome} {seen : List (ProvisionEvent ι)}
    (h : UnitTrace id outcome seen) :
    ∃ answer rest, seen = .opened :: .called (.get id) answer :: rest := by
  cases h <;> exact ⟨_, _, rfl⟩

namespace OperationRun

variable {bound : ℕ}

/-- A property of lists that complete units have, and the unit that ends an operation, is one of the
run. -/
theorem trace_induction {P : ℕ → List (ProvisionEvent ι) → Prop} (run : OperationRun ι bound)
    (hnil : P 0 [])
    (hlast : ∀ outcome last, outcome ≠ .settled → UnitTrace run.id outcome last → P 0 last)
    (hunit : ∀ units events, P units events → P (units + 1) (completeUnit run.id ++ events)) :
    P run.units run.trace := by
  unfold trace
  induction run.units with
  | zero =>
    cases hending : run.ending with
    | none => rwa [(run.complete hending).2]
    | some outcome =>
      obtain ⟨-, houtcome, hunit⟩ := run.incomplete outcome hending
      exact hlast outcome run.last houtcome hunit
  | succ units ih =>
    rw [List.replicate_succ, List.flatten_cons, List.append_assoc]
    exact hunit units _ ih

theorem invokedOutside_append (run : OperationRun ι bound) (rest : List (ProvisionEvent ι)) :
    InvokedOutside 0 (run.trace ++ rest) ↔ InvokedOutside 0 rest := by
  apply run.trace_induction (P := fun _ events =>
    InvokedOutside 0 (events ++ rest) ↔ InvokedOutside 0 rest)
  · rfl
  · intro outcome last _ h
    exact h.invokedOutside_append rest
  · intro units events ih
    rw [List.append_assoc, UnitTrace.settled.invokedOutside_append, ih]

/-- A run has a committed settlement for each of its complete units. -/
theorem countP_isSettlement (run : OperationRun ι bound) :
    run.trace.countP isSettlement = run.units := by
  apply run.trace_induction (P := fun units events => events.countP isSettlement = units)
  · rfl
  · intro outcome last houtcome h
    rw [h.countP_isSettlement, if_neg houtcome]
  · intro units events ih
    rw [List.countP_append, UnitTrace.settled.countP_isSettlement, if_pos rfl, ih, Nat.add_comm]

/-- Where a unit is allowed, an operation is looked at. -/
theorem attempted (run : OperationRun ι (bound + 1)) : ∃ answer rest,
    run.trace = .opened :: .called (.get run.id) answer :: rest := by
  unfold trace
  cases hunits : run.units with
  | succ units => exact ⟨_, _, rfl⟩
  | zero =>
    cases hending : run.ending with
    | none =>
      rw [(run.complete hending).1] at hunits
      cases hunits
    | some outcome =>
      exact (run.incomplete outcome hending).2.2.attempted

end OperationRun

/-! ### A page -/

/-- A page is driven operation after operation. -/
theorem sees_drivePage (page : List ι) (counts : ProvisionCounts) :
    (drivePage module registry page counts).Sees fun seen r =>
      ∃ runs : List (OperationRun ι MAX_UNITS_PER_OPERATION), runs.map OperationRun.id = page ∧
        seen = runs.flatMap OperationRun.trace ∧
          r = .ok (runs.foldl (fun counts run => run.count counts) counts) := by
  induction page generalizing counts with
  | nil =>
    apply Observed.sees_pure
    exact ⟨[], rfl, rfl, rfl⟩
  | cons id page ih =>
    apply Observed.Sees.bind
    refine (sees_driveOperation id MAX_UNITS_PER_OPERATION counts).mono ?_
    rintro seen _ ⟨run, rfl, rfl, rfl⟩
    refine ⟨?_, nofun⟩
    rintro _ ⟨⟩
    refine (ih (run.count counts)).mono ?_
    rintro rest _ ⟨runs, rfl, rfl, rfl⟩
    exact ⟨run :: runs, rfl, rfl, rfl⟩

/-- What the runs of a page add to the counts. -/
theorem foldl_count {bound : ℕ} (runs : List (OperationRun ι bound)) (counts : ProvisionCounts) :
    runs.foldl (fun counts run => run.count counts) counts =
      { selected := counts.selected
        settled := counts.settled + (runs.flatMap OperationRun.trace).countP isSettlement
        failed := counts.failed + runs.countP fun run => run.ending = some .failed
        lost := counts.lost + runs.countP fun run => run.ending = some .lostClaim } := by
  induction runs generalizing counts with
  | nil => rfl
  | cons run runs ih =>
    rw [List.foldl_cons, ih]
    simp only [OperationRun.count, List.flatMap_cons, List.countP_append,
      run.countP_isSettlement, List.countP_cons, decide_eq_true_eq, Nat.add_assoc, Nat.add_comm,
      Nat.add_left_comm]

theorem invokedOutside_flatMap {bound : ℕ} (runs : List (OperationRun ι bound)) :
    InvokedOutside 0 (runs.flatMap OperationRun.trace) := by
  induction runs with
  | nil => trivial
  | cons run runs ih =>
    rw [List.flatMap_cons, run.invokedOutside_append]
    exact ih

/-! ### One pass -/

/-- What is seen of the selection of a page. -/
def selectionEvents : List (ProvisionEvent ι) :=
  [.called .discover .returned, .opened, .called .due .returned, .closed]

/-- Behind the selection of a page, a pass drives it. -/
theorem provisionDueOperations_exec {limit : ℕ} {s s₁ s₂ : σ} {page : List ι}
    (hdiscover : module.discover s = (.ok registry, s₁))
    (hdue : module.due limit s₁ = (.ok page, s₂)) :
    (provisionDueOperations module limit).exec s =
      ((drivePage module registry page { selected := page.length }).exec s₂).behind
        selectionEvents := by
  simp only [Observed.exec, provisionDueOperations, session, Observed.calling, Observed.closing,
    Observed.emit, Bind.bind, hdiscover, hdue]
  rfl

/-- **A pass accounts for its page.** What is seen behind the selection of the page is the runs of
its operations, in order; no connector is invoked while a session is open; and the counts are those
of the settlements committed, and of the operations that ended by a lost claim or by a failure. -/
theorem provision_accounts (module : ProvisionModule σ ι κ δ π ρ) (limit : ℕ) (s s₁ s₂ : σ)
    (registry : κ) (page : List ι) (hdiscover : module.discover s = (.ok registry, s₁))
    (hdue : module.due limit s₁ = (.ok page, s₂)) :
    let pass := (provisionDueOperations module limit).exec s
    ∃ (runs : List (OperationRun ι MAX_UNITS_PER_OPERATION)) (counted : ProvisionCounts),
      runs.map OperationRun.id = page ∧
      (∀ run ∈ runs, ∃ answer rest, run.trace = .opened :: .called (.get run.id) answer :: rest) ∧
      pass.seen = selectionEvents ++ runs.flatMap OperationRun.trace ∧
      InvokedOutside 0 pass.seen ∧
      pass.answer = .ok counted ∧
      counted.selected = page.length ∧
      counted.settled = pass.seen.countP isSettlement ∧
      counted.lost = runs.countP (fun run => run.ending = some .lostClaim) ∧
      counted.failed = runs.countP (fun run => run.ending = some .failed) := by
  intro pass
  obtain ⟨runs, hpage, hseen, hanswer⟩ :=
    @sees_drivePage _ _ _ _ _ _ module registry page { selected := page.length } s₂
  have hexec := provisionDueOperations_exec hdiscover hdue
  have hpass : pass.seen = selectionEvents ++ runs.flatMap OperationRun.trace := by
    rw [← hseen]
    exact congrArg Observed.Run.seen hexec
  have hcounted : pass.answer = _ := (congrArg Observed.Run.answer hexec).trans hanswer
  rw [foldl_count] at hcounted
  refine ⟨runs, _, hpage, fun run _ => run.attempted, hpass, ?_, hcounted, rfl, ?_, ?_, ?_⟩
  · rw [hpass]
    exact invokedOutside_flatMap runs
  · rw [hpass, List.countP_append]
    rfl
  · exact Nat.zero_add _
  · exact Nat.zero_add _

/-- Two operations are due: the first has one unit, and the claim of the second is lost. -/
def twoDue : ProvisionModule ℕ ℕ Unit ℕ ℕ Unit where
  discover s := (.ok (), s)
  due _ s := (.ok [1, 2], s)
  get id s := (.ok (some id), s)
  prepare operation _ s := (.ok (if operation = 1 ∧ s ≠ 0 then none else some operation), s + 1)
  commit s := (.ok (), s)
  invoke _ _ s := (.ok (), s)
  settle prepared _ s := (if prepared = 1 then .ok () else .error .lostClaim, s)

theorem provision_accounts_twoDue :
    let pass := (provisionDueOperations twoDue 7).exec 0
    ∃ counted, pass.answer = .ok counted ∧ counted.selected = 2 ∧
      counted.settled = pass.seen.countP isSettlement := by
  obtain ⟨runs, counted, -, -, -, -, hanswer, hselected, hsettled, -⟩ :=
    provision_accounts twoDue 7 0 0 0 () [1, 2] rfl rfl
  exact ⟨counted, hanswer, hselected, hsettled⟩

example : ((provisionDueOperations twoDue 7).exec 0).answer.toOption =
    some { selected := 2, settled := 1, failed := 0, lost := 1 } := by decide

end DotmacIntegrator.Worker
