import DotmacIntegrator.Operations.Enablement
import DotmacIntegrator.Secrets.Refresh

/-!
# Repair, leases and rotation

A replay of a delivery or a receipt and a release of leases are operations of the module: the
assembly commits them and writes no row of its own. A refresh replaces what is held before it
records anything.

## Main definitions

* `ReplayRequest`, `ReplayRequest.perform`: `replay_delivery` and `replay_receipt`
* `releaseExpiredLeases`, `sweepExpiredLeases`: the same sweep, for a person and for the timer
* `refreshSecretMaterial`: the rotation

## Main results

* `within_replay`: what a replay comes to
* `within_releaseExpiredLeases`: what a release comes to
-/

namespace DotmacIntegrator.Operations

open DotmacIntegrator.Secrets

variable {μ : Type} (surface : Surface μ) (actor : OperatorIdentity) (reason : String)

/-- `_repaired`. -/
def repaired (row : Repairable) : Json := .obj [
  ("id", .str row.id.str),
  ("state", .str row.state),
  ("attempt_count", .int row.attemptCount)]

/-- A replay: the field and the noun of its errors, the rows it looks up, and the call. -/
structure Replay (μ : Type) where
  field : String
  noun : String
  rows : μ → Uuid → Option Repairable
  call : Repairable → Uuid → String → Store μ → Call μ Repairable

/-- The row that is replayed. -/
def Replay.finds (r : Replay μ) (raw : String) (store : Store μ) : Except Raised Repairable := do
  let identifier ← uuid surface raw r.field
  match ← get surface (r.rows store.tables identifier) with
  | none => .error (.httpException 404 ("no " ++ r.noun ++ " " ++ raw))
  | some row => .ok row

/-- What the `except` branch of a replay answers. -/
def replayCaught (exc : Failure) : Raised :=
  if .notRepairable ∈ exc.families then .httpException 409 exc.text else .failure exc

/-- What is done once the row was looked up. -/
def Replay.goesOn (r : Replay μ) : Except Raised Repairable → Operation μ Json
  | .error raised => .raise raised
  | .ok row => do
    let replayed ← (Operations.call (r.call row actor.adminId reason)).catching fun
      | .httpException status detail => .raise (.httpException status detail)
      | .failure exc => .raise (replayCaught exc)
    commit surface
    attempt surface.db.reread
    return repaired replayed

/-- A replay. -/
def Replay.perform (r : Replay μ) (raw : String) : Operation μ Json := do
  r.goesOn surface actor reason (r.finds surface raw (← .peek))

/-- `replay_delivery`. -/
def replayDelivery : Replay μ where
  field := "delivery_id"
  noun := "delivery"
  rows := surface.integration.deliveryAttempt
  call := surface.integration.replayDelivery

/-- `replay_receipt`. -/
def replayReceipt : Replay μ where
  field := "receipt_id"
  noun := "receipt"
  rows := surface.integration.inboxReceipt
  call := surface.integration.replayReceipt

/-- What an operator may replay. -/
inductive ReplayRequest
  | delivery (deliveryId : String)
  | receipt (receiptId : String)

/-- The replay of a request. -/
def ReplayRequest.replay : ReplayRequest → Replay μ
  | .delivery _ => replayDelivery surface
  | .receipt _ => replayReceipt surface

/-- The identifier of a request, as it was given. -/
def ReplayRequest.raw : ReplayRequest → String
  | .delivery deliveryId => deliveryId
  | .receipt receiptId => receiptId

/-- The program of a request. -/
def ReplayRequest.perform (request : ReplayRequest) : Operation μ Json :=
  (request.replay surface).perform surface actor reason request.raw

/-- `release_expired_leases`. -/
def releaseExpiredLeases : Operation μ Json := do
  let released ← call (surface.integration.releaseExpiredLeases (some actor.adminId))
  commit surface
  return .obj [
    ("released", .int released), ("reason", .str reason), ("actor", .str actor.label)]

/-- `sweep_expired_leases`. -/
def sweepExpiredLeases : Operation μ Json := do
  let released ← call (surface.integration.releaseExpiredLeases none)
  commit surface
  return .int released

/-- `SecretLoadReport.as_dict`. -/
def reportDict (report : SecretLoadReport) : Json := .obj [
  ("held", .arr (report.held.map .str)),
  ("held_count", .int report.held.length),
  ("unresolved", .obj ((report.unresolved.mergeSort fun p q => p.1 ≤ q.1).map fun p =>
    (p.1, .str p.2))),
  ("schema_absent", .bool report.schemaAbsent)]

/-- The row of a refresh. -/
def refreshedRow (report : SecretLoadReport) : AuditRow :=
  auditRow actor "integrator.secrets.refreshed" "secret_material" none [
    ("reason", .str reason),
    ("held_count", .int report.held.length),
    ("unresolved", .arr ((report.unresolved.keys.mergeSort fun a b => a ≤ b).map .str))]

/-- `refresh_secret_material`: what is held is replaced, and then a row is recorded. -/
def refreshSecretMaterial (kernel : SourceKernel) (recognised : List String)
    (around : Surroundings) (secrets : SecretState) (store : Store μ) :
    Except (ReadFailure ⊕ Raised) Json × SecretState × Store μ :=
  match Secrets.refresh kernel surface.text.printable recognised around secrets with
  | (refreshed, .error failure) => (.error (.inl failure), refreshed, store)
  | (refreshed, .ok report) =>
    let recorded := (evidence surface (refreshedRow actor reason report)).within store
    (match recorded.1 with
      | .error raised => .error (.inr raised)
      | .ok () => .ok (reportDict report),
      refreshed, recorded.2)

variable {surface actor reason} {store : Store μ}

/-! ### What they come to -/

/-- What comes of a commit without a row: an answer, or the failure of the commit. -/
def committing (surface : Surface μ) (store written : Store μ) (answer : Except Raised Json) :
    Except Raised Json × Store μ :=
  match surface.db.commit with
  | none => (answer, written)
  | some exc => (.error (.failure exc), store)

/-- What is committed first and then answered comes to its commit. -/
theorem committing_follows {t : Operation μ Json} {answer : Except Raised Json}
    (ht : ∀ s : Session (Store μ), t.exec s = (answer, s)) (s : Session (Store μ)) :
    ((Transaction.exec (do commit surface; t) s).1,
      (Transaction.exec (do commit surface; t) s).2.committed) =
        committing surface s.committed s.working answer := by
  unfold committing
  cases hdb : surface.db.commit with
  | none => rw [Transaction.exec_bind_of_ok (exec_commit hdb), ht]
  | some exc =>
    obtain ⟨s', hs, hc⟩ := (fails_commit (s := s) hdb).bind (f := fun _ => t)
    rw [hs, hc]

/-- What a replay comes to. -/
def Replay.outcome (surface : Surface μ) (actor : OperatorIdentity) (reason : String)
    (r : Replay μ) (raw : String) (store : Store μ) : Except Raised Json × Store μ :=
  match r.finds surface raw store with
  | .error raised => (.error raised, store)
  | .ok row =>
    let made := r.call row actor.adminId reason store
    match made.answer with
    | .error exc => (.error (replayCaught exc), store)
    | .ok replayed =>
      committing surface store (made.after store) (rereading surface (repaired replayed))

/-- **A replay comes to its outcome.** -/
theorem within_replay (r : Replay μ) (raw : String) :
    (r.perform surface actor reason raw).within store =
      r.outcome surface actor reason raw store := by
  have hexec : (r.perform surface actor reason raw).exec ⟨store, store⟩ =
      (r.goesOn surface actor reason (r.finds surface raw store)).exec ⟨store, store⟩ :=
    Transaction.exec_bind_of_ok Transaction.exec_peek
  unfold Transaction.within Replay.outcome
  rw [hexec]
  cases r.finds surface raw store with
  | error raised => rfl
  | ok row =>
    simp only
    cases h : (r.call row actor.adminId reason store).answer with
    | error exc =>
      have hfails : (r.goesOn surface actor reason (.ok row)).Fails (replayCaught exc)
          ⟨store, store⟩ := by
        apply Transaction.Fails.bind
        apply (fails_call h).catching
        intro s'
        exact Transaction.fails_raise _
      obtain ⟨s', hs, hc⟩ := hfails
      rw [hs, hc]
    | ok replayed =>
      have hexec : (r.goesOn surface actor reason (.ok row)).exec ⟨store, store⟩ =
          Transaction.exec (do
            commit surface
            attempt surface.db.reread
            return repaired replayed)
            ⟨store, (r.call row actor.adminId reason store).after store⟩ :=
        Transaction.exec_bind_of_ok (Transaction.exec_catching_of_ok (exec_call h))
      rw [hexec]
      exact committing_follows (fun s => exec_reread (repaired replayed)) _

/-- What a sweep comes to. -/
def sweepOutcome (surface : Surface μ) (made : Call μ ℤ) (answer : ℤ → Json) (store : Store μ) :
    Except Raised Json × Store μ :=
  match made.answer with
  | .error exc => (.error (.failure exc), store)
  | .ok released => committing surface store (made.after store) (.ok (answer released))

theorem within_sweep {f : Store μ → Call μ ℤ} (answer : ℤ → Json) :
    Transaction.within (do
      let released ← call f
      commit surface
      return answer released : Operation μ Json) store =
        sweepOutcome surface (f store) answer store := by
  unfold Transaction.within sweepOutcome
  cases h : (f store).answer with
  | error exc =>
    obtain ⟨s', hs, hc⟩ := (fails_call (s := ⟨store, store⟩) h).bind (f := fun released => do
      commit surface
      return answer released)
    rw [hs, hc]
  | ok released =>
    rw [Transaction.exec_bind_of_ok (exec_call h)]
    exact committing_follows (fun s => rfl) _

/-- A release comes to its outcome. -/
theorem within_releaseExpiredLeases :
    (releaseExpiredLeases surface actor reason).within store =
      sweepOutcome surface
        (surface.integration.releaseExpiredLeases (some actor.adminId) store)
        (fun released => .obj [
          ("released", .int released), ("reason", .str reason), ("actor", .str actor.label)])
        store :=
  within_sweep _

/-- So does the sweep of the timer. -/
theorem within_sweepExpiredLeases :
    (sweepExpiredLeases surface).within store =
      sweepOutcome surface (surface.integration.releaseExpiredLeases none store) Json.int store :=
  within_sweep _

end DotmacIntegrator.Operations
