import DotmacIntegrator.Foundation.Uuid

/-!
# The ledger of operations

An operation of the operator surface works in one session of the database, and writes one row of
its own into the platform's audit ledger: who asked, why, and what came of it.

## Main definitions

* `OperatorIdentity`, `AuditRow`, `Store`: who asks, and what is written down
* `Failure`, `Raised`: exceptions, by the families that catch them
* `Database`: what reading, writing and committing raises
* `auditRow`: the row of `_record`

## Main results

* `names_auditRow`: a row whose details state the reason says who asked and why
-/

namespace DotmacIntegrator.Operations

/-- An authenticated operator. -/
structure OperatorIdentity where
  adminId : Uuid
  label : String
  mechanism : String
  deriving DecidableEq

/-- A row of the platform's audit ledger. -/
structure AuditRow where
  actorAdminId : Option Uuid
  action : String
  entityType : String
  entityId : Option String
  details : Dict String Json
  deriving DecidableEq

/-- The database: the module's tables, and the audit ledger. -/
structure Store (μ : Type) where
  tables : μ
  ledger : List AuditRow

/-- A row at the end of the ledger. -/
def Store.withRow {μ : Type} (store : Store μ) (row : AuditRow) : Store μ :=
  { store with ledger := store.ledger ++ [row] }

/-- The families of exceptions that an operation catches. -/
inductive Family
  | invalidManifest
  | lifecycle
  | activationRefused
  | secretValue
  | notRepairable
  | integrity
  deriving DecidableEq, Repr

/-- An exception of the module or of the database: its families, and `str(exc)`. -/
structure Failure where
  families : List Family
  text : String
  deriving DecidableEq, Repr

/-- What an operation raises. -/
inductive Raised
  | httpException (status : ℕ) (detail : String)
  | failure (exc : Failure)
  deriving DecidableEq, Repr

/-- What the database raises: when a row is read, when one is written, on commit, and when a row is
read again after the commit. -/
structure Database where
  read : Option Failure
  write : Option Failure
  commit : Option Failure
  reread : Option Failure
  deriving DecidableEq, Repr

/-- What writing a row and committing it raises. -/
def Database.evidence (db : Database) : Option Failure := db.write.or db.commit

/-- `INTEGRATOR_AUDIT_ACTIONS`. -/
def INTEGRATOR_AUDIT_ACTIONS : List String := [
  "integrator.binding.configured",
  "integrator.binding.enabled",
  "integrator.ingress_endpoint.minted",
  "integrator.installation.configured",
  "integrator.installation.drafted",
  "integrator.installation.enabled",
  "integrator.installation.enable_refused",
  "integrator.secrets.refreshed"]

/-- The row of `_record`: the actor and the mechanism come before what the operation adds. -/
def auditRow (actor : OperatorIdentity) (action entityType : String) (entityId : Option String)
    (details : Dict String Json) : AuditRow where
  actorAdminId := some actor.adminId
  action := action
  entityType := entityType
  entityId := entityId
  details := Dict.ofPairs ([("actor", .str actor.label), ("mechanism", .str actor.mechanism)] ++
    details)

/-- The row says who asked and why. -/
structure AuditRow.Names (row : AuditRow) (actor : OperatorIdentity) (reason : String) : Prop where
  admin : row.actorAdminId = some actor.adminId
  actor : row.details.get? "actor" = some (.str actor.label)
  reason : row.details.get? "reason" = some (.str reason)

/-- A row whose details state the reason says who asked and why. -/
theorem names_auditRow {actor : OperatorIdentity} {action entityType : String}
    {entityId : Option String} {reason : String} {details : Dict String Json}
    (h : (Dict.keys (("reason", Json.str reason) :: details)).Nodup)
    (hactor : "actor" ∉ details.keys) (hmechanism : "mechanism" ∉ details.keys) :
    (auditRow actor action entityType entityId (("reason", .str reason) :: details)).Names
      actor reason := by
  have hnodup : (Dict.keys ([("actor", Json.str actor.label),
      ("mechanism", .str actor.mechanism)] ++ ("reason", .str reason) :: details)).Nodup := by
    simp only [Dict.keys_cons, List.cons_append, List.nil_append, List.nodup_cons, List.mem_cons,
      not_or] at h ⊢
    exact ⟨⟨by decide, by decide, hactor⟩, ⟨by decide, hmechanism⟩, h⟩
  refine ⟨rfl, ?_, ?_⟩
  · show Dict.get? (Dict.ofPairs _) _ = _
    rw [Dict.ofPairs_of_nodup hnodup]
    rfl
  · show Dict.get? (Dict.ofPairs _) _ = _
    rw [Dict.ofPairs_of_nodup hnodup]
    rfl

end DotmacIntegrator.Operations
