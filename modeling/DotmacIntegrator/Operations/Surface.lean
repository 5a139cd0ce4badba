import DotmacIntegrator.Foundation.Fallible
import DotmacIntegrator.Foundation.Transaction
import DotmacIntegrator.Operations.Ledger
import DotmacIntegrator.Secrets.Redaction

/-!
# What an operation works with

An operation reads and writes through one session, and calls the integration module, which writes
to the session and never commits. What the module does is left open: a call leaves the tables in
some state, has written some rows of its own into the ledger, and returns or raises.

## Main definitions

* `Integration`: the module, as it behaves while one operation runs
* `Surface`: the held material, the database and the module of an operation
* `evidence`, `call`: the steps operations are made of
* `lifecycleConflict`: a refusal of the module, redacted
* `Plan`: an operation as one decision: it raises, or a store is committed with its row
* `permissive`, `surfaceOf`: a module that refuses nothing, and a surface to work with

## Main results

* `exec_evidence`, `exec_call`: what the steps do
* `fails_evidence`, `fails_call`: what raises commits nothing
-/

namespace DotmacIntegrator.Operations

open DotmacIntegrator.Secrets

/-- A row of the module's installations. -/
structure ConnectorInstallation where
  id : Uuid
  connectorKey : String
  connectorVersion : String
  manifestDigest : String
  name : String
  environment : String
  state : String
  stateReason : Option String
  enabledAt : Option String
  currentConfigRevisionId : Option Uuid

/-- A row of the module's configuration revisions. -/
structure ConnectorConfigRevision where
  id : Uuid
  revision : ℤ
  schemaVersion : String
  configDigest : String
  validationStatus : String
  secretRefs : Option (Dict String Json)

/-- A row of the module's capability bindings. -/
structure CapabilityBinding where
  id : Uuid
  installationId : Uuid
  capabilityId : String
  state : String
  enabledAt : Option String

/-- What is read of a delivery attempt, or of an inbox receipt. -/
structure Repairable where
  id : Uuid
  state : String
  attemptCount : ℤ

/-- What a call of the module does: the tables it leaves, the rows it adds to the ledger, and what
it returns or raises. -/
structure Call (μ α : Type) where
  tables : μ
  rows : List AuditRow
  answer : Except Failure α

variable {μ α β : Type}

/-- The store as a call leaves it. -/
def Call.after (c : Call μ α) (store : Store μ) : Store μ := ⟨c.tables, store.ledger ++ c.rows⟩

/-- The same call, with its value made into another. -/
def Call.map (f : α → β) (c : Call μ α) : Call μ β := ⟨c.tables, c.rows, c.answer.map f⟩

/-- `dotmac_integration`, as it behaves while one operation runs. An operation that is handed a row
may change it, so that the row comes back with the answer; `enable` hands it back even where it
raises. Values of `secret_refs` may be anything until the module has checked them. -/
structure Integration (μ : Type) where
  installation : μ → Uuid → Option ConnectorInstallation
  configRevision : μ → Uuid → Option ConnectorConfigRevision
  binding : μ → Uuid → Option CapabilityBinding
  deliveryAttempt : μ → Uuid → Option Repairable
  inboxReceipt : μ → Uuid → Option Repairable
  discover : Option Failure
  createDraft : (connectorKey name environment actor : String) → Store μ →
    Call μ ConnectorInstallation
  putConfigRevision : ConnectorInstallation → (config secretRefs : Dict String Json) →
    (schemaVersion actor : String) → Store μ →
    Call μ (ConnectorInstallation × ConnectorConfigRevision × Bool)
  addBinding : ConnectorInstallation → (capabilityId : String) →
    (scope policy : Option (Dict String Json)) → (actor : String) → Store μ →
    Call μ (ConnectorInstallation × CapabilityBinding)
  mintIngressEndpoint : CapabilityBinding → (actor : String) → Store μ →
    Call μ (CapabilityBinding × String)
  setBindingEnabled : ConnectorInstallation → CapabilityBinding → (actor : String) → Store μ →
    Call μ (ConnectorInstallation × CapabilityBinding)
  enable : ConnectorInstallation → (secrets : Dict String String) → (actor : String) → Store μ →
    ConnectorInstallation × Call μ Unit
  releaseExpiredLeases : (actorAdminId : Option Uuid) → Store μ → Call μ ℤ
  replayDelivery : Repairable → (actorAdminId : Uuid) → (reason : String) → Store μ →
    Call μ Repairable
  replayReceipt : Repairable → (actorAdminId : Uuid) → (reason : String) → Store μ →
    Call μ Repairable

/-- What the interpreter decides about texts: which characters are printable, which are digits, and
how floats are written. -/
structure Interpreter where
  printable : Char → Bool
  digits : UnicodeDigits
  floats : FloatText

/-- What an operation works with. -/
structure Surface (μ : Type) where
  held : Held
  text : Interpreter
  db : Database
  integration : Integration μ

/-- A program of one operation. -/
abbrev Operation (μ : Type) := Transaction (Store μ) Raised

variable (surface : Surface μ)

/-- What may be raised. -/
def attempt (exc : Option Failure) : Operation μ Unit :=
  match exc with
  | none => pure ()
  | some exc => .raise (.failure exc)

/-- `_record`. -/
def record (row : AuditRow) : Operation μ Unit :=
  if row.action ∉ INTEGRATOR_AUDIT_ACTIONS then
    .raise (.failure ⟨[], "undeclared audit action " ++
      PyRepr.string surface.text.printable row.action⟩)
  else do
    attempt surface.db.write
    .write fun store => store.withRow row

/-- `db.commit()`. -/
def commit : Operation μ Unit := do
  attempt surface.db.commit
  .commit

/-- The row of an operation, recorded and committed. -/
def evidence (row : AuditRow) : Operation μ Unit := do
  record surface row
  commit surface

/-- A call of the module, with what it returns or raises. -/
def called (f : Store μ → Call μ α) : Operation μ (Except Failure α) := do
  let store ← .peek
  .write (f store).after
  return (f store).answer

/-- A call of the module, which may raise. -/
def call (f : Store μ → Call μ α) : Operation μ α := do
  match ← called f with
  | .ok a => return a
  | .error exc => .raise (.failure exc)

/-- `_uuid`. -/
def uuid (raw field : String) : Except Raised Uuid :=
  match Uuid.parse surface.text.digits raw with
  | some identifier => .ok identifier
  | none => .error (.httpException 422
      (s!"{field} is not a UUID: " ++ PyRepr.string surface.text.printable raw))

/-- `db.get`: a row, or what reading it raises. -/
def get (row : Option α) : Except Raised (Option α) :=
  match surface.db.read with
  | none => .ok row
  | some exc => .error (.failure exc)

/-- `_lifecycle_conflict`. -/
def lifecycleConflict (exc : Failure) : Raised :=
  let detail := Text.strip (redact surface.held exc.text)
  .httpException 409
    (if detail = "" then "integration lifecycle operation refused" else detail)

/-- What an operation amounts to: it raises and commits nothing, or it commits what the module
wrote, with a row of its own on top, and then answers. Where the database fails it raises what its
`except` branches make of the failure. -/
inductive Plan (μ : Type)
  | drops (raised : Raised)
  | lands (written : Store μ) (row : AuditRow) (answer : Except Raised Json)
    (undone : Failure → Raised)

/-- What a plan comes to. -/
def Plan.outcome (store : Store μ) : Plan μ → Except Raised Json × Store μ
  | .drops raised => (.error raised, store)
  | .lands written row answer undone =>
    match surface.db.evidence with
    | none => (answer, written.withRow row)
    | some exc => (.error (undone exc), store)

/-- A value, unless reading its rows again after the commit raises. -/
def rereading (value : Json) : Except Raised Json :=
  match surface.db.reread with
  | none => .ok value
  | some exc => .error (.failure exc)

variable {surface} {s : Session (Store μ)}

/-! ### What the steps do -/

/-- A declared row is recorded and committed, where the database does both. -/
theorem exec_evidence {row : AuditRow} (h : row.action ∈ INTEGRATOR_AUDIT_ACTIONS)
    (hdb : surface.db.evidence = none) :
    (evidence surface row).exec s =
      (.ok (), ⟨s.working.withRow row, s.working.withRow row⟩) := by
  obtain ⟨hwrite, hcommit⟩ := Option.or_eq_none_iff.mp hdb
  unfold evidence record commit attempt
  rw [if_neg (not_not.mpr h), hwrite, hcommit]
  rfl

/-- Otherwise nothing is committed. -/
theorem fails_evidence {row : AuditRow} (h : row.action ∈ INTEGRATOR_AUDIT_ACTIONS)
    {exc : Failure} (hdb : surface.db.evidence = some exc) :
    (evidence surface row).Fails (.failure exc) s := by
  unfold evidence record commit attempt
  rw [if_neg (not_not.mpr h)]
  rcases Option.or_eq_some_iff.mp hdb with hwrite | ⟨hwrite, hcommit⟩
  · rw [hwrite]
    exact ⟨s, rfl, rfl⟩
  · rw [hwrite, hcommit]
    exact ⟨⟨s.committed, s.working.withRow row⟩, rfl, rfl⟩

theorem exec_commit (hdb : surface.db.commit = none) :
    (commit surface).exec s = (.ok (), ⟨s.working, s.working⟩) := by
  unfold commit attempt
  rw [hdb]
  rfl

theorem fails_commit {exc : Failure} (hdb : surface.db.commit = some exc) :
    (commit surface).Fails (.failure exc) s := by
  unfold commit attempt
  rw [hdb]
  exact ⟨s, rfl, rfl⟩

/-- Reading rows again changes nothing. -/
theorem exec_reread (value : Json) :
    (do attempt surface.db.reread; return value : Operation μ Json).exec s =
      (rereading surface value, s) := by
  unfold attempt rereading
  cases surface.db.reread with
  | none => rfl
  | some exc => rfl

theorem exec_called (f : Store μ → Call μ α) :
    (called f).exec s =
      (.ok (f s.working).answer, ⟨s.committed, (f s.working).after s.working⟩) := rfl

theorem exec_call {f : Store μ → Call μ α} {a : α} (h : (f s.working).answer = .ok a) :
    (call f).exec s = (.ok a, ⟨s.committed, (f s.working).after s.working⟩) := by
  unfold call
  rw [Transaction.exec_bind_of_ok (exec_called f), h]
  rfl

theorem fails_call {f : Store μ → Call μ α} {exc : Failure}
    (h : (f s.working).answer = .error exc) : (call f).Fails (.failure exc) s := by
  refine ⟨⟨s.committed, (f s.working).after s.working⟩, ?_, rfl⟩
  unfold call
  rw [Transaction.exec_bind_of_ok (exec_called f), h]
  rfl

/-! ### A module that refuses nothing -/

/-- Its one identifier. -/
def onlyId : Uuid := ⟨1, by decide⟩

/-- Its one installation. -/
def onlyInstallation : ConnectorInstallation where
  id := onlyId
  connectorKey := "dotmac_erp"
  connectorVersion := "1.0.0"
  manifestDigest := "0123456789abcdef"
  name := "erp"
  environment := "test"
  state := "draft"
  stateReason := none
  enabledAt := none
  currentConfigRevisionId := some onlyId

/-- Its one revision, which references nothing. -/
def onlyRevision : ConnectorConfigRevision where
  id := onlyId
  revision := 1
  schemaVersion := "1"
  configDigest := "0123456789abcdef"
  validationStatus := "valid"
  secretRefs := none

/-- Its one binding. -/
def onlyBinding : CapabilityBinding where
  id := onlyId
  installationId := onlyId
  capabilityId := "messaging.receive.v1"
  state := "disabled"
  enabledAt := none

/-- Its one delivery, or receipt. -/
def onlyRepairable : Repairable := ⟨onlyId, "pending", 0⟩

/-- A module that writes nothing and returns what it was handed. -/
def permissive : Integration μ where
  installation _ _ := some onlyInstallation
  configRevision _ _ := some onlyRevision
  binding _ _ := some onlyBinding
  deliveryAttempt _ _ := some onlyRepairable
  inboxReceipt _ _ := some onlyRepairable
  discover := none
  createDraft _ _ _ _ store := ⟨store.tables, [], .ok onlyInstallation⟩
  putConfigRevision installation _ _ _ _ store :=
    ⟨store.tables, [], .ok (installation, onlyRevision, true)⟩
  addBinding installation _ _ _ _ store := ⟨store.tables, [], .ok (installation, onlyBinding)⟩
  mintIngressEndpoint binding _ store := ⟨store.tables, [], .ok (binding, "endpoint-key")⟩
  setBindingEnabled installation binding _ store :=
    ⟨store.tables, [], .ok (installation, binding)⟩
  enable installation _ _ store := (installation, ⟨store.tables, [], .ok ()⟩)
  releaseExpiredLeases _ store := ⟨store.tables, [], .ok 0⟩
  replayDelivery delivery _ _ store := ⟨store.tables, [], .ok delivery⟩
  replayReceipt receipt _ _ store := ⟨store.tables, [], .ok receipt⟩

/-- The surface of a module, with one reference held and a database that works. -/
def surfaceOf (value : String) (integration : Integration μ) : Surface μ where
  held := [("env://INTEGRATOR_SECRET_ERP", value)]
  text := ⟨fun _ => true, UnicodeDigits.latin1, ⟨fun _ => [], fun _ => .nan⟩⟩
  db := ⟨none, none, none, none⟩
  integration := integration

end DotmacIntegrator.Operations
