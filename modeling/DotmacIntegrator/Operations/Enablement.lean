import DotmacIntegrator.Operations.Authoring

/-!
# Enabling an installation

The references of the current revision have to be held before the connector is asked. A refusal is
recorded and committed, whoever refuses; only where the connector's own diagnostic is found to
quote held material is everything dropped.

## Main definitions

* `enableInstallation`: the operation
* `enablePlan`: what an enablement amounts to

## Main results

* `within_enableInstallation`: an enablement comes to what its plan comes to
-/

namespace DotmacIntegrator.Operations

open DotmacIntegrator.Secrets

variable {μ : Type} (surface : Surface μ)

/-- The installation and its current revision. -/
def findRevision (raw : String) (store : Store μ) :
    Except Raised (ConnectorInstallation × ConnectorConfigRevision) := do
  let identifier ← uuid surface raw "installation_id"
  match ← get surface (surface.integration.installation store.tables identifier) with
  | none => .error (.httpException 404 s!"no installation {raw}")
  | some installation =>
    let revision ← match installation.currentConfigRevisionId with
      | none => .ok none
      | some current => get surface (surface.integration.configRevision store.tables current)
    match revision with
    | none => .error (.httpException 409 ("installation has no configuration revision; there is " ++
        "nothing to validate a connection against"))
    | some revision => .ok (installation, revision)

/-- The references of a revision, each as its text. -/
def secretRefs (revision : ConnectorConfigRevision) : Dict String String :=
  (revision.secretRefs.getD []).map fun (name, reference) =>
    (name, PyRepr.str surface.text.printable surface.text.floats reference)

/-- `sorted(refs.values())`. -/
def sortedValues (refs : Dict String String) : List String :=
  (refs.map Prod.snd).mergeSort fun a b => a ≤ b

variable (actor : OperatorIdentity) (reason : String)

/-- The row of a refused enablement. -/
def refusedRow (installation : ConnectorInstallation) (refusal : String)
    (more : String × Json) : AuditRow :=
  auditRow actor "integrator.installation.enable_refused" "connector_installation"
    (some installation.id.str) [("reason", .str reason), ("refusal", .str refusal), more]

/-- The row where material is missing. -/
def materialRow (installation : ConnectorInstallation) (absent : Dict String String) : AuditRow :=
  refusedRow actor reason installation "material_not_held"
    ("missing", .arr ((sortedValues absent).map .str))

/-- What is answered where material is missing. -/
def materialDetail (absent : Dict String String) : String :=
  "referenced secret material is not held: " ++
    PyRepr.strings surface.text.printable (sortedValues absent) ++
    ". Material loads at startup and on an explicit POST /operations/secrets/refresh " ++
    "(ADR-0009); enablement is refused rather than attempted without it"

/-- What is answered where the connector quoted material. -/
def leakDetail : String :=
  "the connector's validation diagnostic contained secret material; the failure was NOT " ++
    "recorded, because a configuration row is immutable and reaches every backup. Fix the " ++
    "connector: a diagnostic may name a credential, never quote one"

/-- The row of an enablement. -/
def enabledRow (installation : ConnectorInstallation) (revision : ConnectorConfigRevision)
    (refs : Dict String String) : AuditRow :=
  auditRow actor "integrator.installation.enabled" "connector_installation"
    (some installation.id.str) [
      ("reason", .str reason),
      ("connector_key", .str installation.connectorKey),
      ("config_revision", .str revision.id.str),
      ("secret_references", .arr ((sortedValues refs).map .str))]

/-- What an enablement answers. -/
def enabledAnswer (installation : ConnectorInstallation) : Json := .obj [
  ("id", .str installation.id.str),
  ("connector_key", .str installation.connectorKey),
  ("state", .str installation.state),
  ("enabled_at", orNull installation.enabledAt)]

/-- A refusal, recorded and committed before it is answered. -/
def refuse (row : AuditRow) (detail : String) : Operation μ Json := do
  evidence surface row
  .raise (.httpException 409 detail)

/-- The `except` branches of an enablement, over the installation as the module left it. -/
def enableRefused (left : ConnectorInstallation) (exc : Failure) : Operation μ Json :=
  if .lifecycle ∈ exc.families then
    let detail := redact surface.held exc.text
    let reported := left.stateReason.getD ""
    if redact surface.held reported ≠ reported then do
      .rollback
      .raise (.httpException 502 leakDetail)
    else refuse surface (refusedRow actor reason left "validation_failed" ("detail", .str detail))
      detail
  else if .invalidManifest ∈ exc.families then
    refuse surface (refusedRow actor reason left "connector_not_installed"
      ("connector_key", .str left.connectorKey)) exc.text
  else .raise (.failure exc)

/-- The answer of the connector is recorded, over the installation as the module left it. -/
def enableAnswered (left : ConnectorInstallation) (revision : ConnectorConfigRevision)
    (refs : Dict String String) : Except Failure Unit → Operation μ Json
  | .error exc => enableRefused surface actor reason left exc
  | .ok () => do
    evidence surface (enabledRow actor reason left revision refs)
    attempt surface.db.reread
    return enabledAnswer left

/-- The connector is asked. -/
def enableWith (installation : ConnectorInstallation) (revision : ConnectorConfigRevision)
    (refs secrets : Dict String String) : Operation μ Json := do
  attempt surface.integration.discover
  let asked := surface.integration.enable installation secrets actor.label (← .peek)
  enableAnswered surface actor reason asked.1 revision refs (← called fun _ => asked.2)

/-- The material of an enablement is looked at before the connector is asked. -/
def enableFound (installation : ConnectorInstallation) (revision : ConnectorConfigRevision) :
    Operation μ Json :=
  let refs := secretRefs surface revision
  let absent := missingReferences surface.held refs
  if absent ≠ [] then
    refuse surface (materialRow actor reason installation absent) (materialDetail surface absent)
  else match resolveSecrets surface.held refs with
    | .error missing => .raise (.failure ⟨[], missing.message⟩)
    | .ok secrets => enableWith surface actor reason installation revision refs secrets

/-- What is done once the installation and its revision were looked up. -/
def enableGoesOn :
    Except Raised (ConnectorInstallation × ConnectorConfigRevision) → Operation μ Json
  | .error raised => .raise raised
  | .ok (installation, revision) => enableFound surface actor reason installation revision

/-- `enable_installation`. -/
def enableInstallation (installationId : String) : Operation μ Json := do
  enableGoesOn surface actor reason (findRevision surface installationId (← .peek))

/-! ### What an enablement amounts to -/

/-- The plan of a refused enablement, of what the module wrote before. -/
def refusedPlan (left : ConnectorInstallation) (exc : Failure) (written : Store μ) : Plan μ :=
  if .lifecycle ∈ exc.families then
    if redact surface.held (left.stateReason.getD "") ≠ left.stateReason.getD "" then
      .drops (.httpException 502 leakDetail)
    else .lands written
      (refusedRow actor reason left "validation_failed"
        ("detail", .str (redact surface.held exc.text)))
      (.error (.httpException 409 (redact surface.held exc.text))) .failure
  else if .invalidManifest ∈ exc.families then
    .lands written
      (refusedRow actor reason left "connector_not_installed"
        ("connector_key", .str left.connectorKey))
      (.error (.httpException 409 exc.text)) .failure
  else .drops (.failure exc)

/-- The plan of an enablement whose connector answered. -/
def answeredPlan (left : ConnectorInstallation) (revision : ConnectorConfigRevision)
    (refs : Dict String String) (answer : Except Failure Unit) (written : Store μ) : Plan μ :=
  match answer with
  | .error exc => refusedPlan surface actor reason left exc written
  | .ok () => .lands written (enabledRow actor reason left revision refs)
      (rereading surface (enabledAnswer left)) .failure

/-- The plan of an enablement whose connector is asked. -/
def askedPlan (installation : ConnectorInstallation) (revision : ConnectorConfigRevision)
    (refs secrets : Dict String String) (store : Store μ) : Plan μ :=
  match surface.integration.discover with
  | some exc => .drops (.failure exc)
  | none =>
    let asked := surface.integration.enable installation secrets actor.label store
    answeredPlan surface actor reason asked.1 revision refs asked.2.answer (asked.2.after store)

/-- The plan of an enablement whose installation and revision are there. -/
def foundPlan (installation : ConnectorInstallation) (revision : ConnectorConfigRevision)
    (store : Store μ) : Plan μ :=
  let refs := secretRefs surface revision
  let absent := missingReferences surface.held refs
  if absent ≠ [] then
    .lands store (materialRow actor reason installation absent)
      (.error (.httpException 409 (materialDetail surface absent))) .failure
  else match resolveSecrets surface.held refs with
    | .error missing => .drops (.failure ⟨[], missing.message⟩)
    | .ok secrets => askedPlan surface actor reason installation revision refs secrets store

/-- The plan of an enablement. -/
def enablePlan (installationId : String) (store : Store μ) : Plan μ :=
  match findRevision surface installationId store with
  | .error raised => .drops raised
  | .ok (installation, revision) =>
    foundPlan surface actor reason installation revision store

variable {surface actor reason} {s : Session (Store μ)}

/-- Where material is missing the refusal lands on the store as it was. -/
theorem foundPlan_of_missing {installation : ConnectorInstallation}
    {revision : ConnectorConfigRevision} {store : Store μ} {missing : SecretsNotHeld}
    (h : resolveSecrets surface.held (secretRefs surface revision) = .error missing) :
    foundPlan surface actor reason installation revision store =
      .lands store
        (materialRow actor reason installation
          (missingReferences surface.held (secretRefs surface revision)))
        (.error (.httpException 409 (materialDetail surface
          (missingReferences surface.held (secretRefs surface revision))))) .failure :=
  if_pos (missingReferences_of_error h)

/-- Where it is held the connector is asked. -/
theorem foundPlan_of_held {installation : ConnectorInstallation}
    {revision : ConnectorConfigRevision} {store : Store μ} {secrets : Dict String String}
    (h : resolveSecrets surface.held (secretRefs surface revision) = .ok secrets) :
    foundPlan surface actor reason installation revision store =
      askedPlan surface actor reason installation revision (secretRefs surface revision) secrets
        store := by
  unfold foundPlan
  simp only
  rw [if_neg (not_not.mpr (missingReferences_of_ok h)), h]

/-- A program, from where its session stands, comes to what a plan comes to. -/
def Follows (surface : Surface μ) (t : Operation μ Json) (s : Session (Store μ)) (p : Plan μ) :
    Prop :=
  ((t.exec s).1, (t.exec s).2.committed) = p.outcome surface s.committed

theorem follows_raise (raised : Raised) :
    Follows surface (.raise raised) s (.drops raised) := rfl

/-- What is recorded first and then answered, and answered without a commit of its own, lands. -/
theorem follows_evidence {row : AuditRow} (hrow : row.action ∈ INTEGRATOR_AUDIT_ACTIONS)
    {t : Operation μ Json} {answer : Except Raised Json}
    (ht : ∀ s : Session (Store μ), t.exec s = (answer, s)) :
    Follows surface (do evidence surface row; t) s (.lands s.working row answer .failure) := by
  unfold Follows Plan.outcome
  cases hdb : surface.db.evidence with
  | none =>
    rw [Transaction.exec_bind_of_ok (exec_evidence hrow hdb), ht]
  | some exc =>
    obtain ⟨s', hs, hc⟩ := (fails_evidence (s := s) hrow hdb).bind (f := fun _ => t)
    rw [hs, hc]

theorem follows_refuse {row : AuditRow} (hrow : row.action ∈ INTEGRATOR_AUDIT_ACTIONS)
    (detail : String) :
    Follows surface (refuse surface row detail) s
      (.lands s.working row (.error (.httpException 409 detail)) .failure) :=
  follows_evidence hrow fun _ => rfl

theorem refusedRow_action (installation : ConnectorInstallation) (refusal : String)
    (more : String × Json) :
    (refusedRow actor reason installation refusal more).action ∈ INTEGRATOR_AUDIT_ACTIONS := by
  show "integrator.installation.enable_refused" ∈ INTEGRATOR_AUDIT_ACTIONS
  decide

theorem enabledRow_action (installation : ConnectorInstallation)
    (revision : ConnectorConfigRevision) (refs : Dict String String) :
    (enabledRow actor reason installation revision refs).action ∈ INTEGRATOR_AUDIT_ACTIONS := by
  show "integrator.installation.enabled" ∈ INTEGRATOR_AUDIT_ACTIONS
  decide

theorem follows_enableRefused (left : ConnectorInstallation) (exc : Failure) :
    Follows surface (enableRefused surface actor reason left exc) s
      (refusedPlan surface actor reason left exc s.working) := by
  unfold enableRefused refusedPlan
  simp only
  split
  · split
    · rfl
    · exact follows_refuse (refusedRow_action ..) _
  · split
    · exact follows_refuse (refusedRow_action ..) _
    · exact follows_raise _

theorem follows_enableAnswered (left : ConnectorInstallation) (revision : ConnectorConfigRevision)
    (refs : Dict String String) (answer : Except Failure Unit) :
    Follows surface (enableAnswered surface actor reason left revision refs answer) s
      (answeredPlan surface actor reason left revision refs answer s.working) := by
  cases answer with
  | error exc => exact follows_enableRefused left exc
  | ok _ =>
    apply follows_evidence (enabledRow_action ..)
    intro s'
    exact exec_reread (enabledAnswer left)

theorem follows_enableWith (installation : ConnectorInstallation)
    (revision : ConnectorConfigRevision) (refs secrets : Dict String String) :
    Follows surface (enableWith surface actor reason installation revision refs secrets) s
      (askedPlan surface actor reason installation revision refs secrets s.working) := by
  unfold enableWith askedPlan
  cases surface.integration.discover with
  | some exc => rfl
  | none =>
    let asked := surface.integration.enable installation secrets actor.label s.working
    -- The session now sees what the module wrote.
    exact follows_enableAnswered (s := ⟨s.committed, asked.2.after s.working⟩) asked.1 revision
      refs asked.2.answer

theorem follows_enableFound (installation : ConnectorInstallation)
    (revision : ConnectorConfigRevision) :
    Follows surface (enableFound surface actor reason installation revision) s
      (foundPlan surface actor reason installation revision s.working) := by
  unfold enableFound foundPlan
  simp only
  split
  · exact follows_refuse (refusedRow_action ..) _
  · cases resolveSecrets surface.held (secretRefs surface revision) with
    | error missing => rfl
    | ok secrets => exact follows_enableWith installation revision _ secrets

/-- **An enablement comes to what its plan comes to.** -/
theorem within_enableInstallation (installationId : String) (store : Store μ) :
    (enableInstallation surface actor reason installationId).within store =
      (enablePlan surface actor reason installationId store).outcome surface store := by
  have hexec : (enableInstallation surface actor reason installationId).exec ⟨store, store⟩ =
      (enableGoesOn surface actor reason (findRevision surface installationId store)).exec
        ⟨store, store⟩ :=
    Transaction.exec_bind_of_ok Transaction.exec_peek
  unfold Transaction.within enablePlan
  rw [hexec]
  cases findRevision surface installationId store with
  | error raised => rfl
  | ok found => exact follows_enableFound (s := ⟨store, store⟩) found.1 found.2

end DotmacIntegrator.Operations
