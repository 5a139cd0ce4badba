import DotmacIntegrator.Operations.Surface

/-!
# Authoring operations

Drafting and configuring an installation, configuring and enabling a binding, and minting an
ingress endpoint go the same way: the rows named by the operator are looked up, the module is
called, one row is recorded, and all of it is committed at once. A refusal of the module is
answered as a conflict.

## Main definitions

* `Authored`: what one of these operations consists of
* `authored`: its program
* `createInstallation`, `configureInstallation`, `configureBinding`, `mintBindingIngressEndpoint`,
  `enableBinding`: the operations
* `Authored.plan`: what such an operation amounts to

## Main results

* `within_authored`: an authoring operation comes to what its plan comes to
* `createInstallation_evident` and its siblings: the row of each says who asked and why
-/

namespace DotmacIntegrator.Operations

open DotmacIntegrator.Secrets

/-- What a successful call is recorded and answered as. -/
structure Made where
  row : AuditRow
  answer : Dict String Json

/-- An authoring operation: what it looks up and then calls, the refusals it answers as conflicts,
its answer to a conflict in the database, and whether its row and its commit stand inside its
`try`. -/
structure Authored (μ : Type) where
  finds : Store μ → Except Raised (Store μ → Call μ Made)
  refused : List Family
  conflict : Option String
  inside : Bool

variable {μ : Type} (surface : Surface μ)

/-- The `try` of an operation, with its `except` branches. -/
def Authored.guarded {α : Type} (a : Authored μ) (t : Operation μ α) : Operation μ α :=
  t.catching fun
    | .httpException status detail => .raise (.httpException status detail)
    | .failure exc =>
      if exc.families.any (· ∈ a.refused) then .raise (lifecycleConflict surface exc)
      else match a.conflict with
        | none => .raise (.failure exc)
        | some detail =>
          if .integrity ∈ exc.families then do
            .rollback
            .raise (.httpException 409 detail)
          else .raise (.failure exc)

/-- The call of an operation and its row, inside or behind its `try`. -/
def Authored.makes (a : Authored μ) (make : Store μ → Call μ Made) : Operation μ Made :=
  if a.inside then
    a.guarded surface do
      let made ← call make
      evidence surface made.row
      return made
  else do
    let made ← a.guarded surface (call make)
    evidence surface made.row
    return made

/-- An authoring operation, once its rows were looked up. -/
def Authored.goesOn (a : Authored μ) :
    Except Raised (Store μ → Call μ Made) → Operation μ Json
  | .error raised => .raise raised
  | .ok make => do
    let made ← a.makes surface make
    attempt surface.db.reread
    return .obj made.answer

/-- An authoring operation. -/
def authored (a : Authored μ) : Operation μ Json := do
  attempt surface.integration.discover
  a.goesOn surface (a.finds (← .peek))

/-- What the `except` branches of an operation answer. -/
def Authored.caught (a : Authored μ) (exc : Failure) : Raised :=
  if exc.families.any (· ∈ a.refused) then lifecycleConflict surface exc
  else match a.conflict with
    | none => .failure exc
    | some detail =>
      if .integrity ∈ exc.families then .httpException 409 detail else .failure exc

/-- Every row of the operation is declared, and says who asked and why. -/
def Authored.Evident (a : Authored μ) (actor : OperatorIdentity) (reason : String) : Prop :=
  ∀ store make made, a.finds store = .ok make → (make store).answer = .ok made →
    made.row.action ∈ INTEGRATOR_AUDIT_ACTIONS ∧ made.row.Names actor reason

/-- What an authoring operation amounts to. -/
def Authored.plan (a : Authored μ) (store : Store μ) : Plan μ :=
  match surface.integration.discover with
  | some exc => .drops (.failure exc)
  | none =>
    match a.finds store with
    | .error raised => .drops raised
    | .ok make =>
      match (make store).answer with
      | .error exc => .drops (a.caught surface exc)
      | .ok made =>
        .lands ((make store).after store) made.row (rereading surface (.obj made.answer))
          (if a.inside then a.caught surface else .failure)

/-- `_installation`. -/
def findInstallation (raw : String) (store : Store μ) : Except Raised ConnectorInstallation := do
  let identifier ← uuid surface raw "installation_id"
  match ← get surface (surface.integration.installation store.tables identifier) with
  | none => .error (.httpException 404 s!"no installation {raw}")
  | some installation => .ok installation

/-- `_binding`. -/
def findBinding (raw : String) (store : Store μ) : Except Raised CapabilityBinding := do
  let identifier ← uuid surface raw "binding_id"
  match ← get surface (surface.integration.binding store.tables identifier) with
  | none => .error (.httpException 404 s!"no binding {raw}")
  | some binding => .ok binding

/-- A text, or `None`. -/
def orNull : Option String → Json
  | none => .null
  | some text => .str text

variable (actor : OperatorIdentity) (reason : String)

/-- `create_installation`. -/
def createInstallation (connectorKey name environment : String) : Authored μ where
  finds _ := .ok fun store =>
    (surface.integration.createDraft connectorKey name environment actor.label store).map
      fun installation => {
        row := auditRow actor "integrator.installation.drafted" "connector_installation"
          (some installation.id.str) [
            ("reason", .str reason),
            ("connector_key", .str installation.connectorKey),
            ("connector_version", .str installation.connectorVersion),
            ("environment", .str installation.environment)]
        answer := [
          ("id", .str installation.id.str),
          ("connector_key", .str installation.connectorKey),
          ("connector_version", .str installation.connectorVersion),
          ("manifest_digest", .str installation.manifestDigest),
          ("name", .str installation.name),
          ("environment", .str installation.environment),
          ("state", .str installation.state)] }
  refused := [.invalidManifest]
  conflict := some "an installation with this connector key and name already exists"
  inside := true

/-- `configure_installation`. -/
def configureInstallation (installationId : String) (config secretRefs : Dict String Json)
    (schemaVersion : String) : Authored μ where
  finds store := do
    let installation ← findInstallation surface installationId store
    return fun store =>
      (surface.integration.putConfigRevision installation config secretRefs schemaVersion
        actor.label store).map fun (installation, revision, isNew) => {
          row := auditRow actor "integrator.installation.configured" "connector_installation"
            (some installation.id.str) [
              ("reason", .str reason),
              ("config_revision_id", .str revision.id.str),
              ("revision", .int revision.revision),
              ("schema_version", .str revision.schemaVersion),
              ("is_new", .bool isNew)]
          answer := [
            ("installation_id", .str installation.id.str),
            ("config_revision_id", .str revision.id.str),
            ("revision", .int revision.revision),
            ("schema_version", .str revision.schemaVersion),
            ("config_digest", .str revision.configDigest),
            ("validation_status", .str revision.validationStatus),
            ("is_new", .bool isNew),
            ("installation_state", .str installation.state)] }
  refused := [.invalidManifest, .lifecycle, .secretValue]
  conflict := some "configuration revision conflicted with a concurrent write; retry"
  inside := false

/-- `configure_binding`. -/
def configureBinding (installationId capabilityId : String)
    (scope policy : Option (Dict String Json)) : Authored μ where
  finds store := do
    let installation ← findInstallation surface installationId store
    return fun store =>
      (surface.integration.addBinding installation capabilityId scope policy actor.label
        store).map fun (installation, binding) => {
          row := auditRow actor "integrator.binding.configured" "capability_binding"
            (some binding.id.str) [
              ("reason", .str reason),
              ("installation_id", .str installation.id.str),
              ("capability_id", .str binding.capabilityId)]
          answer := [
            ("id", .str binding.id.str),
            ("installation_id", .str installation.id.str),
            ("capability_id", .str binding.capabilityId),
            ("state", .str binding.state)] }
  refused := [.invalidManifest, .lifecycle]
  conflict := some "capability binding conflicted with a concurrent write; retry"
  inside := false

/-- `mint_binding_ingress_endpoint`. -/
def mintBindingIngressEndpoint (bindingId : String) : Authored μ where
  finds store := do
    let binding ← findBinding surface bindingId store
    return fun store =>
      (surface.integration.mintIngressEndpoint binding actor.label store).map
        fun (binding, endpointKey) => {
          row := auditRow actor "integrator.ingress_endpoint.minted" "capability_binding"
            (some binding.id.str) [
              ("reason", .str reason),
              ("installation_id", .str binding.installationId.str),
              ("capability_id", .str binding.capabilityId)]
          answer := [
            ("binding_id", .str binding.id.str),
            ("ingress_endpoint_key", .str endpointKey)] }
  refused := [.invalidManifest, .lifecycle]
  conflict := none
  inside := false

/-- `enable_binding`. -/
def enableBinding (bindingId : String) : Authored μ where
  finds store := do
    let binding ← findBinding surface bindingId store
    match ← get surface (surface.integration.installation store.tables binding.installationId) with
    | none => .error (.httpException 409 "binding installation is missing")
    | some installation =>
      return fun store =>
        (surface.integration.setBindingEnabled installation binding actor.label store).map
          fun (installation, binding) => {
            row := auditRow actor "integrator.binding.enabled" "capability_binding"
              (some binding.id.str) [
                ("reason", .str reason),
                ("installation_id", .str installation.id.str),
                ("capability_id", .str binding.capabilityId)]
            answer := [
              ("id", .str binding.id.str),
              ("installation_id", .str installation.id.str),
              ("capability_id", .str binding.capabilityId),
              ("state", .str binding.state),
              ("enabled_at", orNull binding.enabledAt)] }
  refused := [.activationRefused, .invalidManifest, .lifecycle]
  conflict := none
  inside := false

variable {surface actor reason} {a : Authored μ} {store : Store μ}

/-! ### What an authoring operation comes to -/

/-- What is raised inside the `try` is raised as the branches answer it. -/
theorem fails_guarded {α : Type} {t : Operation μ α} {exc : Failure} {s : Session (Store μ)}
    (h : t.Fails (.failure exc) s) :
    (a.guarded surface t).Fails (a.caught surface exc) s := by
  apply h.catching
  intro s'
  show Transaction.Fails (if _ then _ else _) _ _
  unfold Authored.caught
  split
  · exact Transaction.fails_raise _
  · cases a.conflict with
    | none => exact Transaction.fails_raise _
    | some detail =>
      simp only
      split
      · exact ⟨⟨s'.committed, s'.committed⟩, rfl, rfl⟩
      · exact Transaction.fails_raise _

/-- A refusal of the call ends the operation. -/
theorem fails_makes_of_refusal {make : Store μ → Call μ Made} {exc : Failure}
    {s : Session (Store μ)} (h : (make s.working).answer = .error exc) :
    (a.makes surface make).Fails (a.caught surface exc) s := by
  unfold Authored.makes
  split
  · exact fails_guarded (fails_call h).bind
  · exact (fails_guarded (fails_call h)).bind

/-- So does a failure of the database, inside the `try` or behind it. -/
theorem fails_makes_of_database {make : Store μ → Call μ Made} {made : Made} {exc : Failure}
    {s : Session (Store μ)} (h : (make s.working).answer = .ok made)
    (hrow : made.row.action ∈ INTEGRATOR_AUDIT_ACTIONS)
    (hdb : surface.db.evidence = some exc) :
    (a.makes surface make).Fails
      ((if a.inside then a.caught surface else Raised.failure) exc) s := by
  unfold Authored.makes
  split
  · apply fails_guarded
    exact Transaction.fails_bind_of_ok (exec_call h) rfl (fails_evidence hrow hdb).bind
  · apply Transaction.fails_bind_of_ok
    · exact Transaction.exec_catching_of_ok (exec_call h)
    · rfl
    · exact (fails_evidence hrow hdb).bind

/-- Otherwise the row is committed on top of what the call left. -/
theorem exec_makes {make : Store μ → Call μ Made} {made : Made} {s : Session (Store μ)}
    (h : (make s.working).answer = .ok made) (hrow : made.row.action ∈ INTEGRATOR_AUDIT_ACTIONS)
    (hdb : surface.db.evidence = none) :
    (a.makes surface make).exec s =
      (.ok made, ⟨((make s.working).after s.working).withRow made.row,
        ((make s.working).after s.working).withRow made.row⟩) := by
  unfold Authored.makes
  split
  · apply Transaction.exec_catching_of_ok
    rw [Transaction.exec_bind_of_ok (exec_call h), Transaction.exec_bind_of_ok
      (exec_evidence hrow hdb)]
    rfl
  · have hguarded : (a.guarded surface (call make)).exec s =
        (.ok made, ⟨s.committed, (make s.working).after s.working⟩) :=
      Transaction.exec_catching_of_ok (exec_call h)
    rw [Transaction.exec_bind_of_ok hguarded, Transaction.exec_bind_of_ok
      (exec_evidence hrow hdb)]
    rfl

/-- Behind the discovery and the lookups an operation goes on. -/
theorem exec_authored {s : Session (Store μ)} (hd : surface.integration.discover = none) :
    (authored surface a).exec s = (a.goesOn surface (a.finds s.working)).exec s := by
  unfold authored
  rw [hd]
  rfl

theorem fails_authored {raised : Raised} (hd : surface.integration.discover = none)
    (h : (a.goesOn surface (a.finds store)).Fails raised ⟨store, store⟩) :
    (authored surface a).within store = (.error raised, store) := by
  apply Transaction.Fails.within
  obtain ⟨s', hs, hc⟩ := h
  exact ⟨s', (exec_authored hd).trans hs, hc⟩

/-- **An authoring operation comes to what its plan comes to.** -/
theorem within_authored (ha : a.Evident actor reason) :
    (authored surface a).within store = (a.plan surface store).outcome surface store := by
  unfold Authored.plan
  cases hd : surface.integration.discover with
  | some exc =>
    have hfails : (authored surface a).Fails (.failure exc) ⟨store, store⟩ := by
      unfold authored
      rw [hd]
      exact Transaction.Fails.bind (Transaction.fails_raise _)
    exact hfails.within
  | none =>
    cases hfinds : a.finds store with
    | error raised =>
      apply fails_authored hd
      rw [hfinds]
      exact Transaction.fails_raise raised
    | ok make =>
      simp only
      cases h : (make store).answer with
      | error exc =>
        apply fails_authored hd
        rw [hfinds]
        exact (fails_makes_of_refusal h).bind
      | ok made =>
        have hrow := (ha store make made hfinds h).1
        simp only [Plan.outcome]
        cases hdb : surface.db.evidence with
        | some exc =>
          apply fails_authored hd
          rw [hfinds]
          exact (fails_makes_of_database h hrow hdb).bind
        | none =>
          have hexec : (authored surface a).exec ⟨store, store⟩ = Transaction.exec (do
              attempt surface.db.reread
              return Json.obj made.answer)
              ⟨((make store).after store).withRow made.row,
                ((make store).after store).withRow made.row⟩ := by
            rw [exec_authored hd, hfinds]
            exact Transaction.exec_bind_of_ok (exec_makes h hrow hdb)
          rw [exec_reread] at hexec
          exact Transaction.within_eq hexec

/-! ### The rows of the operations -/

/-- A row of a declared action, whose details state the reason, is evident. -/
theorem evident_auditRow {action entityType : String} {entityId : Option String}
    {details : Dict String Json} (haction : action ∈ INTEGRATOR_AUDIT_ACTIONS)
    (h : (Dict.keys (("reason", Json.str reason) :: details)).Nodup)
    (hactor : "actor" ∉ details.keys) (hmechanism : "mechanism" ∉ details.keys) :
    (auditRow actor action entityType entityId (("reason", .str reason) :: details)).action ∈
        INTEGRATOR_AUDIT_ACTIONS ∧
      (auditRow actor action entityType entityId (("reason", .str reason) :: details)).Names
        actor reason :=
  ⟨haction, names_auditRow h hactor hmechanism⟩

theorem createInstallation_evident (connectorKey name environment : String) :
    (createInstallation surface actor reason connectorKey name environment).Evident
      actor reason := by
  intro store make made hfinds hmade
  obtain rfl := Except.ok.inj hfinds
  obtain ⟨installation, -, rfl⟩ := Except.map_eq_ok.mp hmade
  exact evident_auditRow (by decide) (by simp) (by simp) (by simp)

theorem configureInstallation_evident (installationId : String)
    (config secretRefs : Dict String Json) (schemaVersion : String) :
    (configureInstallation surface actor reason installationId config secretRefs
      schemaVersion).Evident actor reason := by
  intro store make made hfinds hmade
  obtain ⟨installation, -, hmake⟩ := Except.bind_eq_ok.mp hfinds
  obtain rfl := Except.ok.inj hmake
  obtain ⟨configured, -, rfl⟩ := Except.map_eq_ok.mp hmade
  exact evident_auditRow (by decide) (by simp) (by simp) (by simp)

theorem configureBinding_evident (installationId capabilityId : String)
    (scope policy : Option (Dict String Json)) :
    (configureBinding surface actor reason installationId capabilityId scope policy).Evident
      actor reason := by
  intro store make made hfinds hmade
  obtain ⟨installation, -, hmake⟩ := Except.bind_eq_ok.mp hfinds
  obtain rfl := Except.ok.inj hmake
  obtain ⟨configured, -, rfl⟩ := Except.map_eq_ok.mp hmade
  exact evident_auditRow (by decide) (by simp) (by simp) (by simp)

theorem mintBindingIngressEndpoint_evident (bindingId : String) :
    (mintBindingIngressEndpoint surface actor reason bindingId).Evident actor reason := by
  intro store make made hfinds hmade
  obtain ⟨binding, -, hmake⟩ := Except.bind_eq_ok.mp hfinds
  obtain rfl := Except.ok.inj hmake
  obtain ⟨minted, -, rfl⟩ := Except.map_eq_ok.mp hmade
  exact evident_auditRow (by decide) (by simp) (by simp) (by simp)

theorem enableBinding_evident (bindingId : String) :
    (enableBinding surface actor reason bindingId).Evident actor reason := by
  intro store make made hfinds hmade
  obtain ⟨binding, -, hfinds⟩ := Except.bind_eq_ok.mp hfinds
  obtain ⟨found, -, hmake⟩ := Except.bind_eq_ok.mp hfinds
  cases found with
  | none => cases hmake
  | some installation =>
    obtain rfl := Except.ok.inj hmake
    obtain ⟨enabled, -, rfl⟩ := Except.map_eq_ok.mp hmade
    exact evident_auditRow (by decide) (by simp) (by simp) (by simp)

end DotmacIntegrator.Operations
