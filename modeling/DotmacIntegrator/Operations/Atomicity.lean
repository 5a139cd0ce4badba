import DotmacIntegrator.Operations.Enablement

/-!
# Operations are atomic with their evidence

An authoring operation changes nothing, or it commits what the module wrote together with one row
that says who asked and why. A refused enablement leaves a row as well, unless the connector's
diagnostic is found to quote held material; it is found by redacting it, so that material which
redaction leaves as it is goes unnoticed.

## Main definitions

* `AuthoringRequest`, `AuthoringRequest.perform`: the six authoring operations
* `AuthoringRequest.written`: what the module writes in one
* `EnableRefusal`: why an enablement is refused
* `AtomicWithEvidence`: all of it is committed with its row, or none

## Main results

* `within_perform`: an operation comes to what its plan comes to
* `plan_landsOn`: what lands is what the module wrote, with a row that names the actor
* `atomicWithEvidence_iff`: an operation is atomic with its evidence unless a leak goes unnoticed
-/

namespace DotmacIntegrator.Operations

open DotmacIntegrator.Secrets
open Text (Occurs)

/-- What an operator may author. -/
inductive AuthoringRequest
  | createInstallation (connectorKey name environment : String)
  | configureInstallation (installationId : String) (config secretRefs : Dict String Json)
    (schemaVersion : String)
  | configureBinding (installationId capabilityId : String)
    (scope policy : Option (Dict String Json))
  | mintBindingIngressEndpoint (bindingId : String)
  | enableBinding (bindingId : String)
  | enableInstallation (installationId : String)

/-- Why an enablement is refused: material is not held, the module refuses, or no connector is
installed. -/
inductive EnableRefusal
  | material
  | lifecycle (left : ConnectorInstallation)
  | connector

variable {μ : Type} (surface : Surface μ) (actor : OperatorIdentity) (reason : String)

/-- What an operation writes through the module. -/
def Authored.written (a : Authored μ) (store : Store μ) : Store μ :=
  match a.finds store with
  | .error _ => store
  | .ok make => (make store).after store

/-- What an enablement asks the connector with, where it gets there: the material is held. -/
def enableAsks (installationId : String) (store : Store μ) :
    Option (ConnectorInstallation × Dict String String) :=
  match findRevision surface installationId store with
  | .error _ => none
  | .ok (installation, revision) =>
    match resolveSecrets surface.held (secretRefs surface revision) with
    | .error _ => none
    | .ok secrets => some (installation, secrets)

/-- The refusal of a connector that was asked. -/
def connectorRefusal (left : ConnectorInstallation) : Except Failure Unit → Option EnableRefusal
  | .ok () => none
  | .error exc =>
    if .lifecycle ∈ exc.families then some (.lifecycle left)
    else if .invalidManifest ∈ exc.families then some .connector
    else none

/-- The refusal of an enablement whose installation and revision are there. -/
def enableRefusal (installationId : String) (store : Store μ) : Option EnableRefusal :=
  match findRevision surface installationId store with
  | .error _ => none
  | .ok (installation, revision) =>
    match resolveSecrets surface.held (secretRefs surface revision) with
    | .error _ => some .material
    | .ok secrets =>
      match surface.integration.discover with
      | some _ => none
      | none =>
        let asked := surface.integration.enable installation secrets actor.label store
        connectorRefusal asked.1 asked.2.answer

namespace AuthoringRequest

/-- What a request consists of: an authoring operation, or the enablement of an installation. -/
def script : AuthoringRequest → Authored μ ⊕ String
  | .createInstallation connectorKey name environment =>
    .inl (Operations.createInstallation surface actor reason connectorKey name environment)
  | .configureInstallation installationId config secretRefs schemaVersion =>
    .inl (Operations.configureInstallation surface actor reason installationId config secretRefs
      schemaVersion)
  | .configureBinding installationId capabilityId scope policy =>
    .inl (Operations.configureBinding surface actor reason installationId capabilityId scope
      policy)
  | .mintBindingIngressEndpoint bindingId =>
    .inl (Operations.mintBindingIngressEndpoint surface actor reason bindingId)
  | .enableBinding bindingId => .inl (Operations.enableBinding surface actor reason bindingId)
  | .enableInstallation installationId => .inr installationId

/-- The program of a request. -/
def perform (request : AuthoringRequest) : Operation μ Json :=
  match request.script surface actor reason with
  | .inl a => authored surface a
  | .inr installationId => Operations.enableInstallation surface actor reason installationId

/-- What a request amounts to. -/
def plan (request : AuthoringRequest) (store : Store μ) : Plan μ :=
  match request.script surface actor reason with
  | .inl a => a.plan surface store
  | .inr installationId => enablePlan surface actor reason installationId store

/-- What the module writes in a request. -/
def written (request : AuthoringRequest) (store : Store μ) : Store μ :=
  match request.script surface actor reason with
  | .inl a => a.written store
  | .inr installationId =>
    match enableAsks surface installationId store with
    | none => store
    | some (installation, secrets) =>
      (surface.integration.enable installation secrets actor.label store).2.after store

/-- The refusal of a request that enables an installation. -/
def refusal (request : AuthoringRequest) (store : Store μ) : Option EnableRefusal :=
  match request.script surface actor reason with
  | .inl _ => none
  | .inr installationId => enableRefusal surface actor installationId store

end AuthoringRequest

/-- The connector's diagnostic quotes held material. -/
def EnableRefusal.Leaks (held : Held) : EnableRefusal → Prop
  | .lifecycle left => ∃ value, held.Holds value ∧ Occurs value (left.stateReason.getD "")
  | _ => False

/-- Redaction alters the connector's diagnostic. -/
def EnableRefusal.Noticed (held : Held) : EnableRefusal → Prop
  | .lifecycle left => redact held (left.stateReason.getD "") ≠ left.stateReason.getD ""
  | _ => False

/-- The operation is atomic with its evidence: nothing is committed, or what the module wrote with
one row that names the actor and the reason; it answers with a result only then; a refused
enablement leaves a row, and one whose diagnostic quotes material leaves nothing. -/
structure AtomicWithEvidence (request : AuthoringRequest) (store : Store μ) : Prop where
  ends : ((request.perform surface actor reason).within store).2 = store ∨
    ∃ row : AuditRow, row.Names actor reason ∧
      ((request.perform surface actor reason).within store).2 =
        (request.written surface actor reason store).withRow row
  answers : ∀ value, ((request.perform surface actor reason).within store).1 = .ok value →
    ∃ row : AuditRow, row.Names actor reason ∧
      ((request.perform surface actor reason).within store).2 =
        (request.written surface actor reason store).withRow row
  refuses : ∀ refusal, request.refusal surface actor reason store = some refusal →
    ¬ refusal.Leaks surface.held → surface.db.evidence = none →
    ∃ row : AuditRow, row.Names actor reason ∧
      row.action = "integrator.installation.enable_refused" ∧
      ((request.perform surface actor reason).within store).2 =
        (request.written surface actor reason store).withRow row
  leaks : ∀ refusal, request.refusal surface actor reason store = some refusal →
    refusal.Leaks surface.held → ((request.perform surface actor reason).within store).2 = store

variable {surface actor reason} {request : AuthoringRequest} {store : Store μ}

/-! ### What lands -/

theorem script_evident {a : Authored μ} (h : request.script surface actor reason = .inl a) :
    a.Evident actor reason := by
  cases request with
  | createInstallation =>
    obtain rfl := Sum.inl.inj h
    apply createInstallation_evident
  | configureInstallation =>
    obtain rfl := Sum.inl.inj h
    apply configureInstallation_evident
  | configureBinding =>
    obtain rfl := Sum.inl.inj h
    apply configureBinding_evident
  | mintBindingIngressEndpoint =>
    obtain rfl := Sum.inl.inj h
    apply mintBindingIngressEndpoint_evident
  | enableBinding =>
    obtain rfl := Sum.inl.inj h
    apply enableBinding_evident
  | enableInstallation => cases h

/-- A request comes to what its plan comes to. -/
theorem within_perform (request : AuthoringRequest) (store : Store μ) :
    (request.perform surface actor reason).within store =
      (request.plan surface actor reason store).outcome surface store := by
  unfold AuthoringRequest.perform AuthoringRequest.plan
  cases h : request.script surface actor reason with
  | inl a => exact within_authored (script_evident h)
  | inr installationId => exact within_enableInstallation installationId store

theorem refusedRow_names (installation : ConnectorInstallation) (refusal : String)
    {k : String} (v : Json) (h : k ∉ ["actor", "mechanism", "reason", "refusal"]) :
    (refusedRow actor reason installation refusal (k, v)).Names actor reason := by
  simp only [List.mem_cons, not_or] at h
  obtain ⟨hactor, hmechanism, hreason, hrefusal, -⟩ := h
  apply names_auditRow
  · simp [Ne.symm hreason, Ne.symm hrefusal]
  · simp [Ne.symm hactor]
  · simp [Ne.symm hmechanism]

theorem enabledRow_names (installation : ConnectorInstallation)
    (revision : ConnectorConfigRevision) (refs : Dict String String) :
    (enabledRow actor reason installation revision refs).Names actor reason := by
  apply names_auditRow <;> simp

/-- What a plan lands on, with the row it adds. -/
def Plan.LandsOn (p : Plan μ) (written : Store μ) (Good : AuditRow → Prop) : Prop :=
  ∀ store row answer undone, p = .lands store row answer undone → store = written ∧ Good row

theorem landsOn_drops {raised : Raised} {written : Store μ} {Good : AuditRow → Prop} :
    (Plan.drops raised).LandsOn written Good := nofun

theorem landsOn_lands {written : Store μ} {row : AuditRow} {answer : Except Raised Json}
    {undone : Failure → Raised} {Good : AuditRow → Prop} (h : Good row) :
    (Plan.lands written row answer undone).LandsOn written Good := by
  rintro _ _ _ _ heq
  injection heq with hstore hrow
  exact ⟨hstore.symm, hrow ▸ h⟩

theorem refusedPlan_landsOn (left : ConnectorInstallation) (exc : Failure) (written : Store μ) :
    (refusedPlan surface actor reason left exc written).LandsOn written
      (AuditRow.Names · actor reason) := by
  unfold refusedPlan
  split
  · split
    · exact landsOn_drops
    · exact landsOn_lands (refusedRow_names left _ _ (by decide))
  · split
    · exact landsOn_lands (refusedRow_names left _ _ (by decide))
    · exact landsOn_drops

theorem askedPlan_landsOn (installation : ConnectorInstallation)
    (revision : ConnectorConfigRevision) (secrets : Dict String String) (store : Store μ) :
    (askedPlan surface actor reason installation revision (secretRefs surface revision) secrets
      store).LandsOn
        ((surface.integration.enable installation secrets actor.label store).2.after store)
        (AuditRow.Names · actor reason) := by
  unfold askedPlan answeredPlan
  cases surface.integration.discover with
  | some exc => exact landsOn_drops
  | none =>
    simp only
    cases (surface.integration.enable installation secrets actor.label store).2.answer with
    | error exc => exact refusedPlan_landsOn _ exc _
    | ok _ => exact landsOn_lands (enabledRow_names _ _ _)

/-- **What lands is what the module wrote**, with a row that says who asked and why. -/
theorem plan_landsOn (request : AuthoringRequest) (store : Store μ) :
    (request.plan surface actor reason store).LandsOn (request.written surface actor reason store)
      (AuditRow.Names · actor reason) := by
  unfold AuthoringRequest.plan AuthoringRequest.written
  cases h : request.script surface actor reason with
  | inl a =>
    show (a.plan surface store).LandsOn (a.written store) _
    unfold Authored.plan Authored.written
    cases surface.integration.discover with
    | some exc => exact landsOn_drops
    | none =>
      cases hfinds : a.finds store with
      | error raised => exact landsOn_drops
      | ok make =>
        simp only
        cases hmade : (make store).answer with
        | error exc => exact landsOn_drops
        | ok made => exact landsOn_lands (script_evident h store make made hfinds hmade).2
  | inr installationId =>
    simp only
    unfold enablePlan enableAsks
    cases findRevision surface installationId store with
    | error raised => exact landsOn_drops
    | ok found =>
      obtain ⟨installation, revision⟩ := found
      simp only
      cases hsecrets : resolveSecrets surface.held (secretRefs surface revision) with
      | error missing =>
        rw [foundPlan_of_missing hsecrets]
        exact landsOn_lands (refusedRow_names installation _ _ (by decide))
      | ok secrets =>
        rw [foundPlan_of_held hsecrets]
        exact askedPlan_landsOn installation revision secrets store

/-- What a plan comes to: nothing is committed and something is raised, or it lands. -/
theorem outcome_cases (p : Plan μ) (store : Store μ) :
    (∃ raised, p.outcome surface store = (.error raised, store)) ∨
      ∃ written row answer undone, p = .lands written row answer undone ∧
        p.outcome surface store = (answer, written.withRow row) := by
  cases p with
  | drops raised => exact .inl ⟨raised, rfl⟩
  | lands written row answer undone =>
    unfold Plan.outcome
    cases surface.db.evidence with
    | none => exact .inr ⟨written, row, answer, undone, rfl, rfl⟩
    | some exc => exact .inl ⟨undone exc, rfl⟩

/-- An operation commits nothing and raises, or what the module wrote with its row. -/
theorem perform_cases (request : AuthoringRequest) (store : Store μ) :
    (∃ raised, (request.perform surface actor reason).within store = (.error raised, store)) ∨
      ∃ row answer, row.Names actor reason ∧
        (request.perform surface actor reason).within store =
          (answer, (request.written surface actor reason store).withRow row) := by
  rw [within_perform]
  rcases @outcome_cases μ surface (request.plan surface actor reason store) store with
    ⟨raised, h⟩ | ⟨written, row, answer, undone, hplan, h⟩
  · exact .inl ⟨raised, h⟩
  · obtain ⟨rfl, hnames⟩ := plan_landsOn request store written row answer undone hplan
    exact .inr ⟨row, answer, hnames, h⟩

/-! ### Refused enablements -/

/-- A refusal whose diagnostic redaction alters drops everything; any other one lands. -/
theorem refusedPlan_of_refusal {left : ConnectorInstallation} {exc : Failure}
    {refusal : EnableRefusal} (h : connectorRefusal left (.error exc) = some refusal)
    (written : Store μ) :
    (refusal.Noticed surface.held →
      ∃ raised, refusedPlan surface actor reason left exc written = .drops raised) ∧
    (¬ refusal.Noticed surface.held → ∃ row answer,
      row.action = "integrator.installation.enable_refused" ∧
      refusedPlan surface actor reason left exc written = .lands written row answer .failure) := by
  unfold connectorRefusal at h
  simp only at h
  unfold refusedPlan
  split_ifs at h with hlifecycle hmanifest
  · obtain rfl := Option.some.inj h
    rw [if_pos hlifecycle]
    constructor
    · intro hnoticed
      exact ⟨_, if_pos hnoticed⟩
    · intro hnot
      refine ⟨_, _, ?_, if_neg hnot⟩
      rfl
  · obtain rfl := Option.some.inj h
    rw [if_neg hlifecycle, if_pos hmanifest]
    exact ⟨False.elim, fun _ => ⟨_, _, rfl, rfl⟩⟩

/-- The same of a request. -/
theorem plan_of_refusal {refusal : EnableRefusal}
    (h : request.refusal surface actor reason store = some refusal) :
    (refusal.Noticed surface.held →
      ∃ raised, request.plan surface actor reason store = .drops raised) ∧
    (¬ refusal.Noticed surface.held → ∃ row answer,
      row.action = "integrator.installation.enable_refused" ∧
      request.plan surface actor reason store =
        .lands (request.written surface actor reason store) row answer .failure) := by
  unfold AuthoringRequest.refusal at h
  unfold AuthoringRequest.plan AuthoringRequest.written
  cases hscript : request.script surface actor reason with
  | inl a =>
    rw [hscript] at h
    cases h
  | inr installationId =>
    rw [hscript] at h
    simp only at h ⊢
    unfold enableRefusal at h
    unfold enablePlan enableAsks
    cases hfound : findRevision surface installationId store with
    | error raised =>
      rw [hfound] at h
      cases h
    | ok found =>
      obtain ⟨installation, revision⟩ := found
      rw [hfound] at h
      simp only at h ⊢
      cases hsecrets : resolveSecrets surface.held (secretRefs surface revision) with
      | error missing =>
        rw [hsecrets] at h
        obtain rfl := Option.some.inj h
        rw [foundPlan_of_missing hsecrets]
        exact ⟨False.elim, fun _ => ⟨_, _, rfl, rfl⟩⟩
      | ok secrets =>
        rw [hsecrets] at h
        rw [foundPlan_of_held hsecrets]
        unfold askedPlan answeredPlan
        simp only at h ⊢
        cases hdiscover : surface.integration.discover with
        | some exc =>
          rw [hdiscover] at h
          cases h
        | none =>
          rw [hdiscover] at h
          simp only at h ⊢
          cases hanswer :
              (surface.integration.enable installation secrets actor.label store).2.answer with
          | ok _ =>
            rw [hanswer] at h
            cases h
          | error exc =>
            rw [hanswer] at h
            exact refusedPlan_of_refusal h _

/-- What the module writes is added to the ledger. -/
theorem ledger_written (request : AuthoringRequest) (store : Store μ) :
    ∃ rows, (request.written surface actor reason store).ledger = store.ledger ++ rows := by
  unfold AuthoringRequest.written Authored.written
  split
  · split
    · exact ⟨[], (List.append_nil _).symm⟩
    · exact ⟨_, rfl⟩
  · split
    · exact ⟨[], (List.append_nil _).symm⟩
    · exact ⟨_, rfl⟩

/-- What lands is never the store as it was. -/
theorem written_withRow_ne (request : AuthoringRequest) (store : Store μ) (row : AuditRow) :
    (request.written surface actor reason store).withRow row ≠ store := by
  intro h
  obtain ⟨rows, hrows⟩ := @ledger_written μ surface actor reason request store
  have hlength := congrArg (fun store => store.ledger.length) h
  simp only [Store.withRow, hrows, List.length_append, List.length_singleton] at hlength
  omega

/-- A diagnostic that quotes no held material is not altered. -/
theorem leaks_of_noticed {refusal : EnableRefusal} (h : refusal.Noticed surface.held) :
    refusal.Leaks surface.held := by
  cases refusal with
  | lifecycle left =>
    by_contra hnot
    apply h
    apply redact_of_clean
    intro value hvalue hocc
    exact hnot ⟨value, hvalue, hocc⟩
  | material => exact h
  | connector => exact h

/-- Where every leak is noticed, the operation is atomic with its evidence. -/
theorem atomicWithEvidence_of_noticed
    (hnoticed : ∀ refusal, request.refusal surface actor reason store = some refusal →
      refusal.Leaks surface.held → surface.db.evidence = none → refusal.Noticed surface.held) :
    AtomicWithEvidence surface actor reason request store where
  ends := by
    rcases @perform_cases μ surface actor reason request store with
      ⟨raised, h⟩ | ⟨row, answer, hnames, h⟩
    · exact .inl (by rw [h])
    · exact .inr ⟨row, hnames, by rw [h]⟩
  answers := by
    intro value hvalue
    rcases @perform_cases μ surface actor reason request store with
      ⟨raised, h⟩ | ⟨row, answer, hnames, h⟩
    · rw [h] at hvalue
      cases hvalue
    · exact ⟨row, hnames, by rw [h]⟩
  refuses := by
    intro refusal hrefusal hclean hdb
    obtain ⟨row, answer, haction, hplan⟩ :=
      (plan_of_refusal hrefusal).2 fun h => hclean (leaks_of_noticed h)
    obtain ⟨-, hnames⟩ := plan_landsOn request store _ _ _ _ hplan
    refine ⟨row, hnames, haction, ?_⟩
    rw [within_perform, hplan, Plan.outcome, hdb]
  leaks := by
    intro refusal hrefusal hleaks
    rw [within_perform]
    cases hdb : surface.db.evidence with
    | none =>
      obtain ⟨raised, hplan⟩ := (plan_of_refusal hrefusal).1 (hnoticed refusal hrefusal hleaks hdb)
      rw [hplan]
      rfl
    | some exc =>
      cases request.plan surface actor reason store with
      | drops raised => rfl
      | lands written row answer undone =>
        unfold Plan.outcome
        rw [hdb]

/-- With material that can be told from the marker every leak is noticed. -/
theorem atomicWithEvidence_of_redactable
    (h : ∀ value, surface.held.Holds value → Redactable value) :
    AtomicWithEvidence surface actor reason request store := by
  apply atomicWithEvidence_of_noticed
  intro refusal _ hleaks _
  cases refusal with
  | lifecycle left =>
    obtain ⟨value, hvalue, hocc⟩ := hleaks
    intro heq
    apply redact_clean (h value hvalue) hvalue (left.stateReason.getD "")
    rw [heq]
    exact hocc
  | material => exact hleaks
  | connector => exact hleaks

/-- **Authoring operations are atomic with their evidence**, iff no refused enablement quotes held
material that redaction leaves as it is, with a database that commits. -/
theorem atomicWithEvidence_iff (request : AuthoringRequest) (store : Store μ) :
    AtomicWithEvidence surface actor reason request store ↔
      ∀ refusal, request.refusal surface actor reason store = some refusal →
        refusal.Leaks surface.held → surface.db.evidence = none →
          refusal.Noticed surface.held := by
  constructor
  · intro h refusal hrefusal hleaks hdb
    by_contra hnot
    obtain ⟨row, answer, -, hplan⟩ := (plan_of_refusal hrefusal).2 hnot
    have hleft := h.leaks refusal hrefusal hleaks
    rw [within_perform, hplan, Plan.outcome, hdb] at hleft
    exact written_withRow_ne request store row hleft
  · exact atomicWithEvidence_of_noticed

/-- A connector that refuses, and quotes a text in its diagnostic. -/
def quoting (text : String) : Integration Unit :=
  { permissive with
    enable := fun installation _ _ _ =>
      ({ installation with stateReason := some text },
        ⟨(), [], .error ⟨[.lifecycle], "connection validation failed"⟩⟩) }

/-- An operator. -/
def someOperator : OperatorIdentity := ⟨onlyId, "operator@dotmac.example", "platform"⟩

/-- Material that reads like the marker is quoted, and the refusal is committed. -/
theorem not_atomicWithEvidence_markerMaterial :
    ¬ AtomicWithEvidence (surfaceOf "«redacted»" (quoting "rejected «redacted»")) someOperator
      "enable the connector" (.enableInstallation "00000000-0000-0000-0000-000000000001")
      ⟨(), []⟩ := by
  intro h
  have hleft := h.leaks (.lifecycle { onlyInstallation with
    stateReason := some "rejected «redacted»" }) rfl
      ⟨"«redacted»", ⟨"env://INTEGRATOR_SECRET_ERP", rfl⟩, by decide +kernel⟩
  have hlength := congrArg (fun store => store.ledger.length) hleft
  revert hlength
  decide +kernel

end DotmacIntegrator.Operations
