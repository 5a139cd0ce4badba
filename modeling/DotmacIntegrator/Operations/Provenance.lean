import DotmacIntegrator.Operations.Atomicity
import DotmacIntegrator.Operations.Repair

/-!
# What the operator surface is given, and what it says

An operation says what it answers as the detail of an `HTTPException`, and what it commits as the
details of audit rows. A text it says was given to it, as an argument, a reference, a stored field
or the wording of the assembly; or it is redacted; or it is the text of an exception that is passed
on.

## Main definitions

* `OperatorRequest`: the operations that answer with what the module raises
* `published`: what an operation says
* `OperatorRequest.inputs`: what it is given
* `Said`: where a text of an operation comes from
* `Authored.Sourced`: an authoring operation that says nothing of its own but what it is given

## Main results

* `clean_of_allSaid`: of clean inputs nothing held is said, where nothing held is passed on
* `allSaid_lifecycleConflict`: a conflict says nothing of the module's text
* `sourced_script`: what the authoring operations say of their own is given to them
-/

namespace DotmacIntegrator.Operations

open DotmacIntegrator.Secrets
open Text (Occurs)

/-- An operation that answers with what the module raises. -/
inductive OperatorRequest
  | authoring (request : AuthoringRequest)
  | replay (request : ReplayRequest)

/-- No held value occurs in the texts. -/
def Clean (held : Held) (texts : List String) : Prop :=
  ∀ value, held.Holds value → ∀ text ∈ texts, ¬ Occurs value text

/-- The texts of the details of a row. -/
def AuditRow.texts (row : AuditRow) : List String := (Json.obj row.details).texts

/-- The texts of the details of several rows. -/
def rowTexts (rows : List AuditRow) : List String := rows.flatMap AuditRow.texts

/-- What is said of an exception: the detail of an `HTTPException`. -/
def Raised.texts : Raised → List String
  | .httpException _ detail => [detail]
  | .failure _ => []

/-- What an answer says. -/
def answerTexts : Except Raised Json → List String
  | .error raised => raised.texts
  | .ok _ => []

variable {μ : Type} (surface : Surface μ) (actor : OperatorIdentity) (reason : String)

/-- What an operation says: its detail, and the details of the rows it commits. -/
def published (store : Store μ) (outcome : Except Raised Json × Store μ) : List String :=
  answerTexts outcome.1 ++ rowTexts (outcome.2.ledger.drop store.ledger.length)

/-- The program of a request. -/
def OperatorRequest.perform : OperatorRequest → Operation μ Json
  | .authoring request => request.perform surface actor reason
  | .replay request => request.perform surface actor reason

/-! ### What an operation is given -/

/-- The wording of the assembly that has nothing put into it: the names in the details of its rows,
the refusals it records, and the details it answers. -/
def fixedWording : List String := [
  "actor", "mechanism", "reason",
  "connector_key", "connector_version", "environment",
  "config_revision_id", "revision", "schema_version", "is_new",
  "installation_id", "capability_id",
  "config_revision", "secret_references",
  "refusal", "missing", "detail",
  "material_not_held", "validation_failed", "connector_not_installed",
  "integration lifecycle operation refused",
  "an installation with this connector key and name already exists",
  "configuration revision conflicted with a concurrent write; retry",
  "capability binding conflicted with a concurrent write; retry",
  "binding installation is missing",
  "installation has no configuration revision; there is " ++
    "nothing to validate a connection against",
  leakDetail]

/-- The texts of an object that may be left out. -/
def objectTexts (members : Option (Dict String Json)) : List String :=
  members.elim [] fun members => (Json.obj members).texts

/-- The arguments of an authoring operation. -/
def AuthoringRequest.arguments : AuthoringRequest → List String
  | .createInstallation connectorKey name environment => [connectorKey, name, environment]
  | .configureInstallation installationId config secretRefs schemaVersion =>
    installationId :: schemaVersion :: objectTexts (some config) ++ objectTexts (some secretRefs)
  | .configureBinding installationId capabilityId scope policy =>
    installationId :: capabilityId :: objectTexts scope ++ objectTexts policy
  | .mintBindingIngressEndpoint bindingId | .enableBinding bindingId => [bindingId]
  | .enableInstallation installationId => [installationId]

/-- What the operator supplies. -/
def OperatorRequest.supplied (request : OperatorRequest) : List String :=
  actor.label :: actor.mechanism :: reason :: match request with
    | .authoring request => request.arguments
    | .replay request => [request.raw]

/-- The references of the revision that an enablement finds. -/
def OperatorRequest.references (store : Store μ) : OperatorRequest → List String
  | .authoring (.enableInstallation installationId) =>
    (findRevision surface installationId store).toOption.elim [] fun found =>
      (secretRefs surface found.2).map Prod.snd
  | _ => []

/-- The wording of a lookup, with the identifier behind it. -/
def lookupWording (field missing raw : String) : List String :=
  [field ++ " is not a UUID: " ++ PyRepr.string surface.text.printable raw, missing ++ raw]

/-- The wording that has arguments or references put into it. -/
def OperatorRequest.wording (store : Store μ) : OperatorRequest → List String
  | .authoring (.createInstallation ..) => []
  | .authoring (.configureInstallation installationId ..)
  | .authoring (.configureBinding installationId ..) =>
    lookupWording surface "installation_id" "no installation " installationId
  | .authoring (.mintBindingIngressEndpoint bindingId)
  | .authoring (.enableBinding bindingId) =>
    lookupWording surface "binding_id" "no binding " bindingId
  | .authoring (.enableInstallation installationId) =>
    lookupWording surface "installation_id" "no installation " installationId ++
      (findRevision surface installationId store).toOption.elim [] fun found =>
        [materialDetail surface (missingReferences surface.held (secretRefs surface found.2))]
  | .replay request =>
    lookupWording surface (request.replay surface).field
      ("no " ++ (request.replay surface).noun ++ " ") request.raw

/-- The fields of an installation that a row takes. -/
def ConnectorInstallation.texts (installation : ConnectorInstallation) : List String :=
  [installation.id.str, installation.connectorKey, installation.connectorVersion,
    installation.environment]

/-- The fields of a revision that a row takes. -/
def ConnectorConfigRevision.texts (revision : ConnectorConfigRevision) : List String :=
  [revision.id.str, revision.schemaVersion]

/-- The fields of a binding that a row takes. -/
def CapabilityBinding.texts (binding : CapabilityBinding) : List String :=
  [binding.id.str, binding.installationId.str, binding.capabilityId]

/-- What a call of the module hands back: what it returns, and the rows it adds to the ledger. -/
def Call.handed {α : Type} (texts : α → List String) (c : Call μ α) : List String :=
  c.answer.toOption.elim [] texts ++ rowTexts c.rows

/-- What the module hands an authoring operation: the rows that are looked up, as far as they are
taken, those that the call returns, and those that it adds to the ledger. -/
def AuthoringRequest.handed (store : Store μ) : AuthoringRequest → List String
  | .createInstallation connectorKey name environment =>
    (surface.integration.createDraft connectorKey name environment actor.label store).handed
      ConnectorInstallation.texts
  | .configureInstallation installationId config secretRefs schemaVersion =>
    (findInstallation surface installationId store).toOption.elim [] fun installation =>
      (surface.integration.putConfigRevision installation config secretRefs schemaVersion
        actor.label store).handed fun made => made.1.texts ++ made.2.1.texts
  | .configureBinding installationId capabilityId scope policy =>
    (findInstallation surface installationId store).toOption.elim [] fun installation =>
      (surface.integration.addBinding installation capabilityId scope policy actor.label
        store).handed fun made => made.1.texts ++ made.2.texts
  | .mintBindingIngressEndpoint bindingId =>
    (findBinding surface bindingId store).toOption.elim [] fun binding =>
      (surface.integration.mintIngressEndpoint binding actor.label store).handed fun made =>
        made.1.texts
  | .enableBinding bindingId =>
    (findBinding surface bindingId store).toOption.elim [] fun binding =>
      (surface.integration.installation store.tables binding.installationId).elim []
        fun installation =>
          (surface.integration.setBindingEnabled installation binding actor.label store).handed
            fun made => made.1.texts ++ made.2.texts
  | .enableInstallation installationId =>
    (findRevision surface installationId store).toOption.elim [] fun found =>
      found.1.texts ++ found.2.texts ++
        (resolveSecrets surface.held (secretRefs surface found.2)).toOption.elim [] fun secrets =>
          let asked := surface.integration.enable found.1 secrets actor.label store
          asked.1.texts ++ rowTexts asked.2.rows

/-- What the module hands an operation. -/
def OperatorRequest.handed (store : Store μ) : OperatorRequest → List String
  | .authoring request => request.handed surface actor store
  | .replay request =>
    ((request.replay surface).finds surface request.raw store).toOption.elim [] fun row =>
      rowTexts ((request.replay surface).call row actor.adminId reason store).rows

/-- **What an operation is given**: what the operator supplies, the references, the wording of the
assembly, with and without them in it, and what the module hands it, but for what it raises. -/
def OperatorRequest.inputs (store : Store μ) (request : OperatorRequest) : List String :=
  request.supplied actor reason ++ request.references surface store ++ fixedWording ++
    request.wording surface store ++ request.handed surface actor reason store

variable {surface actor reason} {store : Store μ} {held : Held} {inputs passed : List String}

/-! ### Where a text comes from -/

/-- Where a text of an operation comes from: it was given, it is redacted, or it is passed on. -/
inductive Said (held : Held) (inputs passed : List String) : String → Prop
  | input {text : String} (h : text ∈ inputs) : Said held inputs passed text
  | redacted (text : String) : Said held inputs passed (redact held text)
  | stripped (text : String) : Said held inputs passed (Text.strip (redact held text))
  | passedOn {text : String} (h : text ∈ passed) : Said held inputs passed text

/-- Every text comes from somewhere. -/
def AllSaid (held : Held) (inputs passed texts : List String) : Prop :=
  ∀ text ∈ texts, Said held inputs passed text

theorem allSaid_nil : AllSaid held inputs passed [] := List.forall_mem_nil _

theorem allSaid_append {xs ys : List String} :
    AllSaid held inputs passed (xs ++ ys) ↔
      AllSaid held inputs passed xs ∧ AllSaid held inputs passed ys :=
  List.forall_mem_append

theorem allSaid_of_subset {texts : List String} (h : texts ⊆ inputs) :
    AllSaid held inputs passed texts :=
  fun _ ht => .input (h ht)

theorem allSaid_singleton {text : String} (h : Said held inputs passed text) :
    AllSaid held inputs passed [text] :=
  List.forall_mem_singleton.mpr h

/-- Of clean inputs nothing held is said, where nothing held is passed on. -/
theorem clean_of_allSaid {texts : List String}
    (hheld : ∀ value, held.Holds value → Redactable value) (hinputs : Clean held inputs)
    (hpassed : Clean held passed) (h : AllSaid held inputs passed texts) : Clean held texts := by
  intro value hvalue text ht
  cases h text ht with
  | input h => exact hinputs value hvalue text h
  | redacted text => exact redact_clean (hheld value hvalue) hvalue text
  | stripped text =>
    intro hocc
    exact redact_clean (hheld value hvalue) hvalue text (Text.occurs_of_strip hocc)
  | passedOn h => exact hpassed value hvalue text h

/-- What every operation is given. -/
structure Common (actor : OperatorIdentity) (reason : String) (inputs : List String) : Prop where
  fixed : fixedWording ⊆ inputs
  label : actor.label ∈ inputs
  mechanism : actor.mechanism ∈ inputs
  reason : reason ∈ inputs

/-- A row says who asked, and its details. -/
theorem allSaid_auditRow (hc : Common actor reason inputs) {action entityType : String}
    {entityId : Option String} {details : Dict String Json}
    (h : ∀ p ∈ details, p.1 ∈ inputs ∧ AllSaid held inputs passed p.2.texts) :
    AllSaid held inputs passed (auditRow actor action entityType entityId details).texts := by
  have hall : ∀ p ∈ [("actor", Json.str actor.label), ("mechanism", .str actor.mechanism)] ++
      details, p.1 ∈ inputs ∧ AllSaid held inputs passed p.2.texts := by
    rw [List.forall_mem_append]
    refine ⟨List.forall_mem_cons.mpr ⟨?_, List.forall_mem_singleton.mpr ?_⟩, h⟩
    · have hkey : "actor" ∈ fixedWording := by decide
      exact ⟨hc.fixed hkey, allSaid_singleton (.input hc.label)⟩
    · have hkey : "mechanism" ∈ fixedWording := by decide
      exact ⟨hc.fixed hkey, allSaid_singleton (.input hc.mechanism)⟩
  intro text ht
  obtain ⟨p, hp, htext⟩ := Json.mem_textsMembers.mp ht
  obtain ⟨hkey, hvalue⟩ := hall p (Dict.mem_of_mem_ofPairs hp)
  rcases htext with rfl | htext
  · exact .input hkey
  · exact hvalue text htext

/-- **A conflict says nothing of the module's text**, but what redaction leaves of it. -/
theorem allSaid_lifecycleConflict (hfixed : fixedWording ⊆ inputs) (exc : Failure) :
    AllSaid surface.held inputs passed (lifecycleConflict surface exc).texts := by
  apply allSaid_singleton
  split
  · exact .input (hfixed (by decide))
  · exact .stripped exc.text

/-! ### Lookups -/

theorem texts_httpException {status : ℕ} {detail : String} :
    (Raised.httpException status detail).texts ⊆ inputs ↔ detail ∈ inputs := by
  rw [Raised.texts, List.cons_subset, and_iff_left (List.nil_subset inputs)]

theorem mem_lookupWording {field missing raw : String} :
    missing ++ raw ∈ lookupWording surface field missing raw :=
  List.mem_cons_of_mem _ List.mem_cons_self

theorem texts_uuid {raw field missing : String} {raised : Raised}
    (h : uuid surface raw field = .error raised) :
    raised.texts ⊆ lookupWording surface field missing raw := by
  unfold uuid at h
  split at h
  · cases h
  · obtain rfl := Except.error.inj h
    exact texts_httpException.mpr List.mem_cons_self

theorem texts_get {α : Type} {row : Option α} {raised : Raised}
    (h : get surface row = .error raised) : raised.texts = [] := by
  unfold get at h
  split at h
  · cases h
  · obtain rfl := Except.error.inj h
    rfl

theorem get_eq_ok {α : Type} {row found : Option α} (h : get surface row = .ok found) :
    row = found := by
  unfold get at h
  split at h
  · exact Except.ok.inj h
  · cases h

/-- What a lookup by an identifier raises: its wording, or what is made of the row. -/
theorem texts_lookup {α β : Type} {raw field missing : String} {rows : Uuid → Option α}
    {next : Option α → Except Raised β} {raised : Raised}
    (h : (do next (← get surface (rows (← uuid surface raw field)))) = .error raised)
    (hwording : lookupWording surface field missing raw ⊆ inputs)
    (hnext : ∀ found, next found = .error raised → raised.texts ⊆ inputs) :
    raised.texts ⊆ inputs := by
  rcases Except.bind_eq_error.mp h with h | ⟨identifier, -, h⟩
  · exact List.Subset.trans (texts_uuid h) hwording
  · rcases Except.bind_eq_error.mp h with h | ⟨found, -, h⟩
    · rw [texts_get h]
      exact List.nil_subset _
    · exact hnext found h

theorem texts_findInstallation {raw : String} {raised : Raised}
    (h : findInstallation surface raw store = .error raised)
    (hwording : lookupWording surface "installation_id" "no installation " raw ⊆ inputs) :
    raised.texts ⊆ inputs := by
  refine texts_lookup h hwording fun found hfound => ?_
  cases found with
  | none =>
    obtain rfl := Except.error.inj hfound
    exact texts_httpException.mpr (hwording mem_lookupWording)
  | some installation => cases hfound

theorem texts_findBinding {raw : String} {raised : Raised}
    (h : findBinding surface raw store = .error raised)
    (hwording : lookupWording surface "binding_id" "no binding " raw ⊆ inputs) :
    raised.texts ⊆ inputs := by
  refine texts_lookup h hwording fun found hfound => ?_
  cases found with
  | none =>
    obtain rfl := Except.error.inj hfound
    exact texts_httpException.mpr (hwording mem_lookupWording)
  | some binding => cases hfound

theorem texts_findRevision {raw : String} {raised : Raised}
    (h : findRevision surface raw store = .error raised) (hfixed : fixedWording ⊆ inputs)
    (hwording : lookupWording surface "installation_id" "no installation " raw ⊆ inputs) :
    raised.texts ⊆ inputs := by
  refine texts_lookup h hwording fun found hfound => ?_
  cases found with
  | none =>
    obtain rfl := Except.error.inj hfound
    exact texts_httpException.mpr (hwording mem_lookupWording)
  | some installation =>
    simp only at hfound
    split at hfound
    · obtain rfl := Except.error.inj hfound
      exact texts_httpException.mpr (hfixed (by simp [fixedWording]))
    · rcases Except.bind_eq_error.mp hfound with hread | ⟨revision, -, hrevision⟩
      · rw [texts_get hread]
        exact List.nil_subset _
      · cases revision with
        | none =>
          obtain rfl := Except.error.inj hrevision
          exact texts_httpException.mpr (hfixed (by simp [fixedWording]))
        | some revision => cases hrevision

theorem texts_finds {r : Replay μ} {raw : String} {raised : Raised}
    (h : r.finds surface raw store = .error raised)
    (hwording : lookupWording surface r.field ("no " ++ r.noun ++ " ") raw ⊆ inputs) :
    raised.texts ⊆ inputs := by
  refine texts_lookup h hwording fun found hfound => ?_
  cases found with
  | none =>
    obtain rfl := Except.error.inj hfound
    exact texts_httpException.mpr (hwording mem_lookupWording)
  | some row => cases hfound

/-! ### Authoring operations -/

/-- Whatever an authoring operation says of its own is given: what its lookups raise, its answer to
a conflict, the rows that the module adds, and its row. -/
structure Authored.Sourced (a : Authored μ) (held : Held) (inputs passed : List String)
    (store : Store μ) : Prop where
  conflict : ∀ detail, a.conflict = some detail → detail ∈ inputs
  lookup : ∀ raised, a.finds store = .error raised → raised.texts ⊆ inputs
  rows : ∀ make, a.finds store = .ok make → rowTexts (make store).rows ⊆ inputs
  made : ∀ make made, a.finds store = .ok make → (make store).answer = .ok made →
    AllSaid held inputs passed made.row.texts

variable {a : Authored μ}

theorem sourced_of_raises {raised : Raised} (hfinds : a.finds store = .error raised)
    (hconflict : ∀ detail, a.conflict = some detail → detail ∈ inputs)
    (hraised : raised.texts ⊆ inputs) : a.Sourced held inputs passed store := by
  refine ⟨hconflict, ?_, ?_, ?_⟩
  · intro found hfound
    obtain rfl := Except.error.inj (hfinds.symm.trans hfound)
    exact hraised
  · intro make hmake
    cases hfinds.symm.trans hmake
  · intro make made hmake
    cases hfinds.symm.trans hmake

theorem sourced_of_call {α : Type} {c : Store μ → Call μ α} {f : α → Made}
    {texts : α → List String} (hfinds : a.finds store = .ok fun store => (c store).map f)
    (hconflict : ∀ detail, a.conflict = some detail → detail ∈ inputs)
    (hhanded : (c store).handed texts ⊆ inputs)
    (hrow : ∀ x, texts x ⊆ inputs → AllSaid held inputs passed (f x).row.texts) :
    a.Sourced held inputs passed store := by
  have hsplit := List.append_subset.mp hhanded
  refine ⟨hconflict, ?_, ?_, ?_⟩
  · intro raised hraised
    cases hfinds.symm.trans hraised
  · intro make hmake
    obtain rfl := Except.ok.inj (hfinds.symm.trans hmake)
    exact hsplit.2
  · intro make made hmake hmade
    obtain rfl := Except.ok.inj (hfinds.symm.trans hmake)
    obtain ⟨x, hx, rfl⟩ := Except.map_eq_ok.mp hmade
    have htexts := hsplit.1
    rw [hx] at htexts
    exact hrow x htexts

/-- An operation that looks one row up, and then calls the module. -/
theorem sourced_of_found {α β : Type} {found : Except Raised α} {c : α → Store μ → Call μ β}
    {f : β → Made} {texts : β → List String}
    (hfinds : a.finds store = found >>= fun x => .ok fun store => (c x store).map f)
    (hconflict : ∀ detail, a.conflict = some detail → detail ∈ inputs)
    (hlookup : ∀ raised, found = .error raised → raised.texts ⊆ inputs)
    (hhanded : (found.toOption.elim [] fun x => (c x store).handed texts) ⊆ inputs)
    (hrow : ∀ x, texts x ⊆ inputs → AllSaid held inputs passed (f x).row.texts) :
    a.Sourced held inputs passed store := by
  cases found with
  | error raised => exact sourced_of_raises hfinds hconflict (hlookup raised rfl)
  | ok x => exact sourced_of_call hfinds hconflict hhanded hrow

/-- A named text in the details of a row. -/
theorem said_detail (hfixed : fixedWording ⊆ inputs) {name text : String} (htext : text ∈ inputs)
    (hname : name ∈ fixedWording) :
    name ∈ inputs ∧ AllSaid held inputs passed (Json.str text).texts :=
  ⟨hfixed hname, allSaid_singleton (.input htext)⟩

theorem sourced_createInstallation (hc : Common actor reason inputs)
    {connectorKey name environment : String}
    (hhanded : AuthoringRequest.handed surface actor store
      (.createInstallation connectorKey name environment) ⊆ inputs) :
    (createInstallation surface actor reason connectorKey name environment).Sourced held inputs
      passed store := by
  apply sourced_of_call rfl
  · rintro detail ⟨⟩
    exact hc.fixed (by decide)
  · exact hhanded
  · intro installation htexts
    simp only [ConnectorInstallation.texts, List.cons_subset] at htexts
    obtain ⟨-, hkey, hversion, henvironment, -⟩ := htexts
    apply allSaid_auditRow hc
    simp only [List.forall_mem_cons]
    exact ⟨said_detail hc.fixed hc.reason (by decide), said_detail hc.fixed hkey (by decide),
      said_detail hc.fixed hversion (by decide), said_detail hc.fixed henvironment (by decide),
      List.forall_mem_nil _⟩

theorem sourced_configureInstallation (hc : Common actor reason inputs) {installationId : String}
    {config secretRefs : Dict String Json} {schemaVersion : String}
    (hwording : lookupWording surface "installation_id" "no installation " installationId ⊆ inputs)
    (hhanded : AuthoringRequest.handed surface actor store
      (.configureInstallation installationId config secretRefs schemaVersion) ⊆ inputs) :
    (configureInstallation surface actor reason installationId config secretRefs
      schemaVersion).Sourced held inputs passed store := by
  rw [AuthoringRequest.handed] at hhanded
  apply sourced_of_found rfl
  · rintro detail ⟨⟩
    exact hc.fixed (by decide)
  · exact fun raised hraised => texts_findInstallation hraised hwording
  · exact hhanded
  · rintro ⟨installation, revision, isNew⟩ htexts
    obtain ⟨-, hrevision⟩ := List.append_subset.mp htexts
    simp only [ConnectorConfigRevision.texts, List.cons_subset] at hrevision
    obtain ⟨hid, hversion, -⟩ := hrevision
    apply allSaid_auditRow hc
    simp only [List.forall_mem_cons]
    exact ⟨said_detail hc.fixed hc.reason (by decide), said_detail hc.fixed hid (by decide),
      ⟨hc.fixed (by decide), allSaid_nil⟩, said_detail hc.fixed hversion (by decide),
      ⟨hc.fixed (by decide), allSaid_nil⟩, List.forall_mem_nil _⟩

/-- A row that names an installation and a capability. -/
theorem allSaid_bindingRow (hc : Common actor reason inputs) {action entityType : String}
    {entityId : Option String} {installationId capabilityId : String}
    (hinstallation : installationId ∈ inputs) (hcapability : capabilityId ∈ inputs) :
    AllSaid held inputs passed (auditRow actor action entityType entityId [
      ("reason", .str reason), ("installation_id", .str installationId),
      ("capability_id", .str capabilityId)]).texts := by
  apply allSaid_auditRow hc
  simp only [List.forall_mem_cons]
  exact ⟨said_detail hc.fixed hc.reason (by decide),
    said_detail hc.fixed hinstallation (by decide), said_detail hc.fixed hcapability (by decide),
    List.forall_mem_nil _⟩

theorem sourced_configureBinding (hc : Common actor reason inputs)
    {installationId capabilityId : String} {scope policy : Option (Dict String Json)}
    (hwording : lookupWording surface "installation_id" "no installation " installationId ⊆ inputs)
    (hhanded : AuthoringRequest.handed surface actor store
      (.configureBinding installationId capabilityId scope policy) ⊆ inputs) :
    (configureBinding surface actor reason installationId capabilityId scope policy).Sourced held
      inputs passed store := by
  rw [AuthoringRequest.handed] at hhanded
  apply sourced_of_found rfl
  · rintro detail ⟨⟩
    exact hc.fixed (by decide)
  · exact fun raised hraised => texts_findInstallation hraised hwording
  · exact hhanded
  · rintro ⟨installation, binding⟩ htexts
    obtain ⟨hinstallation, hbinding⟩ := List.append_subset.mp htexts
    simp only [CapabilityBinding.texts, List.cons_subset] at hbinding
    exact allSaid_bindingRow hc (List.cons_subset.mp hinstallation).1 hbinding.2.2.1

theorem sourced_mintBindingIngressEndpoint (hc : Common actor reason inputs) {bindingId : String}
    (hwording : lookupWording surface "binding_id" "no binding " bindingId ⊆ inputs)
    (hhanded : AuthoringRequest.handed surface actor store
      (.mintBindingIngressEndpoint bindingId) ⊆ inputs) :
    (mintBindingIngressEndpoint surface actor reason bindingId).Sourced held inputs passed
      store := by
  rw [AuthoringRequest.handed] at hhanded
  apply sourced_of_found rfl
  · rintro detail ⟨⟩
  · exact fun raised hraised => texts_findBinding hraised hwording
  · exact hhanded
  · rintro ⟨binding, endpointKey⟩ htexts
    simp only [CapabilityBinding.texts, List.cons_subset] at htexts
    exact allSaid_bindingRow hc htexts.2.1 htexts.2.2.1

theorem sourced_enableBinding (hc : Common actor reason inputs) {bindingId : String}
    (hwording : lookupWording surface "binding_id" "no binding " bindingId ⊆ inputs)
    (hhanded : AuthoringRequest.handed surface actor store (.enableBinding bindingId) ⊆ inputs) :
    (enableBinding surface actor reason bindingId).Sourced held inputs passed store := by
  have hconflict : ∀ detail, (enableBinding surface actor reason bindingId).conflict =
      some detail → detail ∈ inputs := by
    rintro detail ⟨⟩
  rw [AuthoringRequest.handed] at hhanded
  cases hfound : findBinding surface bindingId store with
  | error raised =>
    exact sourced_of_raises (Except.bind_eq_error.mpr (.inl hfound)) hconflict
      (texts_findBinding hfound hwording)
  | ok binding =>
    rw [hfound] at hhanded
    cases hread : get surface
        (surface.integration.installation store.tables binding.installationId) with
    | error raised =>
      refine sourced_of_raises (Except.bind_eq_error.mpr (.inr ⟨binding, hfound,
        Except.bind_eq_error.mpr (.inl hread)⟩)) hconflict ?_
      rw [texts_get hread]
      exact List.nil_subset _
    | ok found =>
      cases found with
      | none =>
        refine sourced_of_raises (Except.bind_eq_error.mpr (.inr ⟨binding, hfound,
          Except.bind_eq_error.mpr (.inr ⟨none, hread, rfl⟩)⟩)) hconflict ?_
        exact texts_httpException.mpr (hc.fixed (by decide))
      | some installation =>
        simp only [Except.toOption, Option.elim_some, get_eq_ok hread] at hhanded
        refine sourced_of_call (Except.bind_eq_ok.mpr ⟨binding, hfound,
          Except.bind_eq_ok.mpr ⟨some installation, hread, rfl⟩⟩) hconflict hhanded ?_
        rintro ⟨installation, binding⟩ htexts
        obtain ⟨hinstallation, hbinding⟩ := List.append_subset.mp htexts
        simp only [CapabilityBinding.texts, List.cons_subset] at hbinding
        exact allSaid_bindingRow hc (List.cons_subset.mp hinstallation).1 hbinding.2.2.1

/-- **What the authoring operations say of their own is given to them.** -/
theorem sourced_script {request : AuthoringRequest} (hc : Common actor reason inputs)
    (hwording : OperatorRequest.wording surface store (.authoring request) ⊆ inputs)
    (hhanded : request.handed surface actor store ⊆ inputs)
    (h : request.script surface actor reason = .inl a) :
    a.Sourced held inputs passed store := by
  cases request with
  | createInstallation connectorKey name environment =>
    obtain rfl := Sum.inl.inj h
    exact sourced_createInstallation hc hhanded
  | configureInstallation installationId config secretRefs schemaVersion =>
    obtain rfl := Sum.inl.inj h
    exact sourced_configureInstallation hc hwording hhanded
  | configureBinding installationId capabilityId scope policy =>
    obtain rfl := Sum.inl.inj h
    exact sourced_configureBinding hc hwording hhanded
  | mintBindingIngressEndpoint bindingId =>
    obtain rfl := Sum.inl.inj h
    exact sourced_mintBindingIngressEndpoint hc hwording hhanded
  | enableBinding bindingId =>
    obtain rfl := Sum.inl.inj h
    exact sourced_enableBinding hc hwording hhanded
  | enableInstallation installationId => cases h

theorem eq_enableInstallation {request : AuthoringRequest} {installationId : String}
    (h : request.script surface actor reason = .inr installationId) :
    request = .enableInstallation installationId := by
  cases request with
  | enableInstallation found => rw [Sum.inr.inj h]
  | _ => cases h

end DotmacIntegrator.Operations
