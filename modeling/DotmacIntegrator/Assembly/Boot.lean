import DotmacIntegrator.Assembly.MountedSurface
import DotmacIntegrator.Delivery.Installation
import DotmacIntegrator.Foundation.Observed
import DotmacIntegrator.ProductPort.Reconciliation
import DotmacIntegrator.Secrets.Refresh
import DotmacIntegrator.Worker.Lifecycle

/-!
# The start of the process

`create_app` checks what it was configured with and what it mounts. The lifespan then holds the
secrets, reads what the products declare, installs one registry of all of it, projects the
destination and installs its client, and starts the worker last. Anything that is raised ends the
start where it stands.

## Main definitions

* `createApp`, `lifespanStart`, `boot`: the start
* `StartEvent`: what is seen of it: credentials that are presented, a session that is opened, and
  the worker's start
* `Serving`: what a process is that serves
* `Orderly`: what is seen of a start, and in which order

## Main results

* `boot_orderly`: every start is orderly, whatever it comes to
* `ends_boot`: a start that returns leaves a process that serves
-/

namespace DotmacIntegrator.Assembly

open DotmacIntegrator.Configuration DotmacIntegrator.Delivery DotmacIntegrator.ProductPort
  DotmacIntegrator.Surface Observed Url

open Secrets (SecretState SecretLoadReport SourceKernel ReadFailure SecretsNotHeld Held
  installSecrets)
open Worker (World started)

/-! ### What a start finds and raises -/

/-- What reading the contract registry raises. -/
inductive ContractsRaised (ε : Type)
  | secretsNotHeld (reason : SecretsNotHeld)
  | registry (raised : RegistryRaised ε)
  /-- The `RecursionError` of an answer that is nested too deeply to be read. -/
  | recursionError

/-- What a start raises. -/
inductive StartRaised (ε : Type)
  | runtimeError (message : String)
  | surface (raised : SurfaceRaised)
  | secrets (failure : ReadFailure)
  | reader (e : ReaderError)
  | descriptor (raised : DescriptorRaised ε)
  | contracts (raised : ContractsRaised ε)
  | install (e : InstallError ε)
  | assertionError
  | other (e : ε)

/-- What is used of the module, besides reading declarations: the contracts of a registry, and its
installation, which may raise over what is installed. -/
structure AssemblyModule (ε C G : Type) extends DescriptorModule ε C G where
  contracts : G → List C
  installCapabilityRegistry : Option G → G → Option ε
  capabilityRegistryNotInstalled : ε

/-- What `create_app` finds: what discovery, the composition of the manifests, the boundaries of
the connectors and the engine raise. -/
structure Composition (ε : Type) where
  queryDispatcher : Except ε Unit
  provisionDispatcher : Except ε Unit
  startupOrder : Except ε Unit
  auditActions : Except ε Unit
  runtimeBoundaries : Except ε Unit
  engine : Except ε Unit

/-- What the lifespan finds: the stored revisions and the host, what the transport answers, and
what the module and the commit do in the session of the destination. -/
structure StartSurroundings (ε : Type) where
  secrets : Secrets.Surroundings
  get : HttpGet → Except ε HttpAnswer
  reconciled : Except ε Unit
  committed : Except ε Unit

/-- The variables of the process. -/
structure ProcessState (C G : Type) where
  secrets : SecretState
  capabilityRegistry : Option G
  port : Installation ObservationPortClient G
  worker : Option World

/-- A new process. -/
def ProcessState.fresh (C G : Type) : ProcessState C G := ⟨.empty, none, .empty _ _, none⟩

/-- What is seen of a start. -/
inductive StartEvent (C : Type)
  | presented (request : HttpGet)
  | opened (descriptor : ProductPortDescriptorSnapshot C)
  | started

/-- A part of the start. -/
abbrev Starting (ε C G α : Type) :=
  Observed (StartEvent C) (ProcessState C G) (StartRaised ε) α

section Start

variable {ε C G : Type} (R : HostRules) (U : UnicodeDigits) (rt : Runtime)
  (upper lower : String → String) (kernel : SourceKernel) (recognised : List String)
  (readAnswer : ByteArray → Except Json.LoadsError Json) (m : AssemblyModule ε C G)

/-! ### The application -/

/-- A step of `create_app` that is taken where it is configured. -/
def takenIf (configured : Bool) (step : Except ε Unit) : Except (StartRaised ε) Unit :=
  if configured then step.mapError .other else .ok ()

/-- `create_app`: the routes it mounts. -/
def createApp (settings : AppSettings) (injected : Bool) (found : Composition ε) :
    Except (StartRaised ε) (List Route) := do
  let problems := validateSettings R rt.printable settings.toSettings
  if problems ≠ [] then
    .error (.runtimeError ("refusing to start with unsafe configuration:\n  - " ++
      "\n  - ".intercalate problems))
  else
    let _ ← takenIf (settings.productQueryEnabled && !injected) found.queryDispatcher
    let _ ← takenIf settings.productProvisionEnabled found.provisionDispatcher
    let _ ← takenIf true found.startupOrder
    let _ ← takenIf true found.auditActions
    let _ ← takenIf true found.runtimeBoundaries
    let _ ← takenIf true found.engine
    let _ ← (requireACorrectSurface rt.printable upper lower (some settings.metricsPath)
      (mountedRoutes settings)).mapError .surface
    return mountedRoutes settings

/-! ### The lifespan -/

variable (settings : Settings) (env : StartSurroundings ε)

/-- `install_secrets`. -/
def installingSecrets : Starting ε C G SecretLoadReport := do
  let s ← peek
  let loaded := installSecrets kernel rt.printable recognised settings env.secrets s.secrets
  put { s with secrets := loaded.1 }
  ofExcept (loaded.2.mapError .secrets)

/-- What a reader's calls find. -/
def readerSurroundings (s : ProcessState C G) : ProductPort.Surroundings ε C G where
  held := s.secrets.held
  get := env.get
  address := 0
  installed := (s.capabilityRegistry.map .ok).getD (.error m.capabilityRegistryNotInstalled)
  reconciled := env.reconciled
  committed := env.committed

/-- A reader presents its credential, where it is held. -/
def presenting (reader : DescriptorReader R) : Starting ε C G Unit := do
  let s ← peek
  match reader.request s.secrets.held with
  | .ok request => emit (.presented request)
  | .error _ => pure ()

/-- A reader, and the declaration it prepared. -/
structure PreparedPort (C G : Type) where
  reader : ProductPortDescriptorReconciler R
  state : ReaderState C G
  ref : Ref C G

/-- `reconciler_from_settings`, and `prepare_owner`. -/
def preparingOwner (report : SecretLoadReport) : Starting ε C G (PreparedPort R C G) := do
  let reader ← ofExcept ((reconcilerFromSettings R settings report.held).mapError .reader)
  presenting R reader.toDescriptorReader
  let s ← peek
  let prepared ← ofExcept ((prepareOwner U rt readAnswer m.toDescriptorModule reader ⟨[], none⟩
    (readerSurroundings m env s)).mapError .descriptor)
  return ⟨reader, prepared.1, prepared.2⟩

variable {R} in
/-- `ProductContractRegistryReconciler.reconcile`. -/
def readContracts (reader : ProductContractRegistryReconciler R) (held : Held) :
    Except (ContractsRaised ε) G := do
  let request ← (reader.request held).mapError .secretsNotHeld
  let answer ← (env.get request).mapError fun e => .registry (.other e)
  if answer.status ≠ 200 then
    .error (.registry (.productContractRegistryError
      ("the product capability registry endpoint answered " ++ toString answer.status)))
  else
    match readAnswer answer.body with
    | .error .valueError =>
      .error (.registry (.productContractRegistryError
        "the product capability registry endpoint did not return JSON"))
    | .error .recursionError => .error .recursionError
    | .ok document => (reader.parse rt m.toCapabilityModule document).mapError .registry

/-- `product_contracts.build_from_settings`. -/
def readingContracts (report : SecretLoadReport) : Starting ε C G G := do
  let reader ← ofExcept ((buildFromSettings R settings report.held).mapError .reader)
  presenting R reader.toDescriptorReader
  let s ← peek
  ofExcept ((readContracts rt readAnswer m env reader s.secrets.held).mapError .contracts)

/-- The destination is projected, and its client installed. -/
def reconcilingPort [DecidableEq C] (port : PreparedPort R C G) (registry : G) :
    Starting ε C G Unit := do
  let s ← peek
  let made := reconcile U rt readAnswer m.toDescriptorModule port.reader port.state
    (some port.ref) (some registry) (readerSurroundings m env s)
  match made.opened with
  | none => pure ()
  | some descriptor => emit (.opened descriptor)
  let built ← ofExcept (made.result.mapError .descriptor)
  let installed := installProductPort observationShape (fun _ => none) s.port
    ⟨built.1, some registry, false⟩
  put { s with port := installed.1 }
  match installed.2 with
  | none => pure ()
  | some e => raise (.install e)

/-- One registry of everything that was declared is installed, before the destination is
projected. -/
def installingRegistries [DecidableEq C] (port : Option (PreparedPort R C G))
    (registries : List G) : Starting ε C G Unit := do
  let registry ← ofExcept
    ((m.fromDeclarations (registries.flatMap m.contracts)).mapError .other)
  let s ← peek
  match m.installCapabilityRegistry s.capabilityRegistry registry with
  | some e => raise (.other e)
  | none =>
    put { s with capabilityRegistry := some registry }
    if settings.productPortEnabled then
      match port with
      | none => raise .assertionError
      | some port => reconcilingPort R U rt readAnswer m env port registry
    else pure ()

/-- `Worker.start`. -/
def startingWorker : Starting ε C G Unit := do
  let s ← peek
  emit .started
  put { s with worker := some (started settings.workerEnabled (productPort s.port).isSome) }

/-- What the products declare, where it is configured: the destination's owner, and the contract
registry. -/
def readingDeclarations (report : SecretLoadReport) :
    Starting ε C G (Option (PreparedPort R C G) × Option G) := do
  let port ← optionally (settings.productPortEnabled || settings.productPortPrepareOnly)
    (preparingOwner R U rt readAnswer m settings env report)
  let contracts ← optionally settings.productContractRegistryEnabled
    (readingContracts R rt readAnswer m settings env report)
  return (port, contracts)

/-- The registries that were read are installed, if there are any. -/
def installingDeclared [DecidableEq C] (port : Option (PreparedPort R C G))
    (contracts : Option G) : Starting ε C G Unit :=
  let registries := (port.map fun p => p.ref.object.registry).toList ++ contracts.toList
  if registries = [] then pure ()
  else installingRegistries R U rt readAnswer m settings env port registries

/-- The lifespan, until it serves. -/
def lifespanStart [DecidableEq C] : Starting ε C G Unit := do
  let report ← installingSecrets rt kernel recognised settings env
  let read ← readingDeclarations R U rt readAnswer m settings env report
  installingDeclared R U rt readAnswer m settings env read.1 read.2
  startingWorker settings

/-- A start of the process. -/
def boot [DecidableEq C] (settings : AppSettings) (injected : Bool) (found : Composition ε) :
    Starting ε C G Unit := do
  let _ ← ofExcept (createApp R rt upper lower settings injected found)
  lifespanStart R U rt kernel recognised readAnswer m settings.toSettings env

/-! ### What a start is to come to -/

/-- A credential is presented to its URL: both are those of the settings, stripped. -/
structure Presents (held : Held) (url reference : String) (request : HttpGet) : Prop where
  url : request.url = Text.strip url
  key : request.headers.get? "X-Api-Key" = held.get? (Text.strip reference)
  isHeld : (held.get? (Text.strip reference)).isSome

/-- The descriptor was read from the answer to one of the requests, and is pinned. -/
def DeclaredBy (requests : List HttpGet) (d : ProductPortDescriptorSnapshot C) : Prop :=
  ∃ reader : ProductPortDescriptorReconciler R, ∃ request ∈ requests, ∃ answer,
    env.get request = .ok answer ∧ Authentic U rt readAnswer m.toDescriptorModule reader answer d ∧
    d.descriptorDigest = Text.strip settings.productPortDescriptorExpectedDigest

/-- The registry was parsed from the answer to one of the requests. -/
def ParsedFrom (requests : List HttpGet) (registry : G) : Prop :=
  ∃ reader : ProductContractRegistryReconciler R, ∃ request ∈ requests, ∃ answer document,
    env.get request = .ok answer ∧ answer.status = 200 ∧ readAnswer answer.body = .ok document ∧
    reader.parse rt m.toCapabilityModule document = .ok registry ∧
    reader.expectedDigest = Text.strip settings.productContractRegistryExpectedDigest

/-- The credentials that are presented are those of the owners that are configured. -/
def PresentsConfigured (held : Held) (request : HttpGet) : Prop :=
  (settings.productPortEnabled || settings.productPortPrepareOnly) = true ∧
      Presents held settings.productPortDescriptorUrl settings.productPortApiKeyRef request ∨
    settings.productContractRegistryEnabled = true ∧
      Presents held settings.productContractRegistryUrl
        settings.productContractRegistryApiKeyRef request

/-- **What is seen of a start, and in which order**: credentials are presented to the owners that
are configured; then at most one session is opened, once every owner that is configured declared
what is pinned of it and the destination's contract is that of the installed registry; and the
worker is started last, by a start that returns. A start that raises installs no client. -/
structure Orderly (seen : List (StartEvent C)) (r : Except (StartRaised ε) Unit)
    (s : ProcessState C G) : Prop where
  seen : ∃ (presented : List HttpGet) (opened : List (ProductPortDescriptorSnapshot C)),
    seen = presented.map .presented ++ opened.map .opened ++
      (if r.isOk then [.started] else []) ∧
    (∀ request ∈ presented, PresentsConfigured settings s.secrets.held request) ∧
    opened.length ≤ 1 ∧
    ∀ d ∈ opened, settings.productPortEnabled = true ∧
      DeclaredBy R U rt readAnswer m settings env presented d ∧
      (settings.productContractRegistryEnabled = true →
        ∃ registry, ParsedFrom R rt readAnswer m settings env presented registry) ∧
      ∃ registry, s.capabilityRegistry = some registry ∧
        m.get registry d.capabilityId = .ok d.capabilityContract
  raised : r.isOk = false → s.port = .empty _ _ ∧ s.worker = none

/-- **What a process is that serves**: it holds what it says, from the source of its settings; it
has a client iff its destination is enabled, under the credential, the mode and the declaration of
the settings, and routes by the installed registry; and its worker was started on that. -/
structure Serving (s : ProcessState C G) : Prop where
  told : s.secrets.Told
  source : s.secrets.installed = some settings
  worker : s.worker = some (started settings.workerEnabled settings.productPortEnabled)
  withoutPort : settings.productPortEnabled = false → s.port = .empty _ _
  port : settings.productPortEnabled = true → ∃ client registry d requests,
    s.port = ⟨some client, some registry⟩ ∧ s.capabilityRegistry = some registry ∧
    portMode settings = .ok client.mode ∧
    client.apiKeyRef = Text.strip settings.productPortApiKeyRef ∧
    (s.secrets.getSecret client.apiKeyRef).isSome ∧
    DeclaredBy R U rt readAnswer m settings env requests d ∧
    client.application = d.application ∧
    m.get registry d.capabilityId = .ok d.capabilityContract

end Start

variable {ε C G : Type} {R : HostRules} {U : UnicodeDigits} {rt : Runtime}
  {upper lower : String → String} {kernel : SourceKernel} {recognised : List String}
  {readAnswer : ByteArray → Except Json.LoadsError Json} {m : AssemblyModule ε C G}
  {settings : Settings} {env : StartSurroundings ε} {s : ProcessState C G}

/-! ### Secrets -/

/-- A load that returns at startup is what is told, and its source is installed. -/
theorem installSecrets_eq_ok {printable : Char → Bool} {around : Secrets.Surroundings}
    {state : SecretState} {report : SecretLoadReport}
    (h : (installSecrets kernel printable recognised settings around state).2 = .ok report) :
    let after := (installSecrets kernel printable recognised settings around state).1
    after.Told ∧ after.lastReport = report ∧ after.installed = some settings := by
  unfold installSecrets at h ⊢
  split at h
  · cases h
  · rcases @Secrets.replaceHeld_loadStored printable recognised settings around state with
      ⟨failure, hload⟩ | ⟨source, held, loaded, hsource, hload⟩
    · rw [hload] at h
      cases h
    · rw [hload] at h
      obtain rfl := Except.ok.inj h
      rw [hload]
      exact ⟨Secrets.load_told hsource _, rfl, by simp [Except.isOk, Except.toBool]⟩

theorem ends_installingSecrets :
    (installingSecrets rt kernel recognised settings env : Starting ε C G _).Ends s
      fun seen r s' => seen = [] ∧ ∃ secrets, s' = { s with secrets := secrets } ∧
        ∀ report, r = .ok report →
          secrets.Told ∧ secrets.lastReport = report ∧ secrets.installed = some settings := by
  unfold installingSecrets
  apply ends_bind_peek
  apply ends_bind_put
  refine ⟨rfl, _, rfl, fun report hreport => ?_⟩
  exact installSecrets_eq_ok (Except.mapError_eq_ok.mp hreport)

/-! ### Declarations -/

/-- The requests of a reader: one, where its credential is held. -/
def requestsOf (reader : DescriptorReader R) (held : Held) : List HttpGet :=
  (reader.request held).toOption.toList

theorem mem_requestsOf {reader : DescriptorReader R} {held : Held} {request : HttpGet} :
    request ∈ requestsOf reader held ↔ reader.request held = .ok request := by
  unfold requestsOf
  cases reader.request held with
  | error e => simp [Except.toOption]
  | ok found => simp [Except.toOption, eq_comm]

theorem ends_presenting (reader : DescriptorReader R) :
    (presenting R reader : Starting ε C G _).Ends s fun seen r s' =>
      s' = s ∧ r = .ok () ∧ seen = (requestsOf reader s.secrets.held).map .presented := by
  unfold presenting requestsOf
  apply ends_bind_peek
  cases reader.request s.secrets.held with
  | error e => exact ⟨rfl, rfl, rfl⟩
  | ok request => exact ⟨rfl, rfl, rfl⟩

/-- Behind a reader's credential, which is presented where it is held. -/
theorem ends_bind_presenting {α : Type} {reader : DescriptorReader R}
    {f : Unit → Starting ε C G α}
    {Q : List (StartEvent C) → Except (StartRaised ε) α → ProcessState C G → Prop}
    (h : (f ()).Ends s fun seen =>
      Q ((requestsOf reader s.secrets.held).map .presented ++ seen)) :
    (presenting R reader >>= f).Ends s Q := by
  apply Ends.bind
  refine (ends_presenting reader).mono ?_
  rintro _ _ _ ⟨rfl, rfl, rfl⟩
  exact ⟨fun _ _ => h, nofun⟩

theorem checkedReader_expectedDigest {refuse : String → ReaderError}
    {urlKnob digestKnob url expectedDigest apiKeyRef : String} {timeout : PyFloat}
    {reader : DescriptorReader R}
    (h : checkedReader R refuse urlKnob digestKnob url expectedDigest apiKeyRef timeout =
      .ok reader) : reader.expectedDigest = expectedDigest := by
  unfold checkedReader at h
  split at h
  · cases h
  · split_ifs at h
    obtain rfl := Except.ok.inj h
    rfl

/-- The port's reader has the configured pin and mode, and its credential is held. -/
theorem reconcilerFromSettings_pins {heldReferences : List String}
    {reader : ProductPortDescriptorReconciler R}
    (h : reconcilerFromSettings R settings heldReferences = .ok reader) :
    reader.expectedDigest = Text.strip settings.productPortDescriptorExpectedDigest ∧
      portMode settings = .ok reader.mode ∧
      Text.strip settings.productPortApiKeyRef ∈ heldReferences := by
  unfold reconcilerFromSettings at h
  simp only at h
  split at h
  · cases h
  · next hheld =>
    obtain ⟨mode, hmode, h⟩ := Except.bind_eq_ok.mp h
    obtain ⟨checked, hchecked, h⟩ := Except.bind_eq_ok.mp h
    obtain rfl := Except.ok.inj h
    exact ⟨checkedReader_expectedDigest hchecked, hmode, not_not.mp hheld⟩

/-- The registry's reader has the configured pin. -/
theorem buildFromSettings_pins {heldReferences : List String}
    {reader : ProductContractRegistryReconciler R}
    (h : buildFromSettings R settings heldReferences = .ok reader) :
    reader.expectedDigest = Text.strip settings.productContractRegistryExpectedDigest := by
  unfold buildFromSettings at h
  simp only at h
  split at h
  · cases h
  · split at h
    · cases h
    · obtain ⟨checked, hchecked, h⟩ := Except.bind_eq_ok.mp h
      obtain rfl := Except.ok.inj h
      exact checkedReader_expectedDigest hchecked

/-- A reader with a stripped URL and reference presents them. -/
theorem presents_of_mem {reader : DescriptorReader R} {held : Held} {url reference : String}
    {request : HttpGet} (hurl : reader.url = Text.strip url)
    (hreference : reader.apiKeyRef = Text.strip reference)
    (h : request ∈ requestsOf reader held) : Presents held url reference request := by
  have hsome : (reader.request held).toOption = some request := by
    rw [mem_requestsOf.mp h]
    rfl
  obtain ⟨hto, hheld, hkey⟩ := request_eq_some hsome
  rw [hreference] at hheld hkey
  exact ⟨hto.trans hurl, hkey, hheld⟩

/-- What a part of the start that reads declarations comes to: the process stays, the owners that
are configured are presented their credentials, and `P` holds of what it returns. -/
def Reads {α : Type} (settings : Settings) (P : List HttpGet → α → Prop)
    (t : Starting ε C G α) (s : ProcessState C G) : Prop :=
  t.Ends s fun seen r s' => s' = s ∧ ∃ requests, seen = requests.map .presented ∧
    (∀ request ∈ requests, PresentsConfigured settings s.secrets.held request) ∧
    ∀ a, r = .ok a → P requests a

/-- The owner of the destination, as it is prepared. -/
def PreparedFrom (R : HostRules) (U : UnicodeDigits) (rt : Runtime)
    (readAnswer : ByteArray → Except Json.LoadsError Json) (m : AssemblyModule ε C G)
    (settings : Settings)
    (env : StartSurroundings ε) (report : SecretLoadReport) (requests : List HttpGet)
    (port : PreparedPort R C G) : Prop :=
  reconcilerFromSettings R settings report.held = .ok port.reader ∧
    DeclaredBy R U rt readAnswer m settings env requests port.ref.object.descriptor

theorem reads_preparingOwner {report : SecretLoadReport}
    (hconfigured : (settings.productPortEnabled || settings.productPortPrepareOnly) = true) :
    Reads settings (PreparedFrom R U rt readAnswer m settings env report)
      (preparingOwner R U rt readAnswer m settings env report) s := by
  unfold preparingOwner Reads
  apply ends_bind_ofExcept
  · intro reader hreader
    have hreader := Except.mapError_eq_ok.mp hreader
    obtain ⟨hurl, hreference⟩ := reconcilerFromSettings_eq_ok hreader
    obtain ⟨hpin, -, -⟩ := reconcilerFromSettings_pins hreader
    -- The credential is presented before anything is known of the answer.
    apply ends_bind_presenting
    apply ends_bind_peek
    have hpresents : ∀ request ∈ requestsOf reader.toDescriptorReader s.secrets.held,
        PresentsConfigured settings s.secrets.held request :=
      fun request hrequest => .inl ⟨hconfigured, presents_of_mem hurl hreference hrequest⟩
    apply ends_bind_ofExcept
    · rintro ⟨state, ref⟩ hprepared
      refine ends_pure ⟨rfl, _, List.append_nil _, hpresents, ?_⟩
      rintro _ ⟨⟩
      obtain ⟨value, hvalue, rfl, -⟩ := prepareOwner_eq_ok (Except.mapError_eq_ok.mp hprepared)
      obtain ⟨request, answer, hrequest, hanswer, hauthentic⟩ :=
        read_authentic (preparedValue_eq_ok hvalue).1
      exact ⟨hreader, reader, request, mem_requestsOf.mpr hrequest, answer, hanswer, hauthentic,
        hauthentic.pin.trans hpin⟩
    · intro e _
      refine ⟨rfl, _, List.append_nil _, hpresents, ?_⟩
      rintro _ ⟨⟩
  · intro e _
    refine ⟨rfl, [], rfl, List.forall_mem_nil _, ?_⟩
    rintro _ ⟨⟩

/-- The contract registry, as it is read. -/
theorem readContracts_eq_ok {reader : ProductContractRegistryReconciler R} {held : Held}
    {registry : G} (h : readContracts rt readAnswer m env reader held = .ok registry) :
    ∃ request answer document, reader.request held = .ok request ∧
      env.get request = .ok answer ∧ answer.status = 200 ∧
      readAnswer answer.body = .ok document ∧
      reader.parse rt m.toCapabilityModule document = .ok registry := by
  obtain ⟨request, hrequest, h⟩ := Except.bind_eq_ok.mp h
  obtain ⟨answer, hanswer, h⟩ := Except.bind_eq_ok.mp h
  split_ifs at h with hstatus
  split at h
  · cases h
  · cases h
  · next document hdocument =>
    exact ⟨request, answer, document, Except.mapError_eq_ok.mp hrequest,
      Except.mapError_eq_ok.mp hanswer, not_not.mp hstatus, hdocument, Except.mapError_eq_ok.mp h⟩

theorem reads_readingContracts {report : SecretLoadReport}
    (hconfigured : settings.productContractRegistryEnabled = true) :
    Reads settings (ParsedFrom R rt readAnswer m settings env)
      (readingContracts R rt readAnswer m settings env report) s := by
  unfold readingContracts Reads
  apply ends_bind_ofExcept
  · intro reader hreader
    have hreader := Except.mapError_eq_ok.mp hreader
    obtain ⟨hurl, hreference⟩ := buildFromSettings_eq_ok hreader
    apply ends_bind_presenting
    apply ends_bind_peek
    refine ⟨rfl, _, List.append_nil _, ?_, ?_⟩
    · exact fun request hrequest => .inr ⟨hconfigured, presents_of_mem hurl hreference hrequest⟩
    · intro registry hregistry
      obtain ⟨request, answer, document, hrequest, hanswer, hstatus, hdocument, hparsed⟩ :=
        readContracts_eq_ok (Except.mapError_eq_ok.mp hregistry)
      exact ⟨reader, request, mem_requestsOf.mpr hrequest, answer, document, hanswer, hstatus,
        hdocument, hparsed, buildFromSettings_pins hreader⟩
  · intro e _
    refine ⟨rfl, [], rfl, List.forall_mem_nil _, ?_⟩
    rintro _ ⟨⟩

theorem DeclaredBy.mono {requests requests' : List HttpGet}
    {d : ProductPortDescriptorSnapshot C}
    (h : DeclaredBy R U rt readAnswer m settings env requests d) (hsub : requests ⊆ requests') :
    DeclaredBy R U rt readAnswer m settings env requests' d := by
  obtain ⟨reader, request, hrequest, hrest⟩ := h
  exact ⟨reader, request, hsub hrequest, hrest⟩

theorem ParsedFrom.mono {requests requests' : List HttpGet} {registry : G}
    (h : ParsedFrom R rt readAnswer m settings env requests registry)
    (hsub : requests ⊆ requests') :
    ParsedFrom R rt readAnswer m settings env requests' registry := by
  obtain ⟨reader, request, hrequest, hrest⟩ := h
  exact ⟨reader, request, hsub hrequest, hrest⟩

/-- What was read: every owner that is configured, and nothing else. -/
structure ReadDeclarations (R : HostRules) (U : UnicodeDigits) (rt : Runtime)
    (readAnswer : ByteArray → Except Json.LoadsError Json) (m : AssemblyModule ε C G)
    (settings : Settings)
    (env : StartSurroundings ε) (report : SecretLoadReport) (requests : List HttpGet)
    (read : Option (PreparedPort R C G) × Option G) : Prop where
  port : ∀ port, read.1 = some port →
    PreparedFrom R U rt readAnswer m settings env report requests port
  isPort : read.1.isSome = (settings.productPortEnabled || settings.productPortPrepareOnly)
  contracts : ∀ registry, read.2 = some registry →
    ParsedFrom R rt readAnswer m settings env requests registry
  isContracts : read.2.isSome = settings.productContractRegistryEnabled

/-- A part that reads, where it is configured, and is followed by another that does. -/
theorem Reads.bind_optionally {α β : Type} {configured : Bool} {t : Starting ε C G α}
    {f : Option α → Starting ε C G β} {P : List HttpGet → α → Prop} {Q : List HttpGet → β → Prop}
    (h : configured = true → Reads settings P t s)
    (hnone : configured = false → Reads settings Q (f none) s)
    (hsome : configured = true → ∀ requests a, P requests a →
      Reads settings (fun requests' => Q (requests ++ requests')) (f (some a)) s) :
    Reads settings Q (optionally configured t >>= f) s := by
  apply ends_bind_optionally hnone
  intro hconfigured
  refine (h hconfigured).mono ?_
  rintro _ r _ ⟨rfl, requests, rfl, hpresents, hread⟩
  constructor
  · intro a ha
    refine (hsome hconfigured requests a (hread a ha)).mono ?_
    rintro _ r' _ ⟨rfl, requests', rfl, hpresents', hread'⟩
    exact ⟨rfl, requests ++ requests', (List.map_append ..).symm,
      List.forall_mem_append.mpr ⟨hpresents, hpresents'⟩, hread'⟩
  · intro e _
    refine ⟨rfl, requests, rfl, hpresents, ?_⟩
    rintro _ ⟨⟩

theorem reads_pure {α : Type} {P : List HttpGet → α → Prop} {a : α} (h : P [] a) :
    Reads settings P (pure a : Starting ε C G α) s := by
  refine ends_pure ⟨rfl, [], rfl, List.forall_mem_nil _, ?_⟩
  rintro _ ⟨⟩
  exact h

/-- Every owner that is configured is read, before anything else is done. -/
theorem reads_readingDeclarations (report : SecretLoadReport) :
    Reads settings (ReadDeclarations R U rt readAnswer m settings env report)
      (readingDeclarations R U rt readAnswer m settings env report) s := by
  unfold readingDeclarations
  -- The destination first, then the contract registry: neither, one of them, or both.
  apply Reads.bind_optionally reads_preparingOwner
  · intro hport
    apply Reads.bind_optionally reads_readingContracts
    · intro hcontracts
      refine reads_pure ⟨?_, hport.symm, ?_, hcontracts.symm⟩
      · rintro _ ⟨⟩
      · rintro _ ⟨⟩
    · intro hcontracts requests registry hparsed
      refine reads_pure ⟨?_, hport.symm, ?_, hcontracts.symm⟩
      · rintro _ ⟨⟩
      · rintro _ ⟨⟩
        rw [List.append_nil]
        exact hparsed
  · intro hport requests port hprepared
    apply Reads.bind_optionally reads_readingContracts
    · intro hcontracts
      refine reads_pure ⟨?_, hport.symm, ?_, hcontracts.symm⟩
      · rintro _ ⟨⟩
        rw [List.append_nil]
        exact hprepared
      · rintro _ ⟨⟩
    · intro hcontracts requests' registry hparsed
      refine reads_pure ⟨?_, hport.symm, ?_, hcontracts.symm⟩
      · rintro _ ⟨⟩
        rw [List.append_nil]
        exact ⟨hprepared.1, hprepared.2.mono (List.subset_append_left ..)⟩
      · rintro _ ⟨⟩
        rw [List.append_nil]
        exact hparsed.mono (List.subset_append_right ..)

/-! ### The destination -/

/-- What the client of a destination is. -/
structure ClientOf (reader : ProductPortDescriptorReconciler R)
    (d : ProductPortDescriptorSnapshot C) (client : ObservationPortClient) : Prop where
  application : client.application = d.application
  apiKeyRef : client.apiKeyRef = reader.apiKeyRef
  mode : client.mode = reader.mode

theorem clientOf_destinationClient {reader : ProductPortDescriptorReconciler R}
    {d : ProductPortDescriptorSnapshot C} {client : ObservationPortClient}
    (h : (destinationClient reader d.application : Except (DescriptorRaised ε) _) = .ok client) :
    ClientOf reader d client := by
  unfold destinationClient at h
  split_ifs at h
  obtain rfl := Except.ok.inj h
  exact ⟨rfl, rfl, rfl⟩

/-- A reconciliation of a value that was passed: it raises before a session is opened, or one is
opened for the descriptor of this value, whose contract is the installed one. -/
theorem reconcile_some_cases [DecidableEq C] {reader : ProductPortDescriptorReconciler R}
    {state : ReaderState C G} {ref : Ref C G} {registry : Option G}
    {around : ProductPort.Surroundings ε C G} :
    (∃ state' raised, reconcile U rt readAnswer m.toDescriptorModule reader state (some ref)
        registry around = ⟨state', none, .error raised⟩) ∨
      ∃ state' installed result, reconcile U rt readAnswer m.toDescriptorModule reader state
          (some ref) registry around = ⟨state', some ref.object.descriptor, result⟩ ∧
        around.installed = .ok installed ∧
        m.get installed ref.object.descriptor.capabilityId =
          .ok ref.object.descriptor.capabilityContract ∧
        ∀ built, result = .ok built → ClientOf reader ref.object.descriptor built.1 := by
  simp only [reconcile, passedValue]
  cases hchecked : checkedOwner m.toDescriptorModule state ref registry around with
  | error raised => exact .inl ⟨_, raised, rfl⟩
  | ok installed =>
    obtain ⟨-, hinstalled, hcontract, -⟩ := checkedOwner_eq_ok hchecked
    refine .inr ⟨_, installed, _, rfl, hinstalled, hcontract, ?_⟩
    intro built hbuilt
    obtain ⟨_, -, hbuilt⟩ := Except.bind_eq_ok.mp hbuilt
    obtain ⟨_, -, hbuilt⟩ := Except.bind_eq_ok.mp hbuilt
    obtain ⟨client, hclient, hbuilt⟩ := Except.bind_eq_ok.mp hbuilt
    obtain rfl := Except.ok.inj hbuilt
    exact clientOf_destinationClient hclient

/-- What the reconciliation at startup comes to. -/
structure Reconciles (port : PreparedPort R C G) (registry : G) (s : ProcessState C G)
    (m : AssemblyModule ε C G) (opened : List (ProductPortDescriptorSnapshot C))
    (r : Except (StartRaised ε) Unit) (s' : ProcessState C G) : Prop where
  once : opened.length ≤ 1
  declared : ∀ d ∈ opened, d = port.ref.object.descriptor ∧
    m.get registry d.capabilityId = .ok d.capabilityContract
  raised : r.isOk = false → s' = s
  returned : r.isOk = true → port.ref.object.descriptor ∈ opened ∧ ∃ client,
    ClientOf port.reader port.ref.object.descriptor client ∧
    s' = { s with port := ⟨some client, some registry⟩ }

theorem ends_reconcilingPort [DecidableEq C] {port : PreparedPort R C G} {registry : G}
    (hregistry : s.capabilityRegistry = some registry) :
    (reconcilingPort R U rt readAnswer m env port registry).Ends s fun seen r s' =>
      ∃ opened : List (ProductPortDescriptorSnapshot C), seen = opened.map .opened ∧
        Reconciles port registry s m opened r s' := by
  unfold reconcilingPort
  apply ends_bind_peek
  rcases @reconcile_some_cases ε C G R U rt readAnswer m _ port.reader port.state port.ref
      (some registry) (readerSurroundings m env s) with
    ⟨state, raised, hmade⟩ | ⟨state, installed, result, hmade, hinstalled, hcontract, hclient⟩
  · rw [hmade]
    exact ⟨[], rfl, by simp, List.forall_mem_nil _, fun _ => rfl, by rintro ⟨⟩⟩
  · rw [hmade]
    obtain rfl : registry = installed := by
      simp only [readerSurroundings, hregistry] at hinstalled
      exact Except.ok.inj hinstalled
    apply ends_bind_emit
    apply ends_bind_ofExcept
    · intro built hbuilt
      have hclient := hclient built (Except.mapError_eq_ok.mp hbuilt)
      exact ⟨[_], rfl, le_rfl, List.forall_mem_singleton.mpr ⟨rfl, hcontract⟩, by rintro ⟨⟩,
        fun _ => ⟨List.mem_singleton_self _, built.1, hclient, rfl⟩⟩
    · intro e _
      exact ⟨[_], rfl, le_rfl, List.forall_mem_singleton.mpr ⟨rfl, hcontract⟩, fun _ => rfl,
        by rintro ⟨⟩⟩

/-- What installing what was declared comes to. -/
structure Installs (settings : Settings) (port : Option (PreparedPort R C G))
    (s : ProcessState C G) (m : AssemblyModule ε C G)
    (opened : List (ProductPortDescriptorSnapshot C)) (r : Except (StartRaised ε) Unit)
    (s' : ProcessState C G) : Prop where
  once : opened.length ≤ 1
  declared : ∀ d ∈ opened, settings.productPortEnabled = true ∧
    (∃ p, port = some p ∧ d = p.ref.object.descriptor) ∧
    ∃ registry, s'.capabilityRegistry = some registry ∧
      m.get registry d.capabilityId = .ok d.capabilityContract
  secrets : s'.secrets = s.secrets
  worker : s'.worker = s.worker
  unported : r.isOk = false ∨ settings.productPortEnabled = false → s'.port = s.port
  returned : r.isOk = true → settings.productPortEnabled = true → ∃ p client registry,
    port = some p ∧ ClientOf p.reader p.ref.object.descriptor client ∧
    s'.port = ⟨some client, some registry⟩ ∧ s'.capabilityRegistry = some registry ∧
    m.get registry p.ref.object.descriptor.capabilityId =
      .ok p.ref.object.descriptor.capabilityContract

theorem ends_installingRegistries [DecidableEq C] {port : Option (PreparedPort R C G)}
    {registries : List G} :
    (installingRegistries R U rt readAnswer m settings env port registries).Ends s
      fun seen r s' => ∃ opened : List (ProductPortDescriptorSnapshot C),
        seen = opened.map .opened ∧ Installs settings port s m opened r s' := by
  -- What raises before the destination is reached leaves the client as it was.
  have hraised : ∀ (e : StartRaised ε) (s' : ProcessState C G), s'.secrets = s.secrets →
      s'.worker = s.worker → s'.port = s.port →
      Installs settings port s m [] (.error e) s' := fun e s' hsecrets hworker hport =>
    ⟨by simp, List.forall_mem_nil _, hsecrets, hworker, fun _ => hport, by rintro ⟨⟩⟩
  unfold installingRegistries
  apply ends_bind_ofExcept
  · intro registry _
    apply ends_bind_peek
    split
    · exact ends_raise ⟨[], rfl, hraised _ _ rfl rfl rfl⟩
    · apply ends_bind_put
      split_ifs with henabled
      · cases port with
        | none => exact ends_raise ⟨[], rfl, hraised _ _ rfl rfl rfl⟩
        | some p =>
          refine (ends_reconcilingPort rfl).mono ?_
          rintro _ r s' ⟨opened, rfl, hmade⟩
          cases hok : r.isOk with
          | false =>
            -- A session may have been opened, but no client has been installed.
            obtain rfl := hmade.raised hok
            refine ⟨opened, rfl, hmade.once, ?_, rfl, rfl, fun _ => rfl, fun h => ?_⟩
            · intro d hd
              obtain ⟨hsame, hcontract⟩ := hmade.declared d hd
              exact ⟨henabled, ⟨p, rfl, hsame⟩, registry, rfl, hcontract⟩
            · rw [hok] at h
              cases h
          | true =>
            obtain ⟨hopened, client, hclient, rfl⟩ := hmade.returned hok
            refine ⟨opened, rfl, hmade.once, ?_, rfl, rfl, ?_, fun _ _ => ?_⟩
            · intro d hd
              obtain ⟨hsame, hcontract⟩ := hmade.declared d hd
              exact ⟨henabled, ⟨p, rfl, hsame⟩, registry, rfl, hcontract⟩
            · rintro (h | h)
              · rw [hok] at h
                cases h
              · rw [henabled] at h
                cases h
            · exact ⟨p, client, registry, rfl, hclient, rfl, rfl,
                (hmade.declared _ hopened).2⟩
      · refine ends_pure ⟨[], rfl, by simp, List.forall_mem_nil _, rfl, rfl, fun _ => rfl, ?_⟩
        exact fun _ h => absurd h henabled
  · exact fun e _ => ⟨[], rfl, hraised _ _ rfl rfl rfl⟩

/-- Where nothing was declared nothing is installed, and the destination is not enabled. -/
theorem ends_installingDeclared [DecidableEq C] {report : SecretLoadReport}
    {requests : List HttpGet} {read : Option (PreparedPort R C G) × Option G}
    (hread : ReadDeclarations R U rt readAnswer m settings env report requests read) :
    (installingDeclared R U rt readAnswer m settings env read.1 read.2).Ends s fun seen r s' =>
      ∃ opened : List (ProductPortDescriptorSnapshot C),
        seen = opened.map .opened ∧ Installs settings read.1 s m opened r s' := by
  unfold installingDeclared
  simp only
  split_ifs with hnothing
  · have hnone : read.1 = none := by
      cases hfound : read.1 with
      | none => rfl
      | some p => simp [hfound] at hnothing
    have hisPort := hread.isPort
    rw [hnone, Option.isSome_none, eq_comm, Bool.or_eq_false_iff] at hisPort
    refine ends_pure ⟨[], rfl, by simp, List.forall_mem_nil _, rfl, rfl, fun _ => rfl, ?_⟩
    intro _ henabled
    rw [hisPort.1] at henabled
    cases henabled
  · exact ends_installingRegistries

/-! ### The start -/

/-- A start that raises before it opened a session. -/
theorem orderly_of_raised {requests : List HttpGet} {e : StartRaised ε}
    (hpresents : ∀ request ∈ requests, PresentsConfigured settings s.secrets.held request)
    (hport : s.port = .empty _ _) (hworker : s.worker = none) :
    Orderly R U rt readAnswer m settings env (requests.map .presented) (.error e) s where
  seen := ⟨requests, [], by simp [Except.isOk, Except.toBool], hpresents, by simp,
    List.forall_mem_nil _⟩
  raised _ := ⟨hport, hworker⟩

/-- A start that opened a session, if it did, behind everything it read. -/
theorem orderly_of_installs {report : SecretLoadReport} {requests : List HttpGet}
    {read : Option (PreparedPort R C G) × Option G}
    {opened : List (ProductPortDescriptorSnapshot C)} {r : Except (StartRaised ε) Unit}
    {s' u : ProcessState C G}
    (hread : ReadDeclarations R U rt readAnswer m settings env report requests read)
    (hpresents : ∀ request ∈ requests, PresentsConfigured settings s.secrets.held request)
    (hinstalls : Installs settings read.1 s m opened r s') (hsecrets : u.secrets = s'.secrets)
    (hregistry : u.capabilityRegistry = s'.capabilityRegistry)
    (hraised : r.isOk = false → u.port = .empty _ _ ∧ u.worker = none) :
    Orderly R U rt readAnswer m settings env
      (requests.map .presented ++ (opened.map .opened ++ if r.isOk then [.started] else []))
      r u where
  seen := by
    refine ⟨requests, opened, (List.append_assoc ..).symm, ?_, hinstalls.once, ?_⟩
    · rw [hsecrets, hinstalls.secrets]
      exact hpresents
    · intro d hd
      obtain ⟨henabled, ⟨p, hp, rfl⟩, hcontract⟩ := hinstalls.declared d hd
      refine ⟨henabled, (hread.port p hp).2, fun hconfigured => ?_, hregistry ▸ hcontract⟩
      -- The contract registry is configured, and has been read.
      have hsome := hread.isContracts.trans hconfigured
      obtain ⟨registry, hregistry⟩ := Option.isSome_iff_exists.mp hsome
      exact ⟨registry, hread.contracts registry hregistry⟩
  raised := hraised

/-- What was installed serves once the worker is started. -/
theorem serving_of_installs {report : SecretLoadReport} {requests : List HttpGet}
    {read : Option (PreparedPort R C G) × Option G}
    {opened : List (ProductPortDescriptorSnapshot C)} {r : Except (StartRaised ε) Unit}
    {s' : ProcessState C G}
    (hread : ReadDeclarations R U rt readAnswer m settings env report requests read)
    (htold : s.secrets.Told) (hlast : s.secrets.lastReport = report)
    (hsource : s.secrets.installed = some settings) (hport : s.port = .empty _ _)
    (hinstalls : Installs settings read.1 s m opened r s') (hok : r.isOk = true) :
    Serving R U rt readAnswer m settings env
      { s' with worker := some (started settings.workerEnabled (productPort s'.port).isSome) } := by
  have hsecrets := hinstalls.secrets
  cases henabled : settings.productPortEnabled with
  | false =>
    -- The destination is not enabled: there is no client, and the worker does not deliver.
    have hempty : s'.port = .empty _ _ := (hinstalls.unported (.inr henabled)).trans hport
    refine ⟨hsecrets ▸ htold, hsecrets ▸ hsource, ?_, fun _ => hempty, ?_⟩
    · simp [hempty, Installation.empty, productPort, henabled]
    · rw [henabled]
      rintro ⟨⟩
  | true =>
    obtain ⟨p, client, registry, hp, hclient, hinstalled, hregistry, hcontract⟩ :=
      hinstalls.returned hok henabled
    refine ⟨hsecrets ▸ htold, hsecrets ▸ hsource, ?_, ?_, fun _ => ?_⟩
    · simp [hinstalled, productPort, henabled]
    · rw [henabled]
      rintro ⟨⟩
    -- The client has what its reader was constructed with, and what the owner declared.
    · obtain ⟨hreader, hdeclared⟩ := hread.port p hp
      obtain ⟨-, hmode, hheld⟩ := reconcilerFromSettings_pins hreader
      have hreference := (reconcilerFromSettings_eq_ok hreader).2
      refine ⟨client, registry, _, requests, hinstalled, hregistry, hclient.mode ▸ hmode,
        hclient.apiKeyRef.trans hreference, ?_, hdeclared, hclient.application, hcontract⟩
      rw [hclient.apiKeyRef, hreference, hsecrets, ← htold.held, hlast]
      exact hheld

theorem ends_lifespanStart [DecidableEq C] (hport : s.port = .empty _ _)
    (hworker : s.worker = none) :
    (lifespanStart R U rt kernel recognised readAnswer m settings env).Ends s fun seen r s' =>
      Orderly R U rt readAnswer m settings env seen r s' ∧
        (r.isOk = true → Serving R U rt readAnswer m settings env s') := by
  unfold lifespanStart
  apply Ends.bind
  refine ends_installingSecrets.mono ?_
  rintro _ r _ ⟨rfl, secrets, rfl, hloaded⟩
  constructor
  · intro report hreport
    obtain ⟨htold, hlast, hsource⟩ := hloaded report hreport
    apply Ends.bind
    refine (reads_readingDeclarations report).mono ?_
    rintro _ r _ ⟨rfl, requests, rfl, hpresents, hread⟩
    constructor
    · intro read hr
      have hread := hread read hr
      apply Ends.bind
      refine (ends_installingDeclared hread).mono ?_
      rintro _ r s' ⟨opened, rfl, hinstalls⟩
      constructor
      · rintro ⟨⟩ rfl
        exact ⟨orderly_of_installs hread hpresents hinstalls rfl rfl (by rintro ⟨⟩),
          fun _ => serving_of_installs (s := { s with secrets := secrets }) hread htold hlast
            hsource hport hinstalls rfl⟩
      · rintro e rfl
        -- Raised while installing: a session at most, but no client and no worker.
        have hseen := orderly_of_installs hread hpresents hinstalls rfl rfl fun _ =>
          ⟨(hinstalls.unported (.inl rfl)).trans hport, hinstalls.worker.trans hworker⟩
        simp only [Except.isOk, Except.toBool, Bool.false_eq_true, if_false,
          List.append_nil] at hseen
        exact ⟨hseen, by rintro ⟨⟩⟩
    · intro e _
      -- Raised while reading: credentials were presented, and nothing else was seen.
      exact ⟨orderly_of_raised hpresents hport hworker, by rintro ⟨⟩⟩
  · intro e _
    -- Raised while secrets were loaded: nothing was seen.
    exact ⟨orderly_of_raised (List.forall_mem_nil _) hport hworker, by rintro ⟨⟩⟩

variable {configured : AppSettings} {injected : Bool} {found : Composition ε}

/-- What `create_app` returns on: accepted settings, and a surface that is served. -/
theorem createApp_eq_ok {routes : List Route}
    (h : createApp R rt upper lower configured injected found = .ok routes) :
    validateSettings R rt.printable configured.toSettings = [] ∧
      requireACorrectSurface rt.printable upper lower (some configured.metricsPath)
        (mountedRoutes configured) = .ok () := by
  unfold createApp at h
  simp only at h
  split_ifs at h with hproblems
  obtain ⟨_, -, h⟩ := Except.bind_eq_ok.mp h
  obtain ⟨_, -, h⟩ := Except.bind_eq_ok.mp h
  obtain ⟨_, -, h⟩ := Except.bind_eq_ok.mp h
  obtain ⟨_, -, h⟩ := Except.bind_eq_ok.mp h
  obtain ⟨_, -, h⟩ := Except.bind_eq_ok.mp h
  obtain ⟨_, -, h⟩ := Except.bind_eq_ok.mp h
  obtain ⟨_, hsurface, -⟩ := Except.bind_eq_ok.mp h
  exact ⟨not_not.mp hproblems, Except.mapError_eq_ok.mp hsurface⟩

/-- What a start comes to, part by part. -/
theorem ends_boot [DecidableEq C] :
    (boot R U rt upper lower kernel recognised readAnswer m env configured injected found).Ends
      (.fresh C G) fun seen r s' =>
        Orderly R U rt readAnswer m configured.toSettings env seen r s' ∧
        (r.isOk = true → validateSettings R rt.printable configured.toSettings = [] ∧
          requireACorrectSurface rt.printable upper lower (some configured.metricsPath)
            (mountedRoutes configured) = .ok () ∧
          Serving R U rt readAnswer m configured.toSettings env s') := by
  unfold boot
  apply ends_bind_ofExcept
  · intro routes hroutes
    obtain ⟨hvalid, hsurface⟩ := createApp_eq_ok hroutes
    exact (ends_lifespanStart rfl rfl).mono fun seen r s' h => ⟨h.1, fun hok =>
      ⟨hvalid, hsurface, h.2 hok⟩⟩
  · intro e _
    exact ⟨orderly_of_raised (List.forall_mem_nil _) rfl rfl, by rintro ⟨⟩⟩

/-- **Every start is orderly**, whatever the settings are, whatever is found and whatever the start
comes to. -/
theorem boot_orderly [DecidableEq C] (R : HostRules) (U : UnicodeDigits) (rt : Runtime)
    (upper lower : String → String) (kernel : SourceKernel) (recognised : List String)
    (readAnswer : ByteArray → Except Json.LoadsError Json) (m : AssemblyModule ε C G)
    (env : StartSurroundings ε)
    (configured : AppSettings) (injected : Bool) (found : Composition ε) :
    let run := (boot R U rt upper lower kernel recognised readAnswer m env configured injected
      found).exec (.fresh C G)
    Orderly R U rt readAnswer m configured.toSettings env run.seen run.answer run.left :=
  ends_boot.1

end DotmacIntegrator.Assembly
