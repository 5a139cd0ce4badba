import DotmacIntegrator.Assembly.Boot
import DotmacIntegrator.Secrets.Isolation

/-!
# A process that serves

The direction of a deployment's deliveries is decided once, by its settings: what a start leaves
behind is what the delivery loop works with from then on, since nothing installs a client once the
process serves.

## Main definitions

* `deliveryRuns`: the passes of the delivery loop of a process

## Main results

* `pass_as_declared`: what a pass does is decided by the direction of the client it finds
* `serves_as_configured`: what a process is that serves, and what its delivery loop does
-/

namespace DotmacIntegrator.Assembly

open DotmacIntegrator.Configuration DotmacIntegrator.Delivery DotmacIntegrator.ProductPort
  DotmacIntegrator.Surface Url

open Secrets (SourceKernel)

variable {ε ε' C G ι : Type} {R : HostRules} {U : UnicodeDigits} {rt : Runtime}
  {upper lower : String → String} {kernel : SourceKernel} {recognised : List String}
  {readAnswer : ByteArray → Except Json.LoadsError Json} {m : AssemblyModule ε C G}
  {env : StartSurroundings ε} {configured : AppSettings} {injected : Bool} {found : Composition ε}
  {verdicts : ShadowVerdicts} {settings : Settings}

/-- Nothing is installed while the pass runs. -/
structure Undisturbed (pass : DeliveryPass ObservationPortClient G ι ε') : Prop where
  port : pass.beforePort = []
  guard : pass.beforeGuard = []

/-- The process has a delivery loop. -/
def DeliversReceipts (s : ProcessState C G) : Prop :=
  ∃ w, s.worker = some w ∧ w.task .delivery ≠ .absent

/-- The passes of the delivery loop, if the process has one. -/
def deliveryRuns (verdicts : ShadowVerdicts) (s : ProcessState C G) :
    StepSystem (PortRun ObservationPortClient G ι)
      (DeliveryPass ObservationPortClient G ι ε') where
  init run := run = ⟨s.port, []⟩
  step run pass run' := DeliversReceipts s ∧ Undisturbed pass ∧
    run' = run.step observationShape (fun _ => (none : Option ε')) verdicts (.pass pass)

/-- What a pass does: it hands receipts to the module, or it compares them. -/
inductive AsDeclared (mode : ProductPortMode) (effects : List (PassEffect ι)) : Prop
  | write (h : mode = .write) (heffects : ∀ effect ∈ effects, ∃ id, effect = .deliverReceipt id)
  | mirror (h : mode = .mirror)
    (heffects : ∀ effect ∈ effects, ∃ id verdict, effect = .recordShadow id verdict)

/-- **What a pass does is decided by the direction of the client it finds**, and it leaves it. -/
theorem pass_as_declared {client : ObservationPortClient} {registry : G}
    {pass : DeliveryPass ObservationPortClient G ι ε'} (h : Undisturbed pass) :
    let made := deliverOnce observationShape (fun _ => (none : Option ε')) verdicts
      ⟨some client, some registry⟩ pass
    made.1 = ⟨some client, some registry⟩ ∧ AsDeclared client.mode made.2.1 := by
  intro made
  have hmade : made = deliverOnce observationShape (fun _ => (none : Option ε')) verdicts
    ⟨some client, some registry⟩ pass := rfl
  unfold deliverOnce at hmade
  simp only [h.port, h.guard, installAll, List.foldl_nil, productPort] at hmade
  cases hmode : client.mode with
  | mirror =>
    have hwrites : productPortWrites observationShape
        (⟨some client, some registry⟩ : Installation ObservationPortClient G) = false := by
      simp [productPortWrites, observationShape, ObservationPortClient.writes,
        WritesAttribute.truthy, hmode]
    rw [if_pos hwrites] at hmade
    rw [hmade]
    refine ⟨rfl, .mirror rfl fun effect heffect => ?_⟩
    obtain ⟨record, -, rfl⟩ := List.mem_map.mp heffect
    exact ⟨_, _, rfl⟩
  | write =>
    have hwrites : productPortWrites observationShape
        (⟨some client, some registry⟩ : Installation ObservationPortClient G) = true := by
      simp [productPortWrites, observationShape, ObservationPortClient.writes,
        WritesAttribute.truthy, hmode]
    rw [if_neg (by rw [hwrites]; simp)] at hmade
    rw [hmade]
    refine ⟨rfl, .write rfl fun effect heffect => ?_⟩
    obtain ⟨id, -, rfl⟩ := List.mem_map.mp heffect
    exact ⟨id, rfl⟩

/-- A destination that is enabled is not prepared only. -/
theorem not_prepareOnly (hvalid : validateSettings R rt.printable settings = [])
    (henabled : settings.productPortEnabled = true) : settings.productPortPrepareOnly = false := by
  have hport := (validateSettings_eq_nil_iff.mp hvalid).2.2.2.1
  unfold productPortProblems at hport
  split at hport
  · cases hport
  · rw [henabled] at hport
    simp only [Bool.true_or, Bool.not_true, Bool.false_eq_true, if_false, List.append_eq_nil_iff,
      problemIf_eq_nil_iff, Bool.true_and] at hport
    exact hport.1.1.1.1.1.1.1.1

/-- The mode of an enabled destination is the one that is named. -/
theorem portMode_named {mode : ProductPortMode} (h : portMode settings = .ok mode)
    (hprepare : settings.productPortPrepareOnly = false) :
    (mode = .write → settings.productPortMode = "write") ∧
      (mode = .mirror → settings.productPortMode = "mirror") := by
  unfold portMode at h
  rw [if_neg (by simp [hprepare])] at h
  split_ifs at h with hmirror hwrite
  · obtain rfl := Except.ok.inj h
    exact ⟨nofun, fun _ => hmirror⟩
  · obtain rfl := Except.ok.inj h
    exact ⟨fun _ => hwrite, nofun⟩

/-- What a pass of a process is, in accordance with its settings. -/
structure PassConfigured (settings : Settings) (s : ProcessState C G)
    (pass : Option ObservationPortClient × List (PassEffect ι)) : Prop where
  worker : settings.workerEnabled = true
  port : settings.productPortEnabled = true
  client : pass.1 = s.port.port
  effects : ∃ mode, AsDeclared mode pass.2 ∧ (mode = .write → settings.productPortMode = "write") ∧
    (mode = .mirror → settings.productPortMode = "mirror")

/-- The delivery loop is there only where the worker and the destination are enabled. -/
theorem enabled_of_delivers {s : ProcessState C G}
    (hs : Serving R U rt readAnswer m settings env s) (h : DeliversReceipts s) :
    settings.workerEnabled = true ∧ settings.productPortEnabled = true := by
  obtain ⟨w, hw, htask⟩ := h
  obtain rfl := Option.some.inj (hs.worker.symm.trans hw)
  simpa [Worker.started] using htask

/-- Every pass of a process that serves accords with its settings, and leaves what is held. -/
theorem passes_configured {s : ProcessState C G}
    (hvalid : validateSettings R rt.printable settings = [])
    (hs : Serving R U rt readAnswer m settings env s) :
    (@deliveryRuns ε' C G ι verdicts s).IsInductive fun run =>
      run.held = s.port ∧ ∀ p ∈ run.passes, PassConfigured settings s p where
  init := by
    rintro _ rfl
    exact ⟨rfl, List.forall_mem_nil _⟩
  step := by
    rintro run pass _ ⟨hheld, hpasses⟩ ⟨hdelivers, hpass, rfl⟩
    obtain ⟨hworker, henabled⟩ := enabled_of_delivers hs hdelivers
    obtain ⟨client, registry, -, -, hport, -, hmode, -⟩ := hs.port henabled
    have hnamed := portMode_named hmode (not_prepareOnly hvalid henabled)
    have hmade := @pass_as_declared ε' G ι verdicts client registry pass hpass
    rw [← hport, ← hheld] at hmade
    refine ⟨hmade.1.trans hheld, fun p hp => ?_⟩
    -- The passes before, and the one that was run.
    rcases List.mem_append.mp hp with hp | hp
    · exact hpasses p hp
    · obtain rfl := List.mem_singleton.mp hp
      exact ⟨hworker, henabled, congrArg Installation.port hheld, client.mode, hmade.2, hnamed⟩

/-- **A process serves as it is configured.** Where a start returns, its settings were accepted and
its surface is correct; what it is told is held is held; its client, if any, has the credential, the
mode and the pinned declaration of the settings. In every run of its delivery loop from there on
each pass is one of the enabled destination: it hands receipts to the module in the write mode
alone, and does nothing but compare them in the mirror mode. -/
theorem serves_as_configured [DecidableEq C] (ι ε' : Type) (verdicts : ShadowVerdicts)
    {s : ProcessState C G} {seen : List (StartEvent C)}
    (h : (boot R U rt upper lower kernel recognised readAnswer m env configured injected found).exec
      (.fresh C G) = ⟨seen, .ok (), s⟩) :
    validateSettings R rt.printable configured.toSettings = [] ∧
      requireACorrectSurface rt.printable upper lower (some configured.metricsPath)
        (mountedRoutes configured) = .ok () ∧
      Serving R U rt readAnswer m configured.toSettings env s ∧
      ∀ run, (@deliveryRuns ε' C G ι verdicts s).Reachable run →
        ∀ p ∈ run.passes, PassConfigured configured.toSettings s p := by
  have hboot := @ends_boot ε C G R U rt upper lower kernel recognised readAnswer m env configured
    injected found _
  rw [Observed.Ends, h] at hboot
  obtain ⟨hvalid, hsurface, hs⟩ := hboot.2 rfl
  exact ⟨hvalid, hsurface, hs, fun run hrun => ((passes_configured hvalid hs).reachable hrun).2⟩

/-! ### A deployment that writes -/

/-- A deployment whose destination is enabled, for the write port. -/
def writingSettings : AppSettings where
  productPortEnabled := true
  productPortMode := "write"
  productPortDescriptorUrl := "https://sub.example/internal/descriptor"
  productPortDescriptorExpectedDigest := declaredDigest
  productPortApiKeyRef := "env://INTEGRATOR_SECRET_ERP"

/-- A module whose contracts are their ids, and whose registries are lists of them. -/
def idModule : AssemblyModule Unit String (List String) where
  capabilityContractFromDocument _ capabilityId _ _ _ := .ok capabilityId
  fromDeclarations := .ok
  localScope _ _ := .ok ()
  snapshot _ := .ok ()
  productPortDescriptorDigest _ := .ok declaredDigest
  get registry capabilityId := .ok (registry.find? (· = capabilityId))
  truthy registry := !registry.isEmpty
  contracts registry := registry
  installCapabilityRegistry _ _ := none
  capabilityRegistryNotInstalled := ()

/-- Everything that is composed is there. -/
def composed : Composition Unit := ⟨.ok (), .ok (), .ok (), .ok (), .ok (), .ok ()⟩

/-- The owner of the destination answers with its declaration. -/
def answeringSurroundings : StartSurroundings Unit where
  secrets := ⟨.ok (some []), Secrets.mountedHost "".toUTF8⟩
  get _ := .ok ⟨200, "".toUTF8, none⟩
  reconciled := .ok ()
  committed := .ok ()

/-- The start of the deployment; its methods are in upper case, and its paths in lower case. -/
def writingStart : Observed.Run (StartEvent String) (ProcessState String (List String))
    (Except (StartRaised Unit) Unit) :=
  (boot asciiHosts .latin1 locatedRuntime id id ⟨false, none⟩ ["env", "file"]
    (fun _ => .ok (.obj declaredMembers)) idModule answeringSurroundings writingSettings false
    composed).exec (.fresh _ _)

/-- The deployment is accepted, and its surface is correct. -/
theorem createApp_writing :
    createApp asciiHosts locatedRuntime id id writingSettings false composed =
      .ok (mountedRoutes writingSettings) := by
  have hvalid : validateSettings asciiHosts locatedRuntime.printable writingSettings.toSettings =
      [] := by decide +kernel
  have hfits : MetricsPathFits writingSettings id :=
    ⟨by decide +kernel, fun _ => by decide +kernel, fun _ => by decide +kernel⟩
  have hserved : requireACorrectSurface locatedRuntime.printable id id
      (some writingSettings.metricsPath) (mountedRoutes writingSettings) = .ok () :=
    surface_served_of_fits _ ⟨fun _ _ => rfl, fun _ _ => rfl⟩ hfits
  rw [createApp, hvalid, hserved]
  rfl

/-- What is left of its start. -/
theorem writingStart_eq : writingStart = (lifespanStart asciiHosts .latin1 locatedRuntime
    ⟨false, none⟩ ["env", "file"] (fun _ => .ok (.obj declaredMembers)) idModule
    writingSettings.toSettings answeringSurroundings).exec (.fresh _ _) := by
  unfold writingStart boot
  rw [createApp_writing]
  exact (Observed.quiet_ofExcept _).exec_bind

theorem serves_as_configured_writing :
    writingStart.left.port.port.map ObservationPortClient.mode = some .write ∧
      Serving asciiHosts .latin1 locatedRuntime (fun _ => .ok (.obj declaredMembers)) idModule
        writingSettings.toSettings answeringSurroundings writingStart.left := by
  have hrun : writingStart.answer.isOk = true ∧
      writingStart.left.port.port.map ObservationPortClient.mode = some .write := by
    rw [writingStart_eq]
    decide +kernel
  obtain ⟨_, hanswer⟩ := Except.isOk_iff.mp hrun.1
  exact ⟨hrun.2, (serves_as_configured ℕ Unit sampleVerdicts
    (Observed.Run.eq_mk_of_answer hanswer)).2.2.1⟩

end DotmacIntegrator.Assembly
