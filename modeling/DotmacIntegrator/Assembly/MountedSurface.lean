import DotmacIntegrator.Configuration.Settings
import DotmacIntegrator.Surface.Audit

/-!
# The surface of the application

The routes that `create_app` mounts, as they are declared, and the refusal it ends with. Which of
the optional routes are there is configured, and so is the path of the scrape endpoint: wherever
that path is mounted, or would be, the rules of its class apply.

## Main definitions

* `AppSettings`: the settings, with those the surface depends on alone
* `mountedRoutes`: the routes of a configuration
* `Settled`: a route that passes wherever the scrape endpoint is mounted beside it
* `MetricsPathFits`: the paths of a scrape endpoint that are served

## Main results

* `settled_fixedRoutes`: every route but the scrape endpoint's is settled
* `surface_served_iff`: a configuration is served iff the path of its scrape endpoint fits, and
  every other route passes wherever else it is
-/

namespace DotmacIntegrator.Assembly

open DotmacIntegrator.Configuration DotmacIntegrator.Surface

/-! ### The routes -/

/-- The settings, with those the surface depends on alone. -/
structure AppSettings extends Settings where
  ingressEnabled : Bool := true
  metricsPath : String := "/metrics"

/-- A class that has nothing to do with reasons. -/
def plainClass (name : String) : Except HintFailure Hint :=
  .ok (.ofClass (.node (.other name) []))

/-- A generic type, such as `dict[str, Any]`. -/
def generic : Except HintFailure Hint := .ok .form

/-- `OperationReason`. -/
def operationReason : PyClass := .node .operationReason [.node (.other "BaseModel") []]

/-- A document that has more than its reason. -/
def reasonSubclass (name : String) : PyClass := .node (.other name) [operationReason]

/-- A dependency that has none itself. -/
def dependsOn (call : DependencyCall) : Dependant := .node (some call) []

/-- A route: the guard it depends on, if any, and the hints of its handler. -/
def mount (path method : String) (guard : Option DependencyCall)
    (parameters : List (String × Except HintFailure Hint))
    (returns : Except HintFailure Hint) : Route where
  path := path
  methods := [method]
  dependant := .node none (guard.toList.map dependsOn)
  endpoint := { parameters := parameters, returns := some returns }

/-- What identifies the operator. -/
def actor (name : String) : String × Except HintFailure Hint :=
  (name, plainClass "OperatorIdentity")

/-- A read of the operator surface. -/
def operatorRead (path : String) : Route :=
  mount path "GET" (some .requireOperator) [actor "_actor"] generic

/-- An act of an operator: the identifiers in its path, and its document. -/
def operatorAct (path : String) (identifiers : List String) (document : PyClass) : Route :=
  mount path "POST" (some .requireOperator)
    (identifiers.map (fun name => (name, plainClass "str")) ++
      [("body", .ok (.ofClass document)), actor "actor"]) generic

/-- A route of the product surface. -/
def productRoute (path method : String) (guard : DependencyCall) (identifiers : List String)
    (document : Option String) : Route :=
  mount path method (some guard)
    (identifiers.map (fun name => (name, plainClass "str")) ++
      document.toList.map (fun name => ("body", plainClass name)) ++
      [("principal", plainClass "ProductPrincipal")]) (plainClass "JSONResponse")

/-- A probe. -/
def probeRoute (path : String) (returns : Except HintFailure Hint) : Route :=
  mount path "GET" none [] returns

/-- A route of the public ingress. -/
def ingressRoute (method : String) : Route :=
  mount "/ingress/\x7bendpoint_key\x7d" method none
    [("endpoint_key", plainClass "str"), ("request", plainClass "Request")]
    (plainClass "Response")

/-- The route of queries. -/
def queryRoutes : List Route :=
  [productRoute "/product/v1/queries" "POST" .requireProductQuery [] (some "ProductQueryRequest")]

/-- The routes of provisions. -/
def provisionRoutes : List Route :=
  [productRoute "/product/v1/provisions" "POST" .requireProductProvision []
      (some "ProvisionSubmitRequest"),
    productRoute "/product/v1/provisions/\x7boperation_id\x7d/cancel" "POST"
      .requireProductProvision ["operation_id"] (some "ProvisionCancelRequest"),
    productRoute "/product/v1/provisions/\x7boperation_id\x7d" "GET" .requireProductProvision
      ["operation_id"] none]

/-- The probes. -/
def probeRoutes : List Route :=
  [probeRoute "/health/live" generic, probeRoute "/health/ready" (plainClass "JSONResponse"),
    probeRoute "/health/composition" generic]

/-- The scrape endpoint, at the path it is configured for. -/
def metricsRoute (metricsPath : String) : Route :=
  mount metricsPath "GET" (some .scrapeGuard) [] (plainClass "PlainTextResponse")

/-- The operator surface. -/
def operatorRoutes : List Route :=
  [operatorRead "/operations/connectors", operatorRead "/operations/runtime-policy",
    operatorRead "/operations/health-report", operatorRead "/operations/shadow-report",
    operatorRead "/operations/secrets",
    operatorAct "/operations/secrets/refresh" [] operationReason,
    operatorAct "/operations/installations" [] (reasonSubclass "DraftInstallationRequest"),
    operatorAct "/operations/installations/\x7binstallation_id\x7d/bindings" ["installation_id"]
      (reasonSubclass "BindingRequest"),
    operatorAct "/operations/installations/\x7binstallation_id\x7d/config-revisions"
      ["installation_id"] (reasonSubclass "ConfigRevisionRequest"),
    operatorAct "/operations/bindings/\x7bbinding_id\x7d/ingress-endpoint/mint" ["binding_id"]
      operationReason,
    operatorAct "/operations/bindings/\x7bbinding_id\x7d/enable" ["binding_id"] operationReason,
    operatorAct "/operations/installations/\x7binstallation_id\x7d/enable" ["installation_id"]
      operationReason,
    operatorAct "/operations/leases/release-expired" [] operationReason,
    operatorAct "/operations/deliveries/\x7bdelivery_id\x7d/replay" ["delivery_id"]
      operationReason,
    operatorAct "/operations/receipts/\x7breceipt_id\x7d/replay" ["receipt_id"] operationReason]

/-- The public ingress. -/
def ingressRoutes : List Route := [ingressRoute "GET", ingressRoute "POST"]

variable (settings : AppSettings)

/-- Some routes, where they are configured. -/
def mountedIf (enabled : Bool) (routes : List Route) : List Route := if enabled then routes else []

/-- The routes before the scrape endpoint. -/
def routesBefore : List Route :=
  mountedIf settings.productQueryEnabled queryRoutes ++
    mountedIf settings.productProvisionEnabled provisionRoutes ++ probeRoutes

/-- The routes behind it. -/
def routesBehind : List Route :=
  operatorRoutes ++ mountedIf settings.ingressEnabled ingressRoutes

/-- The routes that are mounted whatever the path of the scrape endpoint is. -/
def fixedRoutes : List Route := routesBefore settings ++ routesBehind settings

/-- The routes of `create_app`, as they are mounted. -/
def mountedRoutes : List Route :=
  routesBefore settings ++ mountedIf settings.metricsEnabled [metricsRoute settings.metricsPath] ++
    routesBehind settings

/-! ### Which paths fit -/

section Rules

variable (upper lower : String → String)

/-- A text of the letters A to Z. -/
def isCapital (s : String) : Bool := s.toList.all Char.isUpper

/-- A text of ASCII characters without these letters. -/
def isPlain (s : String) : Bool := s.toList.all fun c => c.toNat < 128 && !c.isUpper

/-- What is used of `str.upper` and `str.lower`: what leaves a text as it is. -/
structure AsciiCase : Prop where
  upper : ∀ s, isCapital s = true → upper s = s
  lower : ∀ s, isPlain s = true → lower s = s

/-- The path of the scrape endpoint is that of no other route; where it is mounted, it is not
empty and names no act on authentication material. -/
structure MetricsPathFits : Prop where
  own : settings.metricsPath ∉ (fixedRoutes settings).map Route.path
  named : settings.metricsEnabled = true → settings.metricsPath ≠ ""
  verbs : settings.metricsEnabled = true →
    ∀ verb ∈ CREDENTIAL_LIFECYCLE_VERBS, ¬ Text.Occurs verb (lower settings.metricsPath)

/-- The route passes wherever the scrape endpoint is mounted beside it. -/
structure Settled (route : Route) : Prop where
  kept : KeepsSharedRules upper lower none route
  hints : HintsKnown route.endpoint
  unscraped : ¬ Carries route .scrapeGuard

end Rules

variable {settings} {upper lower : String → String} {path method : String}

/-! ### What is mounted -/

theorem carries_mount_iff {guard : Option DependencyCall}
    {parameters : List (String × Except HintFailure Hint)} {returns : Except HintFailure Hint}
    {call : DependencyCall} :
    Carries (mount path method guard parameters returns) call ↔ guard = some call := by
  rw [← mem_dependencyCalls]
  cases guard with
  | none => simp [mount, dependencyCalls, RoseTree.descendants, RoseTree.children,
      RoseTree.forestLabels]
  | some found => simp [mount, dependencyCalls, RoseTree.descendants, RoseTree.children,
      RoseTree.forestLabels, RoseTree.labels, dependsOn, eq_comm]

theorem not_mutates_get (h : AsciiCase upper lower) {guard : Option DependencyCall}
    {parameters : List (String × Except HintFailure Hint)} {returns : Except HintFailure Hint} :
    ¬ Mutates upper (mount path "GET" guard parameters returns) := by
  rintro ⟨m, hm, hmutating⟩
  obtain rfl := List.mem_singleton.mp hm
  rw [h.upper "GET" (by decide)] at hmutating
  revert hmutating
  decide

/-- Hints that are given are known. -/
theorem hintsKnown_mount {guard : Option DependencyCall}
    {parameters : List (String × Except HintFailure Hint)} {returns : Hint}
    (h : ∀ p ∈ parameters, ∃ hint, p.2 = .ok hint) :
    HintsKnown (mount path method guard parameters (.ok returns)).endpoint := by
  refine ⟨rfl, h, ?_⟩
  rintro r hr
  obtain rfl := Option.some.inj hr
  exact ⟨returns, rfl⟩

/-- The class of a path that begins as one of a class, and what its lower case comes to. -/
structure Begins (lower : String → String) (path : String) (routeClass : RouteClass) : Prop where
  classify : classify path none = some routeClass
  verbs : ∀ verb ∈ CREDENTIAL_LIFECYCLE_VERBS, Text.Occurs verb (lower path) →
    routeClass = .operator

/-- The characters of a path begin as those of a class. -/
def BeginsAs (routeClass : RouteClass) (cs : List Char) : Prop :=
  (beginnings.find? fun b => b.1.toList <+: cs).map Prod.snd = some routeClass

instance (routeClass : RouteClass) (cs : List Char) : Decidable (BeginsAs routeClass cs) :=
  inferInstanceAs (Decidable (_ = _))

-- What is decided of a path is decided of its characters, since to take a long text apart is slow.
theorem classify_of_beginsAs {routeClass : RouteClass} {cs : List Char}
    (h : BeginsAs routeClass cs) : classify (String.ofList cs) none = some routeClass := by
  simpa [classify, BeginsAs] using h

/-- A path in lower case that names no act on authentication material. -/
theorem begins_of_plain (h : AsciiCase upper lower) {routeClass : RouteClass} {cs : List Char}
    (hpath : BeginsAs routeClass cs ∧ (cs.all fun c => c.toNat < 128 && !c.isUpper) = true ∧
      ∀ verb ∈ CREDENTIAL_LIFECYCLE_VERBS, ¬ verb.toList <:+: cs) :
    Begins lower (String.ofList cs) routeClass where
  classify := classify_of_beginsAs hpath.1
  verbs verb hverb hoccurs := by
    have hplain : isPlain (String.ofList cs) = true := by
      rw [isPlain, String.toList_ofList]
      exact hpath.2.1
    rw [h.lower _ hplain, Text.Occurs, String.toList_ofList] at hoccurs
    exact absurd hoccurs (hpath.2.2 verb hverb)

theorem settled_operatorRead (h : AsciiCase upper lower)
    (hpath : classify path none = some .operator) : Settled upper lower (operatorRead path) where
  kept := ⟨.operator, hpath, ⟨carries_mount_iff.mpr rfl, fun hm => absurd hm (not_mutates_get h)⟩,
    fun _ _ _ => rfl⟩
  hints := hintsKnown_mount (by simp [actor, plainClass])
  unscraped hcarries := by cases carries_mount_iff.mp hcarries

theorem settled_operatorAct {identifiers : List String} {document : PyClass}
    (hpath : classify path none = some .operator)
    (hdocument : RoseTree.Occurs .operationReason document) :
    Settled upper lower (operatorAct path identifiers document) where
  kept := by
    refine ⟨.operator, hpath, ⟨carries_mount_iff.mpr rfl, fun _ => .inl ?_⟩, fun _ _ _ => rfl⟩
    refine ⟨("body", .ok (.ofClass document)), ?_, _, rfl, document, rfl, hdocument⟩
    exact List.mem_append_right _ List.mem_cons_self
  hints := by
    apply hintsKnown_mount
    intro p hp
    rcases List.mem_append.mp hp with hp | hp
    · obtain ⟨name, -, rfl⟩ := List.mem_map.mp hp
      exact ⟨_, rfl⟩
    · rcases List.mem_pair.mp hp with rfl | rfl
      · exact ⟨_, rfl⟩
      · exact ⟨_, rfl⟩
  unscraped hcarries := by cases carries_mount_iff.mp hcarries

theorem settled_productRoute {guard : DependencyCall} {identifiers : List String}
    {document : Option String} (hpath : Begins lower path .product)
    (hguard : guard = .requireProductQuery ∨ guard = .requireProductProvision) :
    Settled upper lower (productRoute path method guard identifiers document) where
  kept := by
    refine ⟨.product, hpath.classify, ⟨?_, ?_⟩, hpath.verbs⟩
    · intro hcarries
      obtain rfl := Option.some.inj (carries_mount_iff.mp hcarries)
      rcases hguard with hguard | hguard
      · cases hguard
      · cases hguard
    · rcases hguard with rfl | rfl
      · exact .inl (carries_mount_iff.mpr rfl)
      · exact .inr (carries_mount_iff.mpr rfl)
  hints := by
    apply hintsKnown_mount
    intro p hp
    simp only [List.mem_append, List.mem_map, List.mem_singleton] at hp
    rcases hp with (⟨name, -, rfl⟩ | ⟨name, -, rfl⟩) | rfl
    · exact ⟨_, rfl⟩
    · exact ⟨_, rfl⟩
    · exact ⟨_, rfl⟩
  unscraped hcarries := by
    obtain rfl := Option.some.inj (carries_mount_iff.mp hcarries)
    rcases hguard with hguard | hguard
    · cases hguard
    · cases hguard

theorem settled_probeRoute (h : AsciiCase upper lower) {returns : Hint}
    (hpath : Begins lower path .probe) :
    Settled upper lower (probeRoute path (.ok returns)) where
  kept := by
    refine ⟨.probe, hpath.classify, ⟨not_mutates_get h, ?_⟩, hpath.verbs⟩
    intro hcarries
    cases carries_mount_iff.mp hcarries
  hints := hintsKnown_mount nofun
  unscraped hcarries := by cases carries_mount_iff.mp hcarries

theorem settled_ingressRoute (h : AsciiCase upper lower) :
    Settled upper lower (ingressRoute method) where
  kept := by
    have hpath : Begins lower "/ingress/\x7bendpoint_key\x7d" .ingress :=
      begins_of_plain h ⟨by simp [BeginsAs, beginnings], by decide, by decide⟩
    refine ⟨.ingress, hpath.classify, ?_, hpath.verbs⟩
    intro hcarries
    cases carries_mount_iff.mp hcarries
  hints := hintsKnown_mount (by simp [plainClass])
  unscraped hcarries := by cases carries_mount_iff.mp hcarries

theorem occurs_reasonSubclass (name : String) :
    RoseTree.Occurs .operationReason (reasonSubclass name) :=
  .child List.mem_cons_self .root

theorem forall_mountedIf {enabled : Bool} {routes : List Route} {P : Route → Prop}
    (h : ∀ route ∈ routes, P route) : ∀ route ∈ mountedIf enabled routes, P route := by
  cases enabled with
  | false => nofun
  | true => exact h

theorem settled_queryRoutes (h : AsciiCase upper lower) :
    ∀ route ∈ queryRoutes, Settled upper lower route := by
  simp only [queryRoutes, List.forall_mem_singleton]
  refine settled_productRoute ?_ (.inl rfl)
  exact begins_of_plain h ⟨by simp [BeginsAs, beginnings], by decide, by decide⟩

theorem settled_provisionRoutes (h : AsciiCase upper lower) :
    ∀ route ∈ provisionRoutes, Settled upper lower route := by
  simp only [provisionRoutes, List.forall_mem_cons, List.not_mem_nil, false_implies,
    implies_true, and_true]
  refine ⟨settled_productRoute ?_ (.inr rfl), settled_productRoute ?_ (.inr rfl),
    settled_productRoute ?_ (.inr rfl)⟩
  all_goals exact begins_of_plain h ⟨by simp [BeginsAs, beginnings], by decide, by decide⟩

theorem settled_probeRoutes (h : AsciiCase upper lower) :
    ∀ route ∈ probeRoutes, Settled upper lower route := by
  simp only [probeRoutes, List.forall_mem_cons, List.not_mem_nil, false_implies,
    implies_true, and_true]
  refine ⟨settled_probeRoute h ?_, settled_probeRoute h ?_, settled_probeRoute h ?_⟩
  all_goals exact begins_of_plain h ⟨by simp [BeginsAs, beginnings], by decide, by decide⟩

theorem settled_operatorRoutes (h : AsciiCase upper lower) :
    ∀ route ∈ operatorRoutes, Settled upper lower route := by
  have hread : ∀ path, classify path none = some .operator →
      Settled upper lower (operatorRead path) := fun path => settled_operatorRead h
  have hact : ∀ path identifiers, classify path none = some .operator →
      Settled upper lower (operatorAct path identifiers operationReason) :=
    fun path identifiers hpath => settled_operatorAct hpath .root
  have hauthor : ∀ path identifiers name, classify path none = some .operator →
      Settled upper lower (operatorAct path identifiers (reasonSubclass name)) :=
    fun path identifiers name hpath => settled_operatorAct hpath (occurs_reasonSubclass name)
  simp only [operatorRoutes, List.forall_mem_cons, List.not_mem_nil, false_implies,
    implies_true, and_true]
  refine ⟨hread _ ?_, hread _ ?_, hread _ ?_, hread _ ?_, hread _ ?_, hact _ _ ?_, hauthor _ _ _ ?_,
    hauthor _ _ _ ?_, hauthor _ _ _ ?_, hact _ _ ?_, hact _ _ ?_, hact _ _ ?_, hact _ _ ?_,
    hact _ _ ?_, hact _ _ ?_⟩
  all_goals
    apply classify_of_beginsAs
    simp [BeginsAs, beginnings]

theorem settled_ingressRoutes (h : AsciiCase upper lower) :
    ∀ route ∈ ingressRoutes, Settled upper lower route := by
  simp only [ingressRoutes, List.forall_mem_cons, List.not_mem_nil, false_implies,
    implies_true, and_true]
  exact ⟨settled_ingressRoute h, settled_ingressRoute h⟩

/-- **Every route but the scrape endpoint's is settled**, in every configuration. -/
theorem settled_fixedRoutes (h : AsciiCase upper lower) (settings : AppSettings) :
    ∀ route ∈ fixedRoutes settings, Settled upper lower route := by
  simp only [fixedRoutes, routesBefore, routesBehind, List.forall_mem_append]
  exact ⟨⟨⟨forall_mountedIf (settled_queryRoutes h), forall_mountedIf (settled_provisionRoutes h)⟩,
    settled_probeRoutes h⟩, settled_operatorRoutes h, forall_mountedIf (settled_ingressRoutes h)⟩

/-! ### What is served -/

theorem classify_some (path metricsPath : String) :
    classify path (some metricsPath) =
      if metricsPath ≠ "" ∧ path = metricsPath then some .scrape else classify path none := by
  simp [classify]

/-- The empty path is of no class. -/
theorem classify_empty : classify "" none = none := by simp [classify, beginnings]

theorem path_ne_empty {route : Route} (h : Settled upper lower route) : route.path ≠ "" := by
  intro hempty
  obtain ⟨routeClass, hclass, -⟩ := h.kept
  rw [hempty, classify_empty] at hclass
  cases hclass

/-- A settled route passes iff the scrape endpoint has another path. -/
theorem settled_passes_iff {route : Route} (h : Settled upper lower route) (metricsPath : String) :
    (KeepsSharedRules upper lower (some metricsPath) route ∧
      ¬ AccusedByAudit upper (some metricsPath) route) ↔ metricsPath ≠ route.path := by
  constructor
  · rintro ⟨⟨routeClass, hclass, hshared, -⟩, -⟩ rfl
    -- Under the rules of a scrape endpoint the route lacks its guard.
    rw [classify_some, if_pos ⟨path_ne_empty h, rfl⟩] at hclass
    obtain rfl := Option.some.inj hclass
    exact h.unscraped hshared.2.2
  · intro hne
    have hclass : classify route.path (some metricsPath) = classify route.path none := by
      rw [classify_some, if_neg fun hsame => hne hsame.2.symm]
    refine ⟨?_, fun haccused => haccused.2.2 h.hints⟩
    rw [KeepsSharedRules, hclass]
    exact h.kept

/-- The scrape endpoint passes iff its path is not empty and names no act on authentication
material. -/
theorem metricsRoute_passes_iff (h : AsciiCase upper lower) (metricsPath : String) :
    (KeepsSharedRules upper lower (some metricsPath) (metricsRoute metricsPath) ∧
      ¬ AccusedByAudit upper (some metricsPath) (metricsRoute metricsPath)) ↔
    metricsPath ≠ "" ∧
      ∀ verb ∈ CREDENTIAL_LIFECYCLE_VERBS, ¬ Text.Occurs verb (lower metricsPath) := by
  have hpath : (metricsRoute metricsPath).path = metricsPath := rfl
  constructor
  · rintro ⟨⟨routeClass, hclass, -, hverbs⟩, -⟩
    rw [hpath, classify_some] at hclass
    split_ifs at hclass with hmounted
    · obtain rfl := Option.some.inj hclass
      refine ⟨hmounted.1, fun verb hverb hoccurs => ?_⟩
      cases hverbs verb hverb hoccurs
    · obtain rfl : metricsPath = "" := by simpa using hmounted
      cases classify_empty.symm.trans hclass
  · rintro ⟨hne, hverbs⟩
    have hclass : classify (metricsRoute metricsPath).path (some metricsPath) = some .scrape := by
      rw [hpath, classify_some, if_pos ⟨hne, rfl⟩]
    constructor
    · refine ⟨.scrape, hclass, ⟨?_, not_mutates_get h, carries_mount_iff.mpr rfl⟩, ?_⟩
      · intro hcarries
        cases carries_mount_iff.mp hcarries
      · exact fun verb hverb hoccurs => absurd hoccurs (hverbs verb hverb)
    · rintro ⟨hoperator, -⟩
      cases hclass.symm.trans hoperator

theorem mem_mountedRoutes {route : Route} :
    route ∈ mountedRoutes settings ↔ route ∈ fixedRoutes settings ∨
      settings.metricsEnabled = true ∧ route = metricsRoute settings.metricsPath := by
  have hmetrics : route ∈ mountedIf settings.metricsEnabled [metricsRoute settings.metricsPath] ↔
      settings.metricsEnabled = true ∧ route = metricsRoute settings.metricsPath := by
    unfold mountedIf
    split_ifs with henabled
    · simp [henabled]
    · simp [henabled]
  simp only [mountedRoutes, fixedRoutes, List.mem_append, hmetrics]
  tauto

/-- A route beside the scrape endpoint passes iff the endpoint is mounted elsewhere. -/
theorem fixedRoutes_passes_iff (h : AsciiCase upper lower) {route : Route}
    (hroute : route ∈ fixedRoutes settings) :
    KeepsSharedRules upper lower (some settings.metricsPath) route ∧
      ¬ AccusedByAudit upper (some settings.metricsPath) route ↔
        settings.metricsPath ≠ route.path :=
  settled_passes_iff (settled_fixedRoutes h settings route hroute) _

theorem surface_served_of_fits (printable : Char → Bool) (h : AsciiCase upper lower)
    (hfits : MetricsPathFits settings lower) :
    requireACorrectSurface printable upper lower (some settings.metricsPath)
        (mountedRoutes settings) = .ok () := by
  rw [requireACorrectSurface_eq_ok_iff, auditRoutes_eq_ok_nil_iff]
  intro route hroute
  rcases mem_mountedRoutes.mp hroute with hroute | ⟨henabled, rfl⟩
  · refine (fixedRoutes_passes_iff h hroute).mpr fun hsame => hfits.own ?_
    exact hsame ▸ List.mem_map_of_mem hroute
  · exact (metricsRoute_passes_iff h _).mpr ⟨hfits.named henabled, hfits.verbs henabled⟩

/-- What is served has a path that fits. -/
theorem fits_of_surface_served {printable : Char → Bool} (h : AsciiCase upper lower)
    (hserved : requireACorrectSurface printable upper lower (some settings.metricsPath)
      (mountedRoutes settings) = .ok ()) : MetricsPathFits settings lower := by
  rw [requireACorrectSurface_eq_ok_iff, auditRoutes_eq_ok_nil_iff] at hserved
  have hmetrics := fun henabled => (metricsRoute_passes_iff h settings.metricsPath).mp
    (hserved _ (mem_mountedRoutes.mpr (.inr ⟨henabled, rfl⟩)))
  refine ⟨?_, fun henabled => (hmetrics henabled).1, fun henabled => (hmetrics henabled).2⟩
  intro hmem
  obtain ⟨route, hroute, hsame⟩ := List.mem_map.mp hmem
  have hpasses := hserved route (mem_mountedRoutes.mpr (.inl hroute))
  exact (fixedRoutes_passes_iff h hroute).mp hpasses hsame.symm

/-- **A configuration is served iff the path of its scrape endpoint fits**, and every other route
passes the audit wherever else the endpoint is mounted. -/
theorem surface_served_iff (printable : Char → Bool) (h : AsciiCase upper lower)
    (settings : AppSettings) :
    (requireACorrectSurface printable upper lower (some settings.metricsPath)
        (mountedRoutes settings) = .ok () ↔ MetricsPathFits settings lower) ∧
      ∀ route ∈ fixedRoutes settings, ∀ metricsPath,
        auditRoutes printable upper lower (some metricsPath) [route] = .ok [] ↔
          metricsPath ≠ route.path := by
  refine ⟨⟨fits_of_surface_served h, surface_served_of_fits printable h⟩, ?_⟩
  intro route hroute metricsPath
  rw [auditRoutes_eq_ok_nil_iff, List.forall_mem_singleton]
  exact settled_passes_iff (settled_fixedRoutes h settings route hroute) metricsPath

theorem toLower_of_not_isUpper {c : Char} (h : c.isUpper = false) : c.toLower = c := by
  refine dif_neg fun hupper => ?_
  exact absurd (decide_eq_true hupper) (Bool.eq_false_iff.mp h)

theorem toUpper_of_isUpper {c : Char} (h : c.isUpper = true) : c.toUpper = c := by
  refine dif_neg fun hletter => ?_
  have hcapital : c.val ≥ 'A'.val ∧ c.val ≤ 'Z'.val := of_decide_eq_true h
  exact absurd (UInt32.le_trans hletter.1 hcapital.2) (by decide)

/-- The conversions of the ASCII letters do what is used. -/
theorem asciiCase_ascii : AsciiCase String.toUpper String.toLower where
  upper s h := by
    change s.map Char.toUpper = s
    rw [← String.toList_inj, String.toList_map]
    exact (List.map_congr_left fun c hc => toUpper_of_isUpper (List.all_eq_true.mp h c hc)).trans
      (List.map_id _)
  lower s h := by
    change s.map Char.toLower = s
    rw [← String.toList_inj, String.toList_map]
    refine (List.map_congr_left fun c hc => toLower_of_not_isUpper ?_).trans (List.map_id _)
    have hplain := List.all_eq_true.mp h c hc
    simp only [Bool.and_eq_true, Bool.not_eq_eq_eq_not, Bool.not_true] at hplain
    exact hplain.2

/-- The default path is served; the path of a probe is not, even where nothing is scraped. -/
theorem surface_served_iff_default :
    requireACorrectSurface (fun _ => true) String.toUpper String.toLower (some "/metrics")
        (mountedRoutes {}) = .ok () ∧
      requireACorrectSurface (fun _ => true) String.toUpper String.toLower (some "/health/live")
        (mountedRoutes { metricsEnabled := false, metricsPath := "/health/live" }) ≠ .ok () := by
  constructor
  · apply (surface_served_iff (fun _ => true) asciiCase_ascii {}).1.mpr
    refine ⟨by decide +kernel, fun _ => by decide +kernel, fun _ => ?_⟩
    rw [asciiCase_ascii.lower _ (by decide +kernel)]
    decide +kernel
  · intro hserved
    have hfits := (surface_served_iff (fun _ => true) asciiCase_ascii
      { metricsEnabled := false, metricsPath := "/health/live" }).1.mp hserved
    exact hfits.own (by decide +kernel)

end DotmacIntegrator.Assembly
