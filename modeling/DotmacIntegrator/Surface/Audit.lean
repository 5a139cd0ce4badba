import DotmacIntegrator.Foundation.Fallible
import DotmacIntegrator.Foundation.PyRepr
import DotmacIntegrator.Foundation.RoseTree
import DotmacIntegrator.Foundation.TextReplace

/-!
# The audit of the mounted surface

Every route belongs to one class, by its path, and each class has its own rules. The audit reads
the dependencies of a route at any depth, and the type hints of its endpoint, and reports every
rule that is broken. The hints are those of the parameters and that of the returned value; there
are none when one of them cannot be evaluated.

## Main definitions

* `Route`, `classify`: a mounted route, and the class of a path
* `auditRoutes`, `requireACorrectSurface`: the violations of a surface, and the refusal to serve it
* `Correct`: what the rules ask of a route
* `MissedByAudit`, `AccusedByAudit`: where the audit decides otherwise

## Main results

* `auditRoutes_eq_ok_nil_iff`: the audit is empty iff every route passes
* `audit_exact_iff`: on which surfaces an empty audit is a correct surface
-/

namespace DotmacIntegrator.Surface

/-! ### Routes -/

/-- The classes of routes. -/
inductive RouteClass
  | probe
  | operator
  | ingress
  | scrape
  | product
  deriving DecidableEq, Repr

/-- The class, as a message names it. -/
def RouteClass.value : RouteClass → String
  | probe => "probe"
  | operator => "operator"
  | ingress => "ingress"
  | scrape => "scrape"
  | product => "product"

/-- A callable a route depends on: the guards, an instance of `ScrapeGuard` among them, and any
other. -/
inductive DependencyCall
  | requireOperator
  | requireProductQuery
  | requireProductProvision
  | scrapeGuard
  | other (name : String)
  deriving DecidableEq, Repr

/-- A dependency, its callable if it has one, over what it depends on itself. -/
abbrev Dependant := RoseTree (Option DependencyCall)

/-- The name of a class. -/
inductive ClassName
  | operationReason
  | other (name : String)
  deriving DecidableEq, Repr

/-- A class, over its bases. -/
abbrev PyClass := RoseTree ClassName

/-- What an annotation evaluates to: a class, or something that is none, such as a union. -/
inductive Hint
  | ofClass (cls : PyClass)
  | form

/-- What evaluating the annotations of a callable raises. -/
inductive HintFailure
  | nameError
  | typeError
  | other
  deriving DecidableEq, Repr

/-- The handler of a route. Of a callable that is no function, such as an object, the annotations
are not seen. -/
structure Endpoint where
  isFunction : Bool := true
  parameters : List (String × Except HintFailure Hint)
  returns : Option (Except HintFailure Hint) := none

/-- A mounted route. -/
structure Route where
  path : String
  methods : List String
  dependant : Dependant
  endpoint : Endpoint

/-- The methods that change something. -/
def MUTATING_METHODS : List String := ["POST", "PUT", "PATCH", "DELETE"]

/-- The verbs that describe operations on authentication material. -/
def CREDENTIAL_LIFECYCLE_VERBS : List String := ["mint", "rotate", "revoke", "refresh"]

/-- The classes of paths, by how they begin. -/
def beginnings : List (String × RouteClass) :=
  [("/health/", .probe), ("/operations/", .operator), ("/ingress/", .ingress),
    ("/product/", .product)]

/-- `classify`: the class governing a path, if any. -/
def classify (path : String) (metricsPath : Option String) : Option RouteClass :=
  if metricsPath.any fun m => m ≠ "" ∧ path = m then some .scrape
  else (beginnings.find? fun b => b.1.toList <+: path.toList).map Prod.snd

/-- `_dependency_calls`: every callable reached from the route, at any depth. -/
def dependencyCalls (route : Route) : List DependencyCall :=
  route.dependant.descendants.filterMap id

/-- The annotations of a function: those of its parameters, and behind them that of what it
returns. -/
def annotations (endpoint : Endpoint) : List (String × Except HintFailure Hint) :=
  endpoint.parameters ++ endpoint.returns.toList.map fun hint => ("return", hint)

/-- `get_type_hints`: every annotation, evaluated. -/
def typeHints (endpoint : Endpoint) : Except HintFailure (List (String × Hint)) :=
  if endpoint.isFunction then
    (annotations endpoint).mapM fun p => p.2.map fun hint => (p.1, hint)
  else .error .typeError

/-- The hint is `OperationReason` or a subclass. -/
def Hint.isReason : Hint → Bool
  | ofClass cls => .operationReason ∈ cls.labels
  | form => false

/-- `_takes_a_reason`. -/
def takesAReason (endpoint : Endpoint) : Except HintFailure Bool :=
  match typeHints endpoint with
  | .ok hints => .ok (hints.any fun p => p.2.isReason)
  | .error .other => .error .other
  | .error _ => .ok false

/-! ### The audit

`upper` and `lower` are `str.upper` and `str.lower`, and `printable` is `str.isprintable`. -/

section Audit

variable (printable : Char → Bool) (upper lower : String → String) (metricsPath : Option String)

/-- One violation, if there is one. -/
def violationIf (broken : Bool) (text : String) : List String := if broken then [text] else []

theorem violationIf_eq_nil_iff {broken : Bool} {text : String} :
    violationIf broken text = [] ↔ broken = false := by
  cases broken <;> simp [violationIf]

/-- The route has a method that changes something. -/
def mutating (route : Route) : Bool :=
  (route.methods.map upper).any fun m => m ∈ MUTATING_METHODS

/-- The methods of a route, as a violation names them. -/
def methodsText (route : Route) : String :=
  PyRepr.strings printable (Text.sorted (route.methods.map upper))

/-- The route takes a reason, or needs none. -/
def takesItsReason (route : Route) : Except HintFailure Bool :=
  if mutating upper route then takesAReason route.endpoint else .ok true

/-- The violations of the rules of a class. -/
def classViolations (routeClass : RouteClass) (route : Route) :
    Except HintFailure (List String) :=
  let path := route.path
  let methods := methodsText printable upper route
  let calls := dependencyCalls route
  let guarded : Bool := .requireOperator ∈ calls
  match routeClass with
  | .operator => do
    let takes ← takesItsReason upper route
    return violationIf (!guarded)
        s!"{methods} {path} is an operator route with no `require_operator` dependency" ++
      violationIf (!takes)
        (s!"{methods} {path} mutates without an `OperationReason` body; an audit row that " ++
          "cannot say why is not evidence")
  | .probe =>
    .ok (violationIf guarded
        (s!"{path} is a probe carrying the operator guard; an orchestrator cannot present a " ++
          "credential, so this would restart healthy replicas during an auth outage") ++
      violationIf (mutating upper route) s!"{methods} {path} is a mutating probe")
  | .ingress =>
    .ok (violationIf guarded
      (s!"{path} is public ingress carrying the operator guard. A provider holds no operator " ++
        "credential; sharing the guard ends with the operator guard loosened until both fit " ++
        "through it"))
  | .product =>
    .ok (violationIf guarded
        (s!"{path} is a product route carrying the operator guard. A product machine holds no " ++
          "human operator identity") ++
      violationIf (.requireProductQuery ∉ calls ∧ .requireProductProvision ∉ calls)
        (s!"{path} is a product route with no product guard (`require_product_query` or " ++
          "`require_product_provision`)"))
  | .scrape =>
    .ok (violationIf guarded
        (s!"{path} is a scrape endpoint carrying the operator guard. A monitoring system holds " ++
          "a scrape token, not an operator identity, and every scrape would 401") ++
      violationIf (mutating upper route) s!"{methods} {path} is a mutating scrape" ++
      violationIf (.scrapeGuard ∉ calls)
        (s!"{path} is a scrape endpoint with no `ScrapeGuard` dependency. An authentication " ++
          "check written in the handler BODY is invisible to this audit, which is how an " ++
          "unauthenticated /metrics would pass it"))

/-- The credential-lifecycle verbs a path names outside the operator surface. -/
def verbViolations (routeClass : RouteClass) (route : Route) : List String :=
  CREDENTIAL_LIFECYCLE_VERBS.flatMap fun verb =>
    let path := route.path
    let named := PyRepr.string printable verb
    violationIf (Text.Occurs verb (lower path) ∧ routeClass ≠ .operator)
      (s!"{path} names the credential-lifecycle verb {named} but is classified " ++
        routeClass.value ++ ". Minting, rotating and revoking authentication material is an " ++
        "operator act")

/-- The violations of one route. -/
def auditRoute (route : Route) : Except HintFailure (List String) :=
  match classify route.path metricsPath with
  | none =>
    let path := route.path
    .ok [s!"{path} is unclassified. Mount it under /health, /operations or /ingress — a route " ++
      "with no class has no rules, which is how the ingress adapter would inherit the operator " ++
      "guard"]
  | some routeClass => do
    let own ← classViolations printable upper routeClass route
    return own ++ verbViolations printable lower routeClass route

/-- `audit_routes`: the violations of a mounted surface. -/
def auditRoutes (routes : List Route) : Except HintFailure (List String) := do
  let violations ← routes.mapM (auditRoute printable upper lower metricsPath)
  return violations.flatten

/-- What mounting a surface raises. -/
inductive SurfaceRaised
  | surfaceViolation (message : String)
  | hints (failure : HintFailure)
  deriving DecidableEq, Repr

/-- `require_a_correct_surface`. -/
def requireACorrectSurface (routes : List Route) : Except SurfaceRaised Unit :=
  match auditRoutes printable upper lower metricsPath routes with
  | .error failure => .error (.hints failure)
  | .ok [] => .ok ()
  | .ok violations =>
    .error (.surfaceViolation
      ("refusing to serve an incorrectly classified surface:\n  - " ++
        "\n  - ".intercalate violations))

end Audit

/-! ### The rules -/

section Rules

variable (upper lower : String → String) (metricsPath : Option String)

/-- The route reaches the callable somewhere in its dependency tree. -/
def Carries (route : Route) (call : DependencyCall) : Prop :=
  ∃ dependency ∈ route.dependant.children, RoseTree.Occurs (some call) dependency

/-- The route has a method that changes something. -/
def Mutates (route : Route) : Prop := ∃ m ∈ route.methods, upper m ∈ MUTATING_METHODS

/-- The hint is a class, and `OperationReason` is among its ancestors or is the class itself. -/
def IsReason (hint : Hint) : Prop :=
  ∃ cls, hint = .ofClass cls ∧ RoseTree.Occurs .operationReason cls

/-- The endpoint has a parameter whose type is `OperationReason` or a subclass. -/
def HasReasonParameter (endpoint : Endpoint) : Prop :=
  ∃ p ∈ endpoint.parameters, ∃ hint, p.2 = .ok hint ∧ IsReason hint

/-- The endpoint returns `OperationReason` or a subclass. -/
def ReturnsReason (endpoint : Endpoint) : Prop :=
  ∃ hint, endpoint.returns = some (.ok hint) ∧ IsReason hint

/-- The endpoint is a function each of whose annotations can be evaluated. -/
def HintsKnown (endpoint : Endpoint) : Prop :=
  endpoint.isFunction = true ∧ (∀ p ∈ endpoint.parameters, ∃ hint, p.2 = .ok hint) ∧
    ∀ r ∈ endpoint.returns, ∃ hint, r = .ok hint

/-- The callables that authenticate a request. -/
def guards : List DependencyCall :=
  [.requireOperator, .requireProductQuery, .requireProductProvision, .scrapeGuard]

/-- What the rules ask of a route of each class. -/
structure Correct (route : Route) : Prop where
  classified : ∃ routeClass, classify route.path metricsPath = some routeClass
  operatorGuard : classify route.path metricsPath = some .operator →
    Carries route .requireOperator
  operatorReason : classify route.path metricsPath = some .operator → Mutates upper route →
    HasReasonParameter route.endpoint
  probe : classify route.path metricsPath = some .probe →
    ¬ Mutates upper route ∧ ∀ guard ∈ guards, ¬ Carries route guard
  noOperatorGuard : ∀ routeClass ∈ [RouteClass.ingress, .product, .scrape],
    classify route.path metricsPath = some routeClass → ¬ Carries route .requireOperator
  productGuard : classify route.path metricsPath = some .product →
    Carries route .requireProductQuery ∨ Carries route .requireProductProvision
  scrape : classify route.path metricsPath = some .scrape →
    Carries route .scrapeGuard ∧ ¬ Mutates upper route
  verbs : ∀ verb ∈ CREDENTIAL_LIFECYCLE_VERBS, Text.Occurs verb (lower route.path) →
    classify route.path metricsPath = some .operator

/-- The rules of a class, but for those the audit decides otherwise: a probe carries no operator
guard, and some hint of a mutating operator route is a reason. -/
def SharedRules (routeClass : RouteClass) (route : Route) : Prop :=
  match routeClass with
  | .operator =>
    Carries route .requireOperator ∧ (Mutates upper route →
      HasReasonParameter route.endpoint ∨
        (HintsKnown route.endpoint ∧ ReturnsReason route.endpoint))
  | .probe => ¬ Mutates upper route ∧ ¬ Carries route .requireOperator
  | .ingress => ¬ Carries route .requireOperator
  | .product =>
    ¬ Carries route .requireOperator ∧
      (Carries route .requireProductQuery ∨ Carries route .requireProductProvision)
  | .scrape =>
    ¬ Carries route .requireOperator ∧ ¬ Mutates upper route ∧ Carries route .scrapeGuard

/-- The route keeps the rules that the audit and the class descriptions share. -/
def KeepsSharedRules (route : Route) : Prop :=
  ∃ routeClass, classify route.path metricsPath = some routeClass ∧
    SharedRules upper routeClass route ∧
    ∀ verb ∈ CREDENTIAL_LIFECYCLE_VERBS, Text.Occurs verb (lower route.path) →
      routeClass = .operator

/-- A probe that authenticates, by another guard than the operator's; a mutating operator route
without a reason among its parameters. -/
def MissedByAudit (route : Route) : Prop :=
  (classify route.path metricsPath = some .probe ∧
    ∃ guard ∈ guards, guard ≠ .requireOperator ∧ Carries route guard) ∨
  (classify route.path metricsPath = some .operator ∧ Mutates upper route ∧
    ¬ HasReasonParameter route.endpoint)

/-- A mutating operator route whose hints are not known. -/
def AccusedByAudit (route : Route) : Prop :=
  classify route.path metricsPath = some .operator ∧ Mutates upper route ∧
    ¬ HintsKnown route.endpoint

end Rules

/-! ### What the audit reads -/

variable {printable : Char → Bool} {upper lower : String → String} {metricsPath : Option String}

/-- The walk over the dependencies finds what the route carries. -/
theorem mem_dependencyCalls {route : Route} {call : DependencyCall} :
    call ∈ dependencyCalls route ↔ Carries route call := by
  simp only [dependencyCalls, List.mem_filterMap, id_eq, exists_eq_right,
    RoseTree.mem_descendants_iff]
  rfl

theorem mutating_iff {route : Route} : mutating upper route = true ↔ Mutates upper route := by
  simp [mutating, Mutates]

theorem mutating_eq_false_iff {route : Route} :
    mutating upper route = false ↔ ¬ Mutates upper route := by
  rw [← mutating_iff, Bool.not_eq_true]

theorem isReason_iff {hint : Hint} : hint.isReason = true ↔ IsReason hint := by
  cases hint with
  | ofClass cls => simp [Hint.isReason, IsReason, RoseTree.mem_labels_iff]
  | form => simp [Hint.isReason, IsReason]

theorem forall_annotation_iff {endpoint : Endpoint} {P : Except HintFailure Hint → Prop} :
    (∀ p ∈ annotations endpoint, P p.2) ↔
      (∀ p ∈ endpoint.parameters, P p.2) ∧ ∀ r ∈ endpoint.returns, P r := by
  simp only [annotations, List.forall_mem_append, List.forall_mem_map, Option.mem_toList,
    Option.mem_def]

theorem exists_annotation_iff {endpoint : Endpoint} {P : Except HintFailure Hint → Prop} :
    (∃ p ∈ annotations endpoint, P p.2) ↔
      (∃ p ∈ endpoint.parameters, P p.2) ∨ ∃ r ∈ endpoint.returns, P r := by
  have h := not_congr (@forall_annotation_iff endpoint fun a => ¬ P a)
  simpa only [not_and_or, not_forall, not_not, exists_prop] using h

/-- A function has hints iff each of its annotations can be evaluated. -/
theorem exists_typeHints_iff {endpoint : Endpoint} :
    (∃ hints, typeHints endpoint = .ok hints) ↔ HintsKnown endpoint := by
  rw [HintsKnown, ← forall_annotation_iff (P := fun a => ∃ hint, a = .ok hint)]
  -- The annotations of anything but a function are not evaluated at all.
  by_cases hf : endpoint.isFunction = true
  · simp only [typeHints, hf, if_true, true_and]
    constructor
    · rintro ⟨hints, hhints⟩ p hp
      obtain ⟨_, hy⟩ := Except.ok_of_mapM_eq_ok hhints p hp
      obtain ⟨hint, hhint, -⟩ := Except.map_eq_ok.mp hy
      exact ⟨hint, hhint⟩
    · intro h
      apply Except.exists_mapM_eq_ok
      intro p hp
      obtain ⟨hint, hhint⟩ := h p hp
      exact ⟨_, Except.map_eq_ok.mpr ⟨hint, hhint, rfl⟩⟩
  · simp [typeHints, hf]

/-- One of the hints is a reason iff a parameter is one, or the returned value. -/
theorem exists_reason_iff {endpoint : Endpoint} {hints : List (String × Hint)}
    (h : typeHints endpoint = .ok hints) :
    (∃ p ∈ hints, IsReason p.2) ↔ HasReasonParameter endpoint ∨ ReturnsReason endpoint := by
  have hreturns : ReturnsReason endpoint ↔
      ∃ r ∈ endpoint.returns, ∃ hint, r = .ok hint ∧ IsReason hint := by
    constructor
    · rintro ⟨hint, hr, hreason⟩
      exact ⟨_, hr, hint, rfl, hreason⟩
    · rintro ⟨_, hr, hint, rfl, hreason⟩
      exact ⟨hint, hr, hreason⟩
  rw [hreturns, HasReasonParameter, ← exists_annotation_iff (P := fun a => ∃ hint, a = .ok hint ∧
    IsReason hint)]
  unfold typeHints at h
  split_ifs at h
  constructor
  -- Every hint comes of an annotation, and every annotation gives a hint.
  · rintro ⟨p, hp, hreason⟩
    obtain ⟨a, ha, hy⟩ := Except.exists_of_mapM_eq_ok h p hp
    obtain ⟨hint, hhint, rfl⟩ := Except.map_eq_ok.mp hy
    exact ⟨a, ha, hint, hhint, hreason⟩
  · rintro ⟨a, ha, hint, hhint, hreason⟩
    obtain ⟨p, hp, hy⟩ := Except.exists_mem_of_mapM_eq_ok h a ha
    obtain ⟨hint', hhint', rfl⟩ := Except.map_eq_ok.mp hy
    obtain rfl : hint' = hint := Except.ok.inj (hhint'.symm.trans hhint)
    exact ⟨_, hp, hreason⟩

/-- The endpoint is taken to accept a reason iff its hints are known, and one of them is a
reason. -/
theorem takesAReason_eq_ok_true_iff {endpoint : Endpoint} :
    takesAReason endpoint = .ok true ↔
      HintsKnown endpoint ∧ (HasReasonParameter endpoint ∨ ReturnsReason endpoint) := by
  rw [← exists_typeHints_iff]
  unfold takesAReason
  split
  · next hints hhints =>
    rw [← exists_reason_iff hhints]
    simp [hhints, isReason_iff]
  · next hfail => simp [hfail]
  · next failure _ hfail => simp [hfail]

/-! ### What the audit decides -/

/-- What an empty audit of one route comes to: the shared rules, and known hints where a reason
is asked for. -/
theorem classViolations_eq_ok_nil_iff {routeClass : RouteClass} {route : Route} :
    classViolations printable upper routeClass route = .ok [] ↔
      SharedRules upper routeClass route ∧
        (routeClass = .operator → Mutates upper route → HintsKnown route.endpoint) := by
  cases routeClass with
  | operator =>
    have hviolations : classViolations printable upper .operator route = .ok [] ↔
        Carries route .requireOperator ∧ takesItsReason upper route = .ok true := by
      simp only [classViolations, Except.bind_eq_ok]
      constructor
      · rintro ⟨takes, htakes, hnil⟩
        simp only [pure, Except.pure, Except.ok.injEq, List.append_eq_nil_iff,
          violationIf_eq_nil_iff, Bool.not_eq_eq_eq_not, Bool.not_false, decide_eq_true_eq] at hnil
        exact ⟨mem_dependencyCalls.mp hnil.1, hnil.2 ▸ htakes⟩
      · rintro ⟨hcarries, htakes⟩
        refine ⟨true, htakes, ?_⟩
        simp [mem_dependencyCalls.mpr hcarries, violationIf, pure, Except.pure]
    rw [hviolations, SharedRules, takesItsReason]
    -- A reason is asked for where something is changed, and only there are hints evaluated.
    by_cases hm : Mutates upper route
    · rw [if_pos (mutating_iff.mpr hm), takesAReason_eq_ok_true_iff]
      tauto
    · rw [if_neg (by rwa [mutating_iff])]
      tauto
  | probe =>
    simp [classViolations, SharedRules, violationIf_eq_nil_iff, mutating_eq_false_iff,
      mem_dependencyCalls, and_comm]
  | ingress =>
    simp [classViolations, SharedRules, violationIf_eq_nil_iff, mem_dependencyCalls]
  | product =>
    simp [classViolations, SharedRules, violationIf_eq_nil_iff, mem_dependencyCalls,
      or_iff_not_imp_left]
  | scrape =>
    simp [classViolations, SharedRules, violationIf_eq_nil_iff, mutating_eq_false_iff,
      mem_dependencyCalls]

theorem verbViolations_eq_nil_iff {routeClass : RouteClass} {route : Route} :
    verbViolations printable lower routeClass route = [] ↔
      ∀ verb ∈ CREDENTIAL_LIFECYCLE_VERBS, Text.Occurs verb (lower route.path) →
        routeClass = .operator := by
  simp only [verbViolations, List.flatMap_eq_nil_iff, violationIf_eq_nil_iff,
    decide_eq_false_iff_not, not_and, not_not]

/-- A route passes iff it keeps the shared rules, and is not accused. -/
theorem auditRoute_eq_ok_nil_iff {route : Route} :
    auditRoute printable upper lower metricsPath route = .ok [] ↔
      KeepsSharedRules upper lower metricsPath route ∧
        ¬ AccusedByAudit upper metricsPath route := by
  rw [auditRoute, KeepsSharedRules, AccusedByAudit]
  cases hclass : classify route.path metricsPath with
  | none => simp
  | some routeClass =>
    have hroute : (do
        let own ← classViolations printable upper routeClass route
        return own ++ verbViolations printable lower routeClass route) = .ok [] ↔
        classViolations printable upper routeClass route = .ok [] ∧
          verbViolations printable lower routeClass route = [] := by
      simp only [Except.bind_eq_ok]
      constructor
      · rintro ⟨own, hown, hnil⟩
        obtain ⟨rfl, hverbs⟩ := List.append_eq_nil_iff.mp (Except.ok.inj hnil)
        exact ⟨hown, hverbs⟩
      · rintro ⟨hown, hverbs⟩
        exact ⟨[], hown, by rw [hverbs]; rfl⟩
    simp only [hroute, classViolations_eq_ok_nil_iff, verbViolations_eq_nil_iff,
      Option.some.injEq, exists_eq_left', not_and, not_not]
    tauto

/-- **The audit is empty iff every route passes.** -/
theorem auditRoutes_eq_ok_nil_iff {routes : List Route} :
    auditRoutes printable upper lower metricsPath routes = .ok [] ↔
      ∀ route ∈ routes, KeepsSharedRules upper lower metricsPath route ∧
        ¬ AccusedByAudit upper metricsPath route := by
  simp only [← @auditRoute_eq_ok_nil_iff printable, auditRoutes, Except.bind_eq_ok]
  constructor
  · rintro ⟨violations, hroutes, hnil⟩ route hroute
    obtain ⟨own, hown, hok⟩ := Except.exists_mem_of_mapM_eq_ok hroutes route hroute
    rw [hok, List.flatten_eq_nil_iff.mp (Except.ok.inj hnil) own hown]
  · intro h
    obtain ⟨violations, hroutes⟩ := Except.exists_mapM_eq_ok fun route hroute => ⟨_, h route hroute⟩
    refine ⟨violations, hroutes, congrArg Except.ok (List.flatten_eq_nil_iff.mpr ?_)⟩
    intro own hown
    obtain ⟨route, hroute, hok⟩ := Except.exists_of_mapM_eq_ok hroutes own hown
    exact Except.ok.inj (hok.symm.trans (h route hroute))

/-- A surface is served iff its audit is empty. -/
theorem requireACorrectSurface_eq_ok_iff {routes : List Route} :
    requireACorrectSurface printable upper lower metricsPath routes = .ok () ↔
      auditRoutes printable upper lower metricsPath routes = .ok [] := by
  unfold requireACorrectSurface
  split <;> simp_all

/-! ### What the rules ask for -/

/-- A route is correct iff it keeps the shared rules, and is not missed. -/
theorem correct_iff {route : Route} :
    Correct upper lower metricsPath route ↔
      KeepsSharedRules upper lower metricsPath route ∧
        ¬ MissedByAudit upper metricsPath route := by
  constructor
  · intro h
    obtain ⟨routeClass, hclass⟩ := h.classified
    refine ⟨⟨routeClass, hclass, ?_, ?_⟩, ?_⟩
    · cases routeClass with
      | operator =>
        exact ⟨h.operatorGuard hclass, fun hm => Or.inl (h.operatorReason hclass hm)⟩
      | probe => exact ⟨(h.probe hclass).1, (h.probe hclass).2 _ (by simp [guards])⟩
      | ingress => exact h.noOperatorGuard _ (by simp) hclass
      | product => exact ⟨h.noOperatorGuard _ (by simp) hclass, h.productGuard hclass⟩
      | scrape =>
        exact ⟨h.noOperatorGuard _ (by simp) hclass, (h.scrape hclass).2, (h.scrape hclass).1⟩
    · intro verb hverb hoccurs
      exact Option.some.inj (hclass.symm.trans (h.verbs verb hverb hoccurs))
    · rintro (⟨hprobe, guard, hguard, -, hcarries⟩ | ⟨hoperator, hm, hno⟩)
      · exact (h.probe hprobe).2 guard hguard hcarries
      · exact hno (h.operatorReason hoperator hm)
  · rintro ⟨⟨routeClass, hclass, hshared, hverbs⟩, hmissed⟩
    -- The class decides which of the shared rules apply.
    have hown : ∀ {c}, classify route.path metricsPath = some c → SharedRules upper c route := by
      intro c hc
      obtain rfl : routeClass = c := Option.some.inj (hclass.symm.trans hc)
      exact hshared
    refine ⟨⟨routeClass, hclass⟩, ?_, ?_, ?_, ?_, ?_, ?_, ?_⟩
    · intro hoperator
      exact (hown hoperator).1
    -- A mutating route without a reason parameter would be missed.
    · intro hoperator hm
      by_contra hno
      exact hmissed (Or.inr ⟨hoperator, hm, hno⟩)
    · intro hprobe
      refine ⟨(hown hprobe).1, fun guard hguard hcarries => ?_⟩
      by_cases hop : guard = .requireOperator
      · exact (hown hprobe).2 (hop ▸ hcarries)
      · exact hmissed (Or.inl ⟨hprobe, guard, hguard, hop, hcarries⟩)
    · intro c hc hforeign
      simp only [List.mem_cons, List.not_mem_nil, or_false] at hc
      rcases hc with rfl | rfl | rfl
      · exact hown hforeign
      · exact (hown hforeign).1
      · exact (hown hforeign).1
    · intro hproduct
      exact (hown hproduct).2
    · intro hscrape
      exact ⟨(hown hscrape).2.2, (hown hscrape).2.1⟩
    · intro verb hverb hoccurs
      rw [hclass, hverbs verb hverb hoccurs]

/-- **On which surfaces an empty audit is a correct surface**: where some route breaks a rule the
audit shares with the class descriptions, and where there is either both a route that is missed
and one that is accused, or neither. -/
theorem audit_exact_iff (printable : Char → Bool) (upper lower : String → String)
    (metricsPath : Option String) (routes : List Route) :
    (auditRoutes printable upper lower metricsPath routes = .ok [] ↔
      ∀ route ∈ routes, Correct upper lower metricsPath route) ↔
    (∃ route ∈ routes, ¬ KeepsSharedRules upper lower metricsPath route) ∨
      ((∃ route ∈ routes, MissedByAudit upper metricsPath route) ↔
        ∃ route ∈ routes, AccusedByAudit upper metricsPath route) := by
  simp only [auditRoutes_eq_ok_nil_iff, correct_iff]
  by_cases hshared : ∀ route ∈ routes, KeepsSharedRules upper lower metricsPath route
  · -- Only the routes that are missed or accused tell the two apart.
    have hall : ∀ P : Route → Prop, (∀ route ∈ routes,
        KeepsSharedRules upper lower metricsPath route ∧ ¬ P route) ↔
          ¬ ∃ route ∈ routes, P route := by
      intro P
      simp only [not_exists, not_and]
      exact ⟨fun h route hroute => (h route hroute).2,
        fun h route hroute => ⟨hshared route hroute, h route hroute⟩⟩
    have hnone : ¬ ∃ route ∈ routes, ¬ KeepsSharedRules upper lower metricsPath route := by
      simpa using hshared
    rw [hall, hall, not_iff_not, or_iff_right hnone]
    exact iff_comm
  · -- A route that breaks a shared rule is reported, and is not correct.
    have hexists : ∃ route ∈ routes, ¬ KeepsSharedRules upper lower metricsPath route := by
      simpa using hshared
    have hneither : ∀ P : Route → Prop, ¬ ∀ route ∈ routes,
        KeepsSharedRules upper lower metricsPath route ∧ ¬ P route :=
      fun P h => hshared fun route hroute => (h route hroute).1
    exact iff_of_true (iff_of_false (hneither _) (hneither _)) (Or.inl hexists)

/-- A health check that asks for a product's key. -/
def guardedProbe : Route where
  path := "/health/ready"
  methods := ["GET"]
  dependant := .node none [.node (some .requireProductQuery) []]
  endpoint := { parameters := [] }

/-- The audit has nothing to say about it, and an orchestrator is turned away. -/
theorem not_audit_exact_guardedProbe :
    ¬ (auditRoutes (fun _ => true) String.toUpper String.toLower none [guardedProbe] = .ok [] ↔
      ∀ route ∈ [guardedProbe], Correct String.toUpper String.toLower none route) := by
  intro h
  have hempty : auditRoutes (fun _ => true) String.toUpper String.toLower none [guardedProbe] =
      .ok [] := by
    decide +kernel
  have hcorrect := h.mp hempty guardedProbe List.mem_cons_self
  have hopen := (hcorrect.probe (by decide)).2 .requireProductQuery (by simp [guards])
  exact hopen ⟨_, List.mem_cons_self, .root⟩

end DotmacIntegrator.Surface
