import DotmacIntegrator.ProductSurface.Dispatch
import DotmacIntegrator.Secrets.Loading

/-!
# The routes of the product surface

Four routes: a query, and the submission, the cancellation and the state of a provision. Scope,
granted binding and owner are checked in a different place for each of them: the scope by the guard
of the route, the binding by the route or by its dispatcher, the owner by the dispatcher.

## Main definitions

* `ProductRequest`, `handle`: the requests, and how they are handled
* `ProductRequest.addressed`: the binding and the capability that a request addresses
* `Authorised`: a caller holds the key and has the scope, the binding and the capability
* `Acts`: something is done, changed or disclosed

## Main results

* `guarded_handle`: a request is guarded by its authorisation
* `authorised_of_acts`: nothing happens without authorisation
-/

namespace DotmacIntegrator.ProductSurface

open DotmacIntegrator.Configuration
open DotmacIntegrator.Secrets

/-- A request, with what the framework makes of its body: none if it does not validate. -/
inductive ProductRequest
  | query (body : Option ProductQueryRequest)
  | submit (body : Option ProvisionSubmitRequest)
  | cancel (operationId : String) (body : Option ProvisionCancelRequest)
  | get (operationId : String)

/-- The scope that a route requires. -/
def ProductRequest.scope : ProductRequest → String
  | .query _ => "integration:query"
  | .submit _ | .cancel _ _ | .get _ => "integration:provision"

/-- What a route answers. -/
inductive ProductAnswer
  | query (statusCode : ℕ) (response : ProductQueryResponse)
  | provision (statusCode : ℕ) (shown : ProvisionOperationView)

/-- `_PRODUCT_QUERY_STATUS_CODES`. -/
def queryStatusCode : ProductQueryStatus → ℕ
  | .ok => 200
  | .notFound => 404
  | .invalidQuery => 422
  | .providerUnavailable => 503
  | .timeout => 504
  | .unauthorizedProviderSession => 502
  | .malformedProviderResponse => 502

/-- The status codes of a provision route, which accepts and refuses with codes of its own. -/
def provisionStatusCode (accepted refused : ℕ) : ProvisionSubmitStatus → ℕ
  | .accepted => accepted
  | .conflict => 409
  | .refused => refused
  | .unavailable => 503

variable {μ π : Type} (settings : Settings) (held : Held) (engine : Engine μ π) (db : Connection)
  (digits : UnicodeDigits) (xApiKey : Option String)

/-- The body of a request, where it validates. -/
def validated {α : Type} : Option α → Except ProductRaised α :=
  Except.ofOption .requestValidationError

/-- The identifier in a path. -/
def pathIdentifier (operationId : String) : Except ProductRaised Uuid :=
  Except.ofOption (.httpException 404 "provision operation not found")
    (Uuid.parse digits operationId)

/-- The guard of a route. -/
def guard (request : ProductRequest) : Except ProductRaised ProductPrincipal :=
  require settings.productQueryCallers held request.scope xApiKey

/-- `product_query`. -/
def productQuery (body : Option ProductQueryRequest) :
    ProductProgram μ π ProductRaised ProductAnswer := do
  let principal ← .ofExcept (guard settings held xApiKey (.query body))
  let body ← .ofExcept (validated body)
  if body.capabilityBindingId ∉ principal.bindingIds then
    .raise (.httpException 403 "product query not authorized")
  else do
    let response ← Observed.catching
      (dispatchQuery engine held principal.application body : ProductProgram μ π Fault _)
      fun _ => return .providerUnavailable
    return .query (queryStatusCode response.status) response

/-- `product_provision_submit`. -/
def productProvisionSubmit (body : Option ProvisionSubmitRequest) :
    ProductProgram μ π ProductRaised ProductAnswer := do
  let principal ← .ofExcept (guard settings held xApiKey (.submit body))
  let body ← .ofExcept (validated body)
  if body.capabilityBindingId ∉ principal.bindingIds then
    .raise (.httpException 403 "product provision not authorized")
  else do
    let shown ← submit engine db principal.application body
    return .provision (provisionStatusCode 202 422 shown.status) shown

/-- `product_provision_cancel`. -/
def productProvisionCancel (operationId : String) (body : Option ProvisionCancelRequest) :
    ProductProgram μ π ProductRaised ProductAnswer := do
  let principal ← .ofExcept (guard settings held xApiKey (.cancel operationId body))
  let body ← .ofExcept (validated body)
  let parsed ← .ofExcept (pathIdentifier digits operationId)
  let shown ← cancel engine db principal.application parsed principal.bindingIds body.reason
  return .provision (provisionStatusCode 202 404 shown.status) shown

/-- `product_provision_get`. -/
def productProvisionGet (operationId : String) :
    ProductProgram μ π ProductRaised ProductAnswer := do
  let principal ← .ofExcept (guard settings held xApiKey (.get operationId))
  let parsed ← .ofExcept (pathIdentifier digits operationId)
  let shown ← get engine db principal.application parsed principal.bindingIds
  return .provision (provisionStatusCode 200 404 shown.status) shown

/-- A route, where it is mounted. -/
def mounted (enabled : Bool) (route : ProductProgram μ π ProductRaised ProductAnswer) :
    ProductProgram μ π ProductRaised ProductAnswer :=
  if enabled then route else .raise (.httpException 404 "Not Found")

/-- How a request is handled. -/
def handle : ProductRequest → ProductProgram μ π ProductRaised ProductAnswer
  | .query body =>
    mounted settings.productQueryEnabled (productQuery settings held engine xApiKey body)
  | .submit body =>
    mounted settings.productProvisionEnabled
      (productProvisionSubmit settings held engine db xApiKey body)
  | .cancel operationId body =>
    mounted settings.productProvisionEnabled
      (productProvisionCancel settings held engine db digits xApiKey operationId body)
  | .get operationId =>
    mounted settings.productProvisionEnabled
      (productProvisionGet settings held engine db digits xApiKey operationId)

/-! ### Authorisation -/

/-- The binding and the capability of the operation that a path names. -/
def addressedOperation (tables : Tables μ) (operationId : String) : Option (Uuid × String) := do
  let parsed ← Uuid.parse digits operationId
  let operation ← tables.operation parsed
  return (operation.capabilityBindingId, operation.capabilityId)

/-- The binding that a request addresses, with its capability: a query addresses what the module
prepares, a submission the stored binding, and the other two what the stored operation is of. -/
def ProductRequest.addressed (tables : Tables μ) (capabilities : CapabilityRegistry) :
    ProductRequest → Option (Uuid × String)
  | .query body => do
    let body ← body
    let prepared ←
      engine.prepareQuery tables body.capabilityBindingId body.payload capabilities
    return (body.capabilityBindingId, prepared.capabilityId)
  | .submit body => do
    let body ← body
    let binding ← tables.binding body.capabilityBindingId
    return (body.capabilityBindingId, binding.capabilityId)
  | .cancel operationId _ => addressedOperation digits tables operationId
  | .get operationId => addressedOperation digits tables operationId

/-- A caller holds the key that is presented and has the scope of the route, the addressed binding
is granted to it, and its application owns the addressed capability. -/
structure AuthorisedAs (tables : Tables μ) (request : ProductRequest)
    (caller : ProductQueryCaller) (capabilities : CapabilityRegistry) (binding : Uuid)
    (capability : String) : Prop where
  grants : Grants settings.productQueryCallers held (xApiKey.getD "") request.scope caller
  registry : engine.capabilityRegistry = some capabilities
  addressed : request.addressed engine digits tables capabilities = some (binding, capability)
  granted : binding ∈ caller.bindingIds.map identifier
  owner : capabilities capability = some caller.application

/-- A request is authorised. -/
def Authorised (tables : Tables μ) (request : ProductRequest) : Prop :=
  ∃ caller capabilities binding capability,
    AuthorisedAs settings held engine digits xApiKey tables request caller capabilities binding
      capability

/-- An answer with nothing of an operation, or of the result of a query. -/
def Bare : Except ProductRaised ProductAnswer → Prop
  | .error _ => True
  | .ok (.query _ response) => response = .invalidQuery ∨ response = .providerUnavailable
  | .ok (.provision _ shown) =>
    shown = { status := .refused } ∨ shown = { status := .unavailable }

/-- Something is done, changed or disclosed. -/
def Acts (tables : Tables μ)
    (run : Observed.Run (ProductEffect π) (Tables μ) (Except ProductRaised ProductAnswer)) :
    Prop :=
  run.seen ≠ [] ∨ run.left ≠ tables ∨ ¬ Bare run.answer

variable {settings held engine db digits xApiKey} {tables : Tables μ}

/-- Behind its guard a route is entered by a caller who holds the key and has the scope. -/
theorem guarded_entered {request : ProductRequest} {φ : Prop}
    {route : ProductPrincipal → ProductProgram μ π ProductRaised ProductAnswer}
    (h : ∀ caller,
      Grants settings.productQueryCallers held (xApiKey.getD "") request.scope caller →
        (route (principal caller)).Guarded φ Bare tables) :
    (Observed.ofExcept (guard settings held xApiKey request) >>= route).Guarded φ Bare tables := by
  apply Observed.Guarded.bind_ofExcept (fun _ _ => trivial)
  intro found hfound
  obtain ⟨caller, hgrants, rfl⟩ := grants_of_require hfound
  exact h caller hgrants

theorem addressedOperation_eq {operationId : String} {parsed : Uuid}
    {operation : ProvisionOperation} (hparsed : Uuid.parse digits operationId = some parsed)
    (hoperation : tables.operation parsed = some operation) :
    addressedOperation digits tables operationId =
      some (operation.capabilityBindingId, operation.capabilityId) := by
  unfold addressedOperation
  rw [hparsed, Option.bind_eq_bind, Option.bind_some, hoperation]
  rfl

/-- A query is checked by its route for the binding, and by its dispatcher for the owner. -/
theorem guarded_productQuery (body : Option ProductQueryRequest) :
    (productQuery settings held engine xApiKey body).Guarded
      (Authorised settings held engine digits xApiKey tables (.query body)) Bare tables := by
  apply guarded_entered
  intro caller hgrants
  apply Observed.Guarded.bind_ofExcept (fun _ _ => trivial)
  intro valid hvalid
  obtain rfl := Except.ofOption_eq_ok.mp hvalid
  split
  · exact (Observed.quiet_raise _).guarded trivial
  · next hgranted =>
    refine Observed.Guarded.andThen (?_ : Observed.Guarded _ BareQuery _ _) ?_ ?_
    · refine Observed.Guarded.catching (?_ : Observed.Guarded _ BareQuery _ _) ?_ ?_
      · apply guarded_dispatchQuery
        intro capabilities prepared hregistry hprepared howner
        refine ⟨caller, capabilities, valid.capabilityBindingId, prepared.capabilityId, hgrants,
          hregistry, ?_, not_not.mp hgranted, howner⟩
        exact Option.bind_eq_some_iff.mpr ⟨prepared, hprepared, rfl⟩
      · intro response hbare
        exact hbare
      · intro fault _
        exact (Observed.quiet_pure _).guarded (.inr rfl)
    · intro response hbare
      exact (Observed.quiet_pure _).guarded hbare
    · exact fun _ _ => trivial

/-- What a provision route answers of a view is as bare as the view. -/
theorem guarded_shown {φ : Prop} {t : ProductProgram μ π ProductRaised ProvisionOperationView}
    (h : t.Guarded φ BareView tables) (statusCode : ProvisionSubmitStatus → ℕ) :
    (do
      let shown ← t
      return .provision (statusCode shown.status) shown :
        ProductProgram μ π ProductRaised ProductAnswer).Guarded φ Bare tables := by
  apply h.andThen
  · intro shown hbare
    exact (Observed.quiet_pure _).guarded hbare
  · exact fun _ _ => trivial

/-- A submission is checked by its route for the binding, and by its dispatcher for the owner. -/
theorem guarded_productProvisionSubmit (body : Option ProvisionSubmitRequest) :
    (productProvisionSubmit settings held engine db xApiKey body).Guarded
      (Authorised settings held engine digits xApiKey tables (.submit body)) Bare tables := by
  apply guarded_entered
  intro caller hgrants
  apply Observed.Guarded.bind_ofExcept (fun _ _ => trivial)
  intro valid hvalid
  obtain rfl := Except.ofOption_eq_ok.mp hvalid
  split
  · exact (Observed.quiet_raise _).guarded trivial
  · next hgranted =>
    apply guarded_shown
    apply guarded_submit
    intro capabilities binding hregistry hbinding howner
    refine ⟨caller, capabilities, valid.capabilityBindingId, binding.capabilityId, hgrants,
      hregistry, ?_, not_not.mp hgranted, howner⟩
    exact Option.bind_eq_some_iff.mpr ⟨binding, hbinding, rfl⟩

/-- What is done with the operation in a path is checked against the stored operation, for the
binding and for the owner. -/
theorem guarded_operation {request : ProductRequest} {operationId : String}
    (haddressed : ∀ capabilities, request.addressed engine digits tables capabilities =
      addressedOperation digits tables operationId) {caller : ProductQueryCaller}
    (hgrants : Grants settings.productQueryCallers held (xApiKey.getD "") request.scope caller)
    (goesOn : ProvisionOperation → ProductProgram μ π Fault ProvisionOperationView)
    (statusCode : ProvisionSubmitStatus → ℕ) :
    (do
      let parsed ← .ofExcept (pathIdentifier digits operationId)
      let shown ← forOwned engine db caller.application parsed (principal caller).bindingIds goesOn
      return .provision (statusCode shown.status) shown :
        ProductProgram μ π ProductRaised ProductAnswer).Guarded
      (Authorised settings held engine digits xApiKey tables request) Bare tables := by
  apply Observed.Guarded.bind_ofExcept (fun _ _ => trivial)
  intro parsed hparsed
  apply guarded_shown
  apply guarded_forOwned
  intro capabilities operation hregistry hoperation hgranted howner
  refine ⟨caller, capabilities, operation.capabilityBindingId, operation.capabilityId, hgrants,
    hregistry, ?_, hgranted, howner⟩
  rw [haddressed]
  exact addressedOperation_eq (Except.ofOption_eq_ok.mp hparsed) hoperation

/-- A cancellation is checked by its dispatcher. -/
theorem guarded_productProvisionCancel (operationId : String)
    (body : Option ProvisionCancelRequest) :
    (productProvisionCancel settings held engine db digits xApiKey operationId body).Guarded
      (Authorised settings held engine digits xApiKey tables (.cancel operationId body)) Bare
      tables := by
  apply guarded_entered
  intro caller hgrants
  apply Observed.Guarded.bind_ofExcept (fun _ _ => trivial)
  intro valid _
  apply guarded_operation _ hgrants
  intro capabilities
  rw [ProductRequest.addressed]

/-- So is a look at an operation. -/
theorem guarded_productProvisionGet (operationId : String) :
    (productProvisionGet settings held engine db digits xApiKey operationId).Guarded
      (Authorised settings held engine digits xApiKey tables (.get operationId)) Bare tables := by
  apply guarded_entered
  intro caller hgrants
  apply guarded_operation _ hgrants
  intro capabilities
  rw [ProductRequest.addressed]

/-- A route that is not mounted does nothing. -/
theorem guarded_mounted {φ : Prop} {route : ProductProgram μ π ProductRaised ProductAnswer}
    (h : route.Guarded φ Bare tables) (enabled : Bool) :
    (mounted enabled route).Guarded φ Bare tables := by
  unfold mounted
  split
  · exact h
  · exact (Observed.quiet_raise _).guarded trivial

/-- A request is guarded by its authorisation. -/
theorem guarded_handle (request : ProductRequest) :
    (handle settings held engine db digits xApiKey request).Guarded
      (Authorised settings held engine digits xApiKey tables request) Bare tables := by
  cases request with
  | query body => exact guarded_mounted (guarded_productQuery body) _
  | submit body => exact guarded_mounted (guarded_productProvisionSubmit body) _
  | cancel operationId body =>
    exact guarded_mounted (guarded_productProvisionCancel operationId body) _
  | get operationId => exact guarded_mounted (guarded_productProvisionGet operationId) _

/-- **Nothing happens on the product surface without authorisation**: where a query is executed, a
secret is resolved, a provision is submitted, cancelled or shown, or anything is changed, the key
that was presented is held for a caller with the scope of the route, the addressed binding is
granted to that caller, and its application owns the addressed capability. -/
theorem authorised_of_acts (request : ProductRequest)
    (h : Acts tables ((handle settings held engine db digits xApiKey request).exec tables)) :
    Authorised settings held engine digits xApiKey tables request :=
  (guarded_handle request).holds h

/-! ### A query that is executed -/

/-- A caller with one granted binding. -/
def someCaller : ProductQueryCaller := erpCaller "env://INTEGRATOR_SECRET_CALLER" (by decide)

/-- Its query of that binding. -/
def someQuery : ProductRequest := .query (some ⟨identifier 1, [], Nat.zero_le 16⟩)

/-- A module with one capability, whose queries ask for one secret. -/
def querying : Engine Unit Unit where
  capabilityRegistry := some fun capability =>
    if capability = "messaging.receive.v1" then some "dotmac_erp" else none
  prepareQuery _ _ _ _ := some ⟨"messaging.receive.v1", ()⟩
  executePreparedQuery _ _ := .ask [(some "token", some "env://INTEGRATOR_SECRET_ERP")] fun given =>
    .done (given.map fun _ => ⟨.succeeded, some []⟩)
  submitProvisionOperation _ _ _ := .error .other
  requestProvisionCancel _ _ _ := none

/-- Tables without a row. -/
def noRows : Tables Unit := ⟨fun _ => none, fun _ => none, fun _ => [], ()⟩

theorem authorised_of_acts_someQuery :
    Authorised { productQueryEnabled := true, productQueryCallers := [someCaller] }
      [("env://INTEGRATOR_SECRET_CALLER", "caller-key"),
        ("env://INTEGRATOR_SECRET_ERP", "provider-key")]
      querying UnicodeDigits.latin1 (some "caller-key") noRows someQuery := by
  apply @authorised_of_acts Unit Unit _ _ _ ⟨true, true, true⟩
  -- the query is seen, and the secret it asks for
  left
  intro hquiet
  have hlength := congrArg List.length hquiet
  revert hlength
  decide +kernel

end DotmacIntegrator.ProductSurface
