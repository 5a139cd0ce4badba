import DotmacIntegrator.Foundation.Observed
import DotmacIntegrator.Operations.Surface
import DotmacIntegrator.ProductSurface.Authentication

/-!
# The dispatchers of the product surface

A dispatcher looks up what a request addresses, asks the capability registry who owns the addressed
capability, and goes on for the owner alone: a query is executed by the module, which asks for the
connector's secrets; a provision is submitted, cancelled or shown. Whatever is raised is normalised
to an answer without anything of the module in it.

## Main definitions

* `Engine`: the module, as it behaves while one request is handled
* `dispatchQuery`: `IntegrationQueryDispatcher.dispatch`
* `submit`, `cancel`, `get`: `IntegrationProvisionDispatcher`
* `ProductEffect`: what a dispatcher is seen to do

## Main results

* `guarded_dispatchQuery`, `guarded_submit`, `guarded_forOwned`: a dispatcher goes on for the owner
  alone
-/

namespace DotmacIntegrator.ProductSurface

open DotmacIntegrator.Secrets
open DotmacIntegrator.Operations (CapabilityBinding)

/-! ### Documents -/

/-- `ProductQueryStatus`. -/
inductive ProductQueryStatus
  | ok
  | providerUnavailable
  | unauthorizedProviderSession
  | notFound
  | invalidQuery
  | timeout
  | malformedProviderResponse
  deriving DecidableEq, Repr

/-- The status of a query that did not succeed, from the value the module gives. -/
def ProductQueryStatus.ofValue : String → Option ProductQueryStatus
  | "provider_unavailable" => some .providerUnavailable
  | "unauthorized_provider_session" => some .unauthorizedProviderSession
  | "not_found" => some .notFound
  | "invalid_query" => some .invalidQuery
  | "timeout" => some .timeout
  | "malformed_provider_response" => some .malformedProviderResponse
  | _ => none

/-- `ProductQueryRequest`. -/
structure ProductQueryRequest where
  capabilityBindingId : Uuid
  payload : Dict String Json
  payload_length : payload.length ≤ 16

/-- `ProductQueryResponse`: an observation comes with the status `ok`, and with no other. -/
structure ProductQueryResponse where
  status : ProductQueryStatus
  observation : Option (Dict String Json)
  observation_matches_status : observation.isSome ↔ status = .ok

/-- A response, unless its validator raises. -/
def ProductQueryResponse.build (status : ProductQueryStatus)
    (observation : Option (Dict String Json)) : Option ProductQueryResponse :=
  if h : observation.isSome ↔ status = .ok then some ⟨status, observation, h⟩ else none

/-- `ProductQueryResponse(status="invalid_query")`. -/
def ProductQueryResponse.invalidQuery : ProductQueryResponse := ⟨.invalidQuery, none, nofun, nofun⟩

/-- `ProductQueryResponse(status="provider_unavailable")`. -/
def ProductQueryResponse.providerUnavailable : ProductQueryResponse :=
  ⟨.providerUnavailable, none, nofun, nofun⟩

/-- `ProvisionStepDocument`. -/
structure ProvisionStepDocument where
  stepKey : String
  endpointCode : String
  dependsOn : List String
  input : Dict String Json
  stepKey_length : 1 ≤ stepKey.length ∧ stepKey.length ≤ 120
  endpointCode_length : 1 ≤ endpointCode.length ∧ endpointCode.length ≤ 160
  input_length : input.length ≤ 32

/-- `ProvisionSubmitRequest`. -/
structure ProvisionSubmitRequest where
  capabilityBindingId : Uuid
  commandId : String
  steps : List ProvisionStepDocument
  correlationId : Option String
  commandId_length : 1 ≤ commandId.length ∧ commandId.length ≤ 240
  steps_length : 1 ≤ steps.length ∧ steps.length ≤ 64
  correlationId_length : ∀ id ∈ correlationId, id.length ≤ 120

/-- `ProvisionCancelRequest`. -/
structure ProvisionCancelRequest where
  reason : String
  reason_length : reason.length ≤ 240

/-- `ProvisionSubmitStatus`. -/
inductive ProvisionSubmitStatus
  | accepted
  | conflict
  | refused
  | unavailable
  deriving DecidableEq, Repr

/-- `ProvisionOperationView`. -/
structure ProvisionOperationView where
  status : ProvisionSubmitStatus
  operationId : Option Uuid := none
  operationState : Option String := none
  stepsTotal : ℕ := 0
  stepsSettled : ℕ := 0
  deriving DecidableEq

/-! ### The module -/

/-- A row of the module's provision operations. -/
structure ProvisionOperation where
  id : Uuid
  capabilityBindingId : Uuid
  capabilityId : String
  state : String

/-- The tables: the rows the surface reads, the states of the step attempts of an operation, and
everything else. -/
structure Tables (μ : Type) where
  binding : Uuid → Option CapabilityBinding
  operation : Uuid → Option ProvisionOperation
  stepStates : Uuid → List String
  others : μ

/-- Whether the database lets a row be read by its key, the step attempts be selected, and the
session be committed; where it does not, it raises. -/
structure Connection where
  gets : Bool
  selects : Bool
  commits : Bool

/-- The capability registry: the application that owns a declared capability. For any other one
`get` raises. -/
abbrev CapabilityRegistry := String → Option String

/-- A query as the module prepares it, with whatever it keeps of it. -/
structure PreparedQuery (π : Type) where
  capabilityId : String
  kept : π

/-- The references a connector asks for: names and references, where they are strings. -/
abbrev QueryRefs := List (Option String × Option String)

/-- `QueryStatus`: success, or another value. -/
inductive QueryStatus
  | succeeded
  | other (value : String)

/-- The result of a query. -/
structure QueryResult where
  status : QueryStatus
  observation : Option (Dict String Json)

/-- What is raised: the conflict of a submission, or anything else. -/
inductive Fault
  | provisionConflict
  | other
  deriving DecidableEq, Repr

/-- `dotmac_integration`, as it behaves while one request is handled. The execution of a query asks
its caller for secrets; an operation of the module leaves the tables of the session, to be
committed. -/
structure Engine (μ π : Type) where
  capabilityRegistry : Option CapabilityRegistry
  prepareQuery : Tables μ → (capabilityBindingId : Uuid) → (payload : Dict String Json) →
    CapabilityRegistry → Option (PreparedQuery π)
  executePreparedQuery : PreparedQuery π → CapabilityRegistry →
    Callback QueryRefs (Option (Dict String String)) (Option QueryResult)
  submitProvisionOperation : ProvisionSubmitRequest → CapabilityRegistry → Tables μ →
    Except Fault (ProvisionOperation × Tables μ)
  requestProvisionCancel : ProvisionOperation → (reason : String) → Tables μ →
    Option (ProvisionOperation × Tables μ)

/-- What a dispatcher is seen to do. -/
inductive ProductEffect (π : Type)
  | queryExecuted (prepared : PreparedQuery π)
  | secretResolved (refs : QueryRefs)
  | operationSubmitted (request : ProvisionSubmitRequest)
  | cancelRequested (operation : ProvisionOperation)

/-! ### The dispatchers -/

variable {μ π ε α : Type}

/-- The programs of the surface. -/
abbrev ProductProgram (μ π ε α : Type) := Observed (ProductEffect π) (Tables μ) ε α

/-- A value of the module, which raises where there is none. -/
def fallible : Option α → Except Fault α := Except.ofOption .other

/-- `db.get`. -/
def Connection.get (db : Connection) (row : Option α) : Except Fault (Option α) :=
  if db.gets then .ok row else .error .other

/-- `db.commit()`. -/
def Connection.commit (db : Connection) (working : Tables μ) :
    ProductProgram μ π Fault Unit :=
  if db.commits then .put working else .raise .other

/-- `_resolve_query_secrets`: it raises unless names and references are strings, and held. -/
def resolveQuerySecrets (held : Held) (refs : QueryRefs) : Option (Dict String String) := do
  let pairs ← refs.mapM fun p => do return (← p.1, ← p.2)
  (resolveSecrets held (Dict.ofPairs pairs)).toOption

/-- The response to a result, unless its validator raises. -/
def queryResponse (result : QueryResult) : Option ProductQueryResponse :=
  match result.status with
  | .succeeded => ProductQueryResponse.build .ok result.observation
  | .other value =>
    match ProductQueryStatus.ofValue value with
    | none => ProductQueryResponse.build .malformedProviderResponse none
    | some status => ProductQueryResponse.build status result.observation

variable (engine : Engine μ π) (db : Connection) (held : Held) (application : String)

/-- What `IntegrationQueryDispatcher.dispatch` tries. -/
def tryQuery (request : ProductQueryRequest) :
    ProductProgram μ π Fault ProductQueryResponse := do
  let capabilities ← .ofExcept (fallible engine.capabilityRegistry)
  let tables ← .peek
  let prepared ← .ofExcept (fallible
    (engine.prepareQuery tables request.capabilityBindingId request.payload capabilities))
  let owner ← .ofExcept (fallible (capabilities prepared.capabilityId))
  if owner ≠ application then return .invalidQuery
  else do
    .emit (.queryExecuted prepared)
    let result ← Observed.asking .secretResolved (resolveQuerySecrets held)
      (engine.executePreparedQuery prepared capabilities)
    let result ← .ofExcept (fallible result)
    .ofExcept (fallible (queryResponse result))

/-- `IntegrationQueryDispatcher.dispatch`. -/
def dispatchQuery (request : ProductQueryRequest) :
    ProductProgram μ π ε ProductQueryResponse :=
  (tryQuery engine held application request).catching fun _ => return .providerUnavailable

/-- `_view`. -/
def view (tables : Tables μ) (operation : ProvisionOperation) (status : ProvisionSubmitStatus) :
    Except Fault ProvisionOperationView :=
  if db.selects then
    let rows := tables.stepStates operation.id
    .ok {
      status := status
      operationId := some operation.id
      operationState := some operation.state
      stepsTotal := rows.length
      stepsSettled := rows.countP (· ∈
        ["succeeded", "terminal", "cancelled", "reconciliation_required"]) }
  else .error .other

/-- What is raised, as `submit` answers it. -/
def submitCaught : Fault → ProvisionOperationView
  | .provisionConflict => { status := .conflict }
  | .other => { status := .unavailable }

/-- What `submit` tries. -/
def trySubmit (request : ProvisionSubmitRequest) :
    ProductProgram μ π Fault ProvisionOperationView := do
  let capabilities ← .ofExcept (fallible engine.capabilityRegistry)
  let tables ← .peek
  match ← .ofExcept (db.get (tables.binding request.capabilityBindingId)) with
  | none => return { status := .refused }
  | some binding =>
    let owner ← .ofExcept (fallible (capabilities binding.capabilityId))
    if owner ≠ application then return { status := .refused }
    else do
      .emit (.operationSubmitted request)
      let made ← .ofExcept (engine.submitProvisionOperation request capabilities tables)
      let shown ← .ofExcept (view db made.2 made.1 .accepted)
      db.commit made.2
      return shown

/-- `submit`. -/
def submit (request : ProvisionSubmitRequest) : ProductProgram μ π ε ProvisionOperationView :=
  (trySubmit engine db application request).catching fun fault => return submitCaught fault

/-- `_owned`. -/
def owned (operationId : Uuid) (bindingIds : List Uuid) :
    ProductProgram μ π Fault (Option ProvisionOperation) := do
  let tables ← .peek
  match ← .ofExcept (db.get (tables.operation operationId)) with
  | none => return none
  | some operation =>
    if operation.capabilityBindingId ∉ bindingIds then return none
    else do
      let capabilities ← .ofExcept (fallible engine.capabilityRegistry)
      let owner ← .ofExcept (fallible (capabilities operation.capabilityId))
      if owner ≠ application then return none else return some operation

/-- What is done with an operation, for its owner. -/
def forOwned (operationId : Uuid) (bindingIds : List Uuid)
    (goesOn : ProvisionOperation → ProductProgram μ π Fault ProvisionOperationView) :
    ProductProgram μ π ε ProvisionOperationView :=
  Observed.catching (do
    match ← owned engine db application operationId bindingIds with
    | none => return { status := .refused }
    | some operation => goesOn operation)
    fun _ => return { status := .unavailable }

/-- `cancel`. -/
def cancel (operationId : Uuid) (bindingIds : List Uuid) (reason : String) :
    ProductProgram μ π ε ProvisionOperationView :=
  forOwned engine db application operationId bindingIds fun operation => do
    .emit (.cancelRequested operation)
    let tables ← .peek
    let made ← .ofExcept (fallible (engine.requestProvisionCancel operation reason tables))
    let shown ← .ofExcept (view db made.2 made.1 .accepted)
    db.commit made.2
    return shown

/-- `get`. -/
def get (operationId : Uuid) (bindingIds : List Uuid) :
    ProductProgram μ π ε ProvisionOperationView :=
  forOwned engine db application operationId bindingIds fun operation => do
    let tables ← .peek
    .ofExcept (view db tables operation .accepted)

/-! ### Bare answers -/

/-- A query is answered without anything of its result. -/
def BareQuery : Except ε ProductQueryResponse → Prop
  | .error _ => True
  | .ok response => response = .invalidQuery ∨ response = .providerUnavailable

/-- A provision is answered without anything of an operation. -/
def BareView : Except ε ProvisionOperationView → Prop
  | .error _ => True
  | .ok shown => shown = { status := .refused } ∨ shown = { status := .unavailable }

/-- No operation is found. -/
def BareOwned : Except Fault (Option ProvisionOperation) → Prop
  | .error _ => True
  | .ok found => found = none

/-- Nothing of an operation is answered, and no submission was found to conflict. -/
def BareTry : Except Fault ProvisionOperationView → Prop
  | .error fault => fault = .other
  | .ok shown => shown = { status := .refused }

variable {engine db held application} {tables : Tables μ} {φ : Prop}

theorem get_eq_ok {row found : Option α} (h : db.get row = .ok found) : found = row := by
  unfold Connection.get at h
  split at h
  · exact (Except.ok.inj h).symm
  · cases h

theorem get_eq_error {row : Option α} {fault : Fault} (h : db.get row = .error fault) :
    fault = .other := by
  unfold Connection.get at h
  split at h
  · cases h
  · exact (Except.error.inj h).symm

/-! ### Dispatchers go on for the owner -/

/-- A query is executed for the owner of the capability it was prepared for. -/
theorem guarded_tryQuery {request : ProductQueryRequest}
    (h : ∀ capabilities prepared, engine.capabilityRegistry = some capabilities →
      engine.prepareQuery tables request.capabilityBindingId request.payload capabilities =
        some prepared →
      capabilities prepared.capabilityId = some application → φ) :
    (tryQuery engine held application request).Guarded φ BareQuery tables := by
  apply Observed.Guarded.bind_ofExcept (fun _ _ => trivial)
  intro capabilities hcapabilities
  apply Observed.Guarded.bind Observed.quiet_peek
  apply Observed.Guarded.bind_ofExcept (fun _ _ => trivial)
  intro prepared hprepared
  apply Observed.Guarded.bind_ofExcept (fun _ _ => trivial)
  intro owner howner
  split
  · exact (Observed.quiet_pure _).guarded (.inl rfl)
  · next howns =>
    obtain rfl := not_not.mp howns
    exact .inl (h capabilities prepared (Except.ofOption_eq_ok.mp hcapabilities)
      (Except.ofOption_eq_ok.mp hprepared) (Except.ofOption_eq_ok.mp howner))

theorem guarded_dispatchQuery {request : ProductQueryRequest}
    (h : ∀ capabilities prepared, engine.capabilityRegistry = some capabilities →
      engine.prepareQuery tables request.capabilityBindingId request.payload capabilities =
        some prepared →
      capabilities prepared.capabilityId = some application → φ) :
    (dispatchQuery engine held application request : ProductProgram μ π ε _).Guarded φ BareQuery
      tables := by
  refine Observed.Guarded.catching (guarded_tryQuery h) ?_ ?_
  · intro response hbare
    exact hbare
  · intro fault _
    exact (Observed.quiet_pure _).guarded (.inr rfl)

/-- A provision is submitted for the owner of the capability of the addressed binding. -/
theorem guarded_trySubmit {request : ProvisionSubmitRequest}
    (h : ∀ capabilities binding, engine.capabilityRegistry = some capabilities →
      tables.binding request.capabilityBindingId = some binding →
      capabilities binding.capabilityId = some application → φ) :
    (trySubmit engine db application request).Guarded φ BareTry tables := by
  apply Observed.Guarded.bind_ofExcept (fun _ => Except.ofOption_eq_error)
  intro capabilities hcapabilities
  apply Observed.Guarded.bind Observed.quiet_peek
  apply Observed.Guarded.bind_ofExcept (fun _ => get_eq_error)
  intro found hfound
  cases found with
  | none => exact (Observed.quiet_pure _).guarded rfl
  | some binding =>
    apply Observed.Guarded.bind_ofExcept (fun _ => Except.ofOption_eq_error)
    intro owner howner
    split
    · exact (Observed.quiet_pure _).guarded rfl
    · next howns =>
      obtain rfl := not_not.mp howns
      exact .inl (h capabilities binding (Except.ofOption_eq_ok.mp hcapabilities)
        (get_eq_ok hfound).symm (Except.ofOption_eq_ok.mp howner))

theorem guarded_submit {request : ProvisionSubmitRequest}
    (h : ∀ capabilities binding, engine.capabilityRegistry = some capabilities →
      tables.binding request.capabilityBindingId = some binding →
      capabilities binding.capabilityId = some application → φ) :
    (submit engine db application request : ProductProgram μ π ε _).Guarded φ BareView
      tables := by
  refine Observed.Guarded.catching (guarded_trySubmit h) ?_ ?_
  · intro shown hbare
    exact .inl hbare
  · intro fault hbare
    obtain rfl := hbare
    exact (Observed.quiet_pure _).guarded (.inr rfl)

/-- An operation is found for the owner of its capability, where its binding is granted. -/
theorem guarded_owned {operationId : Uuid} {bindingIds : List Uuid}
    (h : ∀ capabilities operation, engine.capabilityRegistry = some capabilities →
      tables.operation operationId = some operation →
      operation.capabilityBindingId ∈ bindingIds →
      capabilities operation.capabilityId = some application → φ) :
    (owned engine db application operationId bindingIds).Guarded φ BareOwned tables := by
  apply Observed.Guarded.bind Observed.quiet_peek
  apply Observed.Guarded.bind_ofExcept (fun _ _ => trivial)
  intro found hfound
  cases found with
  | none => exact (Observed.quiet_pure _).guarded rfl
  | some operation =>
    simp only
    split
    · exact (Observed.quiet_pure _).guarded rfl
    · next hgranted =>
      apply Observed.Guarded.bind_ofExcept (fun _ _ => trivial)
      intro capabilities hcapabilities
      apply Observed.Guarded.bind_ofExcept (fun _ _ => trivial)
      intro owner howner
      split
      · exact (Observed.quiet_pure _).guarded rfl
      · next howns =>
        obtain rfl := not_not.mp howns
        exact .inl (h capabilities operation (Except.ofOption_eq_ok.mp hcapabilities)
          (get_eq_ok hfound).symm (not_not.mp hgranted) (Except.ofOption_eq_ok.mp howner))

/-- What is done with an operation is done for its owner, so that a cancel and a look at an
operation are guarded alike. -/
theorem guarded_forOwned {operationId : Uuid} {bindingIds : List Uuid}
    {goesOn : ProvisionOperation → ProductProgram μ π Fault ProvisionOperationView}
    (h : ∀ capabilities operation, engine.capabilityRegistry = some capabilities →
      tables.operation operationId = some operation →
      operation.capabilityBindingId ∈ bindingIds →
      capabilities operation.capabilityId = some application → φ) :
    (forOwned engine db application operationId bindingIds goesOn :
      ProductProgram μ π ε _).Guarded φ BareView tables := by
  refine Observed.Guarded.catching (?_ : Observed.Guarded _ BareView _ _) ?_ ?_
  · refine Observed.Guarded.andThen (guarded_owned h) ?_ ?_
    · rintro _ rfl
      exact (Observed.quiet_pure _).guarded (.inl rfl)
    · exact fun _ _ => trivial
  · intro shown hbare
    exact hbare
  · intro fault _
    exact (Observed.quiet_pure _).guarded (.inr rfl)

end DotmacIntegrator.ProductSurface
