import DotmacIntegrator.ProductSurface.Routes

/-!
# Operations of others

The two routes of a single operation answer a caller alike whatever the operations of others are: an
operation that is missing, and one whose binding is not granted to the caller, are refused before
anything else is asked about them.

## Main definitions

* `SameFor`: tables that agree on the operations of the granted bindings
* `Unchanged`: the operations of other bindings stay
* `CancelsOne`: what the module's cancellation touches

## Main results

* `alike_forOwned`: what is done for the owner of an operation is answered alike
* `operations_of_others_hidden`: what the routes answer, and what they leave
-/

namespace DotmacIntegrator.ProductSurface

open DotmacIntegrator.Configuration
open DotmacIntegrator.Secrets
open DotmacIntegrator.Operations (CapabilityBinding)
open Observed (Alike)

variable {μ π ε : Type}

/-- What the tables hold besides the operations and their steps. -/
def Tables.rest (tables : Tables μ) : (Uuid → Option CapabilityBinding) × μ :=
  (tables.binding, tables.others)

variable (same : (Uuid → Option CapabilityBinding) × μ →
  (Uuid → Option CapabilityBinding) × μ → Prop)

/-- The tables agree on the operations of some bindings, and on their steps. Of other operations
they may hold anything; what else they hold is the same in the sense of `same`. -/
structure SameFor (bindingIds : List Uuid) (tables tables' : Tables μ) : Prop where
  rows : ∀ id operation, operation.capabilityBindingId ∈ bindingIds →
    (tables.operation id = some operation ↔ tables'.operation id = some operation)
  steps : ∀ id operation, operation.capabilityBindingId ∈ bindingIds →
    tables.operation id = some operation → tables.stepStates id = tables'.stepStates id
  rest : same tables.rest tables'.rest

/-- An operation is stored under its identifier. -/
def Keyed (tables : Tables μ) : Prop :=
  ∀ id operation, tables.operation id = some operation → operation.id = id

/-- No operation of another binding is changed, added or removed, nor are its steps. -/
def Unchanged (bindingIds : List Uuid) (tables left : Tables μ) : Prop :=
  ∀ id, (∀ operation, tables.operation id = some operation →
      operation.capabilityBindingId ∉ bindingIds) →
    left.operation id = tables.operation id ∧ left.stepStates id = tables.stepStates id

/-- The operation as it is cancelled, and its steps. -/
def cancelled (made : ProvisionOperation × Tables μ) : ProvisionOperation × List String :=
  (made.1, made.2.stepStates made.1.id)

/-- `request_provision_cancel` writes the operation it is given and its steps, and what it makes of
them does not depend on other operations. -/
structure CancelsOne (engine : Engine μ π) : Prop where
  frame : ∀ operation reason tables made,
    engine.requestProvisionCancel operation reason tables = some made →
      ∀ id, id ≠ operation.id → made.2.operation id = tables.operation id ∧
        made.2.stepStates id = tables.stepStates id
  own : ∀ operation reason (tables tables' : Tables μ),
    tables.operation operation.id = tables'.operation operation.id →
    tables.stepStates operation.id = tables'.stepStates operation.id →
    same tables.rest tables'.rest →
      (engine.requestProvisionCancel operation reason tables).map cancelled =
        (engine.requestProvisionCancel operation reason tables').map cancelled

variable {same} {engine : Engine μ π} {db : Connection} {application : String}
  {bindingIds : List Uuid} {tables tables' : Tables μ}

/-- What two runs of the caller leave. -/
def Left (bindingIds : List Uuid) (tables tables' left left' : Tables μ) : Prop :=
  Unchanged bindingIds tables left ∧ Unchanged bindingIds tables' left'

theorem left_self : Left bindingIds tables tables' tables tables' :=
  ⟨fun _ _ => ⟨rfl, rfl⟩, fun _ _ => ⟨rfl, rfl⟩⟩

/-- An operation with a granted binding is found in both tables, or in neither. -/
theorem SameFor.granted (h : SameFor same bindingIds tables tables') (id : Uuid) :
    (∃ operation, operation.capabilityBindingId ∈ bindingIds ∧
      tables.operation id = some operation ∧ tables'.operation id = some operation) ∨
    ((∀ operation, tables.operation id = some operation →
        operation.capabilityBindingId ∉ bindingIds) ∧
      ∀ operation, tables'.operation id = some operation →
        operation.capabilityBindingId ∉ bindingIds) := by
  by_cases hfound : ∃ operation, operation.capabilityBindingId ∈ bindingIds ∧
      tables.operation id = some operation
  · obtain ⟨operation, hgranted, hrow⟩ := hfound
    exact .inl ⟨operation, hgranted, hrow, (h.rows id operation hgranted).mp hrow⟩
  · right
    constructor
    · intro operation hrow hgranted
      exact hfound ⟨operation, hgranted, hrow⟩
    · intro operation hrow hgranted
      exact hfound ⟨operation, hgranted, (h.rows id operation hgranted).mpr hrow⟩

/-- What `_owned` makes of a stored row. -/
def ownedRow (engine : Engine μ π) (db : Connection) (application : String)
    (bindingIds : List Uuid) (row : Option ProvisionOperation) :
    Except Fault (Option ProvisionOperation) := do
  match ← db.get row with
  | none => return none
  | some operation =>
    if operation.capabilityBindingId ∉ bindingIds then return none
    else do
      let capabilities ← fallible engine.capabilityRegistry
      let owner ← fallible (capabilities operation.capabilityId)
      if owner ≠ application then return none else return some operation

/-- What is looked up depends on the addressed row alone. -/
theorem quiet_owned (operationId : Uuid) :
    (owned engine db application operationId bindingIds).Quiet tables
      (ownedRow engine db application bindingIds (tables.operation operationId)) := by
  apply Observed.Quiet.bind Observed.quiet_peek
  apply Observed.exec_bind_quiet (Observed.quiet_ofExcept _)
  intro found
  cases found with
  | none => exact Observed.quiet_pure _
  | some operation =>
    simp only
    split
    · exact Observed.quiet_pure _
    · apply Observed.exec_bind_quiet (Observed.quiet_ofExcept _)
      intro capabilities
      apply Observed.exec_bind_quiet (Observed.quiet_ofExcept _)
      intro owner
      split
      · exact Observed.quiet_pure _
      · exact Observed.quiet_pure _

/-- A row of another binding is none. -/
theorem ownedRow_of_foreign {row : Option ProvisionOperation}
    (h : ∀ operation, row = some operation → operation.capabilityBindingId ∉ bindingIds) :
    ownedRow engine db application bindingIds row =
      ownedRow engine db application bindingIds none := by
  cases row with
  | none => rfl
  | some operation =>
    unfold ownedRow Connection.get
    split
    · exact if_pos (h operation rfl)
    · rfl

/-- An operation that is found is the addressed one, and its binding is granted. -/
theorem of_ownedRow {row : Option ProvisionOperation} {operation : ProvisionOperation}
    (h : ownedRow engine db application bindingIds row = .ok (some operation)) :
    row = some operation ∧ operation.capabilityBindingId ∈ bindingIds := by
  obtain ⟨found, hfound, hchecked⟩ := Except.bind_eq_ok.mp h
  obtain rfl := get_eq_ok hfound
  cases found with
  | none => cases hchecked
  | some found =>
    simp only at hchecked
    split at hchecked
    · cases hchecked
    · next hgranted =>
      obtain ⟨capabilities, -, howned⟩ := Except.bind_eq_ok.mp hchecked
      obtain ⟨owner, -, howned⟩ := Except.bind_eq_ok.mp howned
      split at howned
      · cases howned
      · obtain rfl := Option.some.inj (Except.ok.inj howned)
        exact ⟨rfl, not_not.mp hgranted⟩

/-- The same is looked up in both tables. -/
theorem SameFor.ownedRow_eq (h : SameFor same bindingIds tables tables') (operationId : Uuid) :
    ownedRow engine db application bindingIds (tables.operation operationId) =
      ownedRow engine db application bindingIds (tables'.operation operationId) := by
  rcases h.granted operationId with ⟨operation, -, hrow, hrow'⟩ | ⟨hforeign, hforeign'⟩
  · rw [hrow, hrow']
  · rw [ownedRow_of_foreign hforeign, ownedRow_of_foreign hforeign']

/-- What is done for the owner of an operation is answered alike, where it is for every operation of
a granted binding. -/
theorem alike_forOwned (h : SameFor same bindingIds tables tables') {operationId : Uuid}
    {goesOn : ProvisionOperation → ProductProgram μ π Fault ProvisionOperationView}
    (hgoesOn : ∀ operation, tables.operation operationId = some operation →
      operation.capabilityBindingId ∈ bindingIds →
        Alike (Left bindingIds tables tables') (goesOn operation) (goesOn operation)
          tables tables') :
    Alike (Left bindingIds tables tables')
      (forOwned engine db application operationId bindingIds goesOn : ProductProgram μ π ε _)
      (forOwned engine db application operationId bindingIds goesOn) tables tables' := by
  have hquiet := @quiet_owned _ _ engine db application bindingIds tables operationId
  have hquiet' := @quiet_owned _ _ engine db application bindingIds tables' operationId
  rw [← h.ownedRow_eq operationId] at hquiet'
  apply Alike.catching
  · cases hfound : ownedRow engine db application bindingIds (tables.operation operationId) with
    | error fault =>
      rw [hfound] at hquiet hquiet'
      exact hquiet.bind_error.alike hquiet'.bind_error left_self
    | ok found =>
      rw [hfound] at hquiet hquiet'
      apply Alike.bind_quiet hquiet hquiet'
      cases found with
      | none => exact Observed.alike_pure _ left_self
      | some operation =>
        obtain ⟨hrow, hgranted⟩ := of_ownedRow hfound
        exact hgoesOn operation hrow hgranted
  · intro fault left left' hleft
    exact Observed.alike_pure _ hleft

/-! ### The two routes -/

/-- A view shows the operation and its steps. -/
theorem view_congr {operation : ProvisionOperation} (status : ProvisionSubmitStatus)
    (h : tables.stepStates operation.id = tables'.stepStates operation.id) :
    view db tables operation status = view db tables' operation status := by
  rw [view, view, h]

/-- A look at an operation is answered alike. -/
theorem alike_get (h : SameFor same bindingIds tables tables') (hkeyed : Keyed tables)
    (operationId : Uuid) :
    Alike (Left bindingIds tables tables')
      (get engine db application operationId bindingIds : ProductProgram μ π ε _)
      (get engine db application operationId bindingIds) tables tables' := by
  apply alike_forOwned h
  intro operation hrow hgranted
  apply Alike.bind_peek
  have hsteps := h.steps operationId operation hgranted hrow
  rw [← hkeyed operationId operation hrow] at hsteps
  rw [view_congr .accepted hsteps]
  exact (Observed.quiet_ofExcept _).alike (Observed.quiet_ofExcept _) left_self

/-- What the module makes of an operation with a granted binding leaves the others. -/
theorem CancelsOne.unchanged (hcancel : CancelsOne same engine) {operation : ProvisionOperation}
    (hgranted : operation.capabilityBindingId ∈ bindingIds)
    (hrow : tables.operation operation.id = some operation) {reason : String}
    {made : ProvisionOperation × Tables μ}
    (h : engine.requestProvisionCancel operation reason tables = some made) :
    Unchanged bindingIds tables made.2 := by
  intro id hforeign
  apply hcancel.frame operation reason tables made h
  rintro rfl
  exact hforeign operation hrow hgranted

/-- A cancellation is answered alike. -/
theorem alike_cancel (hcancel : CancelsOne same engine) (h : SameFor same bindingIds tables tables')
    (hkeyed : Keyed tables) (operationId : Uuid) (reason : String) :
    Alike (Left bindingIds tables tables')
      (cancel engine db application operationId bindingIds reason : ProductProgram μ π ε _)
      (cancel engine db application operationId bindingIds reason) tables tables' := by
  apply alike_forOwned h
  intro operation hrow hgranted
  have hsteps := h.steps operationId operation hgranted hrow
  have hrow' := (h.rows operationId operation hgranted).mp hrow
  obtain rfl := hkeyed operationId operation hrow
  have hmade := hcancel.own operation reason tables tables' (hrow.trans hrow'.symm) hsteps h.rest
  apply Alike.bind_emit
  apply Alike.bind_peek
  cases hcancelled : engine.requestProvisionCancel operation reason tables with
  | none =>
    rw [hcancelled, Option.map_none, eq_comm, Option.map_eq_none_iff] at hmade
    rw [hmade]
    exact Alike.bind_ofExcept left_self nofun
  | some made =>
    rw [hcancelled, Option.map_some, eq_comm, Option.map_eq_some_iff] at hmade
    obtain ⟨made', hcancelled', hsame⟩ := hmade
    obtain ⟨hoperation, hstates⟩ := Prod.mk.inj hsame
    have hview : view db made'.2 made'.1 .accepted = view db made.2 made.1 .accepted := by
      rw [hoperation] at hstates ⊢
      exact view_congr .accepted hstates
    have hleft : Left bindingIds tables tables' made.2 made'.2 :=
      ⟨hcancel.unchanged hgranted hrow hcancelled, hcancel.unchanged hgranted hrow' hcancelled'⟩
    rw [hcancelled']
    change Alike _ (Observed.ofExcept (view db made.2 made.1 .accepted) >>= _)
      (Observed.ofExcept (view db made'.2 made'.1 .accepted) >>= _) _ _
    rw [hview]
    apply Alike.bind_ofExcept left_self
    intro shown _
    unfold Connection.commit
    split
    · exact (Observed.alike_put hleft).bind fun _ _ _ => Observed.alike_pure shown
    · exact (Observed.alike_raise _ left_self).bind fun _ _ _ => Observed.alike_pure shown

/-! ### Requests -/

/-- A request about one operation. -/
def ProductRequest.AboutOperation : ProductRequest → Prop
  | .cancel _ _ | .get _ => True
  | .query _ | .submit _ => False

variable {settings : Settings} {held : Held} {digits : UnicodeDigits} {xApiKey : Option String}

/-- A provision route answers alike what is found alike. -/
theorem alike_shown {t t' : ProductProgram μ π ProductRaised ProvisionOperationView}
    (h : Alike (Left bindingIds tables tables') t t' tables tables')
    (statusCode : ProvisionSubmitStatus → ℕ) :
    Alike (Left bindingIds tables tables')
      (do
        let shown ← t
        return .provision (statusCode shown.status) shown :
          ProductProgram μ π ProductRaised ProductAnswer)
      (do
        let shown ← t'
        return .provision (statusCode shown.status) shown) tables tables' :=
  h.bind fun _ _ _ => Observed.alike_pure _

theorem alike_mounted {route : ProductProgram μ π ProductRaised ProductAnswer}
    (h : Alike (Left bindingIds tables tables') route route tables tables') (enabled : Bool) :
    Alike (Left bindingIds tables tables') (mounted enabled route) (mounted enabled route) tables
      tables' := by
  unfold mounted
  split
  · exact h
  · exact Observed.alike_raise _ left_self

/-- A request about one operation is handled alike. -/
theorem alike_handle (hcancel : CancelsOne same engine) {request : ProductRequest}
    (hrequest : request.AboutOperation) {found : ProductPrincipal}
    (hfound : guard settings held xApiKey request = .ok found)
    (hsame : SameFor same found.bindingIds tables tables') (hkeyed : Keyed tables) :
    Alike (Left found.bindingIds tables tables')
      (handle settings held engine db digits xApiKey request)
      (handle settings held engine db digits xApiKey request) tables tables' := by
  cases request with
  | query body => cases hrequest
  | submit body => cases hrequest
  | cancel operationId body =>
    apply alike_mounted
    unfold productProvisionCancel
    rw [hfound]
    apply Alike.bind_quiet (Observed.quiet_ofExcept _) (Observed.quiet_ofExcept _)
    apply Alike.bind_ofExcept left_self
    intro valid _
    apply Alike.bind_ofExcept left_self
    intro parsed _
    exact alike_shown (alike_cancel hcancel hsame hkeyed parsed valid.reason) _
  | get operationId =>
    apply alike_mounted
    unfold productProvisionGet
    rw [hfound]
    apply Alike.bind_quiet (Observed.quiet_ofExcept _) (Observed.quiet_ofExcept _)
    apply Alike.bind_ofExcept left_self
    intro parsed _
    exact alike_shown (alike_get hsame hkeyed parsed) _

/-- **The operations of others are hidden.** On two databases that agree on the operations of the
bindings granted to a caller, the caller is answered alike, and neither loses or changes an
operation of another binding. -/
theorem operations_of_others_hidden (settings : Settings) (held : Held) (engine : Engine μ π)
    (db : Connection) (digits : UnicodeDigits) (xApiKey : Option String)
    (hcancel : CancelsOne same engine) (request : ProductRequest)
    (hrequest : request.AboutOperation) (found : ProductPrincipal)
    (hfound : guard settings held xApiKey request = .ok found) (tables tables' : Tables μ)
    (hsame : SameFor same found.bindingIds tables tables') (hkeyed : Keyed tables) :
    let run := (handle settings held engine db digits xApiKey request).exec
    (run tables).answer = (run tables').answer ∧
      Unchanged found.bindingIds tables (run tables).left ∧
      Unchanged found.bindingIds tables' (run tables').left :=
  alike_handle hcancel hrequest hfound hsame hkeyed

/-! ### A cancellation beside an operation of another binding -/

/-- A module that cancels an operation with the steps of it that are pending. -/
def cancelling : Engine Unit Unit :=
  { querying with
    requestProvisionCancel := fun operation _ tables =>
      some ({ operation with state := "cancelled" },
        { tables with
          operation := Function.update tables.operation operation.id
            (some { operation with state := "cancelled" })
          stepStates := Function.update tables.stepStates operation.id
            ((tables.stepStates operation.id).map fun state =>
              if state = "pending" then "cancelled" else state) }) }

theorem cancelsOne_cancelling : CancelsOne (fun _ _ => True) cancelling where
  frame := by
    rintro operation reason tables made ⟨⟩ id hid
    exact ⟨Function.update_of_ne hid _ _, Function.update_of_ne hid _ _⟩
  own := by
    intro operation reason tables tables' _ hsteps _
    simp [cancelling, cancelled, hsteps]

/-- An operation of a binding. -/
def operationOf (id : Uuid) (binding : UUID) : ProvisionOperation :=
  ⟨id, identifier binding, "messaging.receive.v1", "running"⟩

/-- The operation of a caller, with what is stored beside it: another operation, or none. -/
def besideOperation (other : Option ProvisionOperation) : Tables Unit :=
  { noRows with
    operation := fun id =>
      if id = identifier 7 then some (operationOf (identifier 7) 1)
      else if id = identifier 8 then other else none
    stepStates := fun id => if id = identifier 8 ∧ other.isNone then [] else ["pending"] }

/-- An operation of another binding. -/
def otherOperation : ProvisionOperation := operationOf (identifier 8) 2

theorem keyed_besideOperation : Keyed (besideOperation (some otherOperation)) := by
  intro id operation hrow
  simp only [besideOperation] at hrow
  split_ifs at hrow with hown hother
  · rw [← Option.some.inj hrow, hown]
    rfl
  · rw [← Option.some.inj hrow, hother]
    rfl

/-- Whether the other operation exists makes no difference to the caller's. -/
theorem sameFor_besideOperation : SameFor (fun _ _ => True) (principal someCaller).bindingIds
    (besideOperation (some otherOperation)) (besideOperation none) := by
  have hother : otherOperation.capabilityBindingId ∉ (principal someCaller).bindingIds := by decide
  refine ⟨?_, ?_, trivial⟩
  · intro id operation hgranted
    simp only [besideOperation]
    split_ifs
    · rfl
    · refine iff_of_false ?_ nofun
      rintro ⟨⟩
      exact hother hgranted
    · rfl
  · intro id operation hgranted hrow
    simp only [besideOperation] at hrow ⊢
    split_ifs at hrow with hown hforeign
    · rw [hown]
      decide
    · obtain rfl := Option.some.inj hrow
      exact absurd hgranted hother

/-- A cancellation of the caller's operation. -/
def cancelOwn : ProductRequest :=
  .cancel "00000000-0000-0000-0000-000000000007" (some ⟨"", by decide⟩)

theorem operations_of_others_hidden_cancelOwn :
    let run := (handle { productProvisionEnabled := true, productQueryCallers := [someCaller] }
      [("env://INTEGRATOR_SECRET_CALLER", "caller-key")] cancelling ⟨true, true, true⟩
      UnicodeDigits.latin1 (some "caller-key") cancelOwn).exec
    (run (besideOperation (some otherOperation))).answer =
        (run (besideOperation none)).answer ∧
      (run (besideOperation (some otherOperation))).left.operation (identifier 8) =
        some otherOperation := by
  obtain ⟨hanswer, hunchanged, -⟩ := operations_of_others_hidden
    { productProvisionEnabled := true, productQueryCallers := [someCaller] }
    [("env://INTEGRATOR_SECRET_CALLER", "caller-key")] cancelling ⟨true, true, true⟩
    UnicodeDigits.latin1 (some "caller-key") cancelsOne_cancelling cancelOwn trivial
    (principal someCaller) rfl _ _ sameFor_besideOperation keyed_besideOperation
  refine ⟨hanswer, (hunchanged (identifier 8) ?_).1⟩
  rintro operation ⟨⟩
  decide

end DotmacIntegrator.ProductSurface
