import DotmacIntegrator.Configuration.Settings
import DotmacIntegrator.Foundation.Fallible
import DotmacIntegrator.Foundation.Uuid
import DotmacIntegrator.Secrets.Resolver

/-!
# The callers of the product surface

A caller presents a key, which is compared with what is held under the reference of every configured
caller. The last caller whose material it is, is taken, and its scopes decide.

## Main definitions

* `ProductPrincipal`, `authenticate`: who a key belongs to
* `require`: the guard of a route

## Main results

* `grants_of_authenticate`: a principal is that of a caller who holds the key and has the scope
-/

namespace DotmacIntegrator.ProductSurface

open DotmacIntegrator.Configuration
open DotmacIntegrator.Secrets

/-- Who a request comes from. -/
structure ProductPrincipal where
  application : String
  scopes : List String
  bindingIds : List Uuid

/-- A granted binding, as an identifier. -/
def identifier (binding : UUID) : Uuid := ⟨binding.toNat, binding.isLt⟩

/-- The principal of a caller. -/
def principal (caller : ProductQueryCaller) : ProductPrincipal where
  application := caller.application
  scopes := caller.scopes
  bindingIds := caller.bindingIds.map identifier

/-- What authenticating raises: `ProductAuthenticationFailed`, or the `TypeError` of comparing. -/
inductive AuthenticationFailure
  | productAuthenticationFailed
  | typeError
  deriving DecidableEq, Repr

variable (callers : List ProductQueryCaller) (held : Held) (presented requiredScope : String)

/-- One caller of the loop: it is taken if the key is what is held under its reference. -/
def compared (matched : Option ProductQueryCaller) (caller : ProductQueryCaller) :
    Except AuthenticationFailure (Option ProductQueryCaller) :=
  match held.get? caller.apiKeyRef with
  | none => .ok matched
  | some material =>
    match Text.compareDigest presented material with
    | none => .error .typeError
    | some same => .ok (if same then some caller else matched)

/-- `ProductAuthenticator.authenticate`. -/
def authenticate : Except AuthenticationFailure ProductPrincipal := do
  match ← callers.foldlM (compared held presented) none with
  | none => .error .productAuthenticationFailed
  | some caller =>
    if requiredScope ∈ caller.scopes then .ok (principal caller)
    else .error .productAuthenticationFailed

/-- What a route raises; a body that does not validate is refused by the framework. -/
inductive ProductRaised
  | httpException (status : ℕ) (detail : String)
  | requestValidationError
  | typeError
  deriving DecidableEq, Repr

/-- `_require`: a key that is not sent is presented as the empty one. -/
def require (xApiKey : Option String) : Except ProductRaised ProductPrincipal :=
  match authenticate callers held (xApiKey.getD "") requiredScope with
  | .ok found => .ok found
  | .error .productAuthenticationFailed =>
    .error (.httpException 401 "product authentication failed")
  | .error .typeError => .error .typeError

/-- A caller whose key is presented, and who has the scope. -/
structure Grants (caller : ProductQueryCaller) : Prop where
  mem : caller ∈ callers
  held : held.get? caller.apiKeyRef = some presented
  scope : requiredScope ∈ caller.scopes

variable {callers held presented requiredScope}

/-- Once a caller is taken, its material is what was presented. -/
def Taken (callers : List ProductQueryCaller) (held : Held) (presented : String)
    (matched : Option ProductQueryCaller) : Prop :=
  ∀ caller, matched = some caller →
    caller ∈ callers ∧ held.get? caller.apiKeyRef = some presented

/-- One comparison keeps what is taken. -/
theorem taken_of_compared {matched found : Option ProductQueryCaller}
    {caller : ProductQueryCaller} (hmem : caller ∈ callers)
    (hmatched : Taken callers held presented matched)
    (h : compared held presented matched caller = .ok found) :
    Taken callers held presented found := by
  unfold compared at h
  split at h
  · obtain rfl := Except.ok.inj h
    exact hmatched
  · next material hmaterial =>
    split at h
    · cases h
    · next same hsame =>
      obtain rfl := Except.ok.inj h
      cases same with
      | false => exact hmatched
      | true =>
        obtain rfl := Text.eq_of_compareDigest hsame
        rintro _ ⟨⟩
        exact ⟨hmem, hmaterial⟩

/-- **A principal is that of a caller** who holds the key and has the scope. -/
theorem grants_of_authenticate {found : ProductPrincipal}
    (h : authenticate callers held presented requiredScope = .ok found) :
    ∃ caller, Grants callers held presented requiredScope caller ∧ found = principal caller := by
  obtain ⟨matched, hmatched, hfound⟩ := Except.bind_eq_ok.mp h
  have htaken : Taken callers held presented matched := by
    apply Except.foldlM_preserves _ _ hmatched
    · intro _ _ caller hmem
      exact taken_of_compared hmem
    · exact nofun
  cases matched with
  | none => cases hfound
  | some caller =>
    obtain ⟨hmem, hheld⟩ := htaken caller rfl
    simp only at hfound
    split_ifs at hfound with hscope
    exact ⟨caller, ⟨hmem, hheld, hscope⟩, (Except.ok.inj hfound).symm⟩

/-- So is the principal a route is entered with. -/
theorem grants_of_require {xApiKey : Option String} {found : ProductPrincipal}
    (h : require callers held requiredScope xApiKey = .ok found) :
    ∃ caller, Grants callers held (xApiKey.getD "") requiredScope caller ∧
      found = principal caller := by
  unfold require at h
  split at h
  · next hfound =>
    obtain rfl := Except.ok.inj h
    exact grants_of_authenticate hfound
  · cases h
  · cases h

end DotmacIntegrator.ProductSurface
