import DotmacIntegrator.ProductPort.Envelope

/-!
# Addressing a delivery

A client serves one application. What it posts to, and the members of the envelope that address
the destination, come from the destination the claim resolved.

## Main definitions

* `ObservationPortClient`: a client, with its mode
* `address`: the URL and the document of a request

## Main results

* `address_eq_ok`: when a request is addressable
* `payload_cannot_redirect`: no observation reaches an addressing field
-/

namespace DotmacIntegrator.ProductPort

/-- Which of the destination's two ports a client speaks to. -/
inductive ProductPortMode
  | write
  | mirror
  deriving DecidableEq, Repr

/-- A client for one destination application. -/
structure ObservationPortClient where
  application : String
  base : String
  apiKeyRef : String
  mode : ProductPortMode
  timeout : PyFloat

/-- Whether the client may settle a receipt as delivered. -/
def ObservationPortClient.writes (client : ObservationPortClient) : Bool := client.mode = .write

/-- A receipt that cannot be addressed. -/
inductive UnmappedDestinationBinding
  | otherApplication (serves names : String)
  | noDescriptor (binding : String)
  | notEligible (state : String) (mirror : Bool)
  deriving DecidableEq, Repr

/-- The text of the refusal. -/
def UnmappedDestinationBinding.message (printable : Char → Bool) :
    UnmappedDestinationBinding → String
  | otherApplication serves found =>
    s!"this client serves {PyRepr.string printable serves} and the resolved binding names " ++
    s!"{PyRepr.string printable found}. One application has one authenticated client"
  | noDescriptor binding =>
    s!"local capability binding {binding} has no reconciled product-owned port descriptor"
  | notEligible state mirror =>
    s!"the product declares its port {PyRepr.string printable state}; it is not eligible for " ++
      (if mirror then "mirror" else "write") ++ " delivery"

/-- What addressing a request may raise. -/
inductive AddressError (ε : Type*)
  | unmapped (reason : UnmappedDestinationBinding)
  | build (reason : BuildError ε)
  deriving DecidableEq

variable (rt : Runtime) {ε : Type}
  (productObservationDocument : ProductRequest → Except ε (Dict String Json))
  (client : ObservationPortClient)

/-- The states of a port that is eligible for a pass. -/
def allowedStates (mirror : Bool) : List String :=
  if mirror then ["configured_disabled", "enabled"] else ["enabled"]

/-- The descriptor of an eligible port. -/
def eligiblePort (request : ProductRequest) (mirror : Bool) :
    Except UnmappedDestinationBinding ProductPortDescriptor :=
  if request.destination.application ≠ client.application then
    .error (.otherApplication client.application request.destination.application)
  else
    match request.destination.productPort with
    | none => .error (.noDescriptor request.destination.capabilityBindingId)
    | some descriptor =>
      if descriptor.activationState ∉ allowedStates mirror then
        .error (.notEligible descriptor.activationState mirror)
      else .ok descriptor

/-- `_address`: the URL and the document of a request. -/
def address (request : ProductRequest) (mirror : Bool) :
    Except (AddressError ε) (String × Dict String Json) := do
  let descriptor ← (eligiblePort client request mirror).mapError .unmapped
  let document ← (buildProductDocument rt productObservationDocument request).mapError .build
  return (client.base ++ (if mirror then descriptor.mirrorPath else descriptor.deliveryPath),
    document)

variable {rt productObservationDocument client}

/-- A request is addressable iff its port is eligible and its document can be built. -/
theorem address_eq_ok {request : ProductRequest} {mirror : Bool} {url : String}
    {document : Dict String Json} :
    address rt productObservationDocument client request mirror = .ok (url, document) ↔
      ∃ descriptor, eligiblePort client request mirror = .ok descriptor ∧
        url = client.base ++ (if mirror then descriptor.mirrorPath else descriptor.deliveryPath) ∧
        buildProductDocument rt productObservationDocument request = .ok document := by
  simp only [address, Except.bind_eq_ok, Except.mapError_eq_ok, pure, Except.pure, Except.ok.injEq,
    Prod.mk.injEq]
  constructor
  · rintro ⟨descriptor, hd, document, hdoc, rfl, rfl⟩
    exact ⟨descriptor, hd, rfl, hdoc⟩
  · rintro ⟨descriptor, hd, rfl, hdoc⟩
    exact ⟨descriptor, hd, document, hdoc, rfl, rfl⟩

/-- The request's descriptor selects the messaging envelope. -/
def SelectsEnvelope (request : ProductRequest) : Prop :=
  request.destination.productPort.bind ProductPortDescriptor.wireSchemaVersion = some envelopeWire

theorem buildProductDocument_of_selectsEnvelope {request : ProductRequest}
    (h : SelectsEnvelope request) :
    buildProductDocument rt productObservationDocument request = buildEnvelope rt request := by
  unfold buildProductDocument
  rw [h]
  exact if_pos rfl

/-- The members of an envelope that address the destination. -/
def addressingKeys : List String :=
  ["capability_id", "contract_version", "scope", "provider_event_id"]

/-- What an accepted envelope holds under the addressing keys is a function of the destination,
the contract version and the durable identity. -/
theorem get?_addressing {request : ProductRequest} {envelope : Dict String Json}
    (h : (buildEnvelope rt request : Except (BuildError ε) _) = .ok envelope) :
    envelope.get? "capability_id" = some (.str request.destination.capabilityId) ∧
    envelope.get? "contract_version" = some (.int request.contractVersion) ∧
    envelope.get? "scope" = some (.obj [("kind", .str request.destination.scope.kind),
      ("ref", .str request.destination.scope.ref)]) ∧
    envelope.get? "provider_event_id" = some (.str request.providerEventId) := by
  obtain ⟨slot, body, identity, scope, instant, fingerprint, -, -, -, hscope, -, -, rfl⟩ :=
    buildEnvelope_eq_ok.mp h
  -- A scope that is accepted is the one that was asked for.
  obtain rfl : request.destination.scope = scope := by
    unfold boundedScope at hscope
    split_ifs at hscope
    exact Except.ok.inj hscope
  exact ⟨rfl, rfl, rfl, rfl⟩

/-- **A provider payload cannot redirect a delivery.** Two requests for one destination, contract
version and durable identity are posted to one URL with envelopes that agree on every addressing
member. An undeclared key is refused. Evidence that stays local, and a copy of the identity that
agrees, make no difference; a copy that is not null and disagrees is refused. -/
theorem payload_cannot_redirect {request request' : ProductRequest} (mirror : Bool)
    (hd : request.destination = request'.destination)
    (hv : request.contractVersion = request'.contractVersion)
    (hp : request.providerEventId = request'.providerEventId) (hw : SelectsEnvelope request) :
    (∀ url envelope url' envelope',
      address rt productObservationDocument client request mirror = .ok (url, envelope) →
      address rt productObservationDocument client request' mirror = .ok (url', envelope') →
      url = url' ∧ ∀ k ∈ addressingKeys,
        (envelope.get? k).isSome ∧ envelope.get? k = envelope'.get? k) ∧
    ((∃ k ∈ request.observation.keys, k ∉ observationKeys) →
      ∃ reason, buildProductDocument rt productObservationDocument request =
        .error (.envelope reason)) ∧
    ((∀ k ∉ localOnlyObservationFields,
        request.observation.get? k = request'.observation.get? k) →
      (∀ r ∈ [request, request'], read r.observation "provider_event_id" = .null ∨
        read r.observation "provider_event_id" = .str r.providerEventId) →
      address rt productObservationDocument client request mirror =
        address rt productObservationDocument client request' mirror) ∧
    (read request.observation "provider_event_id" ≠ .null →
      read request.observation "provider_event_id" ≠ .str request.providerEventId →
      buildProductDocument rt productObservationDocument request =
        .error (.envelope .identityDisagrees)) := by
  have hw' : SelectsEnvelope request' := by rwa [SelectsEnvelope, ← hd]
  -- Eligibility is a property of the destination alone.
  have hport : eligiblePort client request mirror = eligiblePort client request' mirror := by
    unfold eligiblePort
    rw [hd]
  refine ⟨?_, ?_, ?_, ?_⟩
  · -- One URL, and envelopes that agree on the addressing members.
    intro url envelope url' envelope' h h'
    obtain ⟨descriptor, hdesc, rfl, hdoc⟩ := address_eq_ok.mp h
    obtain ⟨descriptor', hdesc', rfl, hdoc'⟩ := address_eq_ok.mp h'
    obtain rfl : descriptor = descriptor' := by
      rw [hport, hdesc'] at hdesc
      exact (Except.ok.inj hdesc).symm
    rw [buildProductDocument_of_selectsEnvelope hw] at hdoc
    rw [buildProductDocument_of_selectsEnvelope hw'] at hdoc'
    obtain ⟨hcap, hver, hscope, hid⟩ := get?_addressing hdoc
    obtain ⟨hcap', hver', hscope', hid'⟩ := get?_addressing hdoc'
    refine ⟨rfl, ?_⟩
    intro k hk
    simp only [addressingKeys, List.mem_cons, List.not_mem_nil, or_false] at hk
    rcases hk with rfl | rfl | rfl | rfl
    · simp [hcap, hcap', hd]
    · simp [hver, hver', hv]
    · simp [hscope, hscope', hd]
    · simp [hid, hid', hp]
  · -- An undeclared key is refused.
    rintro ⟨k, hk, hu⟩
    rw [buildProductDocument_of_selectsEnvelope hw]
    exact buildEnvelope_of_undeclared hk hu
  · -- Local evidence makes no difference.
    intro hlocal hcopy
    unfold address
    rw [hport, buildProductDocument_of_selectsEnvelope hw,
      buildProductDocument_of_selectsEnvelope hw',
      buildEnvelope_of_local hd hv hp hlocal (hcopy request (by simp)) (hcopy request' (by simp))]
  · -- A disagreeing copy is refused.
    intro hn hne
    rw [buildProductDocument_of_selectsEnvelope hw]
    exact buildEnvelope_of_disagreeing hn hne

/-- A client for the application of `locatedRequest`. -/
def locatedClient : ObservationPortClient where
  application := "sub"
  base := "https://sub.example"
  apiKeyRef := "env:PRODUCT_PORT_KEY"
  mode := .write
  timeout := .finite 10

/-- `locatedRequest` without the evidence that stays local, and with a copy of its identity. -/
def copiedRequest : ProductRequest :=
  { locatedRequest with
    observation := locatedMessage.without ["transport_evidence"] ++
      [("provider_event_id", .str "wamid.HBgNMjM0")] }

theorem payload_cannot_redirect_locatedRequest :
    (address locatedRuntime (fun _ => .error ()) locatedClient locatedRequest false).isOk ∧
      address locatedRuntime (fun _ => .error ()) locatedClient locatedRequest false =
        address locatedRuntime (fun _ => .error ()) locatedClient copiedRequest false := by
  have h := @payload_cannot_redirect locatedRuntime Unit (fun _ => .error ()) locatedClient
    locatedRequest copiedRequest false rfl rfl rfl rfl
  refine ⟨by decide +kernel, h.2.2.1 ?_ ?_⟩
  · intro k hk
    simp only [localOnlyObservationFields, List.mem_cons, List.not_mem_nil, or_false,
      not_or] at hk
    change locatedMessage.get? k = Dict.get? (_ ++ _) k
    rw [Dict.get?_append, Dict.get?_without (by simpa using hk.2),
      Dict.get?_cons_of_ne (Ne.symm hk.1), Dict.get?_nil, Option.or_none]
  · simp only [List.mem_cons, List.not_mem_nil, or_false, forall_eq_or_imp, forall_eq]
    exact ⟨Or.inl rfl, Or.inr rfl⟩

end DotmacIntegrator.ProductPort
