import DotmacIntegrator.Foundation.JsonRoundTrip
import DotmacIntegrator.ProductPort.CanonicalBody

/-!
# The envelope

The destination's envelope is assembled from the claim and the canonical body. What addresses the
destination comes from the request's destination, what describes the observation from the
connector's payload, and the identity of the event from the durable receipt.

## Main definitions

* `Runtime`: what the code takes from Python's runtime and libraries
* `ProductRequest`, `Destination`: the request the claim transaction resolved
* `canonicalFingerprint`, `buildEnvelope`: the fingerprint of a body, and the envelope
* `buildProductDocument`: the document of the wire version the descriptor names

## Main results

* `buildEnvelope_eq_ok`: the envelope of an accepted request, field by field
* `buildEnvelope_of_undeclared`: an observation with an undeclared key is refused
* `buildEnvelope_congr`: the envelope depends on the canonical body, on the provider context and
  on nothing else of the observation
-/

namespace DotmacIntegrator.ProductPort

/-- What the code takes from Python's runtime and libraries. -/
structure Runtime where
  /-- How floats are written and read. -/
  floats : FloatText
  /-- `str.isprintable`, of one character. -/
  printable : Char → Bool
  /-- `hashlib.sha256(data).hexdigest()`. -/
  sha256 : ByteArray → String
  /-- `datetime.fromisoformat(text)`: none where it is no instant, else whether it has an
  offset. -/
  fromisoformat : String → Option Bool

/-- A local scope. -/
structure Scope where
  kind : String
  ref : String
  deriving DecidableEq, Repr

/-- The product-owned port descriptor, as far as a request reads it. A wire schema version that
is missing or no string is none. -/
structure ProductPortDescriptor where
  activationState : String
  deliveryPath : String
  mirrorPath : String
  wireSchemaVersion : Option String
  deriving DecidableEq, Repr

/-- A destination the claim transaction resolved. -/
structure Destination where
  application : String
  capabilityBindingId : String
  capabilityId : String
  scope : Scope
  productPort : Option ProductPortDescriptor
  deriving DecidableEq, Repr

/-- A product request; an observation that is absent is empty. -/
structure ProductRequest where
  destination : Destination
  contractVersion : ℤ
  providerEventId : String
  observation : Dict String Json
  idempotencyKey : String
  correlationId : String
  deriving DecidableEq, Repr

/-- What building a document may raise; `ε` is what the builder of the other wire raises. -/
inductive BuildError (ε : Type*)
  | envelope (reason : EnvelopeNotConstructible)
  /-- The `ValueError` of `json.dumps` on an integer that is too long. -/
  | integerTooLong
  | builder (reason : ε)
  deriving DecidableEq

/-- A refusal, where other exceptions are possible. -/
def refusing {ε α : Type} (x : Except EnvelopeNotConstructible α) : Except (BuildError ε) α :=
  x.mapError .envelope

variable (rt : Runtime) {ε : Type}

/-- `canonical_fingerprint`: none where an integer of the body is too long to be written. -/
def canonicalFingerprint (body : Dict String Json) : Option String :=
  (Json.dumpsSorted rt.floats (.obj body)).map fun text => rt.sha256 text.toUTF8

/-- `_observed_at`: an instant with an offset. -/
def observedAt (value : Json) : Except EnvelopeNotConstructible String :=
  match rt.fromisoformat (stringOf value) with
  | none => .error (.notAnInstant (stringOf value))
  | some false => .error .naiveInstant
  | some true => .ok (stringOf value)

/-- The durable identity, which a connector's copy may evidence but not replace. -/
def durableIdentity (request : ProductRequest) : Except EnvelopeNotConstructible String :=
  let copy := read request.observation "provider_event_id"
  if copy ≠ .null ∧ copy ≠ .str request.providerEventId then .error .identityDisagrees
  else if request.providerEventId = "" ∨ providerEventIdMax < request.providerEventId.length then
    .error .identityLength
  else .ok request.providerEventId

/-- The provider context of an observation: what is left of it off the slots and off the evidence
that stays local. -/
def providerContext (observation : Dict String Json) :
    Except EnvelopeNotConstructible (Dict String Json) :=
  expand (observation.without (observationSlots ++ localOnlyObservationFields)) ENVELOPE_FIELDS
    "observation"

/-- The destination's scope, within the envelope's limits. -/
def boundedScope (scope : Scope) : Except EnvelopeNotConstructible Scope :=
  if scopeKindMax < scope.kind.length ∨ scopeRefMax < scope.ref.length then
    .error (.scopeTooLong scope.kind scope.ref)
  else .ok scope

/-- The members of an envelope. -/
def envelopeMembers (request : ProductRequest) (eventId : String) (identity : Dict String Json)
    (instant fingerprint : String) (scope : Scope) (slot : String) (body : Dict String Json) :
    Dict String Json :=
  [("capability_id", .str request.destination.capabilityId),
   ("contract_version", .int request.contractVersion),
   ("provider", read identity "provider"),
   ("provider_account_scope", read identity "provider_account_scope"),
   ("provider_event_id", .str eventId),
   ("channel", read identity "channel"),
   ("observed_at", .str instant),
   ("payload_fingerprint", .str fingerprint),
   ("scope", .obj [("kind", .str scope.kind), ("ref", .str scope.ref)]),
   (slot, .obj body)]

/-- `build_envelope`: the destination's envelope, from the claim and nothing else. -/
def buildEnvelope (request : ProductRequest) : Except (BuildError ε) (Dict String Json) := do
  let eventId ← refusing (durableIdentity request)
  let (slot, body) ← refusing (canonicalBody request.observation)
  let identity ← refusing (providerContext request.observation)
  let scope ← refusing (boundedScope request.destination.scope)
  let instant ← refusing (observedAt rt (read identity "observed_at"))
  match canonicalFingerprint rt body with
  | none => .error .integerTooLong
  | some fingerprint =>
    .ok (envelopeMembers request eventId identity instant fingerprint scope slot body)

/-- The wire of the messaging envelope. -/
def envelopeWire : String := "dotmac.io/integrator-observation-envelope/v1"

/-- The wire of the provider-neutral document. -/
def observationWire : String := "dotmac.io/product-observation/v1"

/-- `build_product_document`: the builder the descriptor's wire version selects;
`productObservationDocument` is the builder of the provider-neutral wire. -/
def buildProductDocument
    (productObservationDocument : ProductRequest → Except ε (Dict String Json))
    (request : ProductRequest) : Except (BuildError ε) (Dict String Json) :=
  match request.destination.productPort.bind ProductPortDescriptor.wireSchemaVersion with
  | none => .error (.envelope .wireSchemaMissing)
  | some version =>
    if version = envelopeWire then buildEnvelope rt request
    else if version = observationWire then
      (productObservationDocument request).mapError .builder
    else .error (.envelope (.wireSchemaUnsupported version))

/-- A request that carries a located message. -/
def locatedRequest : ProductRequest where
  destination :=
    { application := "sub", capabilityBindingId := "11111111-1111-4111-8111-111111111111",
      capabilityId := "messaging.receive.v1", scope := { kind := "inbox", ref := "support" },
      productPort := some
        { activationState := "enabled", deliveryPath := "/api/v1/integration/observations/b",
          mirrorPath := "/api/v1/integration/observations/b/mirror",
          wireSchemaVersion := some envelopeWire } }
  contractVersion := 1
  providerEventId := "wamid.HBgNMjM0"
  observation := locatedMessage
  idempotencyKey := "receipt-1"
  correlationId := "correlation-1"

/-- Python's runtime, on what a located message makes of it. -/
def locatedRuntime : Runtime where
  floats :=
    { repr := fun x => (if x = .finite 6.5 then "6.5" else "3.25").toList
      read := fun cs => .finite (if cs = "6.5".toList then 6.5 else 3.25) }
  printable := fun _ => true
  sha256 := fun _ => "2159ae8d4def5f75eed4e3177143b069034b771d13bfa30f6c3dbc674d51e5cc"
  fromisoformat := fun text => if text = "2026-08-16T09:30:00+00:00" then some true else none

/-! ### What is accepted -/

variable {rt}

theorem refusing_eq_ok {α : Type} {x : Except EnvelopeNotConstructible α} {a : α} :
    (refusing x : Except (BuildError ε) α) = .ok a ↔ x = .ok a := by
  cases x <;> simp [refusing, Except.mapError]

theorem durableIdentity_eq_ok {request : ProductRequest} {eventId : String} :
    durableIdentity request = .ok eventId ↔ eventId = request.providerEventId ∧
      (read request.observation "provider_event_id" = .null ∨
        read request.observation "provider_event_id" = .str request.providerEventId) ∧
      request.providerEventId ≠ "" ∧ request.providerEventId.length ≤ providerEventIdMax := by
  unfold durableIdentity
  simp only
  -- A copy that disagrees, an identity of a wrong length, and neither.
  split_ifs with hcopy hlen
  · simp only [false_iff, not_and]
    rintro - (h | h)
    · exact absurd h hcopy.1
    · exact absurd h hcopy.2
  · simp only [false_iff, not_and]
    rintro - - hne
    have := hlen.resolve_left hne
    omega
  · rw [not_and_or, not_ne_iff, not_ne_iff] at hcopy
    rw [not_or, not_lt] at hlen
    exact ⟨fun h => ⟨(Except.ok.inj h).symm, hcopy, hlen⟩, fun h => by rw [h.1]⟩

/-- **The envelope of an accepted request.** -/
theorem buildEnvelope_eq_ok {request : ProductRequest} {envelope : Dict String Json} :
    (buildEnvelope rt request : Except (BuildError ε) _) = .ok envelope ↔
      ∃ slot body identity scope instant fingerprint,
        durableIdentity request = .ok request.providerEventId ∧
        canonicalBody request.observation = .ok (slot, body) ∧
        providerContext request.observation = .ok identity ∧
        boundedScope request.destination.scope = .ok scope ∧
        observedAt rt (read identity "observed_at") = .ok instant ∧
        canonicalFingerprint rt body = some fingerprint ∧
        envelope = envelopeMembers request request.providerEventId identity instant fingerprint
          scope slot body := by
  simp only [buildEnvelope, Except.bind_eq_ok, refusing_eq_ok, Prod.exists]
  constructor
  · rintro ⟨eventId, hid, slot, body, hbody, identity, hctx, scope, hscope, instant, hinst, h⟩
    obtain rfl := (durableIdentity_eq_ok.mp hid).1
    cases hf : canonicalFingerprint rt body with
    | none => simp [hf] at h
    | some fingerprint =>
      simp only [hf, Except.ok.injEq] at h
      exact ⟨slot, body, identity, scope, instant, fingerprint, hid, hbody, hctx, hscope, hinst,
        hf, h.symm⟩
  · rintro ⟨slot, body, identity, scope, instant, fingerprint, hid, hbody, hctx, hscope, hinst,
      hf, rfl⟩
    exact ⟨_, hid, slot, body, hbody, identity, hctx, scope, hscope, instant, hinst, by simp [hf]⟩

/-! ### What is refused -/

/-- The keys an observation may carry at its top level. -/
def observationKeys : List String :=
  names ENVELOPE_FIELDS ++ (observationSlots ++ localOnlyObservationFields)

theorem providerContext_of_undeclared {observation : Dict String Json} {k : String}
    (hk : k ∈ observation.keys) (hu : k ∉ observationKeys) :
    ∃ reason, providerContext observation = .error reason := by
  rw [observationKeys, List.mem_append, not_or] at hu
  -- Carving out what is declared elsewhere leaves the key.
  have hne : undeclared (observation.without (observationSlots ++ localOnlyObservationFields))
      ENVELOPE_FIELDS ≠ [] := fun h =>
    hu.1 (undeclared_eq_nil.mp h k (Dict.mem_keys_without.mpr ⟨hk, hu.2⟩))
  exact ⟨_, if_pos hne⟩

/-- An observation with a key that neither the provider context, nor a slot, nor the local
evidence declares is refused. -/
theorem buildEnvelope_of_undeclared {request : ProductRequest} {k : String}
    (hk : k ∈ request.observation.keys) (hu : k ∉ observationKeys) :
    ∃ reason, (buildEnvelope rt request : Except (BuildError ε) _) = .error (.envelope reason) := by
  obtain ⟨reason, hctx⟩ := providerContext_of_undeclared hk hu
  unfold buildEnvelope
  rw [hctx]
  -- The identity and the body are checked first, and may be refused instead.
  rcases durableIdentity request with e | eventId
  · exact ⟨e, rfl⟩
  · rcases canonicalBody request.observation with e | ⟨slot, body⟩
    · exact ⟨e, rfl⟩
    · exact ⟨reason, rfl⟩

/-- A copy of the identity that is not null and disagrees is refused. -/
theorem buildEnvelope_of_disagreeing {request : ProductRequest}
    (hn : read request.observation "provider_event_id" ≠ .null)
    (hd : read request.observation "provider_event_id" ≠ .str request.providerEventId) :
    (buildEnvelope rt request : Except (BuildError ε) _) =
      .error (.envelope .identityDisagrees) := by
  have : durableIdentity request = .error .identityDisagrees := if_pos ⟨hn, hd⟩
  unfold buildEnvelope
  rw [this]
  rfl

/-! ### What the envelope depends on -/

/-- The envelope depends on the canonical body, on the provider context, and on whether the copy
of the identity agrees. -/
theorem buildEnvelope_congr {request request' : ProductRequest}
    (hd : request.destination = request'.destination)
    (hv : request.contractVersion = request'.contractVersion)
    (hid : durableIdentity request = durableIdentity request')
    (hbody : canonicalBody request.observation = canonicalBody request'.observation)
    (hctx : providerContext request.observation = providerContext request'.observation) :
    (buildEnvelope rt request : Except (BuildError ε) _) = buildEnvelope rt request' := by
  unfold buildEnvelope envelopeMembers
  rw [hid, hbody, hctx, hd, hv]

/-- What is carved out of the observation only loses keys that are local. -/
theorem providerContext_congr {observation observation' : Dict String Json}
    (h : ∀ k ∉ localOnlyObservationFields, observation.get? k = observation'.get? k) :
    providerContext observation = providerContext observation' := by
  -- What remains of the observation has no local key.
  have hlocal : ∀ k, k ∉ observationSlots ++ localOnlyObservationFields →
      k ∉ localOnlyObservationFields := fun k hk hl => hk (List.mem_append_right _ hl)
  have hdisj : ∀ f ∈ ENVELOPE_FIELDS, f.name ∉ observationSlots ++ localOnlyObservationFields := by
    decide
  apply expand_congr
  · intro k _
    rw [Dict.mem_keys_without, Dict.mem_keys_without, ← Dict.get?_isSome_iff,
      ← Dict.get?_isSome_iff]
    exact and_congr_left fun hk => by rw [h k (hlocal k hk)]
  · intro f hf
    rw [read_without (hdisj f hf), read_without (hdisj f hf), read, read,
      h f.name (hlocal f.name (hdisj f hf))]

/-- **Local evidence does not reach the envelope**: observations that differ only in it, and
whose copies of the identity agree or are absent, are both refused or yield one envelope. -/
theorem buildEnvelope_of_local {request request' : ProductRequest}
    (hd : request.destination = request'.destination)
    (hv : request.contractVersion = request'.contractVersion)
    (hp : request.providerEventId = request'.providerEventId)
    (h : ∀ k ∉ localOnlyObservationFields,
      request.observation.get? k = request'.observation.get? k)
    (hcopy : read request.observation "provider_event_id" = .null ∨
      read request.observation "provider_event_id" = .str request.providerEventId)
    (hcopy' : read request'.observation "provider_event_id" = .null ∨
      read request'.observation "provider_event_id" = .str request'.providerEventId) :
    (buildEnvelope rt request : Except (BuildError ε) _) = buildEnvelope rt request' := by
  -- Both copies pass, and neither slot is local.
  refine buildEnvelope_congr hd hv ?_ ?_ (providerContext_congr h)
  · have hno : ∀ {v i : Json}, (v = .null ∨ v = i) → ¬ (v ≠ .null ∧ v ≠ i) := by tauto
    unfold durableIdentity
    simp only
    rw [if_neg (hno hcopy), if_neg (hno hcopy'), hp]
  · refine canonicalBody_congr ?_ ?_
    · rw [read, read, h messageKey (by decide)]
    · rw [read, read, h receiptKey (by decide)]

end DotmacIntegrator.ProductPort
