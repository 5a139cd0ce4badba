import DotmacIntegrator.Foundation.StepSystem
import DotmacIntegrator.Foundation.Uuid
import DotmacIntegrator.ProductPort.ContractRegistry

/-!
# The reconciliation of the product port

The reader keeps the value it prepared last, and reconciles that one value: another one, of whatever
content and origin, is refused by identity. A session is opened behind every check, for the
descriptor of the value that was kept.

## Main definitions

* `ProductPortDescriptorReconciler.read`: the descriptor of an answer, under the pin
* `ReaderState`, `prepareOwner`, `reconcile`: the reader's calls, and the values it is passed
* `reconcilerSystem`: any sequence of calls, while others make prepared values of their own
* `Authentic`: what an answer has to be for its descriptor to be read
* `Declaration`: and every field has the type that is declared
* `ProjectsOnlyDeclared`: a session is opened only for a declaration that was read last

## Main results

* `read_authentic`: what is read is authentic
* `keeps_last_prepared`: the value that is kept is the last one prepared, of an authentic answer
* `projects_authentic`: what a session is opened for, in every run
* `projects_only_declared_iff`: and when that is a declaration
-/

namespace DotmacIntegrator.ProductPort

open DotmacIntegrator.Configuration Secrets StepSystem Url

/-! ### The module -/

/-- A descriptor, as the module holds it. -/
structure ProductPortDescriptorSnapshot (C : Type) where
  schemaVersion : String
  application : String
  ownerModule : String
  capabilityId : String
  capabilitySummary : String
  contractVersion : ℤ
  destinationBindingId : Uuid
  deliveryPath : String
  mirrorPath : String
  destinationScope : Scope
  activationState : String
  sourceRevision : String
  descriptorDigest : String
  wireSchemaVersion : String
  capabilityContract : Option C

/-- The module's part: constructors that may refuse their fields, the digest of a descriptor, and
registries. -/
structure DescriptorModule (ε C G : Type) extends CapabilityModule ε C G where
  localScope (kind ref : String) : Except (ContractRaised ε) Unit
  snapshot : ProductPortDescriptorSnapshot C → Except (ContractRaised ε) Unit
  productPortDescriptorDigest : ProductPortDescriptorSnapshot C → Except ε String
  get : G → String → Except ε (Option C)
  truthy : G → Bool

/-- What a call raises. -/
inductive DescriptorRaised (ε : Type)
  | productPortDescriptorError (message : String)
  | secretsNotHeld (reason : SecretsNotHeld)
  /-- The `TypeError` of comparing texts that are not ASCII. -/
  | typeError
  | valueError
  /-- The `RecursionError` of `json.loads`. -/
  | recursionError
  | other (e : ε)

/-! ### Reading a descriptor -/

/-- The fields of a descriptor. -/
def DESCRIPTOR_FIELDS : List String :=
  ["schema_version", "wire_schema_version", "application", "owner_module", "capability_id",
   "capability_summary", "contract_version", "destination_binding_id", "delivery_path",
   "mirror_path", "destination_scope", "activation_state", "source_revision",
   "capability_contract", "descriptor_digest"]

/-- The protocol that carries the contract. -/
def DESCRIPTOR_SCHEMA_VERSION : String := "dotmac.io/product-port-descriptor/v3"

/-- The typed fields of a descriptor. -/
structure DescriptorFields where
  schemaVersion : String
  wireSchemaVersion : String
  application : String
  ownerModule : String
  capabilityId : String
  capabilitySummary : String
  deliveryPath : String
  mirrorPath : String
  activationState : String
  sourceRevision : String
  descriptorDigest : String
  contractVersion : ℤ

variable {ε C G : Type} {R : HostRules} (U : UnicodeDigits) (rt : Runtime)
  (readAnswer : ByteArray → Except Json.LoadsError Json) (m : DescriptorModule ε C G)

/-- A refusal. -/
def refuseDescriptor {α : Type} (message : String) : Except (DescriptorRaised ε) α :=
  .error (.productPortDescriptorError message)

/-- A text that is not empty. -/
def nonEmptyText (d : Dict String Json) (field : String) : Option String :=
  match d.get? field with
  | some (.str text) => if text = "" then none else some text
  | _ => none

/-- An integer that is no boolean. -/
def integerField (d : Dict String Json) (field : String) : Option ℤ :=
  match d.get? field with
  | some (.int n) => some n
  | _ => none

/-- The typed fields, where each has its type. -/
def typedFields (members : Dict String Json) : Option DescriptorFields := do
  let schemaVersion ← nonEmptyText members "schema_version"
  let wireSchemaVersion ← nonEmptyText members "wire_schema_version"
  let application ← nonEmptyText members "application"
  let ownerModule ← nonEmptyText members "owner_module"
  let capabilityId ← nonEmptyText members "capability_id"
  let capabilitySummary ← nonEmptyText members "capability_summary"
  let deliveryPath ← nonEmptyText members "delivery_path"
  let mirrorPath ← nonEmptyText members "mirror_path"
  let activationState ← nonEmptyText members "activation_state"
  let sourceRevision ← nonEmptyText members "source_revision"
  let descriptorDigest ← nonEmptyText members "descriptor_digest"
  let contractVersion ← integerField members "contract_version"
  return { schemaVersion, wireSchemaVersion, application, ownerModule, capabilityId,
           capabilitySummary, deliveryPath, mirrorPath, activationState, sourceRevision,
           descriptorDigest, contractVersion }

/-- The fields of a document that has exactly those of a descriptor. -/
def exactMembers : Json → Except (DescriptorRaised ε) (Dict String Json)
  | .obj members =>
    if HasExactly members DESCRIPTOR_FIELDS then .ok members
    else refuseDescriptor "the product descriptor does not have the exact field set"
  | _ => refuseDescriptor "the product descriptor does not have the exact field set"

/-- The scope of the destination, with its two fields. -/
def scopeMembers (members : Dict String Json) : Except (DescriptorRaised ε) (Dict String Json) :=
  match members.get? "destination_scope" with
  | some (.obj scope) =>
    if HasExactly scope ["kind", "ref"] then .ok scope
    else refuseDescriptor "the product descriptor destination_scope is not \x7bkind, ref\x7d"
  | _ => refuseDescriptor "the product descriptor destination_scope is not \x7bkind, ref\x7d"

/-- The typed fields of a descriptor of the protocol that carries the contract. -/
def protocolFields (members : Dict String Json) : Except (DescriptorRaised ε) DescriptorFields :=
  match typedFields members with
  | none => refuseDescriptor "the product descriptor contains an invalid typed field"
  | some fields =>
    if fields.schemaVersion = DESCRIPTOR_SCHEMA_VERSION then .ok fields
    else refuseDescriptor "the product descriptor must use the contract-carrying v3 protocol"

/-- The document of the contract. -/
def contractMembers (members : Dict String Json) :
    Except (DescriptorRaised ε) (Dict String Json) :=
  match members.get? "capability_contract" with
  | some (.obj document) => .ok document
  | _ => refuseDescriptor "the product descriptor capability_contract is not an object"

/-- The texts of the scope. -/
def scopeTexts (scope : Dict String Json) : Except (DescriptorRaised ε) Scope :=
  match nonEmptyText scope "kind", nonEmptyText scope "ref" with
  | some kind, some ref => .ok ⟨kind, ref⟩
  | _, _ =>
    refuseDescriptor "the product descriptor destination_scope contains an invalid field"

/-- The handler of the three kinds of exception. -/
def caught {α : Type} : Except (ContractRaised ε) α → Except (DescriptorRaised ε) α
  | .ok a => .ok a
  | .error (.other e) => .error (.other e)
  | .error _ => refuseDescriptor "the product descriptor contains an invalid typed field"

/-- The snapshot of the fields. -/
def buildSnapshot (members : Dict String Json) (fields : DescriptorFields)
    (document : Dict String Json) (scope : Scope) :
    Except (ContractRaised ε) (ProductPortDescriptorSnapshot C) := do
  let contract ← m.capabilityContractFromDocument document fields.capabilityId fields.application
    fields.ownerModule fields.capabilitySummary
  let bindingId ← Except.ofOption .valueError
    (Uuid.parse U (PyRepr.str rt.printable rt.floats ((members.get? "destination_binding_id").getD
      .null)))
  let _ ← m.localScope scope.kind scope.ref
  let snapshot : ProductPortDescriptorSnapshot C :=
    { schemaVersion := fields.schemaVersion
      application := fields.application
      ownerModule := fields.ownerModule
      capabilityId := fields.capabilityId
      capabilitySummary := fields.capabilitySummary
      contractVersion := fields.contractVersion
      destinationBindingId := bindingId
      deliveryPath := fields.deliveryPath
      mirrorPath := fields.mirrorPath
      destinationScope := scope
      activationState := fields.activationState
      sourceRevision := fields.sourceRevision
      descriptorDigest := fields.descriptorDigest
      wireSchemaVersion := fields.wireSchemaVersion
      capabilityContract := some contract }
  let _ ← m.snapshot snapshot
  return snapshot

/-- The digest covers the descriptor, and is the pinned one. -/
def checkDescriptorDigests (expectedDigest : String) (snapshot : ProductPortDescriptorSnapshot C) :
    Except (DescriptorRaised ε) Unit := do
  let computed ← (m.productPortDescriptorDigest snapshot).mapError .other
  match Text.compareDigest snapshot.descriptorDigest computed with
  | none => .error .typeError
  | some false =>
    refuseDescriptor "the product descriptor digest does not cover its published facts"
  | some true =>
    match Text.compareDigest computed expectedDigest with
    | none => .error .typeError
    | some false =>
      refuseDescriptor "the product descriptor digest differs from the operator-approved pin"
    | some true => .ok ()

/-- The document of an answer. -/
def answeredDocument (answer : HttpAnswer) : Except (DescriptorRaised ε) Json :=
  if answer.status ≠ 200 then
    refuseDescriptor ("the product descriptor endpoint answered " ++ toString answer.status)
  else match readAnswer answer.body with
    | .error .valueError =>
      refuseDescriptor "the product descriptor endpoint did not return JSON"
    | .error .recursionError => .error .recursionError
    | .ok document => .ok document

/-- `_read`, of what the transport answers. -/
def ProductPortDescriptorReconciler.read (reader : ProductPortDescriptorReconciler R) (held : Held)
    (get : HttpGet → Except ε HttpAnswer) :
    Except (DescriptorRaised ε) (ProductPortDescriptorSnapshot C) := do
  let request ← (reader.request held).mapError .secretsNotHeld
  let answer ← (get request).mapError .other
  let document ← answeredDocument readAnswer answer
  let members ← exactMembers document
  let scope ← scopeMembers members
  let fields ← protocolFields members
  let contract ← contractMembers members
  let localScope ← scopeTexts scope
  let snapshot ← caught (buildSnapshot U rt m members fields contract localScope)
  let _ ← checkDescriptorDigests m reader.expectedDigest snapshot
  return snapshot

/-! ### The calls -/

/-- `PreparedProductPort`. -/
structure PreparedProductPort (C G : Type) where
  descriptor : ProductPortDescriptorSnapshot C
  registry : G

/-- A prepared value somewhere in memory. -/
structure Ref (C G : Type) where
  address : ℕ
  object : PreparedProductPort C G

/-- The values prepared by anyone, and the one the reader keeps. -/
structure ReaderState (C G : Type) where
  values : List (Ref C G)
  prepared : Option (Ref C G)

/-- What surrounds one call: what is held, what the transport answers, where a new value is put,
the installed registry, and what the module and the commit do in the session. -/
structure Surroundings (ε C G : Type) where
  held : Held
  get : HttpGet → Except ε HttpAnswer
  address : ℕ
  installed : Except ε G
  reconciled : Except ε Unit
  committed : Except ε Unit

/-- What a reconciliation does: the state it leaves, the descriptor a session was opened for, and
what it returns or raises. -/
structure Reconciled (ε C G : Type) where
  state : ReaderState C G
  opened : Option (ProductPortDescriptorSnapshot C)
  result : Except (DescriptorRaised ε) (ObservationPortClient × G)

variable (reader : ProductPortDescriptorReconciler R)

/-- The value a preparation makes: a descriptor that is read, and the registry of its contract. -/
def preparedValue (env : Surroundings ε C G) :
    Except (DescriptorRaised ε) (PreparedProductPort C G) := do
  let descriptor ← reader.read U rt readAnswer m env.held env.get
  match descriptor.capabilityContract with
  | none => refuseDescriptor "the product descriptor carries no capability contract"
  | some contract =>
    let registry ← (m.fromDeclarations [contract]).mapError .other
    return ⟨descriptor, registry⟩

/-- `prepare_owner`: the value is kept; where none is made, the reader keeps what it kept. -/
def prepareOwner (s : ReaderState C G) (env : Surroundings ε C G) :
    Except (DescriptorRaised ε) (ReaderState C G × Ref C G) :=
  (preparedValue U rt readAnswer m reader env).map fun value =>
    (⟨⟨env.address, value⟩ :: s.values, some ⟨env.address, value⟩⟩, ⟨env.address, value⟩)

/-- The registry that was supplied, unless there is none or it is not true; then the prepared
one. -/
def suppliedRegistry (registry : Option G) (own : G) : G :=
  match registry with
  | none => own
  | some supplied => if m.truthy supplied then supplied else own

/-- The checks before a session: the value is the one that is kept, and its contract is the one of
the installed and of the supplied registry. -/
def checkedOwner [DecidableEq C] (s : ReaderState C G) (prepared : Ref C G) (registry : Option G)
    (env : Surroundings ε C G) : Except (DescriptorRaised ε) G :=
  if s.prepared.map Ref.address ≠ some prepared.address then
    refuseDescriptor "reconciliation requires this reader's authenticated preparation"
  else do
    let descriptor := prepared.object.descriptor
    let installed ← env.installed.mapError .other
    let owner ← (m.get installed descriptor.capabilityId).mapError .other
    let entry ← (m.get (suppliedRegistry m registry prepared.object.registry)
      descriptor.capabilityId).mapError .other
    if entry ≠ owner ∨ descriptor.capabilityContract ≠ owner then
      refuseDescriptor "the prepared contract differs from the installed canonical owner"
    else .ok installed

/-- The client of the destination. -/
def destinationClient (application : String) :
    Except (DescriptorRaised ε) ObservationPortClient :=
  if "http://".toList <+: reader.baseUrl.toList ∨ "https://".toList <+: reader.baseUrl.toList then
    .ok { application
          base := String.ofList (reader.baseUrl.toList.rdropWhile (· = '/'))
          apiKeyRef := reader.apiKeyRef
          mode := reader.mode
          timeout := reader.timeout }
  else .error .valueError

/-- The value that is passed, or the one that is prepared for want of it. -/
def passedValue (s : ReaderState C G) (prepared : Option (Ref C G)) (env : Surroundings ε C G) :
    Except (DescriptorRaised ε) (ReaderState C G × Ref C G) :=
  match prepared with
  | some ref => .ok (s, ref)
  | none => prepareOwner U rt readAnswer m reader s env

/-- `reconcile`. -/
def reconcile [DecidableEq C] (s : ReaderState C G) (prepared : Option (Ref C G))
    (registry : Option G) (env : Surroundings ε C G) : Reconciled ε C G :=
  match passedValue U rt readAnswer m reader s prepared env with
  | .error raised => ⟨s, none, .error raised⟩
  | .ok (s, ref) =>
    match checkedOwner m s ref registry env with
    | .error raised => ⟨s, none, .error raised⟩
    | .ok installed =>
      -- The session is open from here on.
      ⟨s, some ref.object.descriptor, do
        let _ ← env.reconciled.mapError .other
        let _ ← env.committed.mapError .other
        let client ← destinationClient reader ref.object.descriptor.application
        return (client, installed)⟩

/-! ### Runs -/

/-- A call of the reader, or a prepared value that anyone else makes. -/
inductive Call (ε C G : Type)
  | prepareOwner (env : Surroundings ε C G)
  | reconcile (prepared : Option (Ref C G)) (registry : Option G) (env : Surroundings ε C G)
  | allocate (ref : Ref C G)

/-- The address is taken by no value. -/
def Fresh (s : ReaderState C G) (address : ℕ) : Prop := ∀ ref ∈ s.values, ref.address ≠ address

/-- One call; what is passed exists, and what is new is put where nothing is. -/
inductive CallStep [DecidableEq C] : ReaderState C G → Call ε C G → ReaderState C G → Prop
  | prepared {s s' : ReaderState C G} {env : Surroundings ε C G} {ref : Ref C G}
      (hfresh : Fresh s env.address)
      (hprepared : prepareOwner U rt readAnswer m reader s env = .ok (s', ref)) :
      CallStep s (.prepareOwner env) s'
  | raised {s : ReaderState C G} {env : Surroundings ε C G} {e : DescriptorRaised ε}
      (hraised : prepareOwner U rt readAnswer m reader s env = .error e) :
      CallStep s (.prepareOwner env) s
  | reconcile {s : ReaderState C G} {prepared : Option (Ref C G)} {registry : Option G}
      {env : Surroundings ε C G} (hpassed : ∀ ref ∈ prepared, ref ∈ s.values)
      (hfresh : Fresh s env.address) :
      CallStep s (.reconcile prepared registry env)
        (reconcile U rt readAnswer m reader s prepared registry env).state
  | allocate {s : ReaderState C G} {ref : Ref C G} (hfresh : Fresh s ref.address) :
      CallStep s (.allocate ref) { s with values := ref :: s.values }

/-- The reader, from its construction: it keeps nothing. -/
def reconcilerSystem [DecidableEq C] : StepSystem (ReaderState C G) (Call ε C G) where
  init s := s = ⟨[], none⟩
  step := CallStep U rt readAnswer m reader

/-- The descriptor a call reads for a preparation that returns, and the answer it was read from. -/
def readBy : Call ε C G → Option (HttpAnswer × ProductPortDescriptorSnapshot C)
  | .prepareOwner env | .reconcile none _ env =>
    match reader.request env.held, preparedValue U rt readAnswer m reader env with
    | .ok request, .ok value =>
      (env.get request).toOption.map fun answer => (answer, value.descriptor)
    | _, _ => none
  | _ => none

/-- The descriptor a call reads, for a preparation that returns or for one that does not. -/
def answeredBy : Call ε C G → Option (HttpAnswer × ProductPortDescriptorSnapshot C)
  | .prepareOwner env | .reconcile none _ env =>
    match reader.request env.held, reader.read U rt readAnswer m env.held env.get with
    | .ok request, .ok descriptor =>
      (env.get request).toOption.map fun answer => (answer, descriptor)
    | _, _ => none
  | _ => none

/-- The descriptor that was read last for a preparation that returned, and the answer it was read
from. -/
def lastRead (steps : List (ReaderState C G × Call ε C G)) :
    Option (HttpAnswer × ProductPortDescriptorSnapshot C) :=
  (steps.filterMap fun x => readBy U rt readAnswer m reader x.2).getLast?

/-- The descriptor that was read last, and the answer it was read from. -/
def lastAnswered (steps : List (ReaderState C G × Call ε C G)) :
    Option (HttpAnswer × ProductPortDescriptorSnapshot C) :=
  (steps.filterMap fun x => answeredBy U rt readAnswer m reader x.2).getLast?

/-- A registry can be made of any one contract. -/
def MakesRegistries : Prop := ∀ contract, ∃ registry, m.fromDeclarations [contract] = .ok registry

/-! ### What an answer has to be -/

/-- The texts of a descriptor, by their fields. -/
def ProductPortDescriptorSnapshot.texts (d : ProductPortDescriptorSnapshot C) :
    Dict String String :=
  [("schema_version", d.schemaVersion), ("wire_schema_version", d.wireSchemaVersion),
   ("application", d.application), ("owner_module", d.ownerModule),
   ("capability_id", d.capabilityId), ("capability_summary", d.capabilitySummary),
   ("delivery_path", d.deliveryPath), ("mirror_path", d.mirrorPath),
   ("activation_state", d.activationState), ("source_revision", d.sourceRevision),
   ("descriptor_digest", d.descriptorDigest)]

/-- The document has exactly the declared fields, each of its type, but for the id of the binding,
whose text alone is looked at; and the descriptor is what they say. -/
structure Accepts (members : Dict String Json) (d : ProductPortDescriptorSnapshot C) : Prop where
  fields : HasExactly members DESCRIPTOR_FIELDS
  texts : ∀ p ∈ d.texts, members.get? p.1 = some (.str p.2) ∧ p.2 ≠ ""
  contractVersion : members.get? "contract_version" = some (.int d.contractVersion)
  protocol : d.schemaVersion = DESCRIPTOR_SCHEMA_VERSION
  scope : ∃ scope, members.get? "destination_scope" = some (.obj scope) ∧
    HasExactly scope ["kind", "ref"] ∧
    Dict.get? scope "kind" = some (.str d.destinationScope.kind) ∧ d.destinationScope.kind ≠ "" ∧
    Dict.get? scope "ref" = some (.str d.destinationScope.ref) ∧ d.destinationScope.ref ≠ ""
  binding : Uuid.parse U (PyRepr.str rt.printable rt.floats
    ((members.get? "destination_binding_id").getD .null)) = some d.destinationBindingId
  contract : ∃ document contract, members.get? "capability_contract" = some (.obj document) ∧
    m.capabilityContractFromDocument document d.capabilityId d.application d.ownerModule
      d.capabilitySummary = .ok contract ∧ d.capabilityContract = some contract

/-- The answer has status 200 and its document is accepted as the descriptor, whose recomputed
digest is the one it publishes and the pinned one. -/
structure Authentic (answer : HttpAnswer) (d : ProductPortDescriptorSnapshot C) : Prop where
  status : answer.status = 200
  body : ∃ members, readAnswer answer.body = .ok (.obj members) ∧ Accepts U rt m members d
  digest : m.productPortDescriptorDigest d = .ok d.descriptorDigest
  pin : d.descriptorDigest = reader.expectedDigest

/-- The id of the binding is a JSON text, as the ids of the declaration are. -/
def NamesBinding (members : Dict String Json) : Prop :=
  ∃ text, members.get? "destination_binding_id" = some (.str text)

/-- The answer is authentic, and every field of its document has the type that is declared. -/
structure Declaration (answer : HttpAnswer) (d : ProductPortDescriptorSnapshot C) : Prop extends
    Authentic U rt readAnswer m reader answer d where
  typed : ∃ members, readAnswer answer.body = .ok (.obj members) ∧ NamesBinding members

/-- What an answer gives for the id of the binding is a JSON text, if its text is an id at all. -/
def BindsByText (answer : HttpAnswer) : Prop :=
  ∀ members, readAnswer answer.body = .ok (.obj members) →
    ∀ value, Dict.get? members "destination_binding_id" = some value →
      (Uuid.parse U (PyRepr.str rt.printable rt.floats value)).isSome → ∃ text, value = .str text

/-- So does every success that a call is answered with. -/
def Call.BindsByText : Call ε C G → Prop
  | .prepareOwner env | .reconcile none _ env => ∀ request answer,
    reader.request env.held = .ok request → env.get request = .ok answer →
      answer.status = 200 → ProductPort.BindsByText U rt readAnswer answer
  | _ => True

/-- **A destination is projected only from a declaration**: after some calls, a session is opened
only for the descriptor that was read last, of a declaration whose contract is the one of the
installed and of the supplied registry; a client is returned only behind such a session, and a call
that opens none raises. -/
structure ProjectsOnlyDeclared (calls : List (ReaderState C G × Call ε C G)) (registry : Option G)
    (env : Surroundings ε C G) (made : Reconciled ε C G) : Prop where
  opened : ∀ d, made.opened = some d → ∃ answer contract installed own,
    lastRead U rt readAnswer m reader calls = some (answer, d) ∧
    (MakesRegistries m → lastAnswered U rt readAnswer m reader calls = some (answer, d)) ∧
    Declaration U rt readAnswer m reader answer d ∧
    d.capabilityContract = some contract ∧
    env.installed = .ok installed ∧
    m.get installed d.capabilityId = .ok (some contract) ∧
    m.fromDeclarations [contract] = .ok own ∧
    m.get (suppliedRegistry m registry own) d.capabilityId = .ok (some contract)
  returned : ∀ client given, made.result = .ok (client, given) →
    ∃ d, made.opened = some d ∧ client.application = d.application ∧ env.installed = .ok given
  raises : made.opened = none → ∃ raised, made.result = .error raised

/-! ### Each check -/

variable {U rt readAnswer m reader}

theorem nonEmptyText_eq_some {d : Dict String Json} {field text : String} :
    nonEmptyText d field = some text ↔ d.get? field = some (.str text) ∧ text ≠ "" := by
  constructor
  · intro h
    rw [nonEmptyText] at h
    split at h
    · next found hfound =>
      split_ifs at h with hempty
      obtain rfl := Option.some.inj h
      exact ⟨hfound, hempty⟩
    · cases h
  · rintro ⟨hfound, hempty⟩
    simp only [nonEmptyText, hfound, if_neg hempty]

theorem integerField_eq_some {d : Dict String Json} {field : String} {n : ℤ} :
    integerField d field = some n ↔ d.get? field = some (.int n) := by
  constructor
  · intro h
    rw [integerField] at h
    split at h
    · next found hfound =>
      obtain rfl := Option.some.inj h
      exact hfound
    · cases h
  · intro hfound
    simp only [integerField, hfound]

theorem exactMembers_eq_ok {document : Json} {members : Dict String Json}
    (h : (exactMembers document : Except (DescriptorRaised ε) _) = .ok members) :
    document = .obj members ∧ HasExactly members DESCRIPTOR_FIELDS := by
  cases document with
  | obj found =>
    rw [exactMembers] at h
    split_ifs at h with hfields
    · obtain rfl := Except.ok.inj h
      exact ⟨rfl, hfields⟩
    · cases h
  | null | bool | int | float | str | arr => cases h

theorem scopeMembers_eq_ok {members scope : Dict String Json}
    (h : (scopeMembers members : Except (DescriptorRaised ε) _) = .ok scope) :
    members.get? "destination_scope" = some (.obj scope) ∧ HasExactly scope ["kind", "ref"] := by
  rw [scopeMembers] at h
  split at h
  · next found hfound =>
    split_ifs at h with hfields
    · obtain rfl := Except.ok.inj h
      exact ⟨hfound, hfields⟩
    · cases h
  · cases h

theorem scopeTexts_eq_ok {scope : Dict String Json} {localScope : Scope}
    (h : (scopeTexts scope : Except (DescriptorRaised ε) _) = .ok localScope) :
    (Dict.get? scope "kind" = some (.str localScope.kind) ∧ localScope.kind ≠ "") ∧
      Dict.get? scope "ref" = some (.str localScope.ref) ∧ localScope.ref ≠ "" := by
  rw [scopeTexts] at h
  split at h
  · next kind ref hkind href =>
    obtain rfl := Except.ok.inj h
    exact ⟨nonEmptyText_eq_some.mp hkind, nonEmptyText_eq_some.mp href⟩
  · cases h

theorem contractMembers_eq_ok {members document : Dict String Json}
    (h : (contractMembers members : Except (DescriptorRaised ε) _) = .ok document) :
    members.get? "capability_contract" = some (.obj document) := by
  rw [contractMembers] at h
  split at h
  · next found hfound =>
    obtain rfl := Except.ok.inj h
    exact hfound
  · cases h

/-- The texts of the typed fields, by their fields. -/
def DescriptorFields.texts (fields : DescriptorFields) : Dict String String :=
  [("schema_version", fields.schemaVersion), ("wire_schema_version", fields.wireSchemaVersion),
   ("application", fields.application), ("owner_module", fields.ownerModule),
   ("capability_id", fields.capabilityId), ("capability_summary", fields.capabilitySummary),
   ("delivery_path", fields.deliveryPath), ("mirror_path", fields.mirrorPath),
   ("activation_state", fields.activationState), ("source_revision", fields.sourceRevision),
   ("descriptor_digest", fields.descriptorDigest)]

theorem typedFields_eq_some {members : Dict String Json} {fields : DescriptorFields}
    (h : typedFields members = some fields) :
    (∀ p ∈ fields.texts, members.get? p.1 = some (.str p.2) ∧ p.2 ≠ "") ∧
      members.get? "contract_version" = some (.int fields.contractVersion) := by
  -- One field after another.
  obtain ⟨_, h₁, h⟩ := Option.bind_eq_some_iff.mp h
  obtain ⟨_, h₂, h⟩ := Option.bind_eq_some_iff.mp h
  obtain ⟨_, h₃, h⟩ := Option.bind_eq_some_iff.mp h
  obtain ⟨_, h₄, h⟩ := Option.bind_eq_some_iff.mp h
  obtain ⟨_, h₅, h⟩ := Option.bind_eq_some_iff.mp h
  obtain ⟨_, h₆, h⟩ := Option.bind_eq_some_iff.mp h
  obtain ⟨_, h₇, h⟩ := Option.bind_eq_some_iff.mp h
  obtain ⟨_, h₈, h⟩ := Option.bind_eq_some_iff.mp h
  obtain ⟨_, h₉, h⟩ := Option.bind_eq_some_iff.mp h
  obtain ⟨_, h₁₀, h⟩ := Option.bind_eq_some_iff.mp h
  obtain ⟨_, h₁₁, h⟩ := Option.bind_eq_some_iff.mp h
  obtain ⟨_, h₁₂, heq⟩ := Option.bind_eq_some_iff.mp h
  obtain rfl := Option.some.inj heq
  refine ⟨?_, integerField_eq_some.mp h₁₂⟩
  simp only [DescriptorFields.texts, List.forall_mem_cons, List.not_mem_nil, false_imp_iff,
    implies_true, and_true, ← nonEmptyText_eq_some]
  exact ⟨h₁, h₂, h₃, h₄, h₅, h₆, h₇, h₈, h₉, h₁₀, h₁₁⟩

theorem protocolFields_eq_ok {members : Dict String Json} {fields : DescriptorFields}
    (h : (protocolFields members : Except (DescriptorRaised ε) _) = .ok fields) :
    typedFields members = some fields ∧ fields.schemaVersion = DESCRIPTOR_SCHEMA_VERSION := by
  rw [protocolFields] at h
  split at h
  · cases h
  · next found hfound =>
    split_ifs at h with hprotocol
    · obtain rfl := Except.ok.inj h
      exact ⟨hfound, hprotocol⟩
    · cases h

theorem caught_eq_ok {α : Type} {x : Except (ContractRaised ε) α} {a : α} (h : caught x = .ok a) :
    x = .ok a := by
  cases x with
  | ok found =>
    obtain rfl := Except.ok.inj h
    rfl
  | error e => cases e <;> cases h

theorem checkDescriptorDigests_eq_ok {expectedDigest : String}
    {d : ProductPortDescriptorSnapshot C}
    (h : checkDescriptorDigests m expectedDigest d = .ok ()) :
    m.productPortDescriptorDigest d = .ok d.descriptorDigest ∧
      d.descriptorDigest = expectedDigest := by
  obtain ⟨computed, hcomputed, h⟩ := Except.bind_eq_ok.mp h
  split at h
  · cases h
  · cases h
  · next hpublished =>
    split at h
    · cases h
    · cases h
    · next hpinned =>
      -- Both comparisons are with the digest that was computed.
      have hsame := Text.eq_of_compareDigest hpublished
      rw [hsame]
      exact ⟨Except.mapError_eq_ok.mp hcomputed, Text.eq_of_compareDigest hpinned⟩

theorem answeredDocument_eq_ok {answer : HttpAnswer} {document : Json}
    (h : (answeredDocument readAnswer answer : Except (DescriptorRaised ε) _) = .ok document) :
    answer.status = 200 ∧ readAnswer answer.body = .ok document := by
  rw [answeredDocument] at h
  split_ifs at h with hstatus
  · cases h
  · split at h
    · cases h
    · cases h
    · next found hfound =>
      obtain rfl := Except.ok.inj h
      exact ⟨not_not.mp hstatus, hfound⟩

/-! ### What is read -/

/-- The snapshot has the fields it is built of, and the contract of its document. -/
theorem buildSnapshot_eq_ok {members document : Dict String Json} {fields : DescriptorFields}
    {scope : Scope} {d : ProductPortDescriptorSnapshot C}
    (h : buildSnapshot U rt m members fields document scope = .ok d) :
    d.texts = fields.texts ∧ d.contractVersion = fields.contractVersion ∧
      d.schemaVersion = fields.schemaVersion ∧ d.destinationScope = scope ∧
      Uuid.parse U (PyRepr.str rt.printable rt.floats
        ((members.get? "destination_binding_id").getD .null)) = some d.destinationBindingId ∧
      ∃ contract, m.capabilityContractFromDocument document d.capabilityId d.application
          d.ownerModule d.capabilitySummary = .ok contract ∧
        d.capabilityContract = some contract := by
  obtain ⟨contract, hcontract, h⟩ := Except.bind_eq_ok.mp h
  obtain ⟨bindingId, hbinding, h⟩ := Except.bind_eq_ok.mp h
  obtain ⟨_, -, h⟩ := Except.bind_eq_ok.mp h
  obtain ⟨_, -, h⟩ := Except.bind_eq_ok.mp h
  obtain rfl := Except.ok.inj h
  exact ⟨rfl, rfl, rfl, rfl, Except.ofOption_eq_ok.mp hbinding, contract, hcontract, rfl⟩

/-- **What is read is authentic.** -/
theorem read_authentic {held : Held} {get : HttpGet → Except ε HttpAnswer}
    {d : ProductPortDescriptorSnapshot C} (h : reader.read U rt readAnswer m held get = .ok d) :
    ∃ request answer, reader.request held = .ok request ∧ get request = .ok answer ∧
      Authentic U rt readAnswer m reader answer d := by
  obtain ⟨request, hrequest, h⟩ := Except.bind_eq_ok.mp h
  obtain ⟨answer, hanswer, h⟩ := Except.bind_eq_ok.mp h
  obtain ⟨document, hdocument, h⟩ := Except.bind_eq_ok.mp h
  obtain ⟨members, hmembers, h⟩ := Except.bind_eq_ok.mp h
  obtain ⟨scope, hscope, h⟩ := Except.bind_eq_ok.mp h
  obtain ⟨fields, hfields, h⟩ := Except.bind_eq_ok.mp h
  obtain ⟨contractDocument, hcontract, h⟩ := Except.bind_eq_ok.mp h
  obtain ⟨localScope, hlocal, h⟩ := Except.bind_eq_ok.mp h
  obtain ⟨snapshot, hsnapshot, h⟩ := Except.bind_eq_ok.mp h
  obtain ⟨⟨⟩, hdigests, h⟩ := Except.bind_eq_ok.mp h
  obtain rfl := Except.ok.inj h
  -- Behind the last check, what each of them let pass.
  obtain ⟨hstatus, hbody⟩ := answeredDocument_eq_ok hdocument
  obtain ⟨rfl, hexact⟩ := exactMembers_eq_ok hmembers
  obtain ⟨hscopeField, hscopeExact⟩ := scopeMembers_eq_ok hscope
  obtain ⟨htyped, hprotocol⟩ := protocolFields_eq_ok hfields
  obtain ⟨htexts, hversion⟩ := typedFields_eq_some htyped
  obtain ⟨⟨hkind, hkindNe⟩, href, hrefNe⟩ := scopeTexts_eq_ok hlocal
  obtain ⟨hsame, hsameVersion, hsameProtocol, rfl, hbinding, contract, hbuilt, hhas⟩ :=
    buildSnapshot_eq_ok (caught_eq_ok hsnapshot)
  obtain ⟨hdigest, hpin⟩ := checkDescriptorDigests_eq_ok hdigests
  have haccepts : Accepts U rt m members snapshot :=
    { fields := hexact
      texts := hsame ▸ htexts
      contractVersion := hsameVersion ▸ hversion
      protocol := hsameProtocol.trans hprotocol
      scope := ⟨scope, hscopeField, hscopeExact, hkind, hkindNe, href, hrefNe⟩
      binding := hbinding
      contract := ⟨contractDocument, contract, contractMembers_eq_ok hcontract, hbuilt, hhas⟩ }
  exact ⟨request, answer, Except.mapError_eq_ok.mp hrequest, Except.mapError_eq_ok.mp hanswer,
    ⟨hstatus, ⟨members, hbody, haccepts⟩, hdigest, hpin⟩⟩

/-- A prepared value holds a descriptor that was read, and the registry of its contract. -/
theorem preparedValue_eq_ok {env : Surroundings ε C G} {value : PreparedProductPort C G}
    (h : preparedValue U rt readAnswer m reader env = .ok value) :
    reader.read U rt readAnswer m env.held env.get = .ok value.descriptor ∧
      ∃ contract, value.descriptor.capabilityContract = some contract ∧
        m.fromDeclarations [contract] = .ok value.registry := by
  obtain ⟨descriptor, hread, h⟩ := Except.bind_eq_ok.mp h
  split at h
  · cases h
  · next contract hcontract =>
    obtain ⟨registry, hregistry, h⟩ := Except.bind_eq_ok.mp h
    obtain rfl := Except.ok.inj h
    exact ⟨hread, contract, hcontract, Except.mapError_eq_ok.mp hregistry⟩

/-- Where a registry can be made of any one contract, a preparation that reads returns. -/
theorem exists_preparedValue {env : Surroundings ε C G} {d : ProductPortDescriptorSnapshot C}
    (hmakes : MakesRegistries m) (h : reader.read U rt readAnswer m env.held env.get = .ok d) :
    ∃ registry, preparedValue U rt readAnswer m reader env = .ok ⟨d, registry⟩ := by
  obtain ⟨_, _, -, -, hauthentic⟩ := read_authentic h
  obtain ⟨members, -, haccepts⟩ := hauthentic.body
  obtain ⟨_, contract, -, -, hcontract⟩ := haccepts.contract
  obtain ⟨registry, hregistry⟩ := hmakes contract
  refine ⟨registry, ?_⟩
  rw [preparedValue, h, Except.ok_bind]
  simp only [hcontract, hregistry]
  rfl

theorem readBy_eq_answeredBy (hmakes : MakesRegistries m) (call : Call ε C G) :
    readBy U rt readAnswer m reader call = answeredBy U rt readAnswer m reader call := by
  have hvalue : ∀ env : Surroundings ε C G,
      (preparedValue U rt readAnswer m reader env).map PreparedProductPort.descriptor =
        reader.read U rt readAnswer m env.held env.get := by
    intro env
    cases hread : reader.read U rt readAnswer m env.held env.get with
    | error raised =>
      rw [preparedValue, hread]
      rfl
    | ok d =>
      obtain ⟨registry, hprepared⟩ := exists_preparedValue hmakes hread
      rw [hprepared]
      rfl
  have hcall : ∀ env : Surroundings ε C G,
      readBy U rt readAnswer m reader (.prepareOwner env) =
        answeredBy U rt readAnswer m reader (.prepareOwner env) := by
    intro env
    simp only [readBy, answeredBy, ← hvalue env]
    cases reader.request env.held <;> cases preparedValue U rt readAnswer m reader env <;> rfl
  cases call with
  | prepareOwner env => exact hcall env
  | reconcile prepared registry env =>
    cases prepared with
    | none => exact hcall env
    | some ref => rfl
  | allocate ref => rfl

/-- Then what was read last for a preparation that returned is what was read last. -/
theorem lastRead_eq_lastAnswered (hmakes : MakesRegistries m)
    (steps : List (ReaderState C G × Call ε C G)) :
    lastRead U rt readAnswer m reader steps = lastAnswered U rt readAnswer m reader steps := by
  simp only [lastRead, lastAnswered, readBy_eq_answeredBy hmakes]

/-- What a call reads for a preparation that returns. -/
theorem exists_read_of_preparedValue {env : Surroundings ε C G} {value : PreparedProductPort C G}
    (h : preparedValue U rt readAnswer m reader env = .ok value) :
    ∃ answer, Authentic U rt readAnswer m reader answer value.descriptor ∧
      ∀ registry, readBy U rt readAnswer m reader (.prepareOwner env) =
          some (answer, value.descriptor) ∧
        readBy U rt readAnswer m reader (.reconcile none registry env) =
          some (answer, value.descriptor) := by
  obtain ⟨request, answer, hrequest, hanswer, hauthentic⟩ :=
    read_authentic (preparedValue_eq_ok h).1
  refine ⟨answer, hauthentic, fun registry => ?_⟩
  simp [readBy, hrequest, h, hanswer, Except.toOption]

/-! ### What is kept -/

variable {s s' : ReaderState C G} {steps : List (ReaderState C G × Call ε C G)}

variable (U rt readAnswer m reader) in
/-- What the reader keeps: nothing before it read, and then the value of what it read last, of an
authentic answer. -/
structure Keeps (steps : List (ReaderState C G × Call ε C G)) (s : ReaderState C G) : Prop where
  distinct : (s.values.map Ref.address).Nodup
  kept : ∀ ref ∈ s.prepared, ref ∈ s.values ∧
    (∃ answer, lastRead U rt readAnswer m reader steps = some (answer, ref.object.descriptor) ∧
      Authentic U rt readAnswer m reader answer ref.object.descriptor) ∧
    ∃ contract, ref.object.descriptor.capabilityContract = some contract ∧
      m.fromDeclarations [contract] = .ok ref.object.registry

theorem lastRead_snoc {call : Call ε C G} :
    lastRead U rt readAnswer m reader (steps ++ [(s, call)]) =
      (readBy U rt readAnswer m reader call).or (lastRead U rt readAnswer m reader steps) := by
  rw [lastRead, List.filterMap_append, lastRead]
  cases hread : readBy U rt readAnswer m reader call with
  | none => simp [hread]
  | some read => simp [hread]

/-- A call that reads nothing leaves what is kept. -/
theorem Keeps.snoc_of_readBy_eq_none (call : Call ε C G)
    (h : Keeps U rt readAnswer m reader steps s)
    (hread : readBy U rt readAnswer m reader call = none) :
    Keeps U rt readAnswer m reader (steps ++ [(s, call)]) s := by
  refine ⟨h.distinct, fun ref href => ?_⟩
  rw [lastRead_snoc, hread, Option.none_or]
  exact h.kept ref href

/-- A value that is made is kept, as the last one that was read. -/
theorem Keeps.snoc_of_prepared {call : Call ε C G} {env : Surroundings ε C G}
    {value : PreparedProductPort C G} (h : Keeps U rt readAnswer m reader steps s)
    (hfresh : Fresh s env.address) (hvalue : preparedValue U rt readAnswer m reader env = .ok value)
    (hcall : call = .prepareOwner env ∨ ∃ registry, call = .reconcile none registry env) :
    Keeps U rt readAnswer m reader (steps ++ [(s, call)])
      ⟨⟨env.address, value⟩ :: s.values, some ⟨env.address, value⟩⟩ := by
  obtain ⟨answer, hauthentic, hread⟩ := exists_read_of_preparedValue hvalue
  have hreadBy : readBy U rt readAnswer m reader call = some (answer, value.descriptor) := by
    rcases hcall with rfl | ⟨registry, rfl⟩
    · exact (hread none).1
    · exact (hread registry).2
  -- A new address keeps the addresses distinct; the call is the last that reads.
  refine ⟨?_, ?_⟩
  · rw [List.map_cons, List.nodup_cons]
    refine ⟨fun hmem => ?_, h.distinct⟩
    obtain ⟨ref, href, haddress⟩ := List.mem_map.mp hmem
    exact hfresh ref href haddress
  · rintro _ ⟨⟩
    refine ⟨List.mem_cons_self, ⟨answer, ?_, hauthentic⟩, (preparedValue_eq_ok hvalue).2⟩
    rw [lastRead_snoc, hreadBy, Option.some_or]

/-- A value that someone else makes is not kept. -/
theorem Keeps.snoc_of_allocate {ref : Ref C G} (h : Keeps U rt readAnswer m reader steps s)
    (hfresh : Fresh s ref.address) :
    Keeps U rt readAnswer m reader (steps ++ [(s, .allocate ref)])
      { s with values := ref :: s.values } := by
  have hkept := h.snoc_of_readBy_eq_none (.allocate ref) rfl
  refine ⟨?_, fun kept hmem => ?_⟩
  · rw [List.map_cons, List.nodup_cons]
    refine ⟨fun hmem => ?_, h.distinct⟩
    obtain ⟨other, hother, haddress⟩ := List.mem_map.mp hmem
    exact hfresh other hother haddress
  · obtain ⟨hvalues, hrest⟩ := hkept.kept kept hmem
    exact ⟨List.mem_cons_of_mem _ hvalues, hrest⟩

theorem prepareOwner_eq_ok {env : Surroundings ε C G} {ref : Ref C G}
    (h : prepareOwner U rt readAnswer m reader s env = .ok (s', ref)) :
    ∃ value, preparedValue U rt readAnswer m reader env = .ok value ∧
      ref = ⟨env.address, value⟩ ∧ s' = ⟨ref :: s.values, some ref⟩ := by
  obtain ⟨value, hvalue, heq⟩ := Except.map_eq_ok.mp h
  obtain ⟨rfl, rfl⟩ := Prod.mk.inj heq
  exact ⟨value, hvalue, rfl, rfl⟩

/-- A preparation that raises reads nothing. -/
theorem readBy_of_prepareOwner_error {env : Surroundings ε C G} {raised : DescriptorRaised ε}
    (h : prepareOwner U rt readAnswer m reader s env = .error raised) (registry : Option G) :
    readBy U rt readAnswer m reader (.prepareOwner env) = none ∧
      readBy U rt readAnswer m reader (.reconcile none registry env) = none := by
  have hvalue : ∀ value, preparedValue U rt readAnswer m reader env ≠ .ok value := by
    intro value hvalue
    rw [prepareOwner, hvalue] at h
    cases h
  cases hprepared : preparedValue U rt readAnswer m reader env with
  | error e => simp [readBy, hprepared]
  | ok value => exact absurd hprepared (hvalue value)

/-- **One call** keeps the value of what was read last, and passes a value that exists. -/
theorem Keeps.passedValue {prepared : Option (Ref C G)} (registry : Option G)
    {env : Surroundings ε C G} (h : Keeps U rt readAnswer m reader steps s)
    (hpassed : ∀ ref ∈ prepared, ref ∈ s.values) (hfresh : Fresh s env.address) {ref : Ref C G}
    (hvalue : ProductPort.passedValue U rt readAnswer m reader s prepared env = .ok (s', ref)) :
    Keeps U rt readAnswer m reader (steps ++ [(s, .reconcile prepared registry env)]) s' ∧
      ref ∈ s'.values := by
  cases prepared with
  | some passed =>
    obtain ⟨rfl, rfl⟩ := Prod.mk.inj (Except.ok.inj hvalue)
    exact ⟨h.snoc_of_readBy_eq_none _ rfl, hpassed _ rfl⟩
  | none =>
    obtain ⟨value, hmade, rfl, rfl⟩ := prepareOwner_eq_ok hvalue
    exact ⟨h.snoc_of_prepared hfresh hmade (.inr ⟨registry, rfl⟩), List.mem_cons_self⟩

/-- Of the values that exist, only the one that is kept has its address. -/
theorem Keeps.eq_of_address_eq {kept ref : Ref C G} (h : Keeps U rt readAnswer m reader steps s)
    (hkept : kept ∈ s.prepared) (href : ref ∈ s.values) (haddress : kept.address = ref.address) :
    kept = ref :=
  List.inj_on_of_nodup_map h.distinct (h.kept kept hkept).1 href haddress

variable [DecidableEq C]

/-- The state a reconciliation leaves is that of its preparation, if it makes one. -/
theorem Keeps.reconcile {prepared : Option (Ref C G)} {registry : Option G}
    {env : Surroundings ε C G} (h : Keeps U rt readAnswer m reader steps s)
    (hpassed : ∀ ref ∈ prepared, ref ∈ s.values) (hfresh : Fresh s env.address) :
    Keeps U rt readAnswer m reader (steps ++ [(s, .reconcile prepared registry env)])
      (reconcile U rt readAnswer m reader s prepared registry env).state := by
  cases hvalue : ProductPort.passedValue U rt readAnswer m reader s prepared env with
  | error raised =>
    have hstate : (ProductPort.reconcile U rt readAnswer m reader s prepared registry env).state =
        s := by
      rw [ProductPort.reconcile, hvalue]
    rw [hstate]
    cases prepared with
    | some passed => cases hvalue
    | none => exact h.snoc_of_readBy_eq_none _ (readBy_of_prepareOwner_error hvalue registry).2
  -- Whatever the checks say, the preparation has made its state.
  | ok passed =>
    obtain ⟨t, ref⟩ := passed
    have hstate : (ProductPort.reconcile U rt readAnswer m reader s prepared registry env).state =
        t := by
      rw [ProductPort.reconcile, hvalue]
      simp only
      cases checkedOwner m t ref registry env <;> rfl
    rw [hstate]
    exact (h.passedValue registry hpassed hfresh hvalue).1

/-- **In every run** the reader keeps the value of what it read last. -/
theorem keeps_last_prepared (h : (reconcilerSystem U rt readAnswer m reader).Run steps s) :
    Keeps U rt readAnswer m reader steps s := by
  induction h with
  | init h =>
    obtain rfl := h
    exact ⟨List.nodup_nil, by rintro _ ⟨⟩⟩
  | snoc _ hs ih =>
    cases hs with
    | prepared hfresh hprepared =>
      obtain ⟨value, hmade, rfl, rfl⟩ := prepareOwner_eq_ok hprepared
      exact ih.snoc_of_prepared hfresh hmade (.inl rfl)
    -- A preparation that raises reads nothing for one that returns.
    | raised hraised =>
      exact ih.snoc_of_readBy_eq_none _ (readBy_of_prepareOwner_error hraised none).1
    | reconcile hpassed hfresh => exact ih.reconcile hpassed hfresh
    | allocate hfresh => exact ih.snoc_of_allocate hfresh

/-- A value that passes the checks is the one that is kept, and its contract is the one of both
registries. -/
theorem checkedOwner_eq_ok {prepared : Ref C G} {registry : Option G} {env : Surroundings ε C G}
    {installed : G} (h : checkedOwner m s prepared registry env = .ok installed) :
    (∃ kept ∈ s.prepared, kept.address = prepared.address) ∧ env.installed = .ok installed ∧
      m.get installed prepared.object.descriptor.capabilityId =
        .ok prepared.object.descriptor.capabilityContract ∧
      m.get (suppliedRegistry m registry prepared.object.registry)
        prepared.object.descriptor.capabilityId =
          .ok prepared.object.descriptor.capabilityContract := by
  rw [checkedOwner] at h
  split_ifs at h with hkept
  · cases h
  · obtain ⟨found, hfound, h⟩ := Except.bind_eq_ok.mp h
    obtain ⟨owner, howner, h⟩ := Except.bind_eq_ok.mp h
    obtain ⟨entry, hentry, h⟩ := Except.bind_eq_ok.mp h
    split_ifs at h with hdiffers
    · cases h
    · obtain rfl := Except.ok.inj h
      obtain ⟨hsupplied, hown⟩ := not_or.mp hdiffers
      obtain rfl := not_not.mp hsupplied
      rw [not_not.mp hown]
      exact ⟨Option.map_eq_some_iff.mp (not_not.mp hkept), Except.mapError_eq_ok.mp hfound,
        Except.mapError_eq_ok.mp howner, Except.mapError_eq_ok.mp hentry⟩

variable (U rt readAnswer m reader s) in
/-- What a reconciliation does, where the value it is passed exists. -/
theorem reconcile_cases (prepared : Option (Ref C G)) (registry : Option G)
    (env : Surroundings ε C G) :
    (∃ state raised, reconcile U rt readAnswer m reader s prepared registry env =
      ⟨state, none, .error raised⟩) ∨
    ∃ t ref installed,
      passedValue U rt readAnswer m reader s prepared env = .ok (t, ref) ∧
      checkedOwner m t ref registry env = .ok installed ∧
      (reconcile U rt readAnswer m reader s prepared registry env).state = t ∧
      (reconcile U rt readAnswer m reader s prepared registry env).opened =
        some ref.object.descriptor ∧
      ∀ client given, (reconcile U rt readAnswer m reader s prepared registry env).result =
        .ok (client, given) → client.application = ref.object.descriptor.application ∧
          given = installed := by
  rw [reconcile]
  cases hvalue : passedValue U rt readAnswer m reader s prepared env with
  | error raised => exact .inl ⟨_, _, rfl⟩
  | ok passed =>
    obtain ⟨t, ref⟩ := passed
    simp only
    cases howner : checkedOwner m t ref registry env with
    | error raised => exact .inl ⟨_, _, rfl⟩
    | ok installed =>
      refine .inr ⟨t, ref, installed, rfl, howner, rfl, rfl, fun client given h => ?_⟩
      obtain ⟨_, -, h⟩ := Except.bind_eq_ok.mp h
      obtain ⟨_, -, h⟩ := Except.bind_eq_ok.mp h
      obtain ⟨found, hfound, h⟩ := Except.bind_eq_ok.mp h
      obtain ⟨rfl, rfl⟩ := Prod.mk.inj (Except.ok.inj h)
      rw [destinationClient] at hfound
      split_ifs at hfound
      · obtain rfl := Except.ok.inj hfound
        exact ⟨rfl, rfl⟩

variable {prepared : Option (Ref C G)} {registry : Option G} {env : Surroundings ε C G}

/-- In every run a session is opened only for the descriptor that was read last, of an authentic
answer, whose contract is the one of the installed and of the supplied registry; a client is
returned only behind such a session, and a call that opens none raises. -/
theorem projects_authentic (h : (reconcilerSystem U rt readAnswer m reader).Run steps s)
    (hstep : (reconcilerSystem U rt readAnswer m reader).step s (.reconcile prepared registry env)
      s') :
    let made := reconcile U rt readAnswer m reader s prepared registry env
    let calls := steps ++ [(s, .reconcile prepared registry env)]
    (∀ d, made.opened = some d → ∃ answer contract installed own,
      lastRead U rt readAnswer m reader calls = some (answer, d) ∧
      (MakesRegistries m → lastAnswered U rt readAnswer m reader calls = some (answer, d)) ∧
      Authentic U rt readAnswer m reader answer d ∧
      d.capabilityContract = some contract ∧
      env.installed = .ok installed ∧
      m.get installed d.capabilityId = .ok (some contract) ∧
      m.fromDeclarations [contract] = .ok own ∧
      m.get (suppliedRegistry m registry own) d.capabilityId = .ok (some contract)) ∧
    (∀ client given, made.result = .ok (client, given) →
      ∃ d, made.opened = some d ∧ client.application = d.application ∧
        env.installed = .ok given) ∧
    (made.opened = none → ∃ raised, made.result = .error raised) := by
  intro made calls
  obtain ⟨hpassed, hfresh⟩ : (∀ ref ∈ prepared, ref ∈ s.values) ∧ Fresh s env.address := by
    cases hstep with
    | reconcile hpassed hfresh => exact ⟨hpassed, hfresh⟩
  have hkeeps := keeps_last_prepared h
  rcases reconcile_cases U rt readAnswer m reader s prepared registry env with
    ⟨state, raised, hmade⟩ | ⟨t, ref, installed, hvalue, howner, -, hopened, hresult⟩
  · refine ⟨fun d hd => ?_, fun client given hclient => ?_, fun _ => ⟨raised, ?_⟩⟩
    · simp only [made, hmade] at hd
      cases hd
    · simp only [made, hmade] at hclient
      cases hclient
    · simp only [made, hmade]
  · obtain ⟨⟨kept, hkept, haddress⟩, hinstalled, hentry, hsupplied⟩ := checkedOwner_eq_ok howner
    refine ⟨fun d hd => ?_, fun client given hclient => ?_, fun hnone => ?_⟩
    · obtain rfl := Option.some.inj (hopened.symm.trans hd)
      obtain ⟨hkeeps', href⟩ := hkeeps.passedValue registry hpassed hfresh hvalue
      -- What passed the check of identity is the very value that is kept.
      obtain rfl := hkeeps'.eq_of_address_eq hkept href haddress
      obtain ⟨-, ⟨answer, hlast, hauthentic⟩, contract, hcontract, hown⟩ := hkeeps'.kept kept hkept
      rw [hcontract] at hentry hsupplied
      exact ⟨answer, contract, installed, _, hlast,
        fun hmakes => (lastRead_eq_lastAnswered hmakes calls).symm.trans hlast, hauthentic,
        hcontract, hinstalled, hentry, hown, hsupplied⟩
    · obtain ⟨happlication, rfl⟩ := hresult client given hclient
      exact ⟨_, hopened, happlication, hinstalled⟩
    · rw [hopened] at hnone
      cases hnone

omit [DecidableEq C] in
/-- What was read last was read by a call, of an authentic answer to its request. -/
theorem exists_call_of_lastRead {answer : HttpAnswer} {d : ProductPortDescriptorSnapshot C}
    (h : lastRead U rt readAnswer m reader steps = some (answer, d)) :
    ∃ x ∈ steps, Authentic U rt readAnswer m reader answer d ∧
      (x.2.BindsByText U rt readAnswer reader → BindsByText U rt readAnswer answer) := by
  obtain ⟨x, hx, hread⟩ := List.mem_filterMap.mp (List.mem_of_getLast? h)
  refine ⟨x, hx, ?_⟩
  -- Only a preparation reads, and it reads what its transport answers.
  have hprepared : ∀ env : Surroundings ε C G,
      (match reader.request env.held, preparedValue U rt readAnswer m reader env with
      | .ok request, .ok value =>
        (env.get request).toOption.map fun answer => (answer, value.descriptor)
      | _, _ => none) = some (answer, d) →
      Authentic U rt readAnswer m reader answer d ∧
        ∃ request, reader.request env.held = .ok request ∧ env.get request = .ok answer := by
    intro env heq
    split at heq
    · next request value hrequest hvalue =>
      obtain ⟨found, hfound, hpair⟩ := Option.map_eq_some_iff.mp heq
      obtain ⟨rfl, rfl⟩ := Prod.mk.inj hpair
      obtain ⟨request', answer', hrequest', hanswer', hauthentic⟩ :=
        read_authentic (preparedValue_eq_ok hvalue).1
      obtain rfl := Except.ok.inj (hrequest.symm.trans hrequest')
      rw [hanswer'] at hfound
      obtain rfl := Option.some.inj hfound
      exact ⟨hauthentic, request, hrequest, hanswer'⟩
    · cases heq
  obtain ⟨state, call⟩ := x
  cases call with
  | prepareOwner env =>
    obtain ⟨hauthentic, request, hrequest, hanswer⟩ := hprepared env hread
    exact ⟨hauthentic, fun hbinds => hbinds request answer hrequest hanswer hauthentic.status⟩
  | reconcile prepared registry env =>
    cases prepared with
    | none =>
      obtain ⟨hauthentic, request, hrequest, hanswer⟩ := hprepared env hread
      exact ⟨hauthentic, fun hbinds => hbinds request answer hrequest hanswer hauthentic.status⟩
    | some ref => cases hread
  | allocate ref => cases hread

omit [DecidableEq C] in
/-- An authentic answer is a declaration iff it gives a text for the id of the binding. -/
theorem Authentic.declaration_iff {answer : HttpAnswer} {d : ProductPortDescriptorSnapshot C}
    (h : Authentic U rt readAnswer m reader answer d) :
    Declaration U rt readAnswer m reader answer d ↔ BindsByText U rt readAnswer answer := by
  constructor
  · rintro ⟨-, found, hfound, text, htext⟩ members hmembers value hvalue -
    obtain rfl := Json.obj.inj (Except.ok.inj (hfound.symm.trans hmembers))
    exact ⟨text, Option.some.inj (hvalue.symm.trans htext)⟩
  · intro hbinds
    obtain ⟨members, hmembers, haccepts⟩ := h.body
    refine ⟨h, members, hmembers, ?_⟩
    cases hvalue : Dict.get? members "destination_binding_id" with
    | none =>
      -- A document has every field of a descriptor.
      have hmem : "destination_binding_id" ∈ Dict.keys members :=
        haccepts.fields.2 _ (by decide)
      rw [← Dict.get?_isSome_iff, hvalue] at hmem
      cases hmem
    | some value =>
      have hid := haccepts.binding
      rw [hvalue, Option.getD_some] at hid
      obtain ⟨text, rfl⟩ := hbinds members hmembers value hvalue (by rw [hid]; rfl)
      exact ⟨text, hvalue⟩

/-- **A destination is projected only from an authentic, pinned and installed declaration, where the
id of the binding is given as a text**: in a run whose calls are answered so, whatever is passed to
them; and a session that is opened for anything else breaks the law. -/
theorem projects_only_declared_iff (U : UnicodeDigits) (rt : Runtime)
    (readAnswer : ByteArray → Except Json.LoadsError Json) (m : DescriptorModule ε C G)
    (reader : ProductPortDescriptorReconciler R) {prepared : Option (Ref C G)}
    {registry : Option G} {env : Surroundings ε C G}
    (h : (reconcilerSystem U rt readAnswer m reader).Run steps s)
    (hstep : (reconcilerSystem U rt readAnswer m reader).step s (.reconcile prepared registry env)
      s') :
    let made := reconcile U rt readAnswer m reader s prepared registry env
    let calls := steps ++ [(s, .reconcile prepared registry env)]
    ((∀ x ∈ calls, x.2.BindsByText U rt readAnswer reader) →
      ProjectsOnlyDeclared U rt readAnswer m reader calls registry env made) ∧
    (ProjectsOnlyDeclared U rt readAnswer m reader calls registry env made ↔
      ∀ d answer, made.opened = some d →
        lastRead U rt readAnswer m reader calls = some (answer, d) →
        BindsByText U rt readAnswer answer) := by
  intro made calls
  obtain ⟨hopened, hreturned, hraises⟩ := projects_authentic h hstep
  have hiff : ProjectsOnlyDeclared U rt readAnswer m reader calls registry env made ↔
      ∀ d answer, made.opened = some d →
        lastRead U rt readAnswer m reader calls = some (answer, d) →
        BindsByText U rt readAnswer answer := by
    constructor
    · intro hlaw d answer hd hlast
      obtain ⟨found, _, _, _, hfound, -, hdeclared, -⟩ := hlaw.opened d hd
      obtain ⟨rfl, -⟩ := Prod.mk.inj (Option.some.inj (hlast.symm.trans hfound))
      exact hdeclared.declaration_iff.mp hdeclared
    · intro hbinds
      refine ⟨fun d hd => ?_, hreturned, hraises⟩
      obtain ⟨answer, contract, installed, own, hlast, hall, hauthentic, hrest⟩ := hopened d hd
      exact ⟨answer, contract, installed, own, hlast, hall,
        hauthentic.declaration_iff.mpr (hbinds d answer hd hlast), hrest⟩
  refine ⟨fun hcalls => hiff.mpr fun d answer _ hlast => ?_, hiff⟩
  obtain ⟨x, hx, -, hbinds⟩ := exists_call_of_lastRead hlast
  exact hbinds (hcalls x hx)

/-! ### A declared destination -/

/-- The digest that is pinned. -/
def declaredDigest : String := "0f1e2d3c4b5a69788796a5b4c3d2e1f00f1e2d3c4b5a69788796a5b4c3d2e1f0"

/-- The declaration of a destination. -/
def declaredMembers : Dict String Json :=
  [("schema_version", .str DESCRIPTOR_SCHEMA_VERSION), ("wire_schema_version", .str "v1"),
   ("application", .str "dotmac_sub"), ("owner_module", .str "operations"),
   ("capability_id", .str "operations.observations.v1"), ("capability_summary", .str "observes"),
   ("contract_version", .int 1),
   ("destination_binding_id", .str "0000000a-0000-0000-0000-000000000001"),
   ("delivery_path", .str "/observations"), ("mirror_path", .str "/observations/mirror"),
   ("destination_scope", .obj [("kind", .str "tenant"), ("ref", .str "main")]),
   ("activation_state", .str "active"), ("source_revision", .str "abc123"),
   ("capability_contract", .obj []), ("descriptor_digest", .str declaredDigest)]

/-- A module whose contracts are their ids, and that digests the declaration. -/
def declaredModule : DescriptorModule Empty String (List String) where
  capabilityContractFromDocument _ capabilityId _ _ _ := .ok capabilityId
  fromDeclarations := .ok
  localScope _ _ := .ok ()
  snapshot _ := .ok ()
  productPortDescriptorDigest _ := .ok declaredDigest
  get registry capabilityId := .ok (registry.find? (· = capabilityId))
  truthy registry := !registry.isEmpty

/-- A reader that pins it. -/
def declaredReader : ProductPortDescriptorReconciler asciiHosts where
  url := "https://sub.example/internal/descriptor"
  parts := ⟨"https", "sub.example", "/internal/descriptor", "", ""⟩
  expectedDigest := declaredDigest
  apiKeyRef := "env://INTEGRATOR_SECRET_REGISTRY"
  timeout := .finite 3
  split := by decide +kernel
  plain := by decide +kernel
  digest := by decide +kernel
  mode := .write
  baseUrl := "https://sub.example"

/-- The transport answers with the declaration, and its contract is installed. -/
def declaredSurroundings : Surroundings Empty String (List String) where
  held := registryHeld
  get _ := .ok ⟨200, "".toUTF8, none⟩
  address := 0
  installed := .ok ["operations.observations.v1"]
  reconciled := .ok ()
  committed := .ok ()

theorem projects_only_declared_iff_first :
    ∃ d, (reconcile UnicodeDigits.latin1 locatedRuntime (fun _ => .ok (.obj declaredMembers))
        declaredModule declaredReader ⟨[], none⟩ none none declaredSurroundings).opened = some d ∧
      ∃ answer, Declaration UnicodeDigits.latin1 locatedRuntime
        (fun _ => .ok (.obj declaredMembers)) declaredModule declaredReader answer d := by
  have hopened : (reconcile UnicodeDigits.latin1 locatedRuntime
      (fun _ => .ok (.obj declaredMembers)) declaredModule declaredReader ⟨[], none⟩ none none
      declaredSurroundings).opened.map (·.capabilityId) = some "operations.observations.v1" := by
    decide +kernel
  obtain ⟨d, hd, -⟩ := Option.map_eq_some_iff.mp hopened
  have hbinds : ∀ answer, BindsByText UnicodeDigits.latin1 locatedRuntime
      (fun _ => .ok (.obj declaredMembers)) answer := by
    intro answer members hmembers value hvalue _
    obtain rfl := Json.obj.inj (Except.ok.inj hmembers)
    exact ⟨_, (Option.some.inj hvalue).symm⟩
  have hstep : (reconcilerSystem UnicodeDigits.latin1 locatedRuntime
      (fun _ => .ok (.obj declaredMembers)) declaredModule declaredReader).step ⟨[], none⟩
      (.reconcile none none declaredSurroundings) _ :=
    .reconcile (by rintro _ ⟨⟩) (by rintro _ ⟨⟩)
  have hlaw := (projects_only_declared_iff UnicodeDigits.latin1 locatedRuntime
    (fun _ => .ok (.obj declaredMembers)) declaredModule declaredReader (.init rfl)
    hstep).1 fun x hx => by
      obtain rfl := List.mem_singleton.mp hx
      exact fun _ answer _ _ _ => hbinds answer
  obtain ⟨answer, _, _, _, -, -, hdeclared, -⟩ := hlaw.opened d hd
  exact ⟨d, hd, answer, hdeclared⟩

/-- The declaration, with a number for the id of the binding. -/
def numberedMembers : Dict String Json :=
  declaredMembers.set "destination_binding_id" (.int 12345678901234567890123456789012)

/-- A number of as many digits as an id is taken for one: a session is opened for it. -/
theorem numbered_not_projects_only_declared :
    let readAnswer : ByteArray → Except Json.LoadsError Json := fun _ => .ok (.obj numberedMembers)
    let made := reconcile UnicodeDigits.latin1 locatedRuntime readAnswer declaredModule
      declaredReader ⟨[], none⟩ none none declaredSurroundings
    (reconcilerSystem UnicodeDigits.latin1 locatedRuntime readAnswer declaredModule
      declaredReader).Run [] ⟨[], none⟩ ∧
    (reconcilerSystem UnicodeDigits.latin1 locatedRuntime readAnswer declaredModule
      declaredReader).step ⟨[], none⟩ (.reconcile none none declaredSurroundings) made.state ∧
    ¬ ProjectsOnlyDeclared UnicodeDigits.latin1 locatedRuntime readAnswer declaredModule
      declaredReader [(⟨[], none⟩, .reconcile none none declaredSurroundings)] none
      declaredSurroundings made := by
  intro readAnswer made
  refine ⟨.init rfl, .reconcile (by rintro _ ⟨⟩) (by rintro _ ⟨⟩), fun hlaw => ?_⟩
  have hopened : made.opened.map (·.capabilityId) = some "operations.observations.v1" := by
    decide +kernel
  obtain ⟨d, hd, -⟩ := Option.map_eq_some_iff.mp hopened
  obtain ⟨answer, _, _, _, -, -, ⟨-, members, hmembers, text, htext⟩, -⟩ := hlaw.opened d hd
  obtain rfl := Json.obj.inj (Except.ok.inj hmembers)
  have hnumber : numberedMembers.get? "destination_binding_id" =
      some (.int 12345678901234567890123456789012) := by decide +kernel
  rw [hnumber] at htext
  cases htext

end DotmacIntegrator.ProductPort
