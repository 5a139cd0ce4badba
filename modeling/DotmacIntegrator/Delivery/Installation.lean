import DotmacIntegrator.Delivery.Shadow
import DotmacIntegrator.Foundation.StepSystem
import DotmacIntegrator.ProductPort.Posts

/-!
# The installed port

The client and the registry are installed at startup and held. The worker chooses the pass by the
direction the installed client declares, and the delivery pump checks that direction once more.
An installation may land between any two of these reads.

## Main definitions

* `installProductPort`: one call, accepted or refused
* `deliverOnce`: one pass of the worker, with the installations that land inside it
* `portRuns`: runs of installations and passes, with the effects of every pass

## Main results

* `installProductPort_of_raises`: a refused call changes nothing
* `portInvariant`: what is installed declares a direction, and no pass of a run settles anything
  unless it began with a client that writes
-/

namespace DotmacIntegrator.Delivery

open ProductPort Secrets

/-- What `getattr(client, "writes", None)` finds. -/
inductive WritesAttribute
  | missing
  | flag (writes : Bool)
  | other (truthy : Bool)
  deriving DecidableEq, Repr

/-- `bool(getattr(client, "writes", False))`. -/
def WritesAttribute.truthy : WritesAttribute → Bool
  | missing => false
  | flag writes => writes
  | other truthy => truthy

/-- What the assembly asks of an object it is handed as its client. -/
structure ClientShape (κ : Type*) where
  callableDeliver : κ → Bool
  writes : κ → WritesAttribute

/-- The client and the registry that are held. -/
structure Installation (κ ρ : Type*) where
  port : Option κ
  registry : Option ρ
  deriving DecidableEq, Repr

/-- Nothing is installed before the first call. -/
def Installation.empty (κ ρ : Type*) : Installation κ ρ := ⟨none, none⟩

/-- The arguments of one call. -/
structure InstallCall (κ ρ : Type*) where
  client : κ
  registry : Option ρ
  installRegistry : Bool

/-- Why a call is refused; `ε` is what the module's own installation raises. -/
inductive InstallError (ε : Type*)
  | noDeliver
  | noDirection
  | registry (e : ε)
  deriving DecidableEq, Repr

variable {κ ρ ι ε : Type*} (shape : ClientShape κ) (installCapabilityRegistry : Option ρ → Option ε)

/-- `install_product_port`: what is held afterwards, and what the call raises. -/
def installProductPort (held : Installation κ ρ) (call : InstallCall κ ρ) :
    Installation κ ρ × Option (InstallError ε) :=
  if shape.callableDeliver call.client = false then (held, some .noDeliver)
  else match shape.writes call.client with
    | .flag _ =>
      match if call.installRegistry then installCapabilityRegistry call.registry else none with
      | some e => (held, some (.registry e))
      | none => (⟨some call.client, call.registry⟩, none)
    | _ => (held, some .noDirection)

/-- `product_port_writes`: the direction of what is held. -/
def productPortWrites (held : Installation κ ρ) : Bool :=
  match held.port with
  | none => false
  | some client => (shape.writes client).truthy

/-- `product_port`: both, or neither. -/
def productPort (held : Installation κ ρ) : Option (κ × ρ) :=
  match held.port, held.registry with
  | some client, some registry => some (client, registry)
  | _, _ => none

/-- What a pass does to the database: the module's `deliver_receipt`, which claims the receipt and
settles it, or one observation beside it. -/
inductive PassEffect (ι : Type*)
  | deliverReceipt (id : ι)
  | recordShadow (id : ι) (verdict : SafeShadowVerdict)
  deriving DecidableEq, Repr

/-- The effect claims or settles a receipt. -/
def PassEffect.settles : PassEffect ι → Bool
  | deliverReceipt _ => true
  | recordShadow _ _ => false

/-- How a pass ends. -/
inductive PassEnd (ε : Type*)
  | delivered (counts : Except (PumpError ε) Counted)
  | mirrored (raised : Option MirrorError)
  | productPortNotInstalled

/-- One pass: the installations that land before each of its reads, and what the database, the
clients and the module do in it. -/
structure DeliveryPass (κ ρ ι ε : Type*) where
  beforePort : List (InstallCall κ ρ)
  beforeGuard : List (InstallCall κ ρ)
  dueReceipts : List ι
  dueShadowReceipts : List ι
  deliverReceipt : κ → ρ → ι → ReceiptDelivery ε
  compare : κ → ProductRequest → Except MirrorError MirrorVerdict
  shadowRequest : ρ → ι → ShadowRequest

/-- What is held after some calls, whatever they raise. -/
def installAll (held : Installation κ ρ) (calls : List (InstallCall κ ρ)) : Installation κ ρ :=
  calls.foldl (fun held call => (installProductPort shape installCapabilityRegistry held call).1)
    held

/-- What a shadow pass does to the database. -/
def shadowEffects (pass : ShadowPass ι) : List (PassEffect ι) :=
  pass.records.map fun r => .recordShadow r.1 r.2

/-- What a pass of the pump does to the database. -/
def pumpEffects (pass : Pass ι) : List (PassEffect ι) := pass.attempts.map .deliverReceipt

variable (verdicts : ShadowVerdicts)

/-- `_deliver_once`: what is held after the pass, its effects and its end. -/
def deliverOnce (held : Installation κ ρ) (pass : DeliveryPass κ ρ ι ε) :
    Installation κ ρ × List (PassEffect ι) × PassEnd ε :=
  let atPort := installAll shape installCapabilityRegistry held pass.beforePort
  if productPortWrites shape held = false then
    match productPort atPort with
    | none => (atPort, [], .productPortNotInstalled)
    | some (gateway, registry) =>
      let (shadow, raised) := mirrorDueReceipts verdicts (pass.compare gateway)
        (pass.shadowRequest registry) pass.dueShadowReceipts
      (atPort, shadowEffects shadow, .mirrored raised)
  else
    match productPort atPort with
    | none => (atPort, [], .productPortNotInstalled)
    | some (gateway, registry) =>
      let atGuard := installAll shape installCapabilityRegistry atPort pass.beforeGuard
      let (done, counts) := deliverDueReceipts (pass.deliverReceipt gateway registry)
        (some ⟨productPortWrites shape atGuard⟩) pass.dueReceipts
      (atGuard, pumpEffects done, .delivered counts)

/-- What happens to a deployment's port. -/
inductive PortEvent (κ ρ ι ε : Type*)
  | install (call : InstallCall κ ρ)
  | pass (pass : DeliveryPass κ ρ ι ε)

/-- What is held, and of every pass the client that was installed when it began and its
effects. -/
structure PortRun (κ ρ ι : Type*) where
  held : Installation κ ρ
  passes : List (Option κ × List (PassEffect ι))

/-- One event of a run. -/
def PortRun.step (run : PortRun κ ρ ι) : PortEvent κ ρ ι ε → PortRun κ ρ ι
  | .install call =>
    { run with held := (installProductPort shape installCapabilityRegistry run.held call).1 }
  | .pass pass =>
    let (held, effects, _) := deliverOnce shape installCapabilityRegistry verdicts run.held pass
    { held, passes := run.passes ++ [(run.held.port, effects)] }

/-- The runs of installations and passes. -/
def portRuns : StepSystem (PortRun κ ρ ι) (PortEvent κ ρ ι ε) where
  init run := run = ⟨.empty κ ρ, []⟩
  step run event run' := run' = run.step shape installCapabilityRegistry verdicts event

/-- The client declares that it writes. -/
def DeclaresWrites (client : κ) : Prop := shape.writes client = .flag true

/-- What is installed declares a direction, and every pass that claimed or settled a receipt began
with a client that declares to write. -/
structure PortInvariant (run : PortRun κ ρ ι) : Prop where
  direction : ∀ client, run.held.port = some client → ∃ writes, shape.writes client = .flag writes
  settles : ∀ p ∈ run.passes, (∃ effect ∈ p.2, effect.settles = true) →
    ∃ client, p.1 = some client ∧ DeclaresWrites shape client

variable {shape installCapabilityRegistry verdicts}

/-- A call raises and changes nothing, or holds a client that declares its direction. -/
theorem installProductPort_cases (shape : ClientShape κ)
    (installCapabilityRegistry : Option ρ → Option ε) (held : Installation κ ρ)
    (call : InstallCall κ ρ) :
    (∃ e, installProductPort shape installCapabilityRegistry held call = (held, some e)) ∨
      installProductPort shape installCapabilityRegistry held call =
        (⟨some call.client, call.registry⟩, none) ∧
      ∃ writes, shape.writes call.client = .flag writes := by
  unfold installProductPort
  split
  · exact .inl ⟨_, rfl⟩
  · split
    · next writes hwrites =>
      split
      · exact .inl ⟨_, rfl⟩
      · exact .inr ⟨rfl, writes, hwrites⟩
    · exact .inl ⟨_, rfl⟩

/-- A refused call changes nothing. -/
theorem installProductPort_of_raises {held : Installation κ ρ} {call : InstallCall κ ρ}
    {e : InstallError ε}
    (h : (installProductPort shape installCapabilityRegistry held call).2 = some e) :
    (installProductPort shape installCapabilityRegistry held call).1 = held := by
  rcases installProductPort_cases shape installCapabilityRegistry held call with
    ⟨e', hr⟩ | ⟨hr, -⟩
  · rw [hr]
  · rw [hr] at h
    cases h

/-- The direction of what is held survives every call. -/
theorem direction_installProductPort {held : Installation κ ρ} (call : InstallCall κ ρ)
    (h : ∀ client, held.port = some client → ∃ writes, shape.writes client = .flag writes) :
    ∀ client, (installProductPort shape installCapabilityRegistry held call).1.port =
      some client → ∃ writes, shape.writes client = .flag writes := by
  intro client hclient
  rcases installProductPort_cases shape installCapabilityRegistry held call with
    ⟨e, hr⟩ | ⟨hr, hdirection⟩
  · rw [hr] at hclient
    exact h client hclient
  · rw [hr] at hclient
    obtain rfl := Option.some.inj hclient
    exact hdirection

theorem direction_installAll {calls : List (InstallCall κ ρ)} {held : Installation κ ρ}
    (h : ∀ client, held.port = some client → ∃ writes, shape.writes client = .flag writes) :
    ∀ client, (installAll shape installCapabilityRegistry held calls).port = some client →
      ∃ writes, shape.writes client = .flag writes := by
  induction calls generalizing held with
  | nil => exact h
  | cons call calls ih => exact ih (direction_installProductPort call h)

/-- A shadow pass claims and settles nothing. -/
theorem not_settles_shadowEffects {pass : ShadowPass ι} :
    ∀ effect ∈ shadowEffects pass, effect.settles = false := by
  intro effect heffect
  obtain ⟨r, -, rfl⟩ := List.mem_map.mp heffect
  rfl

/-- Where what is held declares a direction, a pass settles nothing unless it began with a client
that declares to write. -/
theorem declaresWrites_of_settles {held : Installation κ ρ} {pass : DeliveryPass κ ρ ι ε}
    (h : ∀ client, held.port = some client → ∃ writes, shape.writes client = .flag writes)
    (hs : ∃ effect ∈ (deliverOnce shape installCapabilityRegistry verdicts held pass).2.1,
      effect.settles = true) :
    ∃ client, held.port = some client ∧ DeclaresWrites shape client := by
  obtain ⟨effect, heffect, hsettles⟩ := hs
  unfold deliverOnce at heffect
  simp only at heffect
  split_ifs at heffect with hwrites
  · -- The shadow pass settles nothing.
    split at heffect
    · cases heffect
    · rw [not_settles_shadowEffects effect heffect] at hsettles
      cases hsettles
  · -- The worker read a client that writes, and its direction is a flag.
    unfold productPortWrites at hwrites
    split at hwrites
    · exact absurd rfl hwrites
    · next client hclient =>
      obtain ⟨writes, hflag⟩ := h client hclient
      rw [hflag, Bool.not_eq_false] at hwrites
      exact ⟨client, hclient, by rw [DeclaresWrites, hflag]; exact congrArg _ hwrites⟩

/-- What is held after a pass is what the installations that land inside it leave. -/
theorem held_deliverOnce (shape : ClientShape κ) (installCapabilityRegistry : Option ρ → Option ε)
    (verdicts : ShadowVerdicts) (held : Installation κ ρ) (pass : DeliveryPass κ ρ ι ε) :
    ∃ calls, (deliverOnce shape installCapabilityRegistry verdicts held pass).1 =
      installAll shape installCapabilityRegistry held calls := by
  unfold deliverOnce
  simp only
  split_ifs
  · split
    · exact ⟨pass.beforePort, rfl⟩
    · exact ⟨pass.beforePort, rfl⟩
  · split
    · exact ⟨pass.beforePort, rfl⟩
    · exact ⟨pass.beforePort ++ pass.beforeGuard, (List.foldl_append ..).symm⟩

/-- **No pass settles a receipt unless it began with a client that writes**, in every run. -/
theorem portInvariant :
    (portRuns (ι := ι) shape installCapabilityRegistry verdicts).IsInductive
      (PortInvariant shape) := by
  constructor
  · rintro run rfl
    exact ⟨nofun, nofun⟩
  · rintro run event run' ⟨hdirection, hsettles⟩ rfl
    cases event with
    | install call => exact ⟨direction_installProductPort call hdirection, hsettles⟩
    | pass pass =>
      refine ⟨?_, ?_⟩
      · obtain ⟨calls, hheld⟩ := held_deliverOnce shape installCapabilityRegistry verdicts
          run.held pass
        intro client hclient
        change (deliverOnce shape installCapabilityRegistry verdicts run.held pass).1.port =
          some client at hclient
        rw [hheld] at hclient
        exact direction_installAll hdirection client hclient
      · -- The passes before, and the one that was run.
        intro p hp
        rcases List.mem_append.mp hp with hp | hp
        · exact hsettles p hp
        · obtain rfl := List.mem_singleton.mp hp
          exact declaresWrites_of_settles hdirection

/-- A client of the assembly's own, as an object. -/
def observationShape : ClientShape ObservationPortClient where
  callableDeliver _ := true
  writes client := .flag client.writes

/-- A client of the assembly's own declares to write iff it speaks to the write port. -/
theorem declaresWrites_observationShape {client : ObservationPortClient} :
    DeclaresWrites observationShape client ↔ client.mode = .write := by
  simp [DeclaresWrites, observationShape, ObservationPortClient.writes]

section Shadow

variable {rt : Runtime}
  {productObservationDocument : ProductRequest → Except ForeignError (Dict String Json)}
  {held : Held}

/-- Where a shadow client posts: at the shadow path of the request's descriptor, and at its
delivery path only where the two are one path. -/
theorem shadowPosts_url {client : ObservationPortClient} (h : client.mode = .mirror)
    {request : ProductRequest} {http : HttpRequest}
    (hhttp : http ∈ deliverPosts rt productObservationDocument held client request ++
      mirrorPosts rt productObservationDocument held client request) :
    ∃ descriptor, request.destination.productPort = some descriptor ∧
      http.url = client.base ++ descriptor.mirrorPath ∧
      (http.url = client.base ++ descriptor.deliveryPath →
        descriptor.deliveryPath = descriptor.mirrorPath) := by
  have hwrites : client.writes = false := by simp [ObservationPortClient.writes, h]
  rw [deliverPosts, if_pos hwrites, List.nil_append] at hhttp
  obtain ⟨descriptor, hport, hurl⟩ := mirrorPosts_url hhttp
  refine ⟨descriptor, hport, hurl, ?_⟩
  intro hdelivery
  rw [hurl] at hdelivery
  exact (String.append_right_inj client.base).mp hdelivery.symm

/-- **A shadow deployment never settles a receipt.** In every run of installations and passes,
a receipt is claimed or settled only in a pass that began with a client that declares to write; a
client of the shadow port returns no outcome and posts to shadow paths; a shadow pass claims and
settles nothing; and an installation that is refused changes nothing. -/
theorem shadow_settles_nothing {run : PortRun κ ρ ι}
    (hrun : (portRuns (ε := ε) shape installCapabilityRegistry verdicts).Reachable run) :
    (∀ p ∈ run.passes, (∃ effect ∈ p.2, effect.settles = true) →
      ∃ client, p.1 = some client ∧ DeclaresWrites shape client) ∧
    (∀ client : ObservationPortClient, client.mode = .mirror → ∀ request,
      (∀ digits readAnswer transport found,
        deliver digits rt readAnswer held productObservationDocument transport client request ≠
          .ok found) ∧
      ∀ http ∈ deliverPosts rt productObservationDocument held client request ++
          mirrorPosts rt productObservationDocument held client request,
        ∃ descriptor, request.destination.productPort = some descriptor ∧
          http.url = client.base ++ descriptor.mirrorPath ∧
          (http.url = client.base ++ descriptor.deliveryPath →
            descriptor.deliveryPath = descriptor.mirrorPath)) ∧
    (∀ compare shadowRequest (page : List ι),
      ∀ effect ∈ shadowEffects (mirrorDueReceipts verdicts compare shadowRequest page).1,
        effect.settles = false) ∧
    ∀ (installed : Installation κ ρ) call e,
      (installProductPort shape installCapabilityRegistry installed call).2 = some e →
      (installProductPort shape installCapabilityRegistry installed call).1 = installed := by
  refine ⟨(portInvariant.reachable hrun).settles, ?_, ?_, ?_⟩
  · intro client hmode request
    have hwrites : client.writes = false := by simp [ObservationPortClient.writes, hmode]
    refine ⟨?_, fun http hhttp => shadowPosts_url hmode hhttp⟩
    intro digits readAnswer transport found hfound
    rw [(deliver_of_mirror hwrites request).1] at hfound
    cases hfound
  · intro compare shadowRequest page
    exact not_settles_shadowEffects
  · intro installed call e
    exact installProductPort_of_raises

end Shadow

/-- `locatedClient`, for the shadow port. -/
def shadowClient : ObservationPortClient := { locatedClient with mode := .mirror }

/-- A pass that finds two receipts. -/
def shadowPass : DeliveryPass ObservationPortClient Unit ℕ String where
  beforePort := []
  beforeGuard := []
  dueReceipts := [1, 2]
  dueShadowReceipts := [1, 2]
  deliverReceipt _ _ _ := .claimed (some .accepted)
  compare := mirror locatedRuntime (fun _ => .error .other) (fun _ => .error .valueError)
    [("env:PRODUCT_PORT_KEY", "secret")] fun _ => .error ⟨"unreachable", "unreachable"⟩
  shadowRequest _ _ := .request locatedRequest

/-- The shadow client is installed, and one pass is run. -/
def shadowRun : PortRun ObservationPortClient Unit ℕ :=
  ((⟨.empty _ _, []⟩ : PortRun ObservationPortClient Unit ℕ).step observationShape
    (fun _ => none) sampleVerdicts
    (.install (ι := ℕ) (ε := String) ⟨shadowClient, some (), true⟩)).step observationShape
      (fun _ => none) sampleVerdicts (.pass shadowPass)

theorem shadow_settles_nothing_shadowRun :
    shadowRun.passes.map (fun p => p.2.length) = [2] ∧
      ¬ ∃ p ∈ shadowRun.passes, ∃ effect ∈ p.2, effect.settles = true := by
  have hreach : (portRuns (ε := String) observationShape (fun _ => none)
      sampleVerdicts).Reachable shadowRun :=
    ⟨_, rfl, (StepSystem.Leads.single (a := .install ⟨shadowClient, some (), true⟩) rfl).snoc
      (a := .pass shadowPass) rfl⟩
  refine ⟨by decide +kernel, ?_⟩
  rintro ⟨p, hp, hsettles⟩
  have hnever := @shadow_settles_nothing _ _ _ _ _ _ _ locatedRuntime
    (fun _ => .error .other) [] _ hreach
  obtain ⟨client, hclient, hwrites⟩ := hnever.1 p hp hsettles
  -- The only pass began with the shadow client.
  have hbegan : shadowRun.passes.map Prod.fst = [some shadowClient] := rfl
  have hmem : p.1 ∈ shadowRun.passes.map Prod.fst := List.mem_map_of_mem hp
  rw [hbegan, List.mem_singleton, hclient] at hmem
  obtain rfl := Option.some.inj hmem
  cases declaresWrites_observationShape.mp hwrites

/-- `locatedRequest`, of a product that declares one path for both ports. -/
def onePathRequest : ProductRequest :=
  { locatedRequest with
    destination :=
      { locatedRequest.destination with
        productPort := some
          { activationState := "enabled", deliveryPath := "/api/v1/integration/observations/b",
            mirrorPath := "/api/v1/integration/observations/b",
            wireSchemaVersion := some envelopeWire } } }

/-- Where a product declares one path for both ports, a shadow client posts to its delivery
path. -/
theorem onePathRequest_posted :
    ¬ ∀ http ∈ deliverPosts locatedRuntime (fun _ => .error .other)
          [("env:PRODUCT_PORT_KEY", "secret")] shadowClient onePathRequest ++
        mirrorPosts locatedRuntime (fun _ => .error .other)
          [("env:PRODUCT_PORT_KEY", "secret")] shadowClient onePathRequest,
      ∀ descriptor, onePathRequest.destination.productPort = some descriptor →
        http.url ≠ shadowClient.base ++ descriptor.deliveryPath := by
  intro hnever
  have hurls : (mirrorPosts locatedRuntime (fun _ => .error .other)
      [("env:PRODUCT_PORT_KEY", "secret")] shadowClient onePathRequest).map HttpRequest.url =
      ["https://sub.example/api/v1/integration/observations/b"] := by decide +kernel
  have hmem : "https://sub.example/api/v1/integration/observations/b" ∈
      (mirrorPosts locatedRuntime (fun _ => .error .other)
        [("env:PRODUCT_PORT_KEY", "secret")] shadowClient onePathRequest).map HttpRequest.url := by
    rw [hurls]
    exact List.mem_singleton.mpr rfl
  obtain ⟨http, hhttp, hurl⟩ := List.mem_map.mp hmem
  exact hnever http (List.mem_append_right _ hhttp) _ rfl hurl

end DotmacIntegrator.Delivery
