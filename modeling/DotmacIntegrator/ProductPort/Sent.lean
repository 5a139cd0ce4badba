import DotmacIntegrator.Foundation.Observed
import DotmacIntegrator.ProductPort.WireNumbers

/-!
# What a client is seen to send

A delivery and a comparison of one request share the document, the credential and the headers. They
differ in the states of a port that are eligible and in the path that is posted to, and in what
they make of a refusal. Here both are programs that are seen at the transport.

## Main definitions

* `deliverSeen`, `mirrorSeen`: the two entry points, seen at the transport
* `Sendable`: what a request needs to be sent

## Main results

* `deliverSeen_exec`, `mirrorSeen_exec`: what is seen of them is their posts, and they come to what
  the client comes to
* `shadow_compares_what_is_delivered`: a comparison sends what a delivery sends
-/

namespace DotmacIntegrator.ProductPort

open Secrets

variable (digits : UnicodeDigits) (rt : Runtime)
  (readAnswer : ByteArray → Except Json.LoadsError Json) (held : Held)
  (productObservationDocument : ProductRequest → Except ForeignError (Dict String Json))
  (transport : Transport) (client : ObservationPortClient)

/-- A program of a client: what is seen of it is what its transport is handed. -/
abbrev ClientProgram (ε α : Type) := Observed HttpRequest Unit ε α

/-- `_post`, seen at the transport. -/
def postSeen (url : String) (document : Dict String Json) (request : ProductRequest) :
    ClientProgram MirrorError HttpAnswer := do
  let http ← Observed.ofExcept (httpRequest rt held client url document request)
  Observed.emit http
  Observed.ofExcept ((transport http).mapError .transport)

/-- `mirror`, seen at the transport. -/
def mirrorSeen (request : ProductRequest) : ClientProgram MirrorError MirrorVerdict := do
  let (url, document) ← Observed.ofExcept
    ((address rt productObservationDocument client request true).mapError .address)
  let answer ← postSeen rt held transport client url document request
  if answer.status ≠ 200 then
    Observed.raise (.transport { detail := s!"the shadow port answered {answer.status}"
                                 errorCode := "mirror_refused" })
  else
    let report ← Observed.ofExcept ((decoded readAnswer answer).mapError .ofAnswer)
    return .fromReport rt report

/-- `deliver`, seen at the transport. -/
def deliverSeen (request : ProductRequest) : ClientProgram DeliverError ProductOutcome :=
  if client.writes = false then Observed.raise .shadowClientCannotWrite
  else match address rt productObservationDocument client request false with
    | .error (.unmapped reason) => pure
        { acceptance := .unavailable
          errorCode := some "integrator.destination_not_addressable"
          errorDetail := some (redact held (reason.message rt.printable)) }
    | .error (.build (.envelope reason)) => pure
        { acceptance := .rejected
          errorCode := some "integrator.envelope_not_constructible"
          errorDetail := some (redact held (reason.message rt.printable)) }
    | .error reason => Observed.raise (.client (.address reason))
    | .ok (url, envelope) => do
      let answer ← Observed.catching (postSeen rt held transport client url envelope request)
        fun reason => Observed.raise (.client reason)
      Observed.ofExcept ((outcome digits rt readAnswer held answer).mapError .answer)

variable {digits rt readAnswer held productObservationDocument transport client}
  {request : ProductRequest}

/-- What is seen of a post is the request it hands to the transport. -/
theorem postSeen_exec (url : String) (document : Dict String Json) :
    (postSeen rt held transport client url document request).exec () =
      ⟨postsTo rt held client (.ok (url, document)) request,
        post rt held transport client url document request, ()⟩ := by
  rw [post_eq, postsTo]
  unfold postSeen
  cases hhttp : httpRequest rt held client url document request with
  | error e => rfl
  | ok http => rfl

/-- **What is seen of a comparison** is its posts, and it comes to what the client comes to. -/
theorem mirrorSeen_exec :
    (mirrorSeen rt readAnswer held productObservationDocument transport client request).exec () =
      ⟨mirrorPosts rt productObservationDocument held client request,
        mirror rt productObservationDocument readAnswer held transport client request, ()⟩ := by
  rw [mirrorPosts]
  cases haddress : address rt productObservationDocument client request true with
  | error e =>
    unfold mirrorSeen mirror
    rw [haddress]
    rfl
  | ok found =>
    obtain ⟨url, document⟩ := found
    rw [mirror_of_address haddress]
    unfold mirrorSeen
    rw [haddress]
    -- Nothing is seen of reading the answer.
    refine Observed.exec_bind_quiet (postSeen_exec url document) fun answer => ?_
    split_ifs with hstatus
    · exact Observed.quiet_raise _
    · cases decoded readAnswer answer <;> rfl

/-- **What is seen of a delivery** is its posts, and it comes to what the client comes to. -/
theorem deliverSeen_exec :
    (deliverSeen digits rt readAnswer held productObservationDocument transport client
        request).exec () =
      ⟨deliverPosts rt productObservationDocument held client request,
        deliver digits rt readAnswer held productObservationDocument transport client request,
        ()⟩ := by
  unfold deliverSeen deliverPosts deliver
  by_cases hwrites : client.writes = false
  · simp only [if_pos hwrites]
    rfl
  · simp only [if_neg hwrites]
    rcases address rt productObservationDocument client request false with
      (reason | reason | reason | reason) | ⟨url, document⟩
    · rfl
    · rfl
    · rfl
    · rfl
    · -- Nothing is seen of reading the answer.
      have hpost := Observed.exec_catching_raise (g := DeliverError.client)
        (@postSeen_exec rt held transport client request url document)
      refine (Observed.exec_bind_quiet hpost fun answer => Observed.quiet_ofExcept _).trans ?_
      simp only
      cases post rt held transport client url document request <;> rfl

/-! ### What a request needs to be sent -/

/-- The states a pass finds a port eligible in. -/
def Eligible (mirror : Bool) (state : String) : Prop :=
  state = "enabled" ∨ mirror = true ∧ state = "configured_disabled"

variable (rt held productObservationDocument client) in
/-- What a request needs to be sent by a client: its application is the client's own, its descriptor
is present and eligible, its document can be built, and written, and the credential is held. -/
structure Sendable (mirror : Bool) (request : ProductRequest) : Prop where
  application : request.destination.application = client.application
  eligible : ∃ descriptor, request.destination.productPort = some descriptor ∧
    Eligible mirror descriptor.activationState
  document : ∃ document,
    buildProductDocument rt productObservationDocument request = .ok document ∧
      (Json.obj document).Printable
  held : (held.get? client.apiKeyRef).isSome

theorem eligiblePort_eq_ok_iff {mirror : Bool} {descriptor : ProductPortDescriptor} :
    eligiblePort client request mirror = .ok descriptor ↔
      request.destination.application = client.application ∧
      request.destination.productPort = some descriptor ∧
      Eligible mirror descriptor.activationState := by
  have hstates : ∀ state, state ∈ allowedStates mirror ↔ Eligible mirror state := by
    intro state
    cases mirror <;> simp [allowedStates, Eligible, or_comm]
  constructor
  · intro h
    have hport := eligiblePort_eq_ok h
    rw [eligiblePort, hport] at h
    split_ifs at h with happlication
    simp only at h
    split_ifs at h with hstate
    exact ⟨not_not.mp happlication, hport, (hstates _).mp hstate⟩
  · rintro ⟨happlication, hport, hstate⟩
    rw [eligiblePort, if_neg (not_not.mpr happlication), hport]
    simp only
    rw [if_neg (not_not.mpr ((hstates _).mpr hstate))]

/-- What is sent to an address: one request, or none. -/
theorem postsTo_eq_singleton_or_nil
    (addressed : Except (AddressError ForeignError) (String × Dict String Json)) :
    (∃ http, postsTo rt held client addressed request = [http]) ∨
      postsTo rt held client addressed request = [] := by
  rcases addressed with e | ⟨url, document⟩
  · exact .inr rfl
  · rw [postsTo]
    cases httpRequest rt held client url document request with
    | error e => exact .inr rfl
    | ok http => exact .inl ⟨http, rfl⟩

/-- **A request is sent iff it is sendable.** -/
theorem exists_mem_postsTo_iff {mirror : Bool} :
    (∃ http, http ∈ postsTo rt held client
        (address rt productObservationDocument client request mirror) request) ↔
      Sendable rt held productObservationDocument client mirror request := by
  constructor
  · rintro ⟨http, hhttp⟩
    obtain ⟨url, document, haddress, hhttp⟩ := mem_postsTo.mp hhttp
    obtain ⟨descriptor, hport, -, hdocument⟩ := address_eq_ok.mp haddress
    obtain ⟨key, data, hkey, hdata, -⟩ := httpRequest_eq_ok_iff.mp hhttp
    obtain ⟨happlication, hdescriptor, hstate⟩ := eligiblePort_eq_ok_iff.mp hport
    obtain ⟨text, htext, -⟩ := Option.map_eq_some_iff.mp hdata
    exact ⟨happlication, ⟨descriptor, hdescriptor, hstate⟩,
      ⟨document, hdocument, ((Json.dumps_eq_some rt.floats).mp htext).1⟩, by simp [hkey]⟩
  · rintro ⟨happlication, ⟨descriptor, hdescriptor, hstate⟩, ⟨document, hdocument, hprintable⟩,
      hheld⟩
    obtain ⟨http, hhttp⟩ : ∃ http, httpRequest rt held client
        (client.base ++ (if mirror then descriptor.mirrorPath else descriptor.deliveryPath))
        document request = .ok http := exists_httpRequest hheld hprintable
    exact ⟨http, mem_postsTo.mpr ⟨_, document, address_eq_ok.mpr
      ⟨descriptor, eligiblePort_eq_ok_iff.mpr ⟨happlication, hdescriptor, hstate⟩, rfl,
        hdocument⟩, hhttp⟩⟩

/-- One request is sent if the condition holds, and nothing if it does not. -/
def SentExactlyWhen (φ : Prop) (sent : List HttpRequest) : Prop :=
  (φ → ∃ http, sent = [http]) ∧ (¬ φ → sent = [])

theorem sentExactlyWhen_sendable {mirror : Bool} :
    SentExactlyWhen (Sendable rt held productObservationDocument client mirror request)
      (postsTo rt held client (address rt productObservationDocument client request mirror)
        request) := by
  constructor
  · intro h
    obtain ⟨http, hmem⟩ := exists_mem_postsTo_iff.mpr h
    rcases @postsTo_eq_singleton_or_nil rt held client request
      (address rt productObservationDocument client request mirror) with hone | hnil
    · exact hone
    · rw [hnil] at hmem
      cases hmem
  · intro h
    rw [List.eq_nil_iff_forall_not_mem]
    exact fun http hmem => h (exists_mem_postsTo_iff.mp ⟨http, hmem⟩)

/-- **The shadow run compares exactly what would be delivered.** Where a delivery sends something, a
comparison by a client that differs in its mode and its timeout alone sends one request, to the
shadow path, with the same body and the same headers. Each sends one request where the request is
sendable, and nothing at all where it is not. -/
theorem shadow_compares_what_is_delivered (digits : UnicodeDigits) (rt : Runtime)
    (readAnswer : ByteArray → Except Json.LoadsError Json) (held : Held)
    (productObservationDocument : ProductRequest → Except ForeignError (Dict String Json))
    (transport transport' : Transport) (writer shadow : ObservationPortClient)
    (hwriter : writer.mode = .write) (happlication : writer.application = shadow.application)
    (hbase : writer.base = shadow.base) (href : writer.apiKeyRef = shadow.apiKeyRef)
    (request : ProductRequest) :
    let delivered := ((deliverSeen digits rt readAnswer held productObservationDocument transport
      writer request).exec ()).seen
    let compared := ((mirrorSeen rt readAnswer held productObservationDocument transport' shadow
      request).exec ()).seen
    (∀ sent ∈ delivered, ∃ descriptor copy, request.destination.productPort = some descriptor ∧
      compared = [copy] ∧ copy.url = writer.base ++ descriptor.mirrorPath ∧
      copy.body = sent.body ∧ copy.headers = sent.headers) ∧
    SentExactlyWhen (Sendable rt held productObservationDocument writer false request) delivered ∧
    SentExactlyWhen (Sendable rt held productObservationDocument shadow true request) compared := by
  have hwrites : writer.writes ≠ false := by simp [ObservationPortClient.writes, hwriter]
  simp only [deliverSeen_exec, mirrorSeen_exec, deliverPosts, if_neg hwrites, mirrorPosts]
  refine ⟨?_, sentExactlyWhen_sendable, sentExactlyWhen_sendable⟩
  intro sent hsent
  obtain ⟨url, document, haddress, hhttp⟩ := mem_postsTo.mp hsent
  obtain ⟨descriptor, hport, -, hdocument⟩ := address_eq_ok.mp haddress
  obtain ⟨key, data, hkey, hdata, rfl⟩ := httpRequest_eq_ok_iff.mp hhttp
  -- The port is eligible for the comparison too, and the document is the same.
  obtain ⟨hown, hdescriptor, hstate⟩ := eligiblePort_eq_ok_iff.mp (eligiblePort_mirror hport)
  have hcompared : address rt productObservationDocument shadow request true =
      .ok (shadow.base ++ descriptor.mirrorPath, document) :=
    address_eq_ok.mpr ⟨descriptor, eligiblePort_eq_ok_iff.mpr
      ⟨hown.trans happlication, hdescriptor, hstate⟩, rfl, hdocument⟩
  have hcopy : httpRequest rt held shadow (shadow.base ++ descriptor.mirrorPath) document request =
      .ok _ := httpRequest_eq_ok_iff.mpr ⟨key, data, href ▸ hkey, hdata, rfl⟩
  have hseen := mem_postsTo.mpr ⟨_, document, hcompared, hcopy⟩
  rcases @postsTo_eq_singleton_or_nil rt held shadow request
    (address rt productObservationDocument shadow request true) with ⟨copy, hone⟩ | hnil
  · rw [hone, List.mem_singleton] at hseen
    exact ⟨descriptor, copy, hdescriptor, hone, by rw [← hseen, hbase], by rw [← hseen],
      by rw [← hseen]⟩
  · rw [hnil] at hseen
    cases hseen

/-- A shadow client that is `locatedClient` otherwise. -/
def comparingClient : ObservationPortClient := { locatedClient with mode := .mirror }

/-- A destination that is out of reach. -/
def unreachable : Transport := fun _ =>
  .error { detail := "the destination could not be reached", errorCode := "unreachable" }

theorem shadow_compares_what_is_delivered_locatedRequest :
    ∃ sent copy, ((deliverSeen .latin1 locatedRuntime (loadsUtf8 locatedRuntime) postedHeld
        (fun _ => .error .other) unreachable locatedClient locatedRequest).exec ()).seen = [sent] ∧
      ((mirrorSeen locatedRuntime (loadsUtf8 locatedRuntime) postedHeld
        (fun _ => .error .other) unreachable comparingClient locatedRequest).exec ()).seen =
          [copy] ∧
      copy.body = sent.body ∧ copy.headers = sent.headers := by
  obtain ⟨hcopies, ⟨hsent, -⟩, -⟩ := shadow_compares_what_is_delivered .latin1 locatedRuntime
    (loadsUtf8 locatedRuntime) postedHeld (fun _ => .error .other) unreachable unreachable
    locatedClient comparingClient rfl rfl rfl rfl locatedRequest
  have hsendable : Sendable locatedRuntime postedHeld (fun _ => .error .other) locatedClient false
      locatedRequest := by
    refine ⟨rfl, ⟨_, rfl, .inl rfl⟩, ?_, rfl⟩
    have hok : (buildEnvelope locatedRuntime locatedRequest :
        Except (BuildError ForeignError) _).isOk := by decide +kernel
    obtain ⟨envelope, henvelope⟩ := Except.isOk_iff.mp hok
    exact ⟨envelope, henvelope, printable_envelope henvelope (by decide)⟩
  obtain ⟨sent, hsent⟩ := hsent hsendable
  obtain ⟨-, copy, -, hcopy, -, hbody, hheaders⟩ := hcopies sent (by rw [hsent]; exact .head _)
  exact ⟨sent, copy, hsent, hcopy, hbody, hheaders⟩

/-- `locatedRequest`, under a contract version that `json.dumps` refuses to write. -/
def longVersionRequest : ProductRequest := { locatedRequest with contractVersion := 10 ^ 4300 }

/-- That a document can be built is not enough for it to be sent. -/
theorem longVersionRequest_not_sent :
    ¬ ∀ request : ProductRequest,
      request.destination.application = comparingClient.application →
      (∃ descriptor, request.destination.productPort = some descriptor ∧
        Eligible true descriptor.activationState) →
      (∃ document, buildProductDocument locatedRuntime (fun _ => .error ForeignError.other)
        request = .ok document) →
      (postedHeld.get? comparingClient.apiKeyRef).isSome →
      ∃ http, ((mirrorSeen locatedRuntime (loadsUtf8 locatedRuntime) postedHeld
        (fun _ => .error .other) unreachable comparingClient request).exec ()).seen = [http] := by
  intro hsent
  have hok : (buildProductDocument locatedRuntime (fun _ => .error ForeignError.other)
      longVersionRequest).isOk := by decide +kernel
  obtain ⟨document, hdocument⟩ := Except.isOk_iff.mp hok
  obtain ⟨http, hhttp⟩ := hsent longVersionRequest rfl ⟨_, rfl, .inl rfl⟩ ⟨document, hdocument⟩ rfl
  have hmem : http ∈ mirrorPosts locatedRuntime (fun _ => .error .other) postedHeld comparingClient
      longVersionRequest := by
    simp only [mirrorSeen_exec] at hhttp
    rw [hhttp]
    exact .head _
  -- What is sent was written, and its contract version cannot be.
  obtain ⟨-, -, ⟨written, hwritten, hprintable⟩, -⟩ := exists_mem_postsTo_iff.mp ⟨http, hmem⟩
  obtain ⟨_, _, _, _, _, _, -, -, -, -, -, -, rfl⟩ := buildEnvelope_eq_ok.mp hwritten
  have hversion : ¬ (Json.int longVersionRequest.contractVersion).Printable := by decide +kernel
  exact hversion (hprintable.member (List.mem_cons_of_mem _ (.head _)))

end DotmacIntegrator.ProductPort
