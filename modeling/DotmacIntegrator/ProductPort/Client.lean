import DotmacIntegrator.ProductPort.Addressing
import DotmacIntegrator.ProductPort.Fingerprint
import DotmacIntegrator.Secrets.Resolver

/-!
# The client

Sending a document, and comparing it against the destination's shadow port. What is sent is the
document the write path would send; the credential is looked up among the held ones.

## Main definitions

* `Transport`: how a request reaches the destination
* `post`: one request, sent
* `loadsAnswer`, `decoded`: an answer, read
* `mirror`: the shadow comparison of one request

## Main results

* `mirror_of_address`: what a comparison of an addressable request does
* `mirror_unexpected_iff`: whether a comparison raises anything but a transport failure or a
  delivery error is decided by the request and by what is held, unless the destination answers with
  a document that is nested too deeply
-/

namespace DotmacIntegrator.ProductPort

open Secrets

/-- One HTTP answer. -/
structure HttpAnswer where
  status : ℤ
  body : ByteArray
  retryAfter : Option String

/-- One HTTP request. -/
structure HttpRequest where
  url : String
  body : ByteArray
  headers : Dict String String
  timeout : PyFloat

/-- The module's transport failure: no usable answer. -/
structure TransportFailure where
  detail : String
  errorCode : String
  deriving DecidableEq, Repr

/-- How a request reaches the destination: an answer of any status, or the transport failure the
module knows. What else a transport may let out, as the one of this deployment does where a body
breaks off, is not part of it. -/
abbrev Transport := HttpRequest → Except TransportFailure HttpAnswer

/-- What the builder of the provider-neutral document may raise: the module's own delivery error,
or something else. -/
inductive ForeignError
  | deliveryError
  | other
  deriving DecidableEq, Repr

/-- What reading an answer may raise: the module's transport failure, or the `RecursionError` of
`json.loads`. -/
inductive AnswerError
  | transport (reason : TransportFailure)
  | recursionError
  deriving DecidableEq, Repr

/-- What a comparison may raise. -/
inductive MirrorError
  | address (reason : AddressError ForeignError)
  | secretsNotHeld (reason : SecretsNotHeld)
  /-- The `ValueError` of `json.dumps` on an integer that is too long. -/
  | integerTooLong
  | transport (reason : TransportFailure)
  /-- The `RecursionError` of `json.loads` on a document that is nested too deeply. -/
  | recursionError
  deriving DecidableEq

/-- Reading the answer of a comparison raises what it raises. -/
def MirrorError.ofAnswer : AnswerError → MirrorError
  | .transport reason => .transport reason
  | .recursionError => .recursionError

/-- The logical name the credential is resolved under. -/
def PRODUCT_PORT_SECRET_NAME : String := "api_key"

/-- One shadow comparison: evidence, never a consequence. -/
structure MirrorVerdict where
  verdict : String
  agrees : Bool
  blockingReasons : List String
  disagreeingFields : List String
  deriving DecidableEq, Repr

variable (rt : Runtime)
  (productObservationDocument : ProductRequest → Except ForeignError (Dict String Json))
  (readAnswer : ByteArray → Except Json.LoadsError Json) (held : Held) (transport : Transport)
  (client : ObservationPortClient)

/-- `_post`: the document, sent under the held credential. `json.dumps` runs before the
transport. -/
def post (url : String) (document : Dict String Json) (request : ProductRequest) :
    Except MirrorError HttpAnswer := do
  let resolved ← (resolveSecrets held [(PRODUCT_PORT_SECRET_NAME, client.apiKeyRef)]).mapError
    .secretsNotHeld
  match postedBytes rt document with
  | none => .error .integerTooLong
  | some body =>
    (transport
      { url, body, timeout := client.timeout
        headers :=
          [("Content-Type", "application/json"), ("Accept", "application/json"),
           ("X-Api-Key", (resolved.get? PRODUCT_PORT_SECRET_NAME).getD ""),
           ("Idempotency-Key", request.idempotencyKey),
           ("X-Correlation-Id", request.correlationId)] }).mapError .transport

/-- `json.loads` of bytes: they are decoded, and the text is read, unless it is nested too deeply.
What decodes bytes, and which texts are too deep, is the interpreter's. -/
def loadsAnswer (decode : ByteArray → Option String) (deep : String → Bool) (data : ByteArray) :
    Except Json.LoadsError Json :=
  match decode data with
  | none => .error .valueError
  | some text =>
    if deep text then .error .recursionError
    else match Json.loads rt.floats text with
      | none => .error .valueError
      | some value => .ok value

/-- `answer.body or b"{}"`. -/
def answeredBytes (answer : HttpAnswer) : ByteArray :=
  if answer.body.isEmpty then "\x7b\x7d".toUTF8 else answer.body

/-- `_decoded`: an answer that is a JSON object; `readAnswer` is `json.loads` of its bytes. -/
def decoded (answer : HttpAnswer) : Except AnswerError (Dict String Json) :=
  match readAnswer (answeredBytes answer) with
  | .error .valueError =>
    .error (.transport
      { detail := s!"the destination answered {answer.status} with a body that is not JSON"
        errorCode := "unusable_answer" })
  | .error .recursionError => .error .recursionError
  | .ok (.obj members) => .ok members
  | .ok found =>
    .error (.transport
      { detail := (s!"the destination answered {answer.status} with a {typeName found} " ++
          "rather than an object")
        errorCode := "unusable_answer" })

/-- The document of an answer is nested too deeply to be read. -/
def TooDeep (answer : HttpAnswer) : Prop :=
  readAnswer (answeredBytes answer) = .error .recursionError

/-- `_sequence`: the items of a list, or nothing. -/
def sequence : Json → List Json
  | .arr xs => xs
  | _ => []

/-- `MirrorVerdict.from_report`: what of a report is safe to hold. -/
def MirrorVerdict.fromReport (report : Dict String Json) : MirrorVerdict where
  verdict :=
    if (read report "verdict").truthy then
      PyRepr.str rt.printable rt.floats (read report "verdict")
    else "unknown"
  agrees := (read report "agrees").truthy
  blockingReasons :=
    (sequence (read report "blocking_reasons")).map (PyRepr.str rt.printable rt.floats)
  disagreeingFields := (sequence (read report "disagreements")).filterMap fun
    | .obj item => some (PyRepr.str rt.printable rt.floats (read item "field"))
    | _ => none

/-- `mirror`: one document, compared against the destination's own receiver. -/
def mirror (request : ProductRequest) : Except MirrorError MirrorVerdict := do
  let (url, document) ←
    (address rt productObservationDocument client request true).mapError .address
  let answer ← post rt held transport client url document request
  if answer.status ≠ 200 then
    .error (.transport { detail := s!"the shadow port answered {answer.status}"
                         errorCode := "mirror_refused" })
  else
    let report ← (decoded readAnswer answer).mapError .ofAnswer
    return .fromReport rt report

/-- The exceptions the shadow pass expects: a transport failure, and the module's delivery
error. -/
def MirrorError.expected : MirrorError → Bool
  | .transport _ => true
  | .address (.build (.builder .deliveryError)) => true
  | _ => false

/-- A request the client can compare: it is addressable, or its document is refused by the module
itself; its document can be written, and the credential is held. -/
def Comparable (request : ProductRequest) : Prop :=
  match address rt productObservationDocument client request true with
  | .ok (_, document) =>
    (held.get? client.apiKeyRef).isSome ∧ (Json.obj document).Printable
  | .error e => (MirrorError.address e).expected

instance (request : ProductRequest) :
    Decidable (Comparable rt productObservationDocument held client request) := by
  unfold Comparable
  split <;> infer_instance

/-- The shadow port does not answer the comparison with a document that is nested too deeply. -/
def ShallowlyAnswered (request : ProductRequest) : Prop :=
  ∀ url document,
    address rt productObservationDocument client request true = .ok (url, document) →
    ∀ answer, post rt held transport client url document request = .ok answer →
      answer.status = 200 → ¬ TooDeep readAnswer answer

variable {rt productObservationDocument readAnswer held transport client}

/-- An answer that is not read raises no transport failure iff it is nested too deeply. -/
theorem decoded_eq_recursionError_iff {answer : HttpAnswer} :
    decoded readAnswer answer = .error .recursionError ↔ TooDeep readAnswer answer := by
  rw [decoded, TooDeep]
  split <;> simp_all

theorem postedBytes_of_printable (rt : Runtime) {document : Dict String Json}
    (h : (Json.obj document).Printable) : ∃ data, postedBytes rt document = some data :=
  ⟨_, by rw [postedBytes, Json.dumps, if_pos h, Option.map_some]⟩

/-- With the credential held and a document that can be written, the transport decides. -/
theorem post_of_ready {url : String} {document : Dict String Json} {request : ProductRequest}
    (hheld : (held.get? client.apiKeyRef).isSome) (hp : (Json.obj document).Printable) :
    ∃ http, post rt held transport client url document request =
      (transport http).mapError .transport := by
  -- The one secret that is asked for is held.
  obtain ⟨resolved, hresolved⟩ := exists_resolveSecrets hheld PRODUCT_PORT_SECRET_NAME
  obtain ⟨data, hdata⟩ := postedBytes_of_printable rt hp
  unfold post
  simp only [hresolved, Except.mapError, Except.ok_bind, hdata]
  exact ⟨_, rfl⟩

/-- Without either, the post raises before the network, and nothing the shadow pass expects. -/
theorem post_of_not_ready {url : String} {document : Dict String Json} {request : ProductRequest}
    (h : ¬ ((held.get? client.apiKeyRef).isSome ∧ (Json.obj document).Printable)) :
    ∃ e, post rt held transport client url document request = .error e ∧ e.expected = false := by
  have hres := @resolveSecrets_isOk_iff held [(PRODUCT_PORT_SECRET_NAME, client.apiKeyRef)]
  simp only [List.mem_singleton, forall_eq] at hres
  unfold post
  rcases hr : resolveSecrets held [(PRODUCT_PORT_SECRET_NAME, client.apiKeyRef)] with e | resolved
  · exact ⟨.secretsNotHeld e, rfl, rfl⟩
  · have hp : ¬ (Json.obj document).Printable := fun hp =>
      h ⟨hres.mp (by rw [hr]; rfl), hp⟩
    have hnone : postedBytes rt document = none := by
      rw [postedBytes, Json.dumps, if_neg hp, Option.map_none]
    simp only [Except.mapError, Except.ok_bind, hnone]
    exact ⟨.integerTooLong, rfl, rfl⟩

/-- What a comparison of an addressable request does. -/
theorem mirror_of_address {request : ProductRequest} {url : String} {document : Dict String Json}
    (ha : address rt productObservationDocument client request true = .ok (url, document)) :
    mirror rt productObservationDocument readAnswer held transport client request =
      (post rt held transport client url document request >>= fun answer =>
        if answer.status ≠ 200 then
          .error (.transport { detail := s!"the shadow port answered {answer.status}"
                               errorCode := "mirror_refused" })
        else (decoded readAnswer answer).mapError .ofAnswer >>= fun report =>
          .ok (.fromReport rt report)) := by
  unfold mirror
  rw [ha]
  rfl

/-- What a comparison raises that was posted is expected, unless the answer is nested too deeply. -/
theorem mirror_of_posted {request : ProductRequest} {url : String} {document : Dict String Json}
    (ha : address rt productObservationDocument client request true = .ok (url, document))
    {answer : HttpAnswer}
    (hpost : post rt held transport client url document request = .ok answer) :
    (∃ e, mirror rt productObservationDocument readAnswer held transport client request =
      .error e ∧ e.expected = false) ↔ answer.status = 200 ∧ TooDeep readAnswer answer := by
  rw [mirror_of_address ha, hpost, Except.ok_bind]
  split_ifs with hstatus
  · refine iff_of_false ?_ fun h => hstatus h.1
    rintro ⟨e, he, hexp⟩
    rw [← Except.error.inj he] at hexp
    cases hexp
  · rw [not_not.mp hstatus, eq_self_iff_true, true_and, ← decoded_eq_recursionError_iff]
    cases hd : decoded readAnswer answer with
    | ok report => simp [Except.mapError]
    | error reason =>
      cases reason <;> simp [Except.mapError, MirrorError.ofAnswer, MirrorError.expected]

theorem shallowlyAnswered_iff {request : ProductRequest} {url : String}
    {document : Dict String Json}
    (ha : address rt productObservationDocument client request true = .ok (url, document)) :
    ShallowlyAnswered rt productObservationDocument readAnswer held transport client request ↔
      ∀ answer, post rt held transport client url document request = .ok answer →
        answer.status = 200 → ¬ TooDeep readAnswer answer := by
  constructor
  · exact fun h => h url document ha
  · intro h url' document' ha'
    obtain ⟨rfl, rfl⟩ := Prod.mk.inj (Except.ok.inj (ha.symm.trans ha'))
    exact h

/-- **Which exceptions end a comparison is decided before the network**, but for one: a comparison
raises something the shadow pass does not expect iff the request is not comparable, or is answered
with a document that is nested too deeply. -/
theorem mirror_unexpected_iff {request : ProductRequest} :
    (∃ e, mirror rt productObservationDocument readAnswer held transport client request =
      .error e ∧ e.expected = false) ↔
      ¬ (Comparable rt productObservationDocument held client request ∧
        ShallowlyAnswered rt productObservationDocument readAnswer held transport client
          request) := by
  unfold Comparable
  rcases ha : address rt productObservationDocument client request true with e | ⟨url, document⟩
  · have hshallow : ShallowlyAnswered rt productObservationDocument readAnswer held transport client
        request := fun url document ha' => by
      rw [ha] at ha'
      cases ha'
    simp [mirror, ha, Except.mapError, hshallow]
  · rw [shallowlyAnswered_iff ha]
    by_cases hready : (held.get? client.apiKeyRef).isSome ∧ (Json.obj document).Printable
    · simp only [hready, and_self, true_and]
      obtain ⟨http, hpost⟩ := @post_of_ready rt held transport client url document request
        hready.1 hready.2
      cases ht : transport http with
      | error failure =>
        -- Without an answer there is a transport failure.
        rw [ht] at hpost
        rw [mirror_of_address ha, hpost]
        simp [Except.mapError, MirrorError.expected]
      | ok answer =>
        rw [ht] at hpost
        rw [mirror_of_posted ha hpost, hpost]
        simp [Except.mapError]
    · obtain ⟨e, he, hexp⟩ := @post_of_not_ready rt held transport client url document request
        hready
      refine iff_of_true ⟨e, ?_, hexp⟩ fun h => hready h.1
      rw [mirror_of_address ha, he]
      rfl

end DotmacIntegrator.ProductPort
