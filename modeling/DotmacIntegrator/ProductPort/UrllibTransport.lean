import DotmacIntegrator.Foundation.TryExcept
import DotmacIntegrator.ProductPort.Client
import DotmacIntegrator.ProductPort.DescriptorReader

/-!
# The transport

One request of the standard library's opener: what it answers is an answer, of whatever status, and
what it fails with is a transport failure. The body of a refusal is read in the clause that takes
the refusal, and what that reading raises, the clause behind it does not see.

## Main definitions

* `Opener`: what the opener does with a request
* `UrllibTransport.post`, `UrllibTransport.get`: the two calls of the transport
* `AnswersOrFails`: an answer for whatever arrived whole, or a transport failure
* `RefusalUnread`: a refusal arrived, and its body could not be read

## Main results

* `call_answersOrFails_iff`: exactly when a call keeps its contract
* `post_isTransport_iff`: and when the transport is one that the client may assume
-/

namespace DotmacIntegrator.ProductPort

open TryExcept Url

/-! ### The opener -/

/-- A request of the standard library. -/
structure UrllibRequest where
  url : String
  data : Option ByteArray
  headers : Dict String String
  method : String

/-- What came back: a status, the header `Retry-After`, and what reading the body does; a reading
that fails or is cut short raises an exception of the class it names. -/
structure HttpResponse where
  status : ℤ
  retryAfter : Option String
  read : Except String ByteArray

/-- What may be raised: an `HTTPError`, which is a response; any other exception, of the class it
names; the module's transport failure. -/
inductive Raised
  | httpError (answer : HttpResponse)
  | exception (name : String)
  | transportFailure (failure : TransportFailure)

/-- `type(exc).__name__`. -/
def Raised.typeName : Raised → String
  | httpError _ => "HTTPError"
  | exception name => name
  | transportFailure _ => "TransportFailure"

/-- The module's transport failure. -/
def Raised.IsFailure (raised : Raised) : Prop := ∃ failure, raised = .transportFailure failure

/-- What the opener does with a request, under a timeout. -/
abbrev Opener := UrllibRequest → PyFloat → Except Raised HttpResponse

/-- `unwrap`. -/
def unwrap (url : String) : List Char :=
  let bare := Text.stripChars Text.isSpace url.toList
  let inner :=
    if bare.head? = some '<' ∧ bare.getLast? = some '>' then
      Text.stripChars Text.isSpace bare.tail.dropLast
    else bare
  if ['U', 'R', 'L', ':'] <+: inner then Text.stripChars Text.isSpace (inner.drop 4) else inner

/-- `_splittype` finds a type: something stands before a colon that comes before any slash. -/
def hasType (url : List Char) : Bool :=
  let type := url.takeWhile fun c => c ≠ '/' && c ≠ ':'
  type ≠ [] && (url.drop type.length).head? = some ':'

/-- `_splittag`, without the tag: what stands before the last `#`. -/
def withoutTag (url : List Char) : List Char :=
  if '#' ∈ url then (url.reverse.dropWhile (· ≠ '#')).tail.reverse else url

variable (R : HostRules)

/-- `urllib.request.Request` accepts the URL: it has a type, and its host can be split. -/
def constructs (url : String) : Bool :=
  hasType (withoutTag (unwrap url)) && (urlsplit R (String.ofList (unwrap url))).isSome

/-! ### The calls -/

/-- The answer a response makes, with the header where it is asked for. -/
def HttpResponse.answer (response : HttpResponse) (withRetryAfter : Bool) :
    Except Raised HttpAnswer := do
  let body ← response.read.mapError .exception
  return ⟨response.status, body, if withRetryAfter then response.retryAfter else none⟩

/-- `except HTTPError`: a refusal is an answer. -/
def onHttpError (withRetryAfter : Bool) : Clause Raised HttpAnswer
  | .httpError answer => some (answer.answer withRetryAfter)
  | _ => none

/-- `except Exception`: there was no answer. -/
def onException (detail errorCode : String) : Clause Raised HttpAnswer := fun raised =>
  some (.error (.transportFailure ⟨detail ++ raised.typeName, errorCode⟩))

/-- A request, opened and read: the header of a refusal where it is asked for, and the failure to
report. -/
def exchange (opened : Except Raised HttpResponse) (withRetryAfter : Bool)
    (detail errorCode : String) : Except Raised HttpAnswer :=
  run (opened >>= fun response => response.answer true)
    [onHttpError withRetryAfter, onException detail errorCode]

/-- `Request(url, ..)`, whose `ValueError` no clause takes. -/
def withRequest (request : UrllibRequest)
    (perform : UrllibRequest → Except Raised HttpAnswer) : Except Raised HttpAnswer :=
  if constructs R request.url then perform request else .error (.exception "ValueError")

variable (opener : Opener)

/-- The request of a post. -/
def postRequest (http : HttpRequest) : UrllibRequest :=
  ⟨http.url, some http.body, http.headers, "POST"⟩

/-- The request of a get. -/
def getRequest (http : HttpGet) : UrllibRequest := ⟨http.url, none, http.headers, "GET"⟩

/-- `UrllibTransport.post`. -/
def UrllibTransport.post (http : HttpRequest) : Except Raised HttpAnswer :=
  withRequest R (postRequest http) fun request =>
    exchange (opener request http.timeout) true "the destination could not be reached: "
      "destination_unreachable"

/-- `UrllibTransport.get`, which drops the header of a refusal. -/
def UrllibTransport.get (http : HttpGet) : Except Raised HttpAnswer :=
  withRequest R (getRequest http) fun request =>
    exchange (opener request http.timeout) false "the product descriptor could not be read: "
      "product_descriptor_unreachable"

/-- A call of the transport. -/
inductive TransportCall
  | post (http : HttpRequest)
  | get (http : HttpGet)

/-- The request a call makes. -/
def TransportCall.request : TransportCall → UrllibRequest
  | post http => postRequest http
  | get http => getRequest http

/-- Its timeout. -/
def TransportCall.timeout : TransportCall → PyFloat
  | post http => http.timeout
  | get http => http.timeout

/-- What a call does. -/
def TransportCall.run : TransportCall → Except Raised HttpAnswer
  | post http => UrllibTransport.post R opener http
  | get http => UrllibTransport.get R opener http

/-! ### The contract -/

/-- A response arrived: a success, or a refusal. -/
def Arrived (opened : Except Raised HttpResponse) (response : HttpResponse) : Prop :=
  opened = .ok response ∨ opened = .error (.httpError response)

/-- Nothing but a transport failure is raised, and a response whose whole body arrived is
answered. -/
structure AnswersOrFails (opened : Except Raised HttpResponse) (x : Except Raised HttpAnswer) :
    Prop where
  onlyFails : OnlyRaises Raised.IsFailure x
  answers : ∀ response body, Arrived opened response → response.read = .ok body →
    ∃ answer, x = .ok answer ∧ answer.status = response.status ∧ answer.body = body

/-- A refusal arrived, and its body could not be read. -/
def RefusalUnread (opened : Except Raised HttpResponse) : Prop :=
  ∃ answer name, opened = .error (.httpError answer) ∧ answer.read = .error name

/-! ### What a call does -/

variable {R opener}

theorem answer_of_read_ok {response : HttpResponse} {body : ByteArray} {withRetryAfter : Bool}
    (h : response.read = .ok body) : response.answer withRetryAfter =
      .ok ⟨response.status, body, if withRetryAfter then response.retryAfter else none⟩ := by
  rw [HttpResponse.answer, h]
  rfl

theorem answer_of_read_error {response : HttpResponse} {name : String} {withRetryAfter : Bool}
    (h : response.read = .error name) :
    response.answer withRetryAfter = .error (.exception name) := by
  rw [HttpResponse.answer, h]
  rfl

/-- The clauses turn every exception of the body into a failure, but for a refusal that cannot be
read. -/
theorem onlyRaises_clauses_iff {raised : Raised} {withRetryAfter : Bool}
    {detail errorCode : String} :
    OnlyRaises Raised.IsFailure
        (handle [onHttpError withRetryAfter, onException detail errorCode] raised) ↔
      ∀ answer name, raised = .httpError answer → answer.read ≠ .error name := by
  rw [onlyRaises_handle_cons_iff]
  cases raised with
  | httpError answer =>
    constructor
    · -- The reading raises in the clause of the refusal, and the clause behind it does not see it.
      rintro ⟨hclause, -⟩ _ name ⟨⟩ hread
      have hraises := hclause _ rfl
      rw [answer_of_read_error hread, onlyRaises_error_iff] at hraises
      obtain ⟨failure, ⟨⟩⟩ := hraises
    · intro h
      refine ⟨?_, by rintro ⟨⟩⟩
      rintro _ ⟨⟩
      cases hread : answer.read with
      | ok body =>
        rw [answer_of_read_ok hread]
        exact onlyRaises_ok _
      | error name => exact absurd hread (h answer name rfl)
  | exception name | transportFailure failure =>
    refine iff_of_true ⟨by rintro _ ⟨⟩, fun _ => ?_⟩ (by rintro _ _ ⟨⟩)
    exact onlyRaises_error_iff.mpr ⟨_, rfl⟩

/-- An exchange that is answered answers with a response that arrived, and its body. -/
theorem exchange_of_arrived {opened : Except Raised HttpResponse} {response : HttpResponse}
    {body : ByteArray} {withRetryAfter : Bool} {detail errorCode : String}
    (h : Arrived opened response) (hread : response.read = .ok body) :
    ∃ answer, exchange opened withRetryAfter detail errorCode = .ok answer ∧
      answer.status = response.status ∧ answer.body = body := by
  rcases h with rfl | rfl
  · rw [exchange, Except.ok_bind, answer_of_read_ok hread, run_ok]
    exact ⟨_, rfl, rfl, rfl⟩
  · rw [exchange, Except.error_bind, run_error, handle_cons_of_some rfl, answer_of_read_ok hread]
    exact ⟨_, rfl, rfl, rfl⟩

/-- **What an exchange raises is a transport failure iff no refusal is left unread.** -/
theorem exchange_onlyRaises_iff {opened : Except Raised HttpResponse} {withRetryAfter : Bool}
    {detail errorCode : String} :
    OnlyRaises Raised.IsFailure (exchange opened withRetryAfter detail errorCode) ↔
      ¬ RefusalUnread opened := by
  simp only [exchange, onlyRaises_run_iff, onlyRaises_clauses_iff]
  constructor
  · rintro h ⟨answer, name, rfl, hread⟩
    exact h _ rfl answer name rfl hread
  · rintro h raised hraised answer name rfl hread
    cases opened with
    | ok response =>
      -- What the reading of a success raises is no refusal.
      rw [Except.ok_bind] at hraised
      cases hresponse : response.read with
      | ok body =>
        rw [answer_of_read_ok hresponse] at hraised
        cases hraised
      | error name =>
        rw [answer_of_read_error hresponse] at hraised
        cases hraised
    | error e =>
      obtain rfl := Except.error.inj hraised
      exact h ⟨answer, name, rfl, hread⟩

variable (R opener) in
/-- A call is an exchange, with what is reported for it. -/
theorem TransportCall.exists_exchange (call : TransportCall) : ∃ withRetryAfter detail errorCode,
    call.run R opener = withRequest R call.request fun request =>
      exchange (opener request call.timeout) withRetryAfter detail errorCode := by
  cases call with
  | post http =>
    rw [TransportCall.run, UrllibTransport.post]
    exact ⟨_, _, _, rfl⟩
  | get http =>
    rw [TransportCall.run, UrllibTransport.get]
    exact ⟨_, _, _, rfl⟩

/-- What a call raises is a transport failure iff its request can be made and no refusal is left
unread. -/
theorem call_onlyRaises_iff (call : TransportCall) :
    OnlyRaises Raised.IsFailure (call.run R opener) ↔
      constructs R call.request.url ∧ ¬ RefusalUnread (opener call.request call.timeout) := by
  obtain ⟨withRetryAfter, detail, errorCode, hcall⟩ :=
    call.exists_exchange R opener
  rw [hcall, withRequest]
  by_cases hconstructs : constructs R call.request.url
  · rw [if_pos hconstructs, exchange_onlyRaises_iff]
    exact (and_iff_right hconstructs).symm
  · rw [if_neg hconstructs, onlyRaises_error_iff]
    refine iff_of_false ?_ fun h => hconstructs h.1
    rintro ⟨failure, ⟨⟩⟩

/-- **A refusal that is left unread escapes**: what reading it raises leaves the call. -/
theorem call_of_refusalUnread {call : TransportCall} {answer : HttpResponse} {name : String}
    (hconstructs : constructs R call.request.url)
    (hopened : opener call.request call.timeout = .error (.httpError answer))
    (hread : answer.read = .error name) : call.run R opener = .error (.exception name) := by
  obtain ⟨withRetryAfter, detail, errorCode, hcall⟩ :=
    call.exists_exchange R opener
  rw [hcall, withRequest, if_pos hconstructs, exchange, hopened, Except.error_bind, run_error,
    handle_cons_of_some rfl, answer_of_read_error hread]

/-- **The transport is one the client may assume** iff every post can be made, and no refusal of
one is left unread. -/
theorem post_isTransport_iff :
    (∃ transport : Transport, ∀ http,
      UrllibTransport.post R opener http = (transport http).mapError .transportFailure) ↔
      ∀ http, constructs R http.url ∧ ¬ RefusalUnread (opener (postRequest http) http.timeout) := by
  constructor
  · rintro ⟨transport, htransport⟩ http
    refine (call_onlyRaises_iff (.post http)).mp fun raised hraised => ?_
    rw [TransportCall.run, htransport] at hraised
    cases hmade : transport http with
    | ok answer =>
      rw [hmade] at hraised
      cases hraised
    | error failure =>
      rw [hmade] at hraised
      exact ⟨failure, (Except.error.inj hraised).symm⟩
  · intro h
    have hresult : ∀ http, ∃ result : Except TransportFailure HttpAnswer,
        UrllibTransport.post R opener http = result.mapError .transportFailure := by
      intro http
      have honly : OnlyRaises Raised.IsFailure (UrllibTransport.post R opener http) :=
        (call_onlyRaises_iff (.post http)).mpr (h http)
      cases hmade : UrllibTransport.post R opener http with
      | ok answer => exact ⟨.ok answer, rfl⟩
      | error raised =>
        obtain ⟨failure, rfl⟩ := honly raised hmade
        exact ⟨.error failure, rfl⟩
    choose transport htransport using hresult
    exact ⟨transport, htransport⟩

/-- **The transport answers or reports no answer** iff the request can be made and no refusal is
left unread. -/
theorem call_answersOrFails_iff (R : HostRules) (opener : Opener) (call : TransportCall) :
    AnswersOrFails (opener call.request call.timeout) (call.run R opener) ↔
      constructs R call.request.url ∧ ¬ RefusalUnread (opener call.request call.timeout) := by
  constructor
  · exact fun law => (call_onlyRaises_iff call).mp law.onlyFails
  · intro h
    refine ⟨(call_onlyRaises_iff call).mpr h, fun response body harrived hread => ?_⟩
    obtain ⟨withRetryAfter, detail, errorCode, hcall⟩ :=
      call.exists_exchange R opener
    rw [hcall, withRequest, if_pos h.1]
    exact exchange_of_arrived harrived hread

/-- A refusal whose body is cut short. -/
def truncatedRefusal : Opener := fun _ _ =>
  .error (.httpError ⟨503, none, .error "IncompleteRead"⟩)

/-- The truncation leaves the call as it is. -/
theorem not_answersOrFails_truncatedRefusal :
    ¬ ∀ (opener : Opener) (call : TransportCall),
      AnswersOrFails (opener call.request call.timeout) (call.run asciiHosts opener) := by
  intro h
  have hraises : TransportCall.run asciiHosts truncatedRefusal
      (.post ⟨"https://sub.example/observations", "".toUTF8, [], .finite 3⟩) =
        .error (.exception "IncompleteRead") :=
    call_of_refusalUnread (by decide +kernel) rfl rfl
  obtain ⟨failure, ⟨⟩⟩ := (h truncatedRefusal _).onlyFails _ hraises

end DotmacIntegrator.ProductPort
