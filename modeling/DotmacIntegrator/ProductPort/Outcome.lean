import DotmacIntegrator.Delivery.Pump
import DotmacIntegrator.Foundation.JsonGrammar
import DotmacIntegrator.Foundation.PyDigits
import DotmacIntegrator.ProductPort.Client
import DotmacIntegrator.Secrets.Redaction

/-!
# The outcome of a delivery

A delivery is settled by what the destination answered: its status, its typed refusal, and on
success whether it recognised the identity. Whatever it wrote is third-party text.

## Main definitions

* `outcome`: the destination's answer, in the engine's vocabulary
* `deliver`: one delivery, from the request to its outcome
* `AcknowledgedReadably`: a delivery is acknowledged by the text of a JSON object and nothing else

## Main results

* `outcome_of_refused`: what is made of an answer that is not a success
* `outcome_total_iff`, `outcome_acknowledges_iff`: when an answer is read, and when it acknowledges
-/

namespace DotmacIntegrator.ProductPort

open Secrets
open Delivery (ProductAcceptance)
open Text (Occurs)

/-- The module's outcome of one delivery. -/
structure ProductOutcome where
  acceptance : ProductAcceptance
  productRef : Option String := none
  errorCode : Option String := none
  errorDetail : Option String := none
  retryAfterSeconds : Option ℤ := none
  evidence : Dict String Json := []

/-- What making an outcome of an answer may raise: the module's transport failure, the `ValueError`
of `int`, or the `RecursionError` of `json.loads`. -/
inductive OutcomeError
  | transport (reason : TransportFailure)
  | valueError
  | recursionError
  deriving DecidableEq, Repr

/-- Reading an answer raises what it raises. -/
def OutcomeError.ofAnswer : AnswerError → OutcomeError
  | .transport reason => .transport reason
  | .recursionError => .recursionError

/-- What a delivery may raise. -/
inductive DeliverError
  | shadowClientCannotWrite
  | client (reason : MirrorError)
  | answer (reason : OutcomeError)

/-- The acceptance of a refusal, by the suffix of its code. -/
def acceptanceByCode : Dict String ProductAcceptance :=
  [("unsupported_contract_version", .rejected), ("unknown_capability", .rejected),
   ("identity_collision", .indeterminate),
   ("provider_event_identity_collision", .indeterminate), ("receipt_conflict", .unavailable)]

/-- The acceptance of a refusal, by its status. -/
def acceptanceByStatus : Dict ℤ ProductAcceptance :=
  [(400, .rejected), (422, .rejected), (401, .unavailable), (403, .unavailable),
   (429, .unavailable)]

/-- The longest `Retry-After` that is relayed. -/
def longestBelievableRetryAfter : ℤ := 3600

/-- The acceptances that say the destination holds the consequence. -/
def Acknowledges (acceptance : ProductAcceptance) : Prop :=
  acceptance = .accepted ∨ acceptance = .alreadyApplied

instance (acceptance : ProductAcceptance) : Decidable (Acknowledges acceptance) :=
  inferInstanceAs (Decidable (_ ∨ _))

/-- `_classify`: status and code onto an acceptance. -/
def classify (status : ℤ) (code : Option String) : ProductAcceptance :=
  match code.bind fun code => acceptanceByCode.find? fun p => p.1.toList <:+ code.toList with
  | some (_, acceptance) => acceptance
  | none =>
    if status = 404 then if code.isSome then .rejected else .unavailable
    else if status = 409 then .indeterminate
    else (acceptanceByStatus.get? status).getD .unavailable

variable (digits : UnicodeDigits)

/-- The header of an answer, stripped; one that is missing is empty. -/
def retryAfterText (answer : HttpAnswer) : String := Text.strip (answer.retryAfter.getD "")

/-- `_retry_after`: the seconds to wait, when they are a number; an error is what `int` raises. -/
def retryAfter (answer : HttpAnswer) : Except OutcomeError (Option ℤ) :=
  let raw := retryAfterText answer
  if digits.isDigit raw = false then .ok none
  else match digits.int raw with
    | none => .error .valueError
    | some seconds => .ok (some (min (seconds : ℤ) longestBelievableRetryAfter))

variable (rt : Runtime) (readAnswer : ByteArray → Except Json.LoadsError Json)

/-- `str(value)`, unless there is none. -/
def optionalText (value : Json) : Option String :=
  if value = .null then none else some (PyRepr.str rt.printable rt.floats value)

/-- `_refusal`: the destination's typed code and message. A body that is refused has none; one that
is nested too deeply raises. -/
def refusal (answer : HttpAnswer) : Except OutcomeError (Option String × Option String) :=
  match readAnswer (answeredBytes answer) with
  | .error .recursionError => .error .recursionError
  | .ok (.obj body) =>
    match read body "detail" with
    | .obj detail =>
      .ok (optionalText rt (read detail "code"), optionalText rt (read detail "message"))
    | .str detail => .ok (none, some detail)
    | _ => .ok (none, none)
  | _ => .ok (none, none)

/-- `str(receipt.get(name) or "")`. -/
def memberText (receipt : Dict String Json) (name : String) : String :=
  if (read receipt name).truthy then PyRepr.str rt.printable rt.floats (read receipt name) else ""

/-- `text or None`. -/
def nonempty (text : String) : Option String := if text = "" then none else some text

/-- The outcome of a success. -/
def acknowledged (receipt : Dict String Json) : ProductOutcome where
  acceptance := if (read receipt "replayed").truthy then .alreadyApplied else .accepted
  productRef := nonempty (memberText rt receipt "observation_id")
  evidence :=
    [("outcome", .str (memberText rt receipt "outcome")),
     ("processing_status", .str (memberText rt receipt "processing_status")),
     ("replayed", .bool (read receipt "replayed").truthy)]

variable (held : Held)

/-- The outcome of a refusal. -/
def refused (answer : HttpAnswer) (code message : Option String) (seconds : Option ℤ) :
    ProductOutcome :=
  { acceptance := classify answer.status code
    errorCode := some (Text.truncate 120
      (redact held ((code.bind nonempty).getD s!"http_{answer.status}")))
    errorDetail := nonempty (Text.truncate 2000 (redact held (message.getD "")))
    retryAfterSeconds := seconds
    evidence := [("http_status", .int answer.status)] }

/-- `_outcome`: the destination's answer, in the engine's vocabulary. -/
def outcome (answer : HttpAnswer) : Except OutcomeError ProductOutcome :=
  if answer.status = 200 then
    ((decoded readAnswer answer).mapError .ofAnswer).map (acknowledged rt)
  else do
    let (code, message) ← refusal rt readAnswer answer
    let seconds ← retryAfter digits answer
    return refused held answer code message seconds

variable (productObservationDocument : ProductRequest → Except ForeignError (Dict String Json))
  (transport : Transport) (client : ObservationPortClient)

/-- `deliver`: one delivery. A request that cannot be addressed or written down is an outcome of
its own; nothing is sent. -/
def deliver (request : ProductRequest) : Except DeliverError ProductOutcome :=
  if client.writes = false then .error .shadowClientCannotWrite
  else match address rt productObservationDocument client request false with
    | .error (.unmapped reason) =>
      .ok { acceptance := .unavailable
            errorCode := some "integrator.destination_not_addressable"
            errorDetail := some (redact held (reason.message rt.printable)) }
    | .error (.build (.envelope reason)) =>
      .ok { acceptance := .rejected
            errorCode := some "integrator.envelope_not_constructible"
            errorDetail := some (redact held (reason.message rt.printable)) }
    | .error reason => .error (.client (.address reason))
    | .ok (url, envelope) =>
      match post rt held transport client url envelope request with
      | .error reason => .error (.client reason)
      | .ok answer => (outcome digits rt readAnswer held answer).mapError .answer

variable {digits rt readAnswer held productObservationDocument transport client}

/-! ### Reading an answer -/

/-- A wait that is relayed is bounded. -/
theorem retryAfter_bounds {answer : HttpAnswer} {seconds : ℤ}
    (h : retryAfter digits answer = .ok (some seconds)) :
    0 ≤ seconds ∧ seconds ≤ longestBelievableRetryAfter := by
  unfold retryAfter at h
  simp only at h
  split_ifs at h
  · cases h
  · split at h
    · cases h
    · next n _ =>
      obtain rfl := Option.some.inj (Except.ok.inj h)
      exact ⟨le_min (Int.natCast_nonneg n) (by decide), min_le_right _ _⟩

/-- The header raises nothing but a value error. -/
theorem retryAfter_ne_transport {answer : HttpAnswer} {failure : TransportFailure} :
    retryAfter digits answer ≠ .error (.transport failure) := by
  unfold retryAfter
  simp only
  split_ifs
  · exact nofun
  · split <;> exact nofun

/-- The header is read unless it is a text of digits that `int` refuses. -/
theorem retryAfter_isOk_iff {answer : HttpAnswer} :
    (∃ seconds, retryAfter digits answer = .ok seconds) ↔
      digits.isDigit (retryAfterText answer) = false ∨ digits.Decimal (retryAfterText answer) := by
  rw [← UnicodeDigits.int_isSome_iff]
  unfold retryAfter
  simp only
  split_ifs with hdigit
  · simp [hdigit]
  · cases digits.int (retryAfterText answer) <;> simp [hdigit]

/-- What is made of a success: the receipt it carries, or what reading it raises. -/
theorem outcome_of_success {answer : HttpAnswer} (h : answer.status = 200) :
    outcome digits rt readAnswer held answer =
      ((decoded readAnswer answer).mapError .ofAnswer).map (acknowledged rt) := if_pos h

/-- The typed refusal is read unless the body is nested too deeply. -/
theorem refusal_cases (answer : HttpAnswer) :
    (TooDeep readAnswer answer ∧ refusal rt readAnswer answer = .error .recursionError) ∨
      ¬ TooDeep readAnswer answer ∧ ∃ found, refusal rt readAnswer answer = .ok found := by
  unfold refusal TooDeep
  split
  · next h => exact .inl ⟨h, rfl⟩
  · next h =>
    refine .inr ⟨by rw [h]; exact nofun, ?_⟩
    split <;> exact ⟨_, rfl⟩
  · next hnot _ => exact .inr ⟨hnot, _, rfl⟩

/-- What is made of an answer that is not a success, and not nested too deeply. -/
theorem outcome_of_refused {answer : HttpAnswer} (h : answer.status ≠ 200)
    (hdepth : ¬ TooDeep readAnswer answer) :
    ∃ code message, outcome digits rt readAnswer held answer =
      (retryAfter digits answer).map (refused held answer code message) := by
  rcases @refusal_cases rt readAnswer answer with ⟨hdeep, -⟩ | ⟨-, ⟨code, message⟩, hfound⟩
  · exact absurd hdeep hdepth
  · refine ⟨code, message, ?_⟩
    rw [outcome, if_neg h, hfound]
    cases retryAfter digits answer <;> rfl

/-- What is nested too deeply raises. -/
theorem outcome_of_tooDeep {answer : HttpAnswer} (h : TooDeep readAnswer answer) :
    outcome digits rt readAnswer held answer = .error .recursionError := by
  unfold outcome
  split_ifs with hstatus
  · rw [decoded_eq_recursionError_iff.mpr h]
    rfl
  · rcases @refusal_cases rt readAnswer answer with ⟨-, hraised⟩ | ⟨hnot, -⟩
    · rw [hraised]
      rfl
    · exact absurd h hnot

/-- What is not nested too deeply is a receipt or a transport failure. -/
theorem decoded_cases {answer : HttpAnswer} (h : ¬ TooDeep readAnswer answer) :
    (∃ receipt, decoded readAnswer answer = .ok receipt) ∨
      ∃ failure, decoded readAnswer answer = .error (.transport failure) := by
  cases hd : decoded readAnswer answer with
  | ok receipt => exact .inl ⟨receipt, rfl⟩
  | error reason =>
    cases reason with
    | transport failure => exact .inr ⟨failure, rfl⟩
    | recursionError => exact absurd (decoded_eq_recursionError_iff.mp hd) h

/-- **Reading an answer is total, but for one header and the depth of its document**: an answer
becomes an outcome with a bounded wait, or a transport failure, iff it is not nested too deeply, and
is a success or has no `Retry-After` of digits that `int` refuses. -/
theorem outcome_total_iff {answer : HttpAnswer} :
    ((∃ found, outcome digits rt readAnswer held answer = .ok found ∧
        ∀ seconds, found.retryAfterSeconds = some seconds → 0 ≤ seconds ∧ seconds ≤ 3600) ∨
      ∃ failure, outcome digits rt readAnswer held answer = .error (.transport failure)) ↔
      ¬ TooDeep readAnswer answer ∧
        (answer.status = 200 ∨ digits.isDigit (retryAfterText answer) = false ∨
          digits.Decimal (retryAfterText answer)) := by
  by_cases hdepth : TooDeep readAnswer answer
  · rw [outcome_of_tooDeep hdepth]
    simp [hdepth]
  rw [and_iff_right hdepth]
  by_cases hstatus : answer.status = 200
  · -- A success has no header to read.
    refine iff_of_true ?_ (.inl hstatus)
    rw [outcome_of_success hstatus]
    rcases decoded_cases hdepth with ⟨receipt, hd⟩ | ⟨failure, hd⟩
    · exact .inl ⟨acknowledged rt receipt, by rw [hd]; rfl, nofun⟩
    · exact .inr ⟨failure, by rw [hd]; rfl⟩
  · obtain ⟨code, message, houtcome⟩ :=
      @outcome_of_refused digits rt readAnswer held answer hstatus hdepth
    rw [houtcome, or_iff_right hstatus, ← retryAfter_isOk_iff]
    constructor
    · rintro (⟨found, hfound, -⟩ | ⟨failure, hfailure⟩)
      · obtain ⟨seconds, hseconds, -⟩ := Except.map_eq_ok.mp hfound
        exact ⟨seconds, hseconds⟩
      · cases hr : retryAfter digits answer with
        | ok seconds => exact ⟨seconds, rfl⟩
        | error e =>
          rw [hr] at hfailure
          obtain rfl := Except.error.inj hfailure
          exact absurd hr retryAfter_ne_transport
    · rintro ⟨seconds, hseconds⟩
      refine .inl ⟨_, Except.map_eq_ok.mpr ⟨seconds, hseconds, rfl⟩, ?_⟩
      intro wait hwait
      obtain rfl : seconds = some wait := hwait
      exact retryAfter_bounds hseconds

/-- `json.loads` of UTF-8, of a document that is never nested too deeply. -/
def loadsUtf8 (rt : Runtime) : ByteArray → Except Json.LoadsError Json :=
  loadsAnswer rt String.fromUTF8? fun _ => false

/-- A throttled answer whose header is a superscript. -/
def superscriptAnswer : HttpAnswer := { status := 429, body := .empty, retryAfter := some "²" }

/-- A superscript is a digit that `int` refuses. -/
theorem outcome_superscriptAnswer :
    ¬ ((∃ found, outcome .latin1 locatedRuntime (loadsUtf8 locatedRuntime) [] superscriptAnswer =
          .ok found ∧
        ∀ seconds, found.retryAfterSeconds = some seconds → 0 ≤ seconds ∧ seconds ≤ 3600) ∨
      ∃ failure, outcome .latin1 locatedRuntime (loadsUtf8 locatedRuntime) [] superscriptAnswer =
        .error (.transport failure)) := by
  have h : outcome .latin1 locatedRuntime (loadsUtf8 locatedRuntime) [] superscriptAnswer =
      .error .valueError := rfl
  rw [h]
  rintro (⟨found, hfound, -⟩ | ⟨failure, hfailure⟩)
  · cases hfound
  · cases hfailure

/-! ### Acknowledging -/

/-- No refusal says that the destination holds the consequence. -/
theorem not_acknowledges_classify (status : ℤ) (code : Option String) :
    ¬ Acknowledges (classify status code) := by
  have hcodes : ∀ p ∈ acceptanceByCode, ¬ Acknowledges p.2 := by decide
  have hstatuses : ∀ p ∈ acceptanceByStatus, ¬ Acknowledges p.2 := by decide
  unfold classify
  split
  · next entry hfound =>
    obtain ⟨code, -, hfind⟩ := Option.bind_eq_some_iff.mp hfound
    exact hcodes _ (List.mem_of_find?_eq_some hfind)
  · split_ifs
    · decide
    · decide
    · decide
    · cases hget : acceptanceByStatus.get? status with
      | none => decide
      | some acceptance => exact hstatuses _ (Dict.mem_of_get? hget)

/-- A refusal acknowledges nothing, whatever its body is. -/
theorem not_acknowledges_of_refused {answer : HttpAnswer} (h : answer.status ≠ 200)
    {found : ProductOutcome} (hfound : outcome digits rt readAnswer held answer = .ok found) :
    ¬ Acknowledges found.acceptance := by
  by_cases hdepth : TooDeep readAnswer answer
  · rw [outcome_of_tooDeep hdepth] at hfound
    cases hfound
  · obtain ⟨code, message, houtcome⟩ :=
      @outcome_of_refused digits rt readAnswer held answer h hdepth
    rw [houtcome] at hfound
    obtain ⟨seconds, -, rfl⟩ := Except.map_eq_ok.mp hfound
    exact not_acknowledges_classify _ _

theorem acknowledges_acknowledged (receipt : Dict String Json) :
    Acknowledges (acknowledged rt receipt).acceptance := by
  unfold Acknowledges acknowledged
  cases (read receipt "replayed").truthy <;> simp

theorem acknowledged_alreadyApplied_iff {receipt : Dict String Json} :
    (acknowledged rt receipt).acceptance = .alreadyApplied ↔
      (read receipt "replayed").truthy = true := by
  unfold acknowledged
  cases (read receipt "replayed").truthy <;> simp

/-! ### The text of a JSON object -/

open Rfc8259 (ObjectText)

variable {decode : ByteArray → Option String} {deep : String → Bool}

/-- The bytes are the text of a JSON object. -/
def ObjectBody (decode : ByteArray → Option String) (body : ByteArray) : Prop :=
  ∃ text, decode body = some text ∧ ObjectText Rfc8259.rfc text.toList

/-- The object that bytes are the text of. -/
def BodyOf (rt : Runtime) (decode : ByteArray → Option String) (body : ByteArray)
    (receipt : Dict String Json) : Prop :=
  ∃ text, decode body = some text ∧ Json.loads rt.floats text = some (.obj receipt)

/-- A delivery is acknowledged by the text of a JSON object and nothing else, and as applied before
exactly where that object says so; every other success is a transport failure, and what is no
success acknowledges nothing. -/
structure AcknowledgedReadably (digits : UnicodeDigits) (rt : Runtime)
    (decode : ByteArray → Option String) (deep : String → Bool) (held : Held)
    (answer : HttpAnswer) : Prop where
  acknowledges : (∃ found, outcome digits rt (loadsAnswer rt decode deep) held answer = .ok found ∧
      Acknowledges found.acceptance) ↔ answer.status = 200 ∧ ObjectBody decode answer.body
  applied : (∃ found, outcome digits rt (loadsAnswer rt decode deep) held answer = .ok found ∧
      found.acceptance = .alreadyApplied) ↔
    answer.status = 200 ∧ ObjectBody decode answer.body ∧
      ∃ receipt, BodyOf rt decode answer.body receipt ∧ (read receipt "replayed").truthy = true
  fails : answer.status = 200 → ¬ ObjectBody decode answer.body →
    ∃ failure, outcome digits rt (loadsAnswer rt decode deep) held answer =
      .error (.transport failure)
  refuses : answer.status ≠ 200 → ∀ found,
    outcome digits rt (loadsAnswer rt decode deep) held answer = .ok found →
      ¬ Acknowledges found.acceptance

/-- The bytes are read as the grammar reads them: they are not nested too deeply, and are an object
with the names and the numbers of the reader iff they are one with those of the grammar. -/
def ReadAsWritten (decode : ByteArray → Option String) (deep : String → Bool) (body : ByteArray) :
    Prop :=
  ∀ text, decode body = some text → deep text = false ∧
    (ObjectText Json.python text.toList ↔ ObjectText Rfc8259.rfc text.toList)

theorem answeredBytes_of_nonempty {answer : HttpAnswer} (h : answer.body ≠ .empty) :
    answeredBytes answer = answer.body := by
  refine if_neg fun hempty => h (ByteArray.size_eq_zero_iff.mp ?_)
  simpa [ByteArray.isEmpty] using hempty

/-- Bytes that are not nested too deeply are read as their text is. -/
theorem loadsAnswer_eq_ok_iff {data : ByteArray} {value : Json} :
    loadsAnswer rt decode deep data = .ok value ↔
      ∃ text, decode data = some text ∧ deep text = false ∧
        Json.loads rt.floats text = some value := by
  unfold loadsAnswer
  cases decode data with
  | none => simp
  | some text =>
    cases hdeep : deep text with
    | true => simp [hdeep]
    | false => cases hloads : Json.loads rt.floats text <;> simp [hdeep, hloads]

theorem decoded_eq_ok_iff {answer : HttpAnswer} {receipt : Dict String Json} :
    decoded readAnswer answer = .ok receipt ↔
      readAnswer (answeredBytes answer) = .ok (.obj receipt) := by
  rw [decoded]
  split <;> simp_all

/-- What a success acknowledges, in terms of its bytes. -/
theorem outcome_of_success_eq_ok {answer : HttpAnswer} (h : answer.status = 200)
    {found : ProductOutcome} :
    outcome digits rt readAnswer held answer = .ok found ↔
      ∃ receipt, readAnswer (answeredBytes answer) = .ok (.obj receipt) ∧
        acknowledged rt receipt = found := by
  rw [outcome_of_success h]
  simp only [Except.map_eq_ok, Except.mapError_eq_ok, decoded_eq_ok_iff]

theorem acknowledgedReadably_of_refused {answer : HttpAnswer} (h : answer.status ≠ 200) :
    AcknowledgedReadably digits rt decode deep held answer := by
  have hnot := @not_acknowledges_of_refused digits rt (loadsAnswer rt decode deep) held answer h
  constructor
  · refine iff_of_false ?_ fun hs => h hs.1
    rintro ⟨found, hfound, hack⟩
    exact hnot hfound hack
  · refine iff_of_false ?_ fun hs => h hs.1
    rintro ⟨found, hfound, happlied⟩
    exact hnot hfound (.inr happlied)
  · exact fun hs => absurd hs h
  · exact fun _ _ => hnot

/-- What is read as it is written is not nested too deeply. -/
theorem not_tooDeep_of_readAsWritten {answer : HttpAnswer} (hbody : answer.body ≠ .empty)
    (hread : ReadAsWritten decode deep answer.body) :
    ¬ TooDeep (loadsAnswer rt decode deep) answer := by
  intro hdeep
  rw [TooDeep, answeredBytes_of_nonempty hbody, loadsAnswer] at hdeep
  cases htext : decode answer.body with
  | none => simp [htext] at hdeep
  | some text =>
    simp only [htext, (hread text htext).1, Bool.false_eq_true, if_false] at hdeep
    cases hloads : Json.loads rt.floats text with
    | none => simp [hloads] at hdeep
    | some value => simp [hloads] at hdeep

/-- A success whose body is not empty, and is read as it is written. -/
theorem acknowledgedReadably_of_nonempty {answer : HttpAnswer} (h : answer.status = 200)
    (hbody : answer.body ≠ .empty) (hread : ReadAsWritten decode deep answer.body) :
    AcknowledgedReadably digits rt decode deep held answer := by
  have hok : ∀ found, outcome digits rt (loadsAnswer rt decode deep) held answer = .ok found ↔
      ∃ receipt, BodyOf rt decode answer.body receipt ∧ acknowledged rt receipt = found := by
    intro found
    rw [outcome_of_success_eq_ok h, answeredBytes_of_nonempty hbody]
    simp only [loadsAnswer_eq_ok_iff, BodyOf]
    refine exists_congr fun receipt => and_congr_left fun _ => exists_congr fun text => ?_
    exact and_congr_right fun htext => and_iff_right (hread text htext).1
  -- An object is read of exactly the texts of objects.
  have hobject : (∃ receipt, BodyOf rt decode answer.body receipt) ↔
      ObjectBody decode answer.body := by
    simp only [BodyOf, ObjectBody]
    rw [exists_comm]
    refine exists_congr fun text => ?_
    rw [exists_and_left]
    refine and_congr_right fun htext => ?_
    rw [Json.loads_object_iff, (hread text htext).2]
  constructor
  · simp only [hok, h, true_and, ← hobject]
    constructor
    · rintro ⟨found, ⟨receipt, hreceipt, -⟩, -⟩
      exact ⟨receipt, hreceipt⟩
    · rintro ⟨receipt, hreceipt⟩
      exact ⟨_, ⟨receipt, hreceipt, rfl⟩, acknowledges_acknowledged receipt⟩
  · simp only [hok, h, true_and, ← hobject]
    constructor
    · rintro ⟨found, ⟨receipt, hreceipt, rfl⟩, hfound⟩
      exact ⟨⟨receipt, hreceipt⟩, receipt, hreceipt, acknowledged_alreadyApplied_iff.mp hfound⟩
    · rintro ⟨-, receipt, hreceipt, hreplayed⟩
      exact ⟨_, ⟨receipt, hreceipt, rfl⟩, acknowledged_alreadyApplied_iff.mpr hreplayed⟩
  · intro _ hno
    have hshallow : ¬ TooDeep (loadsAnswer rt decode deep) answer :=
      not_tooDeep_of_readAsWritten hbody hread
    rcases decoded_cases hshallow with ⟨receipt, hd⟩ | ⟨failure, hd⟩
    · have hfound := (hok _).mp (by rw [outcome_of_success h, hd]; rfl)
      obtain ⟨receipt, hreceipt, -⟩ := hfound
      exact absurd (hobject.mp ⟨receipt, hreceipt⟩) hno
    · exact ⟨failure, by rw [outcome_of_success h, hd]; rfl⟩
  · exact fun hs => absurd h hs

/-- The empty text is no object. -/
theorem not_objectText_nil (L : Rfc8259.Lexicon) : ¬ ObjectText L [] := by
  rintro ⟨w, v, w', h, -, -, hbrace, -⟩
  obtain ⟨-, hrest⟩ := List.append_eq_nil_iff.mp h.symm
  obtain ⟨rfl, -⟩ := List.append_eq_nil_iff.mp hrest
  cases hbrace

/-- An empty body is accepted, or raises: it is read as an empty object. -/
theorem not_acknowledgedReadably_of_empty (hempty : decode .empty = some "")
    (hbraces : decode "\x7b\x7d".toUTF8 = some "\x7b\x7d") {answer : HttpAnswer}
    (hstatus : answer.status = 200) (hbody : answer.body = .empty) :
    ¬ AcknowledgedReadably digits rt decode deep held answer := by
  intro h
  have hno : ¬ ObjectBody decode answer.body := by
    rintro ⟨text, htext, hobject⟩
    rw [hbody, hempty] at htext
    obtain rfl := Option.some.inj htext
    exact not_objectText_nil _ hobject
  obtain ⟨failure, hfailure⟩ := h.fails hstatus hno
  have hanswered : answeredBytes answer = "\x7b\x7d".toUTF8 := by
    rw [answeredBytes, hbody]
    rfl
  have hloads : Json.loads rt.floats "\x7b\x7d" = some (.obj []) := rfl
  rw [outcome_of_success hstatus, decoded, hanswered, loadsAnswer, hbraces] at hfailure
  cases hdeep : deep "\x7b\x7d" <;> simp [hdeep, hloads, OutcomeError.ofAnswer, Except.map,
    Except.mapError] at hfailure

/-- A success that is not empty, and is not read as it is written. -/
theorem readAsWritten_of_acknowledgedReadably {answer : HttpAnswer} (hstatus : answer.status = 200)
    (hbody : answer.body ≠ .empty) (h : AcknowledgedReadably digits rt decode deep held answer) :
    ReadAsWritten decode deep answer.body := by
  intro text htext
  have hdepth : deep text = false := by
    -- What is nested too deeply raises neither a failure nor becomes an outcome.
    by_contra hdeep
    rw [Bool.not_eq_false] at hdeep
    have hraised : outcome digits rt (loadsAnswer rt decode deep) held answer =
        .error .recursionError := by
      refine outcome_of_tooDeep ?_
      rw [TooDeep, answeredBytes_of_nonempty hbody, loadsAnswer, htext]
      simp [hdeep]
    by_cases hobject : ObjectBody decode answer.body
    · obtain ⟨found, hfound, -⟩ := h.acknowledges.mpr ⟨hstatus, hobject⟩
      rw [hraised] at hfound
      cases hfound
    · obtain ⟨failure, hfailure⟩ := h.fails hstatus hobject
      rw [hraised] at hfailure
      cases hfailure
  refine ⟨hdepth, ?_⟩
  have hack := h.acknowledges
  simp only [outcome_of_success_eq_ok hstatus, answeredBytes_of_nonempty hbody,
    loadsAnswer_eq_ok_iff, hstatus, true_and] at hack
  rw [← Json.loads_object_iff rt.floats]
  constructor
  · rintro ⟨receipt, hreceipt⟩
    obtain ⟨text', htext', hobject⟩ := hack.mp
      ⟨_, ⟨receipt, ⟨text, htext, hdepth, hreceipt⟩, rfl⟩, acknowledges_acknowledged receipt⟩
    obtain rfl := Option.some.inj (htext.symm.trans htext')
    exact hobject
  · intro hobject
    obtain ⟨_, ⟨receipt, ⟨text', htext', -, hreceipt⟩, -⟩, -⟩ := hack.mpr ⟨text, htext, hobject⟩
    obtain rfl := Option.some.inj (htext.symm.trans htext')
    exact ⟨receipt, hreceipt⟩

/-- **A delivery is acknowledged only by a readable acknowledgement**, unless the body of a success
is empty, which is read as an empty object, or the reader differs from the grammar on it: it is
nested too deeply, or is an object by one and none by the other. -/
theorem outcome_acknowledges_iff (hempty : decode .empty = some "")
    (hbraces : decode "\x7b\x7d".toUTF8 = some "\x7b\x7d") {answer : HttpAnswer} :
    AcknowledgedReadably digits rt decode deep held answer ↔
      answer.status ≠ 200 ∨ answer.body ≠ .empty ∧ ReadAsWritten decode deep answer.body := by
  by_cases hstatus : answer.status = 200
  · by_cases hbody : answer.body = .empty
    · refine iff_of_false (not_acknowledgedReadably_of_empty hempty hbraces hstatus hbody) ?_
      rintro (hne | ⟨hne, -⟩)
      · exact hne hstatus
      · exact hne hbody
    · rw [or_iff_right (not_not.mpr hstatus), and_iff_right hbody]
      exact ⟨readAsWritten_of_acknowledgedReadably hstatus hbody,
        acknowledgedReadably_of_nonempty hstatus hbody⟩
  · exact iff_of_true (acknowledgedReadably_of_refused hstatus) (.inl hstatus)

/-- An answer that recognised the identity. -/
def replayedAnswer : HttpAnswer where
  status := 200
  body := "\x7b\"replayed\":true\x7d".toUTF8
  retryAfter := none

/-- What a replay says is the text of an object, for the reader and for the grammar. -/
theorem objectText_replayed {L : Rfc8259.Lexicon} (h : "true".toList ∈ L.names) :
    ObjectText L "\x7b\"replayed\":true\x7d".toList := by
  have hkey : Rfc8259.Chars "replayed".toList := by
    have hescape : Json.escape "replayed".toList = "replayed".toList := by decide
    rw [← hescape]
    exact Rfc8259.chars_escape _
  refine ⟨[], "\x7b\"replayed\":true\x7d".toList, [], (List.append_nil _).symm, .nil, ?_, rfl,
    .nil⟩
  exact .object (.member .nil hkey .nil .nil (.literal h) .nil)

theorem outcome_acknowledges_iff_replayedAnswer :
    AcknowledgedReadably .latin1 locatedRuntime String.fromUTF8? (fun _ => false) []
      replayedAnswer := by
  apply (outcome_acknowledges_iff (fromUTF8?_toUTF8 "") (fromUTF8?_toUTF8 _)).mpr
  refine .inr ⟨?_, fun text htext => ⟨rfl, ?_⟩⟩
  · rw [ne_eq, ← ByteArray.size_eq_zero_iff]
    decide
  · rw [replayedAnswer, fromUTF8?_toUTF8] at htext
    obtain rfl := Option.some.inj htext
    exact iff_of_true (objectText_replayed (by decide)) (objectText_replayed (by decide))

/-- A success without a body. -/
def emptyAnswer : HttpAnswer := { status := 200, body := .empty, retryAfter := none }

/-- A success without a body is accepted. -/
theorem not_acknowledgedReadably_emptyAnswer :
    ¬ AcknowledgedReadably .latin1 locatedRuntime String.fromUTF8? (fun _ => false) []
      emptyAnswer :=
  not_acknowledgedReadably_of_empty (fromUTF8?_toUTF8 "") (fromUTF8?_toUTF8 _) rfl rfl

end DotmacIntegrator.ProductPort
