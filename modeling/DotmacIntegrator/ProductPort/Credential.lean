import DotmacIntegrator.ProductPort.Outcome

/-!
# The credential and the outcome

What a destination writes is kept on the receipt. Of a refusal everything is redacted; of a
success three members are copied as they are.

## Main definitions

* `ProductOutcome.texts`: the strings of an outcome
* `CredentialFree`: none of them has the key in it that the client presents
* `BringsBack`: the answer, or one of the client's own codes, has the key where it is copied

## Main results

* `refused_clean`: the outcome of a refusal carries no held value
* `deliver_credentialFree_iff`: when no outcome of a delivery carries the key
-/

namespace DotmacIntegrator.ProductPort

open Secrets
open Text (Occurs)

/-- The strings of an outcome. -/
def ProductOutcome.texts (found : ProductOutcome) : List String :=
  found.errorCode.toList ++ found.errorDetail.toList ++ found.productRef.toList ++
    found.evidence.filterMap fun p => match p.2 with
      | .str text => some text
      | _ => none

/-- No string of the outcome has the key in it that the client presents. -/
def CredentialFree (held : Held) (client : ObservationPortClient) (found : ProductOutcome) :
    Prop :=
  ∀ key, held.get? client.apiKeyRef = some key → ∀ text ∈ found.texts, ¬ Occurs key text

/-- The members of a success that are copied. -/
def copiedMembers : List String := ["observation_id", "outcome", "processing_status"]

variable (rt : Runtime) (readAnswer : ByteArray → Except Json.LoadsError Json) (held : Held)
  (productObservationDocument : ProductRequest → Except ForeignError (Dict String Json))
  (transport : Transport) (client : ObservationPortClient)

/-- A success has the key in a member that is copied. -/
def Repeats (key : String) (answer : HttpAnswer) : Prop :=
  answer.status = 200 ∧
    match decoded readAnswer answer with
    | .error _ => False
    | .ok receipt => ∃ name ∈ copiedMembers, Occurs key (memberText rt receipt name)

instance (key : String) (answer : HttpAnswer) : Decidable (Repeats rt readAnswer key answer) := by
  unfold Repeats
  split <;> infer_instance

/-- The key occurs where a delivery copies text without redacting it: in the code of a request
that is not sent, or in a member of a success. -/
def BringsBack (request : ProductRequest) (key : String) : Prop :=
  match address rt productObservationDocument client request false with
  | .error (.unmapped _) => Occurs key "integrator.destination_not_addressable"
  | .error (.build (.envelope _)) => Occurs key "integrator.envelope_not_constructible"
  | .error _ => False
  | .ok (url, envelope) =>
    match post rt held transport client url envelope request with
    | .error _ => False
    | .ok answer => Repeats rt readAnswer key answer

instance (request : ProductRequest) (key : String) : Decidable (BringsBack rt readAnswer held
    productObservationDocument transport client request key) := by
  unfold BringsBack
  split
  · infer_instance
  · infer_instance
  · infer_instance
  · split <;> infer_instance

variable (digits : UnicodeDigits)

/-- No outcome of a delivery carries the key. -/
def DeliversCredentialFree (request : ProductRequest) : Prop :=
  ∀ found, deliver digits rt readAnswer held productObservationDocument transport client request =
    .ok found → CredentialFree held client found

variable {rt readAnswer held productObservationDocument transport client digits}

/-- The outcome of a refusal carries no held value. -/
theorem refused_clean {key : String} (h : Redactable key) (hkey : held.Holds key)
    (answer : HttpAnswer) (code message : Option String) (seconds : Option ℤ) :
    ∀ text ∈ (refused held answer code message seconds).texts, ¬ Occurs key text := by
  -- Both texts are truncated after they were redacted.
  have hcut : ∀ n text, ¬ Occurs key (Text.truncate n (redact held text)) := fun n text hocc =>
    redact_clean h hkey text (Text.occurs_of_truncate hocc)
  intro text htext
  simp only [ProductOutcome.texts, refused, Option.toList_some, Option.toList_none,
    List.append_nil, List.filterMap_cons, List.filterMap_nil, List.mem_append,
    List.mem_singleton, Option.mem_toList] at htext
  rcases htext with rfl | hdetail
  · exact hcut _ _
  · unfold nonempty at hdetail
    split_ifs at hdetail
    obtain rfl := Option.some.inj hdetail
    exact hcut _ _

/-- The outcome of a success carries what its copied members carry. -/
theorem acknowledged_clean_iff {key : String} (hne : key ≠ "") {receipt : Dict String Json} :
    (∀ text ∈ (acknowledged rt receipt).texts, ¬ Occurs key text) ↔
      ∀ name ∈ copiedMembers, ¬ Occurs key (memberText rt receipt name) := by
  have href : (∀ text ∈ (nonempty (memberText rt receipt "observation_id")).toList,
      ¬ Occurs key text) ↔ ¬ Occurs key (memberText rt receipt "observation_id") := by
    unfold nonempty
    split_ifs with hempty
    · simp [hempty, Text.not_occurs_empty hne]
    · simp
  simp only [ProductOutcome.texts, acknowledged, copiedMembers, Option.toList_none,
    List.nil_append, List.filterMap_cons, List.filterMap_nil, List.mem_append, or_imp,
    forall_and, href, List.mem_cons, List.not_mem_nil, or_false, forall_eq]

/-- The outcome of an answer is free of the key iff a success does not have it where it is
copied. -/
theorem outcome_clean_iff {key : String} (h : Redactable key) (hkey : held.Holds key)
    {answer : HttpAnswer} :
    (∀ found, outcome digits rt readAnswer held answer = .ok found →
      ∀ text ∈ found.texts, ¬ Occurs key text) ↔ ¬ Repeats rt readAnswer key answer := by
  unfold Repeats
  by_cases hstatus : answer.status = 200
  · rw [outcome_of_success hstatus]
    cases hd : decoded readAnswer answer with
    | error failure => simp [Except.mapError, Except.map]
    | ok receipt =>
      have hclean := @acknowledged_clean_iff rt key h.ne_empty receipt
      simp [Except.mapError, Except.map, hstatus, hclean]
  · refine iff_of_true ?_ (fun hs => hstatus hs.1)
    intro found hfound
    by_cases hdepth : TooDeep readAnswer answer
    · rw [outcome_of_tooDeep hdepth] at hfound
      cases hfound
    · obtain ⟨code, message, houtcome⟩ :=
        @outcome_of_refused digits rt readAnswer held answer hstatus hdepth
      rw [houtcome] at hfound
      obtain ⟨seconds, -, rfl⟩ := Except.map_eq_ok.mp hfound
      exact refused_clean h hkey answer code message seconds

/-- A request that is not sent has one code, and a detail that was redacted. -/
theorem unsent_clean_iff {key : String} (h : Redactable key) (hkey : held.Holds key)
    (acceptance : Delivery.ProductAcceptance) (code message : String) :
    (∀ text ∈ ProductOutcome.texts
        { acceptance, errorCode := some code, errorDetail := some (redact held message) },
      ¬ Occurs key text) ↔ ¬ Occurs key code := by
  have hclean := redact_clean h hkey message
  simp [ProductOutcome.texts, hclean]

/-- The outcome of a delivery is free of the key iff it is not where text is copied. -/
theorem deliver_clean_iff {key : String} (h : Redactable key) (hkey : held.Holds key)
    (hw : client.writes = true) {request : ProductRequest} :
    (∀ found, deliver digits rt readAnswer held productObservationDocument transport client
        request = .ok found → ∀ text ∈ found.texts, ¬ Occurs key text) ↔
      ¬ BringsBack rt readAnswer held productObservationDocument transport client request key := by
  unfold BringsBack deliver
  rw [hw]
  rcases address rt productObservationDocument client request false with
    (reason | reason | reason | reason) | ⟨url, envelope⟩
  case error.unmapped =>
    rw [← unsent_clean_iff h hkey .unavailable _ (reason.message rt.printable)]
    simp
  case error.build.envelope =>
    rw [← unsent_clean_iff h hkey .rejected _ (reason.message rt.printable)]
    simp
  case error.build.integerTooLong => simp
  case error.build.builder => simp
  case ok =>
    cases hpost : post rt held transport client url envelope request with
    | error reason => simp [hpost]
    | ok answer =>
      simp only [hpost, Bool.true_eq_false, if_false, Except.mapError_eq_ok]
      exact outcome_clean_iff h hkey

/-- **An outcome carries the credential back only where text is copied unredacted**: of a success
three members, and of a request that is not sent the client's own code. -/
theorem deliver_credentialFree_iff (hheld : ∀ value, held.Holds value → Redactable value)
    {request : ProductRequest} :
    DeliversCredentialFree rt readAnswer held productObservationDocument transport client digits
      request ↔
      ∀ key, held.get? client.apiKeyRef = some key → client.writes = true →
        ¬ BringsBack rt readAnswer held productObservationDocument transport client request
          key := by
  unfold DeliversCredentialFree
  cases hw : client.writes with
  | false => simp [deliver, hw]
  | true =>
    -- The two sides are read key by key.
    have hclean : ∀ key, held.get? client.apiKeyRef = some key →
        ((∀ found, deliver digits rt readAnswer held productObservationDocument transport client
            request = .ok found → ∀ text ∈ found.texts, ¬ Occurs key text) ↔
          ¬ BringsBack rt readAnswer held productObservationDocument transport client request
            key) := fun key hkey =>
      deliver_clean_iff (hheld key ⟨_, hkey⟩) ⟨_, hkey⟩ hw
    constructor
    · intro hfree key hkey _
      exact (hclean key hkey).mp fun found hfound => hfree found hfound key hkey
    · intro hback found hfound key hkey
      exact (hclean key hkey).mpr (hback key hkey rfl) found hfound

/-- What is held for `locatedClient`. -/
def locatedHeld : Held := [("env:PRODUCT_PORT_KEY", "k-9f2c8d71")]

theorem redactable_locatedHeld (value : String) (h : locatedHeld.Holds value) :
    Redactable value := by
  obtain ⟨reference, hget⟩ := h
  obtain ⟨-, rfl⟩ : (reference, value) = ("env:PRODUCT_PORT_KEY", "k-9f2c8d71") := by
    simpa [locatedHeld] using Dict.mem_of_get? hget
  exact ⟨by decide, by decide, by decide, by decide⟩

/-- A destination that answers one way. -/
def answering (status : ℤ) (text : String) : Transport := fun _ =>
  .ok { status, body := text.toUTF8, retryAfter := none }

/-- A refusal that repeats the key in its code and its message. -/
def echoingRefusal : Transport :=
  answering 401 "\x7b\"detail\":\x7b\"code\":\"k-9f2c8d71\",\"message\":\"k-9f2c8d71\"\x7d\x7d"

theorem deliver_credentialFree_iff_echoingRefusal :
    DeliversCredentialFree locatedRuntime (loadsUtf8 locatedRuntime) locatedHeld
      (fun _ => .error .other) echoingRefusal locatedClient .latin1 locatedRequest := by
  apply (deliver_credentialFree_iff redactable_locatedHeld).mpr
  intro key hkey _
  obtain rfl : "k-9f2c8d71" = key := Option.some.inj hkey
  decide +kernel

/-- A success that repeats the key in its outcome. -/
def echoingSuccess : Transport := answering 200 "\x7b\"outcome\":\"key k-9f2c8d71\"\x7d"

/-- A success that repeats the key puts it into the evidence. -/
theorem not_deliversCredentialFree_echoingSuccess :
    (∀ value, locatedHeld.Holds value → Redactable value) ∧
      ¬ DeliversCredentialFree locatedRuntime (loadsUtf8 locatedRuntime) locatedHeld
        (fun _ => .error .other) echoingSuccess locatedClient .latin1 locatedRequest := by
  refine ⟨redactable_locatedHeld, ?_⟩
  intro hfree
  have htexts : (match deliver .latin1 locatedRuntime (loadsUtf8 locatedRuntime) locatedHeld
      (fun _ => .error .other) echoingSuccess locatedClient locatedRequest with
    | .ok found => found.texts
    | .error _ => []) = ["key k-9f2c8d71", ""] := by decide +kernel
  split at htexts
  · next found hfound =>
    refine hfree found hfound "k-9f2c8d71" rfl "key k-9f2c8d71" ?_ (by decide)
    rw [htexts]
    exact List.mem_cons_self
  · cases htexts

end DotmacIntegrator.ProductPort
