import DotmacIntegrator.ProductPort.Outcome

/-!
# What a client posts

The client reaches the destination through its transport and nothing else. The requests it hands
to the transport are a function of the request and of what is held.

## Main definitions

* `httpRequest`: the request a post hands to the transport
* `mirrorPosts`, `deliverPosts`: the requests a comparison and a delivery hand to it

## Main results

* `post_eq`: a post is its request, handed to the transport
* `mirrorPosts_url`: a comparison is posted to the shadow path of the request's descriptor
* `deliver_of_mirror`: a shadow client delivers nothing
-/

namespace DotmacIntegrator.ProductPort

open Secrets

variable (rt : Runtime)
  (productObservationDocument : ProductRequest → Except ForeignError (Dict String Json))
  (held : Held) (client : ObservationPortClient)

/-- The request a post hands to the transport. -/
def httpRequest (url : String) (document : Dict String Json) (request : ProductRequest) :
    Except MirrorError HttpRequest := do
  let resolved ← (resolveSecrets held [(PRODUCT_PORT_SECRET_NAME, client.apiKeyRef)]).mapError
    .secretsNotHeld
  match postedBytes rt document with
  | none => .error .integerTooLong
  | some body =>
    .ok { url, body, timeout := client.timeout
          headers :=
            [("Content-Type", "application/json"), ("Accept", "application/json"),
             ("X-Api-Key", (resolved.get? PRODUCT_PORT_SECRET_NAME).getD ""),
             ("Idempotency-Key", request.idempotencyKey),
             ("X-Correlation-Id", request.correlationId)] }

/-- The requests that reach the transport, of an address. -/
def postsTo (address : Except (AddressError ForeignError) (String × Dict String Json))
    (request : ProductRequest) : List HttpRequest :=
  match address with
  | .error _ => []
  | .ok (url, document) =>
    match httpRequest rt held client url document request with
    | .error _ => []
    | .ok http => [http]

/-- The requests a comparison hands to the transport. -/
def mirrorPosts (request : ProductRequest) : List HttpRequest :=
  postsTo rt held client (address rt productObservationDocument client request true) request

/-- The requests a delivery hands to the transport. -/
def deliverPosts (request : ProductRequest) : List HttpRequest :=
  if client.writes = false then []
  else postsTo rt held client (address rt productObservationDocument client request false) request

variable {rt productObservationDocument held client} {digits : UnicodeDigits}
  {readAnswer : ByteArray → Except Json.LoadsError Json} {transport : Transport}

/-- A post is its request, handed to the transport. -/
theorem post_eq (url : String) (document : Dict String Json) (request : ProductRequest) :
    post rt held transport client url document request =
      (httpRequest rt held client url document request >>= fun http =>
        (transport http).mapError .transport) := by
  unfold post httpRequest
  cases resolveSecrets held [(PRODUCT_PORT_SECRET_NAME, client.apiKeyRef)] with
  | error e => rfl
  | ok resolved => cases postedBytes rt document <;> rfl

/-- The request a client sends, of what is held and of the document. -/
theorem httpRequest_eq_ok_iff {url : String} {document : Dict String Json}
    {request : ProductRequest} {http : HttpRequest} :
    httpRequest rt held client url document request = .ok http ↔
      ∃ key data, held.get? client.apiKeyRef = some key ∧ postedBytes rt document = some data ∧
        http =
          { url, body := data, timeout := client.timeout
            headers :=
              [("Content-Type", "application/json"), ("Accept", "application/json"),
               ("X-Api-Key", key), ("Idempotency-Key", request.idempotencyKey),
               ("X-Correlation-Id", request.correlationId)] } := by
  rw [httpRequest, Except.bind_eq_ok]
  simp only [Except.mapError_eq_ok]
  constructor
  · rintro ⟨resolved, hresolved, h⟩
    obtain ⟨hsome, hget⟩ := resolveSecrets_singleton hresolved
    obtain ⟨key, hkey⟩ := Option.isSome_iff_exists.mp hsome
    cases hdata : postedBytes rt document with
    | none => simp [hdata] at h
    | some data =>
      rw [hdata, hget, hkey] at h
      exact ⟨key, data, hkey, rfl, (Except.ok.inj h).symm⟩
  · rintro ⟨key, data, hkey, hdata, rfl⟩
    obtain ⟨resolved, hresolved⟩ :=
      exists_resolveSecrets (Option.isSome_iff_exists.mpr ⟨key, hkey⟩) PRODUCT_PORT_SECRET_NAME
    refine ⟨resolved, hresolved, ?_⟩
    rw [hdata, (resolveSecrets_singleton hresolved).2, hkey]
    rfl

theorem url_of_httpRequest {url : String} {document : Dict String Json} {request : ProductRequest}
    {http : HttpRequest} (h : httpRequest rt held client url document request = .ok http) :
    http.url = url := by
  unfold httpRequest at h
  obtain ⟨resolved, -, h⟩ := Except.bind_eq_ok.mp h
  split at h
  · cases h
  · rw [← Except.ok.inj h]

/-- A comparison is posted to the shadow path of the request's descriptor. -/
theorem mirrorPosts_url {request : ProductRequest} {http : HttpRequest}
    (h : http ∈ mirrorPosts rt productObservationDocument held client request) :
    ∃ descriptor, request.destination.productPort = some descriptor ∧
      http.url = client.base ++ descriptor.mirrorPath := by
  unfold mirrorPosts postsTo at h
  rcases ha : address rt productObservationDocument client request true with e | ⟨url, document⟩
  · simp [ha] at h
  · obtain ⟨descriptor, hport, rfl, -⟩ := address_eq_ok.mp ha
    rw [ha] at h
    cases hr : httpRequest rt held client (client.base ++ descriptor.mirrorPath) document
      request with
    | error e => simp [hr] at h
    | ok found =>
      simp only [if_true, hr, List.mem_singleton] at h
      refine ⟨descriptor, ?_, by rw [h, url_of_httpRequest hr]⟩
      -- An eligible port is the one the request carries.
      unfold eligiblePort at hport
      split_ifs at hport
      split at hport
      · cases hport
      · next found hfound =>
        split_ifs at hport
        rw [hfound, Except.ok.inj hport]

/-- A shadow client delivers nothing, and posts nothing on the way. -/
theorem deliver_of_mirror (h : client.writes = false) (request : ProductRequest) :
    deliver digits rt readAnswer held productObservationDocument transport client request =
        .error .shadowClientCannotWrite ∧
      deliverPosts rt productObservationDocument held client request = [] :=
  ⟨if_pos h, if_pos h⟩

end DotmacIntegrator.ProductPort
