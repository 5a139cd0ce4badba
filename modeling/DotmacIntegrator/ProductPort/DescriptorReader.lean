import DotmacIntegrator.Configuration.Settings
import DotmacIntegrator.ProductPort.Client

/-!
# Readers of product declarations

Two readers fetch what a product declares: the descriptor of the destination's port, and the
registry of capability contracts. Each is constructed from the settings once its credential is
held, and presents the credential to its URL. The settings judge the first URL as the reader splits
it, and the second as it is spelled.

## Main definitions

* `DescriptorReader`: a reader, with a URL its constructor accepts
* `reconcilerFromSettings`, `buildFromSettings`: the readers of a configuration
* `presented`: the requests they send

## Main results

* `port_presented_https`: in production the port's credential goes to an https URL
* `presented_https_iff`: which configurations send the registry's credential elsewhere
-/

namespace DotmacIntegrator.ProductPort

open DotmacIntegrator.Configuration Secrets Url

/-- Why a reader is not constructed. -/
inductive ReaderError
  | destinationBindingError (message : String)
  | productPortDescriptorError (message : String)
  | productContractRegistryError (message : String)
  /-- The `ValueError` of `urlsplit`, or of a mode that is none. -/
  | valueError
  deriving DecidableEq, Repr

/-- A `GET` under a credential. -/
structure HttpGet where
  url : String
  headers : Dict String String
  timeout : PyFloat
  deriving DecidableEq, Repr

variable (R : HostRules)

/-- A reader of one product declaration: its URL is an http(s) URL, its pin a digest. -/
structure DescriptorReader where
  url : String
  parts : SplitResult
  expectedDigest : String
  apiKeyRef : String
  timeout : PyFloat
  split : urlsplit R url = some parts
  plain : parts.isPlainHttp = true
  digest : isDigest expectedDigest = true

/-- A reader of a port descriptor, with the mode its client gets. -/
structure ProductPortDescriptorReconciler extends DescriptorReader R where
  mode : ProductPortMode
  baseUrl : String

/-- A reader of a contract registry, with the number of contracts it expects. -/
structure ProductContractRegistryReconciler extends DescriptorReader R where
  expectedCount : ℕ

/-- The checks both constructors make, with the knob they name and the error they raise. -/
def checkedReader (refuse : String → ReaderError) (urlKnob digestKnob : String)
    (url expectedDigest apiKeyRef : String) (timeout : PyFloat) :
    Except ReaderError (DescriptorReader R) :=
  match hsplit : urlsplit R url with
  | none => .error .valueError
  | some parts =>
    if hplain : parts.isPlainHttp then
      if hdigest : isDigest expectedDigest then
        .ok ⟨url, parts, expectedDigest, apiKeyRef, timeout, hsplit, hplain, hdigest⟩
      else .error (refuse (digestKnob ++ " must be 64 lowercase hex"))
    else .error (refuse
      (urlKnob ++ " must be an http(s) URL without credentials, query, or fragment"))

/-- The mode the settings name. -/
def portMode (settings : Settings) : Except ReaderError ProductPortMode :=
  if settings.productPortPrepareOnly then .ok .mirror
  else if settings.productPortMode = "mirror" then .ok .mirror
  else if settings.productPortMode = "write" then .ok .write
  else .error .valueError

/-- `reconciler_from_settings`: the reader of the port descriptor, its credential held. -/
def reconcilerFromSettings (settings : Settings) (heldReferences : List String) :
    Except ReaderError (ProductPortDescriptorReconciler R) := do
  let reference := Text.strip settings.productPortApiKeyRef
  if reference ∉ heldReferences then
    .error (.destinationBindingError
      ("no material is held for " ++ reference ++ ", the destination credential. Provision it " ++
        "and restart, or set PRODUCT_PORT_ENABLED=false — a port with no credential fails every " ++
        "delivery with a refusal that looks like the destination's problem"))
  else
    let mode ← portMode settings
    let reader ← checkedReader R .productPortDescriptorError "PRODUCT_PORT_DESCRIPTOR_URL"
      "PRODUCT_PORT_DESCRIPTOR_EXPECTED_DIGEST" (Text.strip settings.productPortDescriptorUrl)
      (Text.strip settings.productPortDescriptorExpectedDigest) reference
      settings.productPortTimeoutSeconds
    return ⟨reader, mode, reader.parts.scheme ++ "://" ++ reader.parts.netloc⟩

/-- `build_from_settings`: the reader of the contract registry, its credential held. -/
def buildFromSettings (settings : Settings) (heldReferences : List String) :
    Except ReaderError (ProductContractRegistryReconciler R) := do
  let reference := Text.strip settings.productContractRegistryApiKeyRef
  if reference ∉ heldReferences then
    .error (.productContractRegistryError
      ("no material is held for " ++ reference ++ ", the product registry credential"))
  else if settings.productContractRegistryExpectedCount < 1 then
    .error (.productContractRegistryError
      "PRODUCT_CONTRACT_REGISTRY_EXPECTED_COUNT must be at least 1")
  else
    let reader ← checkedReader R .productContractRegistryError "PRODUCT_CONTRACT_REGISTRY_URL"
      "PRODUCT_CONTRACT_REGISTRY_EXPECTED_DIGEST" (Text.strip settings.productContractRegistryUrl)
      (Text.strip settings.productContractRegistryExpectedDigest) reference
      settings.productContractRegistryTimeoutSeconds
    return ⟨reader, settings.productContractRegistryExpectedCount⟩

variable {R} (held : Held)

/-- The request of a reader: its URL, under its credential. -/
def DescriptorReader.request (reader : DescriptorReader R) : Except SecretsNotHeld HttpGet := do
  let resolved ← resolveSecrets held [(PRODUCT_PORT_SECRET_NAME, reader.apiKeyRef)]
  return {
    url := reader.url
    headers :=
      [("Accept", "application/json"),
        ("X-Api-Key", (resolved.get? PRODUCT_PORT_SECRET_NAME).getD "")]
    timeout := reader.timeout }

variable (R)

/-- The request for the port descriptor, where the port is configured and its reader built. -/
def portPresented (settings : Settings) : Option HttpGet :=
  if settings.productPortEnabled || settings.productPortPrepareOnly then
    match reconcilerFromSettings R settings held.keys with
    | .ok reader => (reader.request held).toOption
    | .error _ => none
  else none

/-- The request for the contract registry, where it is enabled and its reader built. -/
def registryPresented (settings : Settings) : Option HttpGet :=
  if settings.productContractRegistryEnabled then
    match buildFromSettings R settings held.keys with
    | .ok reader => (reader.request held).toOption
    | .error _ => none
  else none

/-- The requests that present a held credential. -/
def presented (settings : Settings) : List HttpGet :=
  (portPresented R held settings).toList ++ (registryPresented R held settings).toList

/-- The URL of a request has the scheme `https`. -/
def HttpGet.IsHttps (request : HttpGet) : Prop :=
  ∃ parts, urlsplit R request.url = some parts ∧ parts.scheme = "https"

/-! ### Construction -/

variable {R held} {settings : Settings}

theorem checkedReader_eq_ok {refuse : String → ReaderError} {urlKnob digestKnob url expectedDigest
    apiKeyRef : String} {timeout : PyFloat} {reader : DescriptorReader R}
    (h : checkedReader R refuse urlKnob digestKnob url expectedDigest apiKeyRef timeout =
      .ok reader) : reader.url = url ∧ reader.apiKeyRef = apiKeyRef := by
  unfold checkedReader at h
  split at h
  · cases h
  · split_ifs at h
    obtain rfl := Except.ok.inj h
    exact ⟨rfl, rfl⟩

/-- The checks of a reader whose URL splits. -/
theorem checkedReader_of_split {refuse : String → ReaderError} {urlKnob digestKnob url
    expectedDigest apiKeyRef : String} {timeout : PyFloat} {parts : SplitResult}
    (hsplit : urlsplit R url = some parts) :
    checkedReader R refuse urlKnob digestKnob url expectedDigest apiKeyRef timeout =
      if hplain : parts.isPlainHttp then
        if hdigest : isDigest expectedDigest then
          .ok ⟨url, parts, expectedDigest, apiKeyRef, timeout, hsplit, hplain, hdigest⟩
        else .error (refuse (digestKnob ++ " must be 64 lowercase hex"))
      else .error (refuse
        (urlKnob ++ " must be an http(s) URL without credentials, query, or fragment")) := by
  unfold checkedReader
  split
  · rename_i hnone
    rw [hsplit] at hnone
    cases hnone
  · rename_i parts' hparts
    obtain rfl : parts' = parts := Option.some.inj (hparts.symm.trans hsplit)
    rfl

theorem checkedReader_isOk {refuse : String → ReaderError} {urlKnob digestKnob url expectedDigest
    apiKeyRef : String} {timeout : PyFloat} {parts : SplitResult}
    (hsplit : urlsplit R url = some parts) (hplain : parts.isPlainHttp = true)
    (hdigest : isDigest expectedDigest = true) :
    ∃ reader, checkedReader R refuse urlKnob digestKnob url expectedDigest apiKeyRef timeout =
      .ok reader := by
  rw [checkedReader_of_split hsplit, dif_pos hplain, dif_pos hdigest]
  exact ⟨_, rfl⟩

theorem checkedReader_eq_error {refuse : String → ReaderError} {urlKnob digestKnob url
    expectedDigest apiKeyRef : String} {timeout : PyFloat} {parts : SplitResult}
    (hsplit : urlsplit R url = some parts) (hplain : ¬ parts.isPlainHttp = true) :
    checkedReader R refuse urlKnob digestKnob url expectedDigest apiKeyRef timeout =
      .error (refuse
        (urlKnob ++ " must be an http(s) URL without credentials, query, or fragment")) := by
  rw [checkedReader_of_split hsplit, dif_neg hplain]

/-- The request of a reader goes to its URL, with the key that is held under its reference. -/
theorem request_eq_some {reader : DescriptorReader R} {request : HttpGet}
    (h : (reader.request held).toOption = some request) :
    request.url = reader.url ∧ (held.get? reader.apiKeyRef).isSome ∧
      request.headers.get? "X-Api-Key" = held.get? reader.apiKeyRef := by
  cases hrequest : reader.request held with
  | error e => rw [hrequest] at h; cases h
  | ok found =>
    rw [hrequest] at h
    obtain rfl := Option.some.inj h
    obtain ⟨resolved, hresolved, hresult⟩ := Except.bind_eq_ok.mp hrequest
    obtain rfl := Except.ok.inj hresult
    -- The one secret that was resolved is the key of the request.
    obtain ⟨hheld, hkey⟩ := resolveSecrets_singleton hresolved
    refine ⟨rfl, hheld, ?_⟩
    obtain ⟨key, hsome⟩ := Option.isSome_iff_exists.mp hheld
    rw [hkey, hsome]
    rfl

/-- A reader whose credential is held sends its request. -/
theorem request_isSome {reader : DescriptorReader R} (h : reader.apiKeyRef ∈ held.keys) :
    ∃ request, (reader.request held).toOption = some request := by
  obtain ⟨resolved, hresolved⟩ :=
    exists_resolveSecrets (Dict.get?_isSome_iff.mpr h) PRODUCT_PORT_SECRET_NAME
  rw [DescriptorReader.request, hresolved]
  exact ⟨_, rfl⟩

/-- The port's reader has the configured URL and reference, stripped. -/
theorem reconcilerFromSettings_eq_ok {heldReferences : List String}
    {reader : ProductPortDescriptorReconciler R}
    (h : reconcilerFromSettings R settings heldReferences = .ok reader) :
    reader.url = Text.strip settings.productPortDescriptorUrl ∧
      reader.apiKeyRef = Text.strip settings.productPortApiKeyRef := by
  unfold reconcilerFromSettings at h
  simp only at h
  -- The reference is held, and mode and reader were accepted.
  split at h
  · cases h
  · obtain ⟨mode, -, h⟩ := Except.bind_eq_ok.mp h
    obtain ⟨checked, hchecked, h⟩ := Except.bind_eq_ok.mp h
    obtain rfl := Except.ok.inj h
    exact checkedReader_eq_ok hchecked

/-- The port's request is that of a reader with the configured URL and reference, stripped. -/
theorem portPresented_eq_some {request : HttpGet}
    (h : portPresented R held settings = some request) :
    (settings.productPortEnabled || settings.productPortPrepareOnly) = true ∧
      ∃ reader : DescriptorReader R, reader.url = Text.strip settings.productPortDescriptorUrl ∧
        reader.apiKeyRef = Text.strip settings.productPortApiKeyRef ∧
        (reader.request held).toOption = some request := by
  unfold portPresented at h
  split at h
  · rename_i henabled
    cases hreader : reconcilerFromSettings R settings held.keys with
    | error e => simp [hreader] at h
    | ok reader =>
      simp only [hreader] at h
      obtain ⟨hurl, href⟩ := reconcilerFromSettings_eq_ok hreader
      exact ⟨henabled, reader.toDescriptorReader, hurl, href, h⟩
  · cases h

/-- The registry's reader has the configured URL and reference, stripped. -/
theorem buildFromSettings_eq_ok {heldReferences : List String}
    {reader : ProductContractRegistryReconciler R}
    (h : buildFromSettings R settings heldReferences = .ok reader) :
    reader.url = Text.strip settings.productContractRegistryUrl ∧
      reader.apiKeyRef = Text.strip settings.productContractRegistryApiKeyRef := by
  unfold buildFromSettings at h
  simp only at h
  -- The reference is held, and count and reader were accepted.
  split at h
  · cases h
  · split at h
    · cases h
    · obtain ⟨checked, hchecked, h⟩ := Except.bind_eq_ok.mp h
      obtain rfl := Except.ok.inj h
      exact checkedReader_eq_ok hchecked

/-- The registry's request is that of a reader with the configured URL and reference, stripped. -/
theorem registryPresented_eq_some {request : HttpGet}
    (h : registryPresented R held settings = some request) :
    settings.productContractRegistryEnabled = true ∧
      ∃ reader : DescriptorReader R, reader.url = Text.strip settings.productContractRegistryUrl ∧
        reader.apiKeyRef = Text.strip settings.productContractRegistryApiKeyRef ∧
        (reader.request held).toOption = some request := by
  unfold registryPresented at h
  split at h
  · rename_i henabled
    cases hreader : buildFromSettings R settings held.keys with
    | error e => simp [hreader] at h
    | ok reader =>
      simp only [hreader] at h
      obtain ⟨hurl, href⟩ := buildFromSettings_eq_ok hreader
      exact ⟨henabled, reader.toDescriptorReader, hurl, href, h⟩
  · cases h

/-! ### In production -/

variable {printable : Char → Bool}

/-- **In production the port's credential goes to an https URL**: the settings judge the URL as
the reader splits it. -/
theorem port_presented_https (hvalid : validateSettings R printable settings = [])
    (hproduction : settings.environment = "production") {request : HttpGet}
    (h : portPresented R held settings = some request) : request.IsHttps R := by
  obtain ⟨henabled, reader, hreaderUrl, -, hrequest⟩ := portPresented_eq_some h
  have hurl : request.url = Text.strip settings.productPortDescriptorUrl :=
    (request_eq_some hrequest).1.trans hreaderUrl
  have hparts : urlsplit R request.url = some reader.parts := by
    rw [(request_eq_some hrequest).1, reader.split]
  refine ⟨reader.parts, hparts, ?_⟩
  have hport := (validateSettings_eq_nil_iff.mp hvalid).2.2.2.1
  -- The settings split the same stripped URL, and require its scheme.
  rw [hurl] at hparts
  unfold productPortProblems at hport
  split at hport
  · cases hport
  · rw [henabled] at hport
    simp only [Bool.not_true, Bool.false_eq_true, if_false, List.append_eq_nil_iff,
      problemIf_eq_nil_iff, descriptorParts, hparts, Option.getD_some, hproduction] at hport
    simpa using hport.1.1.1.1.2

/-- The registry's credential would be sent in clear: its reader accepts the URL, which begins
with `http:` in some letter case once it is stripped and split. -/
structure RegistryInClear (R : HostRules) (held : Held) (settings : Settings) : Prop where
  enabled : settings.productContractRegistryEnabled = true
  credential : Text.strip settings.productContractRegistryApiKeyRef ∈ held.keys
  accepted : ∃ parts, urlsplit R (Text.strip settings.productContractRegistryUrl) = some parts ∧
    parts.isPlainHttp = true
  http : "http:".toList <+:
    (clean (Text.strip settings.productContractRegistryUrl)).map Char.toLower

/-- An accepted registry has a digest. -/
theorem registry_isDigest (hvalid : validateSettings R printable settings = [])
    (henabled : settings.productContractRegistryEnabled = true) :
    isDigest (Text.strip settings.productContractRegistryExpectedDigest) = true := by
  have hregistry := (validateSettings_eq_nil_iff.mp hvalid).2.1
  rw [registryProblems, if_pos henabled] at hregistry
  simp only [List.append_eq_nil_iff, List.flatMap_cons, List.flatMap_nil, problemIf_eq_nil_iff,
    decide_eq_false_iff_not] at hregistry
  -- A digest is required, and one that is given has to be one.
  have hdigest := hregistry.2
  simp only [hregistry.1.1.2.1, ne_eq, not_false_eq_true, decide_true, Bool.true_and,
    Bool.not_eq_eq_eq_not, Bool.not_false] at hdigest
  exact hdigest

/-- Where its URL is accepted and its credential is held, the registry's reader is constructed. -/
theorem exists_buildFromSettings (hvalid : validateSettings R printable settings = [])
    (henabled : settings.productContractRegistryEnabled = true) {heldReferences : List String}
    (hheld : Text.strip settings.productContractRegistryApiKeyRef ∈ heldReferences)
    {parts : SplitResult}
    (hsplit : urlsplit R (Text.strip settings.productContractRegistryUrl) = some parts)
    (hplain : parts.isPlainHttp = true) :
    ∃ reader, buildFromSettings R settings heldReferences = .ok reader := by
  obtain ⟨checked, hchecked⟩ : ∃ reader, checkedReader R .productContractRegistryError
      "PRODUCT_CONTRACT_REGISTRY_URL" "PRODUCT_CONTRACT_REGISTRY_EXPECTED_DIGEST"
      (Text.strip settings.productContractRegistryUrl)
      (Text.strip settings.productContractRegistryExpectedDigest)
      (Text.strip settings.productContractRegistryApiKeyRef)
      settings.productContractRegistryTimeoutSeconds = .ok reader :=
    checkedReader_isOk hsplit hplain (registry_isDigest hvalid henabled)
  -- Neither the credential nor the expected count makes the construction fail.
  refine ⟨⟨checked, settings.productContractRegistryExpectedCount⟩, ?_⟩
  unfold buildFromSettings
  simp only
  rw [if_neg (not_not.mpr hheld), if_neg (by have := settings.expectedCount_pos; omega), hchecked]
  rfl

/-- Where it is accepted and its credential is held, the registry is read. -/
theorem exists_registryPresented (hvalid : validateSettings R printable settings = [])
    (henabled : settings.productContractRegistryEnabled = true)
    (hheld : Text.strip settings.productContractRegistryApiKeyRef ∈ held.keys)
    {parts : SplitResult}
    (hsplit : urlsplit R (Text.strip settings.productContractRegistryUrl) = some parts)
    (hplain : parts.isPlainHttp = true) :
    ∃ request, registryPresented R held settings = some request := by
  obtain ⟨reader, hreader⟩ := exists_buildFromSettings hvalid henabled hheld hsplit hplain
  have hkey : reader.apiKeyRef ∈ held.keys := by rwa [(buildFromSettings_eq_ok hreader).2]
  obtain ⟨request, hrequest⟩ := request_isSome hkey
  exact ⟨request, by rw [registryPresented, if_pos henabled, hreader]; exact hrequest⟩

/-- **Production sends no credential in clear, but for the registry's.** The settings judge the
registry's URL as it is spelled, so that another spelling of `http://` passes them. -/
theorem presented_https_iff (hvalid : validateSettings R printable settings = [])
    (hproduction : settings.environment = "production") :
    (∀ request ∈ presented R held settings, request.IsHttps R) ↔
      ¬ RegistryInClear R held settings := by
  constructor
  · -- The registry's request is sent, to a URL whose scheme is http.
    rintro hall ⟨henabled, hheld, ⟨parts, hsplit, hplain⟩, hhttp⟩
    obtain ⟨request, hrequest⟩ :=
      exists_registryPresented hvalid henabled hheld hsplit hplain
    obtain ⟨parts', hparts', hscheme⟩ :=
      hall request (List.mem_append_right _ (by simp [hrequest]))
    obtain ⟨-, reader, hurl, -, hsent⟩ := registryPresented_eq_some hrequest
    rw [(request_eq_some hsent).1, hurl] at hparts'
    rw [(scheme_eq_http_iff hparts').mpr hhttp] at hscheme
    exact absurd hscheme (by decide)
  · -- Both readers accept http and https; the settings exclude http for the port only.
    intro hclear request hmem
    rcases List.mem_append.mp hmem with hmem | hmem
    · exact port_presented_https hvalid hproduction (Option.mem_toList.mp hmem)
    · obtain ⟨henabled, reader, hurl, href, hsent⟩ :=
        registryPresented_eq_some (Option.mem_toList.mp hmem)
      obtain ⟨hrequestUrl, hheld, -⟩ := request_eq_some hsent
      refine ⟨reader.parts, by rw [hrequestUrl, reader.split], ?_⟩
      have hparts := hurl ▸ reader.split
      rw [href, Dict.get?_isSome_iff] at hheld
      have hhttp : reader.parts.scheme ≠ "http" := fun h =>
        hclear ⟨henabled, hheld, ⟨reader.parts, hparts, reader.plain⟩,
          (scheme_eq_http_iff hparts).mp h⟩
      have hplain := reader.plain
      simp only [SplitResult.isPlainHttp, List.mem_cons, List.not_mem_nil, or_false,
        Bool.and_eq_true, decide_eq_true_eq] at hplain
      exact hplain.1.1.1.1.resolve_left hhttp

/-- Hosts are ASCII and not bracketed. -/
def asciiHosts : HostRules := ⟨fun _ => false, fun _ => false⟩

/-- A production deployment that reads a contract registry. -/
def productionSettings (registryUrl : String) : Settings where
  deploymentId := "integrator-1"
  environment := "production"
  databaseUrl := "postgresql+psycopg://platform_api@db:5432/integrator"
  host := "0.0.0.0"
  platformRootDomain := "integrator.example"
  jwtSecret := "signing-secret"
  productContractRegistryEnabled := true
  productContractRegistryUrl := registryUrl
  productContractRegistryExpectedDigest :=
    "0123456789abcdef0123456789abcdef0123456789abcdef0123456789abcdef"
  productContractRegistryApiKeyRef := "env://INTEGRATOR_SECRET_REGISTRY"
  metricsToken := some "scrape-token"

/-- The registry's credential is held. -/
def registryHeld : Held := [("env://INTEGRATOR_SECRET_REGISTRY", "registry-key")]

theorem presented_https_iff_lowercase :
    ∃ request, presented asciiHosts registryHeld
        (productionSettings "https://registry.example/contracts") = [request] ∧
      request.IsHttps asciiHosts := by
  have hsent : presented asciiHosts registryHeld
      (productionSettings "https://registry.example/contracts") =
        [{ url := "https://registry.example/contracts"
           headers := [("Accept", "application/json"), ("X-Api-Key", "registry-key")]
           timeout := .finite 15 }] := by decide +kernel
  have hhttps := (@presented_https_iff asciiHosts registryHeld
    (productionSettings "https://registry.example/contracts") (fun _ => true)
    (by decide +kernel) rfl).mpr fun h => absurd h.http (by decide +kernel)
  exact ⟨_, hsent, hhttps _ (by rw [hsent]; exact List.mem_singleton.mpr rfl)⟩

/-- Spelled in capitals, an http URL passes the settings and is sent the credential. -/
theorem capitals_presented_in_clear :
    validateSettings asciiHosts (fun _ => true)
        (productionSettings "HTTP://registry.example/contracts") = [] ∧
      (productionSettings "HTTP://registry.example/contracts").environment = "production" ∧
      presented asciiHosts registryHeld (productionSettings "HTTP://registry.example/contracts") =
        [{ url := "HTTP://registry.example/contracts"
           headers := [("Accept", "application/json"), ("X-Api-Key", "registry-key")]
           timeout := .finite 15 }] ∧
      (urlsplit asciiHosts "HTTP://registry.example/contracts").map SplitResult.scheme =
        some "http" := by
  refine ⟨?_, rfl, ?_, ?_⟩
  · decide +kernel
  · decide +kernel
  · decide +kernel

end DotmacIntegrator.ProductPort
