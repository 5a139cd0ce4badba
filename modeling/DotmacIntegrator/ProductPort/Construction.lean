import DotmacIntegrator.Foundation.UrlSpelling
import DotmacIntegrator.ProductPort.DescriptorReader

/-!
# The readers of accepted settings

The constructors check once more what the settings were validated for. The port's reader is always
constructed. The registry's URL is validated for not being empty only, so that its reader is
constructed for those texts alone that spell an http(s) URL.

## Main definitions

* `ReferencesHeld`: the credentials of both readers are held
* `Constructs`: both readers are constructed, where they are configured

## Main results

* `port_constructs`: the port's reader is always constructed
* `constructs_iff`: for which accepted settings both readers are
-/

namespace DotmacIntegrator.ProductPort

open DotmacIntegrator.Configuration Url

/-- The credentials of both readers are held, where they are configured. -/
structure ReferencesHeld (settings : Settings) (heldReferences : List String) : Prop where
  port : (settings.productPortEnabled || settings.productPortPrepareOnly) = true →
    Text.strip settings.productPortApiKeyRef ∈ heldReferences
  registry : settings.productContractRegistryEnabled = true →
    Text.strip settings.productContractRegistryApiKeyRef ∈ heldReferences

/-- Both readers are constructed, where they are configured. -/
structure Constructs (R : HostRules) (settings : Settings) (heldReferences : List String) :
    Prop where
  port : (settings.productPortEnabled || settings.productPortPrepareOnly) = true →
    ∃ reader, reconcilerFromSettings R settings heldReferences = .ok reader
  registry : settings.productContractRegistryEnabled = true →
    ∃ reader, buildFromSettings R settings heldReferences = .ok reader

/-! ### The port -/

variable {R : HostRules} {printable : Char → Bool} {settings : Settings}
  {heldReferences : List String}

/-- What the settings of a configured port are validated for. -/
structure PortAccepted (R : HostRules) (settings : Settings) : Prop where
  url : ∃ parts, urlsplit R (Text.strip settings.productPortDescriptorUrl) = some parts ∧
    parts.isPlainHttp = true
  digest : isDigest (Text.strip settings.productPortDescriptorExpectedDigest) = true
  mode : ∃ mode, portMode settings = .ok mode

/-- A mode that is one of the modes is that of a client. -/
theorem exists_portMode
    (h : settings.productPortPrepareOnly = true ∨ settings.productPortMode ∈ productPortModes) :
    ∃ mode, portMode settings = .ok mode := by
  unfold portMode
  rcases h with hprepare | hmode
  · exact ⟨.mirror, if_pos hprepare⟩
  · by_cases hprepare : settings.productPortPrepareOnly = true
    · exact ⟨.mirror, if_pos hprepare⟩
    · rw [if_neg hprepare]
      rcases List.mem_pair.mp hmode with hmirror | hwrite
      · exact ⟨.mirror, if_pos hmirror⟩
      · rw [hwrite]
        exact ⟨.write, rfl⟩

/-- The settings judge the port's URL, digest and mode as its reader does. -/
theorem portAccepted (hvalid : validateSettings R printable settings = [])
    (hconfigured : (settings.productPortEnabled || settings.productPortPrepareOnly) = true) :
    PortAccepted R settings := by
  have hport := (validateSettings_eq_nil_iff.mp hvalid).2.2.2.1
  unfold productPortProblems at hport
  split at hport
  · cases hport
  · rename_i hmode
    rw [hconfigured] at hport
    simp only [Bool.not_true, Bool.false_eq_true, if_false, List.append_eq_nil_iff,
      problemIf_eq_nil_iff, List.flatMap_cons, List.flatMap_nil] at hport
    obtain ⟨⟨⟨⟨⟨⟨⟨-, hsplit⟩, hplain⟩, -⟩, -, hgiven, -⟩, -⟩, -⟩, hdigest⟩ := hport
    refine ⟨?_, ?_, exists_portMode ?_⟩
    · cases hparts : urlsplit R (Text.strip settings.productPortDescriptorUrl) with
      | none =>
        rw [hparts] at hsplit
        cases hsplit
      | some parts =>
        rw [descriptorParts, hparts] at hplain
        exact ⟨parts, rfl, by simpa using hplain⟩
    · have hne := of_decide_eq_false hgiven
      simpa [hne] using hdigest
    · by_cases hprepare : settings.productPortPrepareOnly = true
      · exact .inl hprepare
      · refine .inr (by_contra fun hunknown => hmode ?_)
        simp [hprepare, hunknown]

/-- **The port's reader is always constructed**, its credential being held. -/
theorem port_constructs (hvalid : validateSettings R printable settings = [])
    (hconfigured : (settings.productPortEnabled || settings.productPortPrepareOnly) = true)
    (hheld : Text.strip settings.productPortApiKeyRef ∈ heldReferences) :
    ∃ reader, reconcilerFromSettings R settings heldReferences = .ok reader := by
  obtain ⟨⟨parts, hsplit, hplain⟩, hdigest, mode, hmode⟩ := portAccepted hvalid hconfigured
  obtain ⟨checked, hchecked⟩ : ∃ reader, checkedReader R .productPortDescriptorError
      "PRODUCT_PORT_DESCRIPTOR_URL" "PRODUCT_PORT_DESCRIPTOR_EXPECTED_DIGEST"
      (Text.strip settings.productPortDescriptorUrl)
      (Text.strip settings.productPortDescriptorExpectedDigest)
      (Text.strip settings.productPortApiKeyRef) settings.productPortTimeoutSeconds = .ok reader :=
    checkedReader_isOk hsplit hplain hdigest
  refine ⟨⟨checked, mode, checked.parts.scheme ++ "://" ++ checked.parts.netloc⟩, ?_⟩
  unfold reconcilerFromSettings
  simp only
  rw [if_neg (not_not.mpr hheld), hmode, Except.ok_bind, hchecked]
  rfl

/-! ### The registry -/

/-- **The registry's reader is constructed iff its URL is spelled as one**, its credential being
held. -/
theorem registry_constructs_iff (hvalid : validateSettings R printable settings = [])
    (henabled : settings.productContractRegistryEnabled = true)
    (hheld : Text.strip settings.productContractRegistryApiKeyRef ∈ heldReferences) :
    (∃ reader, buildFromSettings R settings heldReferences = .ok reader) ↔
      Nonempty (PlainSpelling R (clean (Text.strip settings.productContractRegistryUrl))) := by
  constructor
  · rintro ⟨reader, hreader⟩
    rw [← isPlainHttp_iff, ← (buildFromSettings_eq_ok hreader).1]
    exact ⟨reader.parts, reader.split, reader.plain⟩
  · intro hspelled
    obtain ⟨parts, hsplit, hplain⟩ := isPlainHttp_iff.mpr hspelled
    exact exists_buildFromSettings hvalid henabled hheld hsplit hplain

/-- Where the URL is split, and not spelled so, the reader is refused. -/
theorem buildFromSettings_eq_error
    (hheld : Text.strip settings.productContractRegistryApiKeyRef ∈ heldReferences)
    {parts : SplitResult}
    (hsplit : urlsplit R (Text.strip settings.productContractRegistryUrl) = some parts)
    (hplain : ¬ parts.isPlainHttp = true) :
    buildFromSettings R settings heldReferences =
      .error (.productContractRegistryError ("PRODUCT_CONTRACT_REGISTRY_URL" ++
        " must be an http(s) URL without credentials, query, or fragment")) := by
  unfold buildFromSettings
  simp only
  rw [if_neg (not_not.mpr hheld), if_neg (by have := settings.expectedCount_pos; omega),
    checkedReader_eq_error hsplit hplain]
  rfl

/-- **Accepted settings construct** iff the registry is not enabled, or its URL, stripped and as it
is cleaned, is spelled as an http(s) URL without credentials, query, or fragment. -/
theorem constructs_iff (hvalid : validateSettings R printable settings = [])
    (hheld : ReferencesHeld settings heldReferences) :
    Constructs R settings heldReferences ↔
      (settings.productContractRegistryEnabled = true →
        Nonempty (PlainSpelling R
          (clean (Text.strip settings.productContractRegistryUrl)))) := by
  constructor
  · intro h henabled
    exact (registry_constructs_iff hvalid henabled (hheld.registry henabled)).mp
      (h.registry henabled)
  · intro hspelled
    constructor
    · exact fun hconfigured => port_constructs hvalid hconfigured (hheld.port hconfigured)
    · exact fun henabled =>
        (registry_constructs_iff hvalid henabled (hheld.registry henabled)).mpr (hspelled henabled)

/-- A deployment that prepares its port, and reads a contract registry. -/
def preparingSettings (registryUrl : String) : Settings where
  workerEnabled := false
  productContractRegistryEnabled := true
  productContractRegistryUrl := registryUrl
  productContractRegistryExpectedDigest :=
    "0123456789abcdef0123456789abcdef0123456789abcdef0123456789abcdef"
  productContractRegistryApiKeyRef := "env://INTEGRATOR_SECRET_REGISTRY"
  productPortPrepareOnly := true
  productPortMode := "prepare"
  productPortDescriptorUrl := "https://product.example/descriptor"
  productPortDescriptorExpectedDigest :=
    "0123456789abcdef0123456789abcdef0123456789abcdef0123456789abcdef"
  productPortApiKeyRef := "env://INTEGRATOR_SECRET_PORT"

/-- The credentials of both readers. -/
def bothReferences : List String :=
  ["env://INTEGRATOR_SECRET_PORT", "env://INTEGRATOR_SECRET_REGISTRY"]

theorem bothReferences_held (registryUrl : String) :
    ReferencesHeld (preparingSettings registryUrl) bothReferences where
  port _ := by
    show Text.strip "env://INTEGRATOR_SECRET_PORT" ∈ bothReferences
    decide +kernel
  registry _ := by
    show Text.strip "env://INTEGRATOR_SECRET_REGISTRY" ∈ bothReferences
    decide +kernel

theorem constructs_iff_preparing :
    validateSettings asciiHosts (fun _ => true)
        (preparingSettings "HTTPS://registry.example/contracts?") = [] ∧
      Constructs asciiHosts (preparingSettings "HTTPS://registry.example/contracts?")
        bothReferences := by
  have hvalid : validateSettings asciiHosts (fun _ => true)
      (preparingSettings "HTTPS://registry.example/contracts?") = [] := by decide +kernel
  refine ⟨hvalid, (constructs_iff hvalid (bothReferences_held _)).mpr fun _ => ?_⟩
  apply isPlainHttp_iff.mp
  exact ⟨⟨"https", "registry.example", "/contracts", "", ""⟩, by decide +kernel, by decide +kernel⟩

/-- A URL without a scheme passes the settings, and the registry's reader is not constructed. -/
theorem schemeless_not_constructs :
    validateSettings asciiHosts (fun _ => true)
        (preparingSettings "registry.example/contracts") = [] ∧
      ReferencesHeld (preparingSettings "registry.example/contracts") bothReferences ∧
      buildFromSettings asciiHosts (preparingSettings "registry.example/contracts")
          bothReferences =
        .error (.productContractRegistryError ("PRODUCT_CONTRACT_REGISTRY_URL" ++
          " must be an http(s) URL without credentials, query, or fragment")) := by
  have hheld := bothReferences_held "registry.example/contracts"
  have hsplit : urlsplit asciiHosts
      (Text.strip (preparingSettings "registry.example/contracts").productContractRegistryUrl) =
        some ⟨"", "", "registry.example/contracts", "", ""⟩ := by decide +kernel
  exact ⟨by decide +kernel, hheld,
    buildFromSettings_eq_error (hheld.registry rfl) hsplit (by decide +kernel)⟩

end DotmacIntegrator.ProductPort
