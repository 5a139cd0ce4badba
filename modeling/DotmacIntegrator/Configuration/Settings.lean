import DotmacIntegrator.Foundation.PyRepr
import DotmacIntegrator.Foundation.Text
import DotmacIntegrator.Foundation.Url

/-!
# Settings

The configuration of a deployment and its validation: unconditional checks first, and in
production the fatal ones. The constraints of single fields are carried by the values themselves.

## Main definitions

* `ProductQueryCaller`, `Settings`: the configuration, with its defaults
* `validateSettings`: the problems of a configuration; it is accepted when there are none
-/

namespace DotmacIntegrator.Configuration

open Url

/-- A granted binding. -/
abbrev UUID := BitVec 128

/-- A caller of the product surface: who it is, the reference to its key, and what it may do. -/
structure ProductQueryCaller where
  application : String
  apiKeyRef : String
  scopes : List String
  bindingIds : List UUID
  application_ne : application ≠ ""
  application_chars : ∀ c ∈ application.toList,
    c.isLower ∨ c.isDigit ∨ c = '_' ∨ c = '.' ∨ c = '-'
  apiKeyRef_ne : apiKeyRef ≠ ""
  scopes_ne : scopes ≠ []
  bindingIds_ne : bindingIds ≠ []

/-- The owner DSN of a process that has none. -/
def defaultMigrationDatabaseUrl : String :=
  "postgresql+psycopg://app_admin@localhost:5432/integrator"

/-! Every default meets the constraint of its field. -/

theorem default_secretEnvPrefix_ne : "INTEGRATOR_SECRET_" ≠ "" := by decide

theorem default_secretFileRoot_ne : "/run/secrets" ≠ "" := by decide

theorem default_timeout_pos : (PyFloat.finite 15).gt 0 = true := by decide +kernel

theorem default_expectedCount_pos : 1 ≤ 4 := by decide

theorem default_shadowRevision_length : "".toList.length ≤ 160 := by decide

/-- The configuration, as far as it is validated or decides what is loaded and read. -/
structure Settings where
  deploymentId : String := "integrator-local"
  environment : String := "development"
  databaseUrl : String := "postgresql+psycopg://platform_api@localhost:5432/integrator"
  migrationDatabaseUrl : String := defaultMigrationDatabaseUrl
  host : String := "127.0.0.1"
  workerEnabled : Bool := true
  secretSchemes : String := "env,file"
  secretEnvPrefix : String := "INTEGRATOR_SECRET_"
  secretFileRoot : String := "/run/secrets"
  productQueryEnabled : Bool := false
  productProvisionEnabled : Bool := false
  productQueryCallers : List ProductQueryCaller := []
  productContractRegistryEnabled : Bool := false
  productContractRegistryUrl : String := ""
  productContractRegistryExpectedDigest : String := ""
  productContractRegistryApiKeyRef : String := ""
  productContractRegistryTimeoutSeconds : PyFloat := .finite 15
  productContractRegistryExpectedCount : ℕ := 4
  operatorAuthMechanism : String := "platform_admin"
  platformRootDomain : String := "localhost"
  jwtSecret : String := "dev-insecure-change-me"
  productPortEnabled : Bool := false
  productPortPrepareOnly : Bool := false
  productPortMode : String := "mirror"
  productPortDescriptorUrl : String := ""
  productPortDescriptorExpectedDigest : String := ""
  productPortApiKeyRef : String := ""
  productPortTimeoutSeconds : PyFloat := .finite 15
  productPortShadowRevision : String := ""
  metricsEnabled : Bool := true
  metricsToken : Option String := none
  secretEnvPrefix_ne : secretEnvPrefix ≠ "" := by exact default_secretEnvPrefix_ne
  secretFileRoot_ne : secretFileRoot ≠ "" := by exact default_secretFileRoot_ne
  registryTimeout_pos : productContractRegistryTimeoutSeconds.gt 0 = true := by
    exact default_timeout_pos
  portTimeout_pos : productPortTimeoutSeconds.gt 0 = true := by exact default_timeout_pos
  expectedCount_pos : 1 ≤ productContractRegistryExpectedCount := by
    exact default_expectedCount_pos
  shadowRevision_length : productPortShadowRevision.toList.length ≤ 160 := by
    exact default_shadowRevision_length

/-- The implemented ways an operator proves identity. -/
def operatorAuthMechanisms : List String := ["platform_admin"]

/-- The ports of the destination. -/
def productPortModes : List String := ["mirror", "write"]

/-! ### Spellings -/

/-- `text.startswith(pre)`. -/
def startsWith (pre text : String) : Bool := decide (pre.toList <+: text.toList)

/-- `part in text`. -/
def occursIn (part text : String) : Bool := decide (part.toList <:+: text.toList)

/-- The reference names a scheme that can be dereferenced. -/
def hasKnownScheme (reference : String) : Bool :=
  startsWith "env://" reference || startsWith "file://" reference

/-- `partition("://")[2]`: what follows the first separator. -/
def afterSeparator : List Char → List Char
  | ':' :: '/' :: '/' :: rest => rest
  | _ :: cs => afterSeparator cs
  | [] => []

/-- An `env://` or `file://` reference with a locator. -/
def isReference (reference : String) : Bool :=
  hasKnownScheme reference && afterSeparator reference.toList ≠ []

/-- 64 lower-case hexadecimal digits. -/
def isDigest (digest : String) : Bool :=
  digest.toList.length = 64 && digest.toList.all fun c => c ∈ "0123456789abcdef".toList

/-- A problem, where there is one. -/
def problemIf (found : Bool) (text : String) : List String := if found then [text] else []

/-! ### Validation -/

/-- What is required of the product callers. -/
def callerProblems (settings : Settings) : List String :=
  let callers := settings.productQueryCallers
  let known := ["integration:query", "integration:provision"]
  problemIf (settings.productQueryEnabled && callers.isEmpty)
    "PRODUCT_QUERY_ENABLED requires PRODUCT_QUERY_CALLERS" ++
  problemIf (settings.productProvisionEnabled && callers.isEmpty)
    "PRODUCT_PROVISION_ENABLED requires PRODUCT_QUERY_CALLERS" ++
  problemIf (settings.productQueryEnabled &&
      !callers.any fun caller => "integration:query" ∈ caller.scopes)
    "PRODUCT_QUERY_ENABLED requires a caller with integration:query scope" ++
  problemIf (settings.productProvisionEnabled &&
      !callers.any fun caller => "integration:provision" ∈ caller.scopes)
    "PRODUCT_PROVISION_ENABLED requires a caller with integration:provision scope" ++
  problemIf ((settings.productQueryEnabled || settings.productProvisionEnabled) &&
      !settings.productContractRegistryEnabled)
    "PRODUCT_QUERY_ENABLED requires PRODUCT_CONTRACT_REGISTRY_ENABLED" ++
  problemIf (¬ (callers.map ProductQueryCaller.application).Nodup)
    "product query caller applications must be unique" ++
  problemIf (¬ (callers.map ProductQueryCaller.apiKeyRef).Nodup)
    "product query caller references must be unique" ++
  callers.flatMap fun caller =>
    problemIf (!hasKnownScheme caller.apiKeyRef)
      "product query api_key_ref must be env:// or file://" ++
    problemIf (!(caller.scopes.any fun scope => scope ∈ known) ||
        !(caller.scopes.all fun scope => scope ∈ known))
      "product caller requires exact integration:query and/or integration:provision scope" ++
    problemIf (¬ caller.bindingIds.Nodup) "product query caller binding_ids must be unique"

/-- What is required of the contract registry. -/
def registryProblems (settings : Settings) : List String :=
  if settings.productContractRegistryEnabled then
    let required :=
      [("PRODUCT_CONTRACT_REGISTRY_URL", settings.productContractRegistryUrl),
        ("PRODUCT_CONTRACT_REGISTRY_EXPECTED_DIGEST",
          settings.productContractRegistryExpectedDigest),
        ("PRODUCT_CONTRACT_REGISTRY_API_KEY_REF", settings.productContractRegistryApiKeyRef)]
    let reference := Text.strip settings.productContractRegistryApiKeyRef
    let digest := Text.strip settings.productContractRegistryExpectedDigest
    (required.flatMap fun (name, value) =>
      problemIf (Text.strip value = "")
        ("PRODUCT_CONTRACT_REGISTRY_ENABLED is on and " ++ name ++ " is empty")) ++
    problemIf (reference ≠ "" && !isReference reference)
      "PRODUCT_CONTRACT_REGISTRY_API_KEY_REF must be env:// or file://" ++
    problemIf (digest ≠ "" && !isDigest digest)
      "PRODUCT_CONTRACT_REGISTRY_EXPECTED_DIGEST must be 64 lowercase hex"
  else []

variable (R : HostRules) (printable : Char → Bool)

/-- What is required of the operator surface. -/
def operatorProblems (settings : Settings) : List String :=
  problemIf (settings.operatorAuthMechanism ∉ operatorAuthMechanisms)
    ("OPERATOR_AUTH_MECHANISM=" ++ PyRepr.string printable settings.operatorAuthMechanism ++
      " is not implemented; known: " ++ PyRepr.strings printable operatorAuthMechanisms ++
      ". There is deliberately no 'none' — an unauthenticated /operations surface can replay " ++
      "deliveries and enable connectors")

/-- The descriptor URL as it is judged: split, or nothing where it cannot be. -/
def descriptorParts (settings : Settings) : SplitResult :=
  (urlsplit R (Text.strip settings.productPortDescriptorUrl)).getD ⟨"", "", "", "", ""⟩

/-- `_product_port_problems`: what is required of the destination. -/
def productPortProblems (settings : Settings) : List String :=
  if !settings.productPortPrepareOnly && settings.productPortMode ∉ productPortModes then
    ["PRODUCT_PORT_MODE=" ++ PyRepr.string printable settings.productPortMode ++
      " is not one of " ++ PyRepr.strings printable productPortModes ++
      ". 'mirror' records nothing and produces parity evidence; 'write' records"]
  else if !(settings.productPortEnabled || settings.productPortPrepareOnly) then []
  else
    let parts := descriptorParts R settings
    let required :=
      [("PRODUCT_PORT_DESCRIPTOR_URL", settings.productPortDescriptorUrl),
        ("PRODUCT_PORT_DESCRIPTOR_EXPECTED_DIGEST", settings.productPortDescriptorExpectedDigest),
        ("PRODUCT_PORT_API_KEY_REF", settings.productPortApiKeyRef)]
    let revision := settings.productPortShadowRevision
    let reference := Text.strip settings.productPortApiKeyRef
    let digest := Text.strip settings.productPortDescriptorExpectedDigest
    problemIf (settings.productPortEnabled && settings.productPortPrepareOnly)
      "PRODUCT_PORT_ENABLED and PRODUCT_PORT_PREPARE_ONLY are mutually exclusive" ++
    problemIf (settings.productPortPrepareOnly && settings.workerEnabled)
      "PRODUCT_PORT_PREPARE_ONLY requires WORKER_ENABLED=false" ++
    problemIf (urlsplit R (Text.strip settings.productPortDescriptorUrl)).isNone
      "PRODUCT_PORT_DESCRIPTOR_URL is not a valid URL" ++
    problemIf (!parts.isPlainHttp)
      ("PRODUCT_PORT_DESCRIPTOR_URL must be an http(s) URL without credentials, query, or " ++
       "fragment") ++
    problemIf (settings.environment = "production" && parts.scheme ≠ "https")
      ("PRODUCT_PORT_DESCRIPTOR_URL must use https:// in production; message content and the " ++
       "destination credential may not cross a production network in the clear") ++
    (required.flatMap fun (name, value) =>
      problemIf (Text.strip value = "")
        ("Product-port preparation is configured and " ++ name ++ " is empty; a port that " ++
          "cannot address the destination would fail every receipt")) ++
    (if settings.productPortEnabled && settings.productPortMode = "mirror" then
      if Text.strip revision = "" then
        ["PRODUCT_PORT_SHADOW_REVISION is required in mirror mode; without an immutable " ++
          "deployment revision, evidence from different code cannot be separated or " ++
          "deliberately re-driven"]
      else problemIf (revision ≠ Text.strip revision)
        "PRODUCT_PORT_SHADOW_REVISION must not have leading or trailing whitespace"
    else []) ++
    problemIf (reference ≠ "" && !isReference reference)
      ("PRODUCT_PORT_API_KEY_REF must be an `env://` or `file://` reference. It is dereferenced " ++
       "once at startup and held; a literal credential here would sit in a committed file and " ++
       "in the process environment of everything that reads this configuration") ++
    problemIf (digest ≠ "" && !isDigest digest)
      "PRODUCT_PORT_DESCRIPTOR_EXPECTED_DIGEST must be 64 lowercase hex"

/-- What is fatal in production. -/
def productionProblems (settings : Settings) : List String :=
  problemIf (settings.deploymentId = "integrator-local")
    "DEPLOYMENT_ID is still the local default" ++
  problemIf (occursIn "localhost" settings.databaseUrl) "DATABASE_URL still points at localhost" ++
  problemIf (settings.migrationDatabaseUrl ≠ defaultMigrationDatabaseUrl &&
      occursIn "@localhost" settings.migrationDatabaseUrl)
    "MIGRATION_DATABASE_URL still points at localhost" ++
  problemIf (settings.host = "127.0.0.1")
    ("HOST is loopback; a production replica behind a proxy must bind the interface the proxy " ++
     "reaches") ++
  -- No capital letter outside ASCII is lower-cased to a letter of `localhost`.
  problemIf (settings.platformRootDomain.toList.map Char.toLower ∈ ["localhost".toList, []])
    ("PLATFORM_ROOT_DOMAIN is still 'localhost'; the operator surface authenticates host-exact, " ++
     "so every operator request would be rejected — or, worse, accepted only from whatever " ++
     "sends that Host header") ++
  problemIf (settings.jwtSecret = "dev-insecure-change-me")
    ("JWT_SECRET is still the kernel's development default; operator bearer tokens would be " ++
     "forgeable by anyone who has read the kernel") ++
  problemIf (startsWith "/tmp" settings.secretFileRoot)
    ("SECRET_FILE_ROOT is under /tmp, which is world-writable on most hosts; mount secret " ++
     "material somewhere only this process can read") ++
  problemIf (settings.productContractRegistryEnabled &&
      startsWith "http://" settings.productContractRegistryUrl)
    ("PRODUCT_CONTRACT_REGISTRY_URL is http://; the request carries a replayable product " ++
     "descriptor credential") ++
  problemIf (settings.metricsEnabled && settings.metricsToken.all fun token => token = "")
    ("METRICS_ENABLED is on with no METRICS_TOKEN. Set the token, or set METRICS_ENABLED=false " ++
     "— an unauthenticated /metrics on a routable interface publishes this deployment's " ++
     "operational shape")

/-- `validate_settings`: the problems of a configuration. -/
def validateSettings (settings : Settings) : List String :=
  callerProblems settings ++ registryProblems settings ++ operatorProblems printable settings ++
    productPortProblems R printable settings ++
    (if settings.environment ≠ "production" then [] else productionProblems settings)

/-! ### Accepted settings -/

variable {R printable}

@[simp] theorem problemIf_eq_nil_iff {found : Bool} {text : String} :
    problemIf found text = [] ↔ found = false := by
  cases found <;> simp [problemIf]

/-- Accepted settings pass every group of checks. -/
theorem validateSettings_eq_nil_iff {settings : Settings} :
    validateSettings R printable settings = [] ↔
      callerProblems settings = [] ∧ registryProblems settings = [] ∧
        operatorProblems printable settings = [] ∧ productPortProblems R printable settings = [] ∧
        (settings.environment = "production" → productionProblems settings = []) := by
  simp only [validateSettings, List.append_eq_nil_iff, and_assoc, ite_not]
  split <;> simp_all

end DotmacIntegrator.Configuration
