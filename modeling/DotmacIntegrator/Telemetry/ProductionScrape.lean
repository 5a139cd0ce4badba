import DotmacIntegrator.Configuration.Settings
import DotmacIntegrator.Telemetry.ScrapeGuard

/-!
# The scrape endpoint in production

Production settings are refused when metrics are on and no token is set, so that only a holder of
the token may scrape. What is set is judged differently by the guard: a token of white space is set,
but is no token to the guard, and then the host of the client decides.

## Main definitions

* `PresentsToken`: the requests that present the token
* `TokenDecides`: whoever presents the token is let in and nobody else, from whichever host

## Main results

* `exists_token_of_accepted`: accepted production settings with metrics have a token
* `tokenDecides_iff`: for which of them the token decides
-/

namespace DotmacIntegrator.Telemetry

open DotmacIntegrator.Configuration Url

/-- The header is a bearer credential with this token, up to white space at both ends. -/
def PresentsToken (authorization : Option String) (token : String) : Prop :=
  ∃ header, authorization = some header ∧
    Text.lowerAscii (Text.partition ' ' header).1 = "bearer" ∧
    Text.strip (Text.partition ' ' header).2 = Text.strip token

/-- Every character of the text, where there is one, is ASCII. -/
def AsciiHeader (authorization : Option String) : Prop :=
  ∀ header, authorization = some header → Text.isAscii header = true

/-- The token decides who may scrape, and the host of the client never does. -/
structure TokenDecides (settings : Settings) : Prop where
  admits_iff : ∀ authorization clientHost, AsciiHeader authorization →
    (scrapeGuard settings.metricsToken authorization clientHost = .ok () ↔
      ∃ token, settings.metricsToken = some token ∧ PresentsToken authorization token)
  host_irrelevant : ∀ authorization clientHost clientHost', AsciiHeader authorization →
    scrapeGuard settings.metricsToken authorization clientHost =
      scrapeGuard settings.metricsToken authorization clientHost'

variable {settings : Settings} {token : String} {authorization : Option String}

/-! ### The validator -/

/-- Accepted production settings with metrics have a token, which may be of white space. -/
theorem exists_token_of_accepted {R : HostRules} {printable : Char → Bool}
    (hvalid : validateSettings R printable settings = [])
    (hproduction : settings.environment = "production") (henabled : settings.metricsEnabled = true) :
    ∃ token, settings.metricsToken = some token ∧ token ≠ "" := by
  have hproblems := (validateSettings_eq_nil_iff.mp hvalid).2.2.2.2 hproduction
  rw [productionProblems, List.append_eq_nil_iff] at hproblems
  have hset := problemIf_eq_nil_iff.mp hproblems.2
  rw [henabled, Bool.true_and] at hset
  cases htoken : settings.metricsToken with
  | none =>
    rw [htoken] at hset
    cases hset
  | some token =>
    rw [htoken] at hset
    exact ⟨token, rfl, of_decide_eq_false hset⟩

/-! ### The guard -/

theorem configuredToken_eq_some (h : Text.strip token ≠ "") :
    configuredToken (some token) = some token := by
  simp [configuredToken, h]

theorem configuredToken_eq_none (h : Text.strip token = "") :
    configuredToken (some token) = none := by
  simp [configuredToken, h]

/-- ASCII texts can be compared. -/
theorem not_comparesNonAscii (htoken : Text.isAscii token = true)
    (hheader : AsciiHeader authorization) :
    ¬ ScrapeComparesNonAscii (some token) authorization := by
  rintro ⟨presented, configured, ⟨hconfigured, header, hsent, -, rfl⟩, hnot⟩
  obtain rfl := Option.some.inj (Option.filter_eq_some_iff.mp hconfigured).1
  exact hnot ⟨Text.isAscii_strip (Text.isAscii_partition_snd (hheader header hsent)),
    Text.isAscii_strip htoken⟩

/-- With a token that is not of white space, an authentic request is one that presents it. -/
theorem scrapeAuthentic_iff_presentsToken (h : Text.strip token ≠ "")
    (clientHost : Option String) :
    ScrapeAuthentic (some token) authorization clientHost ↔ PresentsToken authorization token := by
  have hconfigured := configuredToken_eq_some h
  constructor
  · rintro (⟨hnone, -⟩ | ⟨presented, configured, ⟨hsome, header, hsent, hbearer, rfl⟩, heq⟩)
    · rw [hconfigured] at hnone
      cases hnone
    · obtain rfl := Option.some.inj (hconfigured.symm.trans hsome)
      exact ⟨header, hsent, hbearer, heq⟩
  · rintro ⟨header, hsent, hbearer, heq⟩
    exact Or.inr ⟨_, token, ⟨hconfigured, header, hsent, hbearer, rfl⟩, heq⟩

/-- With a token that is not of white space, the guard does not read the host. -/
theorem scrapeGuard_host_irrelevant (h : Text.strip token ≠ "")
    (clientHost clientHost' : Option String) :
    scrapeGuard (some token) authorization clientHost =
      scrapeGuard (some token) authorization clientHost' := by
  have hauthorized : scrapeIsAuthorized (some token) authorization clientHost =
      scrapeIsAuthorized (some token) authorization clientHost' := by
    unfold scrapeIsAuthorized
    rw [configuredToken_eq_some h]
    cases authorization <;> rfl
  rw [scrapeGuard, scrapeGuard, hauthorized]

/-- With a token of white space, this host is let in without any header. -/
theorem scrapeGuard_of_blank (h : Text.strip token = "") :
    scrapeGuard (some token) none (some "127.0.0.1") = .ok () := by
  rw [scrapeGuard_eq_ok_iff]
  refine ⟨Or.inl ⟨configuredToken_eq_none h, "127.0.0.1", by decide, rfl⟩, ?_⟩
  rintro ⟨presented, configured, ⟨-, header, hsent, -⟩, -⟩
  cases hsent

/-! ### Accepted settings -/

/-- **The token decides exactly where it is not of white space.** -/
theorem tokenDecides_iff {R : HostRules} {printable : Char → Bool}
    (hvalid : validateSettings R printable settings = [])
    (hproduction : settings.environment = "production") (henabled : settings.metricsEnabled = true)
    (hascii : ∀ token, settings.metricsToken = some token → Text.isAscii token = true) :
    TokenDecides settings ↔
      ∀ token, settings.metricsToken = some token → ∃ c ∈ token.toList, Text.isSpace c = false := by
  obtain ⟨token, htoken, -⟩ := exists_token_of_accepted hvalid hproduction henabled
  have hblank : Text.strip token ≠ "" ↔ ∃ c ∈ token.toList, Text.isSpace c = false := by
    simp only [ne_eq, Text.strip_eq_empty_iff, not_forall, Bool.not_eq_true, exists_prop]
  have hcondition : (∀ token', settings.metricsToken = some token' →
      ∃ c ∈ token'.toList, Text.isSpace c = false) ↔ Text.strip token ≠ "" := by
    rw [hblank, htoken]
    simp only [Option.some.injEq, forall_eq']
  rw [hcondition]
  constructor
  · -- Without a header no token is presented, but this host would be let in.
    intro hdecides hnone
    have hok := scrapeGuard_of_blank hnone
    rw [← htoken] at hok
    obtain ⟨-, -, header, hsent, -⟩ :=
      (hdecides.admits_iff none (some "127.0.0.1") (by rintro header ⟨⟩)).mp hok
    cases hsent
  · intro hne
    refine ⟨fun authorization clientHost hheader => ?_, fun authorization host host' _ => ?_⟩
    · have hcompared := not_comparesNonAscii (hascii token htoken) hheader
      rw [htoken, scrapeGuard_eq_ok_iff, and_iff_left hcompared,
        scrapeAuthentic_iff_presentsToken hne]
      simp only [Option.some.injEq, exists_eq_left']
    · rw [htoken]
      exact scrapeGuard_host_irrelevant hne host host'

/-- A production deployment whose metrics are scraped with this token. -/
def scrapedSettings (token : String) : Settings where
  deploymentId := "integrator-1"
  environment := "production"
  databaseUrl := "postgresql+psycopg://platform_api@db:5432/integrator"
  host := "0.0.0.0"
  platformRootDomain := "integrator.example"
  jwtSecret := "signing-secret"
  metricsToken := some token

theorem tokenDecides_scrapedSettings : TokenDecides (scrapedSettings "scrape-token") := by
  have hvalid : validateSettings ⟨fun _ => false, fun _ => false⟩ (fun _ => true)
      (scrapedSettings "scrape-token") = [] := by decide +kernel
  refine (tokenDecides_iff hvalid rfl rfl ?_).mpr ?_
  · rintro _ ⟨⟩
    rfl
  · rintro _ ⟨⟩
    exact ⟨'s', by simp, rfl⟩

/-- A token of one blank passes the validator, and then any request of this host is let in. -/
theorem blank_token_not_decides :
    validateSettings ⟨fun _ => false, fun _ => false⟩ (fun _ => true) (scrapedSettings " ") = [] ∧
      (scrapedSettings " ").environment = "production" ∧
      (scrapedSettings " ").metricsEnabled = true ∧ Text.isAscii " " = true ∧
      scrapeGuard (scrapedSettings " ").metricsToken none (some "127.0.0.1") = .ok () ∧
      scrapeGuard (scrapedSettings " ").metricsToken none (some "10.0.0.9") =
        .error (.httpException 404 "Not Found") ∧
      ¬ TokenDecides (scrapedSettings " ") := by
  have hlocal : scrapeGuard (scrapedSettings " ").metricsToken none (some "127.0.0.1") = .ok () :=
    by decide +kernel
  have hremote : scrapeGuard (scrapedSettings " ").metricsToken none (some "10.0.0.9") =
      .error (.httpException 404 "Not Found") := by decide +kernel
  refine ⟨by decide +kernel, rfl, rfl, rfl, hlocal, hremote, ?_⟩
  intro hdecides
  have halike := hdecides.host_irrelevant none (some "127.0.0.1") (some "10.0.0.9")
    (by rintro header ⟨⟩)
  rw [hlocal, hremote] at halike
  cases halike

end DotmacIntegrator.Telemetry
