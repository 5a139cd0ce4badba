import DotmacIntegrator.Foundation.Text
import Mathlib.Data.Nat.Notation

/-!
# The guard of the scrape endpoint

A scrape presents the configured token as a bearer text; without a configured token it comes from
this host. Whoever does neither is answered as if there were no endpoint. The two tokens are
compared as texts, and comparing texts that are not ASCII raises.

## Main definitions

* `scrapeIsAuthorized`, `scrapeGuard`: the decision, and the dependency that makes it
* `ScrapeAuthentic`: who may scrape
* `ScrapeComparesNonAscii`: the requests whose texts cannot be compared

## Main results

* `scrapeGuard_eq_ok_iff`: who is let in
* `scrapeGuard_refuses_iff`: who is refused as if there were no endpoint
-/

namespace DotmacIntegrator.Telemetry

/-- What the guard raises: the answer of an absent path, or the `TypeError` of comparing. -/
inductive ScrapeRaised
  | httpException (status : ℕ) (detail : String)
  | typeError
  deriving DecidableEq, Repr

/-- The hosts a scrape may come from when no token is configured. -/
def LOOPBACK : List String := ["127.0.0.1", "::1", "localhost"]

variable (token authorization clientHost : Option String)

/-- The token, unless it is blank. -/
def configuredToken : Option String := token.filter fun t => Text.strip t ≠ ""

/-- `scrape_is_authorized`; none is the `TypeError` of comparing. -/
def scrapeIsAuthorized : Option Bool :=
  match configuredToken token, authorization with
  | none, _ => some (clientHost.any fun host => host ∈ LOOPBACK)
  | some _, none => some false
  | some configured, some header =>
    if header = "" then some false
    else if Text.lowerAscii (Text.partition ' ' header).1 ≠ "bearer" then some false
    else Text.compareDigest (Text.strip (Text.partition ' ' header).2) (Text.strip configured)

/-- `ScrapeGuard.__call__`, called directly: how the framework hands it the request is left out. -/
def scrapeGuard : Except ScrapeRaised Unit :=
  match scrapeIsAuthorized token authorization clientHost with
  | none => .error .typeError
  | some true => .ok ()
  | some false => .error (.httpException 404 "Not Found")

/-- The request presents a text for the configured token, in whichever case `bearer` is written. -/
def Presents (presented configured : String) : Prop :=
  configuredToken token = some configured ∧ ∃ header, authorization = some header ∧
    Text.lowerAscii (Text.partition ' ' header).1 = "bearer" ∧
    presented = (Text.partition ' ' header).2

/-- Who may scrape: the holder of the configured token, up to blanks at both ends, or this host if
there is none. -/
def ScrapeAuthentic : Prop :=
  (configuredToken token = none ∧ ∃ host ∈ LOOPBACK, clientHost = some host) ∨
    ∃ presented configured, Presents token authorization presented configured ∧
      Text.strip presented = Text.strip configured

/-- A text is presented for the configured token, and one of the two is not ASCII. -/
def ScrapeComparesNonAscii : Prop :=
  ∃ presented configured, Presents token authorization presented configured ∧
    ¬ (Text.isAscii (Text.strip presented) = true ∧ Text.isAscii (Text.strip configured) = true)

variable {token authorization clientHost}

/-- The texts presented for a configured token are compared. -/
theorem scrapeIsAuthorized_of_presents {presented configured : String}
    (h : Presents token authorization presented configured) :
    scrapeIsAuthorized token authorization clientHost =
      Text.compareDigest (Text.strip presented) (Text.strip configured) := by
  obtain ⟨hconfigured, header, rfl, hbearer, rfl⟩ := h
  have hne : header ≠ "" := by
    rintro rfl
    exact absurd hbearer (by decide)
  simp only [scrapeIsAuthorized, hconfigured, if_neg hne, hbearer, ne_eq, not_true_eq_false,
    if_false]

/-- Without a text to compare, this host is let in where no token is configured. -/
theorem scrapeIsAuthorized_of_not_presents
    (h : ∀ presented configured, ¬ Presents token authorization presented configured) :
    scrapeIsAuthorized token authorization clientHost =
      some (decide (configuredToken token = none ∧ ∃ host ∈ LOOPBACK, clientHost = some host)) := by
  cases hconfigured : configuredToken token with
  | none =>
    simp only [scrapeIsAuthorized, hconfigured]
    cases clientHost <;> simp
  | some configured =>
    simp only [scrapeIsAuthorized, hconfigured]
    cases authorization with
    | none => simp
    | some header =>
      have hscheme : Text.lowerAscii (Text.partition ' ' header).1 ≠ "bearer" :=
        fun hbearer => h _ configured ⟨hconfigured, header, rfl, hbearer, rfl⟩
      simp [hscheme]

/-- What is presented, and for which token, is read off the request. -/
theorem Presents.unique {presented configured presented' configured' : String}
    (h : Presents token authorization presented configured)
    (h' : Presents token authorization presented' configured') :
    presented' = presented ∧ configured' = configured := by
  obtain ⟨hconfigured, header, rfl, -, rfl⟩ := h
  obtain ⟨hconfigured', header', hheader, -, rfl⟩ := h'
  obtain rfl := Option.some.inj hheader
  exact ⟨rfl, Option.some.inj (hconfigured'.symm.trans hconfigured)⟩

/-- The guard decides unless it compares texts that are not ASCII. -/
theorem scrapeIsAuthorized_eq_none_iff (clientHost : Option String) :
    scrapeIsAuthorized token authorization clientHost = none ↔
      ScrapeComparesNonAscii token authorization := by
  by_cases h : ∃ presented configured, Presents token authorization presented configured
  · obtain ⟨presented, configured, hpresents⟩ := h
    rw [scrapeIsAuthorized_of_presents hpresents, Text.compareDigest_eq_none_iff]
    constructor
    · intro hascii
      exact ⟨presented, configured, hpresents, hascii⟩
    · rintro ⟨presented', configured', hpresents', hascii⟩
      obtain ⟨rfl, rfl⟩ := hpresents.unique hpresents'
      exact hascii
  -- Nothing is compared, so the guard decides.
  · have hnone := fun presented configured hp => h ⟨presented, configured, hp⟩
    rw [scrapeIsAuthorized_of_not_presents hnone]
    constructor
    · rintro ⟨⟩
    · rintro ⟨presented, configured, hpresents, -⟩
      exact absurd hpresents (hnone presented configured)

/-- **Who is let in**: an authentic request, unless its texts cannot be compared. -/
theorem scrapeGuard_eq_ok_iff :
    scrapeGuard token authorization clientHost = .ok () ↔
      ScrapeAuthentic token authorization clientHost ∧
        ¬ ScrapeComparesNonAscii token authorization := by
  have hdecided : scrapeGuard token authorization clientHost = .ok () ↔
      scrapeIsAuthorized token authorization clientHost = some true := by
    rw [scrapeGuard]
    split <;> simp_all
  rw [hdecided, ← scrapeIsAuthorized_eq_none_iff clientHost, ScrapeAuthentic]
  by_cases h : ∃ presented configured, Presents token authorization presented configured
  · obtain ⟨presented, configured, hpresents⟩ := h
    have hauthentic : ((configuredToken token = none ∧ ∃ host ∈ LOOPBACK, clientHost = some host) ∨
        ∃ presented configured, Presents token authorization presented configured ∧
          Text.strip presented = Text.strip configured) ↔
        Text.strip presented = Text.strip configured := by
      constructor
      · rintro (⟨hnone, -⟩ | ⟨presented', configured', hpresents', heq⟩)
        · rw [hpresents.1] at hnone
          cases hnone
        · obtain ⟨rfl, rfl⟩ := hpresents.unique hpresents'
          exact heq
      · intro heq
        exact Or.inr ⟨presented, configured, hpresents, heq⟩
    rw [hauthentic, scrapeIsAuthorized_of_presents hpresents, Text.compareDigest_eq_true_iff]
  · have hnone := fun presented configured hp => h ⟨presented, configured, hp⟩
    rw [scrapeIsAuthorized_of_not_presents hnone]
    have hlast : ¬ ∃ presented configured, Presents token authorization presented configured ∧
        Text.strip presented = Text.strip configured := by
      rintro ⟨presented, configured, hpresents, -⟩
      exact hnone presented configured hpresents
    simp [hlast]

/-- **Who is refused as if there were no endpoint**: whoever is not let in, unless texts that are
not ASCII are compared. -/
theorem scrapeGuard_refuses_iff :
    (scrapeGuard token authorization clientHost ≠ .ok () →
      scrapeGuard token authorization clientHost = .error (.httpException 404 "Not Found")) ↔
        ¬ ScrapeComparesNonAscii token authorization := by
  rw [← scrapeIsAuthorized_eq_none_iff clientHost, scrapeGuard]
  split <;> simp_all

end DotmacIntegrator.Telemetry
