import DotmacIntegrator.ProductSurface.Authentication
import DotmacIntegrator.Telemetry.ScrapeGuard

/-!
# Refused credentials

Whoever is not let in is to be answered in one way: a scrape as by an absent path, a product's
request by one failure of authentication. Both guards compare secrets as texts, and comparing texts
that are not ASCII raises; then the answer is another one.

## Main definitions

* `ComparesNonAscii`: a key, or what is held for a caller, is not ASCII

## Main results

* `require_refuses_iff`: whom the product guards answer otherwise
* `refused_uniformly_iff`: which refused requests are answered in the one way
-/

namespace DotmacIntegrator.ProductSurface

open DotmacIntegrator.Configuration
open DotmacIntegrator.Secrets
open DotmacIntegrator.Telemetry

variable (callers : List ProductQueryCaller) (held : Held) (presented requiredScope : String)

/-- The key is compared with what is held for some caller, and one of the two is not ASCII. -/
def ComparesNonAscii : Prop :=
  ∃ caller ∈ callers, ∃ material, held.get? caller.apiKeyRef = some material ∧
    ¬ (Text.isAscii presented = true ∧ Text.isAscii material = true)

variable {callers held presented requiredScope}

/-- A caller is compared unless the texts cannot be. -/
theorem exists_compared_iff {matched : Option ProductQueryCaller} {caller : ProductQueryCaller} :
    (∃ found, compared held presented matched caller = .ok found) ↔
      ∀ material, held.get? caller.apiKeyRef = some material →
        Text.isAscii presented = true ∧ Text.isAscii material = true := by
  cases hheld : held.get? caller.apiKeyRef with
  | none => simp [compared, hheld]
  | some material =>
    have hascii := Text.compareDigest_eq_none_iff (a := presented) (b := material)
    cases hsame : Text.compareDigest presented material with
    | none =>
      rw [hsame, eq_self, true_iff] at hascii
      simp [compared, hheld, hsame, hascii]
    | some same =>
      rw [hsame] at hascii
      have hboth : Text.isAscii presented = true ∧ Text.isAscii material = true := by
        simpa using hascii
      simp [compared, hheld, hsame, hboth]

/-- The callers are gone through unless the key cannot be compared with one. -/
theorem exists_foldlM_compared_iff :
    (∃ found, callers.foldlM (compared held presented) none = .ok found) ↔
      ¬ ComparesNonAscii callers held presented := by
  have hstep : ∀ matched caller,
      (∃ found, compared held presented matched caller = .ok found) ↔ _ :=
    fun _ _ => exists_compared_iff
  rw [Except.exists_foldlM_eq_ok_iff hstep]
  constructor
  · rintro hall ⟨caller, hcaller, material, hmaterial, hascii⟩
    exact hascii (hall caller hcaller material hmaterial)
  · intro hnone caller hcaller material hmaterial
    by_contra hascii
    exact hnone ⟨caller, hcaller, material, hmaterial, hascii⟩

/-- Comparing one caller raises nothing but the `TypeError`. -/
theorem eq_typeError_of_foldlM {callers : List ProductQueryCaller}
    {matched : Option ProductQueryCaller} {failure : AuthenticationFailure}
    (h : callers.foldlM (compared held presented) matched = .error failure) :
    failure = .typeError := by
  induction callers generalizing matched with
  | nil => cases h
  | cons caller callers ih =>
    rw [List.foldlM_cons] at h
    cases hfirst : compared held presented matched caller with
    | error e =>
      rw [hfirst, Except.error_bind] at h
      obtain rfl := Except.error.inj h
      rw [compared] at hfirst
      split at hfirst
      · cases hfirst
      · split at hfirst
        · exact (Except.error.inj hfirst).symm
        · cases hfirst
    | ok found =>
      rw [hfirst, Except.ok_bind] at h
      exact ih h

/-- **Whom the product guards answer otherwise**: whoever presents a key that cannot be compared
with what is held for each caller. -/
theorem require_refuses_iff {xApiKey : Option String} :
    (∀ raised, require callers held requiredScope xApiKey = .error raised →
      raised = .httpException 401 "product authentication failed") ↔
        ¬ ComparesNonAscii callers held (xApiKey.getD "") := by
  rw [← exists_foldlM_compared_iff]
  cases hfold : callers.foldlM (compared held (xApiKey.getD "")) none with
  | error failure =>
    -- The loop was left by the `TypeError`, which no handler takes.
    obtain rfl := eq_typeError_of_foldlM hfold
    have hraised : require callers held requiredScope xApiKey = .error .typeError := by
      rw [require, authenticate, hfold]
      rfl
    simp [hraised]
  | ok matched =>
    have hdecided : authenticate callers held (xApiKey.getD "") requiredScope ≠
        .error .typeError := by
      rw [authenticate, hfold, Except.ok_bind]
      cases matched with
      | none => simp
      | some caller =>
        simp only
        split_ifs <;> simp
    constructor
    · intro _
      exact ⟨matched, rfl⟩
    · intro _ raised hraised
      rw [require] at hraised
      split at hraised
      · cases hraised
      · exact (Except.error.inj hraised).symm
      · next h => exact absurd h hdecided

/-- **Which refused requests are answered in the one way**: a scrape that is not let in by the
absence of the path, and a product's request by one failure, exactly where no texts are compared
that are not ASCII. -/
theorem refused_uniformly_iff (token authorization clientHost : Option String)
    (callers : List ProductQueryCaller) (held : Held) (requiredScope : String)
    (xApiKey : Option String) :
    ((scrapeGuard token authorization clientHost ≠ .ok () →
      scrapeGuard token authorization clientHost = .error (.httpException 404 "Not Found")) ↔
        ¬ ScrapeComparesNonAscii token authorization) ∧
    ((∀ raised, require callers held requiredScope xApiKey = .error raised →
      raised = .httpException 401 "product authentication failed") ↔
        ¬ ComparesNonAscii callers held (xApiKey.getD "")) :=
  ⟨scrapeGuard_refuses_iff, require_refuses_iff⟩

/-- One letter that is not ASCII tells that there is an endpoint. -/
theorem not_refused_uniformly_accented :
    ¬ ∀ authorization, (∀ header ∈ authorization, ∀ c ∈ header.toList, c.toNat < 0x100) →
      scrapeGuard (some "scrape-token") authorization (some "203.0.113.9") ≠ .ok () →
        scrapeGuard (some "scrape-token") authorization (some "203.0.113.9") =
          .error (.httpException 404 "Not Found") := by
  intro h
  have hraises : scrapeGuard (some "scrape-token") (some "Bearer clé") (some "203.0.113.9") =
      .error .typeError := by
    decide +kernel
  have hlatin : ∀ header ∈ some "Bearer clé", ∀ c ∈ header.toList, c.toNat < 0x100 := by
    rintro _ ⟨⟩
    have hall : "Bearer clé".toList.all (fun c => c.toNat < 0x100) := by decide
    exact fun c hc => of_decide_eq_true (List.all_eq_true.mp hall c hc)
  have hrefused := h (some "Bearer clé") hlatin (by rw [hraises]; simp)
  rw [hraises] at hrefused
  cases hrefused

end DotmacIntegrator.ProductSurface
