import DotmacIntegrator.Foundation.Dict
import DotmacIntegrator.Foundation.Fallible
import DotmacIntegrator.Foundation.Text

/-!
# Held secrets

Material is loaded at startup and on an explicit refresh. Everything else looks a reference up in
what is held.

## Main definitions

* `Held`: the values held, under their references
* `missingReferences`, `resolveSecrets`: what is referenced and not held, and the values

## Main results

* `resolveSecrets_isOk_iff`: secrets are resolved iff every reference is held
-/

namespace DotmacIntegrator.Secrets

/-- The values held, under their references. -/
abbrev Held := Dict String String

/-- A value shorter than this cannot be redacted. -/
def minimumRedactableLength : ℕ := 4

/-- Referenced material is not held: the references at fault, under their logical names. -/
structure SecretsNotHeld where
  missing : Dict String String
  deriving DecidableEq, Repr

/-- The text of the refusal. -/
def SecretsNotHeld.message (e : SecretsNotHeld) : String :=
  let listed := (e.missing.mergeSort fun p q => p.1 ≤ q.1).map fun p => p.1 ++ "=" ++ p.2
  "referenced secret material is not held: " ++ ", ".intercalate listed ++
    ". Material is loaded at startup and on an explicit refresh only (ADR-0009) — POST " ++
    "/operations/secrets/refresh after making it available, or correct the reference. " ++
    "Enablement is refused rather than attempted with a missing credential."

variable (held : Held)

/-- `missing_references`: what is referenced and not held. -/
def missingReferences (refs : Dict String String) : Dict String String :=
  refs.filter fun p => (held.get? p.2).isNone

/-- `resolve_secrets`: the value of every reference, or none of them. -/
def resolveSecrets (refs : Dict String String) : Except SecretsNotHeld (Dict String String) :=
  if missingReferences held refs ≠ [] then .error ⟨missingReferences held refs⟩
  else .ok (refs.filterMap fun p => (held.get? p.2).map fun v => (p.1, v))

variable {held}

theorem missingReferences_eq_nil {refs : Dict String String} :
    missingReferences held refs = [] ↔ ∀ p ∈ refs, (held.get? p.2).isSome := by
  simp [missingReferences, List.filter_eq_nil_iff, Option.isSome_iff_ne_none]

/-- Secrets are resolved iff every reference is held. -/
theorem resolveSecrets_isOk_iff {refs : Dict String String} :
    (resolveSecrets held refs).isOk ↔ ∀ p ∈ refs, (held.get? p.2).isSome := by
  rw [← missingReferences_eq_nil, resolveSecrets]
  split_ifs with h
  · simp [Except.isOk, Except.toBool, h]
  · simpa [Except.isOk, Except.toBool] using h

theorem missingReferences_of_ok {refs resolved : Dict String String}
    (h : resolveSecrets held refs = .ok resolved) : missingReferences held refs = [] := by
  unfold resolveSecrets at h
  split_ifs at h with hmissing
  exact not_not.mp hmissing

theorem missingReferences_of_error {refs : Dict String String} {e : SecretsNotHeld}
    (h : resolveSecrets held refs = .error e) : missingReferences held refs ≠ [] := by
  unfold resolveSecrets at h
  split_ifs at h with hmissing
  exact hmissing

/-- One reference is resolved where it is held. -/
theorem exists_resolveSecrets {reference : String} (h : (held.get? reference).isSome)
    (name : String) : ∃ resolved, resolveSecrets held [(name, reference)] = .ok resolved := by
  apply Except.isOk_iff.mp
  rw [resolveSecrets_isOk_iff]
  intro p hp
  rw [List.mem_singleton.mp hp]
  exact h

/-- One reference is resolved to the value held under it. -/
theorem resolveSecrets_singleton {name reference : String} {resolved : Dict String String}
    (h : resolveSecrets held [(name, reference)] = .ok resolved) :
    (held.get? reference).isSome ∧ resolved.get? name = held.get? reference := by
  -- The resolution was not refused, so that nothing is missing.
  have hsome : (held.get? reference).isSome :=
    resolveSecrets_isOk_iff.mp (by rw [h]; rfl) (name, reference) (List.mem_singleton.mpr rfl)
  refine ⟨hsome, ?_⟩
  obtain ⟨value, hvalue⟩ := Option.isSome_iff_exists.mp hsome
  unfold resolveSecrets at h
  split_ifs at h
  rw [← Except.ok.inj h]
  simp [hvalue]

end DotmacIntegrator.Secrets
