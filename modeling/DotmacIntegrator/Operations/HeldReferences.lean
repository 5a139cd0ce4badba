import DotmacIntegrator.Operations.Enablement
import DotmacIntegrator.Secrets.LoadOutcome

/-!
# What was loaded and what is looked up

A load strips the references it finds in the stored revisions, and holds material under the stripped
spelling. An enablement looks up the references of its revision as they are stored. The two agree
on a revision iff its references have no blank around them.

## Main definitions

* `Obtained`: a load obtained material for every reference of a map
* `FoundByValue`: every reference of a map is found, and its value is that of its stripped spelling

## Main results

* `resolveSecrets_whole`: all names are resolved, or every missing one is named
* `obtained_found_iff`: what a load obtained is found iff the references are stripped
-/

namespace DotmacIntegrator.Operations

open DotmacIntegrator.Secrets

/-- A resolution has a value for every name, or it names every reference that is missing. -/
def Whole (held : Held) (refs : Dict String String) :
    Except SecretsNotHeld (Dict String String) → Prop
  | .ok resolved => resolved.map (fun p => (p.1, some p.2)) =
      refs.map fun p => (p.1, held.get? p.2)
  | .error refusal => refusal.missing ≠ [] ∧
      refusal.missing = refs.filter fun p => (held.get? p.2).isNone

/-- **All names are resolved, or every missing one is named.** -/
theorem resolveSecrets_whole (held : Held) (refs : Dict String String) :
    Whole held refs (resolveSecrets held refs) := by
  unfold resolveSecrets
  split_ifs with hmissing
  · exact ⟨hmissing, rfl⟩
  · rw [not_not, missingReferences_eq_nil] at hmissing
    show List.map _ (List.filterMap _ refs) = _
    induction refs with
    | nil => rfl
    | cons p refs ih =>
      obtain ⟨value, hvalue⟩ := Option.isSome_iff_exists.mp (hmissing p (.head _))
      have hrest := ih fun q hq => hmissing q (List.mem_cons_of_mem _ hq)
      simp [hvalue, hrest]

/-- A load obtained material for every reference of a map: each is accounted for as held, in the
spelling the load keeps. -/
structure Obtained (source : StoredReferenceSource) (printable : Char → Bool)
    (refs : Dict String String) (held : Held) (report : SecretLoadReport) : Prop where
  loaded : source.load printable = .ok (held, report)
  accounted : ∀ p ∈ refs,
    Text.strip p.2 ∈ report.held ∧ report.unresolved.get? (Text.strip p.2) = none

/-- Nothing of a map is missing, and every name is resolved to a value that depends on the stripped
spelling of its reference alone. -/
structure FoundByValue (held : Held) (refs : Dict String String) : Prop where
  nothingMissing : missingReferences held refs = []
  resolved : ∃ value : String → String,
    resolveSecrets held refs = .ok (refs.map fun p => (p.1, value (Text.strip p.2)))

/-- The references of a revision that stores texts are these texts. -/
theorem secretRefs_of_texts {μ : Type} (surface : Surface μ) {revision : ConnectorConfigRevision}
    {refs : Dict String String}
    (h : revision.secretRefs = some (refs.map fun p => (p.1, .str p.2))) :
    secretRefs surface revision = refs := by
  rw [secretRefs, h, Option.getD_some, List.map_map]
  exact List.map_id refs

variable {source : StoredReferenceSource} {printable : Char → Bool} {refs : Dict String String}
  {held : Held} {report : SecretLoadReport}

/-- Everything that is held is held under a stripped reference. -/
theorem strip_of_held (h : source.load printable = .ok (held, report)) {r : String}
    (hr : (held.get? r).isSome) : Text.strip r = r :=
  strip_of_mem_references ((load_get?_isSome_iff h).mp hr).1

/-- **What a load obtained is found iff the references are stripped.** -/
theorem Obtained.foundByValue_iff (h : Obtained source printable refs held report) :
    FoundByValue held refs ↔ ∀ p ∈ refs, Text.strip p.2 = p.2 := by
  constructor
  · rintro ⟨hnothing, -⟩ p hp
    exact strip_of_held h.loaded (missingReferences_eq_nil.mp hnothing p hp)
  · intro hstrip
    -- Each reference is looked up in the spelling it is held under.
    have hheld : ∀ p ∈ refs, (held.get? p.2).isSome := by
      intro p hp
      rw [← hstrip p hp]
      exact (mem_report_held h.loaded _).mp (h.accounted p hp).1
    have hnothing := missingReferences_eq_nil.mpr hheld
    refine ⟨hnothing, fun r => (held.get? r).getD "", ?_⟩
    rw [resolveSecrets, if_neg (not_not.mpr hnothing)]
    congr 1
    rw [← List.filterMap_eq_map]
    apply List.filterMap_congr
    intro p hp
    obtain ⟨value, hvalue⟩ := Option.isSome_iff_exists.mp (hheld p hp)
    simp [hstrip p hp, hvalue]

/-- **Load and lookup agree on what a reference is, but for blanks around it.** Of a revision whose
references a load obtained material for, an enablement finds everything, one value for each stripped
spelling, iff no reference has blanks around it; and no resolution is ever partial. -/
theorem obtained_found_iff {μ : Type} (surface : Surface μ) (revision : ConnectorConfigRevision)
    (refs : Dict String String)
    (hrefs : revision.secretRefs = some (refs.map fun p => (p.1, .str p.2)))
    (source : StoredReferenceSource) (printable : Char → Bool) (report : SecretLoadReport)
    (h : Obtained source printable refs surface.held report) :
    (FoundByValue surface.held (secretRefs surface revision) ∧
      ∀ held refs, Whole held refs (resolveSecrets held refs)) ↔
        ∀ p ∈ refs, Text.strip p.2 = p.2 := by
  rw [secretRefs_of_texts surface hrefs, ← h.foundByValue_iff]
  exact and_iff_left resolveSecrets_whole

/-! ### One stored reference -/

/-- The source of one installation, with one reference. -/
def oneReference (reference : String) : StoredReferenceSource where
  stored := some [some [("api_key", .str reference)]]
  dereferencers := environmentKeys
  extraReferences := []
  recognised := ["env", "file"]

/-- What the environment has for it is held, with a blank behind it and without. -/
theorem obtained_oneReference {reference : String}
    (h : reference = "env://INTEGRATOR_SECRET_ERP" ∨ reference = "env://INTEGRATOR_SECRET_ERP ") :
    Obtained (oneReference reference) (fun _ => true) [("api_key", reference)]
      (surfaceOf "caller-key" (permissive (μ := Unit))).held
      ⟨["env://INTEGRATOR_SECRET_ERP"], [], false⟩ := by
  rcases h with rfl | rfl
  · exact ⟨by decide +kernel, by decide +kernel⟩
  · exact ⟨by decide +kernel, by decide +kernel⟩

/-- A revision that stores the reference. -/
def referring (reference : String) : ConnectorConfigRevision :=
  { onlyRevision with secretRefs := some [("api_key", .str reference)] }

theorem obtained_found_iff_stripped :
    FoundByValue (surfaceOf "caller-key" (permissive (μ := Unit))).held
      (secretRefs (surfaceOf "caller-key" (permissive (μ := Unit)))
        (referring "env://INTEGRATOR_SECRET_ERP")) :=
  ((obtained_found_iff _ _ [("api_key", "env://INTEGRATOR_SECRET_ERP")] rfl _ _ _
    (obtained_oneReference (.inl rfl))).mpr (by decide +kernel)).1

/-- With a blank behind the stored reference, its material is obtained and not found. -/
theorem blankBehind_not_found :
    Obtained (oneReference "env://INTEGRATOR_SECRET_ERP ") (fun _ => true)
        [("api_key", "env://INTEGRATOR_SECRET_ERP ")]
        (surfaceOf "caller-key" (permissive (μ := Unit))).held
        ⟨["env://INTEGRATOR_SECRET_ERP"], [], false⟩ ∧
      ¬ FoundByValue (surfaceOf "caller-key" (permissive (μ := Unit))).held
        (secretRefs (surfaceOf "caller-key" (permissive (μ := Unit)))
          (referring "env://INTEGRATOR_SECRET_ERP ")) := by
  refine ⟨obtained_oneReference (.inr rfl), fun h => ?_⟩
  have hmissing : missingReferences (surfaceOf "caller-key" (permissive (μ := Unit))).held
      (secretRefs (surfaceOf "caller-key" (permissive (μ := Unit)))
        (referring "env://INTEGRATOR_SECRET_ERP ")) ≠ [] := by decide +kernel
  exact hmissing h.nothingMissing

end DotmacIntegrator.Operations
