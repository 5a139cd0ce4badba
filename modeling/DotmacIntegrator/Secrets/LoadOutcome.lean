import DotmacIntegrator.Secrets.Loading

/-!
# What a load comes to

A load dereferences every reference on its own. What is held and what is unresolved are read off
the outcome of each reference; a reference whose dereferencing raises ends the load.

## Main definitions

* `material`, `reason`: the material of a reference, or why there is none

## Main results

* `load_eq_ok_iff`: when a load returns, and what
* `load_eq_error_iff`: a load raises what its first raising reference raises
* `held_get?`, `unresolved_get?`: a reference's outcome depends on no other reference
-/

namespace DotmacIntegrator.Secrets

namespace StoredReferenceSource

variable (source : StoredReferenceSource) (printable : Char → Bool)

/-- The material of a reference. -/
def material (r : String) : Option String :=
  match source.dereference printable r with
  | .ok (.ok value) => some value
  | _ => none

/-- Why a reference has no material. -/
def reason (r : String) : Option String :=
  match source.dereference printable r with
  | .ok (.error why) => some why
  | _ => none

end StoredReferenceSource

variable {source : StoredReferenceSource} {printable : Char → Bool}

theorem material_eq_some {r value : String} :
    source.material printable r = some value ↔
      source.dereference printable r = .ok (.ok value) := by
  unfold StoredReferenceSource.material
  split <;> simp_all

/-- A reference that raises nothing has material or a reason, and not both. -/
theorem material_isSome_iff {r : String} (h : ∃ o, source.dereference printable r = .ok o) :
    (source.material printable r).isSome ↔ source.reason printable r = none := by
  obtain ⟨o, ho⟩ := h
  unfold StoredReferenceSource.material StoredReferenceSource.reason
  rw [ho]
  cases o <;> simp

/-- What is read off the outcomes of a traversal is read off the outcome of each reference. -/
theorem filterMap_outcomes {β : Type} {rs : List String}
    {outcomes : List (String × Except String String)}
    (h : rs.mapM (fun r => (source.dereference printable r).map fun o => (r, o)) = .ok outcomes)
    (f : String × Except String String → Option β) :
    outcomes.filterMap f =
      rs.filterMap fun r => (source.dereference printable r).toOption.bind fun o => f (r, o) := by
  induction Except.mapM_eq_ok.mp h with
  | nil => rfl
  | @cons r p rs outcomes hp hrest ih =>
    obtain ⟨o, ho, rfl⟩ := Except.map_eq_ok.mp hp
    rw [List.filterMap_cons, List.filterMap_cons, ih (Except.mapM_eq_ok.mpr hrest), ho]
    rfl

/-- What a load returns once every reference was dereferenced. -/
theorem load_of_outcomes {outcomes : List (String × Except String String)}
    (h : (source.references.mapM fun r => (source.dereference printable r).map fun o => (r, o)) =
      .ok outcomes) :
    source.load printable = .ok
      (source.references.filterMap fun r => (source.material printable r).map fun v => (r, v),
      ⟨Text.sorted (Dict.keys (source.references.filterMap fun r =>
          (source.material printable r).map fun v => (r, v))),
        source.references.filterMap fun r => (source.reason printable r).map fun v => (r, v),
        source.stored.isNone⟩) := by
  -- An entry of what is held, or of what is not, is a function of its reference's outcome.
  have hheld : ∀ f : String × Except String String → Option (String × String),
      (∀ r o, f (r, o) = o.toOption.map fun v => (r, v)) → outcomes.filterMap f =
        source.references.filterMap fun r => (source.material printable r).map fun v => (r, v) := by
    intro f hf
    rw [filterMap_outcomes h]
    apply List.filterMap_congr
    intro r _
    unfold StoredReferenceSource.material
    cases source.dereference printable r with
    | error failure => rfl
    | ok o => cases o <;> exact hf r _
  have hunresolved : ∀ f : String × Except String String → Option (String × String),
      (∀ r v, f (r, .ok v) = none) → (∀ r why, f (r, .error why) = some (r, why)) →
      outcomes.filterMap f =
        source.references.filterMap fun r => (source.reason printable r).map fun v => (r, v) := by
    intro f hok herror
    rw [filterMap_outcomes h]
    apply List.filterMap_congr
    intro r _
    unfold StoredReferenceSource.reason
    cases source.dereference printable r with
    | error failure => rfl
    | ok o =>
      cases o with
      | error why => exact herror r why
      | ok value => exact hok r value
  unfold StoredReferenceSource.load
  rw [h, Except.ok_bind]
  exact congrArg₂ (fun held unresolved => Except.ok (held, SecretLoadReport.mk
    (Text.sorted (Dict.keys held)) unresolved source.stored.isNone))
    (hheld _ fun r o => by cases o <;> rfl) (hunresolved _ (fun _ _ => rfl) fun _ _ => rfl)

/-- When a load returns, and what. -/
theorem load_eq_ok_iff {held : Held} {report : SecretLoadReport} :
    source.load printable = .ok (held, report) ↔
      (∀ r ∈ source.references, ∃ o, source.dereference printable r = .ok o) ∧
      held = source.references.filterMap (fun r =>
        (source.material printable r).map fun v => (r, v)) ∧
      report = ⟨Text.sorted (Dict.keys held), source.references.filterMap (fun r =>
        (source.reason printable r).map fun v => (r, v)), source.stored.isNone⟩ := by
  constructor
  · intro hload
    obtain ⟨outcomes, houtcomes, -⟩ := Except.bind_eq_ok.mp hload
    rw [load_of_outcomes houtcomes] at hload
    obtain ⟨rfl, rfl⟩ := Prod.mk.inj (Except.ok.inj hload)
    refine ⟨?_, rfl, rfl⟩
    intro r hr
    obtain ⟨p, hp⟩ := Except.ok_of_mapM_eq_ok houtcomes r hr
    obtain ⟨o, ho, -⟩ := Except.map_eq_ok.mp hp
    exact ⟨o, ho⟩
  · rintro ⟨hok, rfl, rfl⟩
    obtain ⟨outcomes, houtcomes⟩ : ∃ outcomes, (source.references.mapM fun r =>
        (source.dereference printable r).map fun o => (r, o)) = .ok outcomes := by
      apply Except.exists_mapM_eq_ok
      intro r hr
      obtain ⟨o, ho⟩ := hok r hr
      exact ⟨(r, o), Except.map_eq_ok.mpr ⟨o, ho, rfl⟩⟩
    exact load_of_outcomes houtcomes

/-- A load raises what its first raising reference raises. -/
theorem load_eq_error_iff {failure : ReadFailure} :
    source.load printable = .error failure ↔
      ∃ before r after, source.references = before ++ r :: after ∧
        source.dereference printable r = .error failure ∧
        ∀ r' ∈ before, ∃ o, source.dereference printable r' = .ok o := by
  have hmap : ∀ r, (∃ p, ((source.dereference printable r).map fun o => (r, o)) = .ok p) ↔
      ∃ o, source.dereference printable r = .ok o := by
    intro r
    cases source.dereference printable r <;> simp [Except.map]
  have herror : ∀ r, ((source.dereference printable r).map fun o => (r, o)) = .error failure ↔
      source.dereference printable r = .error failure := by
    intro r
    cases source.dereference printable r <;> simp [Except.map]
  have hload : source.load printable = .error failure ↔
      (source.references.mapM fun r => (source.dereference printable r).map fun o => (r, o)) =
        .error failure := by
    unfold StoredReferenceSource.load
    cases source.references.mapM fun r =>
      (source.dereference printable r).map fun o => (r, o) <;> simp [pure, Except.pure]
  simp only [hload, Except.mapM_eq_error, hmap, herror]

section Loaded

variable {held : Held} {report : SecretLoadReport}
  (h : source.load printable = .ok (held, report))

include h

/-- What is held under a reference is its material. -/
theorem held_get? (r : String) :
    held.get? r = if r ∈ source.references then source.material printable r else none := by
  rw [(load_eq_ok_iff.mp h).2.1, Dict.get?_filterMap_key]

/-- What is said about an unresolved reference is its reason. -/
theorem unresolved_get? (r : String) :
    report.unresolved.get? r =
      if r ∈ source.references then source.reason printable r else none := by
  rw [(load_eq_ok_iff.mp h).2.2, Dict.get?_filterMap_key]

/-- Every reference is held or unresolved. -/
theorem mem_references_iff (r : String) :
    r ∈ source.references ↔ r ∈ held.keys ∨ r ∈ report.unresolved.keys := by
  rw [← Dict.get?_isSome_iff, ← Dict.get?_isSome_iff, held_get? h, unresolved_get? h]
  split_ifs with hr
  · have hone := material_isSome_iff ((load_eq_ok_iff.mp h).1 r hr)
    simp only [hr, true_iff]
    cases hreason : source.reason printable r with
    | none => exact .inl (hone.mpr hreason)
    | some why => exact .inr rfl
  · simp [hr]

/-- No reference is both. -/
theorem not_held_and_unresolved (r : String) :
    ¬ (r ∈ held.keys ∧ r ∈ report.unresolved.keys) := by
  rw [← Dict.get?_isSome_iff, ← Dict.get?_isSome_iff, held_get? h, unresolved_get? h]
  rintro ⟨hheld, hunresolved⟩
  split_ifs at hheld hunresolved with hr
  · rw [(material_isSome_iff ((load_eq_ok_iff.mp h).1 r hr)).mp hheld] at hunresolved
    cases hunresolved
  · cases hheld

/-- What is reported as held is what is held. -/
theorem mem_report_held (r : String) : r ∈ report.held ↔ (held.get? r).isSome := by
  rw [(load_eq_ok_iff.mp h).2.2, Text.mem_sorted, Dict.get?_isSome_iff]

end Loaded

end DotmacIntegrator.Secrets
