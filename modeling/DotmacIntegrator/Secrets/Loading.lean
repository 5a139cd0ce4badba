import DotmacIntegrator.ProductPort.DescriptorReader

/-!
# Loading secrets

At startup every reference the deployment needs is dereferenced, once: those of the stored
configuration revisions, and those of the assembly itself. What a surface looks up later is found
only in the spelling it was loaded under, which is the stripped one.

## Main definitions

* `StoredReferenceSource`: the references, and how each scheme is dereferenced
* `StoredReferenceSource.load`: what a load holds and what it could not resolve
* `assemblyOwned`: the references of the assembly that `install_secrets` hands over
* `lookedUp`: the references the enabled surfaces look up

## Main results

* `load_get?_isSome_iff`: a load holds exactly what it dereferenced
* `lookedUp_loaded_iff`: when everything an enabled surface looks up is loaded
-/

namespace DotmacIntegrator.Secrets

open DotmacIntegrator.Configuration

/-- What dereferencing a locator raises: the material is missing, or anything that ends the
load. -/
inductive ReadFailure
  | materialMissing (message : String)
  | storeUnavailable (message : String)
  | raised (name : String)
  deriving DecidableEq, Repr

/-- How one scheme's locator becomes material. -/
abbrev Dereferencer := String → Except ReadFailure String

/-- The rows of the stored revisions, or nothing where the schema is absent. -/
abbrev StoredRevisions := Option (List (Option (Dict String Json)))

/-- The source a deployment installs: its stored revisions, its dereferencers, the references it
was handed, and the schemes the module recognises. -/
structure StoredReferenceSource where
  stored : StoredRevisions
  dereferencers : Dict String Dereferencer
  extraReferences : List String
  recognised : List String

/-- The report of a load. -/
structure SecretLoadReport where
  held : List String
  unresolved : Dict String String
  schemaAbsent : Bool
  deriving DecidableEq, Repr

/-- A character of a scheme after its first. -/
def isSchemeChar (c : Char) : Bool := c.isLower || c.isDigit || c = '-'

/-- `^([a-z][a-z0-9-]*)://(\S+)$`: the scheme and the locator of a reference. -/
def parseReference (reference : String) : Option (String × String) :=
  let scheme := reference.toList.takeWhile isSchemeChar
  match reference.toList.dropWhile isSchemeChar with
  | ':' :: '/' :: '/' :: locator =>
    if scheme.head?.any Char.isLower && locator ≠ [] && locator.all (fun c => !Text.isSpace c) then
      some (String.ofList scheme, String.ofList locator)
    else none
  | _ => none

/-- The references that are not blank, stripped. -/
def kept (references : List String) : List String :=
  (references.filter fun reference => Text.strip reference ≠ "").map Text.strip

/-- `_stored_references`: every reference of the stored revisions. -/
def storedReferences (stored : StoredRevisions) : List String :=
  (stored.getD []).flatMap fun refs =>
    kept ((refs.getD []).filterMap fun p => match p.2 with
      | .str reference => some reference
      | _ => none)

namespace StoredReferenceSource

variable (source : StoredReferenceSource) (printable : Char → Bool)

/-- The references of the source, in the order they are dereferenced. -/
def references : List String :=
  Text.sorted (storedReferences source.stored ++ kept source.extraReferences)

/-- One reference dereferenced: its material, or why there is none. -/
def dereference (reference : String) : Except ReadFailure (Except String String) :=
  match parseReference (Text.strip reference) with
  | none => .ok (.error "not a <scheme>://<id> reference")
  | some (scheme, locator) =>
    if scheme ∉ source.recognised then
      .ok (.error ("scheme " ++ PyRepr.string printable scheme ++ " is not recognised"))
    else match source.dereferencers.get? scheme with
      | none =>
        .ok (.error ("scheme " ++ PyRepr.string printable scheme ++
          " is not enabled in this deployment (SECRET_SCHEMES=" ++
          PyRepr.strings printable (Text.sorted source.dereferencers.keys) ++ ")"))
      | some read =>
        match read locator with
        | .error (.materialMissing message) => .ok (.error message)
        | .error failure => .error failure
        | .ok value =>
          if value.toList.length < minimumRedactableLength then
            .ok (.error (s!"material is shorter than {minimumRedactableLength} characters and " ++
              "cannot be redacted from an error message"))
          else .ok (.ok value)

/-- `load`: what is held, and the report. -/
def load : Except ReadFailure (Held × SecretLoadReport) := do
  let outcomes ← source.references.mapM fun reference =>
    (source.dereference printable reference).map fun outcome => (reference, outcome)
  let held := outcomes.filterMap fun (reference, outcome) => match outcome with
    | .ok value => some (reference, value)
    | .error _ => none
  let unresolved := outcomes.filterMap fun (reference, outcome) => match outcome with
    | .ok _ => none
    | .error why => some (reference, why)
  return (held, ⟨Text.sorted (Dict.keys held), unresolved, source.stored.isNone⟩)

end StoredReferenceSource

/-! ### The assembly's references -/

/-- A destination port is configured. -/
def portConfigured (settings : Settings) : Bool :=
  settings.productPortEnabled || settings.productPortPrepareOnly

/-- The product surface is served. -/
def productServed (settings : Settings) : Bool :=
  settings.productQueryEnabled || settings.productProvisionEnabled

/-- The references `install_secrets` hands to the source. -/
def assemblyOwned (settings : Settings) : List String :=
  (if portConfigured settings then [settings.productPortApiKeyRef] else []) ++
    (if settings.productQueryEnabled then
      settings.productQueryCallers.map ProductQueryCaller.apiKeyRef else []) ++
    (if settings.productContractRegistryEnabled then
      [settings.productContractRegistryApiKeyRef] else [])

/-- The source `install_secrets` installs. -/
def installedSource (settings : Settings) (stored : StoredRevisions)
    (dereferencers : Dict String Dereferencer) (recognised : List String) :
    StoredReferenceSource where
  stored := stored
  dereferencers := dereferencers
  extraReferences := assemblyOwned settings
  recognised := recognised

/-- The references the enabled surfaces look up: the authenticator as they are configured, the two
readers stripped. -/
def lookedUp (settings : Settings) : List String :=
  (if productServed settings then
    settings.productQueryCallers.map ProductQueryCaller.apiKeyRef else []) ++
    (if portConfigured settings then [Text.strip settings.productPortApiKeyRef] else []) ++
    (if settings.productContractRegistryEnabled then
      [Text.strip settings.productContractRegistryApiKeyRef] else [])

/-! ### What a load holds -/

variable {source : StoredReferenceSource} {printable : Char → Bool}

theorem mem_kept {references : List String} {r : String} :
    r ∈ kept references ↔ r ≠ "" ∧ ∃ reference ∈ references, Text.strip reference = r := by
  simp only [kept, List.mem_map, List.mem_filter, decide_eq_true_eq]
  constructor
  · rintro ⟨reference, ⟨hmem, hne⟩, rfl⟩
    exact ⟨hne, reference, hmem, rfl⟩
  · rintro ⟨hne, reference, hmem, rfl⟩
    exact ⟨reference, ⟨hmem, hne⟩, rfl⟩

theorem strip_of_mem_kept {references : List String} {r : String} (h : r ∈ kept references) :
    Text.strip r = r := by
  obtain ⟨-, reference, -, rfl⟩ := mem_kept.mp h
  exact Text.strip_strip reference

/-- Every reference of a source is stripped. -/
theorem strip_of_mem_references {r : String} (h : r ∈ source.references) : Text.strip r = r := by
  rw [StoredReferenceSource.references, Text.mem_sorted, List.mem_append] at h
  rcases h with h | h
  · obtain ⟨refs, -, hr⟩ := List.mem_flatMap.mp h
    exact strip_of_mem_kept hr
  · exact strip_of_mem_kept h

/-- The source obtains material for a reference. -/
def StoredReferenceSource.Dereferences (source : StoredReferenceSource) (printable : Char → Bool)
    (r : String) : Prop :=
  ∃ value, source.dereference printable r = .ok (.ok value)

/-- After every load that obtains material for a reference, looking it up finds some. -/
def StoredReferenceSource.Finds (source : StoredReferenceSource) (printable : Char → Bool)
    (r : String) : Prop :=
  ∀ held report, source.load printable = .ok (held, report) →
    source.Dereferences printable r → (held.get? r).isSome

/-- The load succeeds, and obtains material for the reference. -/
def StoredReferenceSource.Obtains (source : StoredReferenceSource) (printable : Char → Bool)
    (r : String) : Prop :=
  (source.load printable).isOk ∧ source.Dereferences printable r

/-- **A load holds exactly what it dereferenced**, under the reference's stripped spelling. -/
theorem load_get?_isSome_iff {held : Held} {report : SecretLoadReport}
    (h : source.load printable = .ok (held, report)) {r : String} :
    (held.get? r).isSome ↔ r ∈ source.references ∧ source.Dereferences printable r := by
  obtain ⟨outcomes, houtcomes, h⟩ := Except.bind_eq_ok.mp h
  obtain ⟨rfl, -⟩ := Prod.mk.inj (Except.ok.inj h)
  -- The outcomes with material are those of the references that were dereferenced.
  have hkeys : (∃ value, (r, Except.ok value) ∈ outcomes) ↔
      r ∈ source.references ∧ source.Dereferences printable r := by
    constructor
    · rintro ⟨value, hmem⟩
      obtain ⟨reference, hreference, hok⟩ := Except.exists_of_mapM_eq_ok houtcomes _ hmem
      obtain ⟨outcome, hd, hpair⟩ := Except.map_eq_ok.mp hok
      obtain ⟨rfl, rfl⟩ := Prod.mk.inj hpair
      exact ⟨hreference, value, hd⟩
    · rintro ⟨hreference, value, hd⟩
      obtain ⟨outcome, hmem, hok⟩ := Except.exists_mem_of_mapM_eq_ok houtcomes r hreference
      rw [hd] at hok
      obtain rfl := Except.ok.inj hok
      exact ⟨value, hmem⟩
  -- What is held has the keys of the outcomes with material.
  rw [Dict.get?_isSome_iff, ← hkeys]
  simp only [Dict.keys, List.mem_map, List.mem_filterMap]
  constructor
  · rintro ⟨⟨r', value⟩, ⟨⟨reference, outcome⟩, hmem, hsome⟩, rfl⟩
    cases outcome with
    | error why => cases hsome
    | ok found =>
      obtain ⟨rfl, rfl⟩ := Prod.mk.inj (Option.some.inj hsome)
      exact ⟨found, hmem⟩
  · rintro ⟨value, hmem⟩
    exact ⟨(r, value), ⟨(r, .ok value), hmem, rfl⟩, rfl⟩

/-- A load succeeds where no reference ends it. -/
theorem load_isOk
    (h : ∀ r ∈ source.references, (source.dereference printable r).isOk) :
    (source.load printable).isOk := by
  obtain ⟨outcomes, houtcomes⟩ : ∃ outcomes, (source.references.mapM fun reference =>
      (source.dereference printable reference).map fun outcome => (reference, outcome)) =
        .ok outcomes := by
    apply Except.exists_mapM_eq_ok
    intro r hr
    cases hd : source.dereference printable r with
    | error failure =>
      have hok := h r hr
      rw [hd] at hok
      cases hok
    | ok outcome => exact ⟨(r, outcome), rfl⟩
  rw [StoredReferenceSource.load, houtcomes]
  rfl

/-! ### What is looked up -/

variable {settings : Settings} {r : String}

/-- The string is written, exactly so, as the reference of the configured port, of a caller while
queries are enabled, or of the enabled registry. -/
def Written (settings : Settings) (r : String) : Prop :=
  portConfigured settings = true ∧ r = settings.productPortApiKeyRef ∨
    (settings.productQueryEnabled = true ∧
      ∃ caller ∈ settings.productQueryCallers, caller.apiKeyRef = r) ∨
    settings.productContractRegistryEnabled = true ∧
      r = settings.productContractRegistryApiKeyRef

theorem mem_assemblyOwned : r ∈ assemblyOwned settings ↔ Written settings r := by
  unfold assemblyOwned Written
  split_ifs <;> simp_all

theorem mem_lookedUp : r ∈ lookedUp settings ↔
    (productServed settings = true ∧
      ∃ caller ∈ settings.productQueryCallers, caller.apiKeyRef = r) ∨
    portConfigured settings = true ∧ r = Text.strip settings.productPortApiKeyRef ∨
    settings.productContractRegistryEnabled = true ∧
      r = Text.strip settings.productContractRegistryApiKeyRef := by
  unfold lookedUp
  split_ifs <;> simp_all

/-- A configured port has a reference. -/
theorem portRef_ne (R : Url.HostRules) (hvalid : validateSettings R printable settings = [])
    (h : portConfigured settings = true) : Text.strip settings.productPortApiKeyRef ≠ "" := by
  have hport := (validateSettings_eq_nil_iff.mp hvalid).2.2.2.1
  -- An unknown mode is a problem of its own; otherwise the required values are checked.
  unfold productPortProblems at hport
  split at hport
  · cases hport
  · unfold portConfigured at h
    rw [h] at hport
    simp only [Bool.not_true, Bool.false_eq_true, if_false, List.append_eq_nil_iff,
      List.flatMap_cons, List.flatMap_nil, problemIf_eq_nil_iff,
      decide_eq_false_iff_not] at hport
    exact hport.1.1.1.2.2.2.1

/-- An enabled registry has a reference. -/
theorem registryRef_ne (R : Url.HostRules) (hvalid : validateSettings R printable settings = [])
    (h : settings.productContractRegistryEnabled = true) :
    Text.strip settings.productContractRegistryApiKeyRef ≠ "" := by
  have hregistry := (validateSettings_eq_nil_iff.mp hvalid).2.1
  rw [registryProblems, if_pos h] at hregistry
  simp only [List.append_eq_nil_iff, List.flatMap_cons, List.flatMap_nil, problemIf_eq_nil_iff,
    decide_eq_false_iff_not] at hregistry
  exact hregistry.1.1.2.2.1

/-- No accepted configuration looks up an empty reference. -/
theorem ne_of_mem_lookedUp (R : Url.HostRules)
    (hvalid : validateSettings R printable settings = []) (h : r ∈ lookedUp settings) :
    r ≠ "" := by
  rcases mem_lookedUp.mp h with ⟨-, caller, -, rfl⟩ | ⟨hport, rfl⟩ | ⟨hregistry, rfl⟩
  · exact caller.apiKeyRef_ne
  · exact portRef_ne R hvalid hport
  · exact registryRef_ne R hvalid hregistry

/-- The callers' references are handed over and found: queries are enabled, or the port or the
registry has the same reference; and a reference that is dereferenced has no blank around it. -/
def CallersLoaded (settings : Settings) (spelling : String → String)
    (dereferences : String → Prop) : Prop :=
  productServed settings = true → ∀ caller ∈ settings.productQueryCallers,
    (settings.productQueryEnabled = true ∨
      portConfigured settings = true ∧
        caller.apiKeyRef = spelling settings.productPortApiKeyRef ∨
      settings.productContractRegistryEnabled = true ∧
        caller.apiKeyRef = spelling settings.productContractRegistryApiKeyRef) ∧
      (dereferences caller.apiKeyRef → Text.strip caller.apiKeyRef = caller.apiKeyRef)

section Installed

variable (stored : StoredRevisions) (dereferencers : Dict String Dereferencer)
  (recognised : List String)

/-- A reference the source keeps is found. -/
theorem finds_of_mem_kept (hr : r ∈ kept (assemblyOwned settings)) :
    (installedSource settings stored dereferencers recognised).Finds printable r := by
  intro held report hload hd
  rw [load_get?_isSome_iff hload]
  refine ⟨?_, hd⟩
  rw [StoredReferenceSource.references, Text.mem_sorted, List.mem_append]
  exact .inr hr

/-- A reference that is handed over is found iff, where material is obtained for it, it has no
blank around it. -/
theorem finds_iff (hne : r ≠ "") (hr : r ∈ assemblyOwned settings) :
    (installedSource settings stored dereferencers recognised).Finds printable r ↔
      ((installedSource settings stored dereferencers recognised).Obtains printable r →
        Text.strip r = r) := by
  constructor
  · -- What is found was loaded, and everything that is loaded is stripped.
    rintro hfinds ⟨hok, hd⟩
    obtain ⟨loaded, hload⟩ := Except.isOk_iff.mp hok
    have hfound := hfinds loaded.1 loaded.2 hload hd
    exact strip_of_mem_references ((load_get?_isSome_iff hload).mp hfound).1
  · intro hstrip held report hload hd
    have hok : ((installedSource settings stored dereferencers recognised).load
        printable).isOk := by
      rw [hload]
      rfl
    exact finds_of_mem_kept stored dereferencers recognised
      (mem_kept.mpr ⟨hne, r, hr, hstrip ⟨hok, hd⟩⟩) held report hload hd

variable {R : Url.HostRules} (hvalid : validateSettings R printable settings = [])

include hvalid

/-- Everything looked up is handed over in that spelling, and found. -/
theorem lookedUp_handed_iff :
    (∀ r ∈ lookedUp settings, r ∈ assemblyOwned settings ∧
        (installedSource settings stored dereferencers recognised).Finds printable r) ↔
      CallersLoaded settings id
          ((installedSource settings stored dereferencers recognised).Obtains printable) ∧
        (portConfigured settings = true →
          Written settings (Text.strip settings.productPortApiKeyRef)) ∧
        (settings.productContractRegistryEnabled = true →
          Written settings (Text.strip settings.productContractRegistryApiKeyRef)) := by
  -- What is handed over is found iff its spelling survives the load.
  have hfinds : ∀ r ∈ lookedUp settings, r ∈ assemblyOwned settings →
      ((installedSource settings stored dereferencers recognised).Finds printable r ↔
        ((installedSource settings stored dereferencers recognised).Obtains printable r →
          Text.strip r = r)) := fun r hr hhanded =>
    finds_iff stored dereferencers recognised (ne_of_mem_lookedUp R hvalid hr) hhanded
  constructor
  · intro hall
    refine ⟨?_, ?_, ?_⟩
    · -- A caller's reference is handed over for the callers, the port or the registry.
      intro hserved caller hcaller
      have hr := mem_lookedUp.mpr (.inl ⟨hserved, caller, hcaller, rfl⟩)
      obtain ⟨hhanded, hfound⟩ := hall _ hr
      refine ⟨?_, (hfinds _ hr hhanded).mp hfound⟩
      rcases mem_assemblyOwned.mp hhanded with h | ⟨hquery, -⟩ | h
      · exact .inr (.inl h)
      · exact .inl hquery
      · exact .inr (.inr h)
    · intro hport
      exact mem_assemblyOwned.mp (hall _ (mem_lookedUp.mpr (.inr (.inl ⟨hport, rfl⟩)))).1
    · intro hregistry
      exact mem_assemblyOwned.mp (hall _ (mem_lookedUp.mpr (.inr (.inr ⟨hregistry, rfl⟩)))).1
  · -- The port and the registry are looked up stripped; only a caller's spelling may miss.
    rintro ⟨hcallers, hport, hregistry⟩ r hr
    have hwritten : Written settings r ∧
        ((installedSource settings stored dereferencers recognised).Obtains printable r →
          Text.strip r = r) := by
      rcases mem_lookedUp.mp hr with ⟨hserved, caller, hcaller, rfl⟩ | ⟨h, rfl⟩ | ⟨h, rfl⟩
      · obtain ⟨hgiven, hstrip⟩ := hcallers hserved caller hcaller
        refine ⟨?_, hstrip⟩
        rcases hgiven with hquery | h | h
        · exact .inr (.inl ⟨hquery, caller, hcaller, rfl⟩)
        · exact .inl h
        · exact .inr (.inr h)
      · exact ⟨hport h, fun _ => Text.strip_strip _⟩
      · exact ⟨hregistry h, fun _ => Text.strip_strip _⟩
    have hhanded := mem_assemblyOwned.mpr hwritten.1
    exact ⟨hhanded, (hfinds r hr hhanded).mpr hwritten.2⟩

/-- Everything looked up is kept by the source, and found. -/
theorem lookedUp_kept_iff :
    (∀ r ∈ lookedUp settings, r ∈ kept (assemblyOwned settings) ∧
        (installedSource settings stored dereferencers recognised).Finds printable r) ↔
      CallersLoaded settings Text.strip fun _ => True := by
  constructor
  · intro hall hserved caller hcaller
    have hkept := (hall _ (mem_lookedUp.mpr (.inl ⟨hserved, caller, hcaller, rfl⟩))).1
    refine ⟨?_, fun _ => strip_of_mem_kept hkept⟩
    obtain ⟨-, reference, hreference, hstrip⟩ := mem_kept.mp hkept
    -- What is kept is the stripped spelling of something that was handed over.
    rcases mem_assemblyOwned.mp hreference with ⟨h, rfl⟩ | ⟨hquery, -⟩ | ⟨h, rfl⟩
    · exact .inr (.inl ⟨h, hstrip.symm⟩)
    · exact .inl hquery
    · exact .inr (.inr ⟨h, hstrip.symm⟩)
  · intro hcallers r hr
    -- The port's and the registry's own references are kept as they are looked up.
    have hkept : r ∈ kept (assemblyOwned settings) := by
      refine mem_kept.mpr ⟨ne_of_mem_lookedUp R hvalid hr, ?_⟩
      rcases mem_lookedUp.mp hr with ⟨hserved, caller, hcaller, rfl⟩ | ⟨h, rfl⟩ | ⟨h, rfl⟩
      · obtain ⟨hgiven, hstrip⟩ := hcallers hserved caller hcaller
        rcases hgiven with hquery | ⟨h, hspelled⟩ | ⟨h, hspelled⟩
        · exact ⟨_, mem_assemblyOwned.mpr (.inr (.inl ⟨hquery, caller, hcaller, rfl⟩)),
            hstrip trivial⟩
        · exact ⟨_, mem_assemblyOwned.mpr (.inl ⟨h, rfl⟩), hspelled.symm⟩
        · exact ⟨_, mem_assemblyOwned.mpr (.inr (.inr ⟨h, rfl⟩)), hspelled.symm⟩
      · exact ⟨_, mem_assemblyOwned.mpr (.inl ⟨h, rfl⟩), rfl⟩
      · exact ⟨_, mem_assemblyOwned.mpr (.inr (.inr ⟨h, rfl⟩)), rfl⟩
    exact ⟨hkept, finds_of_mem_kept stored dereferencers recognised hkept⟩

/-- **When everything an enabled surface looks up is loaded.** As it is handed over, in the very
spelling: the callers' references are loaded, and the port's and the registry's are written
without blanks around them. As the source keeps what it is handed: the callers alone decide. -/
theorem lookedUp_loaded_iff :
    ((∀ r ∈ lookedUp settings, r ∈ assemblyOwned settings ∧
        (installedSource settings stored dereferencers recognised).Finds printable r) ↔
      CallersLoaded settings id
          ((installedSource settings stored dereferencers recognised).Obtains printable) ∧
        (portConfigured settings = true →
          Written settings (Text.strip settings.productPortApiKeyRef)) ∧
        (settings.productContractRegistryEnabled = true →
          Written settings (Text.strip settings.productContractRegistryApiKeyRef))) ∧
    ((∀ r ∈ lookedUp settings, r ∈ kept (assemblyOwned settings) ∧
        (installedSource settings stored dereferencers recognised).Finds printable r) ↔
      CallersLoaded settings Text.strip fun _ => True) :=
  ⟨lookedUp_handed_iff stored dereferencers recognised hvalid,
    lookedUp_kept_iff stored dereferencers recognised hvalid⟩

end Installed

/-! ### A caller of the product surface -/

/-- A caller that may query and provision. -/
def erpCaller (apiKeyRef : String) (h : apiKeyRef ≠ "") : ProductQueryCaller where
  application := "dotmac_erp"
  apiKeyRef := apiKeyRef
  scopes := ["integration:query", "integration:provision"]
  bindingIds := [1]
  application_ne := by decide
  application_chars := by simp
  apiKeyRef_ne := h
  scopes_ne := by decide
  bindingIds_ne := by decide

/-- A deployment that serves one caller. -/
def callerSettings (queryEnabled : Bool) (caller : ProductQueryCaller) : Settings where
  productQueryEnabled := queryEnabled
  productProvisionEnabled := true
  productQueryCallers := [caller]
  productContractRegistryEnabled := true
  productContractRegistryUrl := "https://registry.example/contracts"
  productContractRegistryExpectedDigest :=
    "0123456789abcdef0123456789abcdef0123456789abcdef0123456789abcdef"
  productContractRegistryApiKeyRef := "env://INTEGRATOR_SECRET_REGISTRY"

/-- Queries and provisioning are served. -/
def queryAndProvision : Settings :=
  callerSettings true (erpCaller "env://INTEGRATOR_SECRET_ERP" (by decide))

/-- Provisioning alone is served. -/
def provisionOnly : Settings :=
  callerSettings false (erpCaller "env://INTEGRATOR_SECRET_ERP" (by decide))

/-- The caller's reference is configured with a blank behind it. -/
def blankBehind : Settings :=
  callerSettings true (erpCaller "env://INTEGRATOR_SECRET_ERP " (by decide))

/-- An environment that holds a key under every name. -/
def environmentKeys : Dict String Dereferencer := [("env", fun _ => .ok "caller-key")]

/-- Hosts are not looked at. -/
def anyHosts : Url.HostRules := ⟨fun _ => true, fun _ => true⟩

theorem lookedUp_loaded_iff_queryAndProvision :
    "env://INTEGRATOR_SECRET_ERP" ∈ assemblyOwned queryAndProvision ∧
      (installedSource queryAndProvision none environmentKeys ["env", "file"]).Finds
        (fun _ => true) "env://INTEGRATOR_SECRET_ERP" := by
  refine (@lookedUp_loaded_iff (fun _ => true) _ none environmentKeys ["env", "file"] anyHosts
    (by decide +kernel)).1.mpr ⟨?_, ?_, ?_⟩ _ (by decide +kernel)
  · intro _ caller hcaller
    obtain rfl := List.mem_singleton.mp hcaller
    exact ⟨.inl rfl, fun _ => by decide +kernel⟩
  · intro h
    exact absurd h (by decide)
  · intro _
    exact .inr (.inr ⟨rfl, by decide +kernel⟩)

/-- With provisioning alone the caller's reference is not handed over; with a blank behind it, it
is handed over, dereferenced and not found. -/
theorem caller_not_loaded :
    (validateSettings anyHosts (fun _ => true) provisionOnly = [] ∧
      "env://INTEGRATOR_SECRET_ERP" ∈ lookedUp provisionOnly ∧
      "env://INTEGRATOR_SECRET_ERP" ∉ assemblyOwned provisionOnly ∧
      "env://INTEGRATOR_SECRET_ERP" ∉ kept (assemblyOwned provisionOnly)) ∧
    validateSettings anyHosts (fun _ => true) blankBehind = [] ∧
      "env://INTEGRATOR_SECRET_ERP " ∈ lookedUp blankBehind ∧
      ¬ (installedSource blankBehind none environmentKeys ["env", "file"]).Finds (fun _ => true)
        "env://INTEGRATOR_SECRET_ERP " := by
  refine ⟨⟨?_, ?_, ?_, ?_⟩, ?_, ?_, ?_⟩
  iterate 6 decide +kernel
  rw [finds_iff none environmentKeys ["env", "file"] (by decide) (by decide +kernel)]
  intro hstrip
  -- The load succeeds: it has two references, and the environment answers both.
  refine absurd (hstrip ⟨load_isOk fun r hr => ?_, "caller-key", by decide +kernel⟩)
    (by decide +kernel)
  have hmem : r ∈ storedReferences none ++ kept (assemblyOwned blankBehind) :=
    Text.mem_sorted.mp hr
  have hlist : storedReferences none ++ kept (assemblyOwned blankBehind) =
      ["env://INTEGRATOR_SECRET_ERP", "env://INTEGRATOR_SECRET_REGISTRY"] := by decide +kernel
  rw [hlist, List.mem_cons, List.mem_singleton] at hmem
  rcases hmem with rfl | rfl
  · decide +kernel
  · decide +kernel

end DotmacIntegrator.Secrets
