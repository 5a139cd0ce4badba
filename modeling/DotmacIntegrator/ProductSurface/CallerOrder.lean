import DotmacIntegrator.ProductSurface.Authentication
import DotmacIntegrator.Secrets.Loading

/-!
# The order of the callers

The last caller whose material was presented is taken. Accepted callers have different references,
but two references may hold the same material, and then it is the order of the callers that decides
whose scopes the key has.

## Main definitions

* `Presents`: the callers whose material was presented
* `OrderIndependent`: the order of the callers makes no difference

## Main results

* `authenticate_eq_of_ascii`: the last of the callers who present the key is taken
* `orderIndependent_iff`: when the order makes no difference
-/

namespace DotmacIntegrator.ProductSurface

open DotmacIntegrator.Configuration
open DotmacIntegrator.Secrets

/-- The material held for the caller was presented. -/
def Presents (held : Held) (presented : String) (caller : ProductQueryCaller) : Prop :=
  held.get? caller.apiKeyRef = some presented

instance (held : Held) (presented : String) : DecidablePred (Presents held presented) :=
  fun caller => inferInstanceAs (Decidable (held.get? caller.apiKeyRef = some presented))

/-- Every order of the callers gives the same result; a principal is that of a caller who presents
the key and has the scope; and only where there is none is the key refused. -/
structure OrderIndependent (callers : List ProductQueryCaller) (held : Held)
    (presented requiredScope : String) : Prop where
  permuted : ∀ callers', callers'.Perm callers →
    authenticate callers' held presented requiredScope =
      authenticate callers held presented requiredScope
  sound : ∀ found, authenticate callers held presented requiredScope = .ok found →
    ∃ caller, Grants callers held presented requiredScope caller ∧ found = principal caller
  complete : ∀ e, authenticate callers held presented requiredScope = .error e →
    ¬ ∃ caller, Grants callers held presented requiredScope caller

variable {callers callers' : List ProductQueryCaller} {held : Held}
  {presented requiredScope : String}

/-- The key, and the material of the callers, are ASCII. -/
structure Ascii (callers : List ProductQueryCaller) (held : Held) (presented : String) :
    Prop where
  presented : Text.isAscii presented = true
  material : ∀ caller ∈ callers, ∀ material, held.get? caller.apiKeyRef = some material →
    Text.isAscii material = true

theorem Ascii.perm (h : Ascii callers held presented) (hperm : callers'.Perm callers) :
    Ascii callers' held presented :=
  ⟨h.presented, fun caller hmem => h.material caller (hperm.mem_iff.mp hmem)⟩

theorem Ascii.tail {caller : ProductQueryCaller} (h : Ascii (caller :: callers) held presented) :
    Ascii callers held presented :=
  ⟨h.presented, fun other hmem => h.material other (.tail _ hmem)⟩

/-! ### The last caller -/

/-- One comparison of ASCII texts: the caller is taken if it presents the key. -/
theorem compared_of_ascii {caller : ProductQueryCaller}
    (h : Ascii (caller :: callers) held presented) (matched : Option ProductQueryCaller) :
    compared held presented matched caller =
      .ok (if Presents held presented caller then some caller else matched) := by
  cases hheld : held.get? caller.apiKeyRef with
  | none => simp [compared, Presents, hheld]
  | some material =>
    have hmaterial := h.material caller (.head _) material hheld
    have hcompare : Text.compareDigest presented material = some (presented == material) := by
      simp [Text.compareDigest, h.presented, hmaterial]
    simp only [compared, Presents, hheld, hcompare, Option.some.injEq, beq_iff_eq]
    by_cases hsame : material = presented
    · rw [if_pos hsame.symm, if_pos hsame]
    · rw [if_neg (Ne.symm hsame), if_neg hsame]

/-- The loop takes the last caller who presents the key. -/
theorem foldlM_compared (h : Ascii callers held presented) (matched : Option ProductQueryCaller) :
    callers.foldlM (compared held presented) matched =
      .ok ((callers.filter (Presents held presented)).getLast?.or matched) := by
  induction callers generalizing matched with
  | nil => rfl
  | cons caller callers ih =>
    rw [List.foldlM_cons, compared_of_ascii h, Except.ok_bind, ih h.tail]
    by_cases hcaller : Presents held presented caller
    · rw [if_pos hcaller, List.filter_cons_of_pos (by simpa using hcaller), List.getLast?_cons]
      cases (callers.filter (Presents held presented)).getLast? <;> rfl
    · rw [if_neg hcaller, List.filter_cons_of_neg (by simpa using hcaller)]

theorem authenticate_eq_of_ascii (h : Ascii callers held presented) :
    authenticate callers held presented requiredScope =
      match (callers.filter (Presents held presented)).getLast? with
      | none => .error .productAuthenticationFailed
      | some caller =>
        if requiredScope ∈ caller.scopes then .ok (principal caller)
        else .error .productAuthenticationFailed := by
  rw [authenticate, foldlM_compared h, Option.or_none]
  rfl

/-! ### One caller who presents the key, or several -/

/-- Any caller who presents the key is the last of them in some order. -/
theorem exists_perm_last {caller : ProductQueryCaller} (hmem : caller ∈ callers)
    (h : Presents held presented caller) :
    ∃ callers' : List ProductQueryCaller, callers'.Perm callers ∧
      (callers'.filter (Presents held presented)).getLast? = some caller := by
  obtain ⟨front, behind, rfl⟩ := List.append_of_mem hmem
  refine ⟨front ++ behind ++ [caller], ?_, ?_⟩
  · rw [List.append_assoc]
    exact List.perm_append_comm.append_left front
  · rw [List.filter_append, List.filter_cons_of_pos (by simpa using h), List.filter_nil,
      List.getLast?_append, List.getLast?_singleton, Option.some_or]

/-- A caller who has the scope, and alone presents the key, is the one it belongs to. -/
theorem authenticate_of_only (hascii : Ascii callers held presented) {caller : ProductQueryCaller}
    (hgrants : Grants callers held presented requiredScope caller)
    (honly : ∀ other ∈ callers, Presents held presented other → other = caller) :
    authenticate callers held presented requiredScope = .ok (principal caller) := by
  rw [authenticate_eq_of_ascii hascii]
  have hmem : caller ∈ callers.filter (Presents held presented) :=
    List.mem_filter.mpr ⟨hgrants.mem, decide_eq_true hgrants.held⟩
  cases hlast : (callers.filter (Presents held presented)).getLast? with
  | none =>
    rw [List.getLast?_eq_none_iff.mp hlast] at hmem
    cases hmem
  | some last =>
    obtain ⟨hlastMem, hpresents⟩ := List.mem_filter.mp (List.mem_of_getLast? hlast)
    obtain rfl := honly last hlastMem (of_decide_eq_true hpresents)
    exact if_pos hgrants.scope

/-- Without a caller who presents the key and has the scope, it is refused. -/
theorem authenticate_of_none (hascii : Ascii callers held presented)
    (hnone : ¬ ∃ caller, Grants callers held presented requiredScope caller) :
    authenticate callers held presented requiredScope = .error .productAuthenticationFailed := by
  rw [authenticate_eq_of_ascii hascii]
  cases hlast : (callers.filter (Presents held presented)).getLast? with
  | none => rfl
  | some last =>
    obtain ⟨hmem, hpresents⟩ := List.mem_filter.mp (List.mem_of_getLast? hlast)
    exact if_neg fun hscope => hnone ⟨last, hmem, of_decide_eq_true hpresents, hscope⟩

theorem Grants.perm {caller : ProductQueryCaller} (hperm : callers'.Perm callers) :
    Grants callers' held presented requiredScope caller ↔
      Grants callers held presented requiredScope caller :=
  ⟨fun h => ⟨hperm.mem_iff.mp h.mem, h.held, h.scope⟩,
    fun h => ⟨hperm.mem_iff.mpr h.mem, h.held, h.scope⟩⟩

/-- A key that one caller alone presents, where the caller has the scope, belongs to it in every
order. -/
theorem orderIndependent_of_only (hascii : Ascii callers held presented)
    (honly : ∀ caller, Grants callers held presented requiredScope caller →
      ∀ other ∈ callers, Presents held presented other → other = caller) :
    OrderIndependent callers held presented requiredScope := by
  by_cases hgrants : ∃ caller, Grants callers held presented requiredScope caller
  · obtain ⟨caller, hcaller⟩ := hgrants
    have hsame := authenticate_of_only hascii hcaller (honly caller hcaller)
    refine ⟨?_, fun found => grants_of_authenticate, ?_⟩
    · intro callers' hperm
      rw [hsame]
      apply authenticate_of_only (hascii.perm hperm) ((Grants.perm hperm).mpr hcaller)
      exact fun other hother => honly caller hcaller other (hperm.mem_iff.mp hother)
    · intro e he
      rw [hsame] at he
      cases he
  · have hsame := authenticate_of_none hascii hgrants
    refine ⟨?_, fun found => grants_of_authenticate, fun _ _ => hgrants⟩
    intro callers' hperm
    rw [hsame]
    apply authenticate_of_none (hascii.perm hperm)
    rintro ⟨caller, hcaller⟩
    exact hgrants ⟨caller, (Grants.perm hperm).mp hcaller⟩

/-- Of two callers who present the key the order chooses one. -/
theorem eq_of_orderIndependent (hascii : Ascii callers held presented)
    (happlications : (callers.map ProductQueryCaller.application).Nodup)
    (h : OrderIndependent callers held presented requiredScope) {caller other : ProductQueryCaller}
    (hgrants : Grants callers held presented requiredScope caller) (hmem : other ∈ callers)
    (hpresents : Presents held presented other) : other = caller := by
  -- With the one last it is granted, and so it is with the other last.
  obtain ⟨first, hfirst, hlast⟩ := exists_perm_last hgrants.mem hgrants.held
  obtain ⟨second, hsecond, hother⟩ := exists_perm_last hmem hpresents
  have hsame := (h.permuted first hfirst).trans (h.permuted second hsecond).symm
  simp only [authenticate_eq_of_ascii (hascii.perm hfirst),
    authenticate_eq_of_ascii (hascii.perm hsecond), hlast, hother, if_pos hgrants.scope] at hsame
  split_ifs at hsame
  have happlication := congrArg ProductPrincipal.application (Except.ok.inj hsame)
  exact (List.inj_on_of_nodup_map happlications hgrants.mem hmem happlication).symm

theorem nodup_applications {settings : Settings} (h : callerProblems settings = []) :
    (settings.productQueryCallers.map ProductQueryCaller.application).Nodup := by
  simp only [callerProblems, List.append_eq_nil_iff, problemIf_eq_nil_iff] at h
  simpa using h.1.1.2

/-- **The order of accepted callers makes no difference iff no key is ambiguous**: a caller who
presents the key and has the scope is the only one who presents it. -/
theorem orderIndependent_iff {R : Url.HostRules} {printable : Char → Bool} (settings : Settings)
    (hvalid : validateSettings R printable settings = []) (held : Held)
    (presented requiredScope : String)
    (hascii : Ascii settings.productQueryCallers held presented) :
    OrderIndependent settings.productQueryCallers held presented requiredScope ↔
      ∀ caller, Grants settings.productQueryCallers held presented requiredScope caller →
        ∀ other ∈ settings.productQueryCallers, Presents held presented other → other = caller := by
  refine ⟨?_, orderIndependent_of_only hascii⟩
  intro h caller hgrants other
  exact eq_of_orderIndependent hascii
    (nodup_applications (validateSettings_eq_nil_iff.mp hvalid).1) h hgrants

/-! ### Two callers -/

theorem queryReference_ne : "env://INTEGRATOR_SECRET_ERP" ≠ "" := by decide

/-- A caller that may query. -/
def queryCaller : ProductQueryCaller :=
  { erpCaller "env://INTEGRATOR_SECRET_ERP" queryReference_ne with
    scopes := ["integration:query"]
    scopes_ne := by decide }

/-- Another caller, that may provision. -/
def provisionCaller : ProductQueryCaller :=
  { erpCaller "env://INTEGRATOR_SECRET_BILLING" (by decide) with
    application := "dotmac_billing"
    scopes := ["integration:provision"]
    bindingIds := [2]
    application_ne := by decide
    application_chars := by simp
    scopes_ne := by decide
    bindingIds_ne := by decide }

/-- A deployment that serves the two. -/
def twoCallers : Settings :=
  { queryAndProvision with productQueryCallers := [queryCaller, provisionCaller] }

/-- The material of the two. -/
def keysOf (query provision : String) : Held :=
  [("env://INTEGRATOR_SECRET_ERP", query), ("env://INTEGRATOR_SECRET_BILLING", provision)]

@[simp] theorem held_queryCaller (query provision : String) :
    (keysOf query provision).get? queryCaller.apiKeyRef = some query := by
  simp [keysOf, queryCaller, erpCaller]

@[simp] theorem held_provisionCaller (query provision : String) :
    (keysOf query provision).get? provisionCaller.apiKeyRef = some provision := by
  simp [keysOf, provisionCaller, erpCaller, Dict.get?]

theorem ascii_twoCallers {query provision presented : String}
    (hquery : Text.isAscii query = true) (hprovision : Text.isAscii provision = true)
    (hpresented : Text.isAscii presented = true) :
    Ascii twoCallers.productQueryCallers (keysOf query provision) presented := by
  refine ⟨hpresented, ?_⟩
  intro caller hmem material hheld
  rcases List.mem_pair.mp hmem with rfl | rfl
  · rw [held_queryCaller] at hheld
    exact Option.some.inj hheld ▸ hquery
  · rw [held_provisionCaller] at hheld
    exact Option.some.inj hheld ▸ hprovision

/-- With a key for each, the key of the one belongs to it alone. -/
theorem eq_queryCaller {caller : ProductQueryCaller}
    (hmem : caller ∈ twoCallers.productQueryCallers)
    (h : Presents (keysOf "erp-key" "billing-key") "erp-key" caller) : caller = queryCaller := by
  rcases List.mem_pair.mp hmem with rfl | rfl
  · rfl
  · rw [Presents, held_provisionCaller] at h
    exact absurd h (by decide)

theorem orderIndependent_iff_twoCallers :
    OrderIndependent twoCallers.productQueryCallers (keysOf "erp-key" "billing-key") "erp-key"
      "integration:query" := by
  refine (@orderIndependent_iff anyHosts (fun _ => true) twoCallers (by decide +kernel) _ _ _
    (ascii_twoCallers (by decide) (by decide) (by decide))).mpr ?_
  intro caller hgrants other hmem hpresents
  rw [eq_queryCaller hgrants.mem hgrants.held, eq_queryCaller hmem hpresents]

/-- With one key for both, the second takes it, and the first is refused what it may do. -/
theorem sharedKey_not_orderIndependent :
    validateSettings anyHosts (fun _ => true) twoCallers = [] ∧
      Ascii twoCallers.productQueryCallers (keysOf "shared-key" "shared-key") "shared-key" ∧
      ¬ OrderIndependent twoCallers.productQueryCallers (keysOf "shared-key" "shared-key")
        "shared-key" "integration:query" := by
  have hascii : Ascii twoCallers.productQueryCallers (keysOf "shared-key" "shared-key")
      "shared-key" := ascii_twoCallers (by decide) (by decide) (by decide)
  refine ⟨by decide +kernel, hascii, ?_⟩
  intro h
  have hsame := eq_of_orderIndependent hascii (by decide) h
    ⟨List.mem_pair.mpr (.inl rfl), held_queryCaller _ _, by decide⟩
    (List.mem_pair.mpr (.inr rfl)) (held_provisionCaller _ _)
  have happlication := congrArg ProductQueryCaller.application hsame
  exact absurd happlication (by decide)

end DotmacIntegrator.ProductSurface
