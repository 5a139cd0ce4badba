import DotmacIntegrator.Foundation.Process
import DotmacIntegrator.Secrets.Resolver

/-!
# Lookups that a refresh races

What is held is one mapping, which a refresh replaces. A request looks up one reference after the
other, twice for each, so that a refresh may land between any two of its lookups. Nevertheless it
goes on with the whole of what it asked for, or with nothing.

## Main definitions

* `Lookups`: what looks references up, one by one
* `Lookups.missingReferences`, `Lookups.resolveSecrets`: the two passes, lookup by lookup
* `ResolvedAs`: how a resolution stands behind its lookups
* `lookupSystem`: how resolutions interleave with refreshes

## Main results

* `comesTo_resolveSecrets`: where nothing is replaced, secrets are resolved as from one mapping
* `resolves_whole`: whatever is replaced, they are resolved as a whole
-/

namespace DotmacIntegrator.Secrets

open Process (Performed perform)

/-- What looks references up, one by one. -/
abbrev Lookups (α : Type) := Process String (fun _ => Option String) α

/-- A lookup, with its answer. -/
abbrev LookedUp := Performed (fun _ : String => Option String)

namespace Lookups

/-- `get_secret`. -/
def getSecret (reference : String) : Lookups (Option String) := perform reference

/-- `missing_references`. -/
def missingReferences : Dict String String → Lookups (Dict String String)
  | [] => pure []
  | (name, reference) :: refs => do
    let value ← getSecret reference
    let missing ← missingReferences refs
    return if value.isNone then (name, reference) :: missing else missing

/-- The second pass of `resolve_secrets`. -/
def resolving (resolved : Dict String String) :
    Dict String String → ExceptT SecretsNotHeld (Process String fun _ => Option String)
      (Dict String String)
  | [] => pure resolved
  | (name, reference) :: refs => do
    match ← ExceptT.lift (getSecret reference) with
    | none => throw ⟨[(name, reference)]⟩
    | some value => resolving (resolved.set name value) refs

/-- `resolve_secrets`. -/
def resolveSecrets (refs : Dict String String) :
    ExceptT SecretsNotHeld (Process String fun _ => Option String) (Dict String String) := do
  let absent ← ExceptT.lift (missingReferences refs)
  if absent ≠ [] then throw ⟨absent⟩ else resolving [] refs

end Lookups

/-- A value that was there when its reference was looked up, under the name of that reference. -/
def Given (log : List LookedUp) (p q : String × String) : Prop :=
  q.1 = p.1 ∧ ⟨p.2, some q.2⟩ ∈ log

/-- A reference that was not there when it was looked up. -/
def Absent (refs : Dict String String) (log : List LookedUp) (p : String × String) : Prop :=
  p ∈ refs ∧ ⟨p.2, none⟩ ∈ log

/-- How a resolution stands behind its lookups: it is under way, it was refused for references of
which none was there, or it gives a value for each name, in order, all of which were there. -/
inductive ResolvedAs (refs : Dict String String) (log : List LookedUp) :
    Option (Except SecretsNotHeld (Dict String String)) → Prop
  | going : ResolvedAs refs log none
  | refused (missing : Dict String String) (hne : missing ≠ [])
    (h : ∀ p ∈ missing, Absent refs log p) : ResolvedAs refs log (some (.error ⟨missing⟩))
  | resolved (values : Dict String String) (h : List.Forall₂ (Given log) refs values) :
    ResolvedAs refs log (some (.ok values))

/-- A lookup that was answered from a mapping. -/
def FromHeld (held : Held) (x : LookedUp) : Prop := x.2 = held.get? x.1

variable {held : Held} {refs resolved : Dict String String}

/-! ### One mapping -/

theorem comesTo_getSecret (reference : String) :
    (Lookups.getSecret reference).ComesTo (FromHeld held) (held.get? reference) := by
  refine Process.comesTo_act fun given hgiven => ?_
  obtain rfl : given = held.get? reference := hgiven
  exact Process.comesTo_pure

/-- Where nothing is replaced, the first pass finds what is missing. -/
theorem comesTo_missingReferences :
    (Lookups.missingReferences refs).ComesTo (FromHeld held) (missingReferences held refs) := by
  induction refs with
  | nil => exact Process.comesTo_pure
  | cons p refs ih =>
    obtain ⟨name, reference⟩ := p
    refine (comesTo_getSecret reference).bind (ih.bind ?_)
    have hcons : missingReferences held ((name, reference) :: refs) =
        if (held.get? reference).isNone then (name, reference) :: missingReferences held refs
        else missingReferences held refs := List.filter_cons
    rw [hcons]
    exact Process.comesTo_pure

/-- And the second pass finds every value. -/
theorem comesTo_resolving (hkeys : (Dict.keys (resolved ++ refs)).Nodup)
    (hheld : ∀ p ∈ refs, (held.get? p.2).isSome) :
    (Lookups.resolving resolved refs).run.ComesTo (FromHeld held)
      (.ok (resolved ++ refs.filterMap fun p => (held.get? p.2).map fun v => (p.1, v))) := by
  induction refs generalizing resolved with
  | nil =>
    rw [List.filterMap_nil, List.append_nil]
    exact Process.comesTo_pure
  | cons p refs ih =>
    obtain ⟨name, reference⟩ := p
    rw [List.forall_mem_cons] at hheld
    obtain ⟨value, hvalue⟩ := Option.isSome_iff_exists.mp hheld.1
    have hname : name ∉ Dict.keys resolved := by
      rw [Dict.keys_append, Dict.keys_cons] at hkeys
      exact fun hmem => (List.nodup_append.mp hkeys).2.2 _ hmem _ List.mem_cons_self rfl
    have hrest := @ih (resolved ++ [(name, value)]) (by simpa using hkeys) hheld.2
    refine Process.comesTo_act fun given hgiven => ?_
    obtain rfl : given = some value := Eq.trans hgiven hvalue
    rw [List.filterMap_cons, hvalue]
    rw [List.append_assoc, ← Dict.set_of_notMem hname] at hrest
    exact hrest

/-- **Where nothing is replaced, secrets are resolved as from one mapping.** -/
theorem comesTo_resolveSecrets (hkeys : (Dict.keys refs).Nodup) :
    (Lookups.resolveSecrets refs).run.ComesTo (FromHeld held) (resolveSecrets held refs) := by
  rw [Lookups.resolveSecrets, ExceptT.run_bind_lift]
  refine comesTo_missingReferences.bind ?_
  unfold resolveSecrets
  by_cases hmissing : missingReferences held refs = []
  · rw [if_neg (not_not.mpr hmissing), if_neg (not_not.mpr hmissing)]
    exact comesTo_resolving hkeys (missingReferences_eq_nil.mp hmissing)
  · rw [if_pos hmissing, if_pos hmissing]
    exact Process.comesTo_pure

/-! ### Many mappings -/

theorem Given.mono {log log' : List LookedUp} {p q : String × String} (h : Given log p q)
    (hsub : log ⊆ log') : Given log' p q := ⟨h.1, hsub h.2⟩

theorem Absent.mono {log log' : List LookedUp} {p : String × String} (h : Absent refs log p)
    (hsub : log ⊆ log') : Absent refs log' p := ⟨h.1, hsub h.2⟩

theorem Absent.cons {log : List LookedUp} {p q : String × String} (h : Absent refs log p)
    (x : LookedUp) : Absent (q :: refs) (x :: log) p :=
  ⟨List.mem_cons_of_mem q h.1, List.mem_cons_of_mem x h.2⟩

/-- What the first pass finds missing was not there. -/
theorem upholds_missingReferences : (Lookups.missingReferences refs).Upholds
    fun log r => ∀ missing, r = some missing → ∀ p ∈ missing, Absent refs log p := by
  induction refs with
  | nil =>
    rintro _ ⟨⟩
    exact List.forall_mem_nil _
  | cons p refs ih =>
    obtain ⟨name, reference⟩ := p
    refine Process.upholds_perform_bind nofun fun value => ?_
    refine Process.upholds_bind (ih.mono fun log r hlog => ⟨?_, ?_⟩)
    · rintro - _ ⟨⟩
    · rintro missing rfl _ ⟨⟩
      have hmissing : ∀ p ∈ missing,
          Absent ((name, reference) :: refs) (⟨reference, value⟩ :: (log ++ [])) p := by
        intro p hp
        rw [List.append_nil]
        exact (hlog missing rfl p hp).cons _
      -- The first lookup decides on its own reference alone.
      split
      · next hnone =>
        obtain rfl := Option.isNone_iff_eq_none.mp hnone
        exact List.forall_mem_cons.mpr ⟨⟨List.mem_cons_self, List.mem_cons_self⟩, hmissing⟩
      · exact hmissing

/-- What the second pass gives was there, and what it refuses was not. -/
theorem upholds_resolving (hkeys : (Dict.keys (resolved ++ refs)).Nodup) :
    (Lookups.resolving resolved refs).run.Upholds fun log r =>
      (∀ e, r = some (.error e) → ∃ p, e = ⟨[p]⟩ ∧ Absent refs log p) ∧
      ∀ found, r = some (.ok found) →
        ∃ values, found = resolved ++ values ∧ List.Forall₂ (Given log) refs values := by
  induction refs generalizing resolved with
  | nil =>
    refine ⟨nofun, ?_⟩
    rintro _ ⟨⟩
    exact ⟨[], (List.append_nil _).symm, .nil⟩
  | cons p refs ih =>
    obtain ⟨name, reference⟩ := p
    have hname : name ∉ Dict.keys resolved := by
      rw [Dict.keys_append, Dict.keys_cons] at hkeys
      exact fun hmem => (List.nodup_append.mp hkeys).2.2 _ hmem _ List.mem_cons_self rfl
    refine ⟨⟨nofun, nofun⟩, fun value => ?_⟩
    cases value with
    | none =>
      refine ⟨?_, nofun⟩
      rintro _ ⟨⟩
      exact ⟨_, rfl, List.mem_cons_self, List.mem_cons_self⟩
    | some value =>
      -- The name is a new one, so that what it resolves to is put at the end.
      have hrest := @ih (resolved ++ [(name, value)]) (by simpa using hkeys)
      rw [← Dict.set_of_notMem hname] at hrest
      refine hrest.mono fun log r hlog => ⟨fun e he => ?_, fun found hfound => ?_⟩
      · obtain ⟨p, rfl, habsent⟩ := hlog.1 e he
        exact ⟨p, rfl, habsent.cons _⟩
      · obtain ⟨values, rfl, hvalues⟩ := hlog.2 found hfound
        refine ⟨(name, value) :: values, ?_, .cons ⟨rfl, List.mem_cons_self⟩ ?_⟩
        · rw [Dict.set_of_notMem hname, List.append_assoc]
          rfl
        · exact hvalues.imp fun p q h => h.mono (List.subset_cons_self _ _)

/-- Whatever each lookup is answered, secrets are resolved as a whole. -/
theorem upholds_resolveSecrets (hkeys : (Dict.keys refs).Nodup) :
    (Lookups.resolveSecrets refs).run.Upholds (ResolvedAs refs) := by
  rw [Lookups.resolveSecrets, ExceptT.run_bind_lift]
  refine Process.upholds_bind (upholds_missingReferences.mono fun log r hlog => ⟨?_, ?_⟩)
  · rintro -
    exact .going
  · rintro absent rfl
    split
    · next hne =>
      show ResolvedAs refs (log ++ []) (some (.error ⟨absent⟩))
      rw [List.append_nil]
      exact .refused absent hne (hlog absent rfl)
    -- The first pass found every reference; behind a refresh the second one may miss one.
    · refine (@upholds_resolving refs [] hkeys).mono fun log' r' hlog' => ?_
      match r', hlog' with
      | none, _ => exact .going
      | some (.error e), h =>
        obtain ⟨p, rfl, habsent⟩ := h.1 e rfl
        refine .refused [p] (List.cons_ne_nil _ _) (List.forall_mem_singleton.mpr ?_)
        exact habsent.mono (List.subset_append_right _ _)
      | some (.ok found), h =>
        obtain ⟨values, hfound, hvalues⟩ := h.2 found rfl
        obtain rfl : found = values := hfound
        exact .resolved found (hvalues.imp fun p q h => h.mono (List.subset_append_right _ _))

/-! ### Refreshes -/

/-- Resolutions, of references under distinct names, interleave with each other and with refreshes,
which replace what is held by anything. -/
def lookupRules : Threads.Rules Held String (fun _ => Option String)
    (Except SecretsNotHeld (Dict String String)) where
  starts p := ∃ refs, (Dict.keys refs).Nodup ∧ p = (Lookups.resolveSecrets refs).run
  handles reference held a held' := a = held.get? reference ∧ held' = held
  surroundings _ _ := True

/-- The resolutions of a process, whatever it holds at first. -/
def lookupSystem : StepSystem (Threads Held String (fun _ => Option String)
    (Except SecretsNotHeld (Dict String String))) Threads.Event :=
  Threads.system lookupRules fun _ => True

/-- **Secrets are resolved as a whole**, however resolutions and refreshes interleave: each gives a
value for every name or none at all; every lookup of it is a step of the run, answered with what was
held under the reference in that step. So every value was held, and what is refused was not. -/
theorem resolves_whole {steps : List (Threads Held String (fun _ => Option String)
      (Except SecretsNotHeld (Dict String String)) × Threads.Event)}
    {c : Threads Held String (fun _ => Option String) (Except SecretsNotHeld (Dict String String))}
    (h : lookupSystem.Run steps c) :
    ∀ t ∈ c.threads, ∃ refs, t.program = (Lookups.resolveSecrets refs).run ∧
      ResolvedAs refs t.log t.now.result ∧ Threads.Happened lookupRules steps c t := by
  intro t ht
  obtain ⟨refs, hkeys, hprogram⟩ := Threads.starts_program h.reachable t ht
  refine ⟨refs, hprogram, ?_, Threads.happened h t⟩
  exact (upholds_resolveSecrets hkeys).of_goes (hprogram ▸ t.goes)

/-! ### A refresh between the passes -/

/-- One reference. -/
def someRefs : Dict String String := [("token", "env://INTEGRATOR_SECRET_ERP")]

/-- Its resolution, behind the first pass. -/
def passedOnce : Thread String (fun _ => Option String)
    (Except SecretsNotHeld (Dict String String)) :=
  (Thread.start (Lookups.resolveSecrets someRefs).run).behind rfl (some "provider-key")

/-- Its resolution, behind both. -/
def refusedThen : Thread String (fun _ => Option String)
    (Except SecretsNotHeld (Dict String String)) :=
  passedOnce.behind rfl none

/-- What is held is dropped between the two lookups. -/
theorem reachable_raced : lookupSystem.Reachable ⟨[], [refusedThen]⟩ := by
  have hstarts : lookupRules.starts (Lookups.resolveSecrets someRefs).run :=
    ⟨someRefs, by decide, rfl⟩
  let held : Held := [("env://INTEGRATOR_SECRET_ERP", "provider-key")]
  have hfirst : lookupSystem.step ⟨held, [Thread.start (Lookups.resolveSecrets someRefs).run]⟩ .act
      ⟨held, [passedOnce]⟩ :=
    @Threads.Step.act _ _ _ _ lookupRules held held [] [] _ _ _ _ rfl ⟨rfl, rfl⟩
  have hrefresh : lookupSystem.step ⟨held, [passedOnce]⟩ .surroundings ⟨[], [passedOnce]⟩ :=
    .surroundings trivial
  have hsecond : lookupSystem.step ⟨[], [passedOnce]⟩ .act ⟨[], [refusedThen]⟩ :=
    @Threads.Step.act _ _ _ _ lookupRules [] [] [] [] _ _ _ _ rfl ⟨rfl, rfl⟩
  refine ⟨⟨held, []⟩, ⟨trivial, rfl⟩, ?_⟩
  have hstart : lookupSystem.step ⟨held, []⟩ .start
      ⟨held, [Thread.start (Lookups.resolveSecrets someRefs).run]⟩ := .start hstarts
  exact ((StepSystem.Leads.single hstart).snoc hfirst).snoc hrefresh |>.snoc hsecond

theorem resolves_whole_raced : ∃ steps refs,
    lookupSystem.Run steps ⟨[], [refusedThen]⟩ ∧
      refusedThen.program = (Lookups.resolveSecrets refs).run ∧
      ResolvedAs refs refusedThen.log refusedThen.now.result ∧
      Threads.Happened lookupRules steps ⟨[], [refusedThen]⟩ refusedThen := by
  obtain ⟨steps, hrun⟩ := reachable_raced.exists_run
  obtain ⟨refs, hraced⟩ := resolves_whole hrun refusedThen (List.mem_singleton_self _)
  exact ⟨steps, refs, hrun, hraced⟩

end DotmacIntegrator.Secrets
