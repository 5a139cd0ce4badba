import DotmacIntegrator.Foundation.StepSystem
import DotmacIntegrator.Secrets.Isolation

/-!
# Installing and refreshing

What is held and what is reported of it are two variables of two packages. The end of a load
assigns the report; the kernel then replaces what is held, when the load returned. A load that
raises, wherever it does, has assigned neither.

## Main definitions

* `SecretState`: what is held, the last report, and the source the kernel holds
* `installSecrets`, `refresh`: the two operations, with what they return or raise
* `secretSystem`: their runs, over any surroundings
* `SecretState.Told`: what is reported is what is held

## Main results

* `load_told`: the report of a load tells what the load holds
* `act_eq_error`: an operation that raises leaves what is held and what is reported
* `reachable_told`: after every run, what is told is what is held
-/

namespace DotmacIntegrator.Secrets

open DotmacIntegrator.Configuration

/-- The variables of the process: the kernel's map and source, and the report of the loader. -/
structure SecretState where
  held : Held
  lastReport : SecretLoadReport
  installed : Option Settings

/-- `get_secret`. -/
def SecretState.getSecret (state : SecretState) (reference : String) : Option String :=
  state.held.get? reference

/-- What a load finds around it: the rows of the stored revisions, or why they cannot be read, and
the host. -/
structure Surroundings where
  rows : Except ReadFailure StoredRevisions
  host : Host

/-- What is left open of the kernel: whether a source whose load raised stays installed, and
whether a refresh without a source raises. -/
structure SourceKernel where
  keepsRefused : Bool
  unsourced : Option ReadFailure

variable (kernel : SourceKernel) (printable : Char → Bool) (recognised : List String)

/-- `StoredReferenceSource.load`, as an operation: once every reference was visited it assigns the
report, and it returns what is held. The enabled schemes depend on the settings alone, so that the
source of a deployment can be built wherever it could be installed. -/
def loadStored (settings : Settings) (around : Surroundings) (state : SecretState) :
    SecretState × Except ReadFailure Held :=
  match (do
    let dereferencers ← buildDereferencers around.host printable settings
    let stored ← around.rows
    (installedSource settings stored dereferencers recognised).load printable) with
  | .error failure => (state, .error failure)
  | .ok (held, report) => ({ state with lastReport := report }, .ok held)

/-- The kernel replaces what is held by what a load returns. -/
def replaceHeld (loaded : SecretState × Except ReadFailure Held) :
    SecretState × Except ReadFailure SecretLoadReport :=
  match loaded.2 with
  | .error failure => (loaded.1, .error failure)
  | .ok held => ({ loaded.1 with held := held }, .ok loaded.1.lastReport)

/-- `install_secrets`. -/
def installSecrets (settings : Settings) (around : Surroundings) (state : SecretState) :
    SecretState × Except ReadFailure SecretLoadReport :=
  match buildDereferencers around.host printable settings with
  | .error failure => (state, .error failure)
  | .ok _ =>
    let after := replaceHeld (loadStored printable recognised settings around state)
    let installed := if after.2.isOk || kernel.keepsRefused then some settings else state.installed
    ({ after.1 with installed := installed }, after.2)

/-- `refresh`. -/
def refresh (around : Surroundings) (state : SecretState) :
    SecretState × Except ReadFailure SecretLoadReport :=
  match state.installed with
  | some settings => replaceHeld (loadStored printable recognised settings around state)
  | none =>
    match kernel.unsourced with
    | some failure => (state, .error failure)
    | none => (state, .ok state.lastReport)

/-- What may happen to the process. -/
inductive SecretEvent
  | install (settings : Settings) (around : Surroundings)
  | refresh (around : Surroundings)

/-- One operation. -/
def act (state : SecretState) : SecretEvent → SecretState × Except ReadFailure SecretLoadReport
  | .install settings around => installSecrets kernel printable recognised settings around state
  | .refresh around => refresh kernel printable recognised around state

/-- Nothing is held, and the report says so. -/
def SecretState.empty : SecretState := ⟨[], ⟨[], [], false⟩, none⟩

/-- The runs of installs and refreshes. -/
def secretSystem : StepSystem SecretState SecretEvent where
  init state := state = .empty
  step state event state' := (act kernel printable recognised state event).1 = state'

/-- What is reported is what is held: the references reported as held are those that are answered,
nothing held is too short to be redacted, and nothing unresolved is held. -/
structure SecretState.Told (state : SecretState) : Prop where
  held : ∀ r, r ∈ state.lastReport.held ↔ (state.getSecret r).isSome
  redactable : ∀ r value, state.getSecret r = some value →
    minimumRedactableLength ≤ value.toList.length
  disjoint : ∀ r ∈ state.lastReport.unresolved.keys, state.getSecret r = none

variable {kernel printable recognised}

/-! ### A load -/

/-- Material that is too short is not obtained. -/
theorem length_of_dereference {source : StoredReferenceSource} {r value : String}
    (h : source.dereference printable r = .ok (.ok value)) :
    minimumRedactableLength ≤ value.toList.length := by
  unfold StoredReferenceSource.dereference at h
  split at h
  · cases h
  · split at h
    · cases h
    · split at h
      · cases h
      · split at h
        · cases h
        · cases h
        · split at h
          · cases h
          · next hlength =>
            obtain rfl := Except.ok.inj (Except.ok.inj h)
            exact not_lt.mp hlength

/-- The report of a load tells what the load holds. -/
theorem load_told {source : StoredReferenceSource} {held : Held} {report : SecretLoadReport}
    (h : source.load printable = .ok (held, report)) (installed : Option Settings) :
    SecretState.Told ⟨held, report, installed⟩ where
  held := mem_report_held h
  redactable r value hvalue := by
    have hmaterial : held.get? r = some value := hvalue
    rw [held_get? h] at hmaterial
    split_ifs at hmaterial
    exact length_of_dereference (material_eq_some.mp hmaterial)
  disjoint r hr := by
    show held.get? r = none
    by_contra hheld
    apply not_held_and_unresolved h r
    exact ⟨Dict.get?_isSome_iff.mp (Option.isSome_iff_ne_none.mpr hheld), hr⟩

/-- The source the kernel holds is no matter of what is told. -/
theorem SecretState.Told.reinstalled {state : SecretState} (h : state.Told)
    (installed : Option Settings) : SecretState.Told { state with installed := installed } :=
  ⟨h.held, h.redactable, h.disjoint⟩

/-! ### An operation -/

/-- What a load followed by its replacement comes to: both variables are those of one load, or
neither has changed. -/
theorem replaceHeld_loadStored (settings : Settings) (around : Surroundings)
    (state : SecretState) :
    (∃ failure, replaceHeld (loadStored printable recognised settings around state) =
      (state, .error failure)) ∨
    ∃ source : StoredReferenceSource, ∃ held report,
      source.load printable = .ok (held, report) ∧
      replaceHeld (loadStored printable recognised settings around state) =
        (⟨held, report, state.installed⟩, .ok report) := by
  unfold loadStored
  split
  · next failure _ => exact .inl ⟨failure, rfl⟩
  · next held report hload =>
    obtain ⟨dereferencers, -, hload⟩ := Except.bind_eq_ok.mp hload
    obtain ⟨stored, -, hload⟩ := Except.bind_eq_ok.mp hload
    exact .inr ⟨_, held, report, hload, rfl⟩

/-- What an operation comes to: it raises and leaves both variables, or both are those of one load,
or it returns without having loaded. -/
def Settles (printable : Char → Bool) (state : SecretState)
    (after : SecretState × Except ReadFailure SecretLoadReport) : Prop :=
  ∃ installed,
    (∃ failure, after = ({ state with installed := installed }, .error failure)) ∨
    (∃ source : StoredReferenceSource, ∃ held report,
      source.load printable = .ok (held, report) ∧
      after = (⟨held, report, installed⟩, .ok report)) ∨
    after = ({ state with installed := installed }, .ok state.lastReport)

theorem installSecrets_settles (settings : Settings) (around : Surroundings)
    (state : SecretState) :
    Settles printable state (installSecrets kernel printable recognised settings around state) := by
  unfold installSecrets
  split
  · next failure _ => exact ⟨state.installed, .inl ⟨failure, rfl⟩⟩
  · rcases @replaceHeld_loadStored printable recognised settings around state with
      ⟨failure, h⟩ | ⟨source, held, report, hload, h⟩
    · rw [h]
      exact ⟨_, .inl ⟨failure, rfl⟩⟩
    · rw [h]
      exact ⟨_, .inr (.inl ⟨source, held, report, hload, rfl⟩)⟩

theorem refresh_settles (around : Surroundings) (state : SecretState) :
    Settles printable state (refresh kernel printable recognised around state) := by
  unfold refresh
  split
  · next settings _ =>
    rcases @replaceHeld_loadStored printable recognised settings around state with
      ⟨failure, h⟩ | ⟨source, held, report, hload, h⟩
    · rw [h]
      exact ⟨state.installed, .inl ⟨failure, rfl⟩⟩
    · rw [h]
      exact ⟨state.installed, .inr (.inl ⟨source, held, report, hload, rfl⟩)⟩
  · refine ⟨state.installed, ?_⟩
    split
    · next failure _ => exact .inl ⟨failure, rfl⟩
    · exact .inr (.inr rfl)

theorem act_settles (state : SecretState) (event : SecretEvent) :
    Settles printable state (act kernel printable recognised state event) := by
  cases event with
  | install settings around => exact installSecrets_settles settings around state
  | refresh around => exact refresh_settles around state

/-- An operation that raises leaves what is held and what is reported. -/
theorem act_eq_error {state state' : SecretState} {event : SecretEvent} {failure : ReadFailure}
    (h : act kernel printable recognised state event = (state', .error failure)) :
    state'.held = state.held ∧ state'.lastReport = state.lastReport := by
  obtain ⟨installed, ⟨_, hact⟩ | ⟨_, _, _, _, hact⟩ | hact⟩ :=
    @act_settles kernel printable recognised state event
  · rw [hact] at h
    obtain ⟨rfl, -⟩ := Prod.mk.inj h
    exact ⟨rfl, rfl⟩
  · rw [hact] at h
    cases (Prod.mk.inj h).2
  · rw [hact] at h
    cases (Prod.mk.inj h).2

/-- One operation keeps what is told. -/
theorem act_told {state : SecretState} (h : state.Told) (event : SecretEvent) :
    (act kernel printable recognised state event).1.Told := by
  obtain ⟨installed, ⟨_, hact⟩ | ⟨_, _, _, hload, hact⟩ | hact⟩ :=
    @act_settles kernel printable recognised state event
  · rw [hact]
    exact h.reinstalled installed
  · rw [hact]
    exact load_told hload installed
  · rw [hact]
    exact h.reinstalled installed

/-! ### Runs -/

theorem told_isInductive :
    (secretSystem kernel printable recognised).IsInductive SecretState.Told where
  init := by
    rintro _ rfl
    exact ⟨fun r => iff_of_false (by simp [SecretState.empty]) nofun, nofun, nofun⟩
  step := by
    rintro state event _ h rfl
    exact act_told h event

/-- **What the operator is told is held is what is held**, after every run of installs and
refreshes, and an operation that raises changes neither. -/
theorem reachable_told {state : SecretState}
    (h : (secretSystem kernel printable recognised).Reachable state) :
    state.Told ∧ ∀ event state' failure,
      act kernel printable recognised state event = (state', .error failure) →
        state'.held = state.held ∧ state'.lastReport = state.lastReport :=
  ⟨told_isInductive.reachable h, fun _ _ _ => act_eq_error⟩

/-- A file and a variable, of the default settings and a stored revision. -/
def mountedSurroundings (bytes : ByteArray) : Surroundings where
  rows := .ok (some [some [("port", .str "file:///run/secrets/port"),
    ("erp", .str "env://INTEGRATOR_SECRET_ERP")]])
  host := mountedHost bytes

/-- An install, and a refresh while the file does not decode. -/
def mountedRun (kernel : SourceKernel) : SecretState :=
  (act kernel (fun _ => true) ["env", "file"]
    (act kernel (fun _ => true) ["env", "file"] .empty
      (.install {} (mountedSurroundings "port-key\n".toUTF8))).1
    (.refresh (mountedSurroundings ⟨#[0xff, 0xfe, 0xff, 0xfe]⟩))).1

theorem reachable_told_mountedRun :
    (mountedRun ⟨false, none⟩).Told ∧ ∀ event state' failure,
      act ⟨false, none⟩ (fun _ => true) ["env", "file"] (mountedRun ⟨false, none⟩) event =
          (state', .error failure) →
        state'.held = (mountedRun ⟨false, none⟩).held ∧
          state'.lastReport = (mountedRun ⟨false, none⟩).lastReport := by
  apply reachable_told
  refine ⟨.empty, rfl, ?_⟩
  exact ((StepSystem.Leads.refl _).snoc (a := .install {} _) rfl).snoc (a := .refresh _) rfl

end DotmacIntegrator.Secrets
