import DotmacIntegrator.Secrets.Refresh

/-!
# A reference is no capability

A revision may name any variable and any path of the host. Nothing of the host is observed but the
variables under the configured start, the files under the configured root, and whether a path leads
there: two hosts that agree on these come to the same, whatever the stored revisions name and
however often secrets are installed and refreshed.

## Main definitions

* `ConfinedAlike`: two hosts agree on what a deployment may read
* `SecretEvent.Alike`: two operations differ only in such hosts
* `SecretState.run`: a run, with what each operation answered

## Main results

* `implemented_congr`: no dereferencer tells such hosts apart
* `run_congr`: no run does
-/

namespace DotmacIntegrator.Secrets

open DotmacIntegrator.Configuration

/-- Two resolutions of one path are alike: both fail in one way, or lead to the same place, or lead
outside. -/
inductive ResolvedAlike (inside : List String → Prop) :
    Except PathFailure (List String) → Except PathFailure (List String) → Prop
  | same (r : Except PathFailure (List String)) : ResolvedAlike inside r r
  | outside {path path' : List String} (h : ¬ inside path) (h' : ¬ inside path') :
    ResolvedAlike inside (.ok path) (.ok path')

/-- The path is under the configured root. -/
def Host.Inside (host : Host) (settings : Settings) (path : List String) : Prop :=
  ∃ root, host.resolve settings.secretFileRoot = .ok root ∧ root <+: path

/-- Two hosts agree on what a deployment may read: the variables under its start, its root and the
files under it, and whether a path leads there. -/
structure ConfinedAlike (settings : Settings) (host host' : Host) : Prop where
  environ : ∀ name, startsWith settings.secretEnvPrefix name = true →
    host.environ name = host'.environ name
  root : host.resolve settings.secretFileRoot = host'.resolve settings.secretFileRoot
  resolve : ∀ locator,
    ResolvedAlike (host.Inside settings) (host.resolve locator) (host'.resolve locator)
  isDir : ∀ root, host.resolve settings.secretFileRoot = .ok root →
    host.isDir root = host'.isDir root
  readBytes : ∀ path, host.Inside settings path → host.readBytes path = host'.readBytes path

/-- Two surroundings have the same rows, and hosts that agree for every one of the settings. -/
structure Surroundings.Alike (deployed : Settings → Prop) (around around' : Surroundings) :
    Prop where
  rows : around.rows = around'.rows
  host : ∀ settings, deployed settings → ConfinedAlike settings around.host around'.host

/-- Two operations are of the same kind, in surroundings that are alike. -/
inductive SecretEvent.Alike (deployed : Settings → Prop) : SecretEvent → SecretEvent → Prop
  | install (settings : Settings) {around around' : Surroundings} (hsettings : deployed settings)
    (h : around.Alike deployed around') :
    SecretEvent.Alike deployed (.install settings around) (.install settings around')
  | refresh {around around' : Surroundings} (h : around.Alike deployed around') :
    SecretEvent.Alike deployed (.refresh around) (.refresh around')

variable (kernel : SourceKernel) (printable : Char → Bool) (recognised : List String)

/-- A run: the state it leaves, and what each operation returned or raised. -/
def SecretState.run (state : SecretState) :
    List SecretEvent → SecretState × List (Except ReadFailure SecretLoadReport)
  | [] => (state, [])
  | event :: events =>
    let acted := act kernel printable recognised state event
    let rest := SecretState.run acted.1 events
    (rest.1, acted.2 :: rest.2)

variable {kernel printable recognised} {settings : Settings} {host host' : Host}

/-! ### Dereferencers -/

theorem envRead_congr (h : ConfinedAlike settings host host') (locator : String) :
    EnvDereferencer.read host printable ⟨settings.secretEnvPrefix⟩ locator =
      EnvDereferencer.read host' printable ⟨settings.secretEnvPrefix⟩ locator := by
  unfold EnvDereferencer.read
  by_cases hstart : startsWith settings.secretEnvPrefix locator = true
  · rw [h.environ locator hstart]
  · rw [if_pos (Bool.not_eq_true _ ▸ hstart), if_pos (Bool.not_eq_true _ ▸ hstart)]

/-- A path that leads outside is refused, without a word about where it leads. -/
theorem fileRead_of_outside {locator : String} {path path' : List String}
    (hpath : host.resolve locator = .ok path) (hpath' : host'.resolve locator = .ok path')
    (hroot : host.resolve settings.secretFileRoot = host'.resolve settings.secretFileRoot)
    (h : ¬ host.Inside settings path) (h' : ¬ host.Inside settings path') :
    FileDereferencer.read host ⟨settings.secretFileRoot⟩ locator =
      FileDereferencer.read host' ⟨settings.secretFileRoot⟩ locator := by
  unfold FileDereferencer.read
  simp only [hpath, hpath', ← hroot]
  cases hresolved : host.resolve settings.secretFileRoot with
  | error failure => cases failure <;> rfl
  | ok root =>
    have hout : ¬ root <+: path := fun hinside => h ⟨root, hresolved, hinside⟩
    have hout' : ¬ root <+: path' := fun hinside => h' ⟨root, hresolved, hinside⟩
    simp only [if_pos hout, if_pos hout']

/-- A path that leads to the same place is read alike, if it is read at all. -/
theorem fileRead_of_same {locator : String} (h : ConfinedAlike settings host host')
    (hsame : host.resolve locator = host'.resolve locator) :
    FileDereferencer.read host ⟨settings.secretFileRoot⟩ locator =
      FileDereferencer.read host' ⟨settings.secretFileRoot⟩ locator := by
  unfold FileDereferencer.read
  rw [← hsame, ← h.root]
  cases hpath : host.resolve locator with
  | error failure => cases failure <;> rfl
  | ok path =>
    cases hroot : host.resolve settings.secretFileRoot with
    | error failure => cases failure <;> rfl
    | ok root =>
      by_cases hinside : root <+: path
      -- Only a file under the root is read, and there the hosts agree.
      · have hread : FileDereferencer.readInside host locator path =
            FileDereferencer.readInside host' locator path := by
          unfold FileDereferencer.readInside
          rw [h.readBytes path ⟨root, hroot, hinside⟩]
        simp only [hinside, h.isDir root hroot, hread]
      · simp only [hinside, not_false_eq_true, if_true]

theorem fileRead_congr (h : ConfinedAlike settings host host') (locator : String) :
    FileDereferencer.read host ⟨settings.secretFileRoot⟩ locator =
      FileDereferencer.read host' ⟨settings.secretFileRoot⟩ locator := by
  have hresolve := h.resolve locator
  generalize hr : host.resolve locator = r at hresolve
  generalize hr' : host'.resolve locator = r' at hresolve
  cases hresolve with
  | same r => exact fileRead_of_same h (hr.trans hr'.symm)
  | outside hout hout' => exact fileRead_of_outside hr hr' h.root hout hout'

/-- **No dereferencer tells the hosts apart.** -/
theorem implemented_congr (h : ConfinedAlike settings host host') :
    implemented host printable settings = implemented host' printable settings := by
  funext scheme locator
  unfold implemented
  split
  · exact envRead_congr h locator
  · exact fileRead_congr h locator

theorem loadStored_congr {around around' : Surroundings} (hrows : around.rows = around'.rows)
    (h : ConfinedAlike settings around.host around'.host) (state : SecretState) :
    loadStored printable recognised settings around state =
      loadStored printable recognised settings around' state := by
  have hbuild : buildDereferencers around.host printable settings =
      buildDereferencers around'.host printable settings := by
    unfold buildDereferencers
    rw [implemented_congr h]
  unfold loadStored
  rw [hbuild, hrows]

/-! ### Runs -/

/-- The settings that were installed. -/
def SecretState.DeployedOf (deployed : Settings → Prop) (state : SecretState) : Prop :=
  ∀ settings, state.installed = some settings → deployed settings

variable {deployed : Settings → Prop}

/-- Operations that are alike come to the same. -/
theorem act_congr {state : SecretState} (hstate : state.DeployedOf deployed)
    {event event' : SecretEvent} (h : event.Alike deployed event') :
    act kernel printable recognised state event = act kernel printable recognised state event' := by
  cases h with
  | @install settings around around' hsettings h =>
    have hconfined := h.host settings hsettings
    have hbuild : buildDereferencers around.host printable settings =
        buildDereferencers around'.host printable settings := by
      unfold buildDereferencers
      rw [implemented_congr hconfined]
    show installSecrets kernel printable recognised settings around state =
      installSecrets kernel printable recognised settings around' state
    unfold installSecrets
    rw [hbuild, loadStored_congr h.rows hconfined]
  | @refresh around around' h =>
    show Secrets.refresh kernel printable recognised around state =
      Secrets.refresh kernel printable recognised around' state
    unfold Secrets.refresh
    cases hinstalled : state.installed with
    | none => rfl
    | some settings =>
      simp only
      -- A refresh goes by the settings under which the source was installed.
      rw [loadStored_congr h.rows (h.host settings (hstate settings hinstalled))]

/-- A load does not install. -/
theorem replaceHeld_loadStored_installed (settings : Settings) (around : Surroundings)
    (state : SecretState) :
    (replaceHeld (loadStored printable recognised settings around state)).1.installed =
      state.installed := by
  rcases @replaceHeld_loadStored printable recognised settings around state with
    ⟨failure, h⟩ | ⟨source, held, report, -, h⟩
  · rw [h]
  · rw [h]

/-- What is installed was installed by an operation. -/
theorem installed_act {state : SecretState} (hstate : state.DeployedOf deployed)
    {event event' : SecretEvent} (h : event.Alike deployed event') :
    (act kernel printable recognised state event).1.DeployedOf deployed := by
  cases h with
  | @install settings around around' hsettings h =>
    show SecretState.DeployedOf deployed
      (installSecrets kernel printable recognised settings around state).1
    unfold installSecrets
    split
    · exact hstate
    · intro installed hinstalled
      dsimp only at hinstalled
      split at hinstalled
      · obtain rfl := Option.some.inj hinstalled
        exact hsettings
      · exact hstate installed hinstalled
  | @refresh around around' h =>
    show SecretState.DeployedOf deployed
      (Secrets.refresh kernel printable recognised around state).1
    unfold Secrets.refresh
    split
    · intro installed hinstalled
      rw [replaceHeld_loadStored_installed] at hinstalled
      exact hstate installed hinstalled
    · split
      · exact hstate
      · exact hstate

/-- **A reference is no capability.** Runs of installs and refreshes that differ only in what lies
outside of the configured start and the configured root leave the same, and every operation returns
or raises the same. -/
theorem run_congr {events events' : List SecretEvent}
    (h : List.Forall₂ (SecretEvent.Alike deployed) events events') (state : SecretState)
    (hstate : state.DeployedOf deployed) :
    state.run kernel printable recognised events =
      state.run kernel printable recognised events' := by
  induction h generalizing state with
  | nil => rfl
  | @cons event event' events events' hevent _ ih =>
    have hrest := ih _ (@installed_act kernel printable recognised _ _ hstate _ _ hevent)
    unfold SecretState.run
    rw [← act_congr hstate hevent]
    simp only [hrest]

/-- A host like the mounted one, but for a variable and the files that no revision may name. -/
def neighbourHost (bytes : ByteArray) : Host where
  environ name :=
    if name = "DATABASE_URL" then .ok (some "postgresql://host")
    else (mountedHost bytes).environ name
  resolve := (mountedHost bytes).resolve
  isDir := (mountedHost bytes).isDir
  readBytes path := if ["run", "secrets"] <+: path then .ok bytes else .error .notFound

theorem confinedAlike_neighbour (bytes : ByteArray) :
    ConfinedAlike {} (mountedHost bytes) (neighbourHost bytes) where
  environ name hname := by
    have hne : name ≠ "DATABASE_URL" := by
      rintro rfl
      revert hname
      decide +kernel
    show _ = if name = "DATABASE_URL" then _ else _
    rw [if_neg hne]
  root := rfl
  resolve locator := .same _
  isDir _ _ := rfl
  readBytes path := by
    rintro ⟨root, hroot, hinside⟩
    obtain rfl : root = ["run", "secrets"] := (Except.ok.inj hroot).symm
    exact (if_pos hinside).symm

/-- A revision that names a variable and a file of the host, and a file of its own. -/
def graspingSurroundings (host : Host) : Surroundings where
  rows := .ok (some [some [("url", .str "env://DATABASE_URL"), ("users", .str "file:///etc/passwd"),
    ("port", .str "file:///run/secrets/port")]])
  host := host

theorem run_congr_neighbour :
    SecretState.empty.run ⟨false, none⟩ (fun _ => true) ["env", "file"]
        [.install {} (graspingSurroundings (mountedHost "5432".toUTF8)),
          .refresh (graspingSurroundings (mountedHost "5432".toUTF8))] =
      SecretState.empty.run ⟨false, none⟩ (fun _ => true) ["env", "file"]
        [.install {} (graspingSurroundings (neighbourHost "5432".toUTF8)),
          .refresh (graspingSurroundings (neighbourHost "5432".toUTF8))] := by
  have halike : (graspingSurroundings (mountedHost "5432".toUTF8)).Alike (· = {})
      (graspingSurroundings (neighbourHost "5432".toUTF8)) :=
    ⟨rfl, by rintro _ rfl; exact confinedAlike_neighbour "5432".toUTF8⟩
  apply @run_congr _ _ _ (· = {})
  · exact .cons (.install {} rfl halike) (.cons (.refresh halike) .nil)
  · intro settings hinstalled
    cases (show none = some settings from hinstalled)

end DotmacIntegrator.Secrets
