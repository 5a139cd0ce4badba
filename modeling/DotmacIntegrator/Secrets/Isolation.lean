import DotmacIntegrator.Secrets.Dereferencers

/-!
# One bad reference

A reference that is a typo, or whose material is not provisioned yet, is recorded and omitted. A
locator no path can be made from, a variable whose name cannot be encoded, a root that cannot be
examined and a file that does not decode raise something else, and end the load for every other
reference.

## Main definitions

* `HeldAs`: the material of a reference, in terms of the host
* `BadLocator`, `ReachesInside`, `Undecodable`: the references that raise
* `LoadIsolates`: what a load promises of every reference

## Main results

* `raises_iff`, `unavailable_iff`: which references end a load
* `load_isolates_iff`: when one bad reference does not prevent the others from being held
-/

namespace DotmacIntegrator.Secrets

open DotmacIntegrator.Configuration

variable (host : Host) (printable : Char → Bool) (settings : Settings) (recognised : List String)

/-- The material of a reference: of a variable under the configured start, or of a file inside the
root; it is there, it decodes, and it is long enough. -/
def HeldAs (root : List String) (r value : String) : Prop :=
  minimumRedactableLength ≤ value.toList.length ∧
  ((∃ locator, usable settings recognised r = some ("env", locator) ∧
      startsWith settings.secretEnvPrefix locator = true ∧
        host.environ locator = .ok (some value)) ∨
    ∃ locator path bytes text, usable settings recognised r = some ("file", locator) ∧
      host.resolve locator = .ok path ∧ root <+: path ∧ host.readBytes path = .ok bytes ∧
      String.fromUTF8? bytes = some text ∧ fileMaterial text = value)

/-- No path can be made from the locator of a file reference, and the failure is no
`OSError`. -/
def Unpathable (r : String) : Prop :=
  ∃ locator name, usable settings recognised r = some ("file", locator) ∧
    host.resolve locator = .error (.other name)

/-- The name of a variable under the configured start cannot be looked up. -/
def Unnameable (r : String) : Prop :=
  ∃ locator name, usable settings recognised r = some ("env", locator) ∧
    startsWith settings.secretEnvPrefix locator = true ∧ host.environ locator = .error name

/-- A locator that raises, whatever is there. -/
def BadLocator (r : String) : Prop :=
  Unpathable host settings recognised r ∨ Unnameable host settings recognised r

/-- A file reference reaches inside the root. -/
def ReachesInside (root : List String) (r : String) : Prop :=
  ∃ locator path, usable settings recognised r = some ("file", locator) ∧
    host.resolve locator = .ok path ∧ root <+: path

/-- A file reference reaches a file inside the root that is no UTF-8. -/
def Undecodable (root : List String) (r : String) : Prop :=
  ∃ locator path bytes, usable settings recognised r = some ("file", locator) ∧
    host.resolve locator = .ok path ∧ root <+: path ∧ host.readBytes path = .ok bytes ∧
    String.fromUTF8? bytes = none

/-- What a load promises of its references: each is held or unresolved and not both, held exactly
with its material, and with the outcome it has in every other load of the deployment. -/
structure Isolated (root : List String) (source : StoredReferenceSource) (held : Held)
    (report : SecretLoadReport) : Prop where
  covers : ∀ r, r ∈ source.references ↔ r ∈ held.keys ∨ r ∈ report.unresolved.keys
  disjoint : ∀ r, ¬ (r ∈ held.keys ∧ r ∈ report.unresolved.keys)
  exact : ∀ r value, held.get? r = some value ↔
    r ∈ source.references ∧ HeldAs host settings source.recognised root r value
  independent : ∀ source' : StoredReferenceSource,
    source'.dereferencers = source.dereferencers → source'.recognised = source.recognised →
    ∀ held' report', source'.load printable = .ok (held', report') →
    ∀ r, r ∈ source.references → r ∈ source'.references →
      held.get? r = held'.get? r ∧ report.unresolved.get? r = report'.unresolved.get? r

/-- One bad reference does not prevent the others from being held: unless the root is missing, a
load returns with every reference isolated; where it is missing, it is unavailable exactly when some
reference reaches inside. -/
structure LoadIsolates (root : List String) (source : StoredReferenceSource) : Prop where
  returns : host.isDir root ≠ .ok false →
    ∃ held report, source.load printable = .ok (held, report) ∧
      Isolated host printable settings root source held report
  refuses : host.isDir root = .ok false →
    ((∃ message, source.load printable = .error (.storeUnavailable message)) ↔
      ∃ r ∈ source.references, ReachesInside host settings source.recognised root r)

variable {host printable settings} {root : List String}

/-- What raises at its locator does not reach inside. -/
theorem BadLocator.not_reachesInside {recognised : List String} {r : String}
    (h : BadLocator host settings recognised r) :
    ¬ ReachesInside host settings recognised root r := by
  rintro ⟨locator', path, hu', hpath', -⟩
  rcases h with ⟨locator, name, hu, hpath⟩ | ⟨locator, name, hu, -⟩
  · obtain ⟨-, rfl⟩ := Prod.mk.inj (Option.some.inj (hu.symm.trans hu'))
    rw [hpath] at hpath'
    cases hpath'
  · exact absurd (Prod.mk.inj (Option.some.inj (hu.symm.trans hu'))).1 (by decide)

/-- Of two references of a list, one is in front of the other. -/
theorem mem_or_mem_of_append_eq {before after pre post : List String} {r x : String}
    (h : before ++ r :: after = pre ++ x :: post) (hne : r ≠ x) : r ∈ pre ∨ x ∈ before := by
  rcases List.append_eq_append_iff.mp h with ⟨mid, rfl, hmid⟩ | ⟨mid, rfl, hmid⟩
  · cases mid with
    | nil => exact absurd (List.cons.inj hmid).1 hne
    | cons y mid =>
      obtain ⟨rfl, -⟩ := List.cons.inj hmid
      exact .inl (by simp)
  · cases mid with
    | nil => exact absurd (List.cons.inj hmid).1.symm hne
    | cons y mid =>
      obtain ⟨rfl, -⟩ := List.cons.inj hmid
      exact .inr (by simp)

section Deployment

variable {dereferencers : Dict String Dereferencer}
  (hbuild : buildDereferencers host printable settings = .ok dereferencers)
  (hroot : host.resolve settings.secretFileRoot = .ok root)
  {source : StoredReferenceSource} (hsource : source.dereferencers = dereferencers)

include hbuild hroot hsource

/-- Unless it reaches inside a root that does not exist, a reference has exactly the material the
host has for it. -/
theorem dereference_iff_heldAs {r value : String}
    (hdir : ReachesInside host settings source.recognised root r → host.isDir root = .ok true) :
    source.dereference printable r = .ok (.ok value) ↔
      HeldAs host settings source.recognised root r value := by
  rw [dereference_eq_material hbuild hsource]
  constructor
  · rintro ⟨scheme, locator, hu, hread, hlength⟩
    refine ⟨hlength, ?_⟩
    rcases scheme_of_usable hbuild hu with rfl | rfl
    · obtain ⟨hstart, hvalue, -⟩ := envRead_eq_ok.mp hread
      exact .inl ⟨locator, hu, hstart, hvalue⟩
    · obtain ⟨path, hpath, hinside, -, hin⟩ := (fileRead_eq_ok hroot).mp hread
      obtain ⟨bytes, text, hbytes, htext, hmaterial, -⟩ := readInside_eq_ok.mp hin
      exact .inr ⟨locator, path, bytes, text, hu, hpath, hinside, hbytes, htext, hmaterial⟩
  · rintro ⟨hlength, hcases⟩
    -- Material that is long enough is not empty.
    have hne : value ≠ "" := by
      rintro rfl
      exact absurd hlength (by decide)
    rcases hcases with ⟨locator, hu, hstart, hvalue⟩ |
      ⟨locator, path, bytes, text, hu, hpath, hinside, hbytes, htext, hmaterial⟩
    · exact ⟨"env", locator, hu, envRead_eq_ok.mpr ⟨hstart, hvalue, hne⟩, hlength⟩
    · exact ⟨"file", locator, hu, (fileRead_eq_ok hroot).mpr
        ⟨path, hpath, hinside, hdir ⟨locator, path, hu, hpath, hinside⟩,
          readInside_eq_ok.mpr ⟨bytes, text, hbytes, htext, hmaterial, hne⟩⟩, hlength⟩

/-- Which references end a load. -/
theorem raises_iff {r : String} :
    (∃ failure, source.dereference printable r = .error failure) ↔
      BadLocator host settings source.recognised r ∨
      host.isDir root ≠ .ok true ∧ ReachesInside host settings source.recognised root r ∨
      host.isDir root = .ok true ∧ Undecodable host settings source.recognised root r := by
  simp only [dereference_eq_error hbuild hsource]
  constructor
  · rintro ⟨failure, scheme, locator, hu, hread, hnot⟩
    rcases scheme_of_usable hbuild hu with rfl | rfl
    · rcases envRead_eq_error hread with ⟨message, hmissing⟩ | ⟨name, -, hstart, hname⟩
      · exact absurd hmissing (hnot message)
      · exact .inl (.inr ⟨locator, name, hu, hstart, hname⟩)
    · rcases fileRead_eq_error hroot hread with ⟨message, hmissing⟩ | ⟨name, -, hpath⟩ |
        ⟨name, path, -, hdir, hpath, hinside⟩ | ⟨message, -, hdir, path, hpath, hinside⟩ |
        ⟨-, hdir, path, bytes, hpath, hinside, hbytes, htext⟩
      · exact absurd hmissing (hnot message)
      · exact .inl (.inl ⟨locator, name, hu, hpath⟩)
      · exact .inr (.inl ⟨by rw [hdir]; exact nofun, locator, path, hu, hpath, hinside⟩)
      · exact .inr (.inl ⟨by simp [hdir], locator, path, hu, hpath, hinside⟩)
      · exact .inr (.inr ⟨hdir, locator, path, bytes, hu, hpath, hinside, hbytes, htext⟩)
  · rintro ((⟨locator, name, hu, hpath⟩ | ⟨locator, name, hu, hstart, hname⟩) |
      ⟨hdir, locator, path, hu, hpath, hinside⟩ |
      ⟨hdir, locator, path, bytes, hu, hpath, hinside, hbytes, htext⟩)
    · exact ⟨_, "file", locator, hu, fileRead_of_unpathable hpath, nofun⟩
    · exact ⟨_, "env", locator, hu, envRead_of_unnameable hstart hname, nofun⟩
    · cases hexamined : host.isDir root with
      | error name =>
        exact ⟨_, "file", locator, hu,
          fileRead_of_unexamined (d := ⟨settings.secretFileRoot⟩) hroot hexamined hpath hinside,
          nofun⟩
      | ok there =>
        cases there with
        | true => exact absurd hexamined hdir
        | false =>
          obtain ⟨message, hread⟩ := fileRead_of_missing (d := ⟨settings.secretFileRoot⟩) hroot
            hexamined hpath hinside
          exact ⟨_, "file", locator, hu, hread, nofun⟩
    · exact ⟨_, "file", locator, hu,
        fileRead_of_undecodable hroot hdir hpath hinside hbytes htext, nofun⟩

/-- The store is unavailable to a reference that reaches inside a root that is gone. -/
theorem unavailable_iff {r : String} :
    (∃ message, source.dereference printable r = .error (.storeUnavailable message)) ↔
      host.isDir root = .ok false ∧ ReachesInside host settings source.recognised root r := by
  simp only [dereference_eq_error hbuild hsource]
  constructor
  · rintro ⟨message, scheme, locator, hu, hread, hnot⟩
    rcases scheme_of_usable hbuild hu with rfl | rfl
    · rcases envRead_eq_error hread with ⟨message, hmissing⟩ | ⟨name, hraised, -⟩
      · cases hmissing
      · cases hraised
    · rcases fileRead_eq_error hroot hread with ⟨message, hmissing⟩ | ⟨name, hraised, -⟩ |
        ⟨name, path, hraised, -⟩ | ⟨message, -, hdir, path, hpath, hinside⟩ | ⟨hraised, -⟩
      · cases hmissing
      · cases hraised
      · cases hraised
      · exact ⟨hdir, locator, path, hu, hpath, hinside⟩
      · cases hraised
  · rintro ⟨hdir, locator, path, hu, hpath, hinside⟩
    obtain ⟨message, hread⟩ := fileRead_of_missing (d := ⟨settings.secretFileRoot⟩) hroot hdir
      hpath hinside
    exact ⟨message, "file", locator, hu, hread, nofun⟩

omit hbuild hroot hsource in
/-- The outcome of a reference is a matter of the deployment. -/
theorem dereference_congr {source' : StoredReferenceSource}
    (hd : source'.dereferencers = source.dereferencers)
    (hr : source'.recognised = source.recognised) (r : String) :
    source'.dereference printable r = source.dereference printable r := by
  unfold StoredReferenceSource.dereference
  rw [hd, hr]

/-- A load that returns isolates every reference. -/
theorem isolated_of_load {held : Held} {report : SecretLoadReport}
    (h : source.load printable = .ok (held, report)) :
    Isolated host printable settings root source held report where
  covers := mem_references_iff h
  disjoint := not_held_and_unresolved h
  exact r value := by
    rw [held_get? h]
    split_ifs with hr
    · -- Nothing reaches inside a root that does not exist: it would have raised.
      have hdir : ReachesInside host settings source.recognised root r →
          host.isDir root = .ok true := by
        intro hreach
        by_contra hnot
        obtain ⟨failure, hraise⟩ :=
          (raises_iff hbuild hroot hsource).mpr (.inr (.inl ⟨hnot, hreach⟩))
        obtain ⟨o, ho⟩ := (load_eq_ok_iff.mp h).1 r hr
        rw [hraise] at ho
        cases ho
      rw [material_eq_some, dereference_iff_heldAs hbuild hroot hsource hdir]
      simp [hr]
    · simp [hr]
  independent source' hd hr held' report' h' r hmem hmem' := by
    rw [held_get? h, held_get? h', unresolved_get? h, unresolved_get? h', if_pos hmem,
      if_pos hmem', if_pos hmem, if_pos hmem']
    unfold StoredReferenceSource.material StoredReferenceSource.reason
    rw [dereference_congr hd hr]
    exact ⟨rfl, rfl⟩

/-- A load returns with every reference isolated iff none raises. -/
theorem returns_iff :
    (∃ held report, source.load printable = .ok (held, report) ∧
      Isolated host printable settings root source held report) ↔
      ∀ r ∈ source.references, ¬ BadLocator host settings source.recognised r ∧
        (ReachesInside host settings source.recognised root r → host.isDir root = .ok true) ∧
        ¬ Undecodable host settings source.recognised root r := by
  have hraises : ∀ r, (∃ o, source.dereference printable r = .ok o) ↔
      ¬ BadLocator host settings source.recognised r ∧
        (ReachesInside host settings source.recognised root r → host.isDir root = .ok true) ∧
        ¬ Undecodable host settings source.recognised root r := by
    intro r
    have hreaches : Undecodable host settings source.recognised root r →
        ReachesInside host settings source.recognised root r := by
      rintro ⟨locator, path, bytes, hu, hpath, hinside, -⟩
      exact ⟨locator, path, hu, hpath, hinside⟩
    have hok : (∃ o, source.dereference printable r = .ok o) ↔
        ¬ ∃ failure, source.dereference printable r = .error failure := by
      cases source.dereference printable r <;> simp
    rw [hok, raises_iff hbuild hroot hsource, not_or, not_or, not_and', not_not, not_and]
    refine and_congr_right fun _ => and_congr_right fun hexists => ⟨fun h hun => ?_, fun h _ => h⟩
    exact h (hexists (hreaches hun)) hun
  constructor
  · rintro ⟨held, report, hload, -⟩ r hr
    exact (hraises r).mp ((load_eq_ok_iff.mp hload).1 r hr)
  · intro hclean
    have hload := load_eq_ok_iff.mpr ⟨fun r hr => (hraises r).mpr (hclean r hr), rfl, rfl⟩
    exact ⟨_, _, hload, isolated_of_load hbuild hroot hsource hload⟩

/-- Where the root is gone, the store is unavailable exactly when some reference reaches inside,
iff no locator in front of the first such one raises. -/
theorem refuses_iff (hdir : host.isDir root = .ok false) :
    ((∃ message, source.load printable = .error (.storeUnavailable message)) ↔
      ∃ r ∈ source.references, ReachesInside host settings source.recognised root r) ↔
    ∀ before r after, source.references = before ++ r :: after →
      BadLocator host settings source.recognised r →
      (∃ r' ∈ source.references, ReachesInside host settings source.recognised root r') →
      ∃ r' ∈ before, ReachesInside host settings source.recognised root r' := by
  have hunavailable : ∀ r, (∃ message,
      source.dereference printable r = .error (.storeUnavailable message)) ↔
        ReachesInside host settings source.recognised root r := fun r => by
    rw [unavailable_iff hbuild hroot hsource, and_iff_right hdir]
  have hraises : ∀ r, (∃ failure, source.dereference printable r = .error failure) ↔
      BadLocator host settings source.recognised r ∨
        ReachesInside host settings source.recognised root r := fun r => by
    rw [raises_iff hbuild hroot hsource]
    simp [hdir]
  -- A reference that raises nothing is neither.
  have hclean : ∀ r, (∃ o, source.dereference printable r = .ok o) →
      ¬ BadLocator host settings source.recognised r ∧
        ¬ ReachesInside host settings source.recognised root r := by
    rintro r ⟨o, ho⟩
    rw [← not_or, ← hraises, ho]
    simp
  constructor
  · intro hiff before r after hsplit hr hinside
    -- The load is refused at a reference that reaches inside, and `r` is not in front of it.
    obtain ⟨message, hload⟩ := hiff.mpr hinside
    obtain ⟨pre, x, post, hx, hraise, hpre⟩ := load_eq_error_iff.mp hload
    have hreach := (hunavailable x).mp ⟨message, hraise⟩
    have hne : r ≠ x := by
      rintro rfl
      exact hr.not_reachesInside hreach
    rcases mem_or_mem_of_append_eq (hsplit.symm.trans hx) hne with hahead | hbehind
    · exact absurd hr (hclean r (hpre r hahead)).1
    · exact ⟨x, hbehind, hreach⟩
  · intro hfirst
    constructor
    · rintro ⟨message, hload⟩
      obtain ⟨pre, x, post, hx, hraise, -⟩ := load_eq_error_iff.mp hload
      exact ⟨x, by simp [hx], (hunavailable x).mp ⟨message, hraise⟩⟩
    · rintro ⟨r, hr, hreach⟩
      cases hload : source.load printable with
      | ok loaded =>
        exact absurd hreach (hclean r ((load_eq_ok_iff.mp hload).1 r hr)).2
      | error failure =>
        obtain ⟨pre, x, post, hx, hraise, hpre⟩ := load_eq_error_iff.mp hload
        -- The first reference that raises reaches inside: its locator is not a bad one.
        have hx' : ReachesInside host settings source.recognised root x := by
          rcases (hraises x).mp ⟨failure, hraise⟩ with hbad | hin
          · obtain ⟨r', hr', hin'⟩ := hfirst pre x post hx hbad ⟨r, hr, hreach⟩
            exact absurd hin' (hclean r' (hpre r' hr')).2
          · exact hin
        obtain ⟨message, hmessage⟩ := (hunavailable x).mpr hx'
        rw [hraise] at hmessage
        exact ⟨message, by rw [Except.error.inj hmessage]⟩

/-- **One bad reference does not prevent the others from being held**, unless its locator raises, it
reaches inside a root that cannot be examined, or it reaches a file that does not decode. -/
theorem load_isolates_iff :
    LoadIsolates host printable settings root source ↔
      (host.isDir root ≠ .ok false → ∀ r ∈ source.references,
        ¬ BadLocator host settings source.recognised r ∧
          (ReachesInside host settings source.recognised root r → host.isDir root = .ok true) ∧
          ¬ Undecodable host settings source.recognised root r) ∧
      (host.isDir root = .ok false → ∀ before r after, source.references = before ++ r :: after →
        BadLocator host settings source.recognised r →
        (∃ r' ∈ source.references, ReachesInside host settings source.recognised root r') →
        ∃ r' ∈ before, ReachesInside host settings source.recognised root r') := by
  constructor
  · rintro ⟨hreturns, hrefuses⟩
    exact ⟨fun hdir => (returns_iff hbuild hroot hsource).mp (hreturns hdir),
      fun hdir => (refuses_iff hbuild hroot hsource hdir).mp (hrefuses hdir)⟩
  · rintro ⟨hclean, hfirst⟩
    exact ⟨fun hdir => (returns_iff hbuild hroot hsource).mpr (hclean hdir),
      fun hdir => (refuses_iff hbuild hroot hsource hdir).mpr (hfirst hdir)⟩

end Deployment

/-- A host whose root is there: one variable is set, and every file inside has the same bytes. -/
def mountedHost (bytes : ByteArray) : Host where
  environ name := .ok (if name = "INTEGRATOR_SECRET_ERP" then some "caller-key" else none)
  resolve locator := .ok ((locator.toList.splitOn '/').map String.ofList).tail
  isDir path := .ok (path = ["run", "secrets"])
  readBytes _ := .ok bytes

/-- A variable and a file, of the default settings. -/
def mountedSource (bytes : ByteArray) : StoredReferenceSource where
  stored := none
  dereferencers := [
    ("env", implemented (mountedHost bytes) (fun _ => true) {} "env"),
    ("file", implemented (mountedHost bytes) (fun _ => true) {} "file")]
  extraReferences := ["file:///run/secrets/port", "env://INTEGRATOR_SECRET_ERP"]
  recognised := ["env", "file"]

theorem buildDereferencers_mounted (bytes : ByteArray) :
    buildDereferencers (mountedHost bytes) (fun _ => true) {} =
      .ok (mountedSource bytes).dereferencers := by
  have henabled : enabledSchemes {} = ["env", "file"] := by decide +kernel
  unfold buildDereferencers
  simp only [henabled]
  rw [if_neg (by simp [implementedSchemes, Text.sorted])]
  rfl

theorem load_isolates_iff_mounted :
    LoadIsolates (mountedHost "port-key\n".toUTF8) (fun _ => true) {} ["run", "secrets"]
      (mountedSource "port-key\n".toUTF8) := by
  apply (load_isolates_iff (buildDereferencers_mounted _) rfl rfl).mpr
  refine ⟨fun _ r _ => ⟨?_, fun _ => rfl, ?_⟩, nofun⟩
  · rintro (⟨locator, name, -, hpath⟩ | ⟨locator, name, -, -, hname⟩)
    · cases hpath
    · cases hname
  · rintro ⟨locator, path, bytes, -, -, -, hbytes, htext⟩
    rw [← Except.ok.inj hbytes, ProductPort.fromUTF8?_toUTF8] at htext
    cases htext

/-- A file that does not decode ends the load, and the variable is not held either. -/
theorem not_loadIsolates_undecodable :
    buildDereferencers (mountedHost ⟨#[0xff, 0xfe, 0xff, 0xfe]⟩) (fun _ => true) {} =
        .ok (mountedSource ⟨#[0xff, 0xfe, 0xff, 0xfe]⟩).dereferencers ∧
      ¬ LoadIsolates (mountedHost ⟨#[0xff, 0xfe, 0xff, 0xfe]⟩) (fun _ => true) {}
        ["run", "secrets"] (mountedSource ⟨#[0xff, 0xfe, 0xff, 0xfe]⟩) := by
  refine ⟨buildDereferencers_mounted _, ?_⟩
  intro h
  obtain ⟨held, report, hload, -⟩ := h.returns nofun
  have hmem : "file:///run/secrets/port" ∈
      (mountedSource ⟨#[0xff, 0xfe, 0xff, 0xfe]⟩).references := by
    rw [StoredReferenceSource.references, Text.mem_sorted]
    decide +kernel
  obtain ⟨o, ho⟩ := (load_eq_ok_iff.mp hload).1 _ hmem
  have hraised : ((mountedSource ⟨#[0xff, 0xfe, 0xff, 0xfe]⟩).dereference (fun _ => true)
      "file:///run/secrets/port").isOk = false := by decide +kernel
  rw [ho] at hraised
  cases hraised

end DotmacIntegrator.Secrets
