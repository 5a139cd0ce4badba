import DotmacIntegrator.Secrets.LoadOutcome

/-!
# The dereferencers

A variable of the environment under a configured start, and a file under a configured root. The
loop of a load knows one kind of failure, material that is missing; every other one ends the load.

## Main definitions

* `Host`: the environment and the file tree of a process
* `EnvDereferencer.read`, `FileDereferencer.read`: material, or why there is none
* `buildDereferencers`: the schemes a deployment enables
* `usable`: the scheme and the locator of a reference that is dereferenced

## Main results

* `fileRead_eq_ok`, `fileRead_eq_error`: what reading a file comes to
* `dereference_eq_material`, `dereference_eq_error`: what a reference of a deployment comes to
-/

namespace DotmacIntegrator.Secrets

open DotmacIntegrator.Configuration

/-- Why a path cannot be resolved: an `OSError`, or an exception of another family. -/
inductive PathFailure
  | os (name : String)
  | other (name : String)
  deriving DecidableEq, Repr

/-- Why a file cannot be read: it is not there, or another `OSError`. -/
inductive FileFailure
  | notFound
  | os (name : String)
  deriving DecidableEq, Repr

/-- The environment and the file tree of a process. A resolved path is the list of its parts. A
variable whose name cannot be encoded, and a directory that cannot be examined, raise. -/
structure Host where
  environ : String → Except String (Option String)
  resolve : String → Except PathFailure (List String)
  isDir : List String → Except String Bool
  readBytes : List String → Except FileFailure ByteArray

/-- The text of a resolved path. -/
def pathText (path : List String) : String := "/" ++ "/".intercalate path

/-- The newlines of a text file, as `read_text` hands them over. -/
def universalNewlines : List Char → List Char
  | '\r' :: '\n' :: cs => '\n' :: universalNewlines cs
  | '\r' :: cs => '\n' :: universalNewlines cs
  | c :: cs => c :: universalNewlines cs
  | [] => []

/-- `text.rstrip("\n")`, of what `read_text` hands over. -/
def fileMaterial (text : String) : String :=
  String.ofList (((universalNewlines text.toList).reverse.dropWhile (· = '\n')).reverse)

/-- `env://NAME`: a variable, confined to names that start as configured. -/
structure EnvDereferencer where
  start : String

/-- `file://PATH`: a file, confined to a root. -/
structure FileDereferencer where
  root : String

variable (host : Host) (printable : Char → Bool)

/-- `EnvDereferencer.read`. -/
def EnvDereferencer.read (d : EnvDereferencer) (locator : String) : Except ReadFailure String :=
  if startsWith d.start locator = false then
    .error (.materialMissing (s!"env://{locator} is outside the configured prefix " ++
      PyRepr.string printable d.start ++ ". A configuration revision may not name an " ++
      "arbitrary environment variable of this process"))
  else match host.environ locator with
    | .error name => .error (.raised name)
    | .ok none => .error (.materialMissing s!"env://{locator} is unset or empty in this process")
    | .ok (some value) =>
      if value = "" then
        .error (.materialMissing s!"env://{locator} is unset or empty in this process")
      else .ok value

/-- What is read of a file inside the root. -/
def FileDereferencer.readInside (locator : String) (path : List String) :
    Except ReadFailure String :=
  match host.readBytes path with
  | .error .notFound => .error (.materialMissing s!"file://{locator} does not exist")
  | .error (.os name) =>
    .error (.materialMissing s!"file://{locator} could not be read: {name}")
  | .ok bytes =>
    match String.fromUTF8? bytes with
    | none => .error (.raised "UnicodeDecodeError")
    | some text =>
      if fileMaterial text = "" then .error (.materialMissing s!"file://{locator} is empty")
      else .ok (fileMaterial text)

/-- `FileDereferencer.read`: the locator is resolved before it is confined. -/
def FileDereferencer.read (d : FileDereferencer) (locator : String) : Except ReadFailure String :=
  match host.resolve locator with
  | .error (.os name) =>
    .error (.materialMissing s!"file://{locator} cannot be resolved: {name}")
  | .error (.other name) => .error (.raised name)
  | .ok path =>
    match host.resolve d.root with
    | .error (.os name) => .error (.raised name)
    | .error (.other name) => .error (.raised name)
    | .ok root =>
      if ¬ root <+: path then
        .error (.materialMissing (s!"file://{locator} resolves outside the configured root " ++
          pathText root ++ ". A configuration revision may not name an arbitrary path on this " ++
          "host"))
      else match host.isDir root with
        | .error name => .error (.raised name)
        | .ok false =>
          .error (.storeUnavailable (s!"the secret file root {pathText root} does not exist; " ++
            "refusing to start with no file-backed material rather than treating every " ++
            "reference as merely missing"))
        | .ok true => FileDereferencer.readInside host locator path

/-- The schemes that are implemented, in order. -/
def implementedSchemes : List String := ["env", "file"]

variable (settings : Settings)

/-- How an implemented scheme is dereferenced. -/
def implemented (scheme : String) : Dereferencer :=
  if scheme = "env" then EnvDereferencer.read host printable ⟨settings.secretEnvPrefix⟩
  else FileDereferencer.read host ⟨settings.secretFileRoot⟩

/-- The schemes a deployment enables. -/
def enabledSchemes : List String :=
  ((settings.secretSchemes.toList.splitOn ',').map fun cs => Text.strip (String.ofList cs)).filter
    (· ≠ "")

/-- `build_dereferencers`: the enabled schemes, each of which has to be implemented. -/
def buildDereferencers : Except ReadFailure (Dict String Dereferencer) :=
  let unknown := Text.sorted ((enabledSchemes settings).filter (· ∉ implementedSchemes))
  if unknown ≠ [] then
    .error (.storeUnavailable ("SECRET_SCHEMES enables " ++ PyRepr.strings printable unknown ++
      ", which this deployment cannot dereference. Implemented: " ++
      PyRepr.strings printable implementedSchemes ++ ". The network-backed schemes need a " ++
      "store client, an address and an auth method — adding one is a reviewed change with a " ++
      "named deployment target, not a configuration toggle"))
  else .ok (Dict.ofPairs ((enabledSchemes settings).map fun scheme =>
    (scheme, implemented host printable settings scheme)))

variable (recognised : List String)

/-- The scheme and the locator of a reference, where its scheme is recognised and enabled. -/
def usable (r : String) : Option (String × String) :=
  (parseReference (Text.strip r)).filter fun p =>
    p.1 ∈ recognised && p.1 ∈ enabledSchemes settings

variable {host printable settings} {root : List String}

/-! ### Reading -/

/-- A variable that cannot be read is missing, or its name raises. -/
theorem envRead_eq_error {d : EnvDereferencer} {locator : String} {failure : ReadFailure}
    (h : d.read host printable locator = .error failure) :
    (∃ message, failure = .materialMissing message) ∨
      ∃ name, failure = .raised name ∧ startsWith d.start locator = true ∧
        host.environ locator = .error name := by
  unfold EnvDereferencer.read at h
  split at h
  · exact .inl ⟨_, (Except.error.inj h).symm⟩
  · next hstart =>
    split at h
    · next name hname =>
      exact .inr ⟨name, (Except.error.inj h).symm, by simpa using hstart, hname⟩
    · exact .inl ⟨_, (Except.error.inj h).symm⟩
    · split at h
      · exact .inl ⟨_, (Except.error.inj h).symm⟩
      · cases h

/-- A variable whose name raises is not looked up. -/
theorem envRead_of_unnameable {d : EnvDereferencer} {locator name : String}
    (hstart : startsWith d.start locator = true) (h : host.environ locator = .error name) :
    d.read host printable locator = .error (.raised name) := by
  unfold EnvDereferencer.read
  rw [hstart, h]
  rfl

theorem envRead_eq_ok {d : EnvDereferencer} {locator value : String} :
    d.read host printable locator = .ok value ↔
      startsWith d.start locator = true ∧ host.environ locator = .ok (some value) ∧
        value ≠ "" := by
  constructor
  · intro h
    unfold EnvDereferencer.read at h
    split at h
    · cases h
    · next hstart =>
      split at h
      · cases h
      · cases h
      · next found hfound =>
        split at h
        · cases h
        · next hne =>
          obtain rfl := Except.ok.inj h
          exact ⟨by simpa using hstart, hfound, hne⟩
  · rintro ⟨hstart, hfound, hne⟩
    unfold EnvDereferencer.read
    rw [hstart, hfound]
    exact if_neg hne

theorem readInside_eq_ok {locator value : String} {path : List String} :
    FileDereferencer.readInside host locator path = .ok value ↔
      ∃ bytes text, host.readBytes path = .ok bytes ∧ String.fromUTF8? bytes = some text ∧
        fileMaterial text = value ∧ value ≠ "" := by
  constructor
  · intro h
    unfold FileDereferencer.readInside at h
    split at h
    · cases h
    · cases h
    · next bytes hbytes =>
      split at h
      · cases h
      · next text htext =>
        split at h
        · cases h
        · next hne =>
          obtain rfl := Except.ok.inj h
          exact ⟨bytes, text, hbytes, htext, rfl, hne⟩
  · rintro ⟨bytes, text, hbytes, htext, rfl, hne⟩
    unfold FileDereferencer.readInside
    rw [hbytes]
    simp only [htext]
    exact if_neg hne

/-- A file inside the root that cannot be read is missing, or does not decode. -/
theorem readInside_eq_error {locator : String} {path : List String} {failure : ReadFailure}
    (h : FileDereferencer.readInside host locator path = .error failure) :
    (∃ message, failure = .materialMissing message) ∨
      failure = .raised "UnicodeDecodeError" ∧ ∃ bytes, host.readBytes path = .ok bytes ∧
        String.fromUTF8? bytes = none := by
  unfold FileDereferencer.readInside at h
  split at h
  · exact .inl ⟨_, (Except.error.inj h).symm⟩
  · exact .inl ⟨_, (Except.error.inj h).symm⟩
  · next bytes hbytes =>
    split at h
    · next htext => exact .inr ⟨(Except.error.inj h).symm, bytes, hbytes, htext⟩
    · split at h
      · exact .inl ⟨_, (Except.error.inj h).symm⟩
      · cases h

theorem readInside_of_undecodable {locator : String} {path : List String} {bytes : ByteArray}
    (hbytes : host.readBytes path = .ok bytes) (htext : String.fromUTF8? bytes = none) :
    FileDereferencer.readInside host locator path = .error (.raised "UnicodeDecodeError") := by
  unfold FileDereferencer.readInside
  rw [hbytes]
  simp only [htext]

/-- A file reference is read where it reaches inside a root that exists. -/
theorem fileRead_eq_ok {d : FileDereferencer} (hroot : host.resolve d.root = .ok root)
    {locator value : String} :
    d.read host locator = .ok value ↔ ∃ path, host.resolve locator = .ok path ∧ root <+: path ∧
      host.isDir root = .ok true ∧ FileDereferencer.readInside host locator path = .ok value := by
  constructor
  · intro h
    unfold FileDereferencer.read at h
    rw [hroot] at h
    split at h
    · cases h
    · cases h
    · next path hpath =>
      simp only at h
      split at h
      · cases h
      · next hinside =>
        split at h
        · cases h
        · cases h
        · next hdir => exact ⟨path, hpath, not_not.mp hinside, hdir, h⟩
  · rintro ⟨path, hpath, hinside, hdir, h⟩
    unfold FileDereferencer.read
    rw [hpath, hroot]
    simpa [hinside, hdir] using h

/-- What reading a file reference raises: it is missing, no path can be made from it, the root
cannot be examined or is gone, or the file does not decode. -/
theorem fileRead_eq_error {d : FileDereferencer} (hroot : host.resolve d.root = .ok root)
    {locator : String} {failure : ReadFailure} (h : d.read host locator = .error failure) :
    (∃ message, failure = .materialMissing message) ∨
      (∃ name, failure = .raised name ∧ host.resolve locator = .error (.other name)) ∨
      (∃ name path, failure = .raised name ∧ host.isDir root = .error name ∧
        host.resolve locator = .ok path ∧ root <+: path) ∨
      (∃ message, failure = .storeUnavailable message ∧ host.isDir root = .ok false ∧
        ∃ path, host.resolve locator = .ok path ∧ root <+: path) ∨
      failure = .raised "UnicodeDecodeError" ∧ host.isDir root = .ok true ∧
        ∃ path bytes, host.resolve locator = .ok path ∧ root <+: path ∧
          host.readBytes path = .ok bytes ∧ String.fromUTF8? bytes = none := by
  unfold FileDereferencer.read at h
  rw [hroot] at h
  split at h
  · exact .inl ⟨_, (Except.error.inj h).symm⟩
  · next name hname => exact .inr (.inl ⟨name, (Except.error.inj h).symm, hname⟩)
  · next path hpath =>
    simp only at h
    split at h
    · exact .inl ⟨_, (Except.error.inj h).symm⟩
    · next hinside =>
      split at h
      · next name hdir =>
        exact .inr (.inr (.inl ⟨name, path, (Except.error.inj h).symm, hdir, hpath,
          not_not.mp hinside⟩))
      · next hdir =>
        exact .inr (.inr (.inr (.inl ⟨_, (Except.error.inj h).symm, hdir, path, hpath,
          not_not.mp hinside⟩)))
      · next hdir =>
        rcases readInside_eq_error h with hmissing | ⟨hraised, bytes, hbytes, htext⟩
        · exact .inl hmissing
        · exact .inr (.inr (.inr (.inr ⟨hraised, hdir, path, bytes, hpath, not_not.mp hinside,
            hbytes, htext⟩)))

/-- A locator no path can be made from raises. -/
theorem fileRead_of_unpathable {d : FileDereferencer} {locator name : String}
    (h : host.resolve locator = .error (.other name)) :
    d.read host locator = .error (.raised name) := by
  unfold FileDereferencer.read
  rw [h]

/-- Inside a root that cannot be examined a file raises. -/
theorem fileRead_of_unexamined {d : FileDereferencer} (hroot : host.resolve d.root = .ok root)
    {locator name : String} (hdir : host.isDir root = .error name) {path : List String}
    (hpath : host.resolve locator = .ok path) (hinside : root <+: path) :
    d.read host locator = .error (.raised name) := by
  unfold FileDereferencer.read
  rw [hpath, hroot]
  simp [hinside, hdir]

/-- Inside a root that is gone the store is unavailable. -/
theorem fileRead_of_missing {d : FileDereferencer} (hroot : host.resolve d.root = .ok root)
    (hdir : host.isDir root = .ok false) {locator : String} {path : List String}
    (hpath : host.resolve locator = .ok path) (hinside : root <+: path) :
    ∃ message, d.read host locator = .error (.storeUnavailable message) := by
  unfold FileDereferencer.read
  rw [hpath, hroot]
  simp [hinside, hdir]

/-- Inside a root that exists a file that does not decode raises. -/
theorem fileRead_of_undecodable {d : FileDereferencer} (hroot : host.resolve d.root = .ok root)
    (hdir : host.isDir root = .ok true) {locator : String} {path : List String} {bytes : ByteArray}
    (hpath : host.resolve locator = .ok path) (hinside : root <+: path)
    (hbytes : host.readBytes path = .ok bytes) (htext : String.fromUTF8? bytes = none) :
    d.read host locator = .error (.raised "UnicodeDecodeError") := by
  unfold FileDereferencer.read
  rw [hpath, hroot]
  simpa [hinside, hdir] using readInside_of_undecodable hbytes htext

/-! ### The schemes of a deployment -/

section Deployment

variable {dereferencers : Dict String Dereferencer}
  (hbuild : buildDereferencers host printable settings = .ok dereferencers)

include hbuild

/-- The dereferencers of a deployment are those of its enabled schemes. -/
theorem get?_dereferencers (scheme : String) :
    dereferencers.get? scheme = if scheme ∈ enabledSchemes settings then
      some (implemented host printable settings scheme) else none := by
  unfold buildDereferencers at hbuild
  simp only at hbuild
  split_ifs at hbuild
  rw [← Except.ok.inj hbuild, Dict.get?_ofPairs_map]

/-- Every enabled scheme is implemented. -/
theorem scheme_of_enabled {scheme : String} (h : scheme ∈ enabledSchemes settings) :
    scheme = "env" ∨ scheme = "file" := by
  unfold buildDereferencers at hbuild
  simp only at hbuild
  split_ifs at hbuild with hunknown
  by_contra hnot
  have hmem : scheme ∈ (enabledSchemes settings).filter (· ∉ implementedSchemes) := by
    simpa [implementedSchemes, h] using not_or.mp hnot
  rw [← Text.mem_sorted, not_not.mp hunknown] at hmem
  cases hmem

variable {source : StoredReferenceSource} (hsource : source.dereferencers = dereferencers)

include hsource

/-- A reference that cannot be used is unresolved. -/
theorem dereference_of_unusable {r : String}
    (h : usable settings source.recognised r = none) :
    ∃ why, source.dereference printable r = .ok (.error why) := by
  unfold usable at h
  unfold StoredReferenceSource.dereference
  split
  · exact ⟨_, rfl⟩
  · next scheme locator hparse =>
    split
    · exact ⟨_, rfl⟩
    · next hrecognised =>
      rw [hsource, get?_dereferencers hbuild]
      rw [hparse, Option.filter_some] at h
      have henabled : scheme ∉ enabledSchemes settings := by
        intro henabled
        simp [henabled, not_not.mp hrecognised] at h
      rw [if_neg henabled]
      exact ⟨_, rfl⟩

/-- A reference that is not unresolved can be used. -/
theorem usable_of_dereference {r : String}
    (h : ∀ why, source.dereference printable r ≠ .ok (.error why)) :
    ∃ scheme locator, usable settings source.recognised r = some (scheme, locator) := by
  by_contra hnot
  have hunusable : usable settings source.recognised r = none := by
    apply Option.eq_none_iff_forall_not_mem.mpr
    rintro ⟨scheme, locator⟩ hmem
    exact hnot ⟨scheme, locator, hmem⟩
  obtain ⟨why, hwhy⟩ := dereference_of_unusable hbuild hsource hunusable
  exact h why hwhy

/-- A reference that can be used comes to what its scheme's dereferencer reads. -/
theorem dereference_of_usable {r scheme locator : String}
    (h : usable settings source.recognised r = some (scheme, locator)) :
    source.dereference printable r =
      match implemented host printable settings scheme locator with
      | .error (.materialMissing message) => .ok (.error message)
      | .error failure => .error failure
      | .ok value =>
        if value.toList.length < minimumRedactableLength then
          .ok (.error (s!"material is shorter than {minimumRedactableLength} characters and " ++
            "cannot be redacted from an error message"))
        else .ok (.ok value) := by
  obtain ⟨hparse, huse⟩ := Option.filter_eq_some_iff.mp h
  obtain ⟨hrecognised, henabled⟩ : scheme ∈ source.recognised ∧ scheme ∈ enabledSchemes settings :=
    by simpa using huse
  have hget : source.dereferencers.get? scheme =
      some (implemented host printable settings scheme) := by
    rw [hsource, get?_dereferencers hbuild, if_pos henabled]
  unfold StoredReferenceSource.dereference
  rw [hparse]
  cases hread : implemented host printable settings scheme locator with
  | error failure => cases failure <;> simp [hrecognised, hget, hread]
  | ok value => simp [hrecognised, hget, hread]

/-- A reference has the material its scheme's dereferencer reads, if it is long enough. -/
theorem dereference_eq_material {r value : String} :
    source.dereference printable r = .ok (.ok value) ↔
      ∃ scheme locator, usable settings source.recognised r = some (scheme, locator) ∧
        implemented host printable settings scheme locator = .ok value ∧
        minimumRedactableLength ≤ value.toList.length := by
  constructor
  · intro h
    obtain ⟨scheme, locator, hu⟩ := usable_of_dereference hbuild hsource fun why hwhy => by
      rw [hwhy] at h
      cases h
    refine ⟨scheme, locator, hu, ?_⟩
    rw [dereference_of_usable hbuild hsource hu] at h
    split at h
    · cases h
    · cases h
    · next found hfound =>
      split at h
      · cases h
      · next hlength =>
        obtain rfl := Except.ok.inj (Except.ok.inj h)
        exact ⟨hfound, not_lt.mp hlength⟩
  · rintro ⟨scheme, locator, hu, hread, hlength⟩
    rw [dereference_of_usable hbuild hsource hu, hread]
    exact if_neg (not_lt.mpr hlength)

/-- A reference raises what its scheme's dereferencer raises, unless that is missing material. -/
theorem dereference_eq_error {r : String} {failure : ReadFailure} :
    source.dereference printable r = .error failure ↔
      ∃ scheme locator, usable settings source.recognised r = some (scheme, locator) ∧
        implemented host printable settings scheme locator = .error failure ∧
        ∀ message, failure ≠ .materialMissing message := by
  constructor
  · intro h
    obtain ⟨scheme, locator, hu⟩ := usable_of_dereference hbuild hsource fun why hwhy => by
      rw [hwhy] at h
      cases h
    refine ⟨scheme, locator, hu, ?_⟩
    rw [dereference_of_usable hbuild hsource hu] at h
    split at h
    · cases h
    · next found hnot hfound =>
      obtain rfl := Except.error.inj h
      exact ⟨hfound, fun message he => hnot message he⟩
    · split at h <;> cases h
  · rintro ⟨scheme, locator, hu, hread, hnot⟩
    rw [dereference_of_usable hbuild hsource hu, hread]
    cases failure with
    | materialMissing message => exact absurd rfl (hnot message)
    | storeUnavailable message => rfl
    | raised name => rfl

omit hsource in
/-- The scheme of a reference that can be used is one of the two. -/
theorem scheme_of_usable {r scheme locator : String}
    (h : usable settings source.recognised r = some (scheme, locator)) :
    scheme = "env" ∨ scheme = "file" := by
  obtain ⟨-, huse⟩ := Option.filter_eq_some_iff.mp h
  exact scheme_of_enabled hbuild (by simpa using (Bool.and_eq_true_iff.mp huse).2)

end Deployment

end DotmacIntegrator.Secrets
