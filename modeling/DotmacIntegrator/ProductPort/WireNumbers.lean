import DotmacIntegrator.Foundation.Rfc8259
import DotmacIntegrator.ProductPort.Collections
import DotmacIntegrator.ProductPort.Posts

/-!
# The numbers on the wire

The bounds of a number are enforced by negated comparisons, which NaN passes: a coordinate that is
NaN is accepted, and posted by a name the grammar of JSON does not have. Every other float of a
body is a finite number within its bounds.

## Main definitions

* `coordinates`: the latitudes and longitudes of a message
* `WireNumbersLaw`: they are in range, and what is posted is JSON
* `AdmitsNaN`, `NeutralInvalid`: where it fails

## Main results

* `inRange_iff_ne_nan`: a coordinate that passes its check is in range unless it is NaN
* `body_finite`: without a NaN among its coordinates, every float of a body is finite
* `wireNumbersLaw_iff`: exactly when the law holds
-/

namespace DotmacIntegrator.ProductPort

/-- The fields of a location that are coordinates. -/
def coordinateFields : List WireField := LOCATION_FIELDS.filter fun f => f.kind = .float

/-- The coordinates of an attachment. -/
def coordinatesAt : Json → List (WireField × Json)
  | .obj attachment =>
    match read attachment "location" with
    | .obj location => coordinateFields.map fun f => (f, read location f.name)
    | _ => []
  | _ => []

/-- The coordinates of a message, or of its body. -/
def coordinates (message : Dict String Json) : List (WireField × Json) :=
  match read message "attachments" with
  | .arr items => items.flatMap coordinatesAt
  | _ => []

/-- A finite number within the declared minimum and maximum. -/
def InRange (field : WireField) (v : Json) : Prop :=
  ∃ x q, v = .float x ∧ x.value? = some q ∧
    (∀ bound, field.minimum = some bound → (bound : ℚ) ≤ q) ∧
    ∀ bound, field.maximum = some bound → q ≤ (bound : ℚ)

/-- The UTF-8 of a JSON text. -/
def ValidJson (data : ByteArray) : Prop :=
  ∃ text, String.fromUTF8? data = some text ∧ Rfc8259.Text text.toList

section

variable (rt : Runtime)
  (productObservationDocument : ProductRequest → Except ForeignError (Dict String Json))
  (held : Secrets.Held) (client : ObservationPortClient) (request : ProductRequest)

/-- **Only in-range numbers reach the wire.** -/
structure WireNumbersLaw : Prop where
  inRange : ∀ slot body, canonicalBody request.observation = .ok (slot, body) →
    ∀ p ∈ coordinates body, InRange p.1 p.2
  valid : ∀ http ∈ deliverPosts rt productObservationDocument held client request ++
    mirrorPosts rt productObservationDocument held client request, ValidJson http.body

/-- The module's own document is posted, and has a float that is no number. -/
structure NeutralInvalid : Prop where
  held : (held.get? client.apiKeyRef).isSome
  eligible : ∃ descriptor, eligiblePort client request true = .ok descriptor ∧
    descriptor.wireSchemaVersion = some observationWire
  document : ∃ document, productObservationDocument request = .ok document ∧
    (Json.obj document).Printable ∧ ¬ (Json.obj document).AllFloats PyFloat.IsFinite

end

/-- An observation that is admitted with a coordinate that is NaN. -/
structure AdmitsNaN (observation : Dict String Json) : Prop where
  admitted : Admitted observation
  nan : ∃ source, read observation messageKey = .obj source ∧
    ∃ p ∈ coordinates source, p.2 = .float .nan

/-! ### Leaves -/

/-- A field of floats has both bounds. -/
def Bounded (field : WireField) : Prop :=
  field.kind = .float → field.minimum.isSome ∧ field.maximum.isSome

instance (field : WireField) : Decidable (Bounded field) :=
  inferInstanceAs (Decidable (field.kind = .float → _))

/-- A leaf that passes the check of a field of floats, and is neither null nor NaN, is in range. -/
theorem WireField.Passes.inRange {field : WireField} {v : Json} (h : field.Passes v)
    (hkind : field.kind = .float) (hbounded : Bounded field) (hnull : v ≠ .null)
    (hnan : v ≠ .float .nan) : InRange field v := by
  obtain ⟨hmin, hmax⟩ := hbounded hkind
  obtain ⟨low, hlow⟩ := Option.isSome_iff_exists.mp hmin
  obtain ⟨high, hhigh⟩ := Option.isSome_iff_exists.mp hmax
  have hconforms := h.resolve_right fun hn => hnan hn.2
  have haccepts := hconforms.kind hnull
  have hstr : field.kind ≠ .str := by simp [hkind]
  have hge := hconforms.minimum low hlow hstr hnull
  have hle := hconforms.maximum high hhigh hstr hnull
  rw [hkind] at haccepts
  cases v with
  | float x =>
    cases x with
    | finite q =>
      exact ⟨_, q, rfl, rfl, by simpa [hlow, AtLeast] using hge, by simpa [hhigh, AtMost] using hle⟩
    | negZero =>
      exact ⟨_, 0, rfl, rfl, by simpa [hlow, AtLeast] using hge, by simpa [hhigh, AtMost] using hle⟩
    -- The infinities are beyond one of the bounds.
    | posInf => exact absurd hle id
    | negInf => exact absurd hge id
    | nan => exact absurd rfl hnan
  | null | bool | int | str | arr | obj => cases haccepts

/-- **A coordinate that passes its check is in range unless it is NaN.** -/
theorem inRange_iff_ne_nan {field : WireField} {v : Json} (hfield : field ∈ coordinateFields)
    (h : field.Passes v) : InRange field v ↔ v ≠ .float .nan := by
  have hdeclared : ∀ f ∈ coordinateFields, f.kind = .float ∧ f.required ∧ Bounded f := by decide
  obtain ⟨hkind, hrequired, hbounded⟩ := hdeclared field hfield
  constructor
  · rintro ⟨x, q, hx, hq, -⟩ hnan
    obtain rfl := Json.float.inj (hx.symm.trans hnan)
    cases hq
  · intro hnan
    have hconforms := h.resolve_right fun hn => hnan hn.2
    exact h.inRange hkind hbounded (hconforms.required hrequired).1 hnan

/-- A leaf that passes its check and is not NaN has only finite floats. -/
theorem WireField.Passes.allFinite {field : WireField} {v : Json} (h : field.Passes v)
    (hbounded : Bounded field) (hnan : v ≠ .float .nan) : v.AllFloats PyFloat.IsFinite := by
  have hconforms : field.Conforms v := h.resolve_right fun hn => hnan hn.2
  cases v with
  | float x =>
    have haccepts := hconforms.kind (by simp)
    -- Only a field of floats takes a float, and it has both bounds.
    have hkind : field.kind = .float := by
      cases hk : field.kind <;> simp_all [WireKind.accepts]
    obtain ⟨_, q, hx, hq, -⟩ := h.inRange hkind hbounded (by simp) hnan
    obtain rfl := Json.float.inj hx
    have hfinite : x.IsFinite := by
      rw [PyFloat.IsFinite, hq]
      rfl
    simpa [Json.AllFloats, Json.floats] using hfinite
  | null | bool | int | str => simp [Json.AllFloats, Json.floats]
  | arr xs | obj ms =>
    have haccepts := hconforms.kind (by simp)
    cases hk : field.kind <;> simp_all [WireKind.accepts]

/-! ### Levels -/

/-- The leaves of an expanded level have only finite floats, where none of its floats is NaN. -/
theorem allFinite_of_expand {fields : List WireField} {place : String}
    {source level : Dict String Json} (h : expand source fields place = .ok level)
    (hbounded : ∀ f ∈ fields, Bounded f)
    (hnan : ∀ f ∈ fields, f.kind = .float → read source f.name ≠ .float .nan) :
    ∀ p ∈ level, p.2.AllFloats PyFloat.IsFinite := by
  obtain ⟨rfl, -, hchecked⟩ := expand_eq_ok.mp h
  intro p hp
  obtain ⟨f, hf, rfl⟩ := List.mem_map.mp hp
  have hpasses := checked_iff_passes.mp (hchecked f hf)
  by_cases hkind : f.kind = .float
  · exact hpasses.allFinite (hbounded f hf) (hnan f hf hkind)
  · -- A field of another kind does not accept NaN.
    refine hpasses.allFinite (hbounded f hf) fun hv => ?_
    have haccepts := (hpasses.conforms hkind).kind (by simp [hv])
    rw [hv] at haccepts
    cases hk : f.kind <;> simp_all [WireKind.accepts]

/-- A level without a field of floats has none. -/
theorem allFinite_of_expand_of_ne {fields : List WireField} {place : String}
    {source level : Dict String Json} (h : expand source fields place = .ok level)
    (hkind : ∀ f ∈ fields, f.kind ≠ .float) : ∀ p ∈ level, p.2.AllFloats PyFloat.IsFinite :=
  allFinite_of_expand h (fun f hf hk => absurd hk (hkind f hf))
    fun f hf hk => absurd hk (hkind f hf)

theorem allFinite_of_expandNested {fields : List WireField} {place : String} {value w : Json}
    (h : expandNested value fields place = .ok w) (hbounded : ∀ f ∈ fields, Bounded f)
    (hnan : ∀ members, value = .obj members → ∀ f ∈ fields, f.kind = .float →
      read members f.name ≠ .float .nan) : w.AllFloats PyFloat.IsFinite := by
  rcases expandNested_eq_ok.mp h with ⟨-, rfl⟩ | ⟨members, level, rfl, hl, rfl⟩
  · simp [Json.AllFloats, Json.floats]
  · exact .obj (allFinite_of_expand hl hbounded (hnan members rfl))

/-! ### Attachments and messages -/

/-- An attachment of the body has the coordinates that were supplied. -/
theorem coordinatesAt_of_carried {x y : Json} (h : Object AttachmentCarried x y) :
    coordinatesAt y = coordinatesAt x := by
  cases h with
  | mk h =>
    have hlocation := h.location
    simp only [coordinatesAt]
    generalize read _ "location" = v at hlocation ⊢
    generalize read _ "location" = w at hlocation ⊢
    cases hlocation with
    | absent => rfl
    | present hobject =>
      cases hobject with
      | mk hcarries => simp only [hcarries _]

/-- A body has the coordinates of its message. -/
theorem coordinates_of_canonicalMessage {source body : Dict String Json}
    (h : canonicalMessage source = .ok body) : coordinates body = coordinates source := by
  obtain ⟨xs, ys, hcounts, hys, hitems⟩ := attachmentsCarried_of_canonicalMessage h
  have hsame : ys.flatMap coordinatesAt = xs.flatMap coordinatesAt := by
    clear hcounts hys
    induction hitems with
    | nil => rfl
    | cons hxy _ ih => rw [List.flatMap_cons, List.flatMap_cons, coordinatesAt_of_carried hxy, ih]
  rw [coordinates, hys]
  simp only [hsame, coordinates]
  -- What counts as absent has no attachments on either side.
  rcases hcounts with hlist | ⟨rfl, hnull | habsent⟩
  · rw [hlist]
  · rw [hnull]
    rfl
  · cases hv : read source "attachments" with
    | arr items => exact absurd (.inr ⟨items, hv⟩) habsent.not_listOrNull
    | null | bool | int | float | str | obj => rfl

/-- The coordinates of a message that is admitted pass their checks. -/
theorem AdmittedMessage.coordinates_pass {source : Dict String Json} (h : AdmittedMessage source) :
    ∀ p ∈ coordinates source, p.1 ∈ coordinateFields ∧ p.1.Passes p.2 := by
  obtain ⟨items, hcounts, hitems, -⟩ := h.attachments
  intro p hp
  rw [coordinates] at hp
  split at hp
  · next found hfound =>
    rw [hfound, ← orEmpty_eq_arr, orEmpty_arr] at hcounts
    obtain rfl := Json.arr.inj hcounts
    obtain ⟨item, hitem, hp⟩ := List.mem_flatMap.mp hp
    obtain ⟨attachment, rfl, -, hlocation⟩ := hitems item hitem
    rw [coordinatesAt] at hp
    split at hp
    · next location hl =>
      obtain ⟨f, hf, rfl⟩ := List.mem_map.mp hp
      rcases hlocation with hnull | ⟨members, hmembers, hsupplies⟩
      · rw [hnull] at hl
        cases hl
      · obtain rfl := Json.obj.inj (hl.symm.trans hmembers)
        exact ⟨hf, hsupplies.passes f (List.mem_filter.mp hf).1⟩
    · cases hp
  · cases hp

theorem allFinite_of_canonicalAttachment {item w : Json} (h : canonicalAttachment item = .ok w)
    (hnan : ∀ p ∈ coordinatesAt item, p.2 ≠ .float .nan) : w.AllFloats PyFloat.IsFinite := by
  obtain ⟨attachment, expanded, location, rfl, hl, hlocation, rfl⟩ := canonicalAttachment_eq_ok.mp h
  rw [set_of_expand hl (by decide)]
  refine .obj (List.forall_mem_append.mpr ⟨allFinite_of_expand_of_ne hl (by decide), ?_⟩)
  simp only [List.mem_singleton, forall_eq]
  refine allFinite_of_expandNested hlocation (by decide) fun members hmembers f hf hkind => ?_
  refine hnan (f, read members f.name) ?_
  simp only [coordinatesAt, hmembers]
  exact List.mem_map_of_mem (List.mem_filter.mpr ⟨hf, by simpa using hkind⟩)

theorem allFinite_of_canonicalMessage {source body : Dict String Json}
    (h : canonicalMessage source = .ok body)
    (hnan : ∀ p ∈ coordinates source, p.2 ≠ .float .nan) :
    (Json.obj body).AllFloats PyFloat.IsFinite := by
  obtain ⟨level, profile, ys, hl, hprofile, hys, rfl, -⟩ := canonicalMessage_eq_ok.mp h
  rw [read_only (by decide)] at hys
  obtain ⟨xs, hxs, hitems⟩ := canonicalAttachments_eq_ok.mp hys
  -- Three parts: the scalars and the profile have no float, the attachments only coordinates.
  rw [set_set_of_expand hl (by decide) (by decide)]
  refine .obj (List.forall_mem_append.mpr ⟨allFinite_of_expand_of_ne hl (by decide), ?_⟩)
  simp only [List.mem_cons, List.not_mem_nil, or_false, forall_eq_or_imp, forall_eq]
  have hprofileFields : ∀ f ∈ CONTACT_PROFILE_FIELDS, f.kind ≠ .float := by decide
  refine ⟨allFinite_of_expandNested hprofile (by decide) fun _ _ f hf hkind =>
    absurd hkind (hprofileFields f hf), .arr fun y hy => ?_⟩
  obtain ⟨x, hx, hxy⟩ := Except.exists_of_mapM_eq_ok hitems y hy
  refine allFinite_of_canonicalAttachment hxy fun p hp => hnan p ?_
  rcases orEmpty_eq_arr.mp hxs with hlist | ⟨rfl, -⟩
  · simp only [coordinates, hlist]
    exact List.mem_flatMap.mpr ⟨x, hx, hp⟩
  · cases hx

theorem allFinite_of_canonicalReceipt {source body : Dict String Json}
    (h : canonicalReceipt source = .ok body) : (Json.obj body).AllFloats PyFloat.IsFinite := by
  obtain ⟨level, codes, hl, hcodes, rfl⟩ := canonicalReceipt_eq_ok.mp h
  obtain ⟨-, hstrings⟩ := canonicalErrorCodes_eq_ok.mp hcodes
  rw [set_of_expand hl (by decide)]
  refine .obj (List.forall_mem_append.mpr ⟨allFinite_of_expand_of_ne hl (by decide), ?_⟩)
  simp only [List.mem_singleton, forall_eq]
  refine .arr fun code hcode => ?_
  obtain ⟨text, rfl⟩ := all_accepts_str_iff.mp hstrings code hcode
  simp [Json.AllFloats, Json.floats]

/-- **Without a NaN among its coordinates, every float of a body is finite.** -/
theorem body_finite {observation body : Dict String Json} {slot : String}
    (h : canonicalBody observation = .ok (slot, body)) (hnan : ¬ AdmitsNaN observation) :
    (Json.obj body).AllFloats PyFloat.IsFinite := by
  have hadmitted := exists_canonicalBody_iff.mp ⟨slot, body, h⟩
  rcases canonicalBody_eq_ok_cases.mp h with
    ⟨source, rfl, -, hsource, hbody⟩ | ⟨source, rfl, -, hsource, hbody⟩
  · exact allFinite_of_canonicalMessage hbody fun p hp hv =>
      hnan ⟨hadmitted, source, hsource, p, hp, hv⟩
  · exact allFinite_of_canonicalReceipt hbody

/-- **The coordinates of every body are in range iff none that is admitted is NaN.** -/
theorem coordinates_inRange_iff {observation : Dict String Json} :
    (∀ slot body, canonicalBody observation = .ok (slot, body) →
      ∀ p ∈ coordinates body, InRange p.1 p.2) ↔ ¬ AdmitsNaN observation := by
  constructor
  · rintro h ⟨hadmitted, source, hsource, p, hp, hv⟩
    cases hadmitted with
    | message hslot hother hmessage =>
      obtain rfl := Json.obj.inj (hslot.symm.trans hsource)
      obtain ⟨body, hbody⟩ := exists_canonicalMessage_iff.mpr hmessage
      have hcanonical : canonicalBody observation = .ok (messageKey, body) :=
        canonicalBody_eq_ok_cases.mpr (.inl ⟨_, rfl, hother, hslot, hbody⟩)
      -- The body has the very coordinate that was supplied.
      obtain ⟨hfield, hpasses⟩ := hmessage.coordinates_pass p hp
      rw [← coordinates_of_canonicalMessage hbody] at hp
      exact (inRange_iff_ne_nan hfield hpasses).mp (h _ _ hcanonical p hp) hv
    | receipt _ hother _ =>
      rw [hother] at hsource
      cases hsource
  · intro hnan slot body h p hp
    have hadmitted := exists_canonicalBody_iff.mp ⟨slot, body, h⟩
    rcases canonicalBody_eq_ok_cases.mp h with
      ⟨source, rfl, -, hsource, hbody⟩ | ⟨source, rfl, -, hsource, hbody⟩
    · rw [coordinates_of_canonicalMessage hbody] at hp
      obtain ⟨hfield, hpasses⟩ :=
        (exists_canonicalMessage_iff.mp ⟨body, hbody⟩).coordinates_pass p hp
      exact (inRange_iff_ne_nan hfield hpasses).mpr fun hv =>
        hnan ⟨hadmitted, source, hsource, p, hp, hv⟩
    · -- A receipt has no attachments.
      obtain ⟨level, codes, hl, -, rfl⟩ := canonicalReceipt_eq_ok.mp hbody
      have hnone : read (level.set "error_codes" (.arr codes)) "attachments" = .null := by
        have hkey : "attachments" ∉ level.keys := by
          rw [keys_of_expand hl]
          decide
        rw [read_set, if_neg (by decide), read, Dict.get?_eq_none_iff.mpr hkey]
        rfl
      rw [coordinates, hnone] at hp
      cases hp

/-! ### What is posted -/

variable {rt : Runtime}
  {productObservationDocument : ProductRequest → Except ForeignError (Dict String Json)}
  {held : Secrets.Held} {client : ObservationPortClient} {request : ProductRequest}

/-- An envelope has the floats of its body. -/
theorem envelope_finite {ε : Type} {envelope : Dict String Json}
    (h : (buildEnvelope rt request : Except (BuildError ε) _) = .ok envelope)
    (hnan : ¬ AdmitsNaN request.observation) : (Json.obj envelope).AllFloats PyFloat.IsFinite := by
  obtain ⟨slot, body, identity, scope, instant, fingerprint, -, hbody, hcontext, -, -, -, rfl⟩ :=
    buildEnvelope_eq_ok.mp h
  have hstr : ∀ text, (Json.str text).AllFloats PyFloat.IsFinite := by
    simp [Json.AllFloats, Json.floats]
  have hidentity : ∀ f ∈ ENVELOPE_FIELDS,
      (read identity f.name).AllFloats PyFloat.IsFinite := by
    intro f hf
    obtain ⟨text, htext⟩ := exists_str_of_providerContext hcontext f hf
    exact htext ▸ hstr text
  have hscope : (Json.obj [("kind", .str scope.kind), ("ref", .str scope.ref)]).AllFloats
      PyFloat.IsFinite := .obj (by simp [hstr])
  have hversion : (Json.int request.contractVersion).AllFloats PyFloat.IsFinite := by
    simp [Json.AllFloats, Json.floats]
  refine .obj ?_
  simp only [envelopeMembers, List.mem_cons, List.not_mem_nil, or_false, forall_eq_or_imp,
    forall_eq]
  exact ⟨hstr _, hversion, hidentity ENVELOPE_FIELDS[0] (by decide),
    hidentity ENVELOPE_FIELDS[1] (by decide), hstr _, hidentity ENVELOPE_FIELDS[2] (by decide),
    hstr _, hstr _, hscope, body_finite hbody hnan⟩

/-- **What is posted is JSON iff the floats of its document are finite.** -/
theorem validJson_postedBytes_iff
    (hrepr : ∀ x : PyFloat, x.IsFinite → Json.FloatLiteral (rt.floats.repr x))
    {document : Dict String Json} {data : ByteArray} (hdata : postedBytes rt document = some data) :
    ValidJson data ↔ (Json.obj document).AllFloats PyFloat.IsFinite := by
  obtain ⟨text, htext, rfl⟩ := Option.map_eq_some_iff.mp hdata
  obtain ⟨-, rfl⟩ := (Json.dumps_eq_some rt.floats).mp htext
  rw [ValidJson, fromUTF8?_toUTF8, ← Rfc8259.text_encode_iff hrepr]
  constructor
  · rintro ⟨found, hfound, hvalid⟩
    obtain rfl := Option.some.inj hfound
    rwa [String.toList_ofList] at hvalid
  · intro hvalid
    exact ⟨_, rfl, by rwa [String.toList_ofList]⟩

theorem httpRequest_eq_ok {url : String} {document : Dict String Json} {http : HttpRequest}
    (h : httpRequest rt held client url document request = .ok http) :
    postedBytes rt document = some http.body := by
  obtain ⟨key, data, -, hdata, rfl⟩ := httpRequest_eq_ok_iff.mp h
  exact hdata

/-- With the credential held, a document that can be written is posted. -/
theorem exists_httpRequest {url : String} {document : Dict String Json}
    (hheld : (held.get? client.apiKeyRef).isSome) (hprintable : (Json.obj document).Printable) :
    ∃ http, httpRequest rt held client url document request = .ok http := by
  obtain ⟨data, hdata⟩ := postedBytes_of_printable rt hprintable
  obtain ⟨key, hkey⟩ := Option.isSome_iff_exists.mp hheld
  exact ⟨_, httpRequest_eq_ok_iff.mpr ⟨key, data, hkey, hdata, rfl⟩⟩

theorem mem_postsTo {addressed : Except (AddressError ForeignError) (String × Dict String Json)}
    {http : HttpRequest} : http ∈ postsTo rt held client addressed request ↔
      ∃ url document, addressed = .ok (url, document) ∧
        httpRequest rt held client url document request = .ok http := by
  cases addressed with
  | error e => simp [postsTo]
  | ok found =>
    obtain ⟨url, document⟩ := found
    rw [postsTo]
    cases hhttp : httpRequest rt held client url document request with
    | error e => simp [hhttp]
    | ok made => simp [hhttp, eq_comm]

theorem eligiblePort_eq_ok {mirror : Bool} {descriptor : ProductPortDescriptor}
    (h : eligiblePort client request mirror = .ok descriptor) :
    request.destination.productPort = some descriptor := by
  rw [eligiblePort] at h
  split_ifs at h
  split at h
  · cases h
  · next found hfound =>
    split_ifs at h
    rw [hfound, Except.ok.inj h]

/-- A port that is eligible for writing is eligible for comparing. -/
theorem eligiblePort_mirror {mirror : Bool} {descriptor : ProductPortDescriptor}
    (h : eligiblePort client request mirror = .ok descriptor) :
    eligiblePort client request true = .ok descriptor := by
  cases mirror with
  | true => exact h
  | false =>
    have hport := eligiblePort_eq_ok h
    rw [eligiblePort, hport] at h ⊢
    split_ifs at h ⊢ with happlication
    simp only at h ⊢
    split_ifs at h with hstate
    rw [allowedStates, if_neg (by decide), List.mem_singleton] at hstate
    rw [if_neg (by simp [allowedStates, hstate])]

/-- The document that is posted is the module's own, or an envelope. -/
theorem document_of_address {mirror : Bool} {url : String} {document : Dict String Json}
    (h : address rt productObservationDocument client request mirror = .ok (url, document)) :
    (buildEnvelope rt request : Except (BuildError ForeignError) _) = .ok document ∨
      (∃ descriptor, eligiblePort client request true = .ok descriptor ∧
        descriptor.wireSchemaVersion = some observationWire) ∧
      productObservationDocument request = .ok document := by
  obtain ⟨descriptor, heligible, -, hdocument⟩ := address_eq_ok.mp h
  rw [buildProductDocument, eligiblePort_eq_ok heligible] at hdocument
  split at hdocument
  · cases hdocument
  · next version hversion =>
    split_ifs at hdocument with henvelope hneutral
    · exact .inl hdocument
    · subst hneutral
      exact .inr ⟨⟨descriptor, eligiblePort_mirror heligible, hversion⟩,
        Except.mapError_eq_ok.mp hdocument⟩

/-- The requests of a client post the document of an address. -/
theorem exists_address_of_mem {http : HttpRequest}
    (h : http ∈ deliverPosts rt productObservationDocument held client request ++
      mirrorPosts rt productObservationDocument held client request) :
    ∃ mirror url document,
      address rt productObservationDocument client request mirror = .ok (url, document) ∧
        httpRequest rt held client url document request = .ok http := by
  rcases List.mem_append.mp h with hdeliver | hmirror
  · rw [deliverPosts] at hdeliver
    split_ifs at hdeliver with hwrites
    · cases hdeliver
    · exact ⟨false, mem_postsTo.mp hdeliver⟩
  · exact ⟨true, mem_postsTo.mp hmirror⟩

/-- **Everything that is posted is JSON** where no coordinate that is admitted is NaN, and the
module's own document has only finite floats. -/
theorem valid_of_mem_posts
    (hrepr : ∀ x : PyFloat, x.IsFinite → Json.FloatLiteral (rt.floats.repr x))
    (hnan : ¬ AdmitsNaN request.observation)
    (hneutral : ¬ NeutralInvalid productObservationDocument held client request)
    {http : HttpRequest}
    (h : http ∈ deliverPosts rt productObservationDocument held client request ++
      mirrorPosts rt productObservationDocument held client request) : ValidJson http.body := by
  obtain ⟨mirror, url, document, haddress, hhttp⟩ := exists_address_of_mem h
  have hdata := httpRequest_eq_ok hhttp
  rw [validJson_postedBytes_iff hrepr hdata]
  rcases document_of_address haddress with henvelope | ⟨heligible, hdocument⟩
  · exact envelope_finite henvelope hnan
  · by_contra hnot
    -- The other document is the module's own, and what was posted of it could be written.
    obtain ⟨text, htext, -⟩ := Option.map_eq_some_iff.mp hdata
    obtain ⟨resolved, hresolved, -⟩ := Except.bind_eq_ok.mp hhttp
    exact hneutral ⟨(Secrets.resolveSecrets_singleton (Except.mapError_eq_ok.mp hresolved)).1,
      heligible, document, hdocument, ((Json.dumps_eq_some rt.floats).mp htext).1, hnot⟩

/-- The module's own document, with a float that is no number, is posted as it is. -/
theorem NeutralInvalid.posts
    (hrepr : ∀ x : PyFloat, x.IsFinite → Json.FloatLiteral (rt.floats.repr x))
    (h : NeutralInvalid productObservationDocument held client request) :
    ∃ http ∈ mirrorPosts rt productObservationDocument held client request,
      ¬ ValidJson http.body := by
  obtain ⟨descriptor, heligible, hwire⟩ := h.eligible
  obtain ⟨document, hdocument, hprintable, hnot⟩ := h.document
  have hbuild : buildProductDocument rt productObservationDocument request = .ok document := by
    rw [buildProductDocument, eligiblePort_eq_ok heligible, Option.bind_some, hwire]
    simp only
    rw [if_neg (by decide), if_pos trivial, hdocument]
    rfl
  obtain ⟨http, hhttp⟩ : ∃ http, httpRequest rt held client (client.base ++ descriptor.mirrorPath)
      document request = .ok http := exists_httpRequest h.held hprintable
  refine ⟨http, mem_postsTo.mpr ⟨_, document, address_eq_ok.mpr
    ⟨descriptor, heligible, rfl, hbuild⟩, hhttp⟩, fun hvalid => hnot ?_⟩
  exact (validJson_postedBytes_iff hrepr (httpRequest_eq_ok hhttp)).mp hvalid

/-- **Only in-range numbers reach the wire, unless NaN does**: the law holds of exactly the requests
whose observation is not admitted with a NaN coordinate, and for which the module builds no
document with a float that is no number. -/
theorem wireNumbersLaw_iff (rt : Runtime)
    (productObservationDocument : ProductRequest → Except ForeignError (Dict String Json))
    (held : Secrets.Held) (client : ObservationPortClient) (request : ProductRequest)
    (hrepr : ∀ x : PyFloat, x.IsFinite → Json.FloatLiteral (rt.floats.repr x)) :
    WireNumbersLaw rt productObservationDocument held client request ↔
      ¬ AdmitsNaN request.observation ∧
        ¬ NeutralInvalid productObservationDocument held client request := by
  constructor
  · intro law
    refine ⟨coordinates_inRange_iff.mp law.inRange, fun hneutral => ?_⟩
    obtain ⟨http, hmem, hinvalid⟩ := hneutral.posts hrepr
    exact hinvalid (law.valid http (List.mem_append_right _ hmem))
  · rintro ⟨hnan, hneutral⟩
    exact ⟨coordinates_inRange_iff.mpr hnan, fun http hmem =>
      valid_of_mem_posts hrepr hnan hneutral hmem⟩

theorem floatLiteral_locatedRuntime (x : PyFloat) (_ : x.IsFinite) :
    Json.FloatLiteral (locatedRuntime.floats.repr x) := by
  have hdigits : ∀ i frac, Json.Digits i → Json.Digits frac → i.head? ≠ some '0' →
      Json.FloatLiteral (i ++ '.' :: frac) := fun i frac hi hfrac hzero =>
    ⟨i, '.' :: frac, [], by simp, ⟨[], i, rfl, .inl rfl, hi, .inr hzero⟩,
      .inr ⟨frac, rfl, hfrac⟩, .inl rfl, .inl (by simp)⟩
  by_cases hx : x = .finite 6.5
  · simp only [locatedRuntime, if_pos hx]
    exact hdigits ['6'] ['5'] (by decide) (by decide) (by decide)
  · simp only [locatedRuntime, if_neg hx]
    exact hdigits ['3'] ['2', '5'] (by decide) (by decide) (by decide)

/-- The credential of `locatedClient` is held. -/
def postedHeld : Secrets.Held := [("env:PRODUCT_PORT_KEY", "k-9f2c8d71")]

theorem wireNumbersLaw_iff_locatedRequest :
    WireNumbersLaw locatedRuntime (fun _ => .error .other) postedHeld locatedClient
      locatedRequest := by
  refine (wireNumbersLaw_iff locatedRuntime (fun _ => .error .other) postedHeld locatedClient
    locatedRequest floatLiteral_locatedRuntime).mpr ⟨?_, ?_⟩
  · rintro ⟨-, source, hsource, hnan⟩
    obtain rfl := Json.obj.inj hsource
    revert hnan
    decide
  · rintro ⟨-, -, document, hdocument, -⟩
    cases hdocument

/-- `locatedMessage`, at a latitude that is NaN. -/
def unlocatedMessage : Dict String Json :=
  (locatedMessage.without ["message"]) ++ [("message", .obj
    [("external_message_id", .str "wamid.HBgNMjM0"), ("contact_address", .str "+2348012345678"),
     ("body", .str ""), ("contact_profile", .null),
     ("attachments", .arr [.obj [("asset_type", .str "location"),
       ("location", .obj [("latitude", .float .nan), ("longitude", .float (.finite 3.25))])]])])]

/-- NaN is accepted as a latitude. -/
theorem not_wireNumbersLaw_unlocated :
    ¬ ∀ request, WireNumbersLaw locatedRuntime (fun _ => .error .other) postedHeld locatedClient
      request := by
  intro h
  have hok : ∃ slot body, canonicalBody unlocatedMessage = .ok (slot, body) := by
    have hisOk : (canonicalBody unlocatedMessage).isOk := by decide +kernel
    obtain ⟨⟨slot, body⟩, hbody⟩ := Except.isOk_iff.mp hisOk
    exact ⟨slot, body, hbody⟩
  refine coordinates_inRange_iff.mp
    (h { locatedRequest with observation := unlocatedMessage }).inRange ?_
  exact ⟨exists_canonicalBody_iff.mp hok, _, rfl, (coordinateFields[0], .float .nan), by decide,
    rfl⟩

end DotmacIntegrator.ProductPort
