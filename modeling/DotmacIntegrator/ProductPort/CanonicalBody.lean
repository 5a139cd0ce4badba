import DotmacIntegrator.Foundation.Fallible
import DotmacIntegrator.ProductPort.Schema

/-!
# The canonical body

The observation sub-document, expanded exactly as the destination dumps it: every declared field
of every level is present, and what was not supplied is null.

## Main definitions

* `checked`, `expand`, `mapping`: one leaf, one level, and the reading of an object
* `canonicalBody`: the slot and the body of an observation

## Main results

* `checked_eq_ok`: a checked leaf is the leaf supplied, and conforms to its field
* `expand_eq_ok`: an expanded level is the level supplied, completed with nulls
* `canonicalBody_eq_ok`: the slot, and the body of that slot
-/

namespace DotmacIntegrator.ProductPort

/-- `source.get(key)`: the value under the key, null when there is none. -/
def read (source : Dict String Json) (key : String) : Json := (source.get? key).getD .null

theorem read_eq_null_or_mem (source : Dict String Json) (key : String) :
    read source key = .null ∨ (key, read source key) ∈ source := by
  unfold read
  cases hv : source.get? key with
  | none => exact Or.inl rfl
  | some v => exact Or.inr (Dict.mem_of_get? hv)

theorem allFloats_read {P : PyFloat → Prop} {source : Dict String Json}
    (h : (Json.obj source).AllFloats P) (key : String) : (read source key).AllFloats P := by
  rcases read_eq_null_or_mem source key with hnull | hmem
  · simp [hnull, Json.AllFloats, Json.floats]
  · exact h.member hmem

/-- What a field refuses once its bounds are compared with the value: `below` and `above` compare
the value with a bound. -/
def bounded (field : WireField) (value : Json) (place : String) (below above : ℤ → Bool) :
    Except EnvelopeNotConstructible Json :=
  match field.minimum.filter below, field.maximum.filter above with
  | some bound, _ => .error (.belowMinimum place field.name bound)
  | none, some bound => .error (.aboveMaximum place field.name bound)
  | none, none => .ok value

/-- `_checked`: the value itself, unless it does not fit its field. -/
def checked (field : WireField) (value : Json) (place : String) :
    Except EnvelopeNotConstructible Json :=
  if value = .null then
    if field.required then .error (.missing place field.name) else .ok .null
  else if field.kind.accepts value = false then
    .error (.wrongKind place field.name field.kind (typeName value))
  else
    match value with
    | .str s =>
      if field.required ∧ s = "" ∧ field.allowEmpty = false then .error (.empty place field.name)
      else
        match field.maxLength.filter (· < s.length) with
        | some limit => .error (.tooLong place field.name s.length limit)
        | none => .ok value
    | .int n => bounded field value place (n < ·) (· < n)
    | .float x => bounded field value place (fun b => x.lt b) (fun b => x.gt b)
    | _ => .error (.wrongKind place field.name field.kind (typeName value))

/-- The keys of a level that its schema does not declare. -/
def undeclared (source : Dict String Json) (fields : List WireField) : List String :=
  source.keys.filter fun k => k ∉ names fields

/-- `_expand`: every declared field, present, in the destination's own shape. -/
def expand (source : Dict String Json) (fields : List WireField) (place : String) :
    Except EnvelopeNotConstructible (Dict String Json) :=
  if undeclared source fields ≠ [] then
    .error (.unknownKeys place (Text.sorted (undeclared source fields)))
  else fields.mapM fun field =>
    (checked field (read source field.name) place).map fun v => (field.name, v)

/-- `_mapping`: the members of an object. -/
def mapping (value : Json) (place : String) :
    Except EnvelopeNotConstructible (Dict String Json) :=
  match value with
  | .obj members => .ok members
  | _ => .error (.notAnObject place (typeName value))

/-- An optional nested object: null, or its expanded level. -/
def expandNested (value : Json) (fields : List WireField) (place : String) :
    Except EnvelopeNotConstructible Json :=
  if value = .null then .ok .null
  else do
    let members ← mapping value place
    let level ← expand members fields place
    return .obj level

/-- One attachment of a message. -/
def canonicalAttachment (item : Json) : Except EnvelopeNotConstructible Json := do
  let attachment ← mapping item "message.attachments[]"
  let expanded ← expand (attachment.without ["location"]) ATTACHMENT_FIELDS "message.attachments[]"
  let location ← expandNested (read attachment "location") LOCATION_FIELDS
    "message.attachments[].location"
  return .obj (expanded.set "location" location)

/-- `value or []`. -/
def orEmpty (value : Json) : Json := if value.truthy then value else .arr []

/-- The attachments of a message, which may be any value that is false. -/
def canonicalAttachments (value : Json) : Except EnvelopeNotConstructible (List Json) :=
  match orEmpty value with
  | .arr items => items.mapM canonicalAttachment
  | found => .error (.attachmentsNotAList (typeName found))

/-- The members of a message that are levels of their own. -/
def nestedMessageFields : List String := ["contact_profile", "attachments"]

/-- The string under a key whose value is a string. -/
def stringOf : Json → String
  | .str s => s
  | _ => ""

/-- The body of a message. -/
def canonicalMessage (source : Dict String Json) :
    Except EnvelopeNotConstructible (Dict String Json) := do
  let nested := source.only nestedMessageFields
  let body ← expand (source.without nested.keys) MESSAGE_FIELDS messageKey
  let profile ← expandNested (read nested "contact_profile") CONTACT_PROFILE_FIELDS
    "message.contact_profile"
  let attachments ← canonicalAttachments (read nested "attachments")
  let body := (body.set "contact_profile" profile).set "attachments" (.arr attachments)
  -- The body is a required string, so it is one here.
  if Text.strip (stringOf (read body "body")) = "" ∧ attachments = [] then .error .noContent
  else .ok body

/-- The error codes of a delivery receipt, which may be any value that is false. -/
def canonicalErrorCodes (value : Json) : Except EnvelopeNotConstructible (List Json) :=
  match orEmpty value with
  | .arr codes =>
    if codes.all WireKind.str.accepts then .ok codes else .error .errorCodesNotStrings
  | _ => .error .errorCodesNotStrings

/-- The body of a delivery receipt. -/
def canonicalReceipt (source : Dict String Json) :
    Except EnvelopeNotConstructible (Dict String Json) := do
  let body ← expand (source.without ["error_codes"]) DELIVERY_RECEIPT_FIELDS receiptKey
  let codes ← canonicalErrorCodes (read source "error_codes")
  return body.set "error_codes" (.arr codes)

/-- The slot of an observation, which carries exactly one. -/
def slotOf (observation : Dict String Json) : Except EnvelopeNotConstructible String :=
  match decide (read observation messageKey ≠ .null), decide (read observation receiptKey ≠ .null)
  with
  | true, false => .ok messageKey
  | false, true => .ok receiptKey
  | both, _ => .error (.slots both)

/-- The body of a slot. -/
def canonicalSlot (slot : String) (source : Dict String Json) :
    Except EnvelopeNotConstructible (Dict String Json) :=
  if slot = messageKey then canonicalMessage source else canonicalReceipt source

/-- `canonical_body`: the observation sub-document, and the slot it goes under. -/
def canonicalBody (observation : Dict String Json) :
    Except EnvelopeNotConstructible (String × Dict String Json) := do
  let slot ← slotOf observation
  let source ← mapping (read observation slot) slot
  let body ← canonicalSlot slot source
  return (slot, body)

/-! ### What is accepted -/

theorem filter_eq_none {o : Option ℤ} {p : ℤ → Bool} :
    o.filter p = none ↔ ∀ b, o = some b → p b = false := by
  cases o <;> simp [Option.filter_some]

theorem bounded_eq_ok {field : WireField} {value w : Json} {place : String}
    {below above : ℤ → Bool} :
    bounded field value place below above = .ok w ↔ value = w ∧
      (∀ b, field.minimum = some b → below b = false) ∧
      (∀ b, field.maximum = some b → above b = false) := by
  rw [← filter_eq_none, ← filter_eq_none, bounded]
  cases field.minimum.filter below <;> cases field.maximum.filter above <;> simp

/-- **A checked leaf is the leaf supplied, and conforms to its field**, unless it is NaN. -/
theorem checked_eq_ok {field : WireField} {v w : Json} {place : String}
    (h : checked field v place = .ok w) :
    w = v ∧ (v ≠ .float .nan → field.Conforms v) := by
  unfold checked at h
  split_ifs at h with hnull hreq hkind
  · -- No value, for a field that is not required.
    obtain rfl : w = .null := by simpa [eq_comm] using h
    subst hnull
    refine ⟨rfl, fun _ => ⟨by simp, by simp, fun hr => absurd hr hreq, by simp, by simp⟩⟩
  · -- A value of the declared kind, which is never a boolean.
    have hk : field.kind.accepts v = true := by simpa using hkind
    have hnum : ∀ {P : Prop}, field.kind ≠ .str → (∀ s, v = .str s → P) := by
      rintro P hne s rfl
      cases hf : field.kind <;> simp_all [WireKind.accepts]
    cases v with
    | null => exact absurd rfl hnull
    | bool b => cases hf : field.kind <;> simp_all [WireKind.accepts]
    | str s =>
      simp only at h
      split_ifs at h with hempty
      rcases hlim : field.maxLength.filter (· < s.length) with _ | limit
      · simp only [hlim, Except.ok.injEq] at h
        refine ⟨h.symm, fun _ => ⟨fun _ => hk, ?_, ?_, ?_, ?_⟩⟩
        · rintro limit hl t ⟨rfl⟩
          by_contra hgt
          simp [hl, Option.filter, not_le.mp hgt] at hlim
        · refine fun hr => ⟨hnull, fun ha he => hempty ⟨hr, ?_, ha⟩⟩
          simpa using he
        · exact fun b _ hne _ => hnum hne s rfl
        · exact fun b _ hne _ => hnum hne s rfl
      · simp [hlim] at h
    | int n =>
      obtain ⟨rfl, hmin, hmax⟩ := bounded_eq_ok.mp h
      refine ⟨rfl, fun _ => ⟨fun _ => hk, by simp, by simp, ?_, ?_⟩⟩
      · intro b hb _ _
        simpa [AtLeast] using hmin b hb
      · intro b hb _ _
        simpa [AtMost] using hmax b hb
    | float x =>
      obtain ⟨rfl, hmin, hmax⟩ := bounded_eq_ok.mp h
      refine ⟨rfl, fun hnan => ⟨fun _ => hk, by simp, by simp, ?_, ?_⟩⟩
      · intro b hb _ _
        have := hmin b hb
        cases x <;> simp_all [AtLeast, PyFloat.lt]
      · intro b hb _ _
        have := hmax b hb
        cases x <;> simp_all [AtMost, PyFloat.gt]
    | arr xs => cases hf : field.kind <;> simp_all [WireKind.accepts]
    | obj ms => cases hf : field.kind <;> simp_all [WireKind.accepts]

/-- A checked leaf is null or of its declared kind. -/
theorem accepts_of_checked {field : WireField} {v w : Json} {place : String}
    (h : checked field v place = .ok w) : v = .null ∧ ¬ field.required ∨ field.kind.accepts v := by
  unfold checked at h
  split_ifs at h with hnull hreq hkind
  · exact Or.inl ⟨hnull, hreq⟩
  · exact Or.inr (by simpa using hkind)

theorem undeclared_eq_nil {source : Dict String Json} {fields : List WireField} :
    undeclared source fields = [] ↔ ∀ k ∈ source.keys, k ∈ names fields := by
  simp [undeclared, List.filter_eq_nil_iff]

/-- A level completed with nulls. -/
def completed (source : Dict String Json) (fields : List WireField) : Dict String Json :=
  fields.map fun field => (field.name, read source field.name)

@[simp] theorem keys_completed (source : Dict String Json) (fields : List WireField) :
    Dict.keys (completed source fields) = names fields := by
  simp [completed, Dict.keys, names, Function.comp_def]

theorem get?_completed {source : Dict String Json} {fields : List WireField} {f : WireField}
    (hf : f ∈ fields) : (completed source fields).get? f.name = some (read source f.name) := by
  induction fields with
  | nil => simp at hf
  | cons g fields ih =>
    -- The first field of a name is the one that is found.
    by_cases hg : g.name = f.name
    · simp [completed, hg]
    · have hne : f ≠ g := fun e => hg (e ▸ rfl)
      have := ih ((List.mem_cons.mp hf).resolve_left hne)
      rw [completed] at this ⊢
      rw [List.map_cons, Dict.get?_cons_of_ne hg, this]

/-- **An expanded level is the level supplied, completed with nulls.** -/
theorem expand_eq_ok {source body : Dict String Json} {fields : List WireField} {place : String} :
    expand source fields place = .ok body ↔ body = completed source fields ∧
      (∀ k ∈ source.keys, k ∈ names fields) ∧
      ∀ f ∈ fields, checked f (read source f.name) place = .ok (read source f.name) := by
  rw [← undeclared_eq_nil]
  unfold expand
  split_ifs with h
  · simp [h]
  · rw [not_not] at h
    -- A field is completed with the value it was supplied, if that passes the check.
    have hone : ∀ f p, (checked f (read source f.name) place).map (fun v => (f.name, v)) = .ok p ↔
        checked f (read source f.name) place = .ok (read source f.name) ∧
          p = (f.name, read source f.name) := by
      intro f p
      rw [Except.map_eq_ok]
      constructor
      · rintro ⟨v, hv, rfl⟩
        obtain rfl := (checked_eq_ok hv).1
        exact ⟨hv, rfl⟩
      · rintro ⟨hv, rfl⟩
        exact ⟨_, hv, rfl⟩
    simp only [Except.mapM_eq_ok, hone, h, true_and]
    clear h
    unfold completed
    -- The level is built field by field, in the order of the fields.
    induction fields generalizing body with
    | nil => simp
    | cons f fs ih =>
      rw [List.forall₂_cons_left_iff]
      constructor
      · rintro ⟨p, ps, ⟨hf, rfl⟩, hps, rfl⟩
        obtain ⟨rfl, hfs⟩ := ih.mp hps
        exact ⟨rfl, by simpa using ⟨hf, hfs⟩⟩
      · rintro ⟨rfl, hfs⟩
        exact ⟨_, _, ⟨hfs f (by simp), rfl⟩, ih.mpr ⟨rfl, fun g hg => hfs g (by simp [hg])⟩, rfl⟩

theorem set_of_expand {fields : List WireField} {place k : String}
    {scalars level : Dict String Json} (h : expand scalars fields place = .ok level)
    (hk : k ∉ names fields) (v : Json) : level.set k v = level ++ [(k, v)] := by
  obtain ⟨rfl, -, -⟩ := expand_eq_ok.mp h
  exact Dict.set_of_notMem (by simpa using hk) v

theorem set_set_of_expand {fields : List WireField} {place k l : String}
    {scalars level : Dict String Json} (h : expand scalars fields place = .ok level)
    (hk : k ∉ names fields) (hl : l ∉ names fields ++ [k]) (v w : Json) :
    (level.set k v).set l w = level ++ [(k, v), (l, w)] := by
  rw [set_of_expand h hk, Dict.set_of_notMem, List.append_assoc, List.singleton_append]
  obtain ⟨rfl, -, -⟩ := expand_eq_ok.mp h
  simpa using hl

theorem mapping_eq_ok {value : Json} {place : String} {members : Dict String Json} :
    mapping value place = .ok members ↔ value = .obj members := by
  cases value <;> simp [mapping]

theorem expandNested_eq_ok {value w : Json} {fields : List WireField} {place : String} :
    expandNested value fields place = .ok w ↔ value = .null ∧ w = .null ∨
      ∃ members level, value = .obj members ∧ expand members fields place = .ok level ∧
        w = .obj level := by
  unfold expandNested
  split_ifs with h
  · simp [h, eq_comm]
  · simp only [Except.bind_eq_ok, mapping_eq_ok, h, false_and, false_or]
    constructor
    · rintro ⟨members, hm, level, hl, hw⟩
      cases hw
      exact ⟨members, level, hm, hl, rfl⟩
    · rintro ⟨members, level, hm, hl, rfl⟩
      exact ⟨members, hm, level, hl, rfl⟩

theorem canonicalAttachment_eq_ok {item w : Json} :
    canonicalAttachment item = .ok w ↔ ∃ attachment expanded location, item = .obj attachment ∧
      expand (Dict.without attachment ["location"]) ATTACHMENT_FIELDS "message.attachments[]" =
        .ok expanded ∧
      expandNested (read attachment "location") LOCATION_FIELDS
        "message.attachments[].location" = .ok location ∧
      w = .obj (expanded.set "location" location) := by
  simp only [canonicalAttachment, Except.bind_eq_ok, mapping_eq_ok, pure, Except.pure,
    Except.ok.injEq]
  constructor
  · rintro ⟨attachment, rfl, expanded, he, location, hl, rfl⟩
    exact ⟨attachment, expanded, location, rfl, he, hl, rfl⟩
  · rintro ⟨attachment, expanded, location, rfl, he, hl, rfl⟩
    exact ⟨attachment, rfl, expanded, he, location, hl, rfl⟩

@[simp] theorem orEmpty_arr (xs : List Json) : orEmpty (.arr xs) = .arr xs := by
  cases xs <;> rfl

theorem canonicalAttachments_eq_ok {value : Json} {ys : List Json} :
    canonicalAttachments value = .ok ys ↔
      ∃ xs, orEmpty value = .arr xs ∧ xs.mapM canonicalAttachment = .ok ys := by
  unfold canonicalAttachments
  cases orEmpty value <;> simp

theorem canonicalErrorCodes_eq_ok {value : Json} {ys : List Json} :
    canonicalErrorCodes value = .ok ys ↔ orEmpty value = .arr ys ∧
      ys.all WireKind.str.accepts := by
  unfold canonicalErrorCodes
  -- Only a list can hold the codes.
  cases orEmpty value with
  | arr xs =>
    simp only [Json.arr.injEq]
    split_ifs with h
    · exact ⟨fun he => ⟨Except.ok.inj he, Except.ok.inj he ▸ h⟩, fun he => by rw [he.1]⟩
    · exact ⟨fun he => by simp at he, fun he => absurd (he.1 ▸ he.2) h⟩
  | _ => simp

theorem canonicalMessage_eq_ok {source body : Dict String Json} :
    canonicalMessage source = .ok body ↔ ∃ level profile attachments,
      expand (source.without (source.only nestedMessageFields).keys) MESSAGE_FIELDS messageKey =
        .ok level ∧
      expandNested (read (source.only nestedMessageFields) "contact_profile")
        CONTACT_PROFILE_FIELDS "message.contact_profile" = .ok profile ∧
      canonicalAttachments (read (source.only nestedMessageFields) "attachments") =
        .ok attachments ∧
      body = (level.set "contact_profile" profile).set "attachments" (.arr attachments) ∧
      (Text.strip (stringOf (read body "body")) ≠ "" ∨ attachments ≠ []) := by
  simp only [canonicalMessage, Except.bind_eq_ok]
  constructor
  · rintro ⟨level, hl, profile, hp, attachments, ha, h⟩
    split_ifs at h with hc
    cases h
    exact ⟨level, profile, attachments, hl, hp, ha, rfl, by simpa [← not_and_or] using hc⟩
  · rintro ⟨level, profile, attachments, hl, hp, ha, rfl, hc⟩
    exact ⟨level, hl, profile, hp, attachments, ha, if_neg (by simpa [← not_and_or] using hc)⟩

theorem canonicalReceipt_eq_ok {source body : Dict String Json} :
    canonicalReceipt source = .ok body ↔ ∃ level codes,
      expand (source.without ["error_codes"]) DELIVERY_RECEIPT_FIELDS receiptKey = .ok level ∧
      canonicalErrorCodes (read source "error_codes") = .ok codes ∧
      body = level.set "error_codes" (.arr codes) := by
  simp only [canonicalReceipt, Except.bind_eq_ok, pure, Except.pure, Except.ok.injEq]
  constructor
  · rintro ⟨level, hl, codes, hc, rfl⟩
    exact ⟨level, codes, hl, hc, rfl⟩
  · rintro ⟨level, codes, hl, hc, rfl⟩
    exact ⟨level, hl, codes, hc, rfl⟩

theorem slotOf_eq_ok {observation : Dict String Json} {slot : String} :
    slotOf observation = .ok slot ↔
      slot = messageKey ∧ read observation messageKey ≠ .null ∧
        read observation receiptKey = .null ∨
      slot = receiptKey ∧ read observation messageKey = .null ∧
        read observation receiptKey ≠ .null := by
  unfold slotOf
  by_cases hm : read observation messageKey = .null <;>
    by_cases hr : read observation receiptKey = .null <;> simp [hm, hr, eq_comm]

/-- The slot of an observation, and the body of that slot. -/
theorem canonicalBody_eq_ok {observation body : Dict String Json} {slot : String} :
    canonicalBody observation = .ok (slot, body) ↔ slotOf observation = .ok slot ∧
      ∃ source, read observation slot = .obj source ∧ canonicalSlot slot source = .ok body := by
  simp only [canonicalBody, Except.bind_eq_ok, mapping_eq_ok, pure, Except.pure, Except.ok.injEq,
    Prod.mk.injEq]
  constructor
  · rintro ⟨slot, hs, source, hm, body, hb, rfl, rfl⟩
    exact ⟨hs, source, hm, hb⟩
  · rintro ⟨hs, source, hm, hb⟩
    exact ⟨slot, hs, source, hm, body, hb, rfl, rfl⟩

/-- A body is that of a message or of a delivery receipt, whichever is not null. -/
theorem canonicalBody_eq_ok_cases {observation body : Dict String Json} {slot : String} :
    canonicalBody observation = .ok (slot, body) ↔
      (∃ source, slot = messageKey ∧ read observation receiptKey = .null ∧
        read observation messageKey = .obj source ∧ canonicalMessage source = .ok body) ∨
      ∃ source, slot = receiptKey ∧ read observation messageKey = .null ∧
        read observation receiptKey = .obj source ∧ canonicalReceipt source = .ok body := by
  rw [canonicalBody_eq_ok, slotOf_eq_ok]
  constructor
  · rintro ⟨⟨rfl, -, hother⟩ | ⟨rfl, hother, -⟩, source, hsource, hbody⟩
    · exact .inl ⟨source, rfl, hother, hsource, hbody⟩
    · exact .inr ⟨source, rfl, hother, hsource, hbody⟩
  · rintro (⟨source, rfl, hother, hsource, hbody⟩ | ⟨source, rfl, hother, hsource, hbody⟩)
    · exact ⟨.inl ⟨rfl, by simp [hsource], hother⟩, source, hsource, hbody⟩
    · exact ⟨.inr ⟨rfl, hother, by simp [hsource]⟩, source, hsource, hbody⟩

theorem read_without {source : Dict String Json} {nested : List String} {k : String}
    (h : k ∉ nested) : read (source.without nested) k = read source k := by
  rw [read, read, Dict.get?_without h]

theorem read_only {source : Dict String Json} {nested : List String} {k : String}
    (h : k ∈ nested) : read (source.only nested) k = read source k := by
  rw [read, read, Dict.get?_only h]

/-- An observation whose message is only a location. -/
def locatedMessage : Dict String Json :=
  [("provider", .str "meta_cloud_api"), ("provider_account_scope", .str "acct-1"),
   ("channel", .str "whatsapp"), ("observed_at", .str "2026-08-16T09:30:00+00:00"),
   ("transport_evidence", .obj [("media_urls", .int 1)]),
   ("message", .obj
     [("external_message_id", .str "wamid.HBgNMjM0"), ("contact_address", .str "+2348012345678"),
      ("body", .str ""), ("contact_profile", .null),
      ("attachments", .arr [.obj [("asset_type", .str "location"),
        ("location", .obj [("latitude", .float (.finite 6.5)),
          ("longitude", .float (.finite 3.25))])]])])]

/-- The body of `locatedMessage`. -/
def locatedBody : Dict String Json :=
  [("contact_address", .str "+2348012345678"), ("body", .str ""), ("contact_name", .null),
   ("subject", .null), ("external_message_id", .str "wamid.HBgNMjM0"),
   ("external_thread_id", .null), ("provider_account_id", .null),
   ("external_account_id", .null), ("page_id", .null), ("instagram_account_id", .null),
   ("surface", .null), ("permalink_url", .null), ("media_url", .null),
   ("contact_profile", .null),
   ("attachments", .arr [.obj [("asset_type", .str "location"), ("file_name", .null),
     ("mime_type", .null), ("provider_media_id", .null), ("source_url", .null),
     ("caption", .null), ("file_size", .null), ("download_status", .null),
     ("location", .obj [("latitude", .float (.finite 6.5)),
       ("longitude", .float (.finite 3.25)), ("name", .null), ("address", .null)])]])]

theorem canonicalBody_locatedMessage :
    canonicalBody locatedMessage = .ok (messageKey, locatedBody) := by
  decide +kernel

/-! ### What it depends on -/

/-- Expanding a level depends on its undeclared keys, and on what is made of each scalar. -/
theorem expand_congr {fields : List WireField} {place : String} {source source' : Dict String Json}
    (hkeys : ∀ k ∉ names fields, k ∈ source.keys ↔ k ∈ source'.keys)
    (hread : ∀ f ∈ fields, checked f (read source f.name) place =
      checked f (read source' f.name) place) :
    expand source fields place = expand source' fields place := by
  -- The undeclared keys are the same, and so is the refusal that lists them.
  have hu : ∀ k, k ∈ undeclared source fields ↔ k ∈ undeclared source' fields := by
    intro k
    simp only [undeclared, List.mem_filter, decide_eq_true_eq]
    exact and_congr_left fun hk => hkeys k hk
  have hnil : undeclared source fields = [] ↔ undeclared source' fields = [] := by
    simp only [List.eq_nil_iff_forall_not_mem, hu]
  unfold expand
  rw [Text.sorted_congr hu]
  by_cases hempty : undeclared source fields = []
  · rw [if_neg (not_not.mpr hempty), if_neg (not_not.mpr (hnil.mp hempty))]
    -- Nothing is undeclared, so that the levels are built field by field.
    apply Except.mapM_congr (R := Eq) (List.forall₂_refl fields)
    intro f hf f' _ he
    subst he
    rw [hread f hf]
  · rw [if_pos hempty, if_pos (mt hnil.mpr hempty)]

/-- The canonical body depends only on the two slots. -/
theorem canonicalBody_congr {observation observation' : Dict String Json}
    (hm : read observation messageKey = read observation' messageKey)
    (hr : read observation receiptKey = read observation' receiptKey) :
    canonicalBody observation = canonicalBody observation' := by
  have hslot : slotOf observation = slotOf observation' := by
    unfold slotOf
    rw [hm, hr]
  unfold canonicalBody
  rw [← hslot]
  cases hs : slotOf observation with
  | error e => rfl
  | ok slot =>
    -- The slot is one of the two.
    have hread : read observation slot = read observation' slot := by
      rcases slotOf_eq_ok.mp hs with ⟨rfl, -⟩ | ⟨rfl, -⟩
      · exact hm
      · exact hr
    simp only [Except.ok_bind, hread]

end DotmacIntegrator.ProductPort
