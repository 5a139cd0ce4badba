import DotmacIntegrator.Foundation.PyRepr
import DotmacIntegrator.Foundation.Text

/-!
# The destination's schema

The fields of the destination's envelope and of the two observations it carries, level by level,
and the refusals raised before anything is sent.

## Main definitions

* `WireField`: one field: its JSON type, whether it is required, its bounds
* `MESSAGE_FIELDS`, `CONTACT_PROFILE_FIELDS`, `ATTACHMENT_FIELDS`, `LOCATION_FIELDS`,
  `DELIVERY_RECEIPT_FIELDS`, `ENVELOPE_FIELDS`: the fields of each level
* `EnvelopeNotConstructible`: why a payload cannot form the envelope
* `WireField.Conforms`: what the destination requires of a value of the field
-/

namespace DotmacIntegrator.ProductPort

/-- The JSON types a field may declare. -/
inductive WireKind
  | str
  | int
  | float
  deriving DecidableEq, Repr

namespace WireKind

/-- `kind.__name__`. -/
def name : WireKind → String
  | str => "str"
  | int => "int"
  | float => "float"

/-- `isinstance(value, kind)`, for a value that is not a `bool`. -/
def accepts : WireKind → Json → Bool
  | str, .str _ => true
  | int, .int _ => true
  | float, .float _ => true
  | _, _ => false

end WireKind

/-- `type(value).__name__`. -/
def typeName : Json → String
  | .null => "NoneType"
  | .bool _ => "bool"
  | .int _ => "int"
  | .float _ => "float"
  | .str _ => "str"
  | .arr _ => "list"
  | .obj _ => "dict"

/-- One field of the destination's schema. -/
structure WireField where
  name : String
  kind : WireKind
  required : Bool := false
  maxLength : Option ℕ := none
  allowEmpty : Bool := false
  minimum : Option ℤ := none
  maximum : Option ℤ := none
  deriving DecidableEq, Repr

/-- The names of a level's fields. -/
def names (fields : List WireField) : List String := fields.map WireField.name

/-! ### The wire contract, transcribed -/

/-- The scalars of a message. -/
def MESSAGE_FIELDS : List WireField :=
  [{ name := "contact_address", kind := .str, required := true, maxLength := some 320 },
   { name := "body", kind := .str, required := true, maxLength := some 10000,
     allowEmpty := true },
   { name := "contact_name", kind := .str, maxLength := some 255 },
   { name := "subject", kind := .str, maxLength := some 500 },
   { name := "external_message_id", kind := .str, required := true, maxLength := some 255 },
   { name := "external_thread_id", kind := .str, maxLength := some 255 },
   { name := "provider_account_id", kind := .str, maxLength := some 255 },
   { name := "external_account_id", kind := .str, maxLength := some 255 },
   { name := "page_id", kind := .str, maxLength := some 255 },
   { name := "instagram_account_id", kind := .str, maxLength := some 255 },
   { name := "surface", kind := .str, maxLength := some 60 },
   { name := "permalink_url", kind := .str, maxLength := some 2000 },
   { name := "media_url", kind := .str, maxLength := some 2000 }]

/-- A message's contact profile. -/
def CONTACT_PROFILE_FIELDS : List WireField :=
  [{ name := "display_name", kind := .str, maxLength := some 255 },
   { name := "username", kind := .str, maxLength := some 255 },
   { name := "profile_pic", kind := .str, maxLength := some 2000 }]

/-- The scalars of an attachment. -/
def ATTACHMENT_FIELDS : List WireField :=
  [{ name := "asset_type", kind := .str, required := true, maxLength := some 40 },
   { name := "file_name", kind := .str, maxLength := some 255 },
   { name := "mime_type", kind := .str, maxLength := some 160 },
   { name := "provider_media_id", kind := .str, maxLength := some 255 },
   { name := "source_url", kind := .str, maxLength := some 2000 },
   { name := "caption", kind := .str, maxLength := some 2000 },
   { name := "file_size", kind := .int, minimum := some 0 },
   { name := "download_status", kind := .str, maxLength := some 40 }]

/-- An attachment's location. -/
def LOCATION_FIELDS : List WireField :=
  [{ name := "latitude", kind := .float, required := true, minimum := some (-90),
     maximum := some 90 },
   { name := "longitude", kind := .float, required := true, minimum := some (-180),
     maximum := some 180 },
   { name := "name", kind := .str, maxLength := some 255 },
   { name := "address", kind := .str, maxLength := some 500 }]

/-- The scalars of a delivery receipt. -/
def DELIVERY_RECEIPT_FIELDS : List WireField :=
  [{ name := "external_message_id", kind := .str, required := true, maxLength := some 255 },
   { name := "status", kind := .str, required := true, maxLength := some 40 },
   { name := "recipient_id", kind := .str, maxLength := some 255 }]

/-- The provider context the connector supplies. -/
def ENVELOPE_FIELDS : List WireField :=
  [{ name := "provider", kind := .str, required := true, maxLength := some 80 },
   { name := "provider_account_scope", kind := .str, required := true, maxLength := some 160 },
   { name := "channel", kind := .str, required := true, maxLength := some 40 },
   { name := "observed_at", kind := .str, required := true }]

/-- The slot of a message. -/
def messageKey : String := "message"

/-- The slot of a delivery receipt. -/
def receiptKey : String := "delivery_receipt"

/-- The two observation slots. -/
def observationSlots : List String := [messageKey, receiptKey]

/-- Evidence that stays on the integrator's own receipt. -/
def localOnlyObservationFields : List String := ["provider_event_id", "transport_evidence"]

/-- The longest scope kind. -/
def scopeKindMax : ℕ := 60

/-- The longest scope reference. -/
def scopeRefMax : ℕ := 160

/-- The longest provider event identity. -/
def providerEventIdMax : ℕ := 255

/-! ### Refusals -/

/-- The normalized payload cannot form the destination's envelope; `place` is the level at
fault. -/
inductive EnvelopeNotConstructible
  | missing (place field : String)
  | wrongKind (place field : String) (kind : WireKind) (found : String)
  | empty (place field : String)
  | tooLong (place field : String) (length limit : ℕ)
  | belowMinimum (place field : String) (minimum : ℤ)
  | aboveMaximum (place field : String) (maximum : ℤ)
  | unknownKeys (place : String) (unknown : List String)
  | notAnObject (place found : String)
  | slots (both : Bool)
  | attachmentsNotAList (found : String)
  | noContent
  | errorCodesNotStrings
  | identityDisagrees
  | identityLength
  | scopeTooLong (kind ref : String)
  | notAnInstant (text : String)
  | naiveInstant
  | wireSchemaMissing
  | wireSchemaUnsupported (version : String)
  deriving DecidableEq, Repr

/-- The text of a refusal. -/
def EnvelopeNotConstructible.message (printable : Char → Bool) :
    EnvelopeNotConstructible → String
  | missing place field =>
    s!"{place}.{field} is required by the destination's envelope and the normalized " ++
    "observation does not carry it"
  | wrongKind place field kind found =>
    s!"{place}.{field} must be {kind.name}, not {found}. The destination coerces rather than " ++
    "refuses, so its canonical body would differ from ours and every delivery would fail on " ++
    "the fingerprint instead of on this field"
  | empty place field => s!"{place}.{field} is required and is empty"
  | tooLong place field length limit =>
    s!"{place}.{field} is {length} characters and the destination accepts at most {limit}"
  | belowMinimum place field minimum => s!"{place}.{field} must be at least {minimum}"
  | aboveMaximum place field maximum => s!"{place}.{field} must be at most {maximum}"
  | unknownKeys place unknown =>
    s!"{place} carries {PyRepr.strings printable unknown}, which the destination's schema " ++
    "forbids (it declares extra='forbid'). A new field is a contract change in the " ++
    "destination's repository, not a local addition"
  | notAnObject place found => s!"{place} must be an object, not {found}"
  | slots both =>
    "the normalized observation carries " ++ (if both then "both" else "neither") ++
      " of 'message' and 'delivery_receipt'; the destination accepts exactly one"
  | attachmentsNotAList found => s!"message.attachments must be a list of objects, not {found}"
  | noContent => "message requires text or at least one attachment"
  | errorCodesNotStrings => "delivery_receipt.error_codes must be a list of strings"
  | identityDisagrees =>
    "observation.provider_event_id disagrees with the durable receipt; provider input may " ++
    "evidence identity but may never replace it"
  | identityLength =>
    "the durable receipt provider_event_id must contain 1 to 255 characters"
  | scopeTooLong kind ref =>
    s!"destination scope {kind}:{ref} exceeds the envelope's limits ({scopeKindMax}/" ++
    s!"{scopeRefMax} characters)"
  | notAnInstant text => s!"observed_at {PyRepr.string printable text} is not an ISO-8601 instant"
  | naiveInstant =>
    "observed_at must be timezone-aware; the destination refuses a naive instant rather than " ++
    "guessing a zone for it"
  | wireSchemaMissing =>
    "product-port descriptor wire_schema_version is missing or not a string"
  | wireSchemaUnsupported version =>
    s!"unsupported product-port wire schema {PyRepr.string printable version}"

/-! ### What the destination requires of a value -/

/-- A number that is at least `bound`. NaN is not. -/
def AtLeast (bound : ℤ) : Json → Prop
  | .int n => bound ≤ n
  | .float (.finite q) => (bound : ℚ) ≤ q
  | .float .negZero => (bound : ℚ) ≤ 0
  | .float .posInf => True
  | _ => False

/-- A number that is at most `bound`. NaN is not. -/
def AtMost (bound : ℤ) : Json → Prop
  | .int n => n ≤ bound
  | .float (.finite q) => q ≤ (bound : ℚ)
  | .float .negZero => 0 ≤ (bound : ℚ)
  | .float .negInf => True
  | _ => False

/-- What the destination requires of the value of a field. -/
structure WireField.Conforms (field : WireField) (v : Json) : Prop where
  kind : v ≠ .null → field.kind.accepts v
  maxLength : ∀ limit, field.maxLength = some limit → ∀ s, v = .str s → s.length ≤ limit
  required : field.required → v ≠ .null ∧ (field.allowEmpty = false → v ≠ .str "")
  minimum : ∀ bound, field.minimum = some bound → field.kind ≠ .str → v ≠ .null →
    AtLeast bound v
  maximum : ∀ bound, field.maximum = some bound → field.kind ≠ .str → v ≠ .null →
    AtMost bound v

end DotmacIntegrator.ProductPort
