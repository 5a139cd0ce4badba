import DotmacIntegrator.Configuration.Settings
import DotmacIntegrator.Operations.Repair

/-!
# Who may operate, and why

The guard of the operator surface takes a bearer text from the request and asks the platform whose
it is. A mutating request carries a document that states its reason: a text without blanks at its
ends, neither empty nor long.

## Main definitions

* `bearer`, `requireOperator`: the guard
* `StrippedText`: the texts of the documents
* `OperationReason`, `DraftInstallationRequest`, `ConfigRevisionRequest`, `BindingRequest`: the
  documents, and how a body is read as one

## Main results

* `bearer_eq_some_iff`: what a bearer text is
* `requireOperator_eq_ok_iff`: who is let in
-/

namespace DotmacIntegrator.Operations

open DotmacIntegrator.Configuration

/-! ### The guard -/

/-- What a route raises; a body that does not validate is refused by the framework. -/
inductive OperatorRaised
  | raised (raised : Raised)
  | requestValidationError
  deriving DecidableEq, Repr

/-- `_bearer`. -/
def bearer (authorization : Option String) : Option String :=
  match authorization with
  | none => none
  | some header =>
    if header = "" then none
    else
      let (scheme, token) := Text.partition ' ' header
      if Text.lowerAscii scheme ≠ "bearer" ∨ token = "" then none else some token

/-- What is read of a row of the platform's administrators. -/
structure PlatformAdmin where
  id : Uuid
  email : String

/-- `authenticate_platform_request`, of one request: whose token it is, if anybody's. -/
abbrev PlatformAuth (μ : Type) := Store μ → (token : String) → Except Failure (Option PlatformAdmin)

/-- The identity of an administrator. -/
def PlatformAdmin.identity (admin : PlatformAdmin) (mechanism : String) : OperatorIdentity where
  adminId := admin.id
  label := admin.email
  mechanism := mechanism

variable {μ : Type} (mechanism : String) (authenticate : PlatformAuth μ)

/-- `require_operator`. -/
def requireOperator (authorization : Option String) (store : Store μ) :
    Except Raised OperatorIdentity :=
  if mechanism ∉ operatorAuthMechanisms then
    .error (.httpException 503 ("operator authentication is not configured; refusing to serve " ++
      "the operations surface"))
  else
    match bearer authorization with
    | none => .error (.httpException 401 "operator authentication required")
    | some token =>
      match authenticate store token with
      | .error exc => .error (.failure exc)
      | .ok none => .error (.httpException 401 "operator authentication failed")
      | .ok (some admin) => .ok (admin.identity mechanism)

variable {mechanism authenticate} {authorization : Option String} {store : Store μ}

/-- A text that is split at a separator is put together again, unless nothing stands behind it. -/
theorem eq_append_of_partition {sep : Char} {s before after : String}
    (h : Text.partition sep s = (before, after)) (hafter : after ≠ "") :
    s = before ++ String.ofList [sep] ++ after := by
  obtain ⟨rfl, rfl⟩ := Prod.mk.inj h
  have hsplit := List.takeWhile_append_dropWhile (p := (· ≠ sep)) (l := s.toList)
  cases hdrop : s.toList.dropWhile (· ≠ sep) with
  | nil =>
    rw [hdrop] at hafter
    exact absurd rfl hafter
  | cons c rest =>
    have hc : c = sep := by
      have hhead := List.head?_dropWhile_not (fun c => decide (c ≠ sep)) s.toList
      rw [hdrop] at hhead
      simpa using hhead
    rw [hdrop] at hsplit
    rw [← String.toList_inj]
    simpa [hc] using hsplit.symm

/-- A text is split at the first separator. -/
theorem partition_append {sep : Char} {before : String} (h : sep ∉ before.toList) (after : String) :
    Text.partition sep (before ++ String.ofList [sep] ++ after) = (before, after) := by
  have hbefore : ∀ c ∈ before.toList, decide (c ≠ sep) = true := by
    intro c hc
    exact decide_eq_true fun heq => h (heq ▸ hc)
  have htake := @List.takeWhile_append_of_pos _ (fun c => decide (c ≠ sep)) before.toList
    (sep :: after.toList) hbefore
  have hdrop := @List.dropWhile_append_of_pos _ (fun c => decide (c ≠ sep)) before.toList
    (sep :: after.toList) hbefore
  rw [Text.partition]
  simp only [String.toList_append, String.toList_ofList, List.append_assoc, List.singleton_append,
    htake, hdrop]
  simp

/-- No blank stands in a text that is `bearer` in lower case. -/
theorem blank_notMem_bearer {scheme : String} (h : Text.lowerAscii scheme = "bearer") :
    ' ' ∉ scheme.toList := by
  intro hblank
  have hlower : (' ').toLower ∈ (Text.lowerAscii scheme).toList := by
    rw [Text.lowerAscii, String.toList_ofList]
    exact List.mem_map_of_mem hblank
  rw [h] at hlower
  revert hlower
  decide

/-- **A bearer text** stands behind the scheme, in whichever case that is written. -/
theorem bearer_eq_some_iff {token : String} : bearer authorization = some token ↔
    ∃ scheme, authorization = some (scheme ++ " " ++ token) ∧
      Text.lowerAscii scheme = "bearer" ∧ token ≠ "" := by
  constructor
  · intro h
    unfold bearer at h
    split at h
    · cases h
    · next header =>
      simp only at h
      split_ifs at h with hempty hscheme
      obtain rfl := Option.some.inj h
      obtain ⟨hbearer, htoken⟩ := not_or.mp hscheme
      exact ⟨_, congrArg some (eq_append_of_partition rfl htoken), not_not.mp hbearer, htoken⟩
  · rintro ⟨scheme, rfl, hscheme, htoken⟩
    -- The scheme has no blank, so that the header is split behind it.
    have hpartition := partition_append (blank_notMem_bearer hscheme) token
    rw [show String.ofList [' '] = " " from rfl] at hpartition
    have hheader : scheme ++ " " ++ token ≠ "" := by
      intro hempty
      have hlength := congrArg String.length hempty
      simp at hlength
    simp only [bearer, hpartition, hheader, hscheme, htoken]
    rfl

/-- **Who is let in**: an administrator whose token the request bears, where the mechanism is
known. -/
theorem requireOperator_eq_ok_iff {actor : OperatorIdentity} :
    requireOperator mechanism authenticate authorization store = .ok actor ↔
      mechanism ∈ operatorAuthMechanisms ∧ ∃ token admin, bearer authorization = some token ∧
        authenticate store token = .ok (some admin) ∧ actor = admin.identity mechanism := by
  unfold requireOperator
  by_cases hmechanism : mechanism ∈ operatorAuthMechanisms
  · rw [if_neg (not_not.mpr hmechanism), and_iff_right hmechanism]
    cases bearer authorization with
    | none => simp
    | some token =>
      cases hadmin : authenticate store token with
      | error exc => simp [hadmin]
      | ok found => cases found <;> simp [hadmin, eq_comm]
  · rw [if_pos hmechanism]
    simp [hmechanism]

/-! ### The documents -/

/-- The characters that `StringConstraints` strips. -/
def isWhiteSpace (c : Char) : Bool :=
  let n := c.toNat
  (0x09 ≤ n && n ≤ 0x0d) || n == 0x20 || n == 0x85 || n == 0xa0 || n == 0x1680 ||
    (0x2000 ≤ n && n ≤ 0x200a) || n == 0x2028 || n == 0x2029 || n == 0x202f || n == 0x205f ||
    n == 0x3000

/-- `strip_whitespace`. -/
def trim (s : String) : String := String.ofList (Text.stripChars isWhiteSpace s.toList)

/-- A text without white space at its ends, neither empty nor longer than a bound. -/
structure StrippedText (bound : ℕ) where
  text : String
  trimmed : trim text = text
  nonempty : 1 ≤ text.length
  bounded : text.length ≤ bound

/-- Trimming twice is trimming once. -/
theorem trim_trim (s : String) : trim (trim s) = trim s := by
  rw [trim, trim, String.toList_ofList,
    Text.stripChars_of_ends Text.head?_stripChars Text.getLast?_stripChars]

/-- A value, stripped and then measured. -/
def StrippedText.parse (bound : ℕ) : Json → Option (StrippedText bound)
  | .str s =>
    if h : 1 ≤ (trim s).length ∧ (trim s).length ≤ bound then
      some ⟨trim s, trim_trim s, h.1, h.2⟩
    else none
  | _ => none

/-- An object. -/
def parseDict : Json → Option (Dict String Json)
  | .obj fields => some fields
  | _ => none

/-- An object, or `None`. -/
def parseDictOrNull : Json → Option (Option (Dict String Json))
  | .null => some none
  | value => (parseDict value).map some

/-- A field that is required. -/
def requiredField {α : Type} (parse : Json → Option α) (fields : Dict String Json) (name : String) :
    Option α := do
  parse (← fields.get? name)

/-- A field with a default. -/
def defaultedField {α : Type} (parse : Json → Option α) (fields : Dict String Json) (name : String)
    (default : α) : Option α :=
  match fields.get? name with
  | none => some default
  | some value => parse value

/-- `OperationReason`. -/
structure OperationReason where
  reason : StrippedText 500

/-- The environments of an installation. -/
inductive Environment
  | production
  | sandbox
  | test
  deriving DecidableEq, Repr

def Environment.str : Environment → String
  | production => "production"
  | sandbox => "sandbox"
  | test => "test"

/-- A `Literal`. -/
def Environment.parse : Json → Option Environment
  | .str s => [production, sandbox, test].find? fun environment => environment.str = s
  | _ => none

/-- `DraftInstallationRequest`. -/
structure DraftInstallationRequest extends OperationReason where
  connectorKey : StrippedText 120
  name : StrippedText 160
  environment : Environment := .production

/-- The version of a schema, unless another is stated. -/
def defaultSchemaVersion : StrippedText 32 := ⟨"1", by decide +kernel, by decide, by decide⟩

/-- `ConfigRevisionRequest`. -/
structure ConfigRevisionRequest extends OperationReason where
  config : Dict String Json
  secretRefs : Dict String Json := []
  schemaVersion : StrippedText 32 := defaultSchemaVersion

/-- `BindingRequest`. -/
structure BindingRequest extends OperationReason where
  capabilityId : StrippedText 160
  scope : Option (Dict String Json) := none
  policy : Option (Dict String Json) := none

def OperationReason.parse (fields : Dict String Json) : Option OperationReason := do
  return ⟨← requiredField (StrippedText.parse 500) fields "reason"⟩

def DraftInstallationRequest.parse (fields : Dict String Json) :
    Option DraftInstallationRequest := do
  return {
    toOperationReason := ← OperationReason.parse fields
    connectorKey := ← requiredField (StrippedText.parse 120) fields "connector_key"
    name := ← requiredField (StrippedText.parse 160) fields "name"
    environment := ← defaultedField Environment.parse fields "environment" .production }

def ConfigRevisionRequest.parse (fields : Dict String Json) : Option ConfigRevisionRequest := do
  return {
    toOperationReason := ← OperationReason.parse fields
    config := ← requiredField parseDict fields "config"
    secretRefs := ← defaultedField parseDict fields "secret_refs" []
    schemaVersion := ← defaultedField (StrippedText.parse 32) fields "schema_version"
      defaultSchemaVersion }

def BindingRequest.parse (fields : Dict String Json) : Option BindingRequest := do
  return {
    toOperationReason := ← OperationReason.parse fields
    capabilityId := ← requiredField (StrippedText.parse 160) fields "capability_id"
    scope := ← defaultedField parseDictOrNull fields "scope" none
    policy := ← defaultedField parseDictOrNull fields "policy" none }

/-- What a body is read as: none if the request has no document, or one that does not validate. -/
def readDocument {α : Type} (parse : Dict String Json → Option α) (body : Option Json) :
    Except OperatorRaised α :=
  Except.ofOption .requestValidationError do parse (← parseDict (← body))

end DotmacIntegrator.Operations
