import DotmacIntegrator.Foundation.NumeralSuffix
import DotmacIntegrator.Foundation.TryExcept
import DotmacIntegrator.ProductPort.DescriptorReader
import DotmacIntegrator.ProductPort.Envelope

/-!
# The registry of product contracts

A document with the pinned digest declares the capability contracts of one application, row by row
and in the order of their ids. The version of a contract is written behind the last `.v` of its id.
A line feed behind that number is let pass, and what the module raises besides three kinds of
exception is not made a refusal.

## Main definitions

* `CapabilityModule`: the module's constructors of contracts and registries
* `ProductContractRegistryReconciler.parse`: the reading of a document
* `Pinned`: the documents that declare what was pinned
* `RegistryLaw`: what is read was pinned, what was pinned is read, and the rest is refused
* `Escapes`, `EndsInLineFeed`: the documents on which it is otherwise

## Main results

* `parse_eq_ok_iff`, `onlyRefuses_parse_iff`: when a registry is returned, and what is raised
* `registry_exact_iff`: on which documents the law holds
-/

namespace DotmacIntegrator.ProductPort

open DotmacIntegrator.Configuration NumeralSuffix Url

/-! ### The module -/

/-- What building a contract raises; `ε` is everything that no handler takes. -/
inductive ContractRaised (ε : Type)
  | typeError
  | valueError
  | keyError
  | other (e : ε)

/-- The module's constructors. -/
structure CapabilityModule (ε C G : Type) where
  capabilityContractFromDocument (document : Dict String Json)
    (capabilityId application ownerModule summary : String) : Except (ContractRaised ε) C
  fromDeclarations : List C → Except ε G

/-- What reading a registry raises. -/
inductive RegistryRaised (ε : Type)
  | productContractRegistryError (message : String)
  /-- The `ValueError` of an integer that is too long to be read or written. -/
  | valueError
  | other (e : ε)

/-! ### Reading -/

/-- The version of the document's form. -/
def REGISTRY_SCHEMA_VERSION : String := "dotmac.io/integration-query-capability-registry/v1"

/-- The fields of a document. -/
def REGISTRY_FIELDS : List String :=
  ["schema_version", "application", "source_revision", "contracts", "descriptor_digest"]

/-- The fields of a row. -/
def CONTRACT_FIELDS : List String :=
  ["owner_module", "capability_id", "capability_summary", "contract_version", "capability_contract"]

/-- The dictionary has these keys and no others. -/
def HasExactly (d : Dict String Json) (names : List String) : Prop :=
  (∀ k ∈ d.keys, k ∈ names) ∧ ∀ k ∈ names, k ∈ d.keys

instance (d : Dict String Json) (names : List String) : Decidable (HasExactly d names) :=
  inferInstanceAs (Decidable (_ ∧ _))

/-- `[a-z0-9_.-]+`. -/
def isApplication (name : String) : Bool :=
  name ≠ "" && name.toList.all fun c => c.isLower || c.isDigit || c ∈ ['_', '.', '-']

/-- The typed fields of a document. -/
structure RegistryHeader where
  application : String
  sourceRevision : String
  claimedDigest : String
  deriving DecidableEq

/-- A row with its fields typed. -/
structure ContractRow where
  ownerModule : String
  capabilityId : String
  summary : String
  contractVersion : ℤ
  document : Dict String Json

variable {ε C G : Type} {R : HostRules} (rt : Runtime) (m : CapabilityModule ε C G)

/-- A refusal. -/
def refuseRegistry {α : Type} (message : String) : Except (RegistryRaised ε) α :=
  .error (.productContractRegistryError message)

/-- `descriptor_digest`: none is the `ValueError` of writing. That `json.dumps` raises on what is
nested too deeply is left out. -/
def descriptorDigest (members : Dict String Json) : Option String :=
  canonicalFingerprint rt (members.without ["descriptor_digest"])

/-- The typed fields of the document. -/
def registryHeader (members : Dict String Json) : Except (RegistryRaised ε) RegistryHeader :=
  match members.get? "schema_version", members.get? "application",
      members.get? "source_revision", members.get? "descriptor_digest" with
  | some (.str version), some (.str application), some (.str revision), some (.str digest) =>
    if version = REGISTRY_SCHEMA_VERSION ∧ isApplication application ∧ isDigest revision ∧
        isDigest digest then
      .ok ⟨application, revision, digest⟩
    else refuseRegistry "the product capability registry contains an invalid typed field"
  | _, _, _, _ =>
    refuseRegistry "the product capability registry contains an invalid typed field"

/-- The digest covers the document, and is the pinned one. -/
def checkDigests (expectedDigest claimed computed : String) : Except (RegistryRaised ε) Unit :=
  if claimed ≠ computed then
    refuseRegistry "the product capability registry digest does not cover its published facts"
  else if computed ≠ expectedDigest then
    refuseRegistry "the product capability registry differs from the operator-approved pin"
  else .ok ()

/-- The rows, as many as are expected. -/
def registryRows (expectedCount : ℕ) (members : Dict String Json) :
    Except (RegistryRaised ε) (List Json) :=
  match members.get? "contracts" with
  | some (.arr rows) =>
    if rows.length = expectedCount then .ok rows
    else refuseRegistry ("the product capability registry must contain exactly " ++
      toString expectedCount ++ " contracts")
  | _ => refuseRegistry ("the product capability registry must contain exactly " ++
      toString expectedCount ++ " contracts")

/-- The typed fields of a row. -/
def typedRow : Json → Except (RegistryRaised ε) ContractRow
  | .obj row =>
    if HasExactly row CONTRACT_FIELDS then
      match Dict.get? row "owner_module", Dict.get? row "capability_id",
          Dict.get? row "capability_summary", Dict.get? row "contract_version",
          Dict.get? row "capability_contract" with
      | some (.str owner), some (.str capabilityId), some (.str summary), some (.int version),
          some (.obj document) =>
        if owner ≠ "" ∧ capabilityId ≠ "" ∧ summary ≠ "" ∧ 1 ≤ version then
          .ok ⟨owner, capabilityId, summary, version, document⟩
        else refuseRegistry "a product capability contract contains an invalid typed field"
      | _, _, _, _, _ =>
        refuseRegistry "a product capability contract contains an invalid typed field"
    else refuseRegistry "a product capability contract does not have the exact field set"
  | _ => refuseRegistry "a product capability contract does not have the exact field set"

/-- The contract of a row; three kinds of exception are made a refusal. -/
def rowContract (application : String) (row : ContractRow) : Except (RegistryRaised ε) C :=
  match m.capabilityContractFromDocument row.document row.capabilityId application row.ownerModule
      row.summary with
  | .ok contract => .ok contract
  | .error (.other e) => .error (.other e)
  | .error _ => refuseRegistry "a product capability contract is invalid"

/-- What the version of a contract is written behind. -/
def VERSION_MARKER : List Char := ['.', 'v']

/-- The version of the row is the number its id ends in; `int` raises on one that is too long. -/
def checkVersion (row : ContractRow) : Except (RegistryRaised ε) Unit :=
  match search VERSION_MARKER row.capabilityId.toList with
  | none =>
    refuseRegistry "a product capability contract version disagrees with its declaration"
  | some digits =>
    if Json.maxDigits < digits.length then .error .valueError
    else if row.contractVersion ≠ Nat.ofDigitChars 10 digits 0 then
      refuseRegistry "a product capability contract version disagrees with its declaration"
    else .ok ()

/-- One row: its id and its contract. -/
def parseRow (application : String) (item : Json) :
    Except (RegistryRaised ε) (String × C) := do
  let row ← typedRow item
  let contract ← rowContract m application row
  let _ ← checkVersion row
  return (row.capabilityId, contract)

/-- The ids are sorted, and no two of them are one. -/
def checkOrder (identifiers : List String) : Except (RegistryRaised ε) Unit :=
  if identifiers = identifiers.mergeSort (fun a b => a ≤ b) ∧ identifiers.Nodup then .ok ()
  else refuseRegistry "product capability contracts must have unique capability ids in sorted order"

/-- The rows of a document, once its digest is checked. -/
def parseRows (expectedCount : ℕ) (application : String) (members : Dict String Json) :
    Except (RegistryRaised ε) G := do
  let items ← registryRows expectedCount members
  let contracts ← items.mapM (parseRow m application)
  let _ ← checkOrder (contracts.map Prod.fst)
  (m.fromDeclarations (contracts.map Prod.snd)).mapError .other

/-- `_parse`. -/
def ProductContractRegistryReconciler.parse (reader : ProductContractRegistryReconciler R) :
    Json → Except (RegistryRaised ε) G
  | .obj members =>
    if HasExactly members REGISTRY_FIELDS then do
      let header ← registryHeader members
      let computed ← Except.ofOption .valueError (descriptorDigest rt members)
      let _ ← checkDigests reader.expectedDigest header.claimedDigest computed
      parseRows m reader.expectedCount header.application members
    else refuseRegistry "the product capability registry does not have the exact field set"
  | _ => refuseRegistry "the product capability registry does not have the exact field set"

/-! ### What was pinned -/

/-- The document's typed fields are these. -/
structure HasHeader (members : Dict String Json) (header : RegistryHeader) : Prop where
  fields : HasExactly members REGISTRY_FIELDS
  schemaVersion : members.get? "schema_version" = some (.str REGISTRY_SCHEMA_VERSION)
  application : members.get? "application" = some (.str header.application)
  sourceRevision : members.get? "source_revision" = some (.str header.sourceRevision)
  claimedDigest : members.get? "descriptor_digest" = some (.str header.claimedDigest)
  application_valid : isApplication header.application
  sourceRevision_valid : isDigest header.sourceRevision
  claimedDigest_valid : isDigest header.claimedDigest

/-- The item's typed fields are those of the row. -/
def IsRow (item : Json) (row : ContractRow) : Prop :=
  ∃ members, item = .obj members ∧ HasExactly members CONTRACT_FIELDS ∧
    Dict.get? members "owner_module" = some (.str row.ownerModule) ∧
    Dict.get? members "capability_id" = some (.str row.capabilityId) ∧
    Dict.get? members "capability_summary" = some (.str row.summary) ∧
    Dict.get? members "contract_version" = some (.int row.contractVersion) ∧
    Dict.get? members "capability_contract" = some (.obj row.document) ∧
    row.ownerModule ≠ "" ∧ row.capabilityId ≠ "" ∧ row.summary ≠ "" ∧ 1 ≤ row.contractVersion

/-- The module builds the contract of the row. -/
def Yields (application : String) (row : ContractRow) (contract : C) : Prop :=
  m.capabilityContractFromDocument row.document row.capabilityId application row.ownerModule
    row.summary = .ok contract

/-- The id ends in a `.v` and the version. -/
def EndsInVersion (row : ContractRow) : Prop :=
  ∃ stem, row.capabilityId.toList =
    stem ++ VERSION_MARKER ++ Nat.toDigits 10 row.contractVersion.toNat

variable (reader : ProductContractRegistryReconciler R)

/-- The digest of the document is the one it claims, and the pinned one; its rows are as many as
expected. -/
structure Reached (document : Json) (header : RegistryHeader) (items : List Json) : Prop where
  reached : ∃ members, document = .obj members ∧ HasHeader members header ∧
    descriptorDigest rt members = some reader.expectedDigest ∧
    Dict.get? members "contracts" = some (.arr items)
  claimed : header.claimedDigest = reader.expectedDigest
  count : items.length = reader.expectedCount

/-- The document declares these rows, and they were pinned. -/
structure Pinned (document : Json) (header : RegistryHeader) (rows : List ContractRow) : Prop where
  reached : ∃ items, Reached rt reader document header items ∧ List.Forall₂ IsRow items rows
  increasing : (rows.map ContractRow.capabilityId).Pairwise (· < ·)
  versions : ∀ row ∈ rows, EndsInVersion row

/-- A registry that is read was pinned and is that of its rows; a document that was pinned and
whose rows all yield contracts is read; and the rest is refused. -/
structure RegistryLaw (document : Json) : Prop where
  pinned : ∀ registry, reader.parse rt m document = .ok registry → ∃ header rows contracts,
    Pinned rt reader document header rows ∧
      List.Forall₂ (Yields m header.application) rows contracts ∧
      m.fromDeclarations contracts = .ok registry
  accepted : ∀ header rows contracts, Pinned rt reader document header rows →
    List.Forall₂ (Yields m header.application) rows contracts →
      ∃ registry, reader.parse rt m document = .ok registry
  refused : ∀ raised, reader.parse rt m document = .error raised →
    ∃ message, raised = .productContractRegistryError message

/-! ### Where it is otherwise -/

/-- The id ends in the version, in front of a line feed or not, and `int` reads it. -/
def ReadsVersion (row : ContractRow) : Prop :=
  EndsIn VERSION_MARKER row.capabilityId.toList (Nat.toDigits 10 row.contractVersion.toNat) ∧
    (Nat.toDigits 10 row.contractVersion.toNat).length ≤ Json.maxDigits

/-- The row passes: its contract is built and its version read. -/
def RowPasses (application : String) (item : Json) (row : ContractRow) (contract : C) : Prop :=
  IsRow item row ∧ Yields m application row contract ∧ ReadsVersion row

/-- The row escapes: the module raises what no handler takes, or builds a contract whose version
`int` does not read. -/
def RowEscapes (application : String) (item : Json) : Prop :=
  ∃ row, IsRow item row ∧
    ((∃ e, m.capabilityContractFromDocument row.document row.capabilityId application
        row.ownerModule row.summary = .error (.other e)) ∨
      (∃ contract, Yields m application row contract) ∧
        ∃ digits, EndsIn VERSION_MARKER row.capabilityId.toList digits ∧
          Json.maxDigits < digits.length)

/-- The rows all pass, and their ids are in order. -/
structure Ordered (document : Json) (header : RegistryHeader) (parsed : List (ContractRow × C)) :
    Prop where
  passes : ∃ items, Reached rt reader document header items ∧
    List.Forall₂ (fun item p => RowPasses m header.application item p.1 p.2) items parsed
  increasing : (parsed.map fun p => p.1.capabilityId).Pairwise (· < ·)

/-- An exception other than the refusal comes out: of writing the document for its digest, of the
first row that does not pass, or of the module's constructor of registries. -/
inductive Escapes (document : Json) : Prop
  | digest {members : Dict String Json} {header : RegistryHeader} (hdoc : document = .obj members)
      (hheader : HasHeader members header)
      (hint : ¬ (Json.obj (members.without ["descriptor_digest"])).Printable)
  | row {header : RegistryHeader} {before after : List Json} {item : Json}
      (hreached : Reached rt reader document header (before ++ item :: after))
      (hbefore : ∀ i ∈ before, ∃ row contract, RowPasses m header.application i row contract)
      (hitem : RowEscapes m header.application item)
  | registry {header : RegistryHeader} {parsed : List (ContractRow × C)} {e : ε}
      (hordered : Ordered rt m reader document header parsed)
      (hmodule : m.fromDeclarations (parsed.map Prod.snd) = .error e)

/-- A registry is read of rows of which one has an id that ends in a line feed. -/
def EndsInLineFeed (document : Json) : Prop :=
  ∃ header parsed registry, Ordered rt m reader document header parsed ∧
    m.fromDeclarations (parsed.map Prod.snd) = .ok registry ∧
      ∃ p ∈ parsed, p.1.capabilityId.toList.getLast? = some '\n'

/-! ### Refusals -/

variable {rt m reader}

/-- Nothing but refusals comes out. -/
def OnlyRefuses {α : Type} (x : Except (RegistryRaised ε) α) : Prop :=
  ∀ raised, x = .error raised → ∃ message, raised = .productContractRegistryError message

theorem onlyRefuses_ok {α : Type} (a : α) : OnlyRefuses (.ok a : Except (RegistryRaised ε) α) := by
  rintro raised ⟨⟩

theorem onlyRefuses_refuse {α : Type} (message : String) :
    OnlyRefuses (refuseRegistry message : Except (RegistryRaised ε) α) := by
  rintro raised ⟨⟩
  exact ⟨message, rfl⟩

/-- A sequence raises only refusals iff each of its parts does where it is reached. -/
theorem onlyRefuses_bind_iff {α β : Type} {x : Except (RegistryRaised ε) α}
    {f : α → Except (RegistryRaised ε) β} :
    OnlyRefuses (x >>= f) ↔ OnlyRefuses x ∧ ∀ a, x = .ok a → OnlyRefuses (f a) :=
  TryExcept.onlyRaises_bind_iff

/-- A traversal raises only refusals iff the first item that is not successful does. -/
theorem onlyRefuses_mapM_iff {α β : Type} {f : α → Except (RegistryRaised ε) β} {xs : List α} :
    OnlyRefuses (xs.mapM f) ↔ ∀ before x after, xs = before ++ x :: after →
      (∀ y ∈ before, ∃ z, f y = .ok z) → OnlyRefuses (f x) :=
  TryExcept.onlyRaises_mapM_iff

/-! ### Each check -/

theorem registryHeader_eq_ok {members : Dict String Json} {header : RegistryHeader}
    (hfields : HasExactly members REGISTRY_FIELDS) :
    (registryHeader members : Except (RegistryRaised ε) _) = .ok header ↔
      HasHeader members header := by
  constructor
  · intro h
    rw [registryHeader] at h
    split at h
    · next version application revision digest hversion happlication hrevision hdigest =>
      split_ifs at h with hvalid
      · obtain rfl := Except.ok.inj h
        obtain ⟨rfl, h₁, h₂, h₃⟩ := hvalid
        exact ⟨hfields, hversion, happlication, hrevision, hdigest, h₁, h₂, h₃⟩
      · cases h
    · cases h
  · intro h
    simp only [registryHeader, h.schemaVersion, h.application, h.sourceRevision, h.claimedDigest]
    exact if_pos ⟨trivial, h.application_valid, h.sourceRevision_valid, h.claimedDigest_valid⟩

theorem onlyRefuses_registryHeader (members : Dict String Json) :
    OnlyRefuses (registryHeader members : Except (RegistryRaised ε) _) := by
  rw [registryHeader]
  split
  · split_ifs
    · exact onlyRefuses_ok _
    · exact onlyRefuses_refuse _
  · exact onlyRefuses_refuse _

theorem checkDigests_eq_ok {expected claimed computed : String} :
    (checkDigests expected claimed computed : Except (RegistryRaised ε) _) = .ok () ↔
      claimed = expected ∧ computed = expected := by
  rw [checkDigests]
  split_ifs with hclaimed hcomputed
  · simp only [refuseRegistry, reduceCtorEq, false_iff]
    rintro ⟨rfl, rfl⟩
    exact hclaimed rfl
  · simp only [refuseRegistry, reduceCtorEq, false_iff]
    rintro ⟨-, rfl⟩
    exact hcomputed rfl
  · rw [not_not] at hclaimed hcomputed
    simp [hclaimed, hcomputed]

theorem onlyRefuses_checkDigests (expected claimed computed : String) :
    OnlyRefuses (checkDigests expected claimed computed : Except (RegistryRaised ε) _) := by
  rw [checkDigests]
  split_ifs
  · exact onlyRefuses_refuse _
  · exact onlyRefuses_refuse _
  · exact onlyRefuses_ok _

theorem registryRows_eq_ok {expectedCount : ℕ} {members : Dict String Json} {items : List Json} :
    (registryRows expectedCount members : Except (RegistryRaised ε) _) = .ok items ↔
      Dict.get? members "contracts" = some (.arr items) ∧ items.length = expectedCount := by
  constructor
  · intro h
    rw [registryRows] at h
    split at h
    · next rows hrows =>
      split_ifs at h with hcount
      · obtain rfl := Except.ok.inj h
        exact ⟨hrows, hcount⟩
      · cases h
    · cases h
  · rintro ⟨hrows, hcount⟩
    simp only [registryRows, hrows, if_pos hcount]

theorem onlyRefuses_registryRows (expectedCount : ℕ) (members : Dict String Json) :
    OnlyRefuses (registryRows expectedCount members : Except (RegistryRaised ε) _) := by
  rw [registryRows]
  split
  · split_ifs
    · exact onlyRefuses_ok _
    · exact onlyRefuses_refuse _
  · exact onlyRefuses_refuse _

theorem typedRow_eq_ok {item : Json} {row : ContractRow} :
    (typedRow item : Except (RegistryRaised ε) _) = .ok row ↔ IsRow item row := by
  constructor
  · intro h
    cases item with
    | obj members =>
      rw [typedRow] at h
      by_cases hfields : HasExactly members CONTRACT_FIELDS
      · rw [if_pos hfields] at h
        split at h
        · next owner capabilityId summary version document h₁ h₂ h₃ h₄ h₅ =>
          split_ifs at h with hvalid
          · obtain rfl := Except.ok.inj h
            exact ⟨members, rfl, hfields, h₁, h₂, h₃, h₄, h₅, hvalid⟩
          · cases h
        · cases h
      · rw [if_neg hfields] at h
        cases h
    | null | bool | int | float | str | arr => cases h
  · rintro ⟨members, rfl, hfields, h₁, h₂, h₃, h₄, h₅, hvalid⟩
    simp only [typedRow, if_pos hfields, h₁, h₂, h₃, h₄, h₅, if_pos hvalid]

theorem IsRow.one_le {item : Json} {row : ContractRow} (h : IsRow item row) :
    1 ≤ row.contractVersion := by
  obtain ⟨members, -, -, -, -, -, -, -, -, -, -, hpos⟩ := h
  exact hpos

/-- An item has its fields once. -/
theorem IsRow.unique {item : Json} {row row' : ContractRow} (h : IsRow item row)
    (h' : IsRow item row') : row = row' := by
  obtain ⟨members, rfl, -, h₁, h₂, h₃, h₄, h₅, -⟩ := h
  obtain ⟨members', heq, -, h₁', h₂', h₃', h₄', h₅', -⟩ := h'
  obtain rfl := Json.obj.inj heq
  rw [h₁, Option.some.injEq, Json.str.injEq] at h₁'
  rw [h₂, Option.some.injEq, Json.str.injEq] at h₂'
  rw [h₃, Option.some.injEq, Json.str.injEq] at h₃'
  rw [h₄, Option.some.injEq, Json.int.injEq] at h₄'
  rw [h₅, Option.some.injEq, Json.obj.injEq] at h₅'
  cases row
  cases row'
  simp_all

theorem onlyRefuses_typedRow (item : Json) :
    OnlyRefuses (typedRow item : Except (RegistryRaised ε) _) := by
  cases item with
  | obj members =>
    rw [typedRow]
    split_ifs
    · split
      · split_ifs
        · exact onlyRefuses_ok _
        · exact onlyRefuses_refuse _
      · exact onlyRefuses_refuse _
    · exact onlyRefuses_refuse _
  | null | bool | int | float | str | arr => exact onlyRefuses_refuse _

theorem rowContract_eq_ok {application : String} {row : ContractRow} {contract : C} :
    rowContract m application row = .ok contract ↔ Yields m application row contract := by
  rw [rowContract, Yields]
  split
  · next found hfound => simp [hfound]
  · next e he => simp [he]
  · next e hne he => simp [refuseRegistry, he]

theorem onlyRefuses_rowContract_iff {application : String} {row : ContractRow} :
    OnlyRefuses (rowContract m application row) ↔
      ¬ ∃ e, m.capabilityContractFromDocument row.document row.capabilityId application
        row.ownerModule row.summary = .error (.other e) := by
  rw [rowContract]
  split
  · next found hfound => simp [hfound, onlyRefuses_ok]
  · next e he => simp [he, OnlyRefuses]
  · next e hne he =>
    refine iff_of_true (onlyRefuses_refuse _) ?_
    rintro ⟨e', he'⟩
    exact hne e' (Except.error.inj (he.symm.trans he'))

theorem version_marker_last : ∃ x ∈ VERSION_MARKER.getLast?, x.isDigit = false :=
  ⟨'v', rfl, by decide⟩

theorem checkVersion_eq_ok {row : ContractRow} (hpos : 1 ≤ row.contractVersion) :
    (checkVersion row : Except (RegistryRaised ε) _) = .ok () ↔ ReadsVersion row := by
  have hcast : (row.contractVersion.toNat : ℤ) = row.contractVersion := by omega
  rw [ReadsVersion, ← search_eq_some_iff version_marker_last, checkVersion]
  cases hsearch : search VERSION_MARKER row.capabilityId.toList with
  | none => simp [refuseRegistry]
  | some digits =>
    -- The numeral that is found is the writing of the number it is read as.
    have hpositive := ((search_eq_some_iff version_marker_last).mp hsearch).1
    have hwritten := (toDigits_ofDigitChars hpositive).2
    simp only [Option.some.injEq]
    split_ifs with hlong hversion
    · simp only [false_iff]
      rintro ⟨rfl, hshort⟩
      omega
    · simp only [refuseRegistry, reduceCtorEq, false_iff]
      rintro ⟨rfl, -⟩
      rw [Nat.ofDigitChars_ten_toDigits] at hversion
      exact hversion hcast.symm
    · rw [not_not] at hversion
      have hdigits : digits = Nat.toDigits 10 row.contractVersion.toNat := by
        rw [hversion, Int.toNat_natCast, hwritten]
      rw [← hdigits]
      simpa using not_lt.mp hlong

theorem onlyRefuses_checkVersion_iff {row : ContractRow} :
    OnlyRefuses (checkVersion row : Except (RegistryRaised ε) _) ↔
      ¬ ∃ digits, EndsIn VERSION_MARKER row.capabilityId.toList digits ∧
        Json.maxDigits < digits.length := by
  simp only [← search_eq_some_iff version_marker_last]
  rw [checkVersion]
  cases search VERSION_MARKER row.capabilityId.toList with
  | none => simp [onlyRefuses_refuse]
  | some digits =>
    simp only [Option.some.injEq, exists_eq_left']
    split_ifs with hlong hversion
    · simp [OnlyRefuses, hlong]
    · exact iff_of_true (onlyRefuses_refuse _) hlong
    · exact iff_of_true (onlyRefuses_ok _) hlong

theorem checkOrder_eq_ok {identifiers : List String} :
    (checkOrder identifiers : Except (RegistryRaised ε) _) = .ok () ↔
      identifiers.Pairwise (· < ·) := by
  rw [checkOrder]
  have htotal : ∀ a b : String, (decide (a ≤ b) || decide (b ≤ a)) = true := by
    intro a b
    simpa using le_total a b
  have htrans : ∀ a b c : String, decide (a ≤ b) = true → decide (b ≤ c) = true →
      decide (a ≤ c) = true := by
    intro a b c hab hbc
    simp only [decide_eq_true_eq] at *
    exact hab.trans hbc
  constructor
  · intro h
    split_ifs at h with horder
    · obtain ⟨hsorted, hnodup⟩ := horder
      -- A list that is its own sorting and has no duplicates increases strictly.
      have hle := List.pairwise_mergeSort htrans htotal identifiers
      rw [← hsorted] at hle
      refine (hle.and hnodup).imp fun hab => ?_
      exact lt_of_le_of_ne (by simpa using hab.1) hab.2
    · cases h
  · intro h
    have hle : identifiers.Pairwise fun a b => decide (a ≤ b) = true :=
      h.imp fun hab => by simpa using hab.le
    rw [if_pos ⟨(List.mergeSort_of_pairwise hle).symm, h.imp ne_of_lt⟩]

theorem onlyRefuses_checkOrder (identifiers : List String) :
    OnlyRefuses (checkOrder identifiers : Except (RegistryRaised ε) _) := by
  rw [checkOrder]
  split_ifs
  · exact onlyRefuses_ok _
  · exact onlyRefuses_refuse _

/-! ### The rows -/

theorem parseRow_eq_ok {application : String} {item : Json} {result : String × C} :
    parseRow m application item = .ok result ↔
      ∃ row, RowPasses m application item row result.2 ∧ result.1 = row.capabilityId := by
  simp only [parseRow, Except.bind_eq_ok, typedRow_eq_ok, rowContract_eq_ok]
  constructor
  · rintro ⟨row, hrow, contract, hyields, ⟨⟩, hversion, heq⟩
    obtain rfl := Except.ok.inj heq
    exact ⟨row, ⟨hrow, hyields, (checkVersion_eq_ok hrow.one_le).mp hversion⟩, rfl⟩
  · rintro ⟨row, ⟨hrow, hyields, hversion⟩, hid⟩
    refine ⟨row, hrow, result.2, hyields, (), (checkVersion_eq_ok hrow.one_le).mpr hversion, ?_⟩
    rw [← hid]
    rfl

theorem onlyRefuses_parseRow_iff {application : String} {item : Json} :
    OnlyRefuses (parseRow m application item) ↔ ¬ RowEscapes m application item := by
  rw [parseRow, onlyRefuses_bind_iff, and_iff_right (onlyRefuses_typedRow item)]
  simp only [typedRow_eq_ok, onlyRefuses_bind_iff, onlyRefuses_rowContract_iff, rowContract_eq_ok,
    onlyRefuses_checkVersion_iff]
  constructor
  · rintro h ⟨row, hrow, hother | ⟨⟨contract, hyields⟩, hlong⟩⟩
    · exact (h row hrow).1 hother
    · exact ((h row hrow).2 contract hyields).1 hlong
  · intro h row hrow
    refine ⟨fun hother => h ⟨row, hrow, .inl hother⟩, fun contract hyields =>
      ⟨fun hlong => h ⟨row, hrow, .inr ⟨⟨contract, hyields⟩, hlong⟩⟩, ?_⟩⟩
    exact fun _ _ => onlyRefuses_ok _

/-- All rows pass iff each does. -/
theorem mapM_parseRow_eq_ok {application : String} {items : List Json}
    {results : List (String × C)} :
    items.mapM (parseRow m application) = .ok results ↔
      ∃ parsed : List (ContractRow × C),
        List.Forall₂ (fun item p => RowPasses m application item p.1 p.2) items parsed ∧
          results = parsed.map fun p => (p.1.capabilityId, p.2) := by
  simp only [Except.mapM_eq_ok, parseRow_eq_ok]
  constructor
  · intro h
    induction h with
    | nil => exact ⟨[], .nil, rfl⟩
    | @cons item result items results hrow _ ih =>
      obtain ⟨row, hpasses, hid⟩ := hrow
      obtain ⟨parsed, hparsed, rfl⟩ := ih
      exact ⟨(row, result.2) :: parsed, .cons hpasses hparsed, by rw [List.map_cons, ← hid]⟩
  · rintro ⟨parsed, hparsed, rfl⟩
    induction hparsed with
    | nil => exact .nil
    | @cons item p items parsed hpasses _ ih => exact .cons ⟨p.1, hpasses, rfl⟩ ih

/-! ### The document -/

theorem parseRows_eq_ok {expectedCount : ℕ} {application : String} {members : Dict String Json}
    {registry : G} :
    parseRows m expectedCount application members = .ok registry ↔
      ∃ items parsed, (Dict.get? members "contracts" = some (.arr items) ∧
          items.length = expectedCount) ∧
        List.Forall₂ (fun item p => RowPasses m application item p.1 p.2) items parsed ∧
        (parsed.map fun p => p.1.capabilityId).Pairwise (· < ·) ∧
        m.fromDeclarations (parsed.map Prod.snd) = .ok registry := by
  simp only [parseRows, Except.bind_eq_ok, registryRows_eq_ok, mapM_parseRow_eq_ok]
  constructor
  · rintro ⟨items, hitems, _, ⟨parsed, hparsed, rfl⟩, ⟨⟩, horder, hmodule⟩
    rw [List.map_map] at horder hmodule
    refine ⟨items, parsed, hitems, hparsed, checkOrder_eq_ok.mp horder, ?_⟩
    exact Except.mapError_eq_ok.mp hmodule
  · rintro ⟨items, parsed, hitems, hparsed, horder, hmodule⟩
    refine ⟨items, hitems, _, ⟨parsed, hparsed, rfl⟩, (), ?_, ?_⟩
    · rw [List.map_map]
      exact checkOrder_eq_ok.mpr horder
    · rw [List.map_map]
      exact Except.mapError_eq_ok.mpr hmodule

/-- A document is reached by its rows iff its fields, its digest and its count are right. -/
theorem parse_eq_ok_iff {document : Json} {registry : G} :
    reader.parse rt m document = .ok registry ↔ ∃ header parsed,
      Ordered rt m reader document header parsed ∧
        m.fromDeclarations (parsed.map Prod.snd) = .ok registry := by
  constructor
  · intro h
    cases document with
    | obj members =>
      rw [ProductContractRegistryReconciler.parse] at h
      split_ifs at h with hfields
      -- Check by check: header, digest, rows.
      · obtain ⟨header, hheader, h⟩ := Except.bind_eq_ok.mp h
        obtain ⟨computed, hcomputed, h⟩ := Except.bind_eq_ok.mp h
        obtain ⟨⟨⟩, hdigests, h⟩ := Except.bind_eq_ok.mp h
        obtain ⟨items, parsed, ⟨hitems, hcount⟩, hparsed, horder, hmodule⟩ := parseRows_eq_ok.mp h
        obtain ⟨hclaimed, rfl⟩ := checkDigests_eq_ok.mp hdigests
        have hreached : Reached rt reader (.obj members) header items :=
          ⟨⟨members, rfl, (registryHeader_eq_ok hfields).mp hheader,
            Except.ofOption_eq_ok.mp hcomputed, hitems⟩, hclaimed, hcount⟩
        exact ⟨header, parsed, ⟨⟨items, hreached, hparsed⟩, horder⟩, hmodule⟩
      · cases h
    | null | bool | int | float | str | arr => cases h
  · rintro ⟨header, parsed, ⟨⟨items, hreached, hparsed⟩, horder⟩, hmodule⟩
    obtain ⟨⟨members, rfl, hheader, hdigest, hitems⟩, hclaimed, hcount⟩ := hreached
    rw [ProductContractRegistryReconciler.parse, if_pos hheader.fields,
      (registryHeader_eq_ok hheader.fields).mpr hheader, Except.ok_bind,
      Except.ofOption_eq_ok.mpr hdigest, Except.ok_bind,
      checkDigests_eq_ok.mpr ⟨hclaimed, rfl⟩, Except.ok_bind]
    exact parseRows_eq_ok.mpr ⟨items, parsed, ⟨hitems, hcount⟩, hparsed, horder, hmodule⟩

theorem descriptorDigest_eq_none_iff {members : Dict String Json} :
    descriptorDigest rt members = none ↔
      ¬ (Json.obj (members.without ["descriptor_digest"])).Printable := by
  rw [descriptorDigest, canonicalFingerprint, Option.map_eq_none_iff, Json.dumpsSorted]
  split_ifs with h <;> simp [h]

theorem onlyRefuses_mapError_iff {x : Except ε G} :
    OnlyRefuses (x.mapError .other) ↔ ∀ e, x ≠ .error e := by
  cases x <;> simp [OnlyRefuses, Except.mapError]

/-- The rows raise only refusals iff no row escapes where it is reached, and the module builds a
registry of rows that all pass. -/
theorem onlyRefuses_parseRows_iff {expectedCount : ℕ} {application : String}
    {members : Dict String Json} :
    OnlyRefuses (parseRows m expectedCount application members) ↔
      ∀ items, Dict.get? members "contracts" = some (.arr items) ∧ items.length = expectedCount →
        (∀ before item after, items = before ++ item :: after →
          (∀ i ∈ before, ∃ row contract, RowPasses m application i row contract) →
            ¬ RowEscapes m application item) ∧
        ∀ parsed, List.Forall₂ (fun item p => RowPasses m application item p.1 p.2) items parsed →
          (parsed.map fun p => p.1.capabilityId).Pairwise (· < ·) →
            ∀ e, m.fromDeclarations (parsed.map Prod.snd) ≠ .error e := by
  have hpassed : ∀ item, (∃ result, parseRow m application item = .ok result) ↔
      ∃ row contract, RowPasses m application item row contract := by
    intro item
    simp only [parseRow_eq_ok]
    constructor
    · rintro ⟨result, row, hpasses, -⟩
      exact ⟨row, result.2, hpasses⟩
    · rintro ⟨row, contract, hpasses⟩
      exact ⟨(row.capabilityId, contract), row, hpasses, rfl⟩
  rw [parseRows, onlyRefuses_bind_iff]
  refine (and_iff_right (onlyRefuses_registryRows expectedCount members)).trans ?_
  simp only [registryRows_eq_ok, onlyRefuses_bind_iff, onlyRefuses_mapM_iff, hpassed,
    onlyRefuses_parseRow_iff, mapM_parseRow_eq_ok, onlyRefuses_mapError_iff]
  refine forall_congr' fun items => imp_congr_right fun _ => and_congr_right fun _ => ?_
  constructor
  · intro h parsed hparsed horder
    have hresults := h _ ⟨parsed, hparsed, rfl⟩
    rw [List.map_map, List.map_map] at hresults
    exact hresults.2 () (checkOrder_eq_ok.mpr horder)
  · rintro h _ ⟨parsed, hparsed, rfl⟩
    rw [List.map_map, List.map_map]
    exact ⟨onlyRefuses_checkOrder _, fun _ horder =>
      h parsed hparsed (checkOrder_eq_ok.mp horder)⟩

theorem onlyRefuses_ofOption_iff {α : Type} {x : Option α} :
    OnlyRefuses (Except.ofOption .valueError x : Except (RegistryRaised ε) α) ↔ x ≠ none := by
  cases x <;> simp [OnlyRefuses, Except.ofOption]

/-- A document with the fields raises only refusals iff its digest can be written and its rows,
where they are reached, raise only refusals. -/
theorem onlyRefuses_parse_obj_iff {members : Dict String Json}
    (hfields : HasExactly members REGISTRY_FIELDS) :
    OnlyRefuses (reader.parse rt m (.obj members)) ↔ ∀ header, HasHeader members header →
      descriptorDigest rt members ≠ none ∧
        (descriptorDigest rt members = some reader.expectedDigest →
          header.claimedDigest = reader.expectedDigest →
            OnlyRefuses (parseRows m reader.expectedCount header.application members)) := by
  rw [ProductContractRegistryReconciler.parse, if_pos hfields, onlyRefuses_bind_iff]
  refine (and_iff_right (onlyRefuses_registryHeader members)).trans ?_
  simp only [registryHeader_eq_ok hfields, onlyRefuses_bind_iff, onlyRefuses_ofOption_iff,
    Except.ofOption_eq_ok]
  refine forall_congr' fun header => imp_congr_right fun _ => and_congr_right fun _ => ?_
  constructor
  · intro h hdigest hclaimed
    exact (h _ hdigest).2 () (checkDigests_eq_ok.mpr ⟨hclaimed, rfl⟩)
  · intro h computed hcomputed
    refine ⟨onlyRefuses_checkDigests _ _ _, fun _ hdigests => ?_⟩
    obtain ⟨hclaimed, rfl⟩ := checkDigests_eq_ok.mp hdigests
    exact h hcomputed hclaimed

/-- **What is raised**: nothing but refusals, unless another exception escapes. -/
theorem onlyRefuses_parse_iff {document : Json} :
    OnlyRefuses (reader.parse rt m document) ↔ ¬ Escapes rt m reader document := by
  constructor
  -- Each way out lies behind checks that the document passes.
  · rintro h (⟨rfl, hheader, hint⟩ | ⟨hreached, hbefore, hitem⟩ | ⟨hordered, hmodule⟩)
    · have hdigest := ((onlyRefuses_parse_obj_iff hheader.fields).mp h _ hheader).1
      exact hdigest (descriptorDigest_eq_none_iff.mpr hint)
    · obtain ⟨⟨members, rfl, hheader, hdigest, hitems⟩, hclaimed, hcount⟩ := hreached
      have hrows := ((onlyRefuses_parse_obj_iff hheader.fields).mp h _ hheader).2 hdigest hclaimed
      exact (onlyRefuses_parseRows_iff.mp hrows _ ⟨hitems, hcount⟩).1 _ _ _ rfl hbefore hitem
    · obtain ⟨⟨items, hreached, hparsed⟩, horder⟩ := hordered
      obtain ⟨⟨members, rfl, hheader, hdigest, hitems⟩, hclaimed, hcount⟩ := hreached
      have hrows := ((onlyRefuses_parse_obj_iff hheader.fields).mp h _ hheader).2 hdigest hclaimed
      exact (onlyRefuses_parseRows_iff.mp hrows _ ⟨hitems, hcount⟩).2 _ hparsed horder _ hmodule
  · intro h
    cases document with
    | obj members =>
      by_cases hfields : HasExactly members REGISTRY_FIELDS
      · refine (onlyRefuses_parse_obj_iff hfields).mpr fun header hheader => ⟨fun hnone => ?_,
          fun hdigest hclaimed => onlyRefuses_parseRows_iff.mpr fun items hitems => ?_⟩
        · exact h (.digest rfl hheader (descriptorDigest_eq_none_iff.mp hnone))
        -- With the digest right, the rows are reached.
        · have hreached : Reached rt reader (.obj members) header items :=
            ⟨⟨members, rfl, hheader, hdigest, hitems.1⟩, hclaimed, hitems.2⟩
          constructor
          · rintro before item after rfl hbefore hitem
            exact h (.row hreached hbefore hitem)
          · intro parsed hparsed horder e hmodule
            exact h (.registry ⟨⟨items, hreached, hparsed⟩, horder⟩ hmodule)
      · rw [ProductContractRegistryReconciler.parse, if_neg hfields]
        exact onlyRefuses_refuse _
    | null | bool | int | float | str | arr => exact onlyRefuses_refuse _

/-! ### The law -/

theorem Reached.unique {document : Json} {header header' : RegistryHeader}
    {items items' : List Json} (h : Reached rt reader document header items)
    (h' : Reached rt reader document header' items') : items' = items := by
  obtain ⟨⟨members, rfl, -, -, hitems⟩, -⟩ := h
  obtain ⟨⟨members', heq, -, -, hitems'⟩, -⟩ := h'
  obtain rfl := Json.obj.inj heq
  rw [hitems, Option.some.injEq, Json.arr.injEq] at hitems'
  exact hitems'.symm

/-- An integer that a document writes can be written. -/
theorem Reached.printable {document : Json} {header : RegistryHeader} {items : List Json}
    (h : Reached rt reader document header items) {item : Json} (hitem : item ∈ items)
    {row : ContractRow} (hrow : IsRow item row) :
    (Nat.toDigits 10 row.contractVersion.toNat).length ≤ Json.maxDigits := by
  obtain ⟨⟨members, rfl, -, hdigest, hitems⟩, -⟩ := h
  have hprintable : (Json.obj (Dict.without members ["descriptor_digest"])).Printable := by
    by_contra hint
    rw [descriptorDigest_eq_none_iff.mpr hint] at hdigest
    cases hdigest
  obtain ⟨rowMembers, rfl, -, -, -, -, hversion, -, -, -, -, hpos⟩ := hrow
  -- The version occurs in the row, the row among the contracts, and these outside of the digest.
  have hrow : row.contractVersion ∈ (Json.obj rowMembers).ints :=
    Json.mem_intsMembers.mpr ⟨_, Dict.mem_of_get? hversion, by simp [Json.ints]⟩
  have hcontracts : row.contractVersion ∈ (Json.arr items).ints :=
    Json.mem_intsItems.mpr ⟨_, hitem, hrow⟩
  have hout : "contracts" ∉ ["descriptor_digest"] := by decide
  have hmember := (Dict.get?_without (d := members) hout).trans hitems
  have hlength := hprintable row.contractVersion
    (Json.mem_intsMembers.mpr ⟨_, Dict.mem_of_get? hmember, hcontracts⟩)
  have habs : row.contractVersion.natAbs = row.contractVersion.toNat := by omega
  rwa [habs] at hlength

/-- An id that ends in a version does not end in a line feed. -/
theorem EndsInVersion.getLast?_ne {row : ContractRow} (h : EndsInVersion row) :
    row.capabilityId.toList.getLast? ≠ some '\n' := by
  obtain ⟨stem, hstem⟩ := h
  rw [hstem, List.getLast?_append_of_ne_nil _ Nat.toDigits_ne_nil]
  intro hlast
  have hdigit := Json.isDigit_of_mem_toDigits (List.mem_of_getLast? hlast)
  exact absurd hdigit (by decide)

/-- A version that is read ends the id, or a line feed does. -/
theorem ReadsVersion.endsIn {row : ContractRow} (h : ReadsVersion row) :
    EndsInVersion row ∨ row.capabilityId.toList.getLast? = some '\n' := by
  obtain ⟨⟨-, stem, hstem | hstem⟩, -⟩ := h
  · exact .inl ⟨stem, hstem⟩
  · exact .inr (by rw [hstem, List.getLast?_concat])

/-- The version a pinned row ends in is read. -/
theorem EndsInVersion.reads {row : ContractRow} (h : EndsInVersion row)
    (hpos : 1 ≤ row.contractVersion)
    (hlength : (Nat.toDigits 10 row.contractVersion.toNat).length ≤ Json.maxDigits) :
    ReadsVersion row := by
  obtain ⟨stem, hstem⟩ := h
  obtain ⟨c, cs, hc, hne⟩ := Json.toDigits_head_ne_zero (n := row.contractVersion.toNat) (by omega)
  refine ⟨⟨⟨fun d hd => Json.isDigit_of_mem_toDigits hd, c, by simp [hc], hne⟩, stem, .inl hstem⟩,
    hlength⟩

/-- Rows that pass are rows, with contracts that they yield, and versions that are read. -/
theorem forall₂_of_passes {application : String} {items : List Json}
    {parsed : List (ContractRow × C)}
    (h : List.Forall₂ (fun item p => RowPasses m application item p.1 p.2) items parsed) :
    List.Forall₂ IsRow items (parsed.map Prod.fst) ∧
      List.Forall₂ (Yields m application) (parsed.map Prod.fst) (parsed.map Prod.snd) ∧
        ∀ p ∈ parsed, ReadsVersion p.1 := by
  induction h with
  | nil => exact ⟨.nil, .nil, by simp⟩
  | cons hpasses _ ih =>
    exact ⟨.cons hpasses.1 ih.1, .cons hpasses.2.1 ih.2.1,
      List.forall_mem_cons.mpr ⟨hpasses.2.2, ih.2.2⟩⟩

theorem exists_passes {application : String} {items : List Json} {rows : List ContractRow}
    {contracts : List C} (hrows : List.Forall₂ IsRow items rows)
    (hyields : List.Forall₂ (Yields m application) rows contracts)
    (hversions : ∀ item ∈ items, ∀ row ∈ rows, IsRow item row → ReadsVersion row) :
    ∃ parsed : List (ContractRow × C),
      List.Forall₂ (fun item p => RowPasses m application item p.1 p.2) items parsed ∧
        parsed.map Prod.fst = rows ∧ parsed.map Prod.snd = contracts := by
  induction hrows generalizing contracts with
  | nil =>
    cases hyields
    exact ⟨[], .nil, rfl, rfl⟩
  | @cons item row items rows hrow _ ih =>
    obtain ⟨contract, contracts', hyield, hyields', rfl⟩ := List.forall₂_cons_left_iff.mp hyields
    obtain ⟨parsed, hparsed, hfst, hsnd⟩ := ih hyields' fun i hi r hr =>
      hversions i (List.mem_cons_of_mem _ hi) r (List.mem_cons_of_mem _ hr)
    have hversion := hversions item List.mem_cons_self row List.mem_cons_self hrow
    refine ⟨(row, contract) :: parsed, .cons ⟨hrow, hyield, hversion⟩ hparsed, ?_, ?_⟩
    · rw [List.map_cons, hfst]
    · rw [List.map_cons, hsnd]

/-- The rows of a document are its items', one by one. -/
theorem rows_unique {items : List Json} {rows rows' : List ContractRow}
    (h : List.Forall₂ IsRow items rows) (h' : List.Forall₂ IsRow items rows') : rows' = rows := by
  induction h generalizing rows' with
  | nil =>
    cases h'
    rfl
  | cons hrow _ ih =>
    obtain ⟨row', rows'', hrow', hrows', rfl⟩ := List.forall₂_cons_left_iff.mp h'
    rw [hrow.unique hrow', ih hrows']

/-- Where the law holds, no id that is read ends in a line feed. -/
theorem RegistryLaw.not_endsInLineFeed {document : Json} (law : RegistryLaw rt m reader document) :
    ¬ EndsInLineFeed rt m reader document := by
  rintro ⟨header, parsed, registry, hordered, hmodule, p, hp, hfeed⟩
  obtain ⟨header', rows, contracts, hpinned, -⟩ :=
    law.pinned registry (parse_eq_ok_iff.mpr ⟨header, parsed, hordered, hmodule⟩)
  obtain ⟨items, hreached, hparsed⟩ := hordered.passes
  obtain ⟨items', hreached', hrows⟩ := hpinned.reached
  -- A document has its rows once, so the pinned ones are those that were read.
  obtain rfl := hreached.unique hreached'
  obtain rfl := rows_unique (forall₂_of_passes hparsed).1 hrows
  exact (hpinned.versions p.1 (List.mem_map_of_mem hp)).getLast?_ne hfeed

/-- **On which documents the law holds**: where no exception but the refusal escapes, and no
registry is read of rows of which one has an id that ends in a line feed. -/
theorem registry_exact_iff (rt : Runtime) (m : CapabilityModule ε C G)
    (reader : ProductContractRegistryReconciler R) (document : Json) :
    RegistryLaw rt m reader document ↔
      ¬ Escapes rt m reader document ∧ ¬ EndsInLineFeed rt m reader document := by
  constructor
  · intro law
    exact ⟨onlyRefuses_parse_iff.mp law.refused, law.not_endsInLineFeed⟩
  · rintro ⟨hescapes, hfeed⟩
    refine ⟨fun registry hregistry => ?_, fun header rows contracts hpinned hyields => ?_,
      onlyRefuses_parse_iff.mpr hescapes⟩
    · obtain ⟨header, parsed, hordered, hmodule⟩ := parse_eq_ok_iff.mp hregistry
      obtain ⟨items, hreached, hparsed⟩ := hordered.passes
      obtain ⟨hrows, hyields, hversions⟩ := forall₂_of_passes hparsed
      refine ⟨header, _, _, ⟨⟨items, hreached, hrows⟩, ?_, ?_⟩, hyields, hmodule⟩
      · rw [List.map_map]
        exact hordered.increasing
      · intro row hrow
        obtain ⟨p, hp, rfl⟩ := List.mem_map.mp hrow
        -- What is read ends in its version, or in the line feed that is excluded.
        refine (hversions p hp).endsIn.resolve_right fun hlast => ?_
        exact hfeed ⟨header, parsed, registry, hordered, hmodule, p, hp, hlast⟩
    · obtain ⟨items, hreached, hrows⟩ := hpinned.reached
      -- The digest of a pinned document was written, so no version is too long to be read.
      have hversions : ∀ item ∈ items, ∀ row ∈ rows, IsRow item row → ReadsVersion row :=
        fun item hitem row hrow his =>
          (hpinned.versions row hrow).reads his.one_le (hreached.printable hitem his)
      obtain ⟨parsed, hparsed, rfl, rfl⟩ := exists_passes hrows hyields hversions
      have hordered : Ordered rt m reader document header parsed := by
        refine ⟨⟨items, hreached, hparsed⟩, ?_⟩
        have hincreasing := hpinned.increasing
        rwa [List.map_map] at hincreasing
      cases hmodule : m.fromDeclarations (parsed.map Prod.snd) with
      | error e => exact absurd (.registry hordered hmodule) hescapes
      | ok registry => exact ⟨registry, parse_eq_ok_iff.mpr ⟨header, parsed, hordered, hmodule⟩⟩

/-! ### A line feed behind the version -/

/-- A module that builds what it is asked to. -/
def willingModule : CapabilityModule Empty Unit Unit := ⟨fun _ _ _ _ _ => .ok (), fun _ => .ok ()⟩

/-- The digest of `lineFeedMembers`. -/
def lineFeedDigest : String := "485428960e031bb9eb33d1381910c47283493bdc660a880af476281b81104589"

/-- A runtime that has that digest. -/
def lineFeedRuntime : Runtime := { locatedRuntime with sha256 := fun _ => lineFeedDigest }

/-- A row whose id ends in a line feed. -/
def lineFeedRow : Dict String Json :=
  [("owner_module", .str "fleet"), ("capability_id", .str "fleet.read.v1\n"),
   ("capability_summary", .str "reads"), ("contract_version", .int 1),
   ("capability_contract", .obj [])]

/-- A document of that row, under its digest. -/
def lineFeedMembers : Dict String Json :=
  [("schema_version", .str REGISTRY_SCHEMA_VERSION), ("application", .str "dotmac_erp"),
   ("source_revision",
     .str "aaaaaaaaaaaaaaaaaaaaaaaaaaaaaaaaaaaaaaaaaaaaaaaaaaaaaaaaaaaaaaaa"),
   ("contracts", .arr [.obj lineFeedRow]), ("descriptor_digest", .str lineFeedDigest)]

/-- A reader that pins it. -/
def lineFeedReader : ProductContractRegistryReconciler asciiHosts where
  url := "https://erp.example/internal/query-contracts"
  parts := ⟨"https", "erp.example", "/internal/query-contracts", "", ""⟩
  expectedDigest := lineFeedDigest
  apiKeyRef := "env://INTEGRATOR_SECRET_REGISTRY"
  timeout := .finite 3
  split := by decide +kernel
  plain := by decide +kernel
  digest := by decide +kernel
  expectedCount := 1

/-- A capability nobody pinned is read: its id ends in a line feed, not in its version. -/
theorem not_registry_exact_lineFeed :
    ¬ ∀ document, RegistryLaw lineFeedRuntime willingModule lineFeedReader document := by
  intro h
  have hheader : HasHeader lineFeedMembers ⟨"dotmac_erp",
      "aaaaaaaaaaaaaaaaaaaaaaaaaaaaaaaaaaaaaaaaaaaaaaaaaaaaaaaaaaaaaaaa", lineFeedDigest⟩ :=
    ⟨by decide, rfl, rfl, rfl, rfl, by decide, by decide, by decide⟩
  have hdigest : descriptorDigest lineFeedRuntime lineFeedMembers = some lineFeedDigest := by
    decide +kernel
  have hrow : IsRow (.obj lineFeedRow) ⟨"fleet", "fleet.read.v1\n", "reads", 1, []⟩ :=
    ⟨lineFeedRow, rfl, by decide, rfl, rfl, rfl, rfl, rfl, by decide, by decide, by decide,
      by decide⟩
  have hversion : ReadsVersion ⟨"fleet", "fleet.read.v1\n", "reads", 1, []⟩ :=
    ⟨⟨by decide, "fleet.read".toList, .inr (by decide)⟩, by decide⟩
  refine (h (.obj lineFeedMembers)).not_endsInLineFeed ⟨_, [(_, ())], (), ⟨⟨_, ⟨⟨_, rfl, hheader,
    hdigest, rfl⟩, rfl, rfl⟩, .cons ⟨hrow, rfl, hversion⟩ .nil⟩, List.pairwise_singleton ..⟩, rfl,
    _, List.mem_singleton_self _, by decide⟩

end DotmacIntegrator.ProductPort
