import DotmacIntegrator.ProductPort.Acceptance

/-!
# The collections of an observation

The attachments of a message and the error codes of a delivery receipt do not pass the check of a
field: they are defaulted with `or []` and looked at by hand. A list is kept as it is, item by item;
what is false and no list is taken for an absent one.

## Main definitions

* `Malformed`: an observation with a collection that is not what it has to be
* `CollectionLaw`: such an observation is refused, and what is accepted keeps its collections
* `TakenForAbsent`: an observation that is admitted with a collection that counts as absent

## Main results

* `canonicalBody_carries`: every list that is accepted is in the body
* `collectionLaw_iff`: the law holds of exactly the observations with no collection that is taken
  for absent
-/

namespace DotmacIntegrator.ProductPort

/-- Null, or a list of strings. -/
def StringsOrNull (v : Json) : Prop := v = .null ∨ ∃ xs, v = .arr xs ∧ ∀ x ∈ xs, ∃ s, x = .str s

/-- A collection was supplied, and is not what it has to be. -/
inductive Malformed (observation : Dict String Json) : Prop
  | attachments {source : Dict String Json} (hslot : read observation messageKey = .obj source)
      (hvalue : ¬ ListOrNull (read source "attachments"))
  | errorCodes {source : Dict String Json} (hslot : read observation receiptKey = .obj source)
      (hvalue : ¬ StringsOrNull (read source "error_codes"))

/-- A level of the body has every member that was supplied, and no other. -/
def Carries (source body : Dict String Json) : Prop := ∀ k, read body k = read source k

/-- An attachment of the body carries the one that was supplied, and its location. -/
structure AttachmentCarried (source body : Dict String Json) : Prop where
  scalar : ∀ k, k ≠ "location" → read body k = read source k
  location : Nested Carries (read source "location") (read body "location")

/-- The lists that were supplied are in the body, item by item in their order. -/
structure CollectionsCarried (observation body : Dict String Json) : Prop where
  attachments : ∀ source xs, read observation messageKey = .obj source →
    read source "attachments" = .arr xs →
    ∃ ys, read body "attachments" = .arr ys ∧ List.Forall₂ (Object AttachmentCarried) xs ys
  errorCodes : ∀ source xs, read observation receiptKey = .obj source →
    read source "error_codes" = .arr xs → read body "error_codes" = .arr xs

/-- **Malformed collections are refused, never rewritten.** -/
structure CollectionLaw (observation : Dict String Json) : Prop where
  refuses : Malformed observation → ∃ e, canonicalBody observation = .error e
  carries : ∀ slot body, canonicalBody observation = .ok (slot, body) →
    CollectionsCarried observation body

/-! ### Where it fails -/

/-- A collection that was supplied counts as absent. -/
inductive SuppliesAbsent (observation : Dict String Json) : Prop
  | attachments {source : Dict String Json} (hslot : read observation messageKey = .obj source)
      (hvalue : CountsAsAbsent (read source "attachments"))
  | errorCodes {source : Dict String Json} (hslot : read observation receiptKey = .obj source)
      (hvalue : CountsAsAbsent (read source "error_codes"))

/-- A collection counts as absent, in an observation that is admitted. -/
structure TakenForAbsent (observation : Dict String Json) : Prop where
  admitted : Admitted observation
  absent : SuppliesAbsent observation

theorem CountsAsAbsent.not_stringsOrNull {value : Json} (h : CountsAsAbsent value) :
    ¬ StringsOrNull value := by
  rintro (rfl | ⟨xs, rfl, -⟩) <;> cases h

/-! ### What is carried -/

theorem Nested.carries_of_expandNested {value w : Json} {fields : List WireField} {place : String}
    (h : expandNested value fields place = .ok w) : Nested Carries value w := by
  rcases expandNested_eq_ok.mp h with ⟨rfl, rfl⟩ | ⟨members, level, rfl, hl, rfl⟩
  · exact .absent
  · exact .present (.mk (read_of_expand hl))

/-- An expanded attachment carries the one that was supplied. -/
theorem attachmentCarried_of_canonicalAttachment {item w : Json}
    (h : canonicalAttachment item = .ok w) : Object AttachmentCarried item w := by
  obtain ⟨attachment, expanded, location, rfl, hl, hlocation, rfl⟩ := canonicalAttachment_eq_ok.mp h
  refine .mk ⟨fun k hk => ?_, ?_⟩
  · rw [read_set, if_neg (Ne.symm hk), read_of_expand hl, read_without (by simpa using hk)]
  · rw [read_set, if_pos rfl]
    exact Nested.carries_of_expandNested hlocation

/-- The attachments of a body are those its message counts as having, item by item. -/
theorem attachmentsCarried_of_canonicalMessage {source body : Dict String Json}
    (h : canonicalMessage source = .ok body) :
    ∃ xs ys, CountsAs (read source "attachments") xs ∧ read body "attachments" = .arr ys ∧
      List.Forall₂ (Object AttachmentCarried) xs ys := by
  obtain ⟨level, profile, ys, -, -, hys, rfl, -⟩ := canonicalMessage_eq_ok.mp h
  rw [read_only (by decide)] at hys
  obtain ⟨xs, hxs, hitems⟩ := canonicalAttachments_eq_ok.mp hys
  refine ⟨xs, ys, orEmpty_eq_arr.mp hxs, by rw [read_set, if_pos rfl], ?_⟩
  exact Except.forall₂_of_mapM_eq_ok hitems fun x _ y hy =>
    attachmentCarried_of_canonicalAttachment hy

/-- **Every list that is accepted is in the body**, item by item in its order. -/
theorem canonicalBody_carries {observation body : Dict String Json} {slot : String}
    (h : canonicalBody observation = .ok (slot, body)) : CollectionsCarried observation body := by
  rcases canonicalBody_eq_ok_cases.mp h with
    ⟨source, rfl, hnull, hsource, hbody⟩ | ⟨source, rfl, hnull, hsource, hbody⟩
  · refine ⟨fun source' xs hsource' hxs => ?_, fun source' xs hsource' _ => ?_⟩
    · obtain rfl := Json.obj.inj (hsource.symm.trans hsource')
      obtain ⟨xs', ys, hcounts, hys, hitems⟩ := attachmentsCarried_of_canonicalMessage hbody
      -- A list counts as itself.
      rw [hxs, ← orEmpty_eq_arr, orEmpty_arr] at hcounts
      obtain rfl := Json.arr.inj hcounts
      exact ⟨ys, hys, hitems⟩
    -- There is one slot, so the other collection was not supplied.
    · rw [hnull] at hsource'
      cases hsource'
  · refine ⟨fun source' xs hsource' _ => ?_, fun source' xs hsource' hxs => ?_⟩
    · rw [hnull] at hsource'
      cases hsource'
    · obtain rfl := Json.obj.inj (hsource.symm.trans hsource')
      obtain ⟨level, codes, -, hcodes, rfl⟩ := canonicalReceipt_eq_ok.mp hbody
      rw [hxs] at hcodes
      obtain ⟨hcodes, -⟩ := canonicalErrorCodes_eq_ok.mp hcodes
      rw [read_set, if_pos rfl, ← hcodes, orEmpty_arr]

/-! ### What is taken for absent -/

variable {observation : Dict String Json}

/-- What counts as absent is malformed. -/
theorem SuppliesAbsent.malformed (h : SuppliesAbsent observation) : Malformed observation := by
  cases h with
  | attachments hslot hvalue => exact .attachments hslot hvalue.not_listOrNull
  | errorCodes hslot hvalue => exact .errorCodes hslot hvalue.not_stringsOrNull

/-- A malformed collection of an observation that is admitted counts as absent. -/
theorem Malformed.suppliesAbsent (hmalformed : Malformed observation)
    (h : Admitted observation) : SuppliesAbsent observation := by
  cases hmalformed with
  | attachments hmessage hvalue =>
    cases h with
    | message hslot _ h =>
      obtain rfl := Json.obj.inj (hslot.symm.trans hmessage)
      obtain ⟨items, hcounts, -⟩ := h.attachments
      rcases hcounts with hlist | ⟨-, hnull | habsent⟩
      · exact absurd (.inr ⟨items, hlist⟩) hvalue
      · exact absurd (.inl hnull) hvalue
      · exact .attachments hmessage habsent
    | receipt _ hother _ =>
      rw [hother] at hmessage
      cases hmessage
  | errorCodes hreceipt hvalue =>
    cases h with
    | message _ hother _ =>
      rw [hother] at hreceipt
      cases hreceipt
    | receipt hslot _ h =>
      obtain rfl := Json.obj.inj (hslot.symm.trans hreceipt)
      obtain ⟨codes, hcounts, hstrings⟩ := h.codes
      rcases hcounts with hlist | ⟨-, hnull | habsent⟩
      · exact absurd (.inr ⟨codes, hlist, hstrings⟩) hvalue
      · exact absurd (.inl hnull) hvalue
      · exact .errorCodes hreceipt habsent

/-- **The law holds of exactly the observations with no collection that is taken for absent.** -/
theorem collectionLaw_iff (observation : Dict String Json) :
    CollectionLaw observation ↔ ¬ TakenForAbsent observation := by
  constructor
  · intro law htaken
    -- It is accepted, though the law refuses it.
    obtain ⟨slot, body, haccepted⟩ := exists_canonicalBody_iff.mpr htaken.admitted
    obtain ⟨e, hrefused⟩ := law.refuses htaken.absent.malformed
    rw [haccepted] at hrefused
    cases hrefused
  · intro htaken
    refine ⟨fun hmalformed => ?_, fun slot body => canonicalBody_carries⟩
    cases hbody : canonicalBody observation with
    | error e => exact ⟨e, rfl⟩
    | ok accepted =>
      have hadmitted := exists_canonicalBody_iff.mp ⟨accepted.1, accepted.2, hbody⟩
      exact absurd ⟨hadmitted, hmalformed.suppliesAbsent hadmitted⟩ htaken

/-- A receipt whose error codes are an empty object. -/
def emptyCodes : Dict String Json :=
  [("delivery_receipt", .obj [("external_message_id", .str "wamid.HBgNMjM0"),
    ("status", .str "failed"), ("error_codes", .obj [])])]

/-- The empty object is rewritten to an empty list. -/
theorem not_collectionLaw_emptyCodes : ¬ ∀ observation, CollectionLaw observation := by
  intro h
  have hbody : canonicalBody emptyCodes = .ok (receiptKey,
      [("external_message_id", .str "wamid.HBgNMjM0"), ("status", .str "failed"),
       ("recipient_id", .null), ("error_codes", .arr [])]) := by
    decide +kernel
  obtain ⟨e, he⟩ := (h emptyCodes).refuses
    (.errorCodes rfl (CountsAsAbsent.emptyObject.not_stringsOrNull))
  rw [hbody] at he
  cases he

end DotmacIntegrator.ProductPort
