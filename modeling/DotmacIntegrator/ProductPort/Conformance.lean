import DotmacIntegrator.ProductPort.CanonicalBody

/-!
# The canonical body conforms to the destination's schema

What the destination requires of a body, level by level, together with what the body keeps of the
observation it was expanded from: every supplied member is declared and kept, and every declared
member that was not supplied is null.

## Main definitions

* `Level`: one level of a body, against the level it was expanded from
* `MessageConforms`, `ReceiptConforms`: the bodies of the two slots

## Main results

* `Level.of_expand`: expansion yields a conforming level
* `canonicalBody_conforms`: the body of every accepted observation conforms and loses nothing
-/

namespace DotmacIntegrator.ProductPort

/-- One level of a body. It has exactly the declared keys: those of the scalars `fields`, and the
`nested` ones. Every scalar is what was supplied, or null, and conforms to its field. -/
structure Level (fields : List WireField) (nested : List String)
    (source body : Dict String Json) : Prop where
  keys : body.keys = names fields ++ nested
  declared : ∀ k ∈ source.keys, k ∈ names fields ++ nested
  scalar : ∀ f ∈ fields, body.get? f.name = some (read source f.name) ∧
    f.Conforms (read source f.name)

/-- An object whose members are related to those of the object it was expanded from. -/
inductive Object (R : Dict String Json → Dict String Json → Prop) : Json → Json → Prop
  | mk {m b : Dict String Json} : R m b → Object R (.obj m) (.obj b)

/-- An optional nested level. -/
inductive Nested (R : Dict String Json → Dict String Json → Prop) : Json → Json → Prop
  | absent : Nested R .null .null
  | present {m b : Json} : Object R m b → Nested R m b

/-- A list, item by item; the empty list when none was supplied. -/
inductive Collection (R : Json → Json → Prop) : Json → List Json → Prop
  | absent : Collection R .null []
  | items {xs ys : List Json} : List.Forall₂ R xs ys → Collection R (.arr xs) ys

/-- An attachment, with its location. -/
structure AttachmentConforms (source body : Dict String Json) : Prop where
  level : Level ATTACHMENT_FIELDS ["location"] source body
  location : ∃ v, body.get? "location" = some v ∧
    Nested (Level LOCATION_FIELDS []) (read source "location") v

/-- A message: its contact profile, its attachments, and a body that is not blank unless there is
an attachment. -/
structure MessageConforms (source body : Dict String Json) : Prop where
  level : Level MESSAGE_FIELDS nestedMessageFields source body
  profile : ∃ v, body.get? "contact_profile" = some v ∧
    Nested (Level CONTACT_PROFILE_FIELDS []) (read source "contact_profile") v
  attachments : ∃ ys, body.get? "attachments" = some (.arr ys) ∧
    Collection (Object AttachmentConforms) (read source "attachments") ys ∧
    (ys = [] → ∃ text, body.get? "body" = some (.str text) ∧ ∃ c ∈ text.toList,
      Text.isSpace c = false)

/-- A delivery receipt, with its error codes. -/
structure ReceiptConforms (source body : Dict String Json) : Prop where
  level : Level DELIVERY_RECEIPT_FIELDS ["error_codes"] source body
  codes : ∃ ys, body.get? "error_codes" = some (.arr ys) ∧
    Collection (fun x y => y = x ∧ ∃ s, x = .str s) (read source "error_codes") ys

/-- Null, or a list. -/
def ListOrNull (v : Json) : Prop := v = .null ∨ ∃ xs, v = .arr xs

/-- A required string is a string. -/
theorem WireField.Conforms.exists_str {f : WireField} {v : Json} (h : f.Conforms v)
    (hk : f.kind = .str) (hr : f.required) : ∃ s, v = .str s := by
  have := h.kind (h.required hr).1
  rw [hk] at this
  cases v <;> simp_all [WireKind.accepts]

/-- No float in the value is NaN. -/
abbrev NoNaN (v : Json) : Prop := v.AllFloats (· ≠ .nan)

theorem ne_nan_of_noNaN {v : Json} (h : NoNaN v) : v ≠ .float .nan := by
  rintro rfl
  exact h .nan (by simp [Json.floats]) rfl

/-! ### Levels -/

/-- Expansion yields a conforming level: of the scalars that were carved out of `source`, to
which the `members` are appended. -/
theorem Level.of_expand {fields : List WireField} {place : String}
    {source scalars level members : Dict String Json}
    (h : expand scalars fields place = .ok level) (hn : NoNaN (.obj source))
    (hread : ∀ f ∈ fields, read scalars f.name = read source f.name)
    (hkeys : ∀ k ∈ source.keys, k ∈ scalars.keys ∨ k ∈ members.keys) :
    Level fields members.keys source (level ++ members) := by
  obtain ⟨rfl, hdecl, hok⟩ := expand_eq_ok.mp h
  refine ⟨by simp, fun k hk => ?_, fun f hf => ⟨?_, ?_⟩⟩
  · exact List.mem_append.mpr ((hkeys k hk).imp_left (hdecl k))
  · rw [Dict.get?_append, get?_completed hf, Option.some_or, hread f hf]
  · have := (checked_eq_ok (hok f hf)).2
    rw [hread f hf] at this
    exact this (ne_nan_of_noNaN (allFloats_read hn _))

/-- A level without nested members. -/
theorem Level.of_expand_self {fields : List WireField} {place : String}
    {source level : Dict String Json} (h : expand source fields place = .ok level)
    (hn : NoNaN (.obj source)) : Level fields [] source level := by
  have hlevel : Level fields (Dict.keys []) source (level ++ []) :=
    Level.of_expand h hn (fun _ _ => rfl) fun _ => Or.inl
  simpa using hlevel

theorem Nested.of_expandNested {value w : Json} {fields : List WireField} {place : String}
    (h : expandNested value fields place = .ok w) (hn : NoNaN value) :
    Nested (Level fields []) value w := by
  rcases expandNested_eq_ok.mp h with ⟨rfl, rfl⟩ | ⟨members, level, rfl, hl, rfl⟩
  · exact .absent
  · exact .present (.mk (Level.of_expand_self hl hn))

/-- A level whose `nested` members were carved out of the source. -/
theorem Level.of_expand_without {fields : List WireField} {place : String} {nested : List String}
    {source level members : Dict String Json}
    (h : expand (source.without nested) fields place = .ok level) (hn : NoNaN (.obj source))
    (hdisj : ∀ k ∈ nested, k ∉ names fields) (hm : members.keys = nested) :
    Level fields nested source (level ++ members) := by
  -- A scalar is not carved out; a key that is carved out is a member.
  subst hm
  refine Level.of_expand h hn (fun f hf => read_without fun hk => ?_) fun k hk => ?_
  · exact hdisj f.name hk (List.mem_map_of_mem hf)
  · by_cases hmem : k ∈ members.keys
    · exact Or.inr hmem
    · exact Or.inl (Dict.mem_keys_without.mpr ⟨hk, hmem⟩)

/-- A member behind a level is found under its key. -/
theorem Level.get?_member {fields : List WireField} {place k : String}
    {scalars level members : Dict String Json} (h : expand scalars fields place = .ok level)
    (hk : k ∉ names fields) : Dict.get? (level ++ members) k = members.get? k := by
  obtain ⟨rfl, -, -⟩ := expand_eq_ok.mp h
  rw [Dict.get?_append, Dict.get?_eq_none_iff.mpr (by simpa using hk), Option.none_or]

/-! ### Attachments, messages and receipts -/

theorem AttachmentConforms.of_canonicalAttachment {item w : Json}
    (h : canonicalAttachment item = .ok w) (hn : NoNaN item) :
    Object AttachmentConforms item w := by
  obtain ⟨source, level, location, rfl, hl, hloc, rfl⟩ := canonicalAttachment_eq_ok.mp h
  -- The location is no scalar, so that it is set behind the level.
  have hk : "location" ∉ names ATTACHMENT_FIELDS := by decide
  rw [set_of_expand hl hk]
  refine .mk ⟨?_, location, ?_, Nested.of_expandNested hloc (allFloats_read hn _)⟩
  · exact Level.of_expand_without hl hn (by decide) rfl
  · rw [Level.get?_member hl hk, Dict.get?_cons_self]

theorem Collection.of_orEmpty {R : Json → Json → Prop} {value : Json} {xs ys : List Json}
    (hlist : ListOrNull value) (hor : orEmpty value = .arr xs) (h : List.Forall₂ R xs ys) :
    Collection R value ys := by
  rcases hlist with rfl | ⟨zs, rfl⟩
  · obtain rfl : [] = xs := by simpa [orEmpty, Json.truthy] using hor
    obtain rfl := List.forall₂_nil_left_iff.mp h
    exact .absent
  · obtain rfl : zs = xs := by simpa using hor
    exact .items h

theorem Collection.of_canonicalAttachments {value : Json} {ys : List Json}
    (h : canonicalAttachments value = .ok ys) (hn : NoNaN value) (hlist : ListOrNull value) :
    Collection (Object AttachmentConforms) value ys := by
  obtain ⟨xs, hor, hxs⟩ := canonicalAttachments_eq_ok.mp h
  -- The items are those supplied, or there are none.
  have hnan : ∀ x ∈ xs, NoNaN x := by
    rcases hlist with rfl | ⟨zs, rfl⟩
    · obtain rfl : [] = xs := by simpa [orEmpty, Json.truthy] using hor
      simp
    · obtain rfl : zs = xs := by simpa using hor
      exact fun x hx => hn.item hx
  exact .of_orEmpty hlist hor (Except.forall₂_of_mapM_eq_ok hxs fun x hx y hy =>
    AttachmentConforms.of_canonicalAttachment hy (hnan x hx))

theorem Collection.of_canonicalErrorCodes {value : Json} {ys : List Json}
    (h : canonicalErrorCodes value = .ok ys) (hlist : ListOrNull value) :
    Collection (fun x y => y = x ∧ ∃ s, x = .str s) value ys := by
  obtain ⟨hor, hall⟩ := canonicalErrorCodes_eq_ok.mp h
  refine .of_orEmpty hlist hor (List.forall₂_same.mpr fun x hx => ⟨rfl, ?_⟩)
  have := List.all_eq_true.mp hall x hx
  cases x <;> simp_all [WireKind.accepts]

/-- A text that stripping does not empty has a character that is not white space. -/
theorem exists_not_isSpace {s : String} (h : Text.strip s ≠ "") :
    ∃ c ∈ s.toList, Text.isSpace c = false := by
  by_contra hall
  exact h (Text.strip_eq_empty_iff.mpr fun c hc => by
    by_contra hs
    exact hall ⟨c, hc, by simpa using hs⟩)

theorem MessageConforms.of_canonicalMessage {source body : Dict String Json}
    (h : canonicalMessage source = .ok body) (hn : NoNaN (.obj source))
    (hlist : ListOrNull (read source "attachments")) :
    MessageConforms source body := by
  obtain ⟨level, profile, ys, hl, hp, ha, rfl, hc⟩ := canonicalMessage_eq_ok.mp h
  have hkp : "contact_profile" ∉ names MESSAGE_FIELDS := by decide
  have hka : "attachments" ∉ names MESSAGE_FIELDS := by decide
  -- Carving out the members that are there is carving out both names.
  rw [Dict.without_keys_only] at hl
  rw [read_only (by decide)] at hp ha
  rw [set_set_of_expand hl hkp (by decide)] at hc ⊢
  have hlevel : Level MESSAGE_FIELDS nestedMessageFields source
      (level ++ [("contact_profile", profile), ("attachments", .arr ys)]) :=
    Level.of_expand_without hl hn (by decide) rfl
  refine ⟨hlevel, ⟨profile, ?_, ?_⟩, ys, ?_, ?_, ?_⟩
  · rw [Level.get?_member hl hkp, Dict.get?_cons_self]
  · exact Nested.of_expandNested hp (allFloats_read hn _)
  · rw [Level.get?_member hl hka]
    rfl
  · exact Collection.of_canonicalAttachments ha (allFloats_read hn _) hlist
  · -- Without an attachment the body, which is a required string, is not blank.
    rintro rfl
    obtain ⟨hget, hconf⟩ := hlevel.scalar MESSAGE_FIELDS[1] (by simp [MESSAGE_FIELDS])
    obtain ⟨text, ht⟩ := hconf.exists_str rfl rfl
    rw [ht] at hget
    refine ⟨text, hget, exists_not_isSpace ?_⟩
    change Dict.get? _ "body" = some _ at hget
    simpa [read, hget, stringOf] using hc

theorem ReceiptConforms.of_canonicalReceipt {source body : Dict String Json}
    (h : canonicalReceipt source = .ok body) (hn : NoNaN (.obj source))
    (hlist : ListOrNull (read source "error_codes")) : ReceiptConforms source body := by
  obtain ⟨level, codes, hl, hc, rfl⟩ := canonicalReceipt_eq_ok.mp h
  have hk : "error_codes" ∉ names DELIVERY_RECEIPT_FIELDS := by decide
  rw [set_of_expand hl hk]
  refine ⟨Level.of_expand_without hl hn (by decide) rfl, codes, ?_, ?_⟩
  · rw [Level.get?_member hl hk, Dict.get?_cons_self]
  · exact Collection.of_canonicalErrorCodes hc hlist

/-- **The canonical body is sound and lossless.** Of every observation without NaN, whose
attachments and error codes are lists when they are supplied, exactly one slot is not null; the
body returned under its name conforms to the destination's schema at every level, and keeps what
was supplied there. -/
theorem canonicalBody_conforms {observation body : Dict String Json} {slot : String}
    (hn : NoNaN (.obj observation))
    (hattachments : ∀ m, read observation messageKey = .obj m → ListOrNull (read m "attachments"))
    (hcodes : ∀ m, read observation receiptKey = .obj m → ListOrNull (read m "error_codes"))
    (h : canonicalBody observation = .ok (slot, body)) :
    (slot = messageKey ∧ read observation receiptKey = .null ∧
      Object MessageConforms (read observation messageKey) (.obj body)) ∨
    (slot = receiptKey ∧ read observation messageKey = .null ∧
      Object ReceiptConforms (read observation receiptKey) (.obj body)) := by
  rcases canonicalBody_eq_ok_cases.mp h with
    ⟨source, rfl, hnull, hsource, hbody⟩ | ⟨source, rfl, hnull, hsource, hbody⟩
  · have hns : NoNaN (.obj source) := hsource ▸ allFloats_read hn messageKey
    refine Or.inl ⟨rfl, hnull, ?_⟩
    rw [hsource]
    exact .mk (MessageConforms.of_canonicalMessage hbody hns (hattachments source hsource))
  · have hns : NoNaN (.obj source) := hsource ▸ allFloats_read hn receiptKey
    refine Or.inr ⟨rfl, hnull, ?_⟩
    rw [hsource]
    exact .mk (ReceiptConforms.of_canonicalReceipt hbody hns (hcodes source hsource))

theorem canonicalBody_conforms_locatedMessage :
    canonicalBody locatedMessage = .ok (messageKey, locatedBody) ∧
      Object MessageConforms (read locatedMessage messageKey) (.obj locatedBody) := by
  have hn : NoNaN (.obj locatedMessage) := by
    unfold NoNaN Json.AllFloats
    decide
  have hconf := canonicalBody_conforms hn (by rintro m ⟨⟩; exact Or.inr ⟨_, rfl⟩)
    (by rintro m ⟨⟩) canonicalBody_locatedMessage
  exact ⟨canonicalBody_locatedMessage, (hconf.resolve_right (by simp +decide)).2.2⟩

end DotmacIntegrator.ProductPort
