import DotmacIntegrator.ProductPort.Conformance

/-!
# What is accepted

Which observations have a canonical body, said without the code: every level declares only its own
keys, every leaf conforms to its field, and the collections are lists. Two kinds of value are
accepted beside: NaN for a number, since no comparison with it refuses it, and whatever is false for
a collection, since it counts as absent.

## Main definitions

* `WireField.Passes`: a leaf that conforms, or is NaN in a field of floats
* `CountsAsAbsent`: the values that are false, and neither null nor a list
* `Admitted`: an observation that is accepted

## Main results

* `checked_iff_passes`: what the check of a leaf accepts
* `exists_expand_iff`: what the check of a level accepts
* `exists_canonicalBody_iff`: an observation has a canonical body iff it is admitted
-/

namespace DotmacIntegrator.ProductPort

/-- A leaf that conforms to its field, or is NaN in a field of floats. -/
def WireField.Passes (field : WireField) (v : Json) : Prop :=
  field.Conforms v ∨ field.kind = .float ∧ v = .float .nan

/-- A level that declares only its fields and `nested`, and whose leaves pass. -/
structure Supplies (fields : List WireField) (nested : List String) (source : Dict String Json) :
    Prop where
  declared : ∀ k ∈ source.keys, k ∈ names fields ++ nested
  passes : ∀ f ∈ fields, f.Passes (read source f.name)

/-- Null, or a level. -/
def OptionalLevel (fields : List WireField) (value : Json) : Prop :=
  value = .null ∨ ∃ members, value = .obj members ∧ Supplies fields [] members

/-- What counts as absent beside null: whatever is false and no list. -/
inductive CountsAsAbsent : Json → Prop
  | no : CountsAsAbsent (.bool false)
  | zero : CountsAsAbsent (.int 0)
  | zeroFloat {x : PyFloat} (h : x.value? = some 0) : CountsAsAbsent (.float x)
  | emptyText : CountsAsAbsent (.str "")
  | emptyObject : CountsAsAbsent (.obj [])

/-- The items a collection counts as: its own, or none where it counts as absent. -/
def CountsAs (value : Json) (items : List Json) : Prop :=
  value = .arr items ∨ items = [] ∧ (value = .null ∨ CountsAsAbsent value)

/-- An attachment, with its location. -/
def AdmittedAttachment (item : Json) : Prop :=
  ∃ attachment, item = .obj attachment ∧ Supplies ATTACHMENT_FIELDS ["location"] attachment ∧
    OptionalLevel LOCATION_FIELDS (read attachment "location")

/-- A message: its scalars, its contact profile, its attachments, and a text that is not blank
unless there is an attachment. -/
structure AdmittedMessage (source : Dict String Json) : Prop where
  level : Supplies MESSAGE_FIELDS nestedMessageFields source
  profile : OptionalLevel CONTACT_PROFILE_FIELDS (read source "contact_profile")
  attachments : ∃ items, CountsAs (read source "attachments") items ∧
    (∀ item ∈ items, AdmittedAttachment item) ∧
    (items = [] → ∃ text, read source "body" = .str text ∧ ∃ c ∈ text.toList,
      Text.isSpace c = false)

/-- A delivery receipt, with its error codes. -/
structure AdmittedReceipt (source : Dict String Json) : Prop where
  level : Supplies DELIVERY_RECEIPT_FIELDS ["error_codes"] source
  codes : ∃ items, CountsAs (read source "error_codes") items ∧ ∀ x ∈ items, ∃ s, x = .str s

/-- An observation of one slot, which is admitted. -/
inductive Admitted (observation : Dict String Json) : Prop
  | message {source : Dict String Json} (hslot : read observation messageKey = .obj source)
      (hother : read observation receiptKey = .null) (h : AdmittedMessage source)
  | receipt {source : Dict String Json} (hslot : read observation receiptKey = .obj source)
      (hother : read observation messageKey = .null) (h : AdmittedReceipt source)

/-! ### The check of a leaf -/

/-- **A leaf passes its check iff it conforms to its field**, unless it is NaN. -/
theorem checked_iff_conforms {field : WireField} {v : Json} {place : String}
    (hnan : v ≠ .float .nan) : checked field v place = .ok v ↔ field.Conforms v := by
  refine ⟨fun h => (checked_eq_ok h).2 hnan, fun h => ?_⟩
  unfold checked
  by_cases hnull : v = .null
  · rw [if_pos hnull, if_neg fun hreq => (h.required hreq).1 hnull, hnull]
  · have haccepts := h.kind hnull
    rw [if_neg hnull, if_neg (by rw [haccepts]; decide)]
    cases v with
    | null => exact absurd rfl hnull
    | str s =>
      simp only
      -- A text is checked for emptiness, then for its length.
      rw [if_neg fun hempty => (h.required hempty.1).2 hempty.2.2 (by rw [hempty.2.1])]
      cases hlimit : field.maxLength.filter (· < s.length) with
      | none => rfl
      | some limit =>
        obtain ⟨hmax, hlt⟩ := Option.filter_eq_some_iff.mp hlimit
        have hle := h.maxLength limit hmax s rfl
        simp only [decide_eq_true_eq] at hlt
        omega
    | int n =>
      -- A field that takes a number is none of texts, so its bounds are enforced.
      have hstr : field.kind ≠ .str := fun hk => by simp [hk, WireKind.accepts] at haccepts
      refine bounded_eq_ok.mpr ⟨rfl, fun b hb => ?_, fun b hb => ?_⟩
      · simpa [AtLeast] using h.minimum b hb hstr hnull
      · simpa [AtMost] using h.maximum b hb hstr hnull
    | float x =>
      have hstr : field.kind ≠ .str := fun hk => by simp [hk, WireKind.accepts] at haccepts
      refine bounded_eq_ok.mpr ⟨rfl, fun b hb => ?_, fun b hb => ?_⟩
      · have hmin := h.minimum b hb hstr hnull
        cases x <;> simp_all [AtLeast, PyFloat.lt]
      · have hmax := h.maximum b hb hstr hnull
        cases x <;> simp_all [AtMost, PyFloat.gt]
    -- No kind of field takes any other value.
    | bool b => cases hk : field.kind <;> simp [hk, WireKind.accepts] at haccepts
    | arr xs => cases hk : field.kind <;> simp [hk, WireKind.accepts] at haccepts
    | obj ms => cases hk : field.kind <;> simp [hk, WireKind.accepts] at haccepts

/-- **What the check of a leaf accepts.** -/
theorem checked_iff_passes {field : WireField} {v : Json} {place : String} :
    checked field v place = .ok v ↔ field.Passes v := by
  by_cases hnan : v = .float .nan
  · subst hnan
    constructor
    · intro h
      rcases accepts_of_checked h with ⟨⟨⟩, -⟩ | haccepts
      refine .inr ⟨?_, rfl⟩
      cases hkind : field.kind <;> simp_all [WireKind.accepts]
    · intro h
      have haccepts : field.kind.accepts (.float .nan) = true := by
        rcases h with h | ⟨hkind, -⟩
        · exact h.kind (by simp)
        · rw [hkind]
          rfl
      unfold checked
      rw [if_neg (by simp), if_neg (by rw [haccepts]; decide)]
      -- No bound refuses NaN: every comparison with it is false.
      exact bounded_eq_ok.mpr ⟨rfl, fun _ _ => rfl, fun _ _ => rfl⟩
  · rw [checked_iff_conforms hnan, WireField.Passes, or_iff_left fun h => hnan h.2]

/-- NaN passes only where a float is declared. -/
theorem WireField.Passes.conforms {field : WireField} {v : Json} (h : field.Passes v)
    (hkind : field.kind ≠ .float) : field.Conforms v :=
  h.resolve_right fun hnan => hkind hnan.1

/-! ### Levels -/

theorem read_set (d : Dict String Json) (k : String) (v : Json) (k' : String) :
    read (d.set k v) k' = if k = k' then v else read d k' := by
  rw [read, Dict.get?_set]
  split_ifs <;> rfl

/-- An expanded level has the members it was expanded from. -/
theorem read_of_expand {fields : List WireField} {place : String} {source level : Dict String Json}
    (h : expand source fields place = .ok level) (k : String) : read level k = read source k := by
  obtain ⟨rfl, hdeclared, -⟩ := expand_eq_ok.mp h
  by_cases hk : k ∈ names fields
  · obtain ⟨f, hf, rfl⟩ := List.mem_map.mp hk
    rw [read, get?_completed hf, Option.getD_some]
  -- A key that is not declared is missing on both sides.
  · have hlevel : (completed source fields).get? k = none :=
      Dict.get?_eq_none_iff.mpr (by rwa [keys_completed])
    have hsource : source.get? k = none := Dict.get?_eq_none_iff.mpr fun hmem =>
      hk (hdeclared k hmem)
    rw [read, read, hlevel, hsource]

/-- **What the check of a level accepts.** -/
theorem exists_expand_iff {fields : List WireField} {source : Dict String Json} (place : String) :
    (∃ level, expand source fields place = .ok level) ↔ Supplies fields [] source := by
  constructor
  · rintro ⟨level, h⟩
    obtain ⟨-, hdeclared, hchecked⟩ := expand_eq_ok.mp h
    refine ⟨fun k hk => ?_, fun f hf => checked_iff_passes.mp (hchecked f hf)⟩
    rw [List.append_nil]
    exact hdeclared k hk
  · intro h
    refine ⟨_, expand_eq_ok.mpr ⟨rfl, fun k hk => ?_, fun f hf =>
      checked_iff_passes.mpr (h.passes f hf)⟩⟩
    simpa using h.declared k hk

/-- What is carved out of a level may be declared in it. -/
theorem supplies_without_iff {fields : List WireField} {nested : List String}
    {source : Dict String Json} (hdisjoint : ∀ k ∈ nested, k ∉ names fields) :
    Supplies fields [] (source.without nested) ↔ Supplies fields nested source := by
  have hread : ∀ f ∈ fields, read (source.without nested) f.name = read source f.name :=
    fun f hf => read_without fun hmem => hdisjoint f.name hmem (List.mem_map_of_mem hf)
  constructor
  · intro h
    refine ⟨fun k hk => ?_, fun f hf => hread f hf ▸ h.passes f hf⟩
    by_cases hmem : k ∈ nested
    · exact List.mem_append_right _ hmem
    · have hdeclared := h.declared k (Dict.mem_keys_without.mpr ⟨hk, hmem⟩)
      rw [List.append_nil] at hdeclared
      exact List.mem_append_left _ hdeclared
  · intro h
    refine ⟨fun k hk => ?_, fun f hf => (hread f hf).symm ▸ h.passes f hf⟩
    obtain ⟨hkey, hmem⟩ := Dict.mem_keys_without.mp hk
    rw [List.append_nil]
    exact (List.mem_append.mp (h.declared k hkey)).resolve_right hmem

theorem exists_expandNested_iff {value : Json} {fields : List WireField} (place : String) :
    (∃ w, expandNested value fields place = .ok w) ↔ OptionalLevel fields value := by
  simp only [OptionalLevel, expandNested_eq_ok, ← exists_expand_iff place]
  constructor
  · rintro ⟨_, ⟨rfl, rfl⟩ | ⟨members, level, rfl, hl, rfl⟩⟩
    · exact .inl rfl
    · exact .inr ⟨members, rfl, level, hl⟩
  · rintro (rfl | ⟨members, rfl, level, hl⟩)
    · exact ⟨_, .inl ⟨rfl, rfl⟩⟩
    · exact ⟨_, .inr ⟨members, level, rfl, hl, rfl⟩⟩

/-! ### What counts as absent -/

/-- What the default makes a list of: a list, null, and what counts as absent. -/
theorem orEmpty_eq_arr {value : Json} {xs : List Json} :
    orEmpty value = .arr xs ↔ CountsAs value xs := by
  constructor
  · intro h
    rw [orEmpty] at h
    split_ifs at h with htruthy
    -- A value that is true is kept, so it is the list.
    · exact .inl h
    · obtain rfl := Json.arr.inj h
      cases value with
      | null => exact .inr ⟨rfl, .inl rfl⟩
      | bool b =>
        cases b with
        | false => exact .inr ⟨rfl, .inr .no⟩
        | true => exact absurd rfl htruthy
      | int n =>
        obtain rfl : n = 0 := by simpa [Json.truthy] using htruthy
        exact .inr ⟨rfl, .inr .zero⟩
      | float x => exact .inr ⟨rfl, .inr (.zeroFloat (by simpa [Json.truthy] using htruthy))⟩
      | str s =>
        obtain rfl : s = "" := by simpa [Json.truthy] using htruthy
        exact .inr ⟨rfl, .inr .emptyText⟩
      | arr xs =>
        obtain rfl : xs = [] := by simpa [Json.truthy] using htruthy
        exact .inl rfl
      | obj ms =>
        obtain rfl : ms = [] := by simpa [Json.truthy] using htruthy
        exact .inr ⟨rfl, .inr .emptyObject⟩
  · rintro (rfl | ⟨rfl, rfl | habsent⟩)
    · exact orEmpty_arr xs
    · rfl
    · cases habsent with
      | zeroFloat h => simp [orEmpty, Json.truthy, h]
      | no | zero | emptyText | emptyObject => simp [orEmpty, Json.truthy]

theorem CountsAsAbsent.not_listOrNull {value : Json} (h : CountsAsAbsent value) :
    ¬ ListOrNull value := by
  rintro (rfl | ⟨xs, rfl⟩) <;> cases h

theorem all_accepts_str_iff {xs : List Json} :
    xs.all WireKind.str.accepts ↔ ∀ x ∈ xs, ∃ s, x = .str s := by
  rw [List.all_eq_true]
  refine forall₂_congr fun x _ => ?_
  cases x <;> simp [WireKind.accepts]

/-! ### Messages, receipts and observations -/

theorem exists_canonicalAttachment_iff {item : Json} :
    (∃ w, canonicalAttachment item = .ok w) ↔ AdmittedAttachment item := by
  have hdisjoint : ∀ k ∈ ["location"], k ∉ names ATTACHMENT_FIELDS := by decide
  simp only [canonicalAttachment_eq_ok]
  constructor
  · rintro ⟨_, attachment, expanded, location, rfl, hl, hlocation, -⟩
    exact ⟨attachment, rfl,
      (supplies_without_iff hdisjoint).mp ((exists_expand_iff _).mp ⟨expanded, hl⟩),
      (exists_expandNested_iff _).mp ⟨location, hlocation⟩⟩
  · rintro ⟨attachment, rfl, hlevel, hlocation⟩
    obtain ⟨expanded, hl⟩ := (exists_expand_iff "message.attachments[]").mpr
      ((supplies_without_iff hdisjoint).mpr hlevel)
    obtain ⟨location, hlocation⟩ :=
      (exists_expandNested_iff "message.attachments[].location").mpr hlocation
    exact ⟨_, attachment, expanded, location, rfl, hl, hlocation, rfl⟩

/-- A message has a body iff it is admitted. -/
theorem exists_canonicalMessage_iff {source : Dict String Json} :
    (∃ body, canonicalMessage source = .ok body) ↔ AdmittedMessage source := by
  have hdisjoint : ∀ k ∈ nestedMessageFields, k ∉ names MESSAGE_FIELDS := by decide
  constructor
  · rintro ⟨_, h⟩
    obtain ⟨level, profile, ys, hl, hprofile, hys, rfl, hcontent⟩ := canonicalMessage_eq_ok.mp h
    rw [Dict.without_keys_only] at hl
    rw [read_only (by decide)] at hprofile hys
    have hlevel : Supplies MESSAGE_FIELDS nestedMessageFields source :=
      (supplies_without_iff hdisjoint).mp ((exists_expand_iff _).mp ⟨level, hl⟩)
    obtain ⟨xs, hxs, hitems⟩ := canonicalAttachments_eq_ok.mp hys
    refine ⟨hlevel, (exists_expandNested_iff _).mp ⟨profile, hprofile⟩, xs,
      orEmpty_eq_arr.mp hxs, fun item hitem => ?_, ?_⟩
    · exact exists_canonicalAttachment_iff.mp (Except.ok_of_mapM_eq_ok hitems item hitem)
    · -- Without an attachment the text, which is a required string, is not blank.
      rintro rfl
      obtain rfl : ys = [] := (Except.ok.inj hitems).symm
      have hpasses := hlevel.passes MESSAGE_FIELDS[1] (by simp [MESSAGE_FIELDS])
      obtain ⟨text, htext⟩ := (hpasses.conforms (by decide)).exists_str rfl rfl
      have hread : read source "body" = .str text := htext
      have hstrip := hcontent.resolve_right (not_not.mpr rfl)
      rw [read_set, if_neg (by decide), read_set, if_neg (by decide), read_of_expand hl,
        read_without (by decide), hread] at hstrip
      exact ⟨text, hread, exists_not_isSpace hstrip⟩
  · rintro ⟨hlevel, hprofile, items, hcounts, hitems, htext⟩
    obtain ⟨level, hl⟩ := (exists_expand_iff messageKey).mpr
      ((supplies_without_iff hdisjoint).mpr hlevel)
    obtain ⟨profile, hprofile⟩ :=
      (exists_expandNested_iff "message.contact_profile").mpr hprofile
    obtain ⟨ys, hys⟩ := Except.exists_mapM_eq_ok fun item hitem =>
      exists_canonicalAttachment_iff.mpr (hitems item hitem)
    refine ⟨_, canonicalMessage_eq_ok.mpr ⟨level, profile, ys, ?_, ?_, ?_, rfl, ?_⟩⟩
    · rw [Dict.without_keys_only]
      exact hl
    · rw [read_only (by decide)]
      exact hprofile
    · rw [read_only (by decide)]
      exact canonicalAttachments_eq_ok.mpr ⟨items, orEmpty_eq_arr.mpr hcounts, hys⟩
    -- A message without attachments has its text, one with attachments has those.
    · by_cases hempty : items = []
      · obtain ⟨text, hbody, c, hc, hspace⟩ := htext hempty
        rw [read_set, if_neg (by decide), read_set, if_neg (by decide), read_of_expand hl,
          read_without (by decide), hbody]
        refine .inl fun hblank => ?_
        have hall := Text.strip_eq_empty_iff.mp hblank c hc
        rw [hspace] at hall
        cases hall
      · refine .inr fun hnil => hempty ?_
        rw [hnil] at hys
        exact List.forall₂_nil_right_iff.mp (Except.mapM_eq_ok.mp hys)

/-- A receipt has a body iff it is admitted. -/
theorem exists_canonicalReceipt_iff {source : Dict String Json} :
    (∃ body, canonicalReceipt source = .ok body) ↔ AdmittedReceipt source := by
  have hdisjoint : ∀ k ∈ ["error_codes"], k ∉ names DELIVERY_RECEIPT_FIELDS := by decide
  constructor
  · rintro ⟨_, h⟩
    obtain ⟨level, codes, hl, hcodes, -⟩ := canonicalReceipt_eq_ok.mp h
    obtain ⟨hcounts, hstrings⟩ := canonicalErrorCodes_eq_ok.mp hcodes
    exact ⟨(supplies_without_iff hdisjoint).mp ((exists_expand_iff _).mp ⟨level, hl⟩), codes,
      orEmpty_eq_arr.mp hcounts, all_accepts_str_iff.mp hstrings⟩
  · rintro ⟨hlevel, codes, hcounts, hstrings⟩
    obtain ⟨level, hl⟩ := (exists_expand_iff receiptKey).mpr
      ((supplies_without_iff hdisjoint).mpr hlevel)
    exact ⟨_, canonicalReceipt_eq_ok.mpr ⟨level, codes, hl, canonicalErrorCodes_eq_ok.mpr
      ⟨orEmpty_eq_arr.mpr hcounts, all_accepts_str_iff.mpr hstrings⟩, rfl⟩⟩

/-- **An observation has a canonical body iff it is admitted.** -/
theorem exists_canonicalBody_iff {observation : Dict String Json} :
    (∃ slot body, canonicalBody observation = .ok (slot, body)) ↔ Admitted observation := by
  constructor
  · rintro ⟨slot, body, h⟩
    rcases canonicalBody_eq_ok_cases.mp h with
      ⟨source, rfl, hother, hsource, hbody⟩ | ⟨source, rfl, hother, hsource, hbody⟩
    · exact .message hsource hother (exists_canonicalMessage_iff.mp ⟨body, hbody⟩)
    · exact .receipt hsource hother (exists_canonicalReceipt_iff.mp ⟨body, hbody⟩)
  · intro h
    cases h with
    | message hslot hother h =>
      obtain ⟨body, hbody⟩ := exists_canonicalMessage_iff.mpr h
      exact ⟨messageKey, body, canonicalBody_eq_ok_cases.mpr (.inl ⟨_, rfl, hother, hslot, hbody⟩)⟩
    | receipt hslot hother h =>
      obtain ⟨body, hbody⟩ := exists_canonicalReceipt_iff.mpr h
      exact ⟨receiptKey, body, canonicalBody_eq_ok_cases.mpr (.inr ⟨_, rfl, hother, hslot, hbody⟩)⟩

end DotmacIntegrator.ProductPort
