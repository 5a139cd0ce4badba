import DotmacIntegrator.ProductPort.Acceptance

/-!
# The shape of a canonical body

What a canonical body looks like, said without the code that makes it: every level has its declared
fields, each once and in their order, with values that pass, and behind them its nested members. A
body of this shape is its own canonical body, so that making a body canonical is a projection.

## Main definitions

* `Shaped`: a level with its declared fields
* `ShapedMessage`, `ShapedReceipt`, `ShapedBody`: the bodies of the two slots

## Main results

* `expand_self_iff`: a level expands to itself iff it has the shape
* `shapedBody_of_canonicalBody`: a canonical body has the shape
* `canonicalBody_projects`: the canonical bodies are those of the shape, and the fixed points
-/

namespace DotmacIntegrator.ProductPort

/-- A level in the destination's own shape. -/
structure Shaped (fields : List WireField) (level : Dict String Json) : Prop where
  keys : level.keys = names fields
  passes : ∀ f ∈ fields, f.Passes (read level f.name)

/-- Null, or a level. -/
def ShapedOrNull (fields : List WireField) (value : Json) : Prop :=
  value = .null ∨ ∃ level, value = .obj level ∧ Shaped fields level

/-- An attachment, with its location at the end. -/
def ShapedAttachment (item : Json) : Prop :=
  ∃ level location, item = .obj (level ++ [("location", location)]) ∧
    Shaped ATTACHMENT_FIELDS level ∧ ShapedOrNull LOCATION_FIELDS location

/-- A message, with its contact profile and its attachments at the end. -/
def ShapedMessage (body : Dict String Json) : Prop :=
  ∃ level profile attachments,
    body = level ++ [("contact_profile", profile), ("attachments", .arr attachments)] ∧
    Shaped MESSAGE_FIELDS level ∧ ShapedOrNull CONTACT_PROFILE_FIELDS profile ∧
    (∀ item ∈ attachments, ShapedAttachment item) ∧
    (attachments = [] → Text.strip (stringOf (read level "body")) ≠ "")

/-- A delivery receipt, with its error codes at the end. -/
def ShapedReceipt (body : Dict String Json) : Prop :=
  ∃ level codes, body = level ++ [("error_codes", .arr codes)] ∧
    Shaped DELIVERY_RECEIPT_FIELDS level ∧ ∀ code ∈ codes, ∃ s, code = .str s

/-- The body of a slot. -/
def ShapedBody (slot : String) (body : Dict String Json) : Prop :=
  slot = messageKey ∧ ShapedMessage body ∨ slot = receiptKey ∧ ShapedReceipt body

variable {fields : List WireField} {place : String} {source level body members : Dict String Json}

/-! ### Levels -/

/-- A level with the declared keys is complete. -/
theorem completed_eq_self (hnodup : (names fields).Nodup) (hkeys : level.keys = names fields) :
    completed level fields = level := by
  have hentries : ∀ entry ∈ level, (entry.1, read level entry.1) = entry := by
    rintro ⟨key, value⟩ hmem
    rw [read, Dict.get?_of_mem (hkeys ▸ hnodup) hmem, Option.getD_some]
  calc completed level fields
      = (names fields).map fun key => (key, read level key) := by
        rw [completed, names, List.map_map]
        rfl
    _ = level.map fun entry => (entry.1, read level entry.1) := by
        rw [← hkeys, Dict.keys, List.map_map]
        rfl
    _ = level := (List.map_congr_left hentries).trans (List.map_id level)

/-- **A level expands to itself iff it has the shape.** -/
theorem expand_self_iff (hnodup : (names fields).Nodup) (place : String) :
    expand level fields place = .ok level ↔ Shaped fields level := by
  rw [expand_eq_ok]
  constructor
  · rintro ⟨hlevel, -, hchecked⟩
    refine ⟨?_, fun f hf => checked_iff_passes.mp (hchecked f hf)⟩
    rw [hlevel, keys_completed]
  · intro h
    refine ⟨(completed_eq_self hnodup h.keys).symm, fun k hk => h.keys ▸ hk, fun f hf => ?_⟩
    exact checked_iff_passes.mpr (h.passes f hf)

/-- What is expanded has the shape. -/
theorem shaped_of_expand (h : expand source fields place = .ok level) : Shaped fields level := by
  have hread := read_of_expand h
  obtain ⟨rfl, -, hchecked⟩ := expand_eq_ok.mp h
  refine ⟨keys_completed source fields, fun f hf => ?_⟩
  rw [hread]
  exact checked_iff_passes.mp (hchecked f hf)

theorem shapedOrNull_of_expandNested {value w : Json}
    (h : expandNested value fields place = .ok w) : ShapedOrNull fields w := by
  rcases expandNested_eq_ok.mp h with ⟨-, rfl⟩ | ⟨members, level, -, hlevel, rfl⟩
  · exact .inl rfl
  · exact .inr ⟨level, rfl, shaped_of_expand hlevel⟩

theorem expandNested_self (hnodup : (names fields).Nodup) {value : Json}
    (h : ShapedOrNull fields value) (place : String) :
    expandNested value fields place = .ok value := by
  rcases h with rfl | ⟨level, rfl, hlevel⟩
  · exact expandNested_eq_ok.mpr (.inl ⟨rfl, rfl⟩)
  · exact expandNested_eq_ok.mpr
      (.inr ⟨level, level, rfl, (expand_self_iff hnodup place).mpr hlevel, rfl⟩)

/-- What stands behind a level is carved out of it again. -/
theorem Shaped.without_append (h : Shaped fields level) (nested : List String)
    (hmembers : members.keys = nested) (hdisjoint : ∀ k ∈ nested, k ∉ names fields) :
    Dict.without (level ++ members) nested = level := by
  subst hmembers
  rw [Dict.without, List.filter_append]
  have hlevel : ∀ entry ∈ level, decide (entry.1 ∉ members.keys) = true := by
    rintro ⟨key, value⟩ hmem
    have hkey : key ∈ names fields := h.keys ▸ Dict.mem_keys_of_mem hmem
    exact decide_eq_true fun hmember => hdisjoint key hmember hkey
  have hmembers : ∀ entry ∈ members, ¬ decide (entry.1 ∉ members.keys) = true := by
    rintro ⟨key, value⟩ hmem
    simpa using Dict.mem_keys_of_mem hmem
  rw [List.filter_eq_self.mpr hlevel, List.filter_eq_nil_iff.mpr hmembers, List.append_nil]

/-- A member behind a level of the shape is read there. -/
theorem Shaped.read_append (h : Shaped fields level) {k : String} (hk : k ∉ names fields) :
    read (level ++ members) k = read members k := by
  rw [read, read, Dict.get?_append, Dict.get?_eq_none_iff.mpr (h.keys ▸ hk), Option.none_or]

/-- A member of the level is read there. -/
theorem Shaped.read_append_left (h : Shaped fields level) {k : String} (hk : k ∈ names fields) :
    read (level ++ members) k = read level k := by
  have hfound := Option.isSome_iff_exists.mp (Dict.get?_isSome_iff.mpr (h.keys ▸ hk))
  obtain ⟨value, hvalue⟩ := hfound
  rw [read, read, Dict.get?_append, hvalue, Option.some_or]

/-! ### What canonical bodies look like -/

theorem shapedAttachment_of_canonicalAttachment {item w : Json}
    (h : canonicalAttachment item = .ok w) : ShapedAttachment w := by
  obtain ⟨source, level, location, -, hlevel, hlocation, rfl⟩ := canonicalAttachment_eq_ok.mp h
  rw [set_of_expand hlevel (by decide)]
  exact ⟨level, location, rfl, shaped_of_expand hlevel, shapedOrNull_of_expandNested hlocation⟩

theorem shapedMessage_of_canonicalMessage (h : canonicalMessage source = .ok body) :
    ShapedMessage body := by
  obtain ⟨level, profile, attachments, hlevel, hprofile, hattachments, rfl, hcontent⟩ :=
    canonicalMessage_eq_ok.mp h
  rw [set_set_of_expand hlevel (by decide) (by decide)] at hcontent ⊢
  have hshaped := shaped_of_expand hlevel
  obtain ⟨items, -, hitems⟩ := canonicalAttachments_eq_ok.mp hattachments
  refine ⟨level, profile, attachments, rfl, hshaped, shapedOrNull_of_expandNested hprofile, ?_, ?_⟩
  · intro item hitem
    obtain ⟨given, -, hgiven⟩ := Except.exists_of_mapM_eq_ok hitems item hitem
    exact shapedAttachment_of_canonicalAttachment hgiven
  · intro hnone
    rw [hshaped.read_append_left (by decide)] at hcontent
    exact hcontent.resolve_right (not_not.mpr hnone)

theorem shapedReceipt_of_canonicalReceipt (h : canonicalReceipt source = .ok body) :
    ShapedReceipt body := by
  obtain ⟨level, codes, hlevel, hcodes, rfl⟩ := canonicalReceipt_eq_ok.mp h
  rw [set_of_expand hlevel (by decide)]
  refine ⟨level, codes, rfl, shaped_of_expand hlevel, fun code hcode => ?_⟩
  have haccepts := List.all_eq_true.mp (canonicalErrorCodes_eq_ok.mp hcodes).2 code hcode
  cases code <;> simp_all [WireKind.accepts]

/-- A canonical body has the shape of its slot. -/
theorem shapedBody_of_canonicalBody {observation : Dict String Json} {slot : String}
    (h : canonicalBody observation = .ok (slot, body)) : ShapedBody slot body := by
  rcases canonicalBody_eq_ok_cases.mp h with
    ⟨source, rfl, -, -, hbody⟩ | ⟨source, rfl, -, -, hbody⟩
  · exact .inl ⟨rfl, shapedMessage_of_canonicalMessage hbody⟩
  · exact .inr ⟨rfl, shapedReceipt_of_canonicalReceipt hbody⟩

/-! ### What has the shape is canonical -/

theorem canonicalAttachment_self {item : Json} (h : ShapedAttachment item) :
    canonicalAttachment item = .ok item := by
  obtain ⟨level, location, rfl, hlevel, hlocation⟩ := h
  refine canonicalAttachment_eq_ok.mpr ⟨_, level, location, rfl, ?_, ?_, ?_⟩
  · rw [hlevel.without_append ["location"] rfl (by decide)]
    exact (expand_self_iff (by decide) _).mpr hlevel
  · rw [hlevel.read_append (by decide)]
    exact expandNested_self (by decide) hlocation _
  · rw [Dict.set_of_notMem (by rw [hlevel.keys]; decide)]

theorem canonicalMessage_self (h : ShapedMessage body) : canonicalMessage body = .ok body := by
  obtain ⟨level, profile, attachments, rfl, hlevel, hprofile, hattachments, hcontent⟩ := h
  have hset : (level.set "contact_profile" profile).set "attachments" (.arr attachments) =
      level ++ [("contact_profile", profile), ("attachments", .arr attachments)] :=
    set_set_of_expand ((expand_self_iff (by decide) messageKey).mpr hlevel) (by decide) (by decide)
      _ _
  refine canonicalMessage_eq_ok.mpr ⟨level, profile, attachments, ?_, ?_, ?_, hset.symm, ?_⟩
  · rw [Dict.without_keys_only, hlevel.without_append nestedMessageFields rfl (by decide)]
    exact (expand_self_iff (by decide) _).mpr hlevel
  · rw [read_only (by decide), hlevel.read_append (by decide)]
    exact expandNested_self (by decide) hprofile _
  · rw [read_only (by decide), hlevel.read_append (by decide)]
    refine canonicalAttachments_eq_ok.mpr ⟨attachments, orEmpty_arr attachments, ?_⟩
    refine Except.mapM_eq_ok.mpr (List.forall₂_same.mpr fun item hitem => ?_)
    exact canonicalAttachment_self (hattachments item hitem)
  · rw [hlevel.read_append_left (by decide)]
    exact or_iff_not_imp_right.mpr fun hnone => hcontent (not_not.mp hnone)

theorem canonicalReceipt_self (h : ShapedReceipt body) : canonicalReceipt body = .ok body := by
  obtain ⟨level, codes, rfl, hlevel, hcodes⟩ := h
  refine canonicalReceipt_eq_ok.mpr ⟨level, codes, ?_, ?_, ?_⟩
  · rw [hlevel.without_append ["error_codes"] rfl (by decide)]
    exact (expand_self_iff (by decide) _).mpr hlevel
  · rw [hlevel.read_append (by decide)]
    refine canonicalErrorCodes_eq_ok.mpr ⟨orEmpty_arr codes, List.all_eq_true.mpr ?_⟩
    intro code hcode
    obtain ⟨s, rfl⟩ := hcodes code hcode
    rfl
  · rw [Dict.set_of_notMem (by rw [hlevel.keys]; decide)]

/-- An observation that is its slot's body alone. -/
def observed (slot : String) (body : Dict String Json) : Dict String Json := [(slot, .obj body)]

/-- A body of the shape is its own canonical body. -/
theorem canonicalBody_self {slot : String} (h : ShapedBody slot body) :
    canonicalBody (observed slot body) = .ok (slot, body) := by
  rcases h with ⟨rfl, h⟩ | ⟨rfl, h⟩
  · exact canonicalBody_eq_ok_cases.mpr
      (.inl ⟨body, rfl, rfl, rfl, canonicalMessage_self h⟩)
  · exact canonicalBody_eq_ok_cases.mpr
      (.inr ⟨body, rfl, rfl, rfl, canonicalReceipt_self h⟩)

/-- **Making a body canonical is a projection.** The canonical bodies of all observations are
exactly the bodies of the shape, and exactly those that are their own canonical bodies. -/
theorem canonicalBody_projects (slot : String) (body : Dict String Json) :
    ((∃ observation, canonicalBody observation = .ok (slot, body)) ↔ ShapedBody slot body) ∧
      (ShapedBody slot body ↔ canonicalBody (observed slot body) = .ok (slot, body)) := by
  refine ⟨⟨?_, fun h => ⟨_, canonicalBody_self h⟩⟩, canonicalBody_self, shapedBody_of_canonicalBody⟩
  rintro ⟨observation, h⟩
  exact shapedBody_of_canonicalBody h

end DotmacIntegrator.ProductPort
