import DotmacIntegrator.ProductPort.Envelope

/-!
# Observations that are the same

Two observations are the same when they differ only in the order of keys, at any level, or in
members that are null in one and absent in the other. As long as every key is declared, the same
observations have the same canonical body and yield the same envelope.

## Main definitions

* `Same`: equality up to the order of keys, and up to members that are null or absent
* `DeclaredObservation`: the observations whose every key is declared

## Main results

* `declaredObservation_of_buildEnvelope`: an accepted observation declares every key
* `canonicalBody_same`, `buildEnvelope_same`: the same observations, the same envelope
-/

namespace DotmacIntegrator.ProductPort

/-- Equal up to the order of keys, and up to members that are null in one and absent in the
other, at any level. -/
inductive Same : Json → Json → Prop
  | refl (v : Json) : Same v v
  | arr {xs ys : List Json} : List.Forall₂ Same xs ys → Same (.arr xs) (.arr ys)
  | obj {m m' : Dict String Json} : (∀ k, Same (read m k) (read m' k)) →
      Same (.obj m) (.obj m')

/-- Reordering the entries of a dictionary leaves it the same. -/
theorem Same.of_perm {m m' : Dict String Json} (h : m.Perm m') (hm : m.keys.Nodup) :
    Same (.obj m) (.obj m') := by
  have hm' : m'.keys.Nodup := (h.map Prod.fst).nodup_iff.mp hm
  apply Same.obj
  intro k
  -- An entry of one is an entry of the other, and no key has two.
  have hread : read m k = read m' k := by
    rcases read_eq_null_or_mem m k with hnull | hmem
    · rcases read_eq_null_or_mem m' k with hnull' | hmem'
      · rw [hnull, hnull']
      · rw [read, Dict.get?_of_mem hm (h.mem_iff.mpr hmem')]
        rfl
    · conv_rhs => rw [read, Dict.get?_of_mem hm' (h.mem_iff.mp hmem)]
      rfl
  rw [hread]
  exact .refl _

/-- Supplying a null explicitly leaves a dictionary the same. -/
theorem Same.append_null {m : Dict String Json} {k : String} (hk : k ∉ m.keys) :
    Same (.obj m) (.obj (m ++ [(k, .null)])) := by
  apply Same.obj
  intro l
  have hread : read (m ++ [(k, .null)]) l = read m l := by
    unfold read
    rw [Dict.get?_append]
    by_cases hl : k = l
    · subst hl
      simp [Dict.get?_eq_none_iff.mpr hk]
    · rw [Dict.get?_cons_of_ne hl, Dict.get?_nil, Option.or_none]
  rw [hread]
  exact .refl _

/-- The keys of an object, where there is one, are among `allowed`. -/
def DeclaredKeys (allowed : List String) (v : Json) : Prop :=
  ∀ m, v = .obj m → ∀ k ∈ Dict.keys m, k ∈ allowed

/-- The keys of an attachment are declared. -/
structure DeclaredAttachment (v : Json) : Prop where
  keys : DeclaredKeys (names ATTACHMENT_FIELDS ++ ["location"]) v
  location : ∀ m, v = .obj m → DeclaredKeys (names LOCATION_FIELDS) (read m "location")

/-- The keys of a message are declared, level by level. -/
structure DeclaredMessage (v : Json) : Prop where
  keys : DeclaredKeys (names MESSAGE_FIELDS ++ nestedMessageFields) v
  profile : ∀ m, v = .obj m → DeclaredKeys (names CONTACT_PROFILE_FIELDS)
    (read m "contact_profile")
  attachments : ∀ m, v = .obj m → DeclaredKeys [] (read m "attachments") ∧
    ∀ xs, read m "attachments" = .arr xs → ∀ x ∈ xs, DeclaredAttachment x

/-- The keys of a delivery receipt are declared. -/
structure DeclaredReceipt (v : Json) : Prop where
  keys : DeclaredKeys (names DELIVERY_RECEIPT_FIELDS ++ ["error_codes"]) v
  codes : ∀ m, v = .obj m → DeclaredKeys [] (read m "error_codes")

/-- The keys of an observation are declared, level by level. -/
structure DeclaredObservation (observation : Dict String Json) : Prop where
  keys : ∀ k ∈ observation.keys, k ∈ observationKeys
  message : DeclaredMessage (read observation messageKey)
  receipt : DeclaredReceipt (read observation receiptKey)

/-! ### Leaves and levels -/

theorem checked_same {field : WireField} {v w : Json} {place : String} (h : Same v w) :
    checked field v place = checked field w place := by
  -- Two values that are the same are equal, or of one kind that no field accepts.
  cases h with
  | refl => rfl
  | arr => cases hk : field.kind <;> simp [checked, WireKind.accepts, hk, typeName]
  | obj => cases hk : field.kind <;> simp [checked, WireKind.accepts, hk, typeName]

theorem expand_same {fields : List WireField} {place : String} {m m' : Dict String Json}
    (h : ∀ f ∈ fields, Same (read m f.name) (read m' f.name))
    (hm : ∀ k ∈ m.keys, k ∈ names fields) (hm' : ∀ k ∈ m'.keys, k ∈ names fields) :
    expand m fields place = expand m' fields place :=
  expand_congr (fun k hk => iff_of_false (fun hmem => hk (hm k hmem)) fun hmem => hk (hm' k hmem))
    fun f hf => checked_same (h f hf)

/-- The scalars of a level whose `nested` members were carved out. -/
theorem expand_without_same {fields : List WireField} (place : String) (nested : List String)
    {m m' : Dict String Json} (h : ∀ k, Same (read m k) (read m' k))
    (hm : ∀ k ∈ m.keys, k ∈ names fields ++ nested)
    (hm' : ∀ k ∈ m'.keys, k ∈ names fields ++ nested) (hdisj : ∀ k ∈ nested, k ∉ names fields) :
    expand (m.without nested) fields place = expand (m'.without nested) fields place := by
  -- What is left of a declared level is its scalars.
  have hkeys : ∀ d : Dict String Json, (∀ k ∈ d.keys, k ∈ names fields ++ nested) →
      ∀ k ∈ (d.without nested).keys, k ∈ names fields := by
    intro d hd k hk
    obtain ⟨hmem, hn⟩ := Dict.mem_keys_without.mp hk
    exact (List.mem_append.mp (hd k hmem)).resolve_right hn
  refine expand_same ?_ (hkeys m hm) (hkeys m' hm')
  intro f hf
  have hf' : f.name ∉ nested := fun hn => hdisj f.name hn (List.mem_map_of_mem hf)
  rw [read_without hf', read_without hf']
  exact h f.name

theorem expandNested_same {fields : List WireField} (place : String) {v w : Json} (h : Same v w)
    (hv : DeclaredKeys (names fields) v) (hw : DeclaredKeys (names fields) w) :
    expandNested v fields place = expandNested w fields place := by
  cases h with
  | refl => rfl
  | arr => rfl
  | @obj m m' hmm => simp [expandNested, mapping, expand_same (fun f _ => hmm f.name)
      (hv m rfl) (hw m' rfl)]

theorem DeclaredKeys.keys_of_obj {allowed : List String} {m : Dict String Json}
    (h : DeclaredKeys allowed (.obj m)) : ∀ k ∈ m.keys, k ∈ allowed :=
  h m rfl

/-- An object without keys is empty. -/
theorem DeclaredKeys.eq_nil {m : Dict String Json} (h : DeclaredKeys [] (.obj m)) : m = [] := by
  cases m with
  | nil => rfl
  | cons p m => exact absurd (h _ rfl p.1 (by simp [Dict.keys])) (by simp)

/-! ### Collections -/

theorem canonicalAttachment_same {v w : Json} (h : Same v w) (hv : DeclaredAttachment v)
    (hw : DeclaredAttachment w) : canonicalAttachment v = canonicalAttachment w := by
  cases h with
  | refl => rfl
  | arr => rfl
  | @obj m m' hmm =>
    have hscalars := expand_without_same "message.attachments[]" ["location"] hmm
      hv.keys.keys_of_obj hw.keys.keys_of_obj (by decide)
    have hlocation := expandNested_same "message.attachments[].location"
      (hmm "location") (hv.location m rfl) (hw.location m' rfl)
    simp only [canonicalAttachment, mapping, Except.ok_bind, hscalars, hlocation]

theorem canonicalAttachments_same {v w : Json} (h : Same v w) (hv : DeclaredKeys [] v)
    (hw : DeclaredKeys [] w) (hxs : ∀ xs, v = .arr xs → ∀ x ∈ xs, DeclaredAttachment x)
    (hys : ∀ ys, w = .arr ys → ∀ y ∈ ys, DeclaredAttachment y) :
    canonicalAttachments v = canonicalAttachments w := by
  -- Objects are the same here only when both are empty.
  cases h with
  | refl => rfl
  | @arr xs ys hitems =>
    simp only [canonicalAttachments, orEmpty_arr]
    exact Except.mapM_congr hitems fun x hx y hy hxy =>
      canonicalAttachment_same hxy (hxs xs rfl x hx) (hys ys rfl y hy)
  | obj => rw [hv.eq_nil, hw.eq_nil]

theorem accepts_str_same {x y : Json} (h : Same x y) :
    WireKind.str.accepts x = WireKind.str.accepts y ∧ (WireKind.str.accepts x → x = y) := by
  cases h with
  | refl => exact ⟨rfl, fun _ => rfl⟩
  | arr => exact ⟨rfl, fun hx => by simp [WireKind.accepts] at hx⟩
  | obj => exact ⟨rfl, fun hx => by simp [WireKind.accepts] at hx⟩

/-- Items that are the same are all strings or not, and if they are they are equal. -/
theorem strings_same {xs ys : List Json} (h : List.Forall₂ Same xs ys) :
    xs.all WireKind.str.accepts = ys.all WireKind.str.accepts ∧
      (xs.all WireKind.str.accepts → xs = ys) := by
  induction h with
  | nil => exact ⟨rfl, fun _ => rfl⟩
  | cons hxy _ ih =>
    obtain ⟨hacc, heq⟩ := accepts_str_same hxy
    refine ⟨by rw [List.all_cons, List.all_cons, hacc, ih.1], ?_⟩
    intro hall
    rw [List.all_cons, Bool.and_eq_true] at hall
    rw [heq hall.1, ih.2 hall.2]

theorem canonicalErrorCodes_same {v w : Json} (h : Same v w) (hv : DeclaredKeys [] v)
    (hw : DeclaredKeys [] w) : canonicalErrorCodes v = canonicalErrorCodes w := by
  cases h with
  | refl => rfl
  | @arr xs ys hitems =>
    obtain ⟨hall, heq⟩ := strings_same hitems
    simp only [canonicalErrorCodes, orEmpty_arr]
    by_cases hxs : xs.all WireKind.str.accepts
    · rw [heq hxs]
    · rw [if_neg hxs, if_neg (hall ▸ hxs)]
  | obj => rw [hv.eq_nil, hw.eq_nil]

/-! ### Bodies and envelopes -/

theorem canonicalMessage_same {m m' : Dict String Json} (h : ∀ k, Same (read m k) (read m' k))
    (hm : DeclaredMessage (.obj m)) (hm' : DeclaredMessage (.obj m')) :
    canonicalMessage m = canonicalMessage m' := by
  have hscalars := expand_without_same messageKey nestedMessageFields h
    hm.keys.keys_of_obj hm'.keys.keys_of_obj (by decide)
  have hprofile := expandNested_same "message.contact_profile" (h "contact_profile")
    (hm.profile m rfl) (hm'.profile m' rfl)
  have hattachments := canonicalAttachments_same (h "attachments") (hm.attachments m rfl).1
    (hm'.attachments m' rfl).1 (hm.attachments m rfl).2 (hm'.attachments m' rfl).2
  have honly : ∀ d : Dict String Json, ∀ k ∈ nestedMessageFields,
      read (d.only nestedMessageFields) k = read d k := fun _ _ hk => read_only hk
  simp only [canonicalMessage, Dict.without_keys_only, honly _ "contact_profile" (by decide),
    honly _ "attachments" (by decide), hscalars, hprofile, hattachments]

theorem canonicalReceipt_same {m m' : Dict String Json} (h : ∀ k, Same (read m k) (read m' k))
    (hm : DeclaredReceipt (.obj m)) (hm' : DeclaredReceipt (.obj m')) :
    canonicalReceipt m = canonicalReceipt m' := by
  have hscalars := expand_without_same receiptKey ["error_codes"] h
    hm.keys.keys_of_obj hm'.keys.keys_of_obj (by decide)
  have hcodes := canonicalErrorCodes_same (h "error_codes") (hm.codes m rfl) (hm'.codes m' rfl)
  unfold canonicalReceipt
  rw [hscalars, hcodes]

theorem eq_null_iff_of_same {v w : Json} (h : Same v w) : v = .null ↔ w = .null := by
  cases h <;> simp

theorem mapping_bind_same {v w : Json} {slot : String} (h : Same v w)
    (hslot : ∀ m m', v = .obj m → w = .obj m' → canonicalSlot slot m = canonicalSlot slot m') :
    (mapping v slot >>= canonicalSlot slot) = (mapping w slot >>= canonicalSlot slot) := by
  cases h with
  | refl => rfl
  | arr => rfl
  | obj => exact hslot _ _ rfl rfl

theorem same_of_obj {m m' : Dict String Json} (h : Same (.obj m) (.obj m')) :
    ∀ k, Same (read m k) (read m' k) := by
  cases h with
  | refl => exact fun _ => .refl _
  | obj hmm => exact hmm

/-- **The same observations have the same canonical body.** -/
theorem canonicalBody_same {o o' : Dict String Json} (h : Same (.obj o) (.obj o'))
    (ho : DeclaredObservation o) (ho' : DeclaredObservation o') :
    canonicalBody o = canonicalBody o' := by
  have hread := same_of_obj h
  -- Whether a slot is null is the same for both.
  have hslot : slotOf o = slotOf o' := by
    unfold slotOf
    simp only [ne_eq, eq_null_iff_of_same (hread messageKey),
      eq_null_iff_of_same (hread receiptKey)]
  unfold canonicalBody
  rw [← hslot]
  rcases hs : slotOf o with e | slot
  · rfl
  · have hbody : (mapping (read o slot) slot >>= canonicalSlot slot) =
        (mapping (read o' slot) slot >>= canonicalSlot slot) := by
      apply mapping_bind_same (hread slot)
      intro m m' hm hm'
      have hmm : ∀ k, Same (read m k) (read m' k) := same_of_obj (hm ▸ hm' ▸ hread slot)
      rcases slotOf_eq_ok.mp hs with ⟨rfl, -⟩ | ⟨rfl, -⟩
      · exact canonicalMessage_same hmm (hm ▸ ho.message) (hm' ▸ ho'.message)
      · exact canonicalReceipt_same hmm (hm ▸ ho.receipt) (hm' ▸ ho'.receipt)
    simp only [Except.ok_bind, ← bind_assoc, hbody]

theorem providerContext_same {o o' : Dict String Json} (h : Same (.obj o) (.obj o'))
    (ho : ∀ k ∈ o.keys, k ∈ observationKeys) (ho' : ∀ k ∈ o'.keys, k ∈ observationKeys) :
    providerContext o = providerContext o' :=
  expand_without_same "observation" _ (same_of_obj h) ho ho' (by decide)

/-- Whether a copy of the identity agrees is the same for observations that are the same. -/
theorem durableIdentity_same {request request' : ProductRequest}
    (hp : request.providerEventId = request'.providerEventId)
    (h : Same (.obj request.observation) (.obj request'.observation)) :
    durableIdentity request = durableIdentity request' := by
  have hcopy := same_of_obj h "provider_event_id"
  unfold durableIdentity
  generalize read request.observation "provider_event_id" = v at hcopy ⊢
  generalize read request'.observation "provider_event_id" = w at hcopy ⊢
  cases hcopy <;> simp [hp]

/-- **The same observations yield the same envelope.** -/
theorem buildEnvelope_same {rt : Runtime} {ε : Type} {request request' : ProductRequest}
    (hd : request.destination = request'.destination)
    (hv : request.contractVersion = request'.contractVersion)
    (hp : request.providerEventId = request'.providerEventId)
    (h : Same (.obj request.observation) (.obj request'.observation))
    (ho : DeclaredObservation request.observation)
    (ho' : DeclaredObservation request'.observation) :
    (buildEnvelope rt request : Except (BuildError ε) _) = buildEnvelope rt request' :=
  buildEnvelope_congr hd hv (durableIdentity_same hp h) (canonicalBody_same h ho ho')
    (providerContext_same h ho.keys ho'.keys)

/-! ### Accepted observations declare every key -/

theorem declaredKeys_of_expandNested {fields : List WireField} {place : String} {v w : Json}
    (h : expandNested v fields place = .ok w) : DeclaredKeys (names fields) v := by
  rintro m rfl
  rcases expandNested_eq_ok.mp h with ⟨hnull, -⟩ | ⟨members, level, hm, hl, -⟩
  · simp at hnull
  · obtain rfl := Json.obj.inj hm
    exact (expand_eq_ok.mp hl).2.1

theorem declaredKeys_of_expand_without {fields : List WireField} {place : String}
    {nested : List String} {m level : Dict String Json}
    (h : expand (m.without nested) fields place = .ok level) :
    DeclaredKeys (names fields ++ nested) (.obj m) := by
  rintro _ ⟨rfl⟩ k hk
  by_cases hn : k ∈ nested
  · exact List.mem_append_right _ hn
  · exact List.mem_append_left _
      ((expand_eq_ok.mp h).2.1 k (Dict.mem_keys_without.mpr ⟨hk, hn⟩))

/-- A value whose items are accepted is no object, unless it is an empty one. -/
theorem declaredKeys_of_orEmpty {v : Json} {xs : List Json} (h : orEmpty v = .arr xs) :
    DeclaredKeys [] v := by
  rintro m rfl
  cases m with
  | nil => simp [Dict.keys]
  | cons p m => simp [orEmpty, Json.truthy] at h

theorem declaredAttachment_of_ok {v w : Json} (h : canonicalAttachment v = .ok w) :
    DeclaredAttachment v := by
  obtain ⟨m, level, location, rfl, hl, hloc, -⟩ := canonicalAttachment_eq_ok.mp h
  refine ⟨declaredKeys_of_expand_without hl, ?_⟩
  rintro _ ⟨rfl⟩
  exact declaredKeys_of_expandNested hloc

theorem declaredMessage_of_ok {m body : Dict String Json} (h : canonicalMessage m = .ok body) :
    DeclaredMessage (.obj m) := by
  obtain ⟨level, profile, ys, hl, hp, ha, -⟩ := canonicalMessage_eq_ok.mp h
  rw [Dict.without_keys_only] at hl
  rw [read_only (by decide)] at hp ha
  obtain ⟨xs, hor, hxs⟩ := canonicalAttachments_eq_ok.mp ha
  refine ⟨declaredKeys_of_expand_without hl, ?_, ?_⟩
  · rintro _ ⟨rfl⟩
    exact declaredKeys_of_expandNested hp
  · rintro _ ⟨rfl⟩
    refine ⟨declaredKeys_of_orEmpty hor, ?_⟩
    intro zs hzs x hx
    -- The attachments that are read are those that were accepted.
    rw [hzs, orEmpty_arr] at hor
    obtain rfl := Json.arr.inj hor
    obtain ⟨y, hy⟩ := Except.ok_of_mapM_eq_ok hxs x hx
    exact declaredAttachment_of_ok hy

theorem declaredReceipt_of_ok {m body : Dict String Json} (h : canonicalReceipt m = .ok body) :
    DeclaredReceipt (.obj m) := by
  obtain ⟨level, codes, hl, hc, -⟩ := canonicalReceipt_eq_ok.mp h
  refine ⟨declaredKeys_of_expand_without hl, ?_⟩
  rintro _ ⟨rfl⟩
  exact declaredKeys_of_orEmpty (canonicalErrorCodes_eq_ok.mp hc).1

theorem DeclaredMessage.null : DeclaredMessage .null :=
  ⟨by rintro m ⟨⟩, by rintro m ⟨⟩, by rintro m ⟨⟩⟩

theorem DeclaredReceipt.null : DeclaredReceipt .null := ⟨by rintro m ⟨⟩, by rintro m ⟨⟩⟩

/-- **An accepted observation declares every key**, level by level. -/
theorem declaredObservation_of_buildEnvelope {rt : Runtime} {ε : Type} {request : ProductRequest}
    {envelope : Dict String Json}
    (h : (buildEnvelope rt request : Except (BuildError ε) _) = .ok envelope) :
    DeclaredObservation request.observation := by
  obtain ⟨slot, body, identity, scope, instant, fingerprint, -, hbody, hctx, -⟩ :=
    buildEnvelope_eq_ok.mp h
  have hkeys := declaredKeys_of_expand_without hctx
  -- The slot that is used was accepted, and the other one is null.
  rcases canonicalBody_eq_ok_cases.mp hbody with
    ⟨source, rfl, hnull, hsource, hsb⟩ | ⟨source, rfl, hnull, hsource, hsb⟩
  · exact ⟨hkeys.keys_of_obj, hsource ▸ declaredMessage_of_ok hsb, hnull ▸ DeclaredReceipt.null⟩
  · exact ⟨hkeys.keys_of_obj, hnull ▸ DeclaredMessage.null, hsource ▸ declaredReceipt_of_ok hsb⟩

end DotmacIntegrator.ProductPort
