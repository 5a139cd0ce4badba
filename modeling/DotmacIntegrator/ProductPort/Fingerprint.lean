import DotmacIntegrator.ProductPort.Sameness

/-!
# The fingerprint on both sides of the wire

The envelope is posted as compact JSON in insertion order, and its fingerprint is taken over the
compact JSON of the body with sorted keys. The destination parses the bytes and recomputes the
fingerprint over the body it finds in the slot.

## Main definitions

* `postedBytes`, `loadsBytes`: what is sent, and how it is read
* `Tame`: distinct keys at every level, and floats that meet a condition

## Main results

* `envelope_tame`: an accepted envelope has distinct keys at every level, and no float the
  observation does not have
* `fingerprint_agrees`: the destination reads the envelope, and recomputes its fingerprint
-/

namespace DotmacIntegrator.ProductPort

/-- The body of the post; none where an integer is too long to be written. -/
def postedBytes (rt : Runtime) (envelope : Dict String Json) : Option ByteArray :=
  (Json.dumps rt.floats (.obj envelope)).map String.toUTF8

/-- `json.loads` of UTF-8 bytes. -/
def loadsBytes (rt : Runtime) (data : ByteArray) : Option Json :=
  (String.fromUTF8? data).bind (Json.loads rt.floats)

theorem fromUTF8?_toUTF8 (text : String) : String.fromUTF8? text.toUTF8 = some text := by
  simp only [String.fromUTF8?, String.toUTF8_eq_toByteArray, text.isValidUTF8, dif_pos]
  rfl

/-! ### Tame values -/

/-- Distinct keys at every level, and only floats that meet `P`. -/
structure Tame (P : PyFloat → Prop) (v : Json) : Prop where
  keys : v.DistinctKeys
  floats : v.AllFloats P

variable {P : PyFloat → Prop}

theorem Tame.null : Tame P .null := ⟨trivial, by simp [Json.AllFloats, Json.floats]⟩

theorem Tame.str (s : String) : Tame P (.str s) :=
  ⟨trivial, by simp [Json.AllFloats, Json.floats]⟩

theorem Tame.int (n : ℤ) : Tame P (.int n) := ⟨trivial, by simp [Json.AllFloats, Json.floats]⟩

theorem Tame.obj {ms : Dict String Json} (hk : ms.keys.Nodup) (h : ∀ p ∈ ms, Tame P p.2) :
    Tame P (.obj ms) :=
  ⟨⟨hk, Json.distinctKeysMembers_iff.mpr fun p hp => (h p hp).keys⟩,
    .obj fun p hp => (h p hp).floats⟩

theorem Tame.arr {xs : List Json} (h : ∀ v ∈ xs, Tame P v) : Tame P (.arr xs) :=
  ⟨Json.distinctKeysItems_iff.mpr fun v hv => (h v hv).keys, .arr fun v hv => (h v hv).floats⟩

/-- A leaf of a declared kind is tame. -/
theorem Tame.of_accepts {kind : WireKind} {v : Json} (h : kind.accepts v)
    (hf : v.AllFloats P) : Tame P v := by
  refine ⟨?_, hf⟩
  cases kind <;> cases v <;> trivial

theorem tame_of_expand {fields : List WireField} {place : String} {source level : Dict String Json}
    (h : expand source fields place = .ok level) (hf : (Json.obj source).AllFloats P) :
    ∀ p ∈ level, Tame P p.2 := by
  obtain ⟨rfl, -, hok⟩ := expand_eq_ok.mp h
  intro p hp
  obtain ⟨f, hmem, rfl⟩ := List.mem_map.mp hp
  rcases accepts_of_checked (hok f hmem) with ⟨hnull, -⟩ | hacc
  · exact hnull ▸ Tame.null
  · exact .of_accepts hacc (allFloats_read hf f.name)

theorem keys_of_expand {fields : List WireField} {place : String} {source level : Dict String Json}
    (h : expand source fields place = .ok level) : level.keys = names fields := by
  rw [(expand_eq_ok.mp h).1, keys_completed]

theorem allFloats_filter {source : Dict String Json} (hf : (Json.obj source).AllFloats P)
    (p : String × Json → Bool) : (Json.obj (source.filter p)).AllFloats P :=
  .obj fun _ he => hf.member (List.mem_filter.mp he).1

theorem tame_of_expandNested {value w : Json} {fields : List WireField} {place : String}
    (h : expandNested value fields place = .ok w) (hnd : (names fields).Nodup)
    (hf : value.AllFloats P) : Tame P w := by
  rcases expandNested_eq_ok.mp h with ⟨-, rfl⟩ | ⟨members, level, rfl, hl, rfl⟩
  · exact .null
  · exact .obj (by rwa [keys_of_expand hl]) (tame_of_expand hl hf)

/-- A level with further members behind it. -/
theorem tame_of_expand_append {fields : List WireField} {place : String} (nested : List String)
    {source level members : Dict String Json} (h : expand source fields place = .ok level)
    (hf : (Json.obj source).AllFloats P) (hk : members.keys = nested)
    (hnd : (names fields ++ nested).Nodup) (hm : ∀ p ∈ members, Tame P p.2) :
    Tame P (.obj (level ++ members)) := by
  apply Tame.obj
  · rwa [Dict.keys_append, keys_of_expand h, hk]
  · intro p hp
    exact (List.mem_append.mp hp).elim (tame_of_expand h hf p) (hm p)

theorem allFloats_orEmpty {value : Json} (hf : value.AllFloats P) :
    (orEmpty value).AllFloats P := by
  unfold orEmpty
  split_ifs
  · exact hf
  · simp [Json.AllFloats, Json.floats, Json.floatsItems]

theorem tame_of_canonicalAttachment {item w : Json} (h : canonicalAttachment item = .ok w)
    (hf : item.AllFloats P) : Tame P w := by
  obtain ⟨source, level, location, rfl, hl, hloc, rfl⟩ := canonicalAttachment_eq_ok.mp h
  rw [set_of_expand hl (by decide)]
  refine tame_of_expand_append ["location"] hl (allFloats_filter hf _) rfl (by decide) ?_
  simpa using tame_of_expandNested hloc (by decide) (allFloats_read hf _)

theorem tame_of_canonicalAttachments {value : Json} {ys : List Json}
    (h : canonicalAttachments value = .ok ys) (hf : value.AllFloats P) : Tame P (.arr ys) := by
  obtain ⟨xs, hor, hxs⟩ := canonicalAttachments_eq_ok.mp h
  have hall : (Json.arr xs).AllFloats P := hor ▸ allFloats_orEmpty hf
  apply Tame.arr
  intro y hy
  obtain ⟨x, hx, hxy⟩ := Except.exists_of_mapM_eq_ok hxs y hy
  exact tame_of_canonicalAttachment hxy (hall.item hx)

theorem tame_of_canonicalErrorCodes {value : Json} {ys : List Json}
    (h : canonicalErrorCodes value = .ok ys) (hf : value.AllFloats P) : Tame P (.arr ys) := by
  obtain ⟨hor, hall⟩ := canonicalErrorCodes_eq_ok.mp h
  have hys : (Json.arr ys).AllFloats P := hor ▸ allFloats_orEmpty hf
  exact .arr fun y hy => .of_accepts (List.all_eq_true.mp hall y hy) (hys.item hy)

theorem tame_of_canonicalMessage {source body : Dict String Json}
    (h : canonicalMessage source = .ok body) (hf : (Json.obj source).AllFloats P) :
    Tame P (.obj body) := by
  obtain ⟨level, profile, ys, hl, hp, ha, rfl, -⟩ := canonicalMessage_eq_ok.mp h
  have hnested := allFloats_filter hf fun e => decide (e.1 ∈ nestedMessageFields)
  rw [set_set_of_expand hl (by decide) (by decide)]
  refine tame_of_expand_append nestedMessageFields hl (allFloats_filter hf _) rfl (by decide) ?_
  simp only [List.mem_cons, List.not_mem_nil, or_false, forall_eq_or_imp, forall_eq]
  exact ⟨tame_of_expandNested hp (by decide) (allFloats_read hnested _),
    tame_of_canonicalAttachments ha (allFloats_read hnested _)⟩

theorem tame_of_canonicalReceipt {source body : Dict String Json}
    (h : canonicalReceipt source = .ok body) (hf : (Json.obj source).AllFloats P) :
    Tame P (.obj body) := by
  obtain ⟨level, codes, hl, hc, rfl⟩ := canonicalReceipt_eq_ok.mp h
  rw [set_of_expand hl (by decide)]
  refine tame_of_expand_append ["error_codes"] hl (allFloats_filter hf _) rfl (by decide) ?_
  simpa using tame_of_canonicalErrorCodes hc (allFloats_read hf _)

theorem tame_of_canonicalBody {observation body : Dict String Json} {slot : String}
    (h : canonicalBody observation = .ok (slot, body))
    (hf : (Json.obj observation).AllFloats P) : Tame P (.obj body) := by
  obtain ⟨-, source, hsource, hbody⟩ := canonicalBody_eq_ok.mp h
  have hs : (Json.obj source).AllFloats P := hsource ▸ allFloats_read hf slot
  unfold canonicalSlot at hbody
  split_ifs at hbody
  · exact tame_of_canonicalMessage hbody hs
  · exact tame_of_canonicalReceipt hbody hs

/-! ### The envelope -/

variable {rt : Runtime} {ε : Type}

/-- The provider context of an accepted request is strings. -/
theorem exists_str_of_providerContext {observation identity : Dict String Json}
    (h : providerContext observation = .ok identity) :
    ∀ f ∈ ENVELOPE_FIELDS, ∃ s, read identity f.name = .str s := by
  obtain ⟨rfl, -, hok⟩ := expand_eq_ok.mp h
  intro f hf
  -- Each field of the context is a required string.
  have hkind : ∀ f ∈ ENVELOPE_FIELDS, f.kind = .str ∧ f.required = true := by decide
  have hread : read (completed (observation.without
      (observationSlots ++ localOnlyObservationFields)) ENVELOPE_FIELDS) f.name =
        read (observation.without (observationSlots ++ localOnlyObservationFields)) f.name := by
    conv_lhs => rw [read, get?_completed hf, Option.getD_some]
  rw [hread]
  rcases accepts_of_checked (hok f hf) with ⟨-, hreq⟩ | hacc
  · exact absurd (hkind f hf).2 hreq
  · rw [(hkind f hf).1] at hacc
    generalize read _ f.name = v at hacc
    cases v <;> simp_all [WireKind.accepts]

theorem slot_mem_of_canonicalBody {observation body : Dict String Json} {slot : String}
    (h : canonicalBody observation = .ok (slot, body)) : slot ∈ observationSlots := by
  rcases slotOf_eq_ok.mp (canonicalBody_eq_ok.mp h).1 with ⟨rfl, -⟩ | ⟨rfl, -⟩ <;> decide

/-- **An accepted envelope is tame**: its keys are distinct at every level, and its floats are
among those of the observation. -/
theorem envelope_tame {request : ProductRequest} {envelope : Dict String Json}
    (h : (buildEnvelope rt request : Except (BuildError ε) _) = .ok envelope)
    (hf : (Json.obj request.observation).AllFloats P) : Tame P (.obj envelope) := by
  obtain ⟨slot, body, identity, scope, instant, fingerprint, -, hbody, hctx, -, -, -, rfl⟩ :=
    buildEnvelope_eq_ok.mp h
  -- The members are strings, but for the version, the scope and the body.
  have hstr : ∀ f ∈ ENVELOPE_FIELDS, Tame P (read identity f.name) := by
    intro f hmem
    obtain ⟨s, hs⟩ := exists_str_of_providerContext hctx f hmem
    exact hs ▸ .str s
  refine .obj ?_ ?_
  · have hnd : ∀ slot ∈ observationSlots, (["capability_id", "contract_version", "provider",
        "provider_account_scope", "provider_event_id", "channel", "observed_at",
        "payload_fingerprint", "scope", slot] : List String).Nodup := by decide
    exact hnd slot (slot_mem_of_canonicalBody hbody)
  · have hscope : Tame P (.obj [("kind", .str scope.kind), ("ref", .str scope.ref)]) :=
      .obj (by simp [Dict.keys]) (by simp [Tame.str])
    simp only [envelopeMembers, List.mem_cons, List.not_mem_nil, or_false, forall_eq_or_imp,
      forall_eq]
    exact ⟨.str _, .int _, hstr ENVELOPE_FIELDS[0] (by decide), hstr ENVELOPE_FIELDS[1] (by decide),
      .str _, hstr ENVELOPE_FIELDS[2] (by decide), .str _, .str _, hscope,
      tame_of_canonicalBody hbody hf⟩

/-- An accepted envelope can be written as soon as its contract version can. -/
theorem printable_envelope {request : ProductRequest} {envelope : Dict String Json}
    (h : (buildEnvelope rt request : Except (BuildError ε) _) = .ok envelope)
    (hv : (Json.int request.contractVersion).Printable) : (Json.obj envelope).Printable := by
  obtain ⟨slot, body, identity, scope, instant, fingerprint, -, -, hctx, -, -, hfp, rfl⟩ :=
    buildEnvelope_eq_ok.mp h
  -- The body was written once already, for its fingerprint.
  have hbody : (Json.obj body).Printable := by
    obtain ⟨text, htext, -⟩ := Option.map_eq_some_iff.mp hfp
    exact ((Json.dumpsSorted_eq_some rt.floats).mp htext).1
  have hstr : ∀ f ∈ ENVELOPE_FIELDS, (read identity f.name).Printable := by
    intro f hmem
    obtain ⟨s, hs⟩ := exists_str_of_providerContext hctx f hmem
    exact hs ▸ .str s
  have hscope : (Json.obj [("kind", .str scope.kind), ("ref", .str scope.ref)]).Printable :=
    .obj (by simp [Json.Printable.str])
  refine .obj ?_
  simp only [envelopeMembers, List.mem_cons, List.not_mem_nil, or_false, forall_eq_or_imp,
    forall_eq]
  exact ⟨.str _, hv, hstr ENVELOPE_FIELDS[0] (by decide), hstr ENVELOPE_FIELDS[1] (by decide),
    .str _, hstr ENVELOPE_FIELDS[2] (by decide), .str _, .str _, hscope, hbody⟩

/-! ### Both sides of the wire -/

/-- What is posted is read back as the envelope. -/
theorem loadsBytes_postedBytes {request : ProductRequest} {envelope : Dict String Json}
    {data : ByteArray} (h : (buildEnvelope rt request : Except (BuildError ε) _) = .ok envelope)
    (hf : (Json.obj request.observation).AllFloats fun x => x.IsFinite ∧ rt.floats.RoundTrips x)
    (hdata : postedBytes rt envelope = some data) :
    loadsBytes rt data = some (.obj envelope) := by
  obtain ⟨text, htext, rfl⟩ := Option.map_eq_some_iff.mp hdata
  obtain ⟨hprint, rfl⟩ := (Json.dumps_eq_some rt.floats).mp htext
  -- Distinct keys and floats that round trip are what reading back needs.
  have htame := envelope_tame h hf
  rw [loadsBytes, fromUTF8?_toUTF8, Option.bind_some]
  exact Json.loads_encode ⟨hprint, fun x hx _ => (htame.floats x hx).2, htame.keys⟩

/-- The fingerprint of a body is the digest of its compact text with sorted keys. -/
theorem canonicalFingerprint_eq_some {body : Dict String Json} {fingerprint : String}
    (h : canonicalFingerprint rt body = some fingerprint) :
    fingerprint =
      rt.sha256 (String.ofList (Json.encode rt.floats (Json.obj body).sortKeys)).toUTF8 := by
  obtain ⟨text, htext, rfl⟩ := Option.map_eq_some_iff.mp h
  obtain ⟨-, rfl⟩ := (Json.dumpsSorted_eq_some rt.floats).mp htext
  rfl

/-- **The fingerprint is the same on both sides of the wire.** The bytes that are posted for an
accepted request are read back as its envelope, whose fingerprint is the SHA-256 of the UTF-8 of the
compact text, with sorted keys, of the body that is read in its slot. Observations that are the same
yield the same envelope, and so the same fingerprint. -/
theorem fingerprint_agrees {request : ProductRequest} {envelope : Dict String Json}
    (h : (buildEnvelope rt request : Except (BuildError ε) _) = .ok envelope)
    (hf : (Json.obj request.observation).AllFloats fun x => x.IsFinite ∧ rt.floats.RoundTrips x) :
    ((Json.int request.contractVersion).Printable → (postedBytes rt envelope).isSome) ∧
    (∀ data, postedBytes rt envelope = some data →
      ∃ received : Dict String Json, loadsBytes rt data = some (.obj received) ∧
        received = envelope ∧
        ∃ slot ∈ observationSlots, ∃ body, received.get? slot = some (.obj body) ∧
          envelope.get? "payload_fingerprint" = some (.str (rt.sha256
            (String.ofList (Json.encode rt.floats (Json.obj body).sortKeys)).toUTF8))) ∧
    (∀ observation', Same (.obj request.observation) (.obj observation') →
      DeclaredObservation observation' →
      (buildEnvelope rt { request with observation := observation' } :
        Except (BuildError ε) _) = .ok envelope) := by
  refine ⟨?_, ?_, ?_⟩
  · -- The envelope is posted.
    intro hv
    rw [postedBytes, Option.isSome_map, Json.dumps, if_pos (printable_envelope h hv),
      Option.isSome_some]
  · -- It is read back, with the body its fingerprint was computed over.
    intro data hdata
    refine ⟨envelope, loadsBytes_postedBytes h hf hdata, rfl, ?_⟩
    obtain ⟨slot, body, identity, scope, instant, fingerprint, -, hbody, -, -, -, hfp, rfl⟩ :=
      buildEnvelope_eq_ok.mp h
    refine ⟨slot, slot_mem_of_canonicalBody hbody, body, ?_, ?_⟩
    · rcases slotOf_eq_ok.mp (canonicalBody_eq_ok.mp hbody).1 with ⟨rfl, -⟩ | ⟨rfl, -⟩ <;> rfl
    · rw [← canonicalFingerprint_eq_some hfp]
      rfl
  · -- The same observation yields it again.
    intro observation' hsame hdecl
    rw [← h]
    exact (@buildEnvelope_same rt ε request { request with observation := observation' } rfl rfl
      rfl hsame (declaredObservation_of_buildEnvelope h) hdecl).symm

theorem allFloats_locatedRequest : (Json.obj locatedRequest.observation).AllFloats fun x =>
    x.IsFinite ∧ locatedRuntime.floats.RoundTrips x := by
  intro x hx
  have hfloats : (Json.obj locatedRequest.observation).floats =
      [.finite 6.5, .finite 3.25] := rfl
  rw [hfloats] at hx
  simp only [List.mem_cons, List.not_mem_nil, or_false] at hx
  rcases hx with rfl | rfl
  · exact ⟨by decide, ⟨['6'], ['.', '5'], [], by decide +kernel,
      ⟨[], ['6'], rfl, Or.inl rfl, by decide, Or.inr (by decide)⟩,
      Or.inr ⟨['5'], rfl, by decide⟩, Or.inl rfl, Or.inl (by decide)⟩,
      by decide +kernel⟩
  · exact ⟨by decide, ⟨['3'], ['.', '2', '5'], [], by decide +kernel,
      ⟨[], ['3'], rfl, Or.inl rfl, by decide, Or.inr (by decide)⟩,
      Or.inr ⟨['2', '5'], rfl, by decide⟩, Or.inl rfl, Or.inl (by decide)⟩,
      by decide +kernel⟩

theorem fingerprint_agrees_locatedRequest :
    ∃ envelope data slot body, (buildEnvelope locatedRuntime locatedRequest :
        Except (BuildError Unit) _) = .ok envelope ∧
      postedBytes locatedRuntime envelope = some data ∧
      loadsBytes locatedRuntime data = some (.obj envelope) ∧
      envelope.get? slot = some (.obj body) ∧
      envelope.get? "payload_fingerprint" = some (.str (locatedRuntime.sha256
        (String.ofList (Json.encode locatedRuntime.floats (Json.obj body).sortKeys)).toUTF8)) := by
  have hok : (buildEnvelope locatedRuntime locatedRequest : Except (BuildError Unit) _).isOk := by
    decide +kernel
  obtain ⟨envelope, h⟩ := Except.isOk_iff.mp hok
  obtain ⟨hsent, hread, -⟩ := fingerprint_agrees h allFloats_locatedRequest
  obtain ⟨data, hdata⟩ := Option.isSome_iff_exists.mp (hsent (by decide +kernel))
  obtain ⟨_, hreceived, rfl, slot, -, body, hslot, hfingerprint⟩ := hread data hdata
  exact ⟨_, data, slot, body, h, hdata, hreceived, hslot, hfingerprint⟩

end DotmacIntegrator.ProductPort
