import DotmacIntegrator.Foundation.JsonUnambiguous
import DotmacIntegrator.ProductPort.ContractRegistry
import DotmacIntegrator.ProductPort.Fingerprint

/-!
# What a digest determines

The fingerprint of a body and the digest of a document are taken over the compact text of a value
with sorted keys. That text determines the value up to the order of keys, so that two values with
one digest are equal in this sense, unless their texts are two and collide.

## Main definitions

* `canonicalBytes`: what a digest is taken over
* `Collide`: two values whose texts are a collision

## Main results

* `eqUpToOrder_or_collide`: what one digest of two values means
* `canonical_encoding_injective`: for texts, fingerprints and digests of documents
* `bodies_of_payload_fingerprint`: envelopes with one fingerprint
-/

namespace DotmacIntegrator.ProductPort

open Json (EqUpToOrder NumberTexts)

/-- `json.dumps(v, sort_keys=True, separators=(",", ":")).encode()`; none where an integer is too
long to be written. -/
def canonicalBytes (rt : Runtime) (v : Json) : Option ByteArray :=
  (Json.dumpsSorted rt.floats v).map String.toUTF8

/-- The texts of the two values differ, and have one digest. -/
def Collide (rt : Runtime) (v w : Json) : Prop :=
  ∃ data data', canonicalBytes rt v = some data ∧ canonicalBytes rt w = some data' ∧
    data ≠ data' ∧ rt.sha256 data = rt.sha256 data'

variable {rt : Runtime} {D : PyFloat → Prop} {ε : Type}

theorem canonicalFingerprint_eq (body : Dict String Json) :
    canonicalFingerprint rt body = (canonicalBytes rt (.obj body)).map rt.sha256 := by
  rw [canonicalFingerprint, canonicalBytes, Option.map_map]
  rfl

/-- Values with the same bytes are equal up to the order of keys. -/
theorem eqUpToOrder_of_canonicalBytes_eq (hF : NumberTexts rt.floats D) {v w : Json}
    (hv : v.AllFloats D) (hw : w.AllFloats D) {data : ByteArray}
    (h : canonicalBytes rt v = some data) (h' : canonicalBytes rt w = some data) :
    EqUpToOrder v w := by
  obtain ⟨text, htext, rfl⟩ := Option.map_eq_some_iff.mp h
  obtain ⟨text', htext', heq⟩ := Option.map_eq_some_iff.mp h'
  -- UTF-8 is injective.
  obtain rfl : text' = text := by
    have hread := congrArg String.fromUTF8? heq
    rw [fromUTF8?_toUTF8, fromUTF8?_toUTF8] at hread
    exact Option.some.inj hread
  obtain ⟨-, hv'⟩ := (Json.dumpsSorted_eq_some rt.floats).mp htext
  obtain ⟨-, hw'⟩ := (Json.dumpsSorted_eq_some rt.floats).mp htext'
  exact Json.eqUpToOrder_of_encode_sortKeys_eq hF hv hw
    (String.ofList_injective (hv'.symm.trans hw'))

/-- **Two values with one digest** are equal up to the order of keys, unless their texts collide. -/
theorem eqUpToOrder_or_collide (hF : NumberTexts rt.floats D) {v w : Json} (hv : v.AllFloats D)
    (hw : w.AllFloats D) {digest : String} (h : (canonicalBytes rt v).map rt.sha256 = some digest)
    (h' : (canonicalBytes rt w).map rt.sha256 = some digest) :
    EqUpToOrder v w ∨ Collide rt v w := by
  obtain ⟨data, hdata, hdigest⟩ := Option.map_eq_some_iff.mp h
  obtain ⟨data', hdata', hdigest'⟩ := Option.map_eq_some_iff.mp h'
  by_cases heq : data = data'
  · subst heq
    exact Or.inl (eqUpToOrder_of_canonicalBytes_eq hF hv hw hdata hdata')
  · exact Or.inr ⟨data, data', hdata, hdata', heq, hdigest.trans hdigest'.symm⟩

/-- **The canonical encoding is injective**, up to the order of keys. So the fingerprint of a body
determines it, and the digest of a document its published facts, up to collisions. -/
theorem canonical_encoding_injective (hF : NumberTexts rt.floats D) :
    (∀ v w : Json, v.AllFloats D → w.AllFloats D →
      Json.encode rt.floats v.sortKeys = Json.encode rt.floats w.sortKeys → EqUpToOrder v w) ∧
    (∀ body body' : Dict String Json, (Json.obj body).AllFloats D → (Json.obj body').AllFloats D →
      ∀ fingerprint, canonicalFingerprint rt body = some fingerprint →
        canonicalFingerprint rt body' = some fingerprint →
        EqUpToOrder (.obj body) (.obj body') ∨ Collide rt (.obj body) (.obj body')) ∧
    ∀ document document' : Dict String Json, (Json.obj document).AllFloats D →
      (Json.obj document').AllFloats D →
      ∀ digest, descriptorDigest rt document = some digest →
        descriptorDigest rt document' = some digest →
        let facts := Json.obj (document.without ["descriptor_digest"])
        let facts' := Json.obj (document'.without ["descriptor_digest"])
        EqUpToOrder facts facts' ∨ Collide rt facts facts' := by
  refine ⟨fun v w hv hw h => Json.eqUpToOrder_of_encode_sortKeys_eq hF hv hw h, ?_, ?_⟩
  · intro body body' hb hb' fingerprint h h'
    rw [canonicalFingerprint_eq] at h h'
    exact eqUpToOrder_or_collide hF hb hb' h h'
  · intro document document' hd hd' digest h h'
    rw [descriptorDigest, canonicalFingerprint_eq] at h h'
    exact eqUpToOrder_or_collide hF (allFloats_filter hd _) (allFloats_filter hd' _) h h'

theorem canonical_encoding_injective_location :
    EqUpToOrder (.obj [("longitude", .float (.finite 6.5)), ("latitude", .float (.finite 3.25))])
      (.obj [("latitude", .float (.finite 3.25)), ("longitude", .float (.finite 6.5))]) := by
  have hF : NumberTexts locatedRuntime.floats
      fun x => x ∈ (Json.obj locatedRequest.observation).floats :=
    .of_roundTrips fun x hx _ => (allFloats_locatedRequest x hx).2
  have hmem : ∀ x ∈ [PyFloat.finite 6.5, .finite 3.25],
      x ∈ (Json.obj locatedRequest.observation).floats := fun x hx => hx
  have hsorted : (Json.obj [("longitude", .float (.finite 6.5)),
      ("latitude", .float (.finite 3.25))]).sortKeys = (Json.obj [("latitude", .float (.finite 3.25)),
        ("longitude", .float (.finite 6.5))]).sortKeys := by
    rw [Json.sortKeys, Json.sortKeys]
    exact congrArg Json.obj (Json.mergeSort_congr (.swap _ _ []) (by decide))
  refine (canonical_encoding_injective hF).1 _ _ (fun x hx => hmem x hx) (fun x hx => ?_)
    (by rw [hsorted])
  exact hmem x (by simpa [Json.floats, Json.floatsMembers, or_comm] using hx)

/-- **Envelopes with one fingerprint** carry bodies that are equal up to the order of keys, unless
their texts collide. -/
theorem bodies_of_payload_fingerprint (hF : NumberTexts rt.floats D)
    {request request' : ProductRequest} {envelope envelope' : Dict String Json}
    (h : (buildEnvelope rt request : Except (BuildError ε) _) = .ok envelope)
    (h' : (buildEnvelope rt request' : Except (BuildError ε) _) = .ok envelope')
    (hf : (Json.obj request.observation).AllFloats D)
    (hf' : (Json.obj request'.observation).AllFloats D)
    (heq : envelope.get? "payload_fingerprint" = envelope'.get? "payload_fingerprint") :
    ∃ slot body slot' body', canonicalBody request.observation = .ok (slot, body) ∧
      canonicalBody request'.observation = .ok (slot', body') ∧
      (EqUpToOrder (.obj body) (.obj body') ∨ Collide rt (.obj body) (.obj body')) := by
  obtain ⟨slot, body, _, _, _, fingerprint, -, hbody, -, -, -, hfp, rfl⟩ :=
    buildEnvelope_eq_ok.mp h
  obtain ⟨slot', body', _, _, _, fingerprint', -, hbody', -, -, -, hfp', rfl⟩ :=
    buildEnvelope_eq_ok.mp h'
  obtain rfl : fingerprint = fingerprint' := Json.str.inj (Option.some.inj heq)
  rw [canonicalFingerprint_eq] at hfp hfp'
  exact ⟨slot, body, slot', body', hbody, hbody',
    eqUpToOrder_or_collide hF (tame_of_canonicalBody hbody hf).floats
      (tame_of_canonicalBody hbody' hf').floats hfp hfp'⟩

end DotmacIntegrator.ProductPort
