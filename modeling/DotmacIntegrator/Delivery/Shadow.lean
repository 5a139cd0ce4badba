import DotmacIntegrator.Foundation.RaisingLoop
import DotmacIntegrator.ProductPort.Client

/-!
# The shadow pass

One shadow pass compares every due receipt against the destination's shadow port and records one
observation of each. It claims and settles nothing. Of all that a comparison may raise, it catches
a transport failure and the module's delivery error.

## Main definitions

* `ShadowRequest`: what becomes of building the request of a receipt
* `mirrorDueReceipts`: one pass over a page, with its attempts and its records
* `ShadowPassComplete`: every receipt of a page is attempted, and observed if its row exists

## Main results

* `escaping_eq_none_iff`: a receipt lets the pass go on iff its request is comparable, and is not
  answered with a document that is nested too deeply
* `shadowPassComplete_iff`: a pass is complete iff so is every request built for its page
-/

namespace DotmacIntegrator.Delivery

open ProductPort Secrets

/-- What `_shadow_request` does with one id: no row, the request, or the module's delivery
error. -/
inductive ShadowRequest
  | absent
  | request (request : ProductRequest)
  | deliveryError

/-- The privacy-safe verdict the module retains. -/
structure SafeShadowVerdict where
  verdict : String
  blockingReasons : List String
  disagreeingFields : List String
  deriving DecidableEq, Repr

/-- The module's two verdicts: of a comparison, and of one that could not be read. -/
structure ShadowVerdicts where
  normalizeShadowVerdict : MirrorVerdict → SafeShadowVerdict
  unreadableShadowVerdict : SafeShadowVerdict

/-- A shadow pass in progress: the ids attempted, the observations recorded and the counts. -/
structure ShadowPass (ι : Type*) where
  attempts : List ι
  records : List (ι × SafeShadowVerdict)
  counted : Dict String ℕ

/-- A pass that has not attempted anything yet. -/
def ShadowPass.start (ι : Type*) : ShadowPass ι where
  attempts := []
  records := []
  counted := [("compared", 0), ("unreadable", 0)]

/-- Add one to a count. -/
def bump (counted : Dict String ℕ) (name : String) : Dict String ℕ :=
  counted.set name ((counted.get? name).getD 0 + 1)

/-- Record one observation. -/
def ShadowPass.record {ι : Type*} (pass : ShadowPass ι) (id : ι) (verdict : SafeShadowVerdict) :
    ShadowPass ι :=
  { pass with records := pass.records ++ [(id, verdict)] }

/-- What the `try` of one receipt comes to. -/
inductive Comparison
  | skipped
  | compared (verdict : SafeShadowVerdict)
  | unreadable
  | raised (e : MirrorError)

variable {ι : Type*} (verdicts : ShadowVerdicts)
  (compare : ProductRequest → Except MirrorError MirrorVerdict) (shadowRequest : ι → ShadowRequest)

/-- Build the request of a receipt and compare it; `compare` is the client's `mirror`. -/
def comparison : ShadowRequest → Comparison
  | .absent => .skipped
  | .deliveryError => .unreadable
  | .request request =>
    match compare request with
    | .ok verdict => .compared (verdicts.normalizeShadowVerdict verdict)
    | .error e => if e.expected then .unreadable else .raised e

/-- The body of the loop: one receipt. -/
def mirrorOne (pass : ShadowPass ι) (id : ι) : ShadowPass ι × Option MirrorError :=
  let pass := { pass with attempts := pass.attempts ++ [id] }
  match comparison verdicts compare (shadowRequest id) with
  | .skipped => (pass, none)
  | .compared verdict =>
    (({ pass with counted := bump (bump pass.counted "compared") verdict.verdict }).record id
      verdict, none)
  | .unreadable =>
    (({ pass with counted := bump pass.counted "unreadable" }).record id
      verdicts.unreadableShadowVerdict, none)
  | .raised e => (pass, some e)

/-- The loop of `mirror_due_receipts` over the `page` of due ids, with the client installed: the
pass, and the exception that ended it. -/
def mirrorDueReceipts (page : List ι) : ShadowPass ι × Option MirrorError :=
  RaisingLoop.run (mirrorOne verdicts compare shadowRequest) (ShadowPass.start ι) page

/-- The row of a receipt exists. -/
def ShadowRequest.hasRow : ShadowRequest → Bool
  | .absent => false
  | _ => true

/-- Every id is attempted, in page order; exactly one observation is recorded for each id whose
row exists, and none for the others; and the pass returns its counts. -/
def ShadowPassComplete (page : List ι) : Prop :=
  (mirrorDueReceipts verdicts compare shadowRequest page).1.attempts = page ∧
  (mirrorDueReceipts verdicts compare shadowRequest page).1.records.map Prod.fst =
    page.filter (fun id => (shadowRequest id).hasRow) ∧
  (mirrorDueReceipts verdicts compare shadowRequest page).2 = none

/-- The exception of a receipt that the pass does not catch. -/
def Comparison.escaping : Comparison → Option MirrorError
  | .raised e => some e
  | _ => none

/-- The comparison records an observation. -/
def Comparison.records : Comparison → Bool
  | .compared _ | .unreadable => true
  | _ => false

variable {verdicts compare shadowRequest}

theorem mirrorOne_snd (pass : ShadowPass ι) (id : ι) :
    (mirrorOne verdicts compare shadowRequest pass id).2 =
      (comparison verdicts compare (shadowRequest id)).escaping := by
  unfold mirrorOne
  cases comparison verdicts compare (shadowRequest id) <;> rfl

theorem mirrorOne_attempts (pass : ShadowPass ι) (id : ι) :
    (mirrorOne verdicts compare shadowRequest pass id).1.attempts = pass.attempts ++ [id] := by
  unfold mirrorOne
  cases comparison verdicts compare (shadowRequest id) <;> rfl

theorem mirrorOne_records (pass : ShadowPass ι) (id : ι) :
    (mirrorOne verdicts compare shadowRequest pass id).1.records.map Prod.fst =
      pass.records.map Prod.fst ++
        [id].filter (fun id => (comparison verdicts compare (shadowRequest id)).records) := by
  unfold mirrorOne
  cases hc : comparison verdicts compare (shadowRequest id) <;>
    simp [hc, Comparison.records, ShadowPass.record]

/-- A receipt that lets the pass go on is observed iff its row exists. -/
theorem records_eq_hasRow {r : ShadowRequest}
    (h : (comparison verdicts compare r).escaping = none) :
    (comparison verdicts compare r).records = r.hasRow := by
  cases r with
  | absent => rfl
  | deliveryError => rfl
  | request request =>
    cases hc : compare request with
    | ok verdict => simp [comparison, hc, Comparison.records, ShadowRequest.hasRow]
    | error e =>
      -- An error the loop expects is recorded as unreadable; any other one would escape.
      cases he : e.expected with
      | true => simp [comparison, hc, he, Comparison.records, ShadowRequest.hasRow]
      | false => simp [comparison, hc, he, Comparison.escaping] at h

theorem mirror_foldl_attempts (page : List ι) (pass : ShadowPass ι) :
    (page.foldl (fun p id => (mirrorOne verdicts compare shadowRequest p id).1) pass).attempts =
      pass.attempts ++ page := by
  induction page generalizing pass with
  | nil => simp
  | cons id page ih => rw [List.foldl_cons, ih, mirrorOne_attempts, List.append_assoc]; rfl

theorem mirror_foldl_records (page : List ι) (pass : ShadowPass ι) :
    (page.foldl (fun p id => (mirrorOne verdicts compare shadowRequest p id).1)
        pass).records.map Prod.fst =
      pass.records.map Prod.fst ++
        page.filter (fun id => (comparison verdicts compare (shadowRequest id)).records) := by
  induction page generalizing pass with
  | nil => simp
  | cons id page ih =>
    rw [List.foldl_cons, ih, mirrorOne_records, List.append_assoc, ← List.filter_append]
    rfl

/-- A pass is complete iff no receipt of its page raises what the pass does not catch. -/
theorem shadowPassComplete_iff_escaping (page : List ι) :
    ShadowPassComplete verdicts compare shadowRequest page ↔
      ∀ id ∈ page, (comparison verdicts compare (shadowRequest id)).escaping = none := by
  unfold ShadowPassComplete mirrorDueReceipts
  constructor
  · rintro ⟨-, -, hnone⟩
    exact (RaisingLoop.run_snd_eq_none_iff mirrorOne_snd _ _).mp hnone
  · intro hclean
    -- Nothing escapes, so that the pass is the fold of its body over the page.
    rw [RaisingLoop.run_of_clean _ _ _ fun pass id hid =>
      (mirrorOne_snd pass id).trans (hclean id hid)]
    refine ⟨?_, ?_, rfl⟩
    · simp [mirror_foldl_attempts, ShadowPass.start]
    · simp only [mirror_foldl_records, ShadowPass.start, List.map_nil, List.nil_append]
      exact List.filter_congr fun id hid => records_eq_hasRow (hclean id hid)

section Client

/-! ### The client's comparison -/

variable {rt : Runtime}
  {productObservationDocument : ProductRequest → Except ForeignError (Dict String Json)}
  {readAnswer : ByteArray → Except Json.LoadsError Json} {held : Held} {transport : Transport}
  {client : ObservationPortClient}

/-- A receipt lets the pass go on iff its request, where there is one, is comparable, and is not
answered with a document that is nested too deeply. -/
theorem escaping_eq_none_iff {r : ShadowRequest} :
    (comparison verdicts
        (mirror rt productObservationDocument readAnswer held transport client) r).escaping = none ↔
      ∀ request, r = .request request →
        Comparable rt productObservationDocument held client request ∧
          ShallowlyAnswered rt productObservationDocument readAnswer held transport client
            request := by
  cases r with
  | absent => simp [comparison, Comparison.escaping]
  | deliveryError => simp [comparison, Comparison.escaping]
  | request request =>
    simp only [ShadowRequest.request.injEq, forall_eq']
    rw [← not_iff_not, ← @mirror_unexpected_iff rt productObservationDocument readAnswer held
      transport client request]
    cases hc : mirror rt productObservationDocument readAnswer held transport client request with
    | ok verdict => simp [comparison, hc, Comparison.escaping]
    | error e => cases he : e.expected <;> simp [comparison, hc, Comparison.escaping, he]

/-- **A shadow pass is complete iff every request built for its page is comparable**: addressable
by the client, with a document that can be formed and written, and under a credential that is held;
and if the shadow port answers none of them with a document that is nested too deeply. -/
theorem shadowPassComplete_iff (page : List ι) :
    ShadowPassComplete verdicts
        (mirror rt productObservationDocument readAnswer held transport client) shadowRequest
        page ↔
      ∀ id ∈ page, ∀ request, shadowRequest id = .request request →
        Comparable rt productObservationDocument held client request ∧
          ShallowlyAnswered rt productObservationDocument readAnswer held transport client
            request := by
  rw [shadowPassComplete_iff_escaping]
  exact forall₂_congr fun id _ => escaping_eq_none_iff

/-- `locatedRequest`, whose product has quarantined its port. -/
def quarantinedRequest : ProductRequest :=
  { locatedRequest with
    destination :=
      { locatedRequest.destination with
        productPort := some
          { activationState := "quarantined", deliveryPath := "/api/v1/integration/observations/b",
            mirrorPath := "/api/v1/integration/observations/b/mirror",
            wireSchemaVersion := some envelopeWire } } }

/-- A receipt that cannot be addressed, in front of ones that can be compared. -/
def quarantinedFirst : ℕ → ShadowRequest
  | 1 => .request quarantinedRequest
  | _ => .request locatedRequest

/-- What the module makes of a verdict, and of none. -/
def sampleVerdicts : ShadowVerdicts where
  normalizeShadowVerdict v := ⟨v.verdict, v.blockingReasons, v.disagreeingFields⟩
  unreadableShadowVerdict := ⟨"unreadable", [], []⟩

/-- The receipt that cannot be addressed ends the pass: it is not observed, and the one behind it
is not attempted. -/
theorem quarantinedFirst_not_shadowPassComplete :
    let pass := mirrorDueReceipts sampleVerdicts
      (mirror locatedRuntime (fun _ => .error .other) (fun _ => .error .valueError)
        [("env:PRODUCT_PORT_KEY", "secret")] (fun _ => .error ⟨"unreachable", "unreachable"⟩)
        locatedClient) quarantinedFirst [1, 2]
    pass.1.attempts = [1] ∧ pass.1.records = [] ∧
      ¬ ShadowPassComplete sampleVerdicts
        (mirror locatedRuntime (fun _ => .error .other) (fun _ => .error .valueError)
          [("env:PRODUCT_PORT_KEY", "secret")] (fun _ => .error ⟨"unreachable", "unreachable"⟩)
          locatedClient) quarantinedFirst [1, 2] := by
  refine ⟨rfl, rfl, ?_⟩
  rintro ⟨h, -⟩
  have hattempts : ([1] : List ℕ) = [1, 2] := h
  simp at hattempts

end Client

end DotmacIntegrator.Delivery
