import DotmacIntegrator.Foundation.RaisingLoop
import DotmacIntegrator.Secrets.Resolver
import Mathlib.Data.List.Count

/-!
# The delivery pump

One pass of the pump offers every id of a page to the module's `deliver_receipt`, which claims the
receipt, calls the product and settles. The pass counts what became of each receipt; of all that a
delivery may raise, it catches a lost claim.

## Main definitions

* `ReceiptDelivery`: what one call of `deliver_receipt` does
* `deliverDueReceipts`: one pass over a page, with the calls it made
* `DeliveredIndependently`: every receipt of a page is attempted, and the counts account for it

## Main results

* `deliverPage_attempts`: the calls of a pass are those up to the first receipt that raises
* `deliveredIndependently_iff`: receipts are delivered independently iff none of the page raises
-/

namespace DotmacIntegrator.Delivery

open Secrets

/-- The module's classification of a product's answer. -/
inductive ProductAcceptance
  | accepted
  | alreadyApplied
  | rejected
  | unavailable
  | indeterminate
  deriving DecidableEq, Repr

/-- What one call of `deliver_receipt` does: a report, a lost claim, or another exception. -/
inductive ReceiptDelivery (ε : Type*)
  | unclaimed
  | claimed (outcome : Option ProductAcceptance)
  | lostClaim
  | raised (e : ε)
  deriving DecidableEq, Repr

namespace ReceiptDelivery

variable {ε : Type*}

/-- A report of a claimed receipt. -/
def isClaimed : ReceiptDelivery ε → Bool
  | claimed _ => true
  | _ => false

/-- A report of a receipt another worker claimed. -/
def isUnclaimed : ReceiptDelivery ε → Bool
  | unclaimed => true
  | _ => false

/-- A claim that was lost mid-call. -/
def isLost : ReceiptDelivery ε → Bool
  | lostClaim => true
  | _ => false

/-- The exception the pump does not catch. -/
def escaping : ReceiptDelivery ε → Option ε
  | raised e => some e
  | _ => none

end ReceiptDelivery

/-- The counts of a pass. -/
structure Counted where
  claimed : ℕ
  unclaimed : ℕ
  lost : ℕ
  deriving DecidableEq, Repr

/-- A pass in progress: the calls made, the counts, and the telemetry counters it advances. -/
structure Pass (ι : Type*) where
  attempts : List ι
  counted : Counted
  lostClaims : ℕ
  acceptances : List ProductAcceptance
  deriving DecidableEq, Repr

/-- A pass that has not called anything yet. -/
def Pass.start (ι : Type*) : Pass ι where
  attempts := []
  counted := { claimed := 0, unclaimed := 0, lost := 0 }
  lostClaims := 0
  acceptances := []

variable {ι ε : Type*} (behaviour : ι → ReceiptDelivery ε)

/-- The body of the loop: one receipt. -/
def deliverOne (pass : Pass ι) (id : ι) : Pass ι × Option ε :=
  let pass := { pass with attempts := pass.attempts ++ [id] }
  match behaviour id with
  | .lostClaim =>
    ({ pass with counted := { pass.counted with lost := pass.counted.lost + 1 }
                 lostClaims := pass.lostClaims + 1 }, none)
  | .unclaimed =>
    ({ pass with counted := { pass.counted with unclaimed := pass.counted.unclaimed + 1 } }, none)
  | .claimed outcome =>
    ({ pass with counted := { pass.counted with claimed := pass.counted.claimed + 1 }
                 acceptances := pass.acceptances ++ outcome.toList }, none)
  | .raised e => (pass, some e)

/-- Why a pass returns no counts. -/
inductive PumpError (ε : Type*)
  | productPortNotInstalled
  | shadowPortInstalled
  | escaped (e : ε)
  deriving DecidableEq, Repr

/-- The client that was installed, as far as the pump asks it. -/
structure InstalledPort where
  writes : Bool

/-- The loop over a page: the calls made, and the counts unless an exception escapes. -/
def deliverPage (page : List ι) : Pass ι × Except (PumpError ε) Counted :=
  match RaisingLoop.run (deliverOne behaviour) (Pass.start ι) page with
  | (pass, none) => (pass, .ok pass.counted)
  | (pass, some e) => (pass, .error (.escaped e))

/-- `deliver_due_receipts`: one pass over the `page` of due ids, and what it returns. -/
def deliverDueReceipts (port : Option InstalledPort) (page : List ι) :
    Pass ι × Except (PumpError ε) Counted :=
  match port with
  | none => (Pass.start ι, .error .productPortNotInstalled)
  | some port =>
    if port.writes = false then (Pass.start ι, .error .shadowPortInstalled)
    else deliverPage behaviour page

/-- Every receipt of the page is attempted once, in page order, and the counts returned account
for the whole page. -/
def DeliveredIndependently (page : List ι) : Prop :=
  (deliverDueReceipts behaviour (some ⟨true⟩) page).1.attempts = page ∧
    ∃ counted, (deliverDueReceipts behaviour (some ⟨true⟩) page).2 = .ok counted ∧
    counted.claimed = page.countP (fun id => (behaviour id).isClaimed) ∧
    counted.unclaimed = page.countP (fun id => (behaviour id).isUnclaimed) ∧
    counted.lost = page.countP (fun id => (behaviour id).isLost) ∧
    counted.claimed + counted.unclaimed + counted.lost = page.length

variable {behaviour}

/-- A body raises what its receipt raises. -/
theorem deliverOne_snd (pass : Pass ι) (id : ι) :
    (deliverOne behaviour pass id).2 = (behaviour id).escaping := by
  unfold deliverOne
  cases behaviour id <;> rfl

theorem deliverOne_attempts (pass : Pass ι) (id : ι) :
    (deliverOne behaviour pass id).1.attempts = pass.attempts ++ [id] := by
  unfold deliverOne
  cases behaviour id <;> rfl

theorem foldl_attempts (page : List ι) (pass : Pass ι) :
    (page.foldl (fun p id => (deliverOne behaviour p id).1) pass).attempts =
      pass.attempts ++ page := by
  induction page generalizing pass with
  | nil => simp
  | cons id page ih => rw [List.foldl_cons, ih, deliverOne_attempts, List.append_assoc]; rfl

/-- What one receipt adds to the counts. -/
theorem deliverOne_counted (pass : Pass ι) (id : ι) :
    (deliverOne behaviour pass id).1.counted =
      { claimed := pass.counted.claimed + (behaviour id).isClaimed.toNat
        unclaimed := pass.counted.unclaimed + (behaviour id).isUnclaimed.toNat
        lost := pass.counted.lost + (behaviour id).isLost.toNat } := by
  unfold deliverOne
  cases behaviour id <;> rfl

theorem countP_cons_toNat (p : ι → Bool) (id : ι) (page : List ι) :
    (id :: page).countP p = (p id).toNat + page.countP p := by
  cases h : p id <;> simp [h, Nat.add_comm]

theorem foldl_counted (page : List ι) (pass : Pass ι) :
    (page.foldl (fun p id => (deliverOne behaviour p id).1) pass).counted =
      { claimed := pass.counted.claimed + page.countP (fun id => (behaviour id).isClaimed)
        unclaimed := pass.counted.unclaimed + page.countP (fun id => (behaviour id).isUnclaimed)
        lost := pass.counted.lost + page.countP (fun id => (behaviour id).isLost) } := by
  induction page generalizing pass with
  | nil => simp
  | cons id page ih =>
    rw [List.foldl_cons, ih, deliverOne_counted]
    simp only [countP_cons_toNat, Nat.add_assoc]

/-- **The calls of a pass** are those up to the first receipt that raises, and that one. -/
theorem deliverPage_attempts (page : List ι) :
    (deliverPage behaviour page).1.attempts =
      RaisingLoop.reached (fun id => (behaviour id).escaping) page := by
  unfold deliverPage
  rw [RaisingLoop.run_eq deliverOne_snd]
  cases page.findSome? fun id => (behaviour id).escaping <;> simp [foldl_attempts, Pass.start]

/-- An exception that escapes is returned in place of the counts. -/
theorem deliverPage_of_raises {page : List ι} {e : ε}
    (h : page.findSome? (fun id => (behaviour id).escaping) = some e) :
    (deliverPage behaviour page).2 = .error (.escaped e) := by
  unfold deliverPage
  rw [RaisingLoop.run_eq deliverOne_snd, h]

/-- Where nothing escapes, every receipt is counted. -/
theorem deliverPage_of_clean {page : List ι} (h : ∀ id ∈ page, (behaviour id).escaping = none) :
    (deliverPage behaviour page).2 = .ok
      { claimed := page.countP fun id => (behaviour id).isClaimed
        unclaimed := page.countP fun id => (behaviour id).isUnclaimed
        lost := page.countP fun id => (behaviour id).isLost } := by
  unfold deliverPage
  rw [RaisingLoop.run_of_clean _ _ _ fun pass id hid => (deliverOne_snd pass id).trans (h id hid)]
  simp [foldl_counted, Pass.start]

/-- The three ways a receipt is counted exclude each other and exhaust the receipts that do not
raise. -/
theorem countP_add_countP_add_countP {page : List ι}
    (h : ∀ id ∈ page, (behaviour id).escaping = none) :
    page.countP (fun id => (behaviour id).isClaimed) +
      page.countP (fun id => (behaviour id).isUnclaimed) +
      page.countP (fun id => (behaviour id).isLost) = page.length := by
  induction page with
  | nil => rfl
  | cons id page ih =>
    have hpage := ih fun x hx => h x (by simp [hx])
    have hid := h id (by simp)
    simp only [countP_cons_toNat, List.length_cons]
    -- A receipt that does not raise is counted in exactly one way.
    have hone : (behaviour id).isClaimed.toNat + (behaviour id).isUnclaimed.toNat +
        (behaviour id).isLost.toNat = 1 := by
      cases hb : behaviour id <;> simp_all [ReceiptDelivery.escaping, ReceiptDelivery.isClaimed,
        ReceiptDelivery.isUnclaimed, ReceiptDelivery.isLost]
    omega

/-- **Receipts are delivered independently** iff no receipt of the page raises anything but a lost
claim. -/
theorem deliveredIndependently_iff (page : List ι) :
    DeliveredIndependently behaviour page ↔ ∀ id ∈ page, ∀ e, behaviour id ≠ .raised e := by
  have hesc : (∀ id ∈ page, ∀ e, behaviour id ≠ .raised e) ↔
      ∀ id ∈ page, (behaviour id).escaping = none := by
    apply forall₂_congr
    intro id _
    cases behaviour id <;> simp [ReceiptDelivery.escaping]
  have hpage : deliverDueReceipts behaviour (some ⟨true⟩) page = deliverPage behaviour page := rfl
  rw [hesc, DeliveredIndependently, hpage]
  constructor
  · -- An exception that escapes leaves no counts.
    rintro ⟨-, counted, hc, -⟩
    cases he : page.findSome? fun id => (behaviour id).escaping with
    | none => exact List.findSome?_eq_none_iff.mp he
    | some e => simp [deliverPage_of_raises he] at hc
  · intro hclean
    refine ⟨?_, _, deliverPage_of_clean hclean, rfl, rfl, rfl,
      countP_add_countP_add_countP hclean⟩
    rw [deliverPage_attempts, RaisingLoop.reached_of_clean _ hclean]

/-- A receipt whose product credential is not held, in front of ones that would be delivered. -/
def unheldFirst : ℕ → ReceiptDelivery SecretsNotHeld
  | 1 => .raised ⟨[("api_key", "env:PRODUCT_PORT_KEY")]⟩
  | _ => .claimed (some .accepted)

/-- The exception of the first receipt ends the pass before the second is attempted. -/
theorem unheldFirst_not_deliveredIndependently :
    (deliverDueReceipts unheldFirst (some ⟨true⟩) [1, 2]).1.attempts = [1] ∧
      ¬ DeliveredIndependently unheldFirst [1, 2] := by
  refine ⟨rfl, ?_⟩
  rintro ⟨h, -⟩
  have hattempts : ([1] : List ℕ) = [1, 2] := h
  simp at hattempts

end DotmacIntegrator.Delivery
