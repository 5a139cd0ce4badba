import Mathlib.Data.List.Nodup
import Mathlib.Data.List.Sort
import Mathlib.Order.Lattice

/-!
# The delivery selector

The pump is offered the ids the selector returns; the claim then decides whether a receipt may be
delivered. The selector filters on the state first, and leaves a receipt that is `processing` to
the claim's own lease predicate. But a receipt the selector leaves out is never offered to the
claim.

## Main definitions

* `Receipt`, `Inbox`: rows of the inbox table, and the table
* `dueReceiptIds`, `Claimable`: the selector, and what the claim documents it accepts

## Main results

* `offers_claimable_iff`: the selector loses no receipt iff every claimable one is `verified` or
  `retryable`
-/

namespace DotmacIntegrator.Delivery

/-- The lifecycle of a receipt. -/
inductive ReceiptState
  | verified
  | processing
  | retryable
  | processed
  | deadLetter
  | reconciliationRequired
  deriving DecidableEq, Repr

/-- A row of the inbox table, as far as the selector and the claim read it. -/
structure Receipt (ι τ : Type*) where
  id : ι
  state : ReceiptState
  leasedUntil : Option τ
  nextAttemptAt : Option τ
  receivedAt : τ
  deriving DecidableEq, Repr

/-- The inbox table: no two rows have one id. -/
structure Inbox (ι τ : Type*) where
  rows : List (Receipt ι τ)
  ids : (rows.map Receipt.id).Nodup

variable {ι τ : Type*}

theorem Inbox.eq_of_id {inbox : Inbox ι τ} {r s : Receipt ι τ} (hr : r ∈ inbox.rows)
    (hs : s ∈ inbox.rows) (h : r.id = s.id) : r = s :=
  List.inj_on_of_nodup_map inbox.ids hr hs h

variable [LinearOrder τ]

/-- The states a receipt can still be delivered from. -/
def deliverableStates : List ReceiptState := [.verified, .retryable]

/-- The receipt is held by a lease that has not expired. -/
def Receipt.held (now : τ) (r : Receipt ι τ) : Bool := r.leasedUntil.any fun u => now ≤ u

/-- The receipt is due. -/
def Receipt.due (now : τ) (r : Receipt ι τ) : Bool := r.nextAttemptAt.all fun t => t ≤ now

/-- The `where` of the selector. -/
def selected (now : τ) (r : Receipt ι τ) : Bool :=
  r.state ∈ deliverableStates && r.leasedUntil.all (fun u => u < now) && r.due now

/-- `due_receipt_ids`: the oldest receipts that might be claimable. -/
def dueReceiptIds (inbox : Inbox ι τ) (now : τ) (limit : ℕ) : List ι :=
  (((inbox.rows.filter (selected now)).mergeSort fun r s => r.receivedAt ≤ s.receivedAt).take
    limit).map Receipt.id

variable (terminal : ReceiptState → Bool)

/-- The documented claim predicate: not terminal, not held by a live lease, and due. -/
def Claimable (now : τ) (r : Receipt ι τ) : Bool :=
  !terminal r.state && !r.held now && r.due now

/-- What is documented of the claim's terminal states: a receipt is delivered from `verified` and
`retryable`, one whose lease expired in `processing` is recovered, and an outcome is final until
an operator intervenes. -/
structure DocumentedTerminal : Prop where
  verified : terminal .verified = false
  retryable : terminal .retryable = false
  processing : terminal .processing = false
  processed : terminal .processed = true
  deadLetter : terminal .deadLetter = true
  reconciliationRequired : terminal .reconciliationRequired = true

variable {terminal}

/-! ### One table -/

theorem not_held_iff {now : τ} {r : Receipt ι τ} :
    r.held now = false ↔ r.leasedUntil.all (fun u => u < now) = true := by
  unfold Receipt.held
  cases r.leasedUntil <;> simp

/-- The selector is the claim predicate with the states listed. -/
theorem selected_iff (h : DocumentedTerminal terminal) {now : τ} {r : Receipt ι τ} :
    selected now r ↔ Claimable terminal now r ∧ r.state ∈ deliverableStates := by
  -- The states that are listed are not terminal, so that listing them is the only difference.
  have hstate : r.state ∈ deliverableStates → terminal r.state = false := by
    intro hs
    simp only [deliverableStates, List.mem_cons, List.not_mem_nil, or_false] at hs
    rcases hs with hs | hs <;> rw [hs]
    · exact h.verified
    · exact h.retryable
  simp only [selected, Claimable, Bool.and_eq_true, decide_eq_true_eq, Bool.not_eq_true',
    not_held_iff]
  constructor
  · rintro ⟨⟨hs, hl⟩, hd⟩
    exact ⟨⟨⟨hstate hs, hl⟩, hd⟩, hs⟩
  · rintro ⟨⟨⟨-, hl⟩, hd⟩, hs⟩
    exact ⟨⟨hs, hl⟩, hd⟩

/-- With a limit that is large enough, every selected row is offered. -/
theorem mem_dueReceiptIds {inbox : Inbox ι τ} {now : τ} {limit : ℕ}
    (hlimit : (inbox.rows.filter (selected now)).length ≤ limit) {id : ι} :
    id ∈ dueReceiptIds inbox now limit ↔ ∃ r ∈ inbox.rows, selected now r ∧ r.id = id := by
  unfold dueReceiptIds
  rw [List.take_of_length_le (by rwa [List.length_mergeSort])]
  simp only [List.mem_map, List.mem_mergeSort, List.mem_filter, and_assoc]

/-- Every offered row is selected. -/
theorem selected_of_mem_dueReceiptIds {inbox : Inbox ι τ} {now : τ} {limit : ℕ} {id : ι}
    (h : id ∈ dueReceiptIds inbox now limit) : ∃ r ∈ inbox.rows, selected now r ∧ r.id = id := by
  obtain ⟨r, hr, rfl⟩ := List.mem_map.mp h
  have hmem := List.mem_mergeSort.mp (List.mem_of_mem_take hr)
  exact ⟨r, (List.mem_filter.mp hmem).1, (List.mem_filter.mp hmem).2, rfl⟩

/-- **The selector loses no receipt of a table iff every claimable one is `verified` or
`retryable`.** -/
theorem offers_claimable_iff (h : DocumentedTerminal terminal) (inbox : Inbox ι τ) (now : τ)
    {limit : ℕ} (hlimit : inbox.rows.countP (Claimable terminal now) ≤ limit) :
    (∀ r ∈ inbox.rows, Claimable terminal now r → r.id ∈ dueReceiptIds inbox now limit) ↔
      ∀ r ∈ inbox.rows, Claimable terminal now r → r.state ∈ deliverableStates := by
  -- Every selected row is claimable, so that the limit is large enough for the page as well.
  have hlen : (inbox.rows.filter (selected now)).length ≤ limit := by
    rw [← List.countP_eq_length_filter]
    exact (List.countP_mono_left fun r _ hr => ((selected_iff h).mp hr).1).trans hlimit
  constructor
  · intro hall r hr hc
    -- The id is that of a selected row, and no other row has it.
    obtain ⟨s, hs, hsel, hid⟩ := (mem_dueReceiptIds hlen).mp (hall r hr hc)
    rw [← inbox.eq_of_id hs hr hid]
    exact ((selected_iff h).mp hsel).2
  · intro hall r hr hc
    exact (mem_dueReceiptIds hlen).mpr ⟨r, hr, (selected_iff h).mpr ⟨hc, hall r hr hc⟩, rfl⟩

end DotmacIntegrator.Delivery
