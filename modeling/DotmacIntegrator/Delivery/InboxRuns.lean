import DotmacIntegrator.Delivery.Selector
import DotmacIntegrator.Foundation.StepSystem
import Mathlib.Data.List.Count
import Mathlib.Logic.Function.Basic
import Mathlib.Order.Nat

/-!
# Runs of the inbox table

Passes ask the selector for a page, attempt its ids, and settle what they claim; workers die, with
a claim or with the rest of a page; time passes. A receipt whose worker died between claim and
settle stays `processing`, which the selector never offers, so that it is lost for good; every
other claimable receipt can still be offered.

## Main definitions

* `World`, `inboxSystem`: the table under passes, claims, settlements, crashes and the clock
* `Orphaned`: a receipt whose worker died between claim and settle

## Main results

* `Orphaned.leads`: an orphaned receipt stays orphaned
* `offered_iff_not_orphaned`: a claimable receipt can still be offered iff it is not orphaned
* `selector_loses_no_receipt`: the selector over tables and over runs
-/

namespace DotmacIntegrator.Delivery

variable {ι τ : Type*}

/-! ### Steps -/

/-- What settling a claim makes of the receipt. -/
inductive Settlement (τ : Type*)
  | processed
  | retryable (nextAttemptAt : Option τ)
  | deadLetter
  | reconciliationRequired
  deriving DecidableEq, Repr

/-- The claim's update of the row. -/
def Receipt.claim (leasedUntil : τ) (r : Receipt ι τ) : Receipt ι τ :=
  { r with state := .processing, leasedUntil := some leasedUntil }

/-- The settlement's update of the row. -/
def Receipt.settle (settlement : Settlement τ) (r : Receipt ι τ) : Receipt ι τ :=
  match settlement with
  | .processed => { r with state := .processed, leasedUntil := none }
  | .retryable next => { r with state := .retryable, leasedUntil := none, nextAttemptAt := next }
  | .deadLetter => { r with state := .deadLetter, leasedUntil := none }
  | .reconciliationRequired => { r with state := .reconciliationRequired, leasedUntil := none }

@[simp] theorem Receipt.claim_id (u : τ) (r : Receipt ι τ) : (r.claim u).id = r.id := rfl

@[simp] theorem Receipt.settle_id (o : Settlement τ) (r : Receipt ι τ) :
    (r.settle o).id = r.id := by
  cases o <;> rfl

/-- The table with the row of one id changed. -/
def Inbox.update [DecidableEq ι] (inbox : Inbox ι τ) (id : ι)
    (change : Receipt ι τ → Receipt ι τ) (hchange : ∀ r, (change r).id = r.id) : Inbox ι τ where
  rows := inbox.rows.map fun r => if r.id = id then change r else r
  ids := by
    have h : (Receipt.id ∘ fun r => if r.id = id then change r else r) = Receipt.id := by
      funext r
      simp only [Function.comp_apply]
      split
      · exact hchange r
      · rfl
    rw [List.map_map, h]
    exact inbox.ids

/-- The table, the clock, the ids that passes in progress have still to attempt, and the receipts
whose claim is held by a live worker. -/
structure World (ι τ : Type*) where
  inbox : Inbox ι τ
  now : τ
  pending : List ι
  inFlight : ι → Bool

/-- What happens to the table: a pass asks the selector for its page, attempts an id, settles its
claim, dies with the claim, or dies with the rest of its page; or time passes. -/
inductive Event (ι τ : Type*)
  | select
  | claim (id : ι) (leasedUntil : τ)
  | settle (id : ι) (settlement : Settlement τ)
  | crash (id : ι)
  | forget (page : List ι)
  | tick (now : τ)

variable [LinearOrder τ] [DecidableEq ι] (terminal : ReceiptState → Bool)

/-- One step of the table. Two passes may hold one id: the claim is decided on the row as it is
then, and a pass that is late finds it held. -/
inductive Step (limit : ℕ) : World ι τ → Event ι τ → World ι τ → Prop
  | select (w : World ι τ) :
      Step limit w .select { w with pending := w.pending ++ dueReceiptIds w.inbox w.now limit }
  | claim {w : World ι τ} {r : Receipt ι τ} {u : τ} (hp : r.id ∈ w.pending)
      (hr : r ∈ w.inbox.rows) (hc : Claimable terminal w.now r) (hu : w.now < u) :
      Step limit w (.claim r.id u)
        { w with
          inbox := w.inbox.update r.id (Receipt.claim u) (Receipt.claim_id u)
          pending := w.pending.erase r.id
          inFlight := Function.update w.inFlight r.id true }
  | unclaimed {w : World ι τ} {r : Receipt ι τ} {u : τ} (hp : r.id ∈ w.pending)
      (hr : r ∈ w.inbox.rows) (hc : ¬ Claimable terminal w.now r) :
      Step limit w (.claim r.id u) { w with pending := w.pending.erase r.id }
  | settle {w : World ι τ} {id : ι} (o : Settlement τ) (hf : w.inFlight id = true) :
      Step limit w (.settle id o)
        { w with
          inbox := w.inbox.update id (Receipt.settle o) (Receipt.settle_id o)
          inFlight := Function.update w.inFlight id false }
  | crash {w : World ι τ} {id : ι} (hf : w.inFlight id = true) :
      Step limit w (.crash id) { w with inFlight := Function.update w.inFlight id false }
  | forget (w : World ι τ) (page : List ι) :
      Step limit w (.forget page) { w with pending := w.pending.diff page }
  | tick {w : World ι τ} {t : τ} (ht : w.now ≤ t) : Step limit w (.tick t) { w with now := t }

/-- The table under the delivery loop, from any table no worker holds a receipt of. -/
def inboxSystem (limit : ℕ) : StepSystem (World ι τ) (Event ι τ) where
  init w := (∀ r ∈ w.inbox.rows, r.state ≠ .processing) ∧ w.pending = [] ∧
    ∀ id, w.inFlight id = false
  step := Step terminal limit

/-- No worker dies between claim and settle. -/
def NoCrash : World ι τ → Event ι τ → Prop := fun _ e => ∀ id, e ≠ .crash id

/-- The receipt's worker died between claim and settle, and no pass in progress has its id. -/
structure Orphaned (w : World ι τ) (r : Receipt ι τ) : Prop where
  mem : r ∈ w.inbox.rows
  processing : r.state = .processing
  dead : w.inFlight r.id = false
  late : r.id ∉ w.pending

/-! ### The updated table -/

section Update

variable {inbox : Inbox ι τ} {id : ι} {change : Receipt ι τ → Receipt ι τ}
  (hchange : ∀ r, (change r).id = r.id)

omit [LinearOrder τ]

theorem Inbox.mem_update {x : Receipt ι τ} :
    x ∈ (inbox.update id change hchange).rows ↔
      (∃ r ∈ inbox.rows, r.id = id ∧ x = change r) ∨ x ∈ inbox.rows ∧ x.id ≠ id := by
  simp only [Inbox.update, List.mem_map]
  constructor
  · rintro ⟨r, hr, rfl⟩
    by_cases hid : r.id = id
    · exact .inl ⟨r, hr, hid, if_pos hid⟩
    · rw [if_neg hid]
      exact .inr ⟨hr, hid⟩
  · rintro (⟨r, hr, hid, rfl⟩ | ⟨hx, hid⟩)
    · exact ⟨r, hr, if_pos hid⟩
    · exact ⟨x, hx, if_neg hid⟩

theorem Inbox.mem_update_self {r : Receipt ι τ} (hr : r ∈ inbox.rows) (hid : r.id = id) :
    change r ∈ (inbox.update id change hchange).rows :=
  (Inbox.mem_update hchange).mpr (.inl ⟨r, hr, hid, rfl⟩)

theorem Inbox.mem_update_of_ne {r : Receipt ι τ} (hr : r ∈ inbox.rows) (hid : r.id ≠ id) :
    r ∈ (inbox.update id change hchange).rows :=
  (Inbox.mem_update hchange).mpr (.inr ⟨hr, hid⟩)

end Update

/-! ### Orphans -/

variable {terminal} {limit : ℕ} {w w' : World ι τ} {r : Receipt ι τ}

omit [DecidableEq ι] in
/-- A row that is offered is deliverable. -/
theorem deliverable_of_mem_dueReceiptIds {inbox : Inbox ι τ} {now : τ} (hr : r ∈ inbox.rows)
    (h : r.id ∈ dueReceiptIds inbox now limit) : r.state ∈ deliverableStates := by
  obtain ⟨s, hs, hsel, hid⟩ := selected_of_mem_dueReceiptIds h
  rw [← inbox.eq_of_id hs hr hid]
  simp only [selected, Bool.and_eq_true, decide_eq_true_eq] at hsel
  exact hsel.1.1

omit [DecidableEq ι] in
/-- The selector does not offer an orphaned receipt. -/
theorem Orphaned.not_offered (h : Orphaned w r) (limit : ℕ) :
    r.id ∉ dueReceiptIds w.inbox w.now limit := by
  intro hmem
  have hstate := deliverable_of_mem_dueReceiptIds h.mem hmem
  rw [h.processing] at hstate
  exact absurd hstate (by decide)

/-- No step recovers an orphaned receipt: only a live worker settles it, and only a pass that has
its id claims it. -/
theorem Orphaned.step {e : Event ι τ} (h : Orphaned w r) (hstep : Step terminal limit w e w') :
    Orphaned w' r := by
  -- The worker of an orphan is dead, so that no settlement and no crash is of its id.
  have hne : ∀ {id}, w.inFlight id = true → r.id ≠ id := by
    rintro id hid rfl
    rw [h.dead] at hid
    exact absurd hid (by decide)
  cases hstep with
  | select =>
    -- The page has receipts in a deliverable state only.
    refine ⟨h.mem, h.processing, h.dead, ?_⟩
    simp only [List.mem_append, not_or]
    exact ⟨h.late, h.not_offered limit⟩
  | @claim s u hp hs hc hu =>
    -- The id that is claimed is pending, and that of an orphan is not.
    have hid : r.id ≠ s.id := fun hid => h.late (hid ▸ hp)
    refine ⟨Inbox.mem_update_of_ne (Receipt.claim_id u) h.mem hid, h.processing, ?_,
      fun hr => h.late (List.mem_of_mem_erase hr)⟩
    exact (Function.update_of_ne hid _ _).trans h.dead
  | unclaimed _ _ _ =>
    exact ⟨h.mem, h.processing, h.dead, fun hr => h.late (List.mem_of_mem_erase hr)⟩
  | settle o hf =>
    refine ⟨Inbox.mem_update_of_ne (Receipt.settle_id o) h.mem (hne hf), h.processing, ?_, h.late⟩
    exact (Function.update_of_ne (hne hf) _ _).trans h.dead
  | crash hf =>
    exact ⟨h.mem, h.processing, (Function.update_of_ne (hne hf) _ _).trans h.dead, h.late⟩
  | forget page =>
    exact ⟨h.mem, h.processing, h.dead, fun hr => h.late (List.diff_subset _ _ hr)⟩
  | tick _ => exact ⟨h.mem, h.processing, h.dead, h.late⟩

/-- **An orphaned receipt stays orphaned, whatever happens to the table.** -/
theorem Orphaned.leads (h : Orphaned w r) (hl : (inboxSystem terminal limit).Leads w w') :
    Orphaned w' r :=
  hl.closed (I := fun w => Orphaned w r) (fun _ _ _ h hstep => h.step hstep) h

/-- While no worker dies between claim and settle, a worker holds every receipt in `processing`. -/
theorem inFlight_isInductive :
    ((inboxSystem (ι := ι) (τ := τ) terminal limit).Guarded NoCrash).IsInductive fun w =>
      ∀ r ∈ w.inbox.rows, r.state = .processing → w.inFlight r.id = true where
  init := fun w h r hr hp => absurd hp (h.1 r hr)
  step := by
    rintro w e w' hI ⟨hstep, hcrash⟩ x hx hp
    cases hstep with
    | select => exact hI x hx hp
    | @claim s u _ _ _ _ =>
      -- The row that is claimed is held from now on; every other row is as it was.
      by_cases hid : x.id = s.id
      · rw [hid]
        exact Function.update_self ..
      · obtain ⟨y, -, hy, rfl⟩ | ⟨hmem, -⟩ := (Inbox.mem_update (Receipt.claim_id u)).mp hx
        · exact absurd hy hid
        · exact (Function.update_of_ne hid _ _).trans (hI x hmem hp)
    | unclaimed _ _ _ => exact hI x hx hp
    | @settle id o _ =>
      -- A settlement leaves no row in `processing`.
      obtain ⟨y, -, -, rfl⟩ | ⟨hmem, hid⟩ := (Inbox.mem_update (Receipt.settle_id o)).mp hx
      · cases o <;> cases hp
      · exact (Function.update_of_ne hid _ _).trans (hI x hmem hp)
    | crash _ => exact absurd rfl (hcrash _)
    | forget page => exact hI x hx hp
    | tick _ => exact hI x hx hp

/-! ### Offers -/

theorem leads_snoc {w'' : World ι τ} {e : Event ι τ}
    (hl : ((inboxSystem terminal limit).Guarded NoCrash).Leads w w')
    (hstep : Step terminal limit w' e w'') (he : ∀ id, e ≠ .crash id) :
    ((inboxSystem terminal limit).Guarded NoCrash).Leads w w'' :=
  hl.snoc ⟨hstep, he⟩

omit [LinearOrder τ] [DecidableEq ι] in
theorem countP_lt_countP {α : Type*} {p q : α → Bool} {l : List α} {a : α} (ha : a ∈ l)
    (hpq : ∀ x, p x → q x) (hp : ¬ p a) (hq : q a) : l.countP p < l.countP q := by
  induction l with
  | nil => cases ha
  | cons b l ih =>
    rw [List.countP_cons, List.countP_cons]
    have hmono : l.countP p ≤ l.countP q := List.countP_mono_left fun x _ => hpq x
    rcases List.mem_cons.mp ha with rfl | ha
    · simp only [hp, hq, if_true, Bool.false_eq_true, if_false]
      omega
    · have hb := hpq b
      have hlt := ih ha
      split <;> split <;> first | omega | exact absurd (hb ‹_›) ‹_›

omit [DecidableEq ι] in
/-- A page of a table with due receipts is not empty. -/
theorem exists_offered {inbox : Inbox ι τ} {now : τ} (hlimit : 0 < limit) (hr : r ∈ inbox.rows)
    (hsel : selected now r) :
    ∃ s ∈ inbox.rows, selected now s ∧ s.id ∈ dueReceiptIds inbox now limit := by
  have hmem : r ∈ inbox.rows.filter (selected now) := List.mem_filter.mpr ⟨hr, hsel⟩
  -- The page is cut, at a positive limit, from a list that is not empty.
  have hlen : 0 < (dueReceiptIds inbox now limit).length := by
    simp only [dueReceiptIds, List.length_map, List.length_take, List.length_mergeSort]
    exact Nat.lt_min.mpr ⟨hlimit, List.length_pos_of_mem hmem⟩
  obtain ⟨id, hid⟩ := List.length_pos_iff_exists_mem.mp hlen
  obtain ⟨s, hs, hsel', rfl⟩ := selected_of_mem_dueReceiptIds hid
  exact ⟨s, hs, hsel', hid⟩

variable [NoMaxOrder τ] (h : DocumentedTerminal terminal)

include h

/-- A pass can claim an offered receipt and settle it as processed; no other row changes. -/
theorem exists_processed (hr : r ∈ w.inbox.rows) (hsel : selected w.now r)
    (hid : r.id ∈ dueReceiptIds w.inbox w.now limit) :
    ∃ w' : World ι τ, ((inboxSystem terminal limit).Guarded NoCrash).Leads w w' ∧
      w'.now = w.now ∧ ∃ u,
        w'.inbox = (w.inbox.update r.id (Receipt.claim u) (Receipt.claim_id u)).update r.id
          (Receipt.settle .processed) (Receipt.settle_id .processed) := by
  obtain ⟨u, hu⟩ := exists_gt w.now
  -- The pass selects, claims until some later instant, and settles; no worker dies in between.
  have hselect : ((inboxSystem terminal limit).Guarded NoCrash).Leads w
      { w with pending := w.pending ++ dueReceiptIds w.inbox w.now limit } :=
    leads_snoc (.refl w) (Step.select w) fun _ => nofun
  have hclaim := leads_snoc hselect (Step.claim
    (w := { w with pending := w.pending ++ dueReceiptIds w.inbox w.now limit })
    (List.mem_append_right _ hid) hr ((selected_iff h).mp hsel).1 hu) fun _ => nofun
  refine ⟨_, leads_snoc hclaim (Step.settle .processed ?_) fun _ => nofun, rfl, u, rfl⟩
  exact Function.update_self ..

/-- **A due receipt is offered in the end**: the receipts ahead of it can be delivered, each of
which leaves one fewer. -/
theorem exists_offered_of_selected (hlimit : 0 < limit) (hr : r ∈ w.inbox.rows)
    (hsel : selected w.now r) :
    ∃ w', ((inboxSystem terminal limit).Guarded NoCrash).Leads w w' ∧
      r.id ∈ dueReceiptIds w'.inbox w'.now limit := by
  -- Induction on the number of receipts that are selected now.
  induction hn : w.inbox.rows.countP (selected w.now) using Nat.strong_induction_on
    generalizing w with
  | _ n ih =>
    obtain ⟨s, hs, hsels, hoffer⟩ := exists_offered hlimit hr hsel
    by_cases hid : r.id = s.id
    · exact ⟨w, .refl w, hid ▸ hoffer⟩
    -- The receipt on the page is processed, after which one fewer is selected.
    obtain ⟨w₁, hl, hnow, u, hinbox⟩ := exists_processed h hs hsels hoffer
    have hrows : w₁.inbox.rows = w.inbox.rows.map fun x =>
        if x.id = s.id then (x.claim u).settle .processed else x := by
      simp only [hinbox, Inbox.update, List.map_map]
      apply List.map_congr_left
      intro x _
      by_cases hx : x.id = s.id <;> simp [hx]
    have hnot : ∀ x : Receipt ι τ, selected w.now ((x.claim u).settle .processed) = false := by
      intro x
      simp [selected, Receipt.settle, deliverableStates]
    have hlt : w₁.inbox.rows.countP (selected w₁.now) < n := by
      rw [hrows, hnow, List.countP_map, ← hn]
      refine countP_lt_countP hs ?_ ?_ hsels
      · intro x hx
        by_cases hid : x.id = s.id
        · simp [hid, hnot] at hx
        · simpa [hid] using hx
      · simp [hnot]
    have hr₁ : r ∈ w₁.inbox.rows := by
      rw [hrows]
      exact List.mem_map.mpr ⟨r, hr, if_neg hid⟩
    obtain ⟨w₂, hl₂, hoffer₂⟩ := ih _ hlt hr₁ (hnow ▸ hsel) rfl
    exact ⟨w₂, hl.trans hl₂, hoffer₂⟩

/-- A receipt a live worker holds can be settled for another attempt. -/
theorem exists_offered_of_inFlight (hlimit : 0 < limit) (hr : r ∈ w.inbox.rows)
    (hf : w.inFlight r.id = true) :
    ∃ w', ((inboxSystem terminal limit).Guarded NoCrash).Leads w w' ∧
      r.id ∈ dueReceiptIds w'.inbox w'.now limit := by
  have hstep : Step terminal limit w (.settle r.id (.retryable none)) _ := .settle _ hf
  have hsettle := leads_snoc (.refl w) hstep fun _ => nofun
  -- Without an instant of the next attempt, the receipt is due at once.
  have hsel : selected w.now (r.settle (.retryable none)) := by
    simp [selected, Receipt.settle, deliverableStates, Receipt.due]
  obtain ⟨w', hl, hoffer⟩ := exists_offered_of_selected (r := r.settle (.retryable none))
    (w := { w with
      inbox := w.inbox.update r.id (Receipt.settle (.retryable none)) (Receipt.settle_id _)
      inFlight := Function.update w.inFlight r.id false })
    h hlimit (Inbox.mem_update_self (Receipt.settle_id _) hr rfl) hsel
  exact ⟨w', hsettle.trans hl, hoffer⟩

/-- A pass that still has the id of a receipt whose lease expired recovers it. -/
theorem exists_offered_of_pending (hlimit : 0 < limit) (hr : r ∈ w.inbox.rows)
    (hc : Claimable terminal w.now r) (hp : r.id ∈ w.pending) :
    ∃ w', ((inboxSystem terminal limit).Guarded NoCrash).Leads w w' ∧
      r.id ∈ dueReceiptIds w'.inbox w'.now limit := by
  obtain ⟨u, hu⟩ := exists_gt w.now
  have hstep : Step terminal limit w (.claim r.id u) _ := .claim hp hr hc hu
  have hclaim := leads_snoc (.refl w) hstep fun _ => nofun
  -- The claim gives the receipt a live worker.
  obtain ⟨w', hl, hoffer⟩ := exists_offered_of_inFlight (r := r.claim u)
    (w := { w with
      inbox := w.inbox.update r.id (Receipt.claim u) (Receipt.claim_id u)
      pending := w.pending.erase r.id
      inFlight := Function.update w.inFlight r.id true })
    h hlimit (Inbox.mem_update_self (Receipt.claim_id u) hr rfl) (Function.update_self ..)
  exact ⟨w', hclaim.trans hl, hoffer⟩

omit [DecidableEq ι] [NoMaxOrder τ] in
/-- A claimable receipt is deliverable, or it was left `processing`. -/
theorem deliverable_or_processing {now : τ} (hc : Claimable terminal now r) :
    r.state ∈ deliverableStates ∨ r.state = .processing := by
  simp only [Claimable, Bool.and_eq_true, Bool.not_eq_true'] at hc
  have hstate := hc.1.1
  cases hs : r.state with
  | verified => exact .inl (by decide)
  | retryable => exact .inl (by decide)
  | processing => exact .inr rfl
  | processed => rw [hs, h.processed] at hstate; cases hstate
  | deadLetter => rw [hs, h.deadLetter] at hstate; cases hstate
  | reconciliationRequired => rw [hs, h.reconciliationRequired] at hstate; cases hstate

/-- A claimable receipt that is not orphaned can still be offered, without another crash. -/
theorem exists_offered_of_not_orphaned (hlimit : 0 < limit) (hr : r ∈ w.inbox.rows)
    (hc : Claimable terminal w.now r) (ho : ¬ Orphaned w r) :
    ∃ w', ((inboxSystem terminal limit).Guarded NoCrash).Leads w w' ∧
      r.id ∈ dueReceiptIds w'.inbox w'.now limit := by
  rcases deliverable_or_processing h hc with hs | hs
  · exact exists_offered_of_selected h hlimit hr ((selected_iff h).mpr ⟨hc, hs⟩)
  -- A receipt in `processing` is still on a page, or held by a live worker, or orphaned.
  by_cases hp : r.id ∈ w.pending
  · exact exists_offered_of_pending h hlimit hr hc hp
  cases hf : w.inFlight r.id with
  | true => exact exists_offered_of_inFlight h hlimit hr hf
  | false => exact absurd ⟨hr, hs, hf, hp⟩ ho

/-- **A claimable receipt can still be offered iff it is not orphaned.** -/
theorem offered_iff_not_orphaned (hlimit : 0 < limit) (hr : r ∈ w.inbox.rows)
    (hc : Claimable terminal w.now r) :
    (∃ w', (inboxSystem terminal limit).Leads w w' ∧
      r.id ∈ dueReceiptIds w'.inbox w'.now limit) ↔ ¬ Orphaned w r := by
  constructor
  · rintro ⟨w', hl, hoffer⟩ ho
    exact (ho.leads hl).not_offered limit hoffer
  · intro ho
    obtain ⟨w', hl, hoffer⟩ := exists_offered_of_not_orphaned h hlimit hr hc ho
    exact ⟨w', hl.of_guarded, hoffer⟩

omit h [NoMaxOrder τ] in
/-- Where no worker died between claim and settle, no receipt is orphaned. -/
theorem not_orphaned_of_guarded
    (hw : ((inboxSystem terminal limit).Guarded NoCrash).Reachable w) : ¬ Orphaned w r := by
  intro ho
  have hf := inFlight_isInductive.reachable hw r ho.mem ho.processing
  rw [ho.dead] at hf
  cases hf

/-- **What the selector loses.** Of a table, exactly the claimable receipts in no deliverable
state; over runs, exactly the orphaned ones; and nothing in a run where no worker dies between
claim and settle. -/
theorem selector_loses_no_receipt :
    (∀ (inbox : Inbox ι τ) (now : τ) (limit : ℕ),
      inbox.rows.countP (Claimable terminal now) ≤ limit →
      ((∀ r ∈ inbox.rows, Claimable terminal now r → r.id ∈ dueReceiptIds inbox now limit) ↔
        ∀ r ∈ inbox.rows, Claimable terminal now r → r.state ∈ deliverableStates)) ∧
    (∀ (limit : ℕ) (w : World ι τ), 0 < limit → (inboxSystem terminal limit).Reachable w →
      ((∀ r ∈ w.inbox.rows, Claimable terminal w.now r →
        ∃ w', (inboxSystem terminal limit).Leads w w' ∧
          r.id ∈ dueReceiptIds w'.inbox w'.now limit) ↔
        ∀ r ∈ w.inbox.rows, Claimable terminal w.now r → ¬ Orphaned w r)) ∧
    (∀ (limit : ℕ) (w : World ι τ), 0 < limit →
      ((inboxSystem terminal limit).Guarded NoCrash).Reachable w →
      ∀ r ∈ w.inbox.rows, Claimable terminal w.now r →
        ∃ w', ((inboxSystem terminal limit).Guarded NoCrash).Leads w w' ∧
          r.id ∈ dueReceiptIds w'.inbox w'.now limit) := by
  refine ⟨fun inbox now limit hlimit => offers_claimable_iff h inbox now hlimit, ?_, ?_⟩
  · intro limit w hlimit _
    exact forall_congr' fun r => forall_congr' fun hr => forall_congr' fun hc =>
      offered_iff_not_orphaned h hlimit hr hc
  · intro limit w hlimit hw r hr hc
    exact exists_offered_of_not_orphaned h hlimit hr hc (not_orphaned_of_guarded hw)

omit h

/-! ### A worker that dies with its claim -/

/-- The terminal states, as documented. -/
def terminalStates : ReceiptState → Bool
  | .processed | .deadLetter | .reconciliationRequired => true
  | .verified | .processing | .retryable => false

theorem terminalStates_documented : DocumentedTerminal terminalStates :=
  ⟨rfl, rfl, rfl, rfl, rfl, rfl⟩

/-- A table of one receipt that has arrived. -/
def arrivedInbox : Inbox ℕ ℕ := ⟨[⟨1, .verified, none, none, 0⟩], by decide⟩

/-- The same table after its worker died and the lease expired. -/
def strandedInbox : Inbox ℕ ℕ := ⟨[⟨1, .processing, some 1, none, 0⟩], by decide⟩

/-- The table, at an instant, with no pass in progress. -/
def idleWorld (inbox : Inbox ℕ ℕ) (now : ℕ) : World ℕ ℕ := ⟨inbox, now, [], fun _ => false⟩

theorem selector_loses_no_receipt_strandedInbox :
    ¬ ∀ r ∈ strandedInbox.rows, Claimable terminalStates 2 r →
      r.id ∈ dueReceiptIds strandedInbox 2 1 := by
  rw [(selector_loses_no_receipt terminalStates_documented).1 strandedInbox 2 1 (by decide)]
  decide

theorem dueReceiptIds_arrivedInbox : dueReceiptIds arrivedInbox 0 1 = [1] := by
  simp [dueReceiptIds, arrivedInbox, selected, deliverableStates, Receipt.due]

/-- A pass claims the receipt, its worker dies, and the lease expires. -/
theorem strandedInbox_reachable :
    (inboxSystem terminalStates 1).Reachable (idleWorld strandedInbox 2) := by
  have hselect : Step terminalStates 1 (idleWorld arrivedInbox 0) .select
      { idleWorld arrivedInbox 0 with pending := [1] } := by
    rw [← dueReceiptIds_arrivedInbox]
    exact .select _
  have hclaim : Step terminalStates 1 { idleWorld arrivedInbox 0 with pending := [1] } (.claim 1 1)
      { idleWorld strandedInbox 0 with inFlight := Function.update (fun _ => false) 1 true } :=
    .claim (r := ⟨1, .verified, none, none, 0⟩) (by decide) (by decide) (by decide) (by decide)
  have hcrash : Step terminalStates 1
      { idleWorld strandedInbox 0 with inFlight := Function.update (fun _ => false) 1 true }
      (.crash 1) (idleWorld strandedInbox 0) := by
    -- The claim and the death of its worker leave no receipt held.
    have hdead : Function.update (Function.update (fun _ : ℕ => false) 1 true) 1 false =
        fun _ => false := by
      rw [Function.update_idem, Function.update_eq_self]
    have hworld : idleWorld strandedInbox 0 =
        { idleWorld strandedInbox 0 with
          inFlight := Function.update (Function.update (fun _ => false) 1 true) 1 false } := by
      rw [hdead]
      rfl
    rw [hworld]
    exact .crash rfl
  have htick : Step terminalStates 1 (idleWorld strandedInbox 0) (.tick 2)
      (idleWorld strandedInbox 2) := .tick (by decide)
  exact ⟨idleWorld arrivedInbox 0, ⟨by decide, rfl, fun _ => rfl⟩,
    (((StepSystem.Leads.single hselect).snoc hclaim).snoc hcrash).snoc htick⟩

/-- A table whose claimable receipt is not offered is reached, and the receipt is never offered
again. -/
theorem strandedInbox_never_offered :
    strandedInbox.rows.countP (Claimable terminalStates 2) ≤ 1 ∧
    ∃ r ∈ strandedInbox.rows, Claimable terminalStates 2 r ∧
      r.id ∉ dueReceiptIds strandedInbox 2 1 ∧
      (inboxSystem terminalStates 1).Reachable (idleWorld strandedInbox 2) ∧
      ∀ w', (inboxSystem terminalStates 1).Leads (idleWorld strandedInbox 2) w' →
        ∀ limit, r.id ∉ dueReceiptIds w'.inbox w'.now limit := by
  have ho : Orphaned (idleWorld strandedInbox 2) ⟨1, .processing, some 1, none, 0⟩ :=
    ⟨by decide, rfl, rfl, by decide⟩
  exact ⟨by decide, ⟨1, .processing, some 1, none, 0⟩, by decide, by decide, ho.not_offered 1,
    strandedInbox_reachable, fun w' hl limit => (ho.leads hl).not_offered limit⟩

end DotmacIntegrator.Delivery
