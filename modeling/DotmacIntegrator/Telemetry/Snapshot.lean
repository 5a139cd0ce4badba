import DotmacIntegrator.Foundation.Dict
import DotmacIntegrator.Foundation.Sql
import DotmacIntegrator.Telemetry.Exposition

/-!
# The gauges read from the ledgers

Every backlog is reported twice: how many rows wait, and how long the oldest has. The count is of
the rows; the age is of the earliest instant that some row records, and a row that records none has
no part in it. A backlog whose rows all record none is counted and has no age.

## Main definitions

* `DateTime`, `Driver`: instants as Python has them, and as the database does
* `snapshot`: the samples, in the order they are read
* `ageOf`: how long ago an instant is
* `AgeAgrees`, `BacklogsAgree`: the age of a backlog says what its rows do

## Main results

* `ageAgrees_iff`: an age agrees with its backlog iff some row of it records an instant
* `backlogs_agree_iff`: all four do iff no backlog is without one
-/

namespace DotmacIntegrator.Telemetry

open SignificantDigits

/-- An instant, in microseconds. -/
abbrev Instant := ℤ

/-- A `datetime`: a clock reading, and its offset from UTC unless it is naive. -/
structure DateTime where
  wall : ℤ
  utcoffset : Option ℤ

/-- The instant of a `datetime`, a naive one taken as UTC. -/
def DateTime.instant (d : DateTime) : Instant := d.wall - d.utcoffset.getD 0

/-- How the database's instants are read, with an offset or naive, and how a `datetime` is compared
with them. -/
structure Driver where
  read : Instant → DateTime
  bound : DateTime → Instant
  read_instant : ∀ i, (read i).instant = i
  bound_aware : ∀ d, d.utcoffset.isSome → bound d = d.instant

/-- A row of `DeliveryAttempt`. -/
structure DeliveryAttempt where
  state : String
  nextAttemptAt : Option Instant
  leasedUntil : Option Instant

/-- A row of `InboxReceipt`; the payload may be null in the database, or JSON. -/
structure InboxReceipt where
  state : String
  receivedAt : Option Instant
  payloadJson : Option Json

/-- A row of `PollingCheckpoint`. -/
structure PollingCheckpoint where
  advancedAt : Option Instant
  createdAt : Option Instant

/-- The ledgers, and the module's verdict on them. -/
structure Ledger where
  deliveries : List DeliveryAttempt
  receipts : List InboxReceipt
  checkpoints : List PollingCheckpoint
  healthReport : Dict String ℤ

/-- What reading the gauges raises. -/
inductive SnapshotError
  | overflowError
  | typeError
  deriving DecidableEq, Repr

/-! ### Ages -/

/-- `timedelta.total_seconds`: the nearest float of 53 binary digits. -/
def totalSeconds (delta : ℤ) : ℚ := roundSigned 2 53 ((delta : ℚ) / 10 ^ 6)

/-- `_age_seconds`: a naive stamp is taken as UTC; a naive moment cannot be subtracted from. -/
def ageSeconds (moment : DateTime) : Option DateTime → Except SnapshotError (Option ℚ)
  | none => .ok none
  | some stamp =>
    let stamped := if stamp.utcoffset.isSome then stamp else { stamp with utcoffset := some 0 }
    if moment.utcoffset.isSome then
      .ok (some (max 0 (totalSeconds (moment.instant - stamped.instant))))
    else .error .typeError

/-- The sample of an age: none where there is nothing to measure. -/
def ageSample (family : String) (age : Option ℚ) : List Sample :=
  (age.map fun a => ⟨family, .float (.finite a), none⟩).toList

/-- `_append_age`. -/
def appendAge (samples : List Sample) (family : String) (moment : DateTime)
    (stamp : Option DateTime) : Except SnapshotError (List Sample) := do
  let age ← ageSeconds moment stamp
  return samples ++ ageSample family age

/-! ### Counts -/

/-- `Sample(family, float(value), label)`. -/
def floatSample (family : String) (value : ℤ) (label : Option String) :
    Except SnapshotError Sample :=
  (Except.ofOption .overflowError (PyFormat.floatOfInt value)).map fun x =>
    ⟨family, .float (.finite x), label⟩

/-- `_counts_by_state`: every declared state, also those without a row. -/
def countsByState (states : List String) (allowed : List String) : Dict String ℤ :=
  Dict.ofPairs (allowed.map fun state => (state, (states.count state : ℤ)))

/-- One sample for each entry. -/
def labelledSamples (family : String) (entries : Dict String ℤ) :
    Except SnapshotError (List Sample) :=
  entries.mapM fun entry => floatSample family entry.2 (some entry.1)

/-! ### Which rows wait -/

variable (V : Vocabulary) (marker : String) (driver : Driver) (ledger : Ledger)

/-- Pending or retryable, and no later attempt is agreed on. -/
def IsDue (moment : DateTime) (row : DeliveryAttempt) : Prop :=
  row.state ∈ ["pending", "retryable"] ∧ ∀ t ∈ row.nextAttemptAt, t ≤ driver.bound moment

/-- In flight, under a lease that has not run out. -/
def IsLeased (moment : DateTime) (row : DeliveryAttempt) : Prop :=
  row.state = "in_flight" ∧ ∃ t ∈ row.leasedUntil, driver.bound moment ≤ t

/-- In flight, under a lease that has run out. -/
def IsLeaseExpired (moment : DateTime) (row : DeliveryAttempt) : Prop :=
  row.state = "in_flight" ∧ ∃ t ∈ row.leasedUntil, t < driver.bound moment

/-- Without an outcome. -/
def IsUnprocessed (row : InboxReceipt) : Prop := row.state ∉ ["processed", "dead_letter"]

/-- `payload_json[marker].as_string()`, or null. -/
def markerText (payload : Json) : Option Json :=
  match payload with
  | .obj members => (Dict.get? members marker).filter fun value => value ≠ .null
  | _ => none

/-- The payload is there, and not marked as redacted. -/
def IsRetained (row : InboxReceipt) : Prop :=
  ∃ payload ∈ row.payloadJson, markerText marker payload = none

instance (moment : DateTime) : DecidablePred (IsDue driver moment) :=
  fun _ => inferInstanceAs (Decidable (_ ∧ _))

instance (moment : DateTime) : DecidablePred (IsLeased driver moment) :=
  fun _ => inferInstanceAs (Decidable (_ ∧ _))

instance (moment : DateTime) : DecidablePred (IsLeaseExpired driver moment) :=
  fun _ => inferInstanceAs (Decidable (_ ∧ _))

instance : DecidablePred IsUnprocessed := fun _ => inferInstanceAs (Decidable (_ ∉ _))

instance : DecidablePred (IsRetained marker) := fun _ => inferInstanceAs (Decidable (∃ _ ∈ _, _))

/-- The instants of the deliveries that are due. -/
def dueInstants (moment : DateTime) : List (Option Instant) :=
  (ledger.deliveries.filter (IsDue driver moment ·)).map DeliveryAttempt.nextAttemptAt

/-- The instants of the receipts without an outcome. -/
def unprocessedInstants : List (Option Instant) :=
  (ledger.receipts.filter (IsUnprocessed ·)).map InboxReceipt.receivedAt

/-- The instants of the receipts whose payload is retained. -/
def retainedInstants : List (Option Instant) :=
  (ledger.receipts.filter (IsRetained marker ·)).map InboxReceipt.receivedAt

/-- The instants of the checkpoints: when they last advanced, else when they were created. -/
def checkpointInstants : List (Option Instant) :=
  ledger.checkpoints.map fun row => row.advancedAt.or row.createdAt

/-! ### The samples -/

/-- `snapshot`. -/
def snapshot (now : Option DateTime) (clock : DateTime) : Except SnapshotError (List Sample) := do
  let moment := now.getD clock
  let signals ← labelledSamples "integrator_health_signal" ledger.healthReport
  let deliveryDepths ← labelledSamples "integrator_delivery_queue_depth"
    (countsByState (ledger.deliveries.map DeliveryAttempt.state) V.deliveryStates)
  let receiptDepths ← labelledSamples "integrator_receipt_queue_depth"
    (countsByState (ledger.receipts.map InboxReceipt.state) V.receiptStates)
  let due ← floatSample "integrator_delivery_due"
    (ledger.deliveries.countP (IsDue driver moment ·)) none
  let leased ← floatSample "integrator_delivery_leased"
    (ledger.deliveries.countP (IsLeased driver moment ·)) none
  let expired ← floatSample "integrator_delivery_lease_expired"
    (ledger.deliveries.countP (IsLeaseExpired driver moment ·)) none
  let samples := signals ++ deliveryDepths ++ receiptDepths ++ [due, leased, expired]
  let samples ← appendAge samples "integrator_delivery_oldest_due_age_seconds" moment
    ((Sql.minimum (dueInstants driver ledger moment)).map driver.read)
  let samples ← appendAge samples "integrator_receipt_oldest_unprocessed_age_seconds" moment
    ((Sql.minimum (unprocessedInstants ledger)).map driver.read)
  let samples ← appendAge samples "integrator_checkpoint_oldest_lag_seconds" moment
    ((Sql.minimum (checkpointInstants ledger)).map driver.read)
  let retained ← floatSample "integrator_receipt_retained_payloads"
    (ledger.receipts.countP (IsRetained marker ·)) none
  appendAge (samples ++ [retained]) "integrator_receipt_oldest_retained_payload_age_seconds" moment
    ((Sql.minimum (retainedInstants marker ledger)).map driver.read)

/-! ### What the gauges say -/

/-- How long before the moment the instant is; not negative. -/
def ageOf (moment instant : Instant) : ℚ := max 0 (totalSeconds (moment - instant))

/-- A sample of the family has the value. -/
def Reports (samples : List Sample) (family : String) (x : ℚ) : Prop :=
  ⟨family, .float (.finite x), none⟩ ∈ samples

/-- The age of a backlog is there iff rows wait; it is the age of some row, and of no row more. -/
structure AgeAgrees (samples : List Sample) (family : String) (moment : Instant)
    (instants : List (Option Instant)) (waiting : Prop) : Prop where
  present : (∃ age, Reports samples family age) ↔ waiting
  oldest : ∀ age, Reports samples family age →
    ∀ t, some t ∈ instants → ageOf moment t ≤ age
  attained : ∀ age, Reports samples family age → ∃ t, some t ∈ instants ∧ age = ageOf moment t
  nonneg : ∀ age, Reports samples family age → 0 ≤ age

/-- The count of a backlog is positive. -/
def Counted (samples : List Sample) (family : String) : Prop :=
  ∃ count, Reports samples family count ∧ 0 < count

/-- Each of the four ages agrees with its backlog. -/
structure BacklogsAgree (moment : DateTime) (samples : List Sample) : Prop where
  due : AgeAgrees samples "integrator_delivery_oldest_due_age_seconds" moment.instant
    (dueInstants driver ledger moment) (Counted samples "integrator_delivery_due")
  unprocessed : AgeAgrees samples "integrator_receipt_oldest_unprocessed_age_seconds" moment.instant
    (unprocessedInstants ledger) (∃ row ∈ ledger.receipts, IsUnprocessed row)
  retained : AgeAgrees samples "integrator_receipt_oldest_retained_payload_age_seconds"
    moment.instant (retainedInstants marker ledger)
    (Counted samples "integrator_receipt_retained_payloads")
  checkpoints : AgeAgrees samples "integrator_checkpoint_oldest_lag_seconds" moment.instant
    (checkpointInstants ledger) (ledger.checkpoints ≠ [])

/-- A backlog is empty, or some row of it records an instant. -/
def Dated (instants : List (Option Instant)) : Prop := instants ≠ [] → ∃ t, some t ∈ instants

/-- No backlog has rows that all record no instant. -/
def EveryBacklogDated (moment : DateTime) : Prop :=
  Dated (dueInstants driver ledger moment) ∧ Dated (unprocessedInstants ledger) ∧
    Dated (retainedInstants marker ledger) ∧ Dated (checkpointInstants ledger)

/-! ### One age -/

variable {V marker driver ledger} {moment : DateTime} {instants : List (Option Instant)}
  {samples : List Sample} {family : String} {age : Option ℚ}

theorem totalSeconds_mono {delta delta' : ℤ} (h : delta ≤ delta') :
    totalSeconds delta ≤ totalSeconds delta' := by
  refine roundSigned_mono (by decide) (by decide) ?_
  have hcast : (delta : ℚ) ≤ delta' := by exact_mod_cast h
  linarith

/-- The earlier instant has the greater age. -/
theorem ageOf_anti {t t' : Instant} {moment : Instant} (h : t ≤ t') :
    ageOf moment t' ≤ ageOf moment t :=
  max_le_max le_rfl (totalSeconds_mono (Int.sub_le_sub_left h moment))

/-- The age is that of the stamp's instant, and is there iff the stamp is. -/
theorem ageSeconds_eq_ok {stamp : Option Instant}
    (h : ageSeconds moment (stamp.map driver.read) = .ok age) :
    age = stamp.map (ageOf moment.instant) := by
  cases stamp with
  | none => exact (Except.ok.inj h).symm
  | some t =>
    have hread : (driver.read t).instant = t := driver.read_instant t
    -- Taking a naive stamp as UTC does not move its instant.
    have hstamped : ∀ stamp : DateTime,
        (if stamp.utcoffset.isSome then stamp
          else { stamp with utcoffset := some 0 }).instant = stamp.instant := by
      intro stamp
      cases hoffset : stamp.utcoffset <;> simp [hoffset, DateTime.instant]
    simp only [Option.map_some, ageSeconds, hstamped, hread] at h
    split_ifs at h
    exact (Except.ok.inj h).symm

/-- **One backlog**: its age agrees with it iff it is empty or some row records an instant. -/
theorem ageAgrees_iff {waiting : Prop} (hwaiting : waiting ↔ instants ≠ [])
    (hage : ageSeconds moment ((Sql.minimum instants).map driver.read) = .ok age) (family : String)
    (hreports : ∀ x, Reports samples family x ↔ age = some x) :
    AgeAgrees samples family moment.instant instants waiting ↔ Dated instants := by
  obtain rfl := ageSeconds_eq_ok hage
  simp only [Option.map_eq_some_iff] at hreports
  constructor
  · rintro ⟨hpresent, -, hattained, -⟩ hne
    obtain ⟨x, hx⟩ := hpresent.mpr (hwaiting.mpr hne)
    obtain ⟨t, ht, -⟩ := hattained x hx
    exact ⟨t, ht⟩
  · intro hdated
    refine ⟨?_, ?_, ?_, ?_⟩
    · rw [hwaiting]
      constructor
      · rintro ⟨x, hx⟩
        obtain ⟨t, ht, -⟩ := (hreports x).mp hx
        exact List.ne_nil_of_mem (Sql.minimum_eq_some_iff.mp ht).1
      -- With an instant among the rows the minimum of their column is no null.
      · intro hne
        obtain ⟨t, ht⟩ := hdated hne
        cases hmin : Sql.minimum instants with
        | none => exact absurd ht (Sql.minimum_eq_none_iff.mp hmin t)
        | some least => exact ⟨_, (hreports _).mpr ⟨least, hmin, rfl⟩⟩
    · intro x hx t ht
      obtain ⟨least, hmin, rfl⟩ := (hreports x).mp hx
      exact ageOf_anti ((Sql.minimum_eq_some_iff.mp hmin).2 t ht)
    · intro x hx
      obtain ⟨least, hmin, rfl⟩ := (hreports x).mp hx
      exact ⟨least, (Sql.minimum_eq_some_iff.mp hmin).1, rfl⟩
    · intro x hx
      obtain ⟨least, hmin, rfl⟩ := (hreports x).mp hx
      exact le_max_left _ _

/-! ### The samples of a snapshot -/

theorem floatSample_eq_ok {value : ℤ} {label : Option String} {sample : Sample}
    (h : floatSample family value label = .ok sample) :
    ∃ x, PyFormat.floatOfInt value = some x ∧ sample = ⟨family, .float (.finite x), label⟩ := by
  obtain ⟨x, hx, rfl⟩ := Except.map_eq_ok.mp h
  exact ⟨x, Except.ofOption_eq_ok.mp hx, rfl⟩

theorem family_of_mem_labelledSamples {entries : Dict String ℤ}
    (h : labelledSamples family entries = .ok samples) : ∀ sample ∈ samples,
      sample.family = family := by
  intro sample hsample
  obtain ⟨entry, -, hentry⟩ := Except.exists_of_mapM_eq_ok h sample hsample
  obtain ⟨x, -, rfl⟩ := floatSample_eq_ok hentry
  rfl

theorem appendAge_eq_ok {stamp : Option DateTime} {samples' : List Sample}
    (h : appendAge samples family moment stamp = .ok samples') :
    ∃ age, ageSeconds moment stamp = .ok age ∧ samples' = samples ++ ageSample family age := by
  obtain ⟨age, hage, hsamples⟩ := Except.bind_eq_ok.mp h
  exact ⟨age, hage, (Except.ok.inj hsamples).symm⟩

@[simp] theorem mem_ageSample {sample : Sample} :
    sample ∈ ageSample family age ↔
      ∃ a, age = some a ∧ sample = ⟨family, .float (.finite a), none⟩ := by
  simp [ageSample, eq_comm]

/-- A row that waits is counted. -/
theorem floatOfInt_pos_iff {n : ℕ} {x : ℚ} (h : PyFormat.floatOfInt n = some x) :
    0 < x ↔ 0 < n := by
  rw [PyFormat.floatOfInt] at h
  split_ifs at h with hzero hbig hneg
  · obtain rfl := Option.some.inj h
    simp only [lt_irrefl, false_iff]
    omega
  · omega
  -- Rounding to 53 binary digits keeps a positive number positive.
  · obtain rfl := Option.some.inj h
    have hn : 0 < n := by omega
    have hpos : (0 : ℚ) < |((n : ℤ) : ℚ)| := abs_pos.mpr (by exact_mod_cast hn.ne')
    exact iff_of_true (roundDigits_pos (by decide) (by decide) hpos) hn

/-- The gauges without a label. -/
structure Gauges where
  due : ℚ
  leased : ℚ
  leaseExpired : ℚ
  dueAge : Option ℚ
  unprocessedAge : Option ℚ
  checkpointAge : Option ℚ
  retained : ℚ
  retainedAge : Option ℚ

/-- Their samples, in the order of a snapshot. -/
def Gauges.listed (g : Gauges) : List Sample :=
  [⟨"integrator_delivery_due", .float (.finite g.due), none⟩,
   ⟨"integrator_delivery_leased", .float (.finite g.leased), none⟩,
   ⟨"integrator_delivery_lease_expired", .float (.finite g.leaseExpired), none⟩] ++
    ageSample "integrator_delivery_oldest_due_age_seconds" g.dueAge ++
    ageSample "integrator_receipt_oldest_unprocessed_age_seconds" g.unprocessedAge ++
    ageSample "integrator_checkpoint_oldest_lag_seconds" g.checkpointAge ++
    [⟨"integrator_receipt_retained_payloads", .float (.finite g.retained), none⟩] ++
    ageSample "integrator_receipt_oldest_retained_payload_age_seconds" g.retainedAge

variable (marker driver ledger) in
/-- The counts and the ages of the four backlogs are read from the ledgers. -/
structure Gauges.ReadAt (moment : DateTime) (g : Gauges) : Prop where
  due : PyFormat.floatOfInt (ledger.deliveries.countP (IsDue driver moment ·)) = some g.due
  retained : PyFormat.floatOfInt (ledger.receipts.countP (IsRetained marker ·)) = some g.retained
  dueAge : ageSeconds moment ((Sql.minimum (dueInstants driver ledger moment)).map driver.read) =
    .ok g.dueAge
  unprocessedAge : ageSeconds moment ((Sql.minimum (unprocessedInstants ledger)).map driver.read) =
    .ok g.unprocessedAge
  checkpointAge : ageSeconds moment ((Sql.minimum (checkpointInstants ledger)).map driver.read) =
    .ok g.checkpointAge
  retainedAge : ageSeconds moment
    ((Sql.minimum (retainedInstants marker ledger)).map driver.read) = .ok g.retainedAge

/-- The families that take a label. -/
def labelledFamilies : List String :=
  ["integrator_health_signal", "integrator_delivery_queue_depth", "integrator_receipt_queue_depth"]

/-- **What a snapshot holds**: samples on a label, and the gauges without one. -/
theorem snapshot_eq_ok {now : Option DateTime} {clock : DateTime}
    (h : snapshot V marker driver ledger now clock = .ok samples) :
    ∃ labelled g, (∀ sample ∈ labelled, sample.family ∈ labelledFamilies) ∧
      Gauges.ReadAt marker driver ledger (now.getD clock) g ∧ samples = labelled ++ g.listed := by
  rw [snapshot] at h
  obtain ⟨signals, hsignals, h⟩ := Except.bind_eq_ok.mp h
  obtain ⟨deliveryDepths, hdeliveries, h⟩ := Except.bind_eq_ok.mp h
  obtain ⟨receiptDepths, hreceipts, h⟩ := Except.bind_eq_ok.mp h
  obtain ⟨_, hdue, h⟩ := Except.bind_eq_ok.mp h
  obtain ⟨_, hleased, h⟩ := Except.bind_eq_ok.mp h
  obtain ⟨_, hexpired, h⟩ := Except.bind_eq_ok.mp h
  -- The four ages; each appends to the samples before it.
  obtain ⟨_, h₁, h⟩ := Except.bind_eq_ok.mp h
  obtain ⟨_, h₂, h⟩ := Except.bind_eq_ok.mp h
  obtain ⟨_, h₃, h⟩ := Except.bind_eq_ok.mp h
  obtain ⟨_, hretained, h₄⟩ := Except.bind_eq_ok.mp h
  obtain ⟨due, hdueCount, rfl⟩ := floatSample_eq_ok hdue
  obtain ⟨leased, -, rfl⟩ := floatSample_eq_ok hleased
  obtain ⟨expired, -, rfl⟩ := floatSample_eq_ok hexpired
  obtain ⟨retained, hretainedCount, rfl⟩ := floatSample_eq_ok hretained
  obtain ⟨dueAge, hdueAge, rfl⟩ := appendAge_eq_ok h₁
  obtain ⟨unprocessedAge, hunprocessedAge, rfl⟩ := appendAge_eq_ok h₂
  obtain ⟨checkpointAge, hcheckpointAge, rfl⟩ := appendAge_eq_ok h₃
  obtain ⟨retainedAge, hretainedAge, rfl⟩ := appendAge_eq_ok h₄
  refine ⟨signals ++ deliveryDepths ++ receiptDepths, ⟨due, leased, expired, dueAge,
    unprocessedAge, checkpointAge, retained, retainedAge⟩, ?_, ⟨hdueCount, hretainedCount, hdueAge,
    hunprocessedAge, hcheckpointAge, hretainedAge⟩, by simp [Gauges.listed]⟩
  intro sample hsample
  simp only [List.mem_append] at hsample
  rcases hsample with (hsample | hsample) | hsample
  · simp [labelledFamilies, family_of_mem_labelledSamples hsignals sample hsample]
  · simp [labelledFamilies, family_of_mem_labelledSamples hdeliveries sample hsample]
  · simp [labelledFamilies, family_of_mem_labelledSamples hreceipts sample hsample]

/-- Rows wait iff their instants are listed. -/
theorem map_filter_ne_nil_iff {α : Type} {p : α → Prop} [DecidablePred p] {f : α → Option Instant}
    {rows : List α} : (rows.filter (p ·)).map f ≠ [] ↔ ∃ row ∈ rows, p row := by
  rw [ne_eq, List.map_eq_nil_iff, List.filter_eq_nil_iff]
  simp

/-- A gauge without a label is among those read. -/
theorem reports_append_iff {labelled : List Sample} {g : Gauges} {x : ℚ}
    (hlabelled : ∀ sample ∈ labelled, sample.family ∈ labelledFamilies)
    (hfamily : family ∉ labelledFamilies) :
    Reports (labelled ++ g.listed) family x ↔ Reports g.listed family x := by
  have hnot : (⟨family, .float (.finite x), none⟩ : Sample) ∉ labelled :=
    fun hmem => hfamily (hlabelled _ hmem)
  rw [Reports, Reports, List.mem_append, or_iff_right hnot]

/-- The count of a backlog is positive iff rows wait. -/
theorem counted_iff {α : Type} {p : α → Prop} [DecidablePred p] {f : α → Option Instant}
    {rows : List α} {count : ℚ} (hcount : PyFormat.floatOfInt (rows.countP (p ·)) = some count)
    (hreports : ∀ x, Reports samples family x ↔ x = count) :
    Counted samples family ↔ (rows.filter (p ·)).map f ≠ [] := by
  rw [map_filter_ne_nil_iff, Counted]
  simp only [hreports, exists_eq_left, floatOfInt_pos_iff hcount, List.countP_pos_iff,
    decide_eq_true_eq]

/-- **Backlog and age agree** exactly where no backlog has rows that all record no instant. -/
theorem backlogs_agree_iff {now : Option DateTime} {clock : DateTime}
    (h : snapshot V marker driver ledger now clock = .ok samples) :
    BacklogsAgree marker driver ledger (now.getD clock) samples ↔
      EveryBacklogDated marker driver ledger (now.getD clock) := by
  obtain ⟨labelled, g, hlabelled, hread, rfl⟩ := snapshot_eq_ok h
  have hreports : ∀ family x, family ∉ labelledFamilies →
      (Reports (labelled ++ g.listed) family x ↔ Reports g.listed family x) :=
    fun _ _ hfamily => reports_append_iff hlabelled hfamily
  have hdue : Counted (labelled ++ g.listed) "integrator_delivery_due" ↔
      dueInstants driver ledger (now.getD clock) ≠ [] := by
    refine counted_iff hread.due fun x => ?_
    rw [hreports _ x (by decide)]
    simp [Reports, Gauges.listed]
  have hretained : Counted (labelled ++ g.listed) "integrator_receipt_retained_payloads" ↔
      retainedInstants marker ledger ≠ [] := by
    refine counted_iff hread.retained fun x => ?_
    rw [hreports _ x (by decide)]
    simp [Reports, Gauges.listed]
  -- The other two backlogs have no count of their own.
  have hunprocessed : (∃ row ∈ ledger.receipts, IsUnprocessed row) ↔
      unprocessedInstants ledger ≠ [] := map_filter_ne_nil_iff.symm
  have hcheckpoints : ledger.checkpoints ≠ [] ↔ checkpointInstants ledger ≠ [] := by
    simp [checkpointInstants]
  -- The four ages, one by one; no other sample has their family.
  have h₁ := ageAgrees_iff hdue hread.dueAge
    "integrator_delivery_oldest_due_age_seconds" fun x => by
      rw [hreports _ x (by decide)]
      simp [Reports, Gauges.listed]
  have h₂ := ageAgrees_iff hunprocessed hread.unprocessedAge
    "integrator_receipt_oldest_unprocessed_age_seconds" fun x => by
      rw [hreports _ x (by decide)]
      simp [Reports, Gauges.listed]
  have h₃ := ageAgrees_iff hretained hread.retainedAge
    "integrator_receipt_oldest_retained_payload_age_seconds" fun x => by
      rw [hreports _ x (by decide)]
      simp [Reports, Gauges.listed]
  have h₄ := ageAgrees_iff hcheckpoints hread.checkpointAge
    "integrator_checkpoint_oldest_lag_seconds" fun x => by
      rw [hreports _ x (by decide)]
      simp [Reports, Gauges.listed]
  constructor
  · intro hagree
    exact ⟨h₁.mp hagree.due, h₂.mp hagree.unprocessed, h₃.mp hagree.retained,
      h₄.mp hagree.checkpoints⟩
  · rintro ⟨hdated₁, hdated₂, hdated₃, hdated₄⟩
    exact ⟨h₁.mpr hdated₁, h₂.mpr hdated₂, h₃.mpr hdated₃, h₄.mpr hdated₄⟩

/-- A driver that reads every instant in UTC. -/
def utcDriver : Driver where
  read i := ⟨i, some 0⟩
  bound := DateTime.instant
  read_instant _ := by simp [DateTime.instant]
  bound_aware _ _ := rfl

/-- One delivery is pending. -/
def onePending (nextAttemptAt : Option Instant) : Ledger :=
  ⟨[⟨"pending", nextAttemptAt, none⟩], [], [], []⟩

/-- The samples without a label of `onePending`. -/
def onePendingGauges (age : Option ℚ) : Gauges := ⟨1, 0, 0, age, none, none, 0, none⟩

/-- The samples of `onePending` on a label. -/
def onePendingDepths : List Sample :=
  [⟨"integrator_delivery_queue_depth", .float (.finite 1), some "pending"⟩,
   ⟨"integrator_receipt_queue_depth", .float (.finite 0), some "verified"⟩]

/-- A delivery that became due 42 seconds ago. -/
theorem backlogs_agree_iff_onePending :
    BacklogsAgree "redacted" utcDriver (onePending (some 58000000)) ⟨100000000, some 0⟩
      (onePendingDepths ++ (onePendingGauges (some 42)).listed) := by
  have hsamples : snapshot someVocabulary "redacted" utcDriver (onePending (some 58000000))
      (some ⟨100000000, some 0⟩) ⟨0, some 0⟩ =
        .ok (onePendingDepths ++ (onePendingGauges (some 42)).listed) := by
    decide +kernel
  refine (backlogs_agree_iff hsamples).mpr ⟨fun _ => ⟨58000000, by decide⟩, ?_, ?_, ?_⟩
  · exact fun h => absurd rfl h
  · exact fun h => absurd rfl h
  · exact fun h => absurd rfl h

/-- A delivery whose next attempt was never set is due, and no age says how long it has waited. -/
theorem not_backlogs_agree_onePending :
    ¬ ∀ ledger now samples, snapshot someVocabulary "redacted" utcDriver ledger now ⟨0, some 0⟩ =
      .ok samples → BacklogsAgree "redacted" utcDriver ledger (now.getD ⟨0, some 0⟩) samples := by
  intro h
  have hsamples : snapshot someVocabulary "redacted" utcDriver (onePending none)
      (some ⟨100000000, some 0⟩) ⟨0, some 0⟩ =
        .ok (onePendingDepths ++ (onePendingGauges none).listed) := by
    decide +kernel
  have hcounted : Counted (onePendingDepths ++ (onePendingGauges none).listed)
      "integrator_delivery_due" :=
    ⟨1, by simp [Reports, onePendingDepths, onePendingGauges, Gauges.listed], by norm_num⟩
  obtain ⟨age, hage⟩ := (h _ _ _ hsamples).due.present.mpr hcounted
  simp [Reports, onePendingDepths, onePendingGauges, Gauges.listed] at hage

end DotmacIntegrator.Telemetry
