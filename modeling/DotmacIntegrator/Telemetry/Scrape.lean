import DotmacIntegrator.Telemetry.Recording
import DotmacIntegrator.Telemetry.Snapshot

/-!
# Scrapes

A scrape reads the gauges from the ledgers, then the counters, one after the other while they go on
counting, and then the worker; what it collected is rendered. It is answered unless the database
raises, something counted is no float, or the module's verdict names a signal that is not declared.

## Main definitions

* `collect`, `scrape`: what a scrape collects, and its text
* `seriesOf`: the series of some families, each with its labels
* `Scrapable`: what a scrape needs to be answered

## Main results

* `snapshot_reads`, `exists_snapshot_iff`: what a snapshot reads, and when it is answered
* `exists_scrape_iff`: a scrape is answered iff what it needs is there
* `signal_of_scrape_undeclared`: no label is refused but a signal of the module
-/

namespace DotmacIntegrator.Telemetry

/-! ### Collecting -/

/-- What a scrape finds of the worker: whether its sweep runs, and when a sweep was last done. -/
structure WorkerGauge where
  running : Bool
  lastSweepEpoch : Option PyFloat

/-- What a scrape finds besides the counters: the ledgers, unless the database raises, read by a
driver at an instant, and the worker, if there is one. A verdict has each of its signals once. -/
structure Found where
  ledger : Option Ledger
  driver : Driver
  now : Instant
  worker : Option WorkerGauge
  nodup_signals : ∀ l ∈ ledger, (Dict.keys l.healthReport).Nodup

/-- What a scrape raises. -/
inductive ScrapeError
  | database
  | snapshot (e : SnapshotError)
  | render (e : RenderError)
  deriving DecidableEq, Repr

/-- `datetime.now(UTC)`. -/
def Found.moment (found : Found) : DateTime := ⟨found.now, some 0⟩

/-- The samples of the worker. -/
def workerSamples : Option WorkerGauge → List Sample
  | none => []
  | some worker =>
    ⟨"integrator_worker_running", .float (.finite (if worker.running then 1 else 0)), none⟩ ::
      (worker.lastSweepEpoch.map fun epoch =>
        ⟨"integrator_worker_last_sweep_timestamp_seconds", .float epoch, none⟩).toList

variable (V : Vocabulary) (printable : Char → Bool) (marker : String)

/-- `collect`. -/
def collect (ingress : IngressCounters) (queries : QueryCounters) (found : Found) :
    Except ScrapeError (List Sample) := do
  let ledger ← Except.ofOption .database found.ledger
  let samples ← (snapshot V marker found.driver ledger none found.moment).mapError .snapshot
  let samples := samples ++ ingress.samples
  let samples := samples ++ queries.samples
  return samples ++ workerSamples found.worker

/-- `scrape`. -/
def scrape (ingress : IngressCounters) (queries : QueryCounters) (found : Found) :
    Except ScrapeError String := do
  let samples ← collect V marker ingress queries found
  (render V printable samples).mapError .render

/-! ### The series of what is collected -/

/-- The series of a sample. -/
def Sample.series (sample : Sample) : String × Option String := (sample.family, sample.labelValue)

/-- The series of some families, each with its labels. -/
def seriesOf (groups : List (String × List (Option String))) : List (String × Option String) :=
  groups.flatMap fun group => group.2.map fun label => (group.1, label)

/-- Families that are named once, with labels that are named once. -/
theorem nodup_seriesOf {groups : List (String × List (Option String))}
    (hnames : (groups.map Prod.fst).Nodup) (hlabels : ∀ group ∈ groups, group.2.Nodup) :
    (seriesOf groups).Nodup := by
  refine List.nodup_flatMap.mpr ⟨fun group hgroup => ?_, ?_⟩
  · exact (hlabels group hgroup).map fun _ _ h => (Prod.mk.inj h).2
  · refine (List.pairwise_map.mp hnames).imp fun {group group'} hne => ?_
    intro series h h'
    obtain ⟨_, -, rfl⟩ := List.mem_map.mp h
    obtain ⟨_, -, hseries⟩ := List.mem_map.mp h'
    exact hne (Prod.mk.inj hseries).1.symm

theorem mem_seriesOf {groups : List (String × List (Option String))} {name : String}
    {label : Option String} :
    (name, label) ∈ seriesOf groups ↔ ∃ group ∈ groups, group.1 = name ∧ label ∈ group.2 := by
  simp only [seriesOf, List.mem_flatMap, List.mem_map, Prod.mk.injEq]
  constructor
  · rintro ⟨group, hgroup, _, hlabel, rfl, rfl⟩
    exact ⟨group, hgroup, rfl, hlabel⟩
  · rintro ⟨group, hgroup, rfl, hlabel⟩
    exact ⟨group, hgroup, label, hlabel, rfl, rfl⟩

variable {V printable marker} {driver : Driver} {ledger : Ledger} {samples : List Sample}

/-- Samples on a label have the keys of what they report. -/
theorem series_labelledSamples {family : String} {entries : Dict String ℤ}
    (h : labelledSamples family entries = .ok samples) :
    samples.map Sample.series = (entries.keys.map some).map fun label => (family, label) := by
  have hforall := Except.mapM_eq_ok.mp h
  clear h
  induction hforall with
  | nil => rfl
  | cons hentry _ ih =>
    obtain ⟨x, -, rfl⟩ := floatSample_eq_ok hentry
    exact congrArg (_ :: ·) ih

/-- The labels of an age: none where there is no age. -/
def ageLabels (age : Option ℚ) : List (Option String) := (age.map fun _ => none).toList

/-- The families of a snapshot, with the labels that it has. -/
def snapshotGroups (V : Vocabulary) (ledger : Ledger) (g : Gauges) :
    List (String × List (Option String)) :=
  [("integrator_health_signal", ledger.healthReport.keys.map some),
   ("integrator_delivery_queue_depth", (countsByState (ledger.deliveries.map DeliveryAttempt.state)
     V.deliveryStates).keys.map some),
   ("integrator_receipt_queue_depth", (countsByState (ledger.receipts.map InboxReceipt.state)
     V.receiptStates).keys.map some),
   ("integrator_delivery_due", [none]),
   ("integrator_delivery_leased", [none]),
   ("integrator_delivery_lease_expired", [none]),
   ("integrator_delivery_oldest_due_age_seconds", ageLabels g.dueAge),
   ("integrator_receipt_oldest_unprocessed_age_seconds", ageLabels g.unprocessedAge),
   ("integrator_checkpoint_oldest_lag_seconds", ageLabels g.checkpointAge),
   ("integrator_receipt_retained_payloads", [none]),
   ("integrator_receipt_oldest_retained_payload_age_seconds", ageLabels g.retainedAge)]

/-- The families of the counters, with the labels that they have. -/
def counterGroups (ingress : IngressCounters) (queries : QueryCounters) :
    List (String × List (Option String)) :=
  (Tally.all.map fun tally => (tally.family, (ingress.tallies tally).keys.map some)) ++
  [("integrator_receipt_lost_claims_total", [none]),
   ("integrator_worker_sweep_failures_total", [none]),
   ("integrator_product_queries_total", queries.counts.keys.map some),
   ("integrator_product_query_duration_seconds_sum", queries.durationSums.keys.map some),
   ("integrator_product_query_duration_seconds_count", queries.durationCounts.keys.map some)]

/-- The families of the worker, with the labels that they have. -/
def workerGroups (worker : Option WorkerGauge) : List (String × List (Option String)) :=
  [("integrator_worker_running", (worker.map fun _ => none).toList),
   ("integrator_worker_last_sweep_timestamp_seconds",
     ((worker.bind WorkerGauge.lastSweepEpoch).map fun _ => none).toList)]

theorem series_ageSample (family : String) (age : Option ℚ) :
    (ageSample family age).map Sample.series =
      (ageLabels age).map fun label => (family, label) := by
  cases age <;> rfl

theorem series_workerSamples (worker : Option WorkerGauge) :
    (workerSamples worker).map Sample.series = seriesOf (workerGroups worker) := by
  rcases worker with _ | ⟨running, _ | epoch⟩ <;> rfl

theorem series_counterSamples (ingress : IngressCounters) (queries : QueryCounters) :
    (ingress.samples ++ queries.samples).map Sample.series =
      seriesOf (counterGroups ingress queries) := by
  simp [IngressCounters.samples, QueryCounters.samples, counterGroups, seriesOf, Sample.series,
    Dict.keys, List.map_flatMap, List.flatMap_map, Function.comp_def]

theorem keyedBy_countsByState (states allowed : List String) :
    KeyedBy allowed (countsByState states allowed) where
  nodup := Dict.nodup_keys_ofPairs _
  keys v := by
    rw [countsByState, ← Dict.get?_isSome_iff,
      Dict.get?_ofPairs_map fun state => (states.count state : ℤ)]
    by_cases hv : v ∈ allowed <;> simp [hv]

/-! ### A snapshot that is answered -/

/-- The integers that a snapshot makes floats. -/
def snapshotNumbers (V : Vocabulary) (marker : String) (driver : Driver) (ledger : Ledger)
    (moment : DateTime) : List ℤ :=
  ledger.healthReport.map Prod.snd ++
    (countsByState (ledger.deliveries.map DeliveryAttempt.state) V.deliveryStates).map Prod.snd ++
    (countsByState (ledger.receipts.map InboxReceipt.state) V.receiptStates).map Prod.snd ++
    [(ledger.deliveries.countP (IsDue driver moment ·) : ℤ),
     (ledger.deliveries.countP (IsLeased driver moment ·) : ℤ),
     (ledger.deliveries.countP (IsLeaseExpired driver moment ·) : ℤ),
     (ledger.receipts.countP (IsRetained marker ·) : ℤ)]

theorem exists_floatSample_iff {family : String} {value : ℤ} {label : Option String} :
    (∃ sample, floatSample family value label = .ok sample) ↔
      PyFormat.floatOfInt value ≠ none := by
  constructor
  · rintro ⟨sample, h⟩
    obtain ⟨x, hx, -⟩ := floatSample_eq_ok h
    exact hx ▸ Option.some_ne_none x
  · intro h
    obtain ⟨x, hx⟩ := Option.ne_none_iff_exists'.mp h
    exact ⟨_, by rw [floatSample, hx]; rfl⟩

theorem exists_labelledSamples_iff {family : String} {entries : Dict String ℤ} :
    (∃ samples, labelledSamples family entries = .ok samples) ↔
      ∀ n ∈ entries.map Prod.snd, PyFormat.floatOfInt n ≠ none := by
  rw [List.forall_mem_map]
  constructor
  · rintro ⟨samples, h⟩ entry hentry
    exact exists_floatSample_iff.mp (Except.ok_of_mapM_eq_ok h entry hentry)
  · intro h
    exact Except.exists_mapM_eq_ok fun entry hentry => exists_floatSample_iff.mpr (h entry hentry)

/-- An age is appended at any moment that is not naive. -/
theorem exists_appendAge {moment : DateTime} (h : moment.utcoffset.isSome) (samples : List Sample)
    (family : String) (stamp : Option DateTime) :
    ∃ samples', appendAge samples family moment stamp = .ok samples' := by
  cases stamp with
  | none => exact ⟨_, rfl⟩
  | some stamp => exact ⟨_, by rw [appendAge, ageSeconds, if_pos h]; rfl⟩

theorem isFloat_labelledSamples {family : String} {entries : Dict String ℤ}
    (h : labelledSamples family entries = .ok samples) :
    ∀ sample ∈ samples, ∃ x, sample.value = .float x := by
  intro sample hsample
  obtain ⟨entry, -, hentry⟩ := Except.exists_of_mapM_eq_ok h sample hsample
  obtain ⟨x, -, rfl⟩ := floatSample_eq_ok hentry
  exact ⟨_, rfl⟩

/-- **What a snapshot reads**: its series, floats for their values, and that everything it counts
is a float. -/
theorem snapshot_reads {now : Option DateTime} {clock : DateTime}
    (h : snapshot V marker driver ledger now clock = .ok samples) :
    (∃ g, samples.map Sample.series = seriesOf (snapshotGroups V ledger g)) ∧
      (∀ sample ∈ samples, ∃ x, sample.value = .float x) ∧
      ∀ n ∈ snapshotNumbers V marker driver ledger (now.getD clock),
        PyFormat.floatOfInt n ≠ none := by
  rw [snapshot] at h
  obtain ⟨signals, hsignals, h⟩ := Except.bind_eq_ok.mp h
  obtain ⟨deliveryDepths, hdeliveries, h⟩ := Except.bind_eq_ok.mp h
  obtain ⟨receiptDepths, hreceipts, h⟩ := Except.bind_eq_ok.mp h
  obtain ⟨_, hdue, h⟩ := Except.bind_eq_ok.mp h
  obtain ⟨_, hleased, h⟩ := Except.bind_eq_ok.mp h
  obtain ⟨_, hexpired, h⟩ := Except.bind_eq_ok.mp h
  -- The four ages; each appends to the samples before it.
  obtain ⟨_, h₁, h⟩ := Except.bind_eq_ok.mp h
  obtain ⟨_, h₂, h⟩ := Except.bind_eq_ok.mp h
  obtain ⟨_, h₃, h⟩ := Except.bind_eq_ok.mp h
  obtain ⟨_, hretained, h₄⟩ := Except.bind_eq_ok.mp h
  obtain ⟨due, hdueFloat, rfl⟩ := floatSample_eq_ok hdue
  obtain ⟨leased, hleasedFloat, rfl⟩ := floatSample_eq_ok hleased
  obtain ⟨expired, hexpiredFloat, rfl⟩ := floatSample_eq_ok hexpired
  obtain ⟨retained, hretainedFloat, rfl⟩ := floatSample_eq_ok hretained
  obtain ⟨dueAge, -, rfl⟩ := appendAge_eq_ok h₁
  obtain ⟨unprocessedAge, -, rfl⟩ := appendAge_eq_ok h₂
  obtain ⟨checkpointAge, -, rfl⟩ := appendAge_eq_ok h₃
  obtain ⟨retainedAge, -, rfl⟩ := appendAge_eq_ok h₄
  refine ⟨⟨⟨due, leased, expired, dueAge, unprocessedAge, checkpointAge, retained,
    retainedAge⟩, ?_⟩, ?_, ?_⟩
  · simp only [List.map_append, series_labelledSamples hsignals, series_labelledSamples hdeliveries,
      series_labelledSamples hreceipts, series_ageSample]
    simp [snapshotGroups, seriesOf, Sample.series]
  · simp only [List.forall_mem_append, List.forall_mem_cons]
    have hage : ∀ family age, ∀ sample ∈ ageSample family age, ∃ x, sample.value = .float x := by
      rintro family age sample hsample
      obtain ⟨a, -, rfl⟩ := mem_ageSample.mp hsample
      exact ⟨_, rfl⟩
    exact ⟨⟨⟨⟨⟨⟨⟨⟨isFloat_labelledSamples hsignals, isFloat_labelledSamples hdeliveries⟩,
      isFloat_labelledSamples hreceipts⟩, ⟨_, rfl⟩, ⟨_, rfl⟩, ⟨_, rfl⟩, List.forall_mem_nil _⟩,
      hage _ _⟩, hage _ _⟩, hage _ _⟩, ⟨_, rfl⟩, List.forall_mem_nil _⟩, hage _ _⟩
  · simp only [snapshotNumbers, List.forall_mem_append, List.forall_mem_cons]
    exact ⟨⟨⟨exists_labelledSamples_iff.mp ⟨_, hsignals⟩,
      exists_labelledSamples_iff.mp ⟨_, hdeliveries⟩⟩,
      exists_labelledSamples_iff.mp ⟨_, hreceipts⟩⟩,
      ne_of_eq_of_ne hdueFloat (Option.some_ne_none _),
      ne_of_eq_of_ne hleasedFloat (Option.some_ne_none _),
      ne_of_eq_of_ne hexpiredFloat (Option.some_ne_none _),
      ne_of_eq_of_ne hretainedFloat (Option.some_ne_none _), List.forall_mem_nil _⟩

/-- **A snapshot is answered iff** everything it counts is a float, at a moment that is not
naive. -/
theorem exists_snapshot_iff {now : Option DateTime} {clock : DateTime}
    (haware : (now.getD clock).utcoffset.isSome) :
    (∃ samples, snapshot V marker driver ledger now clock = .ok samples) ↔
      ∀ n ∈ snapshotNumbers V marker driver ledger (now.getD clock),
        PyFormat.floatOfInt n ≠ none := by
  refine ⟨fun ⟨samples, h⟩ => (snapshot_reads h).2.2, fun h => ?_⟩
  simp only [snapshotNumbers, List.forall_mem_append, List.forall_mem_cons] at h
  obtain ⟨⟨⟨hsignals, hdeliveries⟩, hreceipts⟩, hdue, hleased, hexpired, hretained, -⟩ := h
  unfold snapshot
  refine Except.exists_bind_eq_ok (exists_labelledSamples_iff.mpr hsignals) fun _ => ?_
  refine Except.exists_bind_eq_ok (exists_labelledSamples_iff.mpr hdeliveries) fun _ => ?_
  refine Except.exists_bind_eq_ok (exists_labelledSamples_iff.mpr hreceipts) fun _ => ?_
  refine Except.exists_bind_eq_ok (exists_floatSample_iff.mpr hdue) fun _ => ?_
  refine Except.exists_bind_eq_ok (exists_floatSample_iff.mpr hleased) fun _ => ?_
  refine Except.exists_bind_eq_ok (exists_floatSample_iff.mpr hexpired) fun _ => ?_
  refine Except.exists_bind_eq_ok (exists_appendAge haware _ _ _) fun _ => ?_
  refine Except.exists_bind_eq_ok (exists_appendAge haware _ _ _) fun _ => ?_
  refine Except.exists_bind_eq_ok (exists_appendAge haware _ _ _) fun _ => ?_
  refine Except.exists_bind_eq_ok (exists_floatSample_iff.mpr hretained) fun _ => ?_
  exact exists_appendAge haware _ _ _

/-! ### What is declared -/

theorem eq_none_of_mem_ageLabels {age : Option ℚ} {label : Option String}
    (h : label ∈ ageLabels age) : label = none := by
  cases age with
  | none => cases h
  | some a => exact List.mem_singleton.mp h

/-- **A snapshot names what is declared**, except for a signal that the module has and the
vocabulary has not. -/
theorem undeclared_snapshot_iff {g : Gauges} {sample : Sample}
    (h : sample.series ∈ seriesOf (snapshotGroups V ledger g)) :
    Undeclared V sample ↔ ∃ signal ∈ ledger.healthReport.keys,
      sample.series = ("integrator_health_signal", some signal) ∧
        signal ∉ V.healthSignals.1 := by
  have hdeclared : ∀ name : String, name = sample.family → name ≠ "integrator_health_signal" →
      ¬ Undeclared V sample → (Undeclared V sample ↔ ∃ signal ∈ ledger.healthReport.keys,
        sample.series = ("integrator_health_signal", some signal) ∧
          signal ∉ V.healthSignals.1) := by
    refine fun _ hname hne hnot => iff_of_false hnot ?_
    rintro ⟨signal, -, hseries, -⟩
    exact hne (hname.trans (Prod.mk.inj hseries).1)
  obtain ⟨group, hgroup, hname, hlabel⟩ := mem_seriesOf.mp h
  simp only [snapshotGroups, List.mem_cons, List.not_mem_nil, or_false] at hgroup
  rcases hgroup with rfl | rfl | rfl | rfl | rfl | rfl | rfl | rfl | rfl | rfl | rfl
  · obtain ⟨signal, hsignal, hsome⟩ := List.mem_map.mp hlabel
    rw [undeclared_iff (@mem_families V 0 _ rfl) hname]
    constructor
    · rintro (⟨hnone, -⟩ | ⟨-, hv⟩)
      · cases hnone
      · exact ⟨signal, hsignal, Prod.ext hname.symm hsome.symm, fun hmem => hv _ hmem hsome.symm⟩
    · rintro ⟨signal', -, hseries, hnot⟩
      refine .inr ⟨Option.some_ne_none _, fun v hv hsame => hnot ?_⟩
      exact Option.some.inj (hsame.symm.trans (Prod.mk.inj hseries).2) ▸ hv
  -- The depths name the states they are asked for.
  · obtain ⟨state, hstate, hsome⟩ := List.mem_map.mp hlabel
    refine hdeclared "integrator_delivery_queue_depth" hname (by decide)
      (not_undeclared_of_mem (@mem_families V 1 _ rfl) hname (Option.some_ne_none _) hsome.symm ?_)
    exact ((keyedBy_countsByState _ _).keys state).mp hstate
  · obtain ⟨state, hstate, hsome⟩ := List.mem_map.mp hlabel
    refine hdeclared "integrator_receipt_queue_depth" hname (by decide)
      (not_undeclared_of_mem (@mem_families V 2 _ rfl) hname (Option.some_ne_none _) hsome.symm ?_)
    exact ((keyedBy_countsByState _ _).keys state).mp hstate
  -- The others take no label.
  · exact hdeclared "integrator_delivery_due" hname (by decide)
      (not_undeclared_plain (@mem_families V 3 _ rfl) hname rfl (List.mem_singleton.mp hlabel))
  · exact hdeclared "integrator_delivery_leased" hname (by decide)
      (not_undeclared_plain (@mem_families V 4 _ rfl) hname rfl (List.mem_singleton.mp hlabel))
  · exact hdeclared "integrator_delivery_lease_expired" hname (by decide)
      (not_undeclared_plain (@mem_families V 5 _ rfl) hname rfl (List.mem_singleton.mp hlabel))
  · exact hdeclared "integrator_delivery_oldest_due_age_seconds" hname (by decide)
      (not_undeclared_plain (@mem_families V 6 _ rfl) hname rfl (eq_none_of_mem_ageLabels hlabel))
  · exact hdeclared "integrator_receipt_oldest_unprocessed_age_seconds" hname (by decide)
      (not_undeclared_plain (@mem_families V 7 _ rfl) hname rfl (eq_none_of_mem_ageLabels hlabel))
  · exact hdeclared "integrator_checkpoint_oldest_lag_seconds" hname (by decide)
      (not_undeclared_plain (@mem_families V 8 _ rfl) hname rfl (eq_none_of_mem_ageLabels hlabel))
  · exact hdeclared "integrator_receipt_retained_payloads" hname (by decide)
      (not_undeclared_plain (@mem_families V 9 _ rfl) hname rfl (List.mem_singleton.mp hlabel))
  · exact hdeclared "integrator_receipt_oldest_retained_payload_age_seconds" hname (by decide)
      (not_undeclared_plain (@mem_families V 10 _ rfl) hname rfl (eq_none_of_mem_ageLabels hlabel))

theorem not_undeclared_worker {worker : Option WorkerGauge} :
    ∀ sample ∈ workerSamples worker, ¬ Undeclared V sample := by
  intro sample hsample
  rcases worker with _ | ⟨running, _ | epoch⟩
  · cases hsample
  · obtain rfl := List.mem_singleton.mp hsample
    exact not_undeclared_plain (@mem_families V 16 _ rfl) rfl rfl rfl
  · rcases List.mem_pair.mp hsample with rfl | rfl
    · exact not_undeclared_plain (@mem_families V 16 _ rfl) rfl rfl rfl
    · exact not_undeclared_plain (@mem_families V 17 _ rfl) rfl rfl rfl

/-! ### Scrapes that are answered -/

variable {ingress : IngressCounters} {queries : QueryCounters} {found : Found}

variable (V marker ingress queries found) in
/-- What a scrape needs: the database answers, the module's verdict names declared signals, and
everything that is counted is a float. -/
structure Scrapable (ledger : Ledger) : Prop where
  reads : found.ledger = some ledger
  signals : ∀ signal ∈ ledger.healthReport.keys, signal ∈ V.healthSignals.1
  gauges : ∀ n ∈ snapshotNumbers V marker found.driver ledger found.moment,
    PyFormat.floatOfInt n ≠ none
  counters : ∀ sample ∈ ingress.samples ++ queries.samples, Writable sample.value

theorem collect_eq_ok_iff : collect V marker ingress queries found = .ok samples ↔
    ∃ ledger gauges, found.ledger = some ledger ∧
      snapshot V marker found.driver ledger none found.moment = .ok gauges ∧
      samples = gauges ++ (ingress.samples ++ queries.samples) ++ workerSamples found.worker := by
  constructor
  · intro h
    obtain ⟨ledger, hledger, h⟩ := Except.bind_eq_ok.mp h
    obtain ⟨gauges, hgauges, h⟩ := Except.bind_eq_ok.mp h
    refine ⟨ledger, gauges, Except.ofOption_eq_ok.mp hledger, Except.mapError_eq_ok.mp hgauges, ?_⟩
    rw [← List.append_assoc]
    exact (Except.ok.inj h).symm
  · rintro ⟨ledger, gauges, hledger, hgauges, rfl⟩
    rw [collect, hledger, Except.ofOption, Except.ok_bind, hgauges, ← List.append_assoc]
    rfl

/-- **What is collected names what is declared**, except for a signal that is not. -/
theorem undeclared_collected_iff {ledger : Ledger} {gauges : List Sample} (hi : Keyed V ingress)
    (hq : queries.Keyed)
    (h : snapshot V marker found.driver ledger none found.moment = .ok gauges) :
    (∃ sample ∈ gauges ++ (ingress.samples ++ queries.samples) ++ workerSamples found.worker,
        Undeclared V sample) ↔
      ∃ signal ∈ ledger.healthReport.keys, signal ∉ V.healthSignals.1 := by
  obtain ⟨⟨g, hseries⟩, -, -⟩ := snapshot_reads h
  have hgauge : ∀ sample ∈ gauges, sample.series ∈ seriesOf (snapshotGroups V ledger g) :=
    fun sample hsample => hseries ▸ List.mem_map_of_mem hsample
  constructor
  · rintro ⟨sample, hsample, hundeclared⟩
    rcases List.mem_append.mp hsample with hsample | hworker
    · rcases List.mem_append.mp hsample with hsample | hcounter
      · obtain ⟨signal, hsignal, -, hnot⟩ :=
          (undeclared_snapshot_iff (hgauge sample hsample)).mp hundeclared
        exact ⟨signal, hsignal, hnot⟩
      · rcases List.mem_append.mp hcounter with hcounter | hcounter
        · exact absurd hundeclared (samples_declared_ingress hi sample hcounter)
        · exact absurd hundeclared (samples_declared_queries hq sample hcounter)
    · exact absurd hundeclared (not_undeclared_worker sample hworker)
  · rintro ⟨signal, hsignal, hnot⟩
    have hmem : ("integrator_health_signal", some signal) ∈ gauges.map Sample.series := by
      rw [hseries]
      exact mem_seriesOf.mpr ⟨_, List.mem_cons_self, rfl, List.mem_map_of_mem hsignal⟩
    obtain ⟨sample, hsample, hsame⟩ := List.mem_map.mp hmem
    refine ⟨sample, List.mem_append_left _ (List.mem_append_left _ hsample), ?_⟩
    exact (undeclared_snapshot_iff (hgauge sample hsample)).mpr ⟨signal, hsignal, hsame, hnot⟩

/-- What is collected can be written iff the counters can: the gauges are floats. -/
theorem writable_collected_iff {ledger : Ledger} {gauges : List Sample}
    (h : snapshot V marker found.driver ledger none found.moment = .ok gauges) :
    (∀ sample ∈ gauges ++ (ingress.samples ++ queries.samples) ++ workerSamples found.worker,
        Writable sample.value) ↔
      ∀ sample ∈ ingress.samples ++ queries.samples, Writable sample.value := by
  have hfloat : ∀ sample : Sample, (∃ x, sample.value = .float x) → Writable sample.value := by
    rintro sample ⟨x, hx⟩ n hn
    rw [hx] at hn
    cases hn
  obtain ⟨-, hgauges, -⟩ := snapshot_reads h
  constructor
  · exact fun hall sample hsample =>
      hall sample (List.mem_append_left _ (List.mem_append_right _ hsample))
  · intro hcounters
    simp only [List.forall_mem_append] at hcounters ⊢
    refine ⟨⟨fun sample hsample => hfloat sample (hgauges sample hsample), hcounters⟩, ?_⟩
    intro sample hsample
    refine hfloat sample ?_
    rcases hworker : found.worker with _ | ⟨running, _ | epoch⟩ <;> rw [hworker] at hsample
    · cases hsample
    · obtain rfl := List.mem_singleton.mp hsample
      exact ⟨_, rfl⟩
    · rcases List.mem_pair.mp hsample with rfl | rfl
      · exact ⟨_, rfl⟩
      · exact ⟨_, rfl⟩

/-- **A scrape is answered iff** the database answers, the module's verdict names declared signals,
and everything that is counted is a float. -/
theorem exists_scrape_iff (hi : Keyed V ingress) (hq : queries.Keyed) :
    (∃ text, scrape V printable marker ingress queries found = .ok text) ↔
      ∃ ledger, Scrapable V marker ingress queries found ledger := by
  constructor
  · rintro ⟨text, h⟩
    obtain ⟨samples, hcollect, h⟩ := Except.bind_eq_ok.mp h
    obtain ⟨ledger, gauges, hledger, hgauges, rfl⟩ := collect_eq_ok_iff.mp hcollect
    have hrender := Except.mapError_eq_ok.mp h
    obtain ⟨ls, hlines, -⟩ := Except.map_eq_ok.mp hrender
    have hwritable := (writable_collected_iff hgauges).mp (writable_of_lines hlines)
    refine ⟨ledger, hledger, ?_, (exists_snapshot_iff rfl).mp ⟨gauges, hgauges⟩, hwritable⟩
    by_contra hsignals
    push Not at hsignals
    obtain ⟨message, hrefused⟩ := (@render_eq_undeclaredLabel_iff V printable _).1.mpr
      ((undeclared_collected_iff hi hq hgauges).mpr hsignals)
    rw [hrefused] at hrender
    cases hrender
  · rintro ⟨ledger, hreads, hsignals, hnumbers, hcounters⟩
    have haware : ((none : Option DateTime).getD found.moment).utcoffset.isSome := rfl
    obtain ⟨gauges, hgauges⟩ := (exists_snapshot_iff haware).mpr hnumbers
    have hcollect : collect V marker ingress queries found = .ok _ :=
      collect_eq_ok_iff.mpr ⟨ledger, gauges, hreads, hgauges, rfl⟩
    have hdeclared : ∀ sample ∈ gauges ++ (ingress.samples ++ queries.samples) ++
        workerSamples found.worker, ¬ Undeclared V sample := by
      intro sample hsample hundeclared
      obtain ⟨signal, hsignal, hnot⟩ :=
        (undeclared_collected_iff hi hq hgauges).mp ⟨sample, hsample, hundeclared⟩
      exact hnot (hsignals signal hsignal)
    rcases @render_of_declared V printable _ hdeclared with ⟨-, text, htext⟩ | ⟨hnot, -⟩
    · refine ⟨text, ?_⟩
      rw [scrape, hcollect, Except.ok_bind, htext]
      rfl
    · exact absurd ((writable_collected_iff hgauges).mpr hcounters) hnot

/-- Collecting raises what reading the ledgers raises. -/
theorem collect_eq_error {e : ScrapeError}
    (h : collect V marker ingress queries found = .error e) :
    e = .database ∨ ∃ e', e = .snapshot e' := by
  unfold collect at h
  cases hledger : found.ledger with
  | none =>
    rw [hledger] at h
    exact .inl (Except.error.inj h).symm
  | some ledger =>
    rw [hledger, Except.ofOption, Except.ok_bind] at h
    cases hgauges : snapshot V marker found.driver ledger none found.moment with
    | error e' =>
      rw [hgauges] at h
      exact .inr ⟨e', (Except.error.inj h).symm⟩
    | ok gauges =>
      rw [hgauges] at h
      cases h

/-- **A scrape refuses a label** only where the module's verdict names a signal that is not
declared. -/
theorem signal_of_scrape_undeclared (hi : Keyed V ingress) (hq : queries.Keyed) {message : String}
    (h : scrape V printable marker ingress queries found =
      .error (.render (.undeclaredLabel message))) :
    ∃ ledger, found.ledger = some ledger ∧
      ∃ signal ∈ ledger.healthReport.keys, signal ∉ V.healthSignals.1 := by
  cases hcollect : collect V marker ingress queries found with
  | error e =>
    rw [scrape, hcollect] at h
    obtain rfl := Except.error.inj h
    rcases collect_eq_error hcollect with hnot | ⟨e', hnot⟩ <;> cases hnot
  | ok samples =>
    rw [scrape, hcollect, Except.ok_bind] at h
    obtain ⟨ledger, gauges, hledger, hgauges, rfl⟩ := collect_eq_ok_iff.mp hcollect
    refine ⟨ledger, hledger, (undeclared_collected_iff hi hq hgauges).mp ?_⟩
    refine (@render_eq_undeclaredLabel_iff V printable _).1.mp ⟨message, ?_⟩
    cases hrender : render V printable (gauges ++ (ingress.samples ++ queries.samples) ++
      workerSamples found.worker) with
    | ok text =>
      rw [hrender] at h
      cases h
    | error e =>
      rw [hrender] at h
      exact congrArg _ (ScrapeError.render.inj (Except.error.inj h))

end DotmacIntegrator.Telemetry
