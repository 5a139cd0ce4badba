import DotmacIntegrator.Telemetry.Scrape

/-!
# Scrapes of one process

The scrapes of one process, whatever the ledgers hold, have the series of the counters in common,
each of them once, and the number on such a series never falls: what is counted is only added to,
and both the sum of durations and the digits that are printed are rounded in order.

## Main definitions

* `Scrape`: a scrape of a process, by how much had been recorded when it read the counters
* `Exposed`: a text that has no series twice, and every series of the counters
* `RowGrows`: a row of the same series whose number is not below

## Main results

* `below_run_append`: what is counted only grows
* `printed_mono`: the numbers that are printed keep the order of the values
* `exposed_of_text`: what a text exposes
* `scrape_contract`: what the scrapes of one process have in common
-/

namespace DotmacIntegrator.Telemetry

open GeneralFormat SignificantDigits

variable {V : Vocabulary} {printable : Char → Bool} {marker : String} {driver : Driver}
  {ledger : Ledger} {samples : List Sample} {ingress : IngressCounters} {queries : QueryCounters}
  {found : Found}

/-! ### Counters that grow -/

/-- A value that is not above the other one. -/
def SampleValue.Below : SampleValue → SampleValue → Prop
  | .int m, .int n => m ≤ n
  | .float x, .float y => x.Below y
  | _, _ => False

/-- What was counted, and not more than was counted later. -/
structure Counters.Below (c c' : Counters) : Prop where
  event : ∀ event, c.ingress.count event ≤ c'.ingress.count event
  count : ∀ outcome, c.queries.count outcome ≤ c'.queries.count outcome
  durationCount : ∀ outcome, c.queries.durationCount outcome ≤ c'.queries.durationCount outcome
  durationSum : ∀ outcome, (c.queries.durationSum outcome).Below (c'.queries.durationSum outcome)

/-- **Counters only grow** as calls are recorded. -/
theorem below_run_append (calls more : List RecordCall) :
    (Counters.run V printable calls).Below (Counters.run V printable (calls ++ more)) := by
  obtain ⟨-, htotals⟩ := @totals_run V printable calls
  obtain ⟨-, htotals'⟩ := @totals_run V printable (calls ++ more)
  rw [List.filter_append] at htotals'
  refine ⟨fun event => ?_, fun outcome => ?_, fun outcome => ?_, fun outcome => ?_⟩
  · rw [htotals.event, htotals'.event, List.flatMap_append, List.count_append]
    exact Nat.le_add_right _ _
  · rw [htotals.count, htotals'.count, List.flatMap_append, List.length_append]
    exact Nat.le_add_right _ _
  · rw [htotals.durationCount, htotals'.durationCount, List.flatMap_append, List.length_append]
    exact Nat.le_add_right _ _
  · have hnonneg : ∀ calls : List RecordCall, ∀ duration ∈
        (calls.filter (RecordCall.Accepted V ·)).flatMap (RecordCall.durations outcome),
          duration.Nonneg := by
      intro calls duration hduration
      obtain ⟨call, hcall, hmem⟩ := List.mem_flatMap.mp hduration
      have haccepted : call.Accepted V := by simpa using List.of_mem_filter hcall
      exact (measured_of_mem_durations haccepted hmem).nonneg
    rw [htotals.durationSum, htotals'.durationSum, List.flatMap_append, List.foldl_append]
    have htotal := (PyFloat.below_foldl_add (hnonneg calls) PyFloat.total_zero).1
    exact (PyFloat.below_foldl_add (hnonneg more) htotal).2

/-- What has an entry for each of some values has one for the values of the other. -/
theorem KeyedBy.exists_entry {α : Type} {values : List String} {d d' : Dict String α}
    (h : KeyedBy values d) (h' : KeyedBy values d') {v : String} {a : α} (hmem : (v, a) ∈ d) :
    d.get? v = some a ∧ ∃ a', (v, a') ∈ d' ∧ d'.get? v = some a' := by
  obtain ⟨a', ha'⟩ := h'.exists_get? (h.mem hmem)
  exact ⟨Dict.get?_of_mem h.nodup hmem, a', Dict.mem_of_get? ha', ha'⟩

variable {c c' : Counters}

/-- A sample of the same series that is not below. -/
def Grows (sample sample' : Sample) : Prop :=
  sample'.series = sample.series ∧ sample.value.Below sample'.value

theorem grows_ingress (hc : Keyed V c.ingress) (hc' : Keyed V c'.ingress) (h : c.Below c') :
    ∀ sample ∈ c.ingress.samples, ∃ sample' ∈ c'.ingress.samples, Grows sample sample' := by
  intro sample hsample
  rcases List.mem_append.mp hsample with htally | hplain
  · obtain ⟨tally, hall, hentry⟩ := List.mem_flatMap.mp htally
    obtain ⟨⟨value, count⟩, hmem, rfl⟩ := List.mem_map.mp hentry
    obtain ⟨hcount, count', hmem', hcount'⟩ := (hc tally).exists_entry (hc' tally) hmem
    refine ⟨⟨tally.family, .int count', some value⟩, List.mem_append_left _
      (List.mem_flatMap.mpr ⟨tally, hall, List.mem_map.mpr ⟨_, hmem', rfl⟩⟩), rfl, ?_⟩
    have hle := h.event (.tallied tally value)
    rw [IngressCounters.count, IngressCounters.count, hcount, hcount'] at hle
    exact Int.ofNat_le.mpr hle
  · rcases List.mem_pair.mp hplain with rfl | rfl
    · exact ⟨_, List.mem_append_right _ List.mem_cons_self, rfl,
        Int.ofNat_le.mpr (h.event .lostClaim)⟩
    · exact ⟨_, List.mem_append_right _ (List.mem_cons_of_mem _ List.mem_cons_self), rfl,
        Int.ofNat_le.mpr (h.event .sweepFailure)⟩

theorem grows_queries (hc : c.queries.Keyed) (hc' : c'.queries.Keyed) (h : c.Below c') :
    ∀ sample ∈ c.queries.samples, ∃ sample' ∈ c'.queries.samples, Grows sample sample' := by
  intro sample hsample
  rcases List.mem_append.mp hsample with hsample | hdurationCount
  · rcases List.mem_append.mp hsample with hcount | hdurationSum
    · obtain ⟨⟨outcome, count⟩, hmem, rfl⟩ := List.mem_map.mp hcount
      obtain ⟨hget, count', hmem', hget'⟩ := hc.counts.exists_entry hc'.counts hmem
      refine ⟨_, List.mem_append_left _ (List.mem_append_left _
        (List.mem_map.mpr ⟨_, hmem', rfl⟩)), rfl, ?_⟩
      have hle := h.count outcome
      rw [QueryCounters.count, QueryCounters.count, hget, hget'] at hle
      exact Int.ofNat_le.mpr hle
    · obtain ⟨⟨outcome, sum⟩, hmem, rfl⟩ := List.mem_map.mp hdurationSum
      obtain ⟨hget, sum', hmem', hget'⟩ := hc.durationSums.exists_entry hc'.durationSums hmem
      refine ⟨_, List.mem_append_left _ (List.mem_append_right _
        (List.mem_map.mpr ⟨_, hmem', rfl⟩)), rfl, ?_⟩
      have hbelow := h.durationSum outcome
      rw [QueryCounters.durationSum, QueryCounters.durationSum, hget, hget'] at hbelow
      exact hbelow
  · obtain ⟨⟨outcome, count⟩, hmem, rfl⟩ := List.mem_map.mp hdurationCount
    obtain ⟨hget, count', hmem', hget'⟩ := hc.durationCounts.exists_entry hc'.durationCounts hmem
    refine ⟨_, List.mem_append_right _ (List.mem_map.mpr ⟨_, hmem', rfl⟩), rfl, ?_⟩
    have hle := h.durationCount outcome
    rw [QueryCounters.durationCount, QueryCounters.durationCount, hget, hget'] at hle
    exact Int.ofNat_le.mpr hle

/-! ### What a scraper reads -/

/-- The number on the line of a value. -/
def SampleValue.printed : SampleValue → Option ℚ
  | .int n => (PyFormat.floatOfInt n).map (roundSigned 10 6)
  | .float x => x.value?.map (roundSigned 10 6)

theorem lineNumber_sampleLine {family : MetricFamily} {sample : Sample} {line : String}
    (h : sampleLine family sample = .ok line) : lineNumber line = sample.value.printed := by
  obtain ⟨number, hnumber, rfl⟩ := Except.map_eq_ok.mp h
  obtain ⟨cs, rfl, hspace⟩ := space_not_mem_valueText hnumber
  rw [lineNumber_append hspace]
  cases hvalue : sample.value with
  | int n =>
    rw [hvalue] at hnumber
    cases hn : PyFormat.int n with
    | none => simp [valueText, hn] at hnumber
    | some ds =>
      simp only [valueText, hn, Except.ok.injEq] at hnumber
      obtain ⟨q, hq, -⟩ := Option.map_eq_some_iff.mp hn
      rw [← String.ofList_inj.mp hnumber, PyFormat.readDecimal_int hn, SampleValue.printed, hq,
        Option.map_some, PyFormat.floatOfInt_eq_some hq]
      rfl
  | float x =>
    rw [hvalue] at hnumber
    simp only [valueText, Except.ok.injEq] at hnumber
    rw [← String.ofList_inj.mp hnumber, PyFormat.readDecimal_float]
    rfl

/-- **The numbers on the lines keep the order of the values.** -/
theorem printed_mono {v v' : SampleValue} (h : v.Below v') {q r : ℚ} (hq : v.printed = some q)
    (hr : v'.printed = some r) : q ≤ r := by
  cases v with
  | int m =>
    cases v' with
    | float y => exact h.elim
    | int n =>
      obtain ⟨x, hx, rfl⟩ := Option.map_eq_some_iff.mp hq
      obtain ⟨y, hy, rfl⟩ := Option.map_eq_some_iff.mp hr
      obtain rfl := PyFormat.floatOfInt_eq_some hx
      obtain rfl := PyFormat.floatOfInt_eq_some hy
      have hle : (m : ℚ) ≤ n := by exact_mod_cast h
      exact roundSigned_mono (by decide) (by decide)
        (roundSigned_mono (by decide) (by decide) hle)
  | float x =>
    cases v' with
    | int n => exact h.elim
    | float y =>
      obtain ⟨a, ha, rfl⟩ := Option.map_eq_some_iff.mp hq
      obtain ⟨b, hb, rfl⟩ := Option.map_eq_some_iff.mp hr
      obtain ⟨a', ha', hle⟩ := h b hb
      obtain rfl := Option.some.inj (ha.symm.trans ha')
      exact roundSigned_mono (by decide) (by decide) hle

/-! ### The series of the counters -/

/-- The names of the families that count. -/
def counterNames : List String :=
  ((families someVocabulary).filter fun family => family.kind = .counter).map MetricFamily.name

theorem mem_counterNames {family : MetricFamily} (h : family ∈ families V)
    (hkind : family.kind = .counter) : family.name ∈ counterNames := by
  have hnames : ((families V).filter fun family => family.kind = .counter).map
      MetricFamily.name = counterNames := rfl
  rw [← hnames]
  exact List.mem_map_of_mem (List.mem_filter.mpr ⟨h, decide_eq_true hkind⟩)

/-- The names of the families of a snapshot are always the same. -/
theorem names_snapshotGroups (V : Vocabulary) (ledger : Ledger) (g : Gauges) :
    (snapshotGroups V ledger g).map Prod.fst =
      (snapshotGroups someVocabulary (onePending none) (onePendingGauges none)).map Prod.fst := rfl

/-- A family whose name is none of the counters' has no series of a counter. -/
theorem not_counter_of_mem {groups : List (String × List (Option String))}
    (h : ∀ name ∈ groups.map Prod.fst, name ∉ counterNames) {sample : Sample}
    (hsample : sample.series ∈ seriesOf groups) : sample.family ∉ counterNames := by
  obtain ⟨group, hgroup, hname, -⟩ := mem_seriesOf.mp hsample
  exact hname ▸ h group.1 (List.mem_map_of_mem hgroup)

theorem not_counter_snapshot {g : Gauges} {sample : Sample}
    (h : sample.series ∈ seriesOf (snapshotGroups V ledger g)) : sample.family ∉ counterNames := by
  refine not_counter_of_mem ?_ h
  rw [names_snapshotGroups]
  decide

theorem not_counter_worker {worker : Option WorkerGauge} {sample : Sample}
    (h : sample ∈ workerSamples worker) : sample.family ∉ counterNames := by
  have hnames : ∀ name ∈ (workerGroups worker).map Prod.fst, name ∉ counterNames := by
    rw [show (workerGroups worker).map Prod.fst = (workerGroups none).map Prod.fst from rfl]
    decide
  exact not_counter_of_mem hnames (series_workerSamples worker ▸ List.mem_map_of_mem h)

/-- A label that a family takes. -/
def MetricFamily.Takes (family : MetricFamily) (label : Option String) : Prop :=
  match family.label with
  | none => label = none
  | some _ => ∃ v ∈ family.allowed, label = some v

/-- **Every series of a counter** is among those of the counters. -/
theorem mem_counterGroups (hi : Keyed V ingress) (hq : queries.Keyed) {family : MetricFamily}
    (hfamily : family ∈ families V) (hkind : family.kind = .counter) {label : Option String}
    (hlabel : family.Takes label) :
    (family.name, label) ∈ seriesOf (counterGroups ingress queries) := by
  have htally : ∀ tally : Tally, tally ∈ Tally.all → ∀ v ∈ (tally.allowed V).1,
      (tally.family, some v) ∈ seriesOf (counterGroups ingress queries) := by
    intro tally htally v hv
    refine mem_seriesOf.mpr ⟨_, List.mem_append_left _ (List.mem_map_of_mem htally), rfl, ?_⟩
    exact List.mem_map_of_mem (((hi tally).keys v).mpr hv)
  have hother : ∀ (i : ℕ) (group : String × List (Option String)),
      (counterGroups ingress queries)[i]? = some group → ∀ l ∈ group.2,
        (group.1, l) ∈ seriesOf (counterGroups ingress queries) := fun i group hi l hl =>
    mem_seriesOf.mpr ⟨group, List.mem_of_getElem? hi, rfl, hl⟩
  simp only [families, List.mem_cons, List.not_mem_nil, or_false] at hfamily
  rcases hfamily with rfl | rfl | rfl | rfl | rfl | rfl | rfl | rfl | rfl | rfl | rfl | rfl | rfl |
    rfl | rfl | rfl | rfl | rfl | rfl | rfl | rfl | rfl | rfl | rfl
  -- The gauges count nothing.
  all_goals cases hkind
  · obtain ⟨v, hv, rfl⟩ := hlabel
    exact htally .acceptances (by decide) v hv
  · obtain rfl : label = none := hlabel
    exact hother 6 _ rfl none List.mem_cons_self
  · obtain ⟨v, hv, rfl⟩ := hlabel
    exact hother 8 _ rfl (some v) (List.mem_map_of_mem ((hq.counts.keys v).mpr hv))
  · obtain ⟨v, hv, rfl⟩ := hlabel
    exact hother 9 _ rfl (some v) (List.mem_map_of_mem ((hq.durationSums.keys v).mpr hv))
  · obtain ⟨v, hv, rfl⟩ := hlabel
    exact hother 10 _ rfl (some v) (List.mem_map_of_mem ((hq.durationCounts.keys v).mpr hv))
  · obtain rfl : label = none := hlabel
    exact hother 7 _ rfl none List.mem_cons_self
  · obtain ⟨v, hv, rfl⟩ := hlabel
    exact htally .refusals (by decide) v hv
  · obtain ⟨v, hv, rfl⟩ := hlabel
    exact htally .ingress (by decide) v hv
  · obtain ⟨v, hv, rfl⟩ := hlabel
    exact htally .signatures (by decide) v hv
  · obtain ⟨v, hv, rfl⟩ := hlabel
    exact htally .verificationKeyMatches (by decide) v hv
  · obtain ⟨v, hv, rfl⟩ := hlabel
    exact htally .challenges (by decide) v hv

/-! ### Scrapes of one process -/

/-- A scrape of a process: how many calls had been recorded when it read each of the counters, and
what else it found. -/
structure Scrape where
  ingressAt : ℕ
  queriesAt : ℕ
  found : Found

variable (V printable) in
/-- The ingress counters that a scrape reads. -/
def Scrape.ingressRead (s : Scrape) (calls : List RecordCall) : IngressCounters :=
  (Counters.run V printable (calls.take s.ingressAt)).ingress

variable (V printable) in
/-- The query counters that a scrape reads. -/
def Scrape.queriesRead (s : Scrape) (calls : List RecordCall) : QueryCounters :=
  (Counters.run V printable (calls.take s.queriesAt)).queries

variable (V printable marker) in
/-- The text of a scrape. -/
def Scrape.text (s : Scrape) (calls : List RecordCall) : Except ScrapeError String :=
  scrape V printable marker (s.ingressRead V printable calls) (s.queriesRead V printable calls)
    s.found

/-- A text is laid out in blocks: no series is there twice, and every series of a counter is
there. -/
structure Exposed (V : Vocabulary) (text : String) (blocks : List Block) : Prop where
  text : text = "\n".intercalate (blocks.flatMap Block.lines) ++ "\n"
  families : (blocks.map fun block => block.family.name).Nodup
  once : ((blocks.flatMap Block.samples).map Sample.series).Nodup
  counters : ∀ family ∈ Telemetry.families V, family.kind = .counter →
    ∀ label, family.Takes label → ∃ block ∈ blocks, block.family = family ∧
      ∃ row ∈ block.rows, row.1.series = (family.name, label)

/-- A row of a counter, and a row of the same series whose number is not below. -/
def RowGrows (row row' : Sample × String) : Prop :=
  Grows row.1 row'.1 ∧ ∀ q r, lineNumber row.2 = some q → lineNumber row'.2 = some r → q ≤ r

theorem keyed_ingressRead (s : Scrape) (calls : List RecordCall) :
    Keyed V (s.ingressRead V printable calls) :=
  (totals_run (calls.take s.ingressAt)).1.ingress

theorem keyed_queriesRead (s : Scrape) (calls : List RecordCall) :
    (s.queriesRead V printable calls).Keyed :=
  (@totals_run V printable (calls.take s.queriesAt)).1.queries

/-- What was counted earlier is not above what was counted later. -/
theorem below_take {calls : List RecordCall} {m n : ℕ} (h : m ≤ n) :
    (Counters.run V printable (calls.take m)).Below (Counters.run V printable (calls.take n)) := by
  obtain ⟨more, hmore⟩ : calls.take m <+: calls.take n := List.take_prefix_take_left h
  rw [← hmore]
  exact below_run_append _ _

/-- A sample has its row in the block of its family. -/
theorem exists_row {blocks : List Block} (h : Layout V samples blocks) {family : MetricFamily}
    (hfamily : family ∈ families V) {sample : Sample} (hname : sample.family = family.name)
    (hsample : sample ∈ samples) :
    ∃ block ∈ blocks, block.family = family ∧ ∃ row ∈ block.rows, row.1 = sample := by
  have hmem : family ∈ blocks.map Block.family := by
    rw [h.families]
    exact List.mem_filter.mpr ⟨hfamily, List.any_eq_true.mpr ⟨sample, hsample, by simp [hname]⟩⟩
  obtain ⟨block, hblock, rfl⟩ := List.mem_map.mp hmem
  have hrow : sample ∈ block.samples := by
    rw [h.rows block hblock]
    exact List.mem_filter.mpr ⟨hsample, by simp [hname]⟩
  obtain ⟨row, hrow, hsame⟩ := List.mem_map.mp hrow
  exact ⟨block, hblock, rfl, row, hrow, hsame⟩

theorem seriesOf_append (groups groups' : List (String × List (Option String))) :
    seriesOf (groups ++ groups') = seriesOf groups ++ seriesOf groups' :=
  List.flatMap_append

/-- **No series is collected twice.** -/
theorem nodup_collected {ledger : Ledger} (hi : Keyed V ingress) (hq : queries.Keyed)
    (hsignals : (Dict.keys ledger.healthReport).Nodup) (g : Gauges) (worker : Option WorkerGauge) :
    (seriesOf (snapshotGroups V ledger g ++ counterGroups ingress queries ++
      workerGroups worker)).Nodup := by
  have hsome : ∀ {keys : List String}, keys.Nodup → (keys.map some).Nodup :=
    fun h => h.map fun _ _ => Option.some.inj
  have hoption : ∀ label : Option (Option String), label.toList.Nodup := by
    rintro (_ | label)
    · exact List.nodup_nil
    · exact List.nodup_singleton _
  refine nodup_seriesOf ?_ ?_
  · have hnames : (snapshotGroups V ledger g ++ counterGroups ingress queries ++
        workerGroups worker).map Prod.fst =
        (snapshotGroups someVocabulary (onePending none) (onePendingGauges none) ++
          counterGroups (.start someVocabulary) .start ++ workerGroups none).map Prod.fst := rfl
    rw [hnames]
    decide
  · simp only [List.forall_mem_append, snapshotGroups, counterGroups, workerGroups,
      List.forall_mem_cons, List.forall_mem_map]
    refine ⟨⟨⟨hsome hsignals, hsome (keyedBy_countsByState _ _).nodup,
      hsome (keyedBy_countsByState _ _).nodup, List.nodup_singleton _, List.nodup_singleton _,
      List.nodup_singleton _, hoption _, hoption _, hoption _, List.nodup_singleton _, hoption _,
      List.forall_mem_nil _⟩, fun tally _ => hsome (hi tally).nodup, List.nodup_singleton _,
      List.nodup_singleton _, hsome hq.counts.nodup, hsome hq.durationSums.nodup,
      hsome hq.durationCounts.nodup, List.forall_mem_nil _⟩, hoption _, hoption _,
      List.forall_mem_nil _⟩

/-- **A text that is answered** exposes what was collected, and what was collected of the counters
is their samples. -/
theorem exposed_of_text {s : Scrape} {calls : List RecordCall} {text : String}
    (h : s.text V printable marker calls = .ok text) :
    ∃ samples blocks, Layout V samples blocks ∧ Exposed V text blocks ∧
      ∀ sample, sample.family ∈ counterNames → (sample ∈ samples ↔
        sample ∈ (s.ingressRead V printable calls).samples ++
          (s.queriesRead V printable calls).samples) := by
  obtain ⟨samples, hcollect, hrender⟩ := Except.bind_eq_ok.mp h
  have hi := @keyed_ingressRead V printable s calls
  have hq := @keyed_queriesRead V printable s calls
  obtain ⟨ledger, gauges, hledger, hgauges, rfl⟩ := collect_eq_ok_iff.mp hcollect
  obtain ⟨⟨g, hseries⟩, -, -⟩ := snapshot_reads hgauges
  have hrender := Except.mapError_eq_ok.mp hrender
  obtain ⟨ls, hlines, htext⟩ := Except.map_eq_ok.mp hrender
  -- A text was rendered, so that no label was refused.
  have hdeclared : ∀ sample ∈ gauges ++ ((s.ingressRead V printable calls).samples ++
      (s.queriesRead V printable calls).samples) ++ workerSamples s.found.worker,
        ¬ Undeclared V sample := by
    intro sample hsample hundeclared
    obtain ⟨message, hrefused⟩ := (@render_eq_undeclaredLabel_iff V printable _).1.mpr
      ⟨sample, hsample, hundeclared⟩
    rw [hrefused] at hrender
    cases hrender
  obtain ⟨blocks, hlayout, hblocks⟩ :=
    @exists_layout V printable _ hdeclared (writable_of_lines hlines)
  obtain rfl := Except.ok.inj (hlines.symm.trans hblocks)
  have hcollected : (gauges ++ ((s.ingressRead V printable calls).samples ++
      (s.queriesRead V printable calls).samples) ++ workerSamples s.found.worker).map
        Sample.series = seriesOf (snapshotGroups V ledger g ++
          counterGroups (s.ingressRead V printable calls) (s.queriesRead V printable calls) ++
            workerGroups s.found.worker) := by
    rw [List.map_append, List.map_append, hseries, series_counterSamples, series_workerSamples,
      seriesOf_append, seriesOf_append]
  refine ⟨_, blocks, hlayout, ⟨htext.symm, hlayout.once, ?_, ?_⟩, ?_⟩
  · rw [(hlayout.all.map Sample.series).nodup_iff, hcollected]
    exact nodup_collected hi hq (s.found.nodup_signals ledger hledger) g _
  · intro family hfamily hkind label hlabel
    have hmem := mem_counterGroups hi hq hfamily hkind hlabel
    rw [← series_counterSamples] at hmem
    obtain ⟨sample, hsample, hsame⟩ := List.mem_map.mp hmem
    obtain ⟨block, hblock, hown, row, hrow, rfl⟩ := exists_row hlayout hfamily
      (Prod.mk.inj hsame).1 (List.mem_append_left _ (List.mem_append_right _ hsample))
    exact ⟨block, hblock, hown, row, hrow, hsame⟩
  · intro sample hcounter
    refine ⟨fun hsample => ?_, fun hsample =>
      List.mem_append_left _ (List.mem_append_right _ hsample)⟩
    -- Neither the ledgers nor the worker report a counter.
    rcases List.mem_append.mp hsample with hsample | hworker
    · rcases List.mem_append.mp hsample with hgauge | hsample
      · exact absurd hcounter (not_counter_snapshot (hseries ▸ List.mem_map_of_mem hgauge))
      · exact hsample
    · exact absurd hcounter (not_counter_worker hworker)

/-- **The samples of the counters grow** from one scrape to a later one. -/
theorem grows_counterSamples {s s' : Scrape} {calls : List RecordCall}
    (hingress : s.ingressAt ≤ s'.ingressAt) (hqueries : s.queriesAt ≤ s'.queriesAt)
    {sample : Sample} (h : sample ∈ (s.ingressRead V printable calls).samples ++
      (s.queriesRead V printable calls).samples) :
    ∃ sample' ∈ (s'.ingressRead V printable calls).samples ++
      (s'.queriesRead V printable calls).samples, Grows sample sample' := by
  rcases List.mem_append.mp h with h | h
  · obtain ⟨sample', hsample', hgrows⟩ := grows_ingress (keyed_ingressRead s calls)
      (keyed_ingressRead s' calls) (below_take hingress) sample h
    exact ⟨sample', List.mem_append_left _ hsample', hgrows⟩
  · obtain ⟨sample', hsample', hgrows⟩ := grows_queries (@keyed_queriesRead V printable s calls)
      (@keyed_queriesRead V printable s' calls) (below_take hqueries) sample h
    exact ⟨sample', List.mem_append_right _ hsample', hgrows⟩

/-- **What scrapes of one process have in common.** A scrape is answered iff the database answers,
the module's verdict names declared signals and everything counted is a float, and it refuses a
label only for a signal that is not declared. Whatever two scrapes find, each of their texts has no
series twice and every series of every counter, and on each of these the later one shows no smaller
number. -/
theorem scrape_contract (calls : List RecordCall) (s s' : Scrape)
    (hingress : s.ingressAt ≤ s'.ingressAt) (hqueries : s.queriesAt ≤ s'.queriesAt) :
    ((∃ text, s.text V printable marker calls = .ok text) ↔
        ∃ ledger, Scrapable V marker (s.ingressRead V printable calls)
          (s.queriesRead V printable calls) s.found ledger) ∧
      (∀ message, s.text V printable marker calls = .error (.render (.undeclaredLabel message)) →
        ∃ ledger, s.found.ledger = some ledger ∧
          ∃ signal ∈ ledger.healthReport.keys, signal ∉ V.healthSignals.1) ∧
      ∀ text text', s.text V printable marker calls = .ok text →
        s'.text V printable marker calls = .ok text' →
          ∃ blocks blocks', Exposed V text blocks ∧ Exposed V text' blocks' ∧
            ∀ block ∈ blocks, block.family.kind = .counter → ∀ row ∈ block.rows,
              ∃ block' ∈ blocks', block'.family = block.family ∧
                ∃ row' ∈ block'.rows, RowGrows row row' := by
  refine ⟨exists_scrape_iff (keyed_ingressRead s calls) (keyed_queriesRead s calls),
    fun message h => signal_of_scrape_undeclared (keyed_ingressRead s calls)
      (keyed_queriesRead s calls) h, fun text text' h h' => ?_⟩
  obtain ⟨samples, blocks, hlayout, hexposed, hcounters⟩ := exposed_of_text h
  obtain ⟨samples', blocks', hlayout', hexposed', hcounters'⟩ := exposed_of_text h'
  refine ⟨blocks, blocks', hexposed, hexposed', fun block hblock hkind row hrow => ?_⟩
  -- The row is of a sample of the counters, which has grown since.
  have hfamily : block.family ∈ families V := by
    have hmem : block.family ∈ blocks.map Block.family := List.mem_map_of_mem hblock
    rw [hlayout.families] at hmem
    exact List.mem_of_mem_filter hmem
  have hsample : row.1 ∈ samples.filter fun sample => sample.family = block.family.name := by
    rw [← hlayout.rows block hblock]
    exact List.mem_map_of_mem hrow
  obtain ⟨hsample, hname⟩ := List.mem_filter.mp hsample
  have hname : row.1.family = block.family.name := of_decide_eq_true hname
  have hcounter : row.1.family ∈ counterNames := hname ▸ mem_counterNames hfamily hkind
  obtain ⟨sample', hsample', hgrows⟩ := grows_counterSamples hingress hqueries
    ((hcounters row.1 hcounter).mp hsample)
  have hname' : sample'.family = block.family.name := (Prod.mk.inj hgrows.1).1.trans hname
  have hcounter' : sample'.family ∈ counterNames := hname' ▸ mem_counterNames hfamily hkind
  obtain ⟨block', hblock', hsame, row', hrow', rfl⟩ :=
    exists_row hlayout' hfamily hname' ((hcounters' sample' hcounter').mpr hsample')
  refine ⟨block', hblock', hsame, row', hrow', hgrows, fun q r hq hr => ?_⟩
  rw [lineNumber_sampleLine (block.written row hrow)] at hq
  rw [lineNumber_sampleLine (block'.written row' hrow')] at hr
  exact printed_mono hgrows.2 hq hr

/-! ### A claim that is lost between two scrapes -/

/-- One delivery is due, and a worker sweeps. -/
def sweptFound : Found where
  ledger := some (onePending (some 58000000))
  driver := utcDriver
  now := 100000000
  worker := some ⟨true, some (.finite 58)⟩
  nodup_signals := by
    rintro l hl
    obtain rfl := Option.some.inj hl
    exact List.nodup_nil

/-- A claim was lost. -/
def lostClaim : List RecordCall := [.ingress .lostClaim]

/-- What the scrapes need is there. -/
theorem scrapable_swept (n : ℕ) :
    ∃ ledger, Scrapable someVocabulary "redacted"
      ((⟨n, n, sweptFound⟩ : Scrape).ingressRead someVocabulary (fun _ => true) lostClaim)
      ((⟨n, n, sweptFound⟩ : Scrape).queriesRead someVocabulary (fun _ => true) lostClaim)
      sweptFound ledger := by
  refine ⟨_, rfl, nofun, by decide +kernel, ?_⟩
  obtain ⟨hkeyed, htotals⟩ := @totals_run someVocabulary (fun _ => true) (lostClaim.take n)
  refine writable_of_reported hkeyed htotals ?_
  have hreported : reported ((lostClaim.take n).filter (RecordCall.Accepted someVocabulary ·)) ≤
      2 := by
    rcases n with _ | n
    · decide
    · rw [lostClaim, List.take_succ_cons, List.take_nil]
      decide
  calc ((reported _ : ℕ) : ℚ) ≤ 2 := by exact_mod_cast hreported
    _ ≤ 2 ^ 1023 := le_self_pow₀ one_le_two (by decide)

theorem scrape_contract_lostClaim :
    ∃ text text', (⟨0, 0, sweptFound⟩ : Scrape).text someVocabulary (fun _ => true) "redacted"
        lostClaim = .ok text ∧
      (⟨1, 1, sweptFound⟩ : Scrape).text someVocabulary (fun _ => true) "redacted" lostClaim =
        .ok text' ∧
      ∃ blocks blocks', Exposed someVocabulary text blocks ∧ Exposed someVocabulary text' blocks' ∧
        ∀ block ∈ blocks, block.family.kind = .counter → ∀ row ∈ block.rows,
          ∃ block' ∈ blocks', block'.family = block.family ∧
            ∃ row' ∈ block'.rows, RowGrows row row' := by
  obtain ⟨hanswered, -, hgrows⟩ := @scrape_contract someVocabulary (fun _ => true) "redacted"
    lostClaim ⟨0, 0, sweptFound⟩ ⟨1, 1, sweptFound⟩ (Nat.zero_le 1) (Nat.zero_le 1)
  obtain ⟨hanswered', -, -⟩ := @scrape_contract someVocabulary (fun _ => true) "redacted"
    lostClaim ⟨1, 1, sweptFound⟩ ⟨1, 1, sweptFound⟩ le_rfl le_rfl
  obtain ⟨text, htext⟩ := hanswered.mpr (scrapable_swept 0)
  obtain ⟨text', htext'⟩ := hanswered'.mpr (scrapable_swept 1)
  exact ⟨text, text', htext, htext', hgrows text text' htext htext'⟩

end DotmacIntegrator.Telemetry
