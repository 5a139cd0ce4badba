import DotmacIntegrator.Foundation.PyFloatSum
import DotmacIntegrator.Telemetry.Counters

/-!
# The query counters

A query is counted once under its outcome, together with its duration. Where the outcome is not
declared, or the duration is no duration, it is refused before anything is counted.

## Main definitions

* `QueryCounters`, `QueryCounters.record`: the counters, and how a query is recorded
* `QueryCall.Accepted`: a query that is counted
* `Advanced`: one more query

## Main results

* `recordQuery_cases`: a query is refused, and changes nothing, or is counted
-/

namespace DotmacIntegrator.Telemetry

/-- `QueryCounters`. -/
structure QueryCounters where
  counts : Dict String ℕ
  durationCounts : Dict String ℕ
  durationSums : Dict String PyFloat

/-- The counters of a new process. -/
def QueryCounters.start : QueryCounters where
  counts := fromkeys queryOutcomes.1 0
  durationCounts := fromkeys queryOutcomes.1 0
  durationSums := fromkeys queryOutcomes.1 (.finite 0)

/-- A duration that is counted. -/
def MeasuredDuration (seconds : PyFloat) : Prop := seconds.IsFinite ∧ seconds.lt 0 = false

instance (seconds : PyFloat) : Decidable (MeasuredDuration seconds) :=
  inferInstanceAs (Decidable (_ ∧ _))

theorem MeasuredDuration.nonneg {seconds : PyFloat} (h : MeasuredDuration seconds) :
    seconds.Nonneg := by
  refine ⟨?_, h.2⟩
  rintro rfl
  exact absurd h.1 (by decide)

variable (printable : Char → Bool)

/-- A call of `QueryCounters.record`. -/
structure QueryCall where
  outcome : String
  durationSeconds : PyFloat
  deriving DecidableEq, Repr

/-- `QueryCounters.record`. -/
def QueryCounters.record (q : QueryCounters) (call : QueryCall) :
    QueryCounters × Option CounterError :=
  match checked printable call.outcome queryOutcomes.1 "query outcome" with
  | some e => (q, some e)
  | none =>
    if ¬ MeasuredDuration call.durationSeconds then
      (q, some (.valueError "query duration must be finite and non-negative"))
    else
      match q.counts.get? call.outcome with
      | none => (q, some (.keyError call.outcome))
      | some count =>
        let q := { q with counts := q.counts.set call.outcome (count + 1) }
        match q.durationCounts.get? call.outcome with
        | none => (q, some (.keyError call.outcome))
        | some count =>
          let q := { q with durationCounts := q.durationCounts.set call.outcome (count + 1) }
          match q.durationSums.get? call.outcome with
          | none => (q, some (.keyError call.outcome))
          | some sum =>
            let sum := sum.add call.durationSeconds
            ({ q with durationSums := q.durationSums.set call.outcome sum }, none)

/-- `QueryCounters.samples`. -/
def QueryCounters.samples (q : QueryCounters) : List Sample :=
  (q.counts.map fun (outcome, count) =>
    ⟨"integrator_product_queries_total", .int count, some outcome⟩) ++
  (q.durationSums.map fun (outcome, duration) =>
    ⟨"integrator_product_query_duration_seconds_sum", .float duration, some outcome⟩) ++
  (q.durationCounts.map fun (outcome, count) =>
    ⟨"integrator_product_query_duration_seconds_count", .int count, some outcome⟩)

/-! ### One more query -/

/-- A query that is counted. -/
def QueryCall.Accepted (call : QueryCall) : Prop :=
  call.outcome ∈ queryOutcomes.1 ∧ MeasuredDuration call.durationSeconds

instance (call : QueryCall) : Decidable call.Accepted := inferInstanceAs (Decidable (_ ∧ _))

/-- The outcomes that are counted are the declared ones. -/
structure QueryCounters.Keyed (q : QueryCounters) : Prop where
  counts : KeyedBy queryOutcomes.1 q.counts
  durationCounts : KeyedBy queryOutcomes.1 q.durationCounts
  durationSums : KeyedBy queryOutcomes.1 q.durationSums

/-- The queries of an outcome. -/
def QueryCounters.count (q : QueryCounters) (outcome : String) : ℕ :=
  (q.counts.get? outcome).getD 0

/-- The durations of an outcome. -/
def QueryCounters.durationCount (q : QueryCounters) (outcome : String) : ℕ :=
  (q.durationCounts.get? outcome).getD 0

/-- What the durations of an outcome add up to. -/
def QueryCounters.durationSum (q : QueryCounters) (outcome : String) : PyFloat :=
  (q.durationSums.get? outcome).getD (.finite 0)

/-- The counters go on from `q` to `q'` by one query. -/
structure Advanced (q q' : QueryCounters) (call : QueryCall) : Prop where
  keyed : q'.Keyed
  count : ∀ outcome,
    q'.count outcome =
      if outcome = call.outcome then q.count outcome + 1 else q.count outcome
  durationCount : ∀ outcome,
    q'.durationCount outcome =
      if outcome = call.outcome then q.durationCount outcome + 1 else q.durationCount outcome
  durationSum : ∀ outcome,
    q'.durationSum outcome =
      if outcome = call.outcome then (q.durationSum outcome).add call.durationSeconds
      else q.durationSum outcome

theorem QueryCounters.keyed_start : QueryCounters.start.Keyed where
  counts := keyedBy_fromkeys queryOutcomes.1 0
  durationCounts := keyedBy_fromkeys queryOutcomes.1 0
  durationSums := keyedBy_fromkeys queryOutcomes.1 (PyFloat.finite 0)

variable {printable}

/-- What is counted under a key goes on, and nothing else does. -/
theorem getD_set {α : Type} {d : Dict String α} {key : String} {a : α} (h : d.get? key = some a)
    (f : α → α) (default : α) (v : String) :
    ((d.set key (f a)).get? v).getD default =
      if v = key then f ((d.get? v).getD default) else (d.get? v).getD default := by
  rw [Dict.get?_set]
  by_cases hv : v = key
  · rw [if_pos hv, if_pos hv.symm, hv, h, Option.getD_some, Option.getD_some]
  · rw [if_neg hv, if_neg (Ne.symm hv)]

/-- **A query is refused, and changes nothing, or is counted.** -/
theorem recordQuery_cases {q : QueryCounters} (hq : q.Keyed) (call : QueryCall) :
    (¬ call.Accepted ∧ ∃ e, q.record printable call = (q, some e)) ∨
      (call.Accepted ∧ ∃ q', q.record printable call = (q', none) ∧ Advanced q q' call) := by
  unfold QueryCounters.record
  cases hchecked : checked printable call.outcome queryOutcomes.1 "query outcome" with
  | some e =>
    refine .inl ⟨fun haccepted => ?_, e, rfl⟩
    rw [(checked_eq_none_iff printable).mpr haccepted.1] at hchecked
    cases hchecked
  | none =>
    have houtcome := (checked_eq_none_iff printable).mp hchecked
    by_cases hduration : MeasuredDuration call.durationSeconds
    · obtain ⟨count, hcount⟩ := hq.counts.exists_get? houtcome
      obtain ⟨durations, hdurations⟩ := hq.durationCounts.exists_get? houtcome
      obtain ⟨sum, hsum⟩ := hq.durationSums.exists_get? houtcome
      refine .inr ⟨⟨houtcome, hduration⟩,
        ⟨q.counts.set call.outcome (count + 1), q.durationCounts.set call.outcome (durations + 1),
          q.durationSums.set call.outcome (sum.add call.durationSeconds)⟩, ?_, ?_, ?_, ?_, ?_⟩
      · simp only [hduration, not_true, if_false, hcount, hdurations, hsum]
      · exact ⟨hq.counts.set houtcome _, hq.durationCounts.set houtcome _,
          hq.durationSums.set houtcome _⟩
      · exact getD_set hcount (· + 1) 0
      · exact getD_set hdurations (· + 1) 0
      · exact getD_set hsum (fun sum => sum.add call.durationSeconds) (.finite 0)
    · exact .inl ⟨fun haccepted => hduration haccepted.2, _, by rw [if_pos hduration]⟩

end DotmacIntegrator.Telemetry
