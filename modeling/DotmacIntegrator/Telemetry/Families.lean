import Mathlib.Tactic.TypeStar

/-!
# Metric families

Every metric declares the one label it may carry and the complete set of that label's values. The
values that come from the installed module are parameters; none of them is empty.

## Main definitions

* `MetricFamily`: a metric, and every label value it may carry
* `Vocabulary`, `families`: the module's label values, and the declared families
-/

namespace DotmacIntegrator.Telemetry

/-- What a metric measures. -/
inductive MetricKind
  | gauge
  | counter
  deriving DecidableEq, Repr

/-- The kind as the exposition names it. -/
def MetricKind.text : MetricKind → String
  | .gauge => "gauge"
  | .counter => "counter"

/-- Label values that are declared: at least one. -/
abbrev Declared := {values : List String // values ≠ []}

/-- A metric, and the complete set of label values it may carry: none exactly when it takes no
label. -/
structure MetricFamily where
  name : String
  help : String
  kind : MetricKind
  label : Option String
  allowed : List String
  declared : label = none ↔ allowed = []

/-- A family without a label. -/
def MetricFamily.plain (name help : String) (kind : MetricKind) : MetricFamily :=
  ⟨name, help, kind, none, [], by simp⟩

/-- A family with a label. -/
def MetricFamily.labelled (name help : String) (kind : MetricKind) (label : String)
    (allowed : Declared) : MetricFamily :=
  ⟨name, help, kind, some label, allowed, by simp [allowed.property]⟩

/-! ### Label values -/

/-- Why an operator's request was refused. -/
def refusalReasons : Declared :=
  ⟨["malformed_identifier", "not_found", "not_repairable"], by decide⟩

/-- A signature either verified or did not. -/
def signatureOutcomes : Declared := ⟨["accepted", "rejected"], by decide⟩

/-- Which verification material matched. -/
def verificationKeyPositions : Declared := ⟨["first", "later"], by decide⟩

/-- A provider's verification handshake. -/
def challengeOutcomes : Declared := ⟨["served", "refused"], by decide⟩

/-- Every result the product query contract permits. -/
def queryOutcomes : Declared :=
  ⟨["ok", "provider_unavailable", "unauthorized_provider_session", "not_found", "invalid_query",
    "timeout", "malformed_provider_response"], by decide⟩

/-- The label values taken from the installed module. -/
structure Vocabulary where
  ingressCodes : Declared
  productAcceptances : Declared
  deliveryStates : Declared
  receiptStates : Declared
  healthSignals : Declared

/-! ### Families -/

/-- `FAMILIES`: every declared family, in the order they are rendered. -/
def families (V : Vocabulary) : List MetricFamily :=
  [.labelled "integrator_health_signal"
      ("dotmac_integration.health_report counts, by signal. The MODULE's verdict about what is " ++
       "stuck; this deployment does not recompute it.")
      .gauge "signal" V.healthSignals,
   .labelled "integrator_delivery_queue_depth"
      "Outbound deliveries by lifecycle state."
      .gauge "state" V.deliveryStates,
   .labelled "integrator_receipt_queue_depth"
      "Inbound receipts by lifecycle state."
      .gauge "state" V.receiptStates,
   .plain "integrator_delivery_due"
      "Deliveries whose next attempt is due now and which no worker holds." .gauge,
   .plain "integrator_delivery_leased"
      "Deliveries a worker currently holds a live lease on." .gauge,
   .plain "integrator_delivery_lease_expired"
      "Deliveries whose lease has expired — a worker died holding them." .gauge,
   .plain "integrator_delivery_oldest_due_age_seconds"
      ("Queue lag: how long the oldest due delivery has been waiting. Omitted when nothing is " ++
       "due — a zero would read as healthy.") .gauge,
   .plain "integrator_receipt_oldest_unprocessed_age_seconds"
      ("Age of the oldest inbound receipt that has not reached an outcome. A count alone hides " ++
       "one item stuck since March.") .gauge,
   .plain "integrator_checkpoint_oldest_lag_seconds"
      "How long since the least recently advanced polling cursor moved." .gauge,
   .plain "integrator_receipt_retained_payloads"
      "Receipts still holding an un-redacted provider payload." .gauge,
   .plain "integrator_receipt_oldest_retained_payload_age_seconds"
      ("Age of the oldest un-redacted payload. Deliberately carries no retention period: the " ++
       "period is the deployment's decision and lives in the alert rule, not in this process.")
      .gauge,
   .labelled "integrator_receipt_deliveries_total"
      ("Receipts landed in the destination application, by what the product said. " ++
       "`already_applied` is the idempotency key working, not a duplicate; `indeterminate` " ++
       "needs a human.")
      .counter "acceptance" V.productAcceptances,
   .plain "integrator_receipt_lost_claims_total"
      ("Settlements refused because the lease expired mid-call and another worker took over. A " ++
       "rising rate means the lease is shorter than the product's real latency — invisible " ++
       "otherwise, and eventually work done twice.") .counter,
   .labelled "integrator_product_queries_total"
      "Synchronous product queries by normalized outcome."
      .counter "outcome" queryOutcomes,
   .labelled "integrator_product_query_duration_seconds_sum"
      "Cumulative synchronous product query duration by normalized outcome."
      .counter "outcome" queryOutcomes,
   .labelled "integrator_product_query_duration_seconds_count"
      "Observed synchronous product query durations by normalized outcome."
      .counter "outcome" queryOutcomes,
   .plain "integrator_worker_running"
      "1 when the background sweep task is alive, 0 otherwise." .gauge,
   .plain "integrator_worker_last_sweep_timestamp_seconds"
      ("Unix time of the last COMPLETED lease sweep. Omitted until the first one finishes, so a " ++
       "never-started worker cannot look recent.") .gauge,
   .plain "integrator_worker_sweep_failures_total"
      ("Lease sweeps that raised. The loop survives them, which is exactly why they need " ++
       "counting.") .counter,
   .labelled "integrator_ingress_refusals_total"
      "Requests refused, by declared reason."
      .counter "reason" refusalReasons,
   .labelled "integrator_ingress_outcomes_total"
      ("Inbound provider requests by the ENGINE's own outcome code. Includes the success codes: " ++
       "a refusal rate is meaningless without a denominator, and 'accepted' falling to zero is " ++
       "the interesting alert.")
      .counter "code" V.ingressCodes,
   .labelled "integrator_ingress_signature_verifications_total"
      "Signature checks, by outcome."
      .counter "outcome" signatureOutcomes,
   .labelled "integrator_ingress_verification_key_matches_total"
      "Authenticated checks by ordered verification-key position class."
      .counter "position" verificationKeyPositions,
   .labelled "integrator_ingress_challenges_total"
      "Provider verification handshakes, by outcome."
      .counter "outcome" challengeOutcomes]

end DotmacIntegrator.Telemetry
