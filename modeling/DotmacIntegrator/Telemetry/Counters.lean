import DotmacIntegrator.Telemetry.Emission

/-!
# The ingress counters

The counters of the process start with every label value they may have. A call that names another
one is refused before anything is counted; a call that is accepted counts what it reports.

## Main definitions

* `IngressCounters`, `IngressCounters.record`: the counters, and how each call is recorded
* `IngressCall.events`: what a call reports
* `Keyed`: the label values of the counters are the declared ones

## Main results

* `record_cases`: a call is refused, and changes nothing, or counts what it reports
-/

namespace DotmacIntegrator.Telemetry

/-- What recording raises. -/
inductive CounterError
  | undeclaredLabel (message : String)
  | valueError (message : String)
  | keyError (key : String)
  deriving DecidableEq, Repr

variable (V : Vocabulary) (printable : Char → Bool)

/-- `_checked`: what is raised of a value that is not allowed. -/
def checked (value : String) (allowed : List String) (what : String) : Option CounterError :=
  if value ∈ allowed then none
  else some (.undeclaredLabel
    (PyRepr.string printable value ++ " is not a declared " ++ what ++ ". Add it to the closed " ++
      "set in telemetry.py (" ++ PyRepr.strings printable (allowed.mergeSort fun a b => a ≤ b) ++
      ") after deciding it is safe to publish — a label value reaches every dashboard and every " ++
      "ticket that quotes one"))

theorem checked_eq_none_iff {value : String} {allowed : List String} {what : String} :
    checked printable value allowed what = none ↔ value ∈ allowed := by
  simp [checked]

/-- `dict.fromkeys(values, start)`. -/
def fromkeys {α : Type} (values : List String) (start : α) : Dict String α :=
  Dict.ofPairs (values.map fun value => (value, start))

/-! ### Ingress -/

/-- The counts that have a label. -/
inductive Tally
  | refusals
  | signatures
  | verificationKeyMatches
  | challenges
  | ingress
  | acceptances
  deriving DecidableEq, Repr

/-- The label values of a count. -/
def Tally.allowed : Tally → Declared
  | .refusals => refusalReasons
  | .signatures => signatureOutcomes
  | .verificationKeyMatches => verificationKeyPositions
  | .challenges => challengeOutcomes
  | .ingress => V.ingressCodes
  | .acceptances => V.productAcceptances

/-- `IngressCounters`. -/
structure IngressCounters where
  tallies : Tally → Dict String ℕ
  lostClaims : ℕ
  sweepFailures : ℕ

/-- The counters of a new process. -/
def IngressCounters.start : IngressCounters where
  tallies tally := fromkeys (tally.allowed V).1 0
  lostClaims := 0
  sweepFailures := 0

/-- One more under a label value. -/
def IngressCounters.bump (c : IngressCounters) (tally : Tally) (key : String) :
    IngressCounters × Option CounterError :=
  match (c.tallies tally).get? key with
  | none => (c, some (.keyError key))
  | some n =>
    ({ c with tallies := Function.update c.tallies tally ((c.tallies tally).set key (n + 1)) },
      none)

/-- A value that is checked first. -/
def IngressCounters.recordChecked (c : IngressCounters) (tally : Tally) (what value : String) :
    IngressCounters × Option CounterError :=
  match checked printable value (tally.allowed V).1 what with
  | some e => (c, some e)
  | none => c.bump tally value

/-- A signature that verified, or did not. -/
def signatureOutcome (accepted : Bool) : String := if accepted then "accepted" else "rejected"

/-- The class of a verification key. -/
def positionClass (position : ℤ) : String := if position = 0 then "first" else "later"

namespace IngressCounters

variable (c : IngressCounters)

def recordRefusal (reason : String) : IngressCounters × Option CounterError :=
  c.recordChecked V printable .refusals "refusal reason" reason

def recordSignature (outcome : String) : IngressCounters × Option CounterError :=
  c.recordChecked V printable .signatures "signature outcome" outcome

/-- `record_verification`: the result is one signature, and a match for each position. -/
def recordVerification (accepted : Bool) (matchedSecretPositions : List ℤ) :
    IngressCounters × Option CounterError :=
  match c.bump .signatures (signatureOutcome accepted) with
  | (c, some e) => (c, some e)
  | (c, none) =>
    RaisingLoop.run (fun c position => c.bump .verificationKeyMatches (positionClass position)) c
      matchedSecretPositions

def recordChallenge (outcome : String) : IngressCounters × Option CounterError :=
  c.recordChecked V printable .challenges "challenge outcome" outcome

def recordIngressOutcome (code : String) : IngressCounters × Option CounterError :=
  c.recordChecked V printable .ingress "ingress outcome code" code

def recordProductAcceptance (acceptance : String) : IngressCounters × Option CounterError :=
  c.recordChecked V printable .acceptances "product acceptance" acceptance

def recordLostClaim : IngressCounters × Option CounterError :=
  ({ c with lostClaims := c.lostClaims + 1 }, none)

def recordSweepFailure : IngressCounters × Option CounterError :=
  ({ c with sweepFailures := c.sweepFailures + 1 }, none)

end IngressCounters

/-- A call of a recording method. -/
inductive IngressCall
  | refusal (reason : String)
  | signature (outcome : String)
  | verification (accepted : Bool) (matchedSecretPositions : List ℤ)
  | challenge (outcome : String)
  | ingressOutcome (code : String)
  | productAcceptance (acceptance : String)
  | lostClaim
  | sweepFailure

/-- How a call is recorded. -/
def IngressCounters.record (c : IngressCounters) :
    IngressCall → IngressCounters × Option CounterError
  | .refusal reason => c.recordRefusal V printable reason
  | .signature outcome => c.recordSignature V printable outcome
  | .verification accepted positions => c.recordVerification accepted positions
  | .challenge outcome => c.recordChallenge V printable outcome
  | .ingressOutcome code => c.recordIngressOutcome V printable code
  | .productAcceptance acceptance => c.recordProductAcceptance V printable acceptance
  | .lostClaim => c.recordLostClaim
  | .sweepFailure => c.recordSweepFailure

/-- The family of a count. -/
def Tally.family : Tally → String
  | .refusals => "integrator_ingress_refusals_total"
  | .signatures => "integrator_ingress_signature_verifications_total"
  | .verificationKeyMatches => "integrator_ingress_verification_key_matches_total"
  | .challenges => "integrator_ingress_challenges_total"
  | .ingress => "integrator_ingress_outcomes_total"
  | .acceptances => "integrator_receipt_deliveries_total"

/-- The counts, in the order they are sampled. -/
def Tally.all : List Tally :=
  [.refusals, .signatures, .verificationKeyMatches, .challenges, .ingress, .acceptances]

/-- `IngressCounters.samples`. -/
def IngressCounters.samples (c : IngressCounters) : List Sample :=
  (Tally.all.flatMap fun tally => (c.tallies tally).map fun (value, count) =>
    ⟨tally.family, .int count, some value⟩) ++
  [⟨"integrator_receipt_lost_claims_total", .int c.lostClaims, none⟩,
    ⟨"integrator_worker_sweep_failures_total", .int c.sweepFailures, none⟩]

/-! ### Dictionaries of the declared values -/

variable {V printable}

/-- The keys of a dictionary are the values, each once. -/
structure KeyedBy {α : Type} (values : List String) (d : Dict String α) : Prop where
  nodup : d.keys.Nodup
  keys : ∀ v, v ∈ d.keys ↔ v ∈ values

theorem keyedBy_fromkeys {α : Type} (values : List String) (start : α) :
    KeyedBy values (fromkeys values start) where
  nodup := Dict.nodup_keys_ofPairs _
  keys v := by
    rw [fromkeys, ← Dict.get?_isSome_iff, Dict.get?_ofPairs_map fun _ => start]
    by_cases hv : v ∈ values <;> simp [hv]

theorem KeyedBy.set {α : Type} {values : List String} {d : Dict String α} (h : KeyedBy values d)
    {key : String} (hkey : key ∈ values) (a : α) : KeyedBy values (d.set key a) where
  nodup := Dict.nodup_keys_set h.nodup key a
  keys v := by rw [Dict.keys_set, if_pos ((h.keys key).mpr hkey), h.keys]

theorem KeyedBy.exists_get? {α : Type} {values : List String} {d : Dict String α}
    (h : KeyedBy values d) {key : String} (hkey : key ∈ values) : ∃ a, d.get? key = some a :=
  Option.isSome_iff_exists.mp (Dict.get?_isSome_iff.mpr ((h.keys key).mpr hkey))

theorem KeyedBy.mem {α : Type} {values : List String} {d : Dict String α} (h : KeyedBy values d)
    {entry : String × α} (hentry : entry ∈ d) : entry.1 ∈ values :=
  (h.keys entry.1).mp (Dict.mem_keys_of_mem hentry)

/-! ### What a call reports -/

/-- What is counted, once. -/
inductive CounterEvent
  | tallied (tally : Tally) (value : String)
  | lostClaim
  | sweepFailure
  deriving DecidableEq, Repr

/-- What a call reports. -/
def IngressCall.events : IngressCall → List CounterEvent
  | .refusal reason => [.tallied .refusals reason]
  | .signature outcome => [.tallied .signatures outcome]
  | .verification accepted positions =>
    .tallied .signatures (signatureOutcome accepted) ::
      positions.map fun position => .tallied .verificationKeyMatches (positionClass position)
  | .challenge outcome => [.tallied .challenges outcome]
  | .ingressOutcome code => [.tallied .ingress code]
  | .productAcceptance acceptance => [.tallied .acceptances acceptance]
  | .lostClaim => [.lostClaim]
  | .sweepFailure => [.sweepFailure]

/-- How often something was counted. -/
def IngressCounters.count (c : IngressCounters) : CounterEvent → ℕ
  | .tallied tally value => ((c.tallies tally).get? value).getD 0
  | .lostClaim => c.lostClaims
  | .sweepFailure => c.sweepFailures

/-- The label values of the counters are the declared ones. -/
def Keyed (V : Vocabulary) (c : IngressCounters) : Prop :=
  ∀ tally : Tally, KeyedBy (tally.allowed V).1 (c.tallies tally)

/-- The counters go on from `c` to `c'` by counting the events. -/
structure Counting (V : Vocabulary) (c c' : IngressCounters) (events : List CounterEvent) :
    Prop where
  keyed : Keyed V c'
  count : ∀ event, c'.count event = c.count event + events.count event

theorem keyed_start : Keyed V (.start V) :=
  fun tally => keyedBy_fromkeys (tally.allowed V).1 0

theorem Counting.trans {c c' c'' : IngressCounters} {events events' : List CounterEvent}
    (h : Counting V c c' events) (h' : Counting V c' c'' events') :
    Counting V c c'' (events ++ events') where
  keyed := h'.keyed
  count event := by rw [h'.count, h.count, List.count_append, Nat.add_assoc]

/-- A declared value is counted once. -/
theorem bump_eq {c : IngressCounters} (hc : Keyed V c) {tally : Tally} {key : String}
    (hkey : key ∈ (tally.allowed V).1) :
    ∃ c', c.bump tally key = (c', none) ∧ Counting V c c' [.tallied tally key] := by
  obtain ⟨n, hn⟩ := (hc tally).exists_get? hkey
  refine ⟨_, by rw [IngressCounters.bump, hn], ?_, ?_⟩
  · intro other
    by_cases hother : other = tally
    · subst hother
      simpa using (hc other).set hkey (n + 1)
    · simpa [hother] using hc other
  · intro event
    cases event with
    | lostClaim | sweepFailure => simp [IngressCounters.count]
    | tallied other value =>
      by_cases hother : other = tally
      · subst hother
        by_cases hvalue : value = key
        · simp [IngressCounters.count, Dict.get?_set, hvalue, hn]
        · simp [IngressCounters.count, Dict.get?_set, Ne.symm hvalue]
      · simp [IngressCounters.count, hother, Ne.symm hother]

/-- An event under a declared value, or under none. -/
def CounterEvent.Declared (V : Vocabulary) : CounterEvent → Prop
  | .tallied tally value => value ∈ (tally.allowed V).1
  | .lostClaim | .sweepFailure => True

instance : (event : CounterEvent) → Decidable (event.Declared V)
  | .tallied tally value => inferInstanceAs (Decidable (value ∈ (tally.allowed V).1))
  | .lostClaim | .sweepFailure => inferInstanceAs (Decidable True)

/-- A call that is counted: what it reports is declared. -/
def IngressCall.Accepted (V : Vocabulary) (call : IngressCall) : Prop :=
  ∀ event ∈ call.events, event.Declared V

instance (call : IngressCall) : Decidable (call.Accepted V) :=
  inferInstanceAs (Decidable (∀ event ∈ call.events, _))

/-- A call is refused, and changes nothing, or is recorded with what it reports. -/
def RecordedAs (V : Vocabulary) (c : IngressCounters) (call : IngressCall)
    (recorded : IngressCounters × Option CounterError) : Prop :=
  (¬ call.Accepted V ∧ ∃ e, recorded = (c, some e)) ∨
    (call.Accepted V ∧ ∃ c', recorded = (c', none) ∧ Counting V c c' call.events)

/-- A value that is checked is refused unless it is declared. -/
theorem recordChecked_cases {c : IngressCounters} (hc : Keyed V c) {call : IngressCall}
    {tally : Tally} {value : String} (hevents : call.events = [.tallied tally value])
    (what : String) : RecordedAs V c call (c.recordChecked V printable tally what value) := by
  have haccepted : call.Accepted V ↔ value ∈ (tally.allowed V).1 := by
    rw [IngressCall.Accepted, hevents]
    exact List.forall_mem_singleton
  unfold IngressCounters.recordChecked
  cases hchecked : checked printable value (tally.allowed V).1 what with
  | some e =>
    refine .inl ⟨fun h => ?_, e, rfl⟩
    rw [(checked_eq_none_iff printable).mpr (haccepted.mp h)] at hchecked
    cases hchecked
  | none =>
    have hvalue := (checked_eq_none_iff printable).mp hchecked
    obtain ⟨c', hbump, hcounted⟩ := bump_eq hc hvalue
    exact .inr ⟨haccepted.mpr hvalue, c', hbump, by rwa [hevents]⟩

theorem signatureOutcome_mem (accepted : Bool) :
    signatureOutcome accepted ∈ signatureOutcomes.1 := by
  cases accepted <;> decide

theorem positionClass_mem (position : ℤ) : positionClass position ∈ verificationKeyPositions.1 := by
  unfold positionClass
  split <;> decide

/-- The positions of a verification are counted one after the other. -/
theorem run_positions {c : IngressCounters} (hc : Keyed V c) (positions : List ℤ) :
    ∃ c', RaisingLoop.run
        (fun c position => c.bump .verificationKeyMatches (positionClass position)) c positions =
          (c', none) ∧
      Counting V c c' (positions.map fun position =>
        .tallied .verificationKeyMatches (positionClass position)) := by
  induction positions generalizing c with
  | nil => exact ⟨c, rfl, hc, fun event => rfl⟩
  | cons position positions ih =>
    obtain ⟨c₁, hbump, hcounted⟩ := @bump_eq V c hc .verificationKeyMatches _
      (positionClass_mem position)
    obtain ⟨c', hrun, hrest⟩ := ih hcounted.keyed
    refine ⟨c', ?_, hcounted.trans hrest⟩
    rw [RaisingLoop.run, hbump]
    exact hrun

/-- A verification is always recorded: what it reports is declared. -/
theorem recordVerification_cases {c : IngressCounters} (hc : Keyed V c) (accepted : Bool)
    (positions : List ℤ) :
    RecordedAs V c (.verification accepted positions)
      (c.recordVerification accepted positions) := by
  obtain ⟨c₁, hbump, hcounted⟩ := @bump_eq V c hc .signatures _ (signatureOutcome_mem accepted)
  obtain ⟨c', hrun, hrest⟩ := run_positions hcounted.keyed positions
  refine .inr ⟨?_, c', ?_, hcounted.trans hrest⟩
  · intro event hevent
    rcases List.mem_cons.mp hevent with rfl | hevent
    · exact signatureOutcome_mem accepted
    · obtain ⟨position, -, rfl⟩ := List.mem_map.mp hevent
      exact positionClass_mem position
  · rw [IngressCounters.recordVerification, hbump]
    exact hrun

/-- **A call is refused, and changes nothing, or counts what it reports.** -/
theorem record_cases {c : IngressCounters} (hc : Keyed V c) (call : IngressCall) :
    RecordedAs V c call (c.record V printable call) := by
  cases call with
  | refusal reason => exact recordChecked_cases hc rfl _
  | signature outcome => exact recordChecked_cases hc rfl _
  | verification accepted positions => exact recordVerification_cases hc accepted positions
  | challenge outcome => exact recordChecked_cases hc rfl _
  | ingressOutcome code => exact recordChecked_cases hc rfl _
  | productAcceptance acceptance => exact recordChecked_cases hc rfl _
  | lostClaim =>
    refine .inr ⟨List.forall_mem_singleton.mpr trivial, _, rfl, hc, ?_⟩
    intro event
    cases event <;> simp [IngressCounters.count, IngressCall.events]
  | sweepFailure =>
    refine .inr ⟨List.forall_mem_singleton.mpr trivial, _, rfl, hc, ?_⟩
    intro event
    cases event <;> simp [IngressCounters.count, IngressCall.events]

end DotmacIntegrator.Telemetry
