import DotmacIntegrator.Telemetry.QueryCounters
import Mathlib.Data.List.Induction

/-!
# The exposition of the counters

The label values the counters start with are those the families allow. So, whatever was called,
their samples are declared, and rendering them is refused only for a count that is no float.

## Main definitions

* `Counters.run`: both counters, after some calls
* `RecordCall.Accepted`, `Counters.Adds`: a call that is counted, and what it adds
* `Totals`: what was counted is what the accepted calls reported

## Main results

* `totals_run`: the counters, after any calls
* `samples_declared`: their samples
* `exposition_closed_and_lossless`: an exposition is refused for a sample that is not declared, and
  has every sample otherwise; and the samples of the counters are declared
-/

namespace DotmacIntegrator.Telemetry

/-- The counters of the process. -/
structure Counters where
  ingress : IngressCounters
  queries : QueryCounters

/-- A call of a recording method. -/
inductive RecordCall
  | ingress (call : IngressCall)
  | query (call : QueryCall)

variable (V : Vocabulary) (printable : Char → Bool)

/-- The counters of a new process. -/
def Counters.start : Counters := ⟨.start V, .start⟩

/-- How a call is recorded. -/
def Counters.record (c : Counters) : RecordCall → Counters × Option CounterError
  | .ingress call =>
    let recorded := c.ingress.record V printable call
    ({ c with ingress := recorded.1 }, recorded.2)
  | .query call =>
    let recorded := c.queries.record printable call
    ({ c with queries := recorded.1 }, recorded.2)

/-- The counters, after some calls. -/
def Counters.run (calls : List RecordCall) : Counters :=
  calls.foldl (fun c call => (c.record V printable call).1) (.start V)

/-- The samples of both counters. -/
def Counters.samples (c : Counters) : List Sample := c.ingress.samples ++ c.queries.samples

/-- A call that is counted. -/
def RecordCall.Accepted : RecordCall → Prop
  | .ingress call => call.Accepted V
  | .query call => call.Accepted

instance : (call : RecordCall) → Decidable (call.Accepted V)
  | .ingress call => inferInstanceAs (Decidable (call.Accepted V))
  | .query call => inferInstanceAs (Decidable call.Accepted)

/-! ### One call -/

/-- The label values of both counters are the declared ones. -/
structure Counters.Keyed (c : Counters) : Prop where
  ingress : Telemetry.Keyed V c.ingress
  queries : c.queries.Keyed

/-- The counters go on from `c` to `c'` by what a call reports. -/
def Counters.Adds (c c' : Counters) : RecordCall → Prop
  | .ingress call => Counting V c.ingress c'.ingress call.events ∧ c'.queries = c.queries
  | .query call => c'.ingress = c.ingress ∧ Advanced c.queries c'.queries call

variable {V printable} {c c' : Counters} {call : RecordCall}

theorem Counters.Adds.keyed (hc : c.Keyed V) (h : c.Adds V c' call) : c'.Keyed V := by
  cases call with
  | ingress call => exact ⟨h.1.keyed, h.2 ▸ hc.queries⟩
  | query call => exact ⟨h.1 ▸ hc.ingress, h.2.keyed⟩

/-- **A call is refused, and changes nothing, or adds what it reports.** -/
theorem recordCall_cases (hc : c.Keyed V) (call : RecordCall) :
    (¬ call.Accepted V ∧ ∃ e, c.record V printable call = (c, some e)) ∨
      (call.Accepted V ∧ ∃ c', c.record V printable call = (c', none) ∧ c.Adds V c' call) := by
  cases call with
  | ingress call =>
    rcases @record_cases V printable _ hc.ingress call with ⟨hrefused, e, hrecord⟩ |
        ⟨haccepted, ingress, hrecord, hcounted⟩
    · exact .inl ⟨hrefused, e, by rw [Counters.record, hrecord]⟩
    · exact .inr ⟨haccepted, ⟨ingress, c.queries⟩, by rw [Counters.record, hrecord], hcounted, rfl⟩
  | query call =>
    rcases @recordQuery_cases printable _ hc.queries call with ⟨hrefused, e, hrecord⟩ |
        ⟨haccepted, queries, hrecord, hadvanced⟩
    · exact .inl ⟨hrefused, e, by rw [Counters.record, hrecord]⟩
    · exact .inr ⟨haccepted, ⟨c.ingress, queries⟩, by rw [Counters.record, hrecord], rfl, hadvanced⟩

/-! ### Calls, one after the other -/

/-- What a call reports to the ingress counters. -/
def RecordCall.events : RecordCall → List CounterEvent
  | .ingress call => call.events
  | .query _ => []

/-- The durations a call reports of an outcome. -/
def RecordCall.durations (outcome : String) : RecordCall → List PyFloat
  | .ingress _ => []
  | .query call => if outcome = call.outcome then [call.durationSeconds] else []

/-- What was counted is what the calls reported. -/
structure Totals (V : Vocabulary) (calls : List RecordCall) (c : Counters) : Prop where
  event : ∀ event, c.ingress.count event = (calls.flatMap RecordCall.events).count event
  count : ∀ outcome,
    c.queries.count outcome = (calls.flatMap (RecordCall.durations outcome)).length
  durationCount : ∀ outcome,
    c.queries.durationCount outcome = (calls.flatMap (RecordCall.durations outcome)).length
  durationSum : ∀ outcome,
    c.queries.durationSum outcome =
      (calls.flatMap (RecordCall.durations outcome)).foldl PyFloat.add (.finite 0)

theorem keyed_start_counters : (Counters.start V).Keyed V :=
  ⟨keyed_start, QueryCounters.keyed_start⟩

theorem getD_fromkeys {α : Type} (values : List String) (a : α) (v : String) :
    ((fromkeys values a).get? v).getD a = a := by
  rw [fromkeys, Dict.get?_ofPairs_map fun _ => a]
  split <;> rfl

theorem totals_start : Totals V [] (.start V) where
  event event := by
    cases event with
    | tallied tally value => exact getD_fromkeys _ 0 value
    | lostClaim | sweepFailure => rfl
  count outcome := getD_fromkeys _ 0 outcome
  durationCount outcome := getD_fromkeys _ 0 outcome
  durationSum outcome := getD_fromkeys _ (PyFloat.finite 0) outcome

/-- A query reports its duration of its own outcome. -/
theorem durations_append_query (outcome : String) (calls : List RecordCall) (call : QueryCall) :
    (calls ++ [RecordCall.query call]).flatMap (RecordCall.durations outcome) =
      if outcome = call.outcome then
        calls.flatMap (RecordCall.durations outcome) ++ [call.durationSeconds]
      else calls.flatMap (RecordCall.durations outcome) := by
  rw [List.flatMap_append, List.flatMap_singleton, RecordCall.durations]
  split
  · rfl
  · exact List.append_nil _

/-- Any other call reports no duration. -/
theorem durations_append_ingress (outcome : String) (calls : List RecordCall)
    (call : IngressCall) :
    (calls ++ [RecordCall.ingress call]).flatMap (RecordCall.durations outcome) =
      calls.flatMap (RecordCall.durations outcome) := by
  rw [List.flatMap_append, List.flatMap_singleton]
  exact List.append_nil _

/-- One more call. -/
theorem Totals.append {calls : List RecordCall} (h : Totals V calls c) (hadds : c.Adds V c' call) :
    Totals V (calls ++ [call]) c' := by
  cases call with
  | ingress call =>
    obtain ⟨hcounting, hqueries⟩ := hadds
    constructor
    · intro event
      rw [hcounting.count, h.event, List.flatMap_append, List.flatMap_singleton, List.count_append]
      rfl
    · intro outcome
      rw [hqueries, h.count, durations_append_ingress]
    · intro outcome
      rw [hqueries, h.durationCount, durations_append_ingress]
    · intro outcome
      rw [hqueries, h.durationSum, durations_append_ingress]
  | query call =>
    obtain ⟨hingress, hadvanced⟩ := hadds
    constructor
    · intro event
      rw [hingress, h.event, List.flatMap_append, List.flatMap_singleton]
      exact (congrArg (List.count event) (List.append_nil _)).symm
    -- The duration stands last among those of its outcome, and among no others.
    · intro outcome
      rw [hadvanced.count, h.count, durations_append_query]
      split
      · rw [List.length_append, List.length_singleton]
      · rfl
    · intro outcome
      rw [hadvanced.durationCount, h.durationCount, durations_append_query]
      split
      · rw [List.length_append, List.length_singleton]
      · rfl
    · intro outcome
      rw [hadvanced.durationSum, h.durationSum, durations_append_query]
      split
      · rw [List.foldl_concat]
      · rfl

/-- **After any calls** the label values are the declared ones, and what was counted is what the
accepted calls reported. -/
theorem totals_run (calls : List RecordCall) :
    (Counters.run V printable calls).Keyed V ∧
      Totals V (calls.filter (RecordCall.Accepted V)) (.run V printable calls) := by
  induction calls using List.reverseRecOn with
  | nil => exact ⟨keyed_start_counters, totals_start⟩
  | append_singleton calls call ih =>
    obtain ⟨hkeyed, htotals⟩ := ih
    have hrun : Counters.run V printable (calls ++ [call]) =
        ((Counters.run V printable calls).record V printable call).1 := by
      rw [Counters.run, List.foldl_append]
      rfl
    rw [hrun, List.filter_append]
    rcases @recordCall_cases V printable _ hkeyed call with ⟨hrefused, e, hrecord⟩ |
        ⟨haccepted, c', hrecord, hadds⟩
    · rw [hrecord, List.filter_cons_of_neg (by simpa using hrefused), List.filter_nil,
        List.append_nil]
      exact ⟨hkeyed, htotals⟩
    · rw [hrecord, List.filter_cons_of_pos (by simpa using haccepted), List.filter_nil]
      exact ⟨hadds.keyed hkeyed, htotals.append hadds⟩

/-- A duration that an accepted call reports is counted. -/
theorem measured_of_mem_durations {outcome : String} {duration : PyFloat}
    (haccepted : call.Accepted V) (h : duration ∈ call.durations outcome) :
    MeasuredDuration duration := by
  cases call with
  | ingress call => cases h
  | query call =>
    rw [RecordCall.durations] at h
    split at h
    · rw [List.mem_singleton.mp h]
      exact haccepted.2
    · cases h

/-! ### Samples of the counters -/

/-- A sample under a label value its family allows is declared. -/
theorem not_undeclared_of_mem {family : MetricFamily} {sample : Sample} {v : String}
    (hfamily : family ∈ families V) (hname : family.name = sample.family)
    (hlabel : family.label ≠ none) (hvalue : sample.labelValue = some v) (hv : v ∈ family.allowed) :
    ¬ Undeclared V sample := by
  rw [undeclared_iff hfamily hname]
  rintro (⟨hnone, -⟩ | ⟨-, hnone⟩)
  · exact hlabel hnone
  · exact hnone v hv hvalue

/-- A sample without a label is declared by a family without one. -/
theorem not_undeclared_plain {family : MetricFamily} {sample : Sample}
    (hfamily : family ∈ families V) (hname : family.name = sample.family)
    (hlabel : family.label = none) (hvalue : sample.labelValue = none) :
    ¬ Undeclared V sample := by
  rw [undeclared_iff hfamily hname]
  rintro (⟨-, hsome⟩ | ⟨hsome, -⟩)
  · exact hsome hvalue
  · exact hsome hlabel

/-- A family, by its place. -/
theorem mem_families {i : ℕ} {family : MetricFamily} (h : (families V)[i]? = some family) :
    family ∈ families V :=
  List.mem_of_getElem? h

/-- The family of a count allows the label values the count has. -/
theorem exists_family_tally (V : Vocabulary) (tally : Tally) :
    ∃ family ∈ families V, family.name = tally.family ∧ family.label ≠ none ∧
      family.allowed = (tally.allowed V).1 := by
  cases tally with
  | refusals => exact ⟨_, @mem_families V 19 _ rfl, rfl, nofun, rfl⟩
  | signatures => exact ⟨_, @mem_families V 21 _ rfl, rfl, nofun, rfl⟩
  | verificationKeyMatches => exact ⟨_, @mem_families V 22 _ rfl, rfl, nofun, rfl⟩
  | challenges => exact ⟨_, @mem_families V 23 _ rfl, rfl, nofun, rfl⟩
  | ingress => exact ⟨_, @mem_families V 20 _ rfl, rfl, nofun, rfl⟩
  | acceptances => exact ⟨_, @mem_families V 11 _ rfl, rfl, nofun, rfl⟩

/-- The samples of the ingress counters are declared. -/
theorem samples_declared_ingress {c : IngressCounters} (hc : Keyed V c) :
    ∀ sample ∈ c.samples, ¬ Undeclared V sample := by
  intro sample hsample
  rcases List.mem_append.mp hsample with htally | hplain
  · obtain ⟨tally, -, hentry⟩ := List.mem_flatMap.mp htally
    obtain ⟨⟨value, count⟩, hmem, rfl⟩ := List.mem_map.mp hentry
    obtain ⟨family, hfamily, hname, hlabel, hallowed⟩ := exists_family_tally V tally
    exact not_undeclared_of_mem hfamily hname hlabel rfl (hallowed ▸ (hc tally).mem hmem)
  · rcases List.mem_pair.mp hplain with rfl | rfl
    · exact not_undeclared_plain (@mem_families V 12 _ rfl) rfl rfl rfl
    · exact not_undeclared_plain (@mem_families V 18 _ rfl) rfl rfl rfl

/-- The samples of the query counters are declared. -/
theorem samples_declared_queries {q : QueryCounters} (hq : q.Keyed) :
    ∀ sample ∈ q.samples, ¬ Undeclared V sample := by
  intro sample hsample
  rcases List.mem_append.mp hsample with hsample | hdurationCount
  · rcases List.mem_append.mp hsample with hcount | hdurationSum
    · obtain ⟨⟨outcome, count⟩, hmem, rfl⟩ := List.mem_map.mp hcount
      exact not_undeclared_of_mem (@mem_families V 13 _ rfl) rfl nofun rfl (hq.counts.mem hmem)
    · obtain ⟨⟨outcome, duration⟩, hmem, rfl⟩ := List.mem_map.mp hdurationSum
      exact not_undeclared_of_mem (@mem_families V 14 _ rfl) rfl nofun rfl
        (hq.durationSums.mem hmem)
  · obtain ⟨⟨outcome, count⟩, hmem, rfl⟩ := List.mem_map.mp hdurationCount
    exact not_undeclared_of_mem (@mem_families V 15 _ rfl) rfl nofun rfl
      (hq.durationCounts.mem hmem)

/-- **The samples of the counters are declared.** -/
theorem samples_declared (hc : c.Keyed V) : ∀ sample ∈ c.samples, ¬ Undeclared V sample := by
  intro sample hsample
  rcases List.mem_append.mp hsample with hingress | hqueries
  · exact samples_declared_ingress hc.ingress sample hingress
  · exact samples_declared_queries hc.queries sample hqueries

/-! ### Counts of the samples -/

/-- A sample of the ingress counters has the count of an event. -/
theorem sample_count_ingress {c : IngressCounters} (hc : Keyed V c) {sample : Sample}
    (h : sample ∈ c.samples) : ∃ event, sample.value = .int (c.count event) := by
  rcases List.mem_append.mp h with htally | hplain
  · obtain ⟨tally, -, hentry⟩ := List.mem_flatMap.mp htally
    obtain ⟨⟨value, count⟩, hmem, rfl⟩ := List.mem_map.mp hentry
    refine ⟨.tallied tally value, ?_⟩
    rw [IngressCounters.count, Dict.get?_of_mem (hc tally).nodup hmem, Option.getD_some]
  · rcases List.mem_pair.mp hplain with rfl | rfl
    · exact ⟨.lostClaim, rfl⟩
    · exact ⟨.sweepFailure, rfl⟩

/-- A sample of the query counters has a count of an outcome, or is a float. -/
theorem sample_count_queries {q : QueryCounters} (hq : q.Keyed) {sample : Sample}
    (h : sample ∈ q.samples) :
    (∃ outcome, sample.value = .int (q.count outcome)) ∨
      (∃ outcome, sample.value = .int (q.durationCount outcome)) ∨
      ∃ duration, sample.value = .float duration := by
  rcases List.mem_append.mp h with h | hdurationCount
  · rcases List.mem_append.mp h with hcount | hdurationSum
    · obtain ⟨⟨outcome, count⟩, hmem, rfl⟩ := List.mem_map.mp hcount
      refine .inl ⟨outcome, ?_⟩
      rw [QueryCounters.count, Dict.get?_of_mem hq.counts.nodup hmem, Option.getD_some]
    · obtain ⟨⟨outcome, duration⟩, -, rfl⟩ := List.mem_map.mp hdurationSum
      exact .inr (.inr ⟨duration, rfl⟩)
  · obtain ⟨⟨outcome, count⟩, hmem, rfl⟩ := List.mem_map.mp hdurationCount
    refine .inr (.inl ⟨outcome, ?_⟩)
    rw [QueryCounters.durationCount, Dict.get?_of_mem hq.durationCounts.nodup hmem,
      Option.getD_some]

/-- A call reports at most one duration. -/
theorem length_durations_le (outcome : String) (calls : List RecordCall) :
    (calls.flatMap (RecordCall.durations outcome)).length ≤ calls.length := by
  induction calls with
  | nil => exact le_rfl
  | cons call calls ih =>
    have hone : (call.durations outcome).length ≤ 1 := by
      cases call with
      | ingress call => exact Nat.zero_le 1
      | query call =>
        rw [RecordCall.durations]
        split
        · exact le_rfl
        · exact Nat.zero_le 1
    rw [List.flatMap_cons, List.length_append, List.length_cons]
    omega

/-- Everything that is reported, and every call. -/
def reported (calls : List RecordCall) : ℕ :=
  (calls.flatMap RecordCall.events).length + calls.length

/-- **What was reported up to `2 ^ 1023` times** is written. -/
theorem writable_of_reported {calls : List RecordCall} (hc : c.Keyed V) (h : Totals V calls c)
    (hbound : (reported calls : ℚ) ≤ 2 ^ 1023) : ∀ sample ∈ c.samples, Writable sample.value := by
  have hwritable : ∀ n : ℕ, n ≤ reported calls → Writable (.int n) := by
    intro n hn
    apply writable_of_le
    rw [Int.cast_natCast, abs_of_nonneg n.cast_nonneg]
    exact le_trans (by exact_mod_cast hn) hbound
  intro sample hsample
  rcases List.mem_append.mp hsample with hingress | hqueries
  · obtain ⟨event, hvalue⟩ := sample_count_ingress hc.ingress hingress
    rw [hvalue]
    apply hwritable
    rw [h.event]
    exact List.count_le_length.trans (Nat.le_add_right _ _)
  · rcases sample_count_queries hc.queries hqueries with ⟨outcome, hvalue⟩ | ⟨outcome, hvalue⟩ |
        ⟨duration, hvalue⟩
    · rw [hvalue]
      apply hwritable
      rw [h.count]
      exact (length_durations_le outcome calls).trans (Nat.le_add_left _ _)
    · rw [hvalue]
      apply hwritable
      rw [h.durationCount]
      exact (length_durations_le outcome calls).trans (Nat.le_add_left _ _)
    · rw [hvalue]
      rintro n hn
      cases hn

/-- **The exposition is closed and lossless.** A sample that is not declared is refused, with
nothing emitted. Samples that are declared and can be written are emitted family by family, each of
them once; where one of them cannot be written, it is refused as an overflow. After any calls, each
further one is refused, and changes nothing, or adds what it reports; what was counted is what the
accepted ones reported; and the samples of the counters are declared, and rendered where they can be
written, as what was reported up to `2 ^ 1023` times can. -/
theorem exposition_closed_and_lossless (V : Vocabulary) (printable : Char → Bool) :
    (∀ samples : List Sample,
      ((∃ message, render V printable samples = .error (.undeclaredLabel message)) ↔
        ∃ sample ∈ samples, Undeclared V sample) ∧
      ((∃ sample ∈ samples, Undeclared V sample) → (generate V printable samples).1 = []) ∧
      ((∀ sample ∈ samples, ¬ Undeclared V sample) →
        ((∀ sample ∈ samples, Writable sample.value) ∧
          ∃ blocks, Layout V samples blocks ∧
            generate V printable samples = (blocks.flatMap Block.lines, none) ∧
            render V printable samples =
              .ok ("\n".intercalate (blocks.flatMap Block.lines) ++ "\n")) ∨
        ((¬ ∀ sample ∈ samples, Writable sample.value) ∧
          ∃ message, render V printable samples = .error (.overflowError message)))) ∧
    ∀ (calls : List RecordCall) (c : Counters), c = .run V printable calls →
      (∀ call : RecordCall,
        (¬ call.Accepted V ∧ ∃ e, c.record V printable call = (c, some e)) ∨
          (call.Accepted V ∧
            ∃ c', c.record V printable call = (c', none) ∧ c.Adds V c' call)) ∧
      Totals V (calls.filter (RecordCall.Accepted V)) c ∧
      (∀ sample ∈ c.samples, ¬ Undeclared V sample) ∧
      ((∀ sample ∈ c.samples, Writable sample.value) →
        ∃ text, render V printable c.samples = .ok text) ∧
      ((reported (calls.filter (RecordCall.Accepted V)) : ℚ) ≤ 2 ^ 1023 →
        ∃ text, render V printable c.samples = .ok text) := by
  refine ⟨fun samples => ⟨?_, ?_, ?_⟩, ?_⟩
  · exact render_eq_undeclaredLabel_iff.1
  · exact render_eq_undeclaredLabel_iff.2
  · intro hdeclared
    rcases @render_of_declared V printable samples hdeclared with ⟨hwritable, -⟩ | hoverflow
    · obtain ⟨blocks, hlayout, hlines⟩ := @exists_layout V printable samples hdeclared hwritable
      refine .inl ⟨hwritable, blocks, hlayout, generate_of_lines_eq_ok hlines, ?_⟩
      rw [render, hlines]
      rfl
    · exact .inr hoverflow
  · rintro calls c rfl
    obtain ⟨hkeyed, htotals⟩ := @totals_run V printable calls
    have hdeclared := samples_declared hkeyed
    have hrendered : (∀ sample ∈ (Counters.run V printable calls).samples, Writable sample.value) →
        ∃ text, render V printable (Counters.run V printable calls).samples = .ok text := by
      intro hwritable
      rcases @render_of_declared V printable _ hdeclared with ⟨-, hok⟩ | ⟨hnot, -⟩
      · exact hok
      · exact absurd hwritable hnot
    exact ⟨recordCall_cases hkeyed, htotals, hdeclared, hrendered,
      fun hbound => hrendered (writable_of_reported hkeyed htotals hbound)⟩

/-- A count that is no float is declared, and refused all the same. -/
theorem tooManyLostClaims_overflow :
    (∀ sample ∈ [lostClaims (2 ^ 1024)], ¬ Undeclared someVocabulary sample) ∧
      ∃ message, render someVocabulary (fun _ => true) [lostClaims (2 ^ 1024)] =
        .error (.overflowError message) := by
  have hdeclared : ∀ sample ∈ [lostClaims (2 ^ 1024)], ¬ Undeclared someVocabulary sample := by
    intro sample hsample
    obtain rfl := List.mem_singleton.mp hsample
    exact not_undeclared_plain (@mem_families someVocabulary 12 _ rfl) rfl rfl rfl
  refine ⟨hdeclared, ?_⟩
  rcases @render_of_declared someVocabulary (fun _ => true) _ hdeclared with ⟨hwritable, -⟩ |
      ⟨-, hoverflow⟩
  · have hnone : PyFormat.floatOfInt (2 ^ 1024) = none :=
      PyFormat.floatOfInt_eq_none (by rw [Int.cast_pow, Int.cast_ofNat]; exact le_abs_self _)
    exact absurd hnone (hwritable _ List.mem_cons_self _ rfl)
  · exact hoverflow

end DotmacIntegrator.Telemetry
