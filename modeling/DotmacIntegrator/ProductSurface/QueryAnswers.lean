import DotmacIntegrator.ProductSurface.QueryProcess

/-!
# How queries are counted and answered

A query that was let in is counted once, under the status it is answered with, and any other is not
counted. Where what it reads stays as it is, it is answered as if it ran by itself.

## Main definitions

* `Accounted`: how a query stands, with what it was counted as
* `Told`: what a query is told where nothing changes under it

## Main results

* `queries_counted`: the counters hold what the queries were counted as
* `answers_alone`: a query under which nothing changes is answered as in one piece
-/

namespace DotmacIntegrator.ProductSurface

open Process (Performed perform catching)
open DotmacIntegrator.Configuration Secrets Telemetry

variable {μ π : Type}

/-! ### What a query is counted as -/

/-- What an operation counted. -/
def recorded : QueryPerformed π → List QueryCall
  | ⟨.record call, a⟩ =>
    match (a : Option CounterError) with
    | none => [call]
    | some _ => []
  | _ => []

/-- How a query stands, with what it was counted as: it is under way, it was refused and not
counted, or it is answered, and was counted once under the status it is answered with. -/
inductive Accounted : List QueryCall → Option (Except QueryRaised ProductAnswer) → Prop
  | going : Accounted [] none
  | refused (e : ProductRaised) : Accounted [] (some (.error (.raised e)))
  | answered (response : ProductQueryResponse) (seconds : PyFloat)
    (h : MeasuredDuration seconds) : Accounted [⟨response.status.value, seconds⟩]
      (some (.ok (.query (queryStatusCode response.status) response)))

/-- A call that the counters accept is not refused. -/
def Honoured : QueryPerformed π → Prop
  | ⟨.record call, a⟩ => call.Accepted → (a : Option CounterError) = none
  | _ => True

theorem status_mem (status : ProductQueryStatus) : status.value ∈ queryOutcomes.1 := by
  cases status <;> decide

namespace Interleaved

/-- The lookups of a query count nothing. -/
theorem silent_looking {α : Type} (p : Lookups α) :
    (looking (π := π) p).Upholds fun log _ => ∀ x ∈ log, recorded x = [] := by
  refine Process.upholds_forall_among (P := fun x : QueryPerformed π => recorded x = []) ?_ p
  exact fun reference => ⟨List.forall_mem_nil _, fun a => List.forall_mem_singleton.mpr rfl⟩

theorem silent_asking
    (moves : Callback QueryRefs (Option (Dict String String)) (Option QueryResult)) :
    (asking (π := π) moves).Upholds fun log _ => ∀ x ∈ log, recorded x = [] := by
  induction moves with
  | done result => exact List.forall_mem_nil _
  | ask refs next ih => exact Process.upholds_forall_bind (silent_looking _) ih

theorem silent_settled {ε α : Type} (r : Except ε α) :
    (settled (π := π) r).run.Upholds fun log _ => ∀ x ∈ log, recorded x = [] :=
  List.forall_mem_nil _

theorem silent_performs {ε : Type} {o : QueryOp π} (h : ∀ a, recorded ⟨o, a⟩ = []) :
    (performs (ε := ε) o).run.Upholds fun log _ => ∀ x ∈ log, recorded x = [] :=
  ⟨List.forall_mem_nil _, fun a => List.forall_mem_singleton.mpr (h a)⟩

/-- The dispatcher counts nothing. -/
theorem silent_tryQuery (application : String) (request : ProductQueryRequest) :
    (tryQuery (π := π) application request).run.Upholds
      fun log _ => ∀ x ∈ log, recorded x = [] := by
  refine Process.upholds_forall_except_bind (silent_performs fun _ => rfl) fun found => ?_
  refine Process.upholds_forall_except_bind (silent_settled _) fun capabilities => ?_
  refine Process.upholds_forall_except_bind ?_ fun prepared => ?_
  · refine Process.upholds_forall_except_bind (silent_performs fun _ => rfl) fun _ => ?_
    refine Process.upholds_forall_except_bind (silent_performs fun _ => rfl) fun prepared => ?_
    refine Process.upholds_forall_except_bind (silent_performs fun _ => rfl) fun closed => ?_
    exact Process.upholds_forall_except_bind (silent_settled _) fun _ => silent_settled _
  · refine Process.upholds_forall_except_bind (silent_settled _) fun owner => ?_
    split
    · exact List.forall_mem_nil _
    · refine Process.upholds_forall_except_bind (silent_performs fun _ => rfl) fun moves => ?_
      refine Process.upholds_forall_except_bind ?_ fun result => ?_
      · rw [ExceptT.run_lift]
        exact Process.upholds_forall_bind (silent_asking moves) fun _ => List.forall_mem_nil _
      · exact Process.upholds_forall_except_bind (silent_settled _) fun _ => silent_settled _

theorem silent_dispatchQuery (application : String) (request : ProductQueryRequest) :
    (dispatchQuery (π := π) application request).run.Upholds
      fun log r => (∀ x ∈ log, recorded x = []) ∧ ∀ e, r ≠ some (.error e) := by
  refine Process.upholds_catching ((silent_tryQuery application request).mono ?_)
  refine fun log r hlog => ⟨fun _ => ⟨hlog, nofun⟩, fun _ _ => ⟨hlog, nofun⟩, ?_⟩
  rintro e -
  exact ⟨(List.append_nil log).symm ▸ hlog, nofun⟩

/-- The guard counts nothing either. -/
theorem silent_guard (callers : List ProductQueryCaller) (xApiKey : Option String) :
    (guard (π := π) callers xApiKey).run.Upholds fun log r =>
      (∀ x ∈ log, recorded x = []) ∧ ∀ e, r = some (.error e) → ∃ raised, e = .raised raised := by
  refine Process.upholds_catching ((silent_looking _).mono fun log r hlog => ⟨?_, ?_, ?_⟩)
  · exact fun _ => ⟨hlog, nofun⟩
  · exact fun _ _ => ⟨hlog, nofun⟩
  · rintro e -
    refine ⟨(List.append_nil log).symm ▸ hlog, ?_⟩
    rintro _ ⟨⟩
    exact ⟨refusedAs e, rfl⟩

/-- A query that was let in is counted once, under the status it is answered with. -/
theorem accounted_measured (application : String) (request : ProductQueryRequest) :
    (measured (π := π) application request).run.Upholds
      fun log r => (∀ x ∈ log, Honoured x) → Accounted (log.flatMap recorded) r := by
  refine ⟨fun _ => .going, fun started => ?_⟩
  refine Process.upholds_except_bind ((silent_dispatchQuery application request).mono ?_)
  rintro log r ⟨hlog, hraises⟩
  have hnone : log.flatMap recorded = [] := List.flatMap_eq_nil_iff.mpr hlog
  have hgoing {log' : List (QueryPerformed π)} (hlog' : log'.flatMap recorded = []) :
      Accounted ((⟨.monotonicSeconds, started⟩ :: (log ++ log')).flatMap recorded) none := by
    rw [List.flatMap_cons, List.flatMap_append, hnone, hlog']
    exact .going
  refine ⟨fun _ _ => ?_, fun e he => absurd he (hraises e), ?_⟩
  · simpa using @hgoing [] rfl
  · rintro response -
    refine ⟨fun _ => hgoing rfl, fun ended => ⟨fun _ => hgoing rfl, fun raised => ?_⟩⟩
    have hmeasured : MeasuredDuration (ended.seconds.sub started.seconds).maxZero :=
      ended.reading.sub started.reading
    cases raised with
    | some e =>
      intro hhonoured
      -- The counters accept the call, so that they did not refuse it.
      have hraised := hhonoured _
        (List.mem_cons_of_mem _ (List.mem_append_right log (.tail _ (List.mem_singleton_self _))))
        ⟨status_mem response.status, hmeasured⟩
      cases hraised
    | none =>
      intro _
      show Accounted ((⟨.monotonicSeconds, started⟩ :: (log ++ [⟨.monotonicSeconds, ended⟩,
        ⟨.record ⟨response.status.value, _⟩, none⟩])).flatMap recorded) _
      rw [List.flatMap_cons, List.flatMap_append, hnone]
      exact .answered response _ hmeasured

/-- A query stands in one of the ways of an account. -/
theorem accounted_productQuery (callers : List ProductQueryCaller) (xApiKey : Option String)
    (body : Option ProductQueryRequest) :
    (productQuery (π := π) callers xApiKey body).run.Upholds
      fun log r => (∀ x ∈ log, Honoured x) → Accounted (log.flatMap recorded) r := by
  refine Process.upholds_except_bind ((silent_guard callers xApiKey).mono ?_)
  rintro log r ⟨hlog, hraises⟩
  have hnone : log.flatMap recorded = [] := List.flatMap_eq_nil_iff.mpr hlog
  have hrefused (e : ProductRaised) :
      Accounted ((log ++ []).flatMap recorded) (some (.error (.raised e))) := by
    rw [List.append_nil, hnone]
    exact .refused e
  refine ⟨fun _ _ => hnone.symm ▸ .going, fun e he _ => ?_, fun found _ => ?_⟩
  · obtain ⟨raised, rfl⟩ := hraises e he
    exact hnone.symm ▸ .refused raised
  · cases body with
    | none => exact fun _ => hrefused _
    | some request =>
      show (if request.capabilityBindingId ∉ found.bindingIds then throw _
        else measured found.application request : QueryProgram π _ _).run.Upholds _
      split
      · exact fun _ => hrefused _
      · refine (accounted_measured found.application request).mono fun log' r' hlog' hhonoured => ?_
        rw [List.flatMap_append, hnone]
        exact hlog' fun x hx => hhonoured x (List.mem_append_right log hx)

end Interleaved

/-! ### The counters -/

variable {printable : Char → Bool}

/-- The counters, behind one query. -/
def counts (printable : Char → Bool) (q : QueryCounters) (call : QueryCall) : QueryCounters :=
  (q.record printable call).1

/-- What an operation does to the counters is what it counted. -/
theorem counts_of_handles {s s' : QueryState μ π} (hkeyed : s.counters.Keyed)
    {x : QueryPerformed π} (h : queryHandles printable x.1 s x.2 s') :
    s'.counters.Keyed ∧ s'.counters = (recorded x).foldl (counts printable) s.counters ∧
      Honoured x ∧ ∀ call ∈ recorded x, call.Accepted := by
  obtain ⟨o, a⟩ := x
  cases o with
  | record call =>
    obtain ⟨rfl, rfl⟩ := h
    rcases @recordQuery_cases printable _ hkeyed call with
      ⟨hrefused, e, hrecord⟩ | ⟨haccepted, q', hrecord, hadvanced⟩
    · refine ⟨?_, ?_, fun haccepted => absurd haccepted hrefused, ?_⟩
      · simpa [hrecord] using hkeyed
      · simp [recorded, hrecord]
      · simp [recorded, hrecord]
    · refine ⟨?_, ?_, fun _ => by rw [hrecord], ?_⟩
      · simpa [hrecord] using hadvanced.keyed
      · simp [recorded, counts, hrecord]
      · simpa [recorded, hrecord] using haccepted
  | getSecret | monotonicSeconds | capabilityRegistry | prepareQuery | executePreparedQuery =>
    obtain ⟨-, rfl⟩ := h
    exact ⟨hkeyed, rfl, trivial, List.forall_mem_nil _⟩
  | openSession | closeSession =>
    obtain rfl := h
    exact ⟨hkeyed, rfl, trivial, List.forall_mem_nil _⟩

/-- Counters that counted none. -/
theorem count_start (outcome : String) : QueryCounters.start.count outcome = 0 ∧
    QueryCounters.start.durationCount outcome = 0 ∧
      QueryCounters.start.durationSum outcome = .finite 0 := by
  have hget {α : Type} (a : α) : ((fromkeys queryOutcomes.1 a).get? outcome).getD a = a := by
    rw [fromkeys, Dict.get?_ofPairs_map fun _ => a]
    split <;> rfl
  exact ⟨hget 0, hget 0, hget (PyFloat.finite 0)⟩

/-- Queries that are counted one after the other. -/
theorem counted_foldl {calls : List QueryCall} (h : ∀ call ∈ calls, call.Accepted)
    {q : QueryCounters} (hq : q.Keyed) (outcome : String) :
    let q' := calls.foldl (counts printable) q
    q'.count outcome = q.count outcome + calls.countP (·.outcome = outcome) ∧
      q'.durationCount outcome =
        q.durationCount outcome + calls.countP (·.outcome = outcome) ∧
      q'.durationSum outcome =
        ((calls.filter (·.outcome = outcome)).map (·.durationSeconds)).foldl .add
          (q.durationSum outcome) := by
  induction calls generalizing q with
  | nil => exact ⟨rfl, rfl, rfl⟩
  | cons call calls ih =>
    rw [List.forall_mem_cons] at h
    rcases @recordQuery_cases printable _ hq call with
      ⟨hrefused, -⟩ | ⟨-, q', hrecord, hadvanced⟩
    · exact absurd h.1 hrefused
    · obtain ⟨hcount, hdurations, hsum⟩ := ih h.2 hadvanced.keyed
      have hcounts : counts printable q call = q' := congrArg Prod.fst hrecord
      simp only [List.foldl_cons, hcounts, hcount, hdurations, hsum, hadvanced.count,
        hadvanced.durationCount, hadvanced.durationSum, List.countP_cons, List.filter_cons]
      by_cases houtcome : call.outcome = outcome
      · simp only [houtcome, if_true, decide_true, List.map_cons, List.foldl_cons]
        exact ⟨by omega, by omega, trivial⟩
      · simp [houtcome, Ne.symm houtcome]

variable {callers : List ProductQueryCaller}
  {c : Threads (QueryState μ π) (QueryOp π) QueryOp.answer (Except QueryRaised ProductAnswer)}

variable {held : Held} {tables : Tables μ} {engine : Engine μ π}

/-- What a query is told where what is held, the tables and the module stay as they are, and its
session is closed. -/
def Told (held : Held) (tables : Tables μ) (engine : Engine μ π) : QueryPerformed π → Prop
  | ⟨.getSecret reference, a⟩ => a = held.get? reference
  | ⟨.capabilityRegistry, a⟩ => a = engine.capabilityRegistry
  | ⟨.prepareQuery capabilityBindingId payload capabilities, a⟩ =>
    a = engine.prepareQuery tables capabilityBindingId payload capabilities
  | ⟨.closeSession, a⟩ => a = some ()
  | ⟨.executePreparedQuery prepared capabilities, a⟩ =>
    a = engine.executePreparedQuery prepared capabilities
  | ⟨.record call, a⟩ => call.Accepted → a = none
  | _ => True

namespace Interleaved

/-- Lookups that come to something from one mapping. -/
theorem comesTo_looking {α : Type} {p : Lookups α} {a : α} (h : p.ComesTo (FromHeld held) a) :
    (looking p).ComesTo (Told held tables engine) a := by
  have hanswered (reference : String) : FromHeld held ⟨reference, held.get? reference⟩ := rfl
  refine h.among (fun reference => ?_) hanswered
  refine Process.comesTo_act fun given hgiven => ?_
  obtain rfl : given = held.get? reference := hgiven
  exact Process.comesTo_pure

theorem comesTo_authenticate (callers : List ProductQueryCaller)
    (presented requiredScope : String) :
    (authenticate callers presented requiredScope).run.ComesTo (FromHeld held)
      (ProductSurface.authenticate callers held presented requiredScope) := by
  refine (Process.comesTo_foldlM (comesTo_compared presented) callers none).except_bind ?_
  intro matched _
  cases matched with
  | none => exact Process.comesTo_pure
  | some caller =>
    simp only
    split <;> exact Process.comesTo_pure

variable (settings : Settings)

/-- The guard lets in whom it lets in in one piece. -/
theorem comesTo_guard (xApiKey : Option String) (body : Option ProductQueryRequest) :
    (guard settings.productQueryCallers xApiKey).run.ComesTo (Told held tables engine)
      ((ProductSurface.guard settings held xApiKey (.query body)).mapError .raised) := by
  refine (comesTo_looking (comesTo_authenticate settings.productQueryCallers
    (xApiKey.getD "") "integration:query")).bind ?_
  have hrequire : ProductSurface.guard settings held xApiKey (.query body) =
      (ProductSurface.authenticate settings.productQueryCallers held (xApiKey.getD "")
        "integration:query").mapError refusedAs := by
    unfold ProductSurface.guard ProductSurface.require
    show _ = Except.mapError _ (ProductSurface.authenticate _ _ _ (ProductRequest.query body).scope)
    cases ProductSurface.authenticate settings.productQueryCallers held (xApiKey.getD "")
      (ProductRequest.query body).scope with
    | ok found => rfl
    | error e => cases e <;> rfl
  rw [hrequire]
  cases ProductSurface.authenticate settings.productQueryCallers held (xApiKey.getD "")
    "integration:query" <;> exact Process.comesTo_pure

theorem comesTo_resolveQuerySecrets (refs : QueryRefs) :
    (resolveQuerySecrets refs).ComesTo (FromHeld held)
      (ProductSurface.resolveQuerySecrets held refs) := by
  unfold resolveQuerySecrets ProductSurface.resolveQuerySecrets
  cases refs.mapM (fun p => do return (← p.1, ← p.2) : _ → Option (String × String)) with
  | none => exact Process.comesTo_pure
  | some pairs =>
    exact (comesTo_resolveSecrets (Dict.nodup_keys_ofPairs pairs)).bind Process.comesTo_pure

/-- What the module comes to where it is given what is held. -/
def resultFrom (held : Held) :
    Callback QueryRefs (Option (Dict String String)) (Option QueryResult) →
    Option QueryResult
  | .done result => result
  | .ask refs next => resultFrom held (next (ProductSurface.resolveQuerySecrets held refs))

theorem comesTo_asking
    (moves : Callback QueryRefs (Option (Dict String String)) (Option QueryResult)) :
    (asking moves).ComesTo (Told held tables engine) (resultFrom held moves) := by
  induction moves with
  | done result => exact Process.comesTo_pure
  | ask refs next ih => exact (comesTo_looking (comesTo_resolveQuerySecrets refs)).bind (ih _)

end Interleaved

/-! ### One piece -/

variable (settings : Settings) (held : Held) (tables : Tables μ) (engine : Engine μ π)
  (xApiKey : Option String)

/-- What the dispatcher's try comes to. -/
def triedAs (application : String) (request : ProductQueryRequest) :
    Except Fault ProductQueryResponse := do
  let capabilities ← fallible engine.capabilityRegistry
  let prepared ← fallible
    (engine.prepareQuery tables request.capabilityBindingId request.payload capabilities)
  let owner ← fallible (capabilities prepared.capabilityId)
  if owner ≠ application then return .invalidQuery
  else do
    let result ← fallible
      (Interleaved.resultFrom held (engine.executePreparedQuery prepared capabilities))
    fallible (queryResponse result)

/-- What a query is dispatched to. -/
def dispatchedAs (application : String) (request : ProductQueryRequest) : ProductQueryResponse :=
  match triedAs held tables engine application request with
  | .ok response => response
  | .error _ => .providerUnavailable

/-- What a query is answered. -/
def answeredAs (body : Option ProductQueryRequest) : Except ProductRaised ProductAnswer := do
  let principal ← guard settings held xApiKey (.query body)
  let request ← validated body
  if request.capabilityBindingId ∉ principal.bindingIds then
    throw (.httpException 403 "product query not authorized")
  else
    let response := dispatchedAs held tables engine principal.application request
    return .query (queryStatusCode response.status) response

variable {settings held tables engine xApiKey}

theorem keeps_asking
    {moves : Callback QueryRefs (Option (Dict String String)) (Option QueryResult)} :
    (Observed.asking .secretResolved (resolveQuerySecrets held) moves :
      ProductProgram μ π Fault _).Keeps tables (.ok (Interleaved.resultFrom held moves)) := by
  induction moves with
  | done result => exact (Observed.quiet_pure result).keeps
  | ask refs next ih => exact ih (resolveQuerySecrets held refs)

theorem keeps_tryQuery (application : String) (request : ProductQueryRequest) :
    (tryQuery engine held application request).Keeps tables
      (triedAs held tables engine application request) := by
  refine (Observed.keeps_ofExcept _).bind fun capabilities _ => ?_
  refine Observed.quiet_peek.keeps.bind_ok ?_
  refine (Observed.keeps_ofExcept _).bind fun prepared _ => ?_
  refine (Observed.keeps_ofExcept _).bind fun owner _ => ?_
  split
  · exact (Observed.quiet_pure _).keeps
  · refine Observed.Keeps.bind_ok (a := ()) ⟨rfl, rfl⟩ ?_
    refine keeps_asking.bind_ok ?_
    exact (Observed.keeps_ofExcept _).bind fun result _ => Observed.keeps_ofExcept _

/-- In one piece, a query is answered as it is. -/
theorem keeps_productQuery (body : Option ProductQueryRequest) :
    (productQuery settings held engine xApiKey body).Keeps tables
      (answeredAs settings held tables engine xApiKey body) := by
  refine (Observed.keeps_ofExcept _).bind fun principal _ => ?_
  refine (Observed.keeps_ofExcept _).bind fun request _ => ?_
  split
  · exact (Observed.quiet_raise _).keeps
  · have htried := @keeps_tryQuery μ π held tables engine principal.application request
    have hdispatched : ((dispatchQuery engine held principal.application request :
        ProductProgram μ π Fault _)).Keeps tables
          (.ok (dispatchedAs held tables engine principal.application request)) := by
      unfold dispatchedAs
      cases hanswer : triedAs held tables engine principal.application request with
      | ok response => exact (hanswer ▸ htried).catching_ok
      | error fault => exact (hanswer ▸ htried).catching_error (Observed.quiet_pure _).keeps
    exact hdispatched.catching_ok.bind_ok (Observed.quiet_pure _).keeps

namespace Interleaved

theorem comesTo_settled {ε α : Type} {T : QueryPerformed π → Prop} (r : Except ε α) :
    (settled (π := π) r).run.ComesTo T r :=
  Process.comesTo_pure

/-- What was prepared is executed to what it is. -/
theorem comesTo_executing (application : String) (capabilities : CapabilityRegistry)
    (prepared : PreparedQuery π) :
    (executing application capabilities prepared).run.ComesTo (Told held tables engine) (do
      let owner ← fallible (capabilities prepared.capabilityId)
      if owner ≠ application then return .invalidQuery
      else do
        let result ← fallible (resultFrom held (engine.executePreparedQuery prepared capabilities))
        fallible (queryResponse result)) := by
  refine (comesTo_settled _).except_bind fun owner _ => ?_
  split
  · exact Process.comesTo_pure
  · refine Process.comesTo_act fun moves hmoves => ?_
    obtain rfl : moves = engine.executePreparedQuery prepared capabilities := hmoves
    show Process.ComesTo _ (ExceptT.lift (asking _) >>= _ : QueryProgram π Fault _).run _
    rw [ExceptT.run_bind_lift]
    refine (comesTo_asking _).bind ?_
    exact (comesTo_settled _).except_bind fun result _ => comesTo_settled _

theorem comesTo_preparing (request : ProductQueryRequest) (capabilities : CapabilityRegistry) :
    (preparing request capabilities).run.ComesTo (Told held tables engine) (fallible
      (engine.prepareQuery tables request.capabilityBindingId request.payload capabilities)) := by
  refine Process.comesTo_act fun _ _ => ?_
  refine Process.comesTo_act fun prepared hprepared => ?_
  obtain rfl : prepared = engine.prepareQuery tables request.capabilityBindingId request.payload
    capabilities := hprepared
  refine Process.comesTo_act fun closed hclosed => ?_
  obtain rfl : closed = some () := hclosed
  exact comesTo_settled _

/-- So is what is tried. -/
theorem comesTo_tryQuery (application : String) (request : ProductQueryRequest) :
    (tryQuery application request).run.ComesTo (Told held tables engine)
      (triedAs held tables engine application request) := by
  refine Process.comesTo_act fun found hfound => ?_
  obtain rfl : found = engine.capabilityRegistry := hfound
  refine (comesTo_settled _).except_bind fun capabilities _ => ?_
  refine (comesTo_preparing request capabilities).except_bind fun prepared _ => ?_
  exact comesTo_executing application capabilities prepared

/-- And what is dispatched. -/
theorem comesTo_dispatchQuery (application : String) (request : ProductQueryRequest) :
    (dispatchQuery application request).run.ComesTo (Told held tables engine)
      (.ok (dispatchedAs held tables engine application request)) := by
  have htried := @comesTo_tryQuery μ π held tables engine application request
  unfold dispatchedAs
  cases hanswer : triedAs held tables engine application request with
  | ok response => exact (hanswer ▸ htried).catching_ok
  | error fault => exact (hanswer ▸ htried).catching_error Process.comesTo_pure

/-- Whatever the clock is read as, a query that was let in is answered as it is. -/
theorem comesTo_measured (application : String) (request : ProductQueryRequest) :
    let response := dispatchedAs held tables engine application request
    (measured application request).run.ComesTo (Told held tables engine)
      (.ok (.query (queryStatusCode response.status) response)) := by
  intro response
  refine Process.comesTo_act fun started _ => ?_
  refine (comesTo_dispatchQuery application request).bind ?_
  refine Process.comesTo_act fun ended _ => Process.comesTo_act fun raised hraised => ?_
  obtain rfl : raised = none :=
    hraised ⟨status_mem response.status, ended.reading.sub started.reading⟩
  exact Process.comesTo_pure

/-- Where nothing changes, a query is answered as it is. -/
theorem comesTo_productQuery (body : Option ProductQueryRequest) :
    (productQuery settings.productQueryCallers xApiKey body).run.ComesTo (Told held tables engine)
      ((answeredAs settings held tables engine xApiKey body).mapError .raised) := by
  refine (comesTo_guard settings xApiKey body).bind ?_
  unfold answeredAs
  cases ProductSurface.guard settings held xApiKey (.query body) with
  | error e => exact Process.comesTo_pure
  | ok principal =>
    cases body with
    | none => exact Process.comesTo_pure
    | some request =>
      show (if request.capabilityBindingId ∉ principal.bindingIds then throw _
        else measured principal.application request : QueryProgram π _ _).run.ComesTo _
        (Except.mapError _ (if request.capabilityBindingId ∉ principal.bindingIds then .error _
          else .ok _))
      split
      · exact Process.comesTo_pure
      · exact comesTo_measured principal.application request

end Interleaved

/-! ### Alone -/

/-- What leaves what a query reads as it is: the clock goes on. -/
def still (s s' : QueryState μ π) : Prop :=
  s'.held = s.held ∧ s'.tables = s.tables ∧ s'.engine = s.engine ∧ s'.counters = s.counters

/-- A process that holds this, with these tables and this module. -/
structure StandsAt (held : Held) (tables : Tables μ) (engine : Engine μ π) (s : QueryState μ π) :
    Prop where
  held : s.held = held
  tables : s.tables = tables
  engine : s.engine = engine
  keyed : s.counters.Keyed

/-- An operation leaves what stands. -/
theorem standsAt_of_handles {s s' : QueryState μ π} (hs : StandsAt held tables engine s)
    {x : QueryPerformed π} (h : queryHandles printable x.1 s x.2 s') :
    StandsAt held tables engine s' := by
  have hkeyed := (counts_of_handles hs.keyed h).1
  obtain ⟨o, a⟩ := x
  cases o with
  | record call =>
    obtain ⟨rfl, -⟩ := h
    exact ⟨hs.held, hs.tables, hs.engine, hkeyed⟩
  | getSecret | capabilityRegistry | prepareQuery | executePreparedQuery | monotonicSeconds =>
    obtain ⟨-, rfl⟩ := h
    exact hs
  | openSession | closeSession =>
    obtain rfl := h
    exact hs

theorem standsAt_of_still {s s' : QueryState μ π} (hs : StandsAt held tables engine s)
    (h : still s s') : StandsAt held tables engine s' where
  held := h.1.trans hs.held
  tables := h.2.1.trans hs.tables
  engine := h.2.2.1.trans hs.engine
  keyed := h.2.2.2 ▸ hs.keyed

/-- An operation tells what stands, unless it is a session that fails to close. -/
theorem told_of_handles {s s' : QueryState μ π} (hs : StandsAt held tables engine s)
    {x : QueryPerformed π} (h : queryHandles printable x.1 s x.2 s')
    (hcloses : x ≠ ⟨.closeSession, none⟩) :
    Told held tables engine x := by
  obtain ⟨o, a⟩ := x
  obtain ⟨rfl, rfl, rfl, hkeyed⟩ := hs
  cases o with
  | record call => exact (counts_of_handles hkeyed h).2.2.1
  | getSecret | capabilityRegistry | prepareQuery | executePreparedQuery => exact h.1
  | monotonicSeconds | openSession => trivial
  | closeSession =>
    cases a with
    | none => exact absurd rfl hcloses
    | some closed => rfl

/-- **A query under which nothing changes is answered as in one piece**: where what is held, the
tables and the module stay as they are while queries interleave, each is answered what the route
answers that reads all of them at once, unless its session failed to close. -/
theorem answers_alone (settings : Settings) (held : Held) (tables : Tables μ)
    (engine : Engine μ π)
    (h : (Threads.system (queryRules settings.productQueryCallers printable still)
      (StandsAt held tables engine)).Reachable c) :
    ∀ t ∈ c.threads, ∃ xApiKey body,
      t.program = (Interleaved.productQuery settings.productQueryCallers xApiKey body).run ∧
      (⟨.closeSession, none⟩ ∉ t.log → ∀ answer, t.now.result = some answer → answer =
        ((productQuery settings held engine xApiKey body).exec
          tables).answer.mapError .raised) := by
  intro t ht
  obtain ⟨xApiKey, body, hprogram⟩ := Threads.starts_program h t ht
  refine ⟨xApiKey, body, hprogram, fun hcloses answer hanswer => ?_⟩
  -- Nothing changes, so that every operation was answered as things stood at the start.
  have htold : ∀ x ∈ t.log, Told held tables engine x := by
    intro x hx
    obtain ⟨s, s', hstands, hhandles⟩ := Threads.handled (I := StandsAt held tables engine)
      (fun s hs => hs) (fun o s a s' hs hhandles => standsAt_of_handles (x := ⟨o, a⟩) hs hhandles)
      (fun s s' => standsAt_of_still) h t ht x hx
    exact told_of_handles hstands hhandles fun hclosed => hcloses (hclosed ▸ hx)
  have hcomes := (Interleaved.comesTo_productQuery body).of_goes
    (hprogram ▸ t.goes) htold answer hanswer
  rw [hcomes, (keeps_productQuery body).1]

/-- The settings of one caller. -/
def someSettings : Settings := { productQueryEnabled := true, productQueryCallers := [someCaller] }

theorem answers_alone_queried : ∃ xApiKey body, .ok (.query 200 someResponse) =
    ((productQuery someSettings someHeld querying xApiKey body).exec noRows).answer.mapError
      QueryRaised.raised := by
  obtain ⟨xApiKey, body, -, hanswer⟩ := answers_alone someSettings someHeld noRows querying
    (reachable_queried ⟨rfl, rfl, rfl, QueryCounters.keyed_start⟩) queriedThread
    (List.mem_singleton_self _)
  refine ⟨xApiKey, body, hanswer ?_ _ rfl⟩
  simp only [queriedThread, queriedLog, preparation, List.cons_append, List.nil_append,
    List.mem_cons, List.not_mem_nil, or_false]
  rintro (h | h | h | h | h | h | h | h | h | h | h) <;> cases h

end DotmacIntegrator.ProductSurface
