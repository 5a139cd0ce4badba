import DotmacIntegrator.ProductSurface.Routes
import DotmacIntegrator.Secrets.Lookups
import DotmacIntegrator.Telemetry.QueryCounters

/-!
# Queries that interleave

A query goes operation by operation: it looks a reference up for each caller, reads the clock, the
capability registry and the tables, has the module execute what it prepared, looks references up for
the connector, reads the clock again and is counted. Other queries, refreshes, and whatever changes
the tables, the registry and the connectors, go on between any two of its operations.

## Main definitions

* `QueryOp`: what a query does
* `Interleaved.productQuery`: the route, operation by operation
* `queryRules`, `querySystem`: how queries interleave, with each other and with everything else
* `Cleared`: what comes before a query is executed, and what comes after it

## Main results

* `executes_cleared`: nothing is executed that was not cleared before
-/

namespace DotmacIntegrator.ProductSurface

open Process (Performed perform catching Each)
open DotmacIntegrator.Configuration Secrets Telemetry

/-! ### Operations -/

/-- What `monotonic_seconds` reads: a float that is finite and not negative. -/
structure ClockReading where
  seconds : PyFloat
  reading : seconds.Reading

/-- What a query does. -/
inductive QueryOp (π : Type)
  | getSecret (reference : String)
  | monotonicSeconds
  | capabilityRegistry
  | openSession
  | prepareQuery (capabilityBindingId : Uuid) (payload : Dict String Json)
    (capabilities : CapabilityRegistry)
  | closeSession
  | executePreparedQuery (prepared : PreparedQuery π) (capabilities : CapabilityRegistry)
  | record (call : QueryCall)

variable {μ π : Type}

/-- What it is answered. What the module does with a query that it executes is a program that asks
for secrets. -/
def QueryOp.answer : QueryOp π → Type
  | .getSecret _ => Option String
  | .monotonicSeconds => ClockReading
  | .capabilityRegistry => Option CapabilityRegistry
  | .openSession => Unit
  | .prepareQuery _ _ _ => Option (PreparedQuery π)
  | .closeSession => Option Unit
  | .executePreparedQuery _ _ =>
    Callback QueryRefs (Option (Dict String String)) (Option QueryResult)
  | .record _ => Option CounterError

/-- An operation of a query, with its answer. -/
abbrev QueryPerformed (π : Type) := Performed (QueryOp.answer (π := π))

/-- What a query does, which may raise. -/
abbrev QueryProgram (π ε α : Type) := ExceptT ε (Process (QueryOp π) QueryOp.answer) α

/-- What is raised on the way of a query: by the route, or by the counters. -/
inductive QueryRaised
  | raised (e : ProductRaised)
  | counterError (e : CounterError)
  deriving DecidableEq, Repr

/-- The value of a status. -/
def ProductQueryStatus.value : ProductQueryStatus → String
  | .ok => "ok"
  | .providerUnavailable => "provider_unavailable"
  | .unauthorizedProviderSession => "unauthorized_provider_session"
  | .notFound => "not_found"
  | .invalidQuery => "invalid_query"
  | .timeout => "timeout"
  | .malformedProviderResponse => "malformed_provider_response"

namespace Interleaved

/-- One operation. -/
def performs {ε : Type} (o : QueryOp π) : QueryProgram π ε o.answer := ExceptT.lift (perform o)

/-- What is there, or is raised. -/
def settled {ε α : Type} (r : Except ε α) : QueryProgram π ε α := ExceptT.mk (pure r)

/-- The lookups of a query. -/
def looking {α : Type} (p : Lookups α) : Process (QueryOp π) QueryOp.answer α :=
  p.among fun reference => perform (.getSecret reference)

/-! ### The guard -/

section

variable (callers : List ProductQueryCaller) (presented requiredScope : String)

/-- What looks references up, and may raise. -/
abbrev LookupProgram (ε α : Type) := ExceptT ε (Process String fun _ => Option String) α

/-- One caller of the loop. -/
def compared (matched : Option ProductQueryCaller) (caller : ProductQueryCaller) :
    LookupProgram AuthenticationFailure (Option ProductQueryCaller) := do
  match ← ExceptT.lift (Lookups.getSecret caller.apiKeyRef) with
  | none => return matched
  | some material =>
    match Text.compareDigest presented material with
    | none => throw .typeError
    | some same => return if same then some caller else matched

/-- `ProductAuthenticator.authenticate`. -/
def authenticate : LookupProgram AuthenticationFailure ProductPrincipal := do
  match ← callers.foldlM (compared presented) none with
  | none => throw .productAuthenticationFailed
  | some caller =>
    if requiredScope ∈ caller.scopes then return principal caller
    else throw .productAuthenticationFailed

end

/-- What `_require` raises of a failure. -/
def refusedAs : AuthenticationFailure → ProductRaised
  | .productAuthenticationFailed => .httpException 401 "product authentication failed"
  | .typeError => .typeError

variable (callers : List ProductQueryCaller) (xApiKey : Option String)

/-- `require_product_query`. -/
def guard : QueryProgram π QueryRaised ProductPrincipal :=
  catching
    (ExceptT.mk (looking (authenticate callers (xApiKey.getD "") "integration:query").run))
    fun e => throw (.raised (refusedAs e))

/-! ### The dispatcher -/

/-- `_resolve_query_secrets`. -/
def resolveQuerySecrets (refs : QueryRefs) : Lookups (Option (Dict String String)) :=
  match refs.mapM fun p => do return (← p.1, ← p.2) with
  | none => pure none
  | some pairs => do return (← (Lookups.resolveSecrets (Dict.ofPairs pairs)).run).toOption

/-- What the module does with a query, asking for secrets. -/
def asking : Callback QueryRefs (Option (Dict String String)) (Option QueryResult) →
    Process (QueryOp π) QueryOp.answer (Option QueryResult)
  | .done result => pure result
  | .ask refs next => do asking (next (← looking (resolveQuerySecrets refs)))

/-- `with Session(engine) as db`: the session is closed, whatever preparing raises. -/
def preparing (request : ProductQueryRequest) (capabilities : CapabilityRegistry) :
    QueryProgram π Fault (PreparedQuery π) := do
  performs .openSession
  let prepared ← performs
    (.prepareQuery request.capabilityBindingId request.payload capabilities)
  let closed ← performs .closeSession
  settled (fallible (α := Unit) closed)
  settled (fallible prepared)

/-- What was prepared is executed, for its owner. -/
def executing (application : String) (capabilities : CapabilityRegistry)
    (prepared : PreparedQuery π) : QueryProgram π Fault ProductQueryResponse := do
  let owner ← settled (fallible (capabilities prepared.capabilityId))
  if owner ≠ application then return .invalidQuery
  else do
    let moves ← performs (.executePreparedQuery prepared capabilities)
    let result ← ExceptT.lift (asking moves)
    let result ← settled (fallible result)
    settled (fallible (queryResponse result))

/-- What `IntegrationQueryDispatcher.dispatch` tries. -/
def tryQuery (application : String) (request : ProductQueryRequest) :
    QueryProgram π Fault ProductQueryResponse := do
  let capabilities ← performs .capabilityRegistry
  let capabilities ← settled (fallible (α := CapabilityRegistry) capabilities)
  let prepared ← preparing request capabilities
  executing application capabilities prepared

/-- `IntegrationQueryDispatcher.dispatch`, and what the route does of anything it raises. -/
def dispatchQuery (application : String) (request : ProductQueryRequest) :
    QueryProgram π QueryRaised ProductQueryResponse :=
  catching (tryQuery application request) fun _ => return .providerUnavailable

/-! ### The route -/

/-- A query that was let in: it is dispatched, and counted with its duration. -/
def measured (application : String) (request : ProductQueryRequest) :
    QueryProgram π QueryRaised ProductAnswer := do
  let started : ClockReading ← performs .monotonicSeconds
  let response ← dispatchQuery application request
  let ended : ClockReading ← performs .monotonicSeconds
  let raised ← performs
    (.record ⟨response.status.value, (ended.seconds.sub started.seconds).maxZero⟩)
  match (raised : Option CounterError) with
  | some e => throw (.counterError e)
  | none => return .query (queryStatusCode response.status) response

/-- `product_query`. -/
def productQuery (body : Option ProductQueryRequest) :
    QueryProgram π QueryRaised ProductAnswer := do
  let principal ← guard callers xApiKey
  let body ← settled ((validated body).mapError .raised)
  if body.capabilityBindingId ∉ principal.bindingIds then
    throw (.raised (.httpException 403 "product query not authorized"))
  else measured principal.application body

end Interleaved

/-! ### What surrounds the queries -/

/-- What is held, the tables and the module as they stand, the clock, and the counters. -/
structure QueryState (μ π : Type) where
  held : Held
  tables : Tables μ
  engine : Engine μ π
  clock : ClockReading
  counters : QueryCounters

/-- What an operation answers, and what it does to the state. -/
def queryHandles (printable : Char → Bool) :
    (o : QueryOp π) → QueryState μ π → o.answer → QueryState μ π → Prop
  | .getSecret reference, s, a, s' => a = s.held.get? reference ∧ s' = s
  | .monotonicSeconds, s, a, s' => a = s.clock ∧ s' = s
  | .capabilityRegistry, s, a, s' => a = s.engine.capabilityRegistry ∧ s' = s
  | .openSession, s, _, s' => s' = s
  | .prepareQuery capabilityBindingId payload capabilities, s, a, s' =>
    a = s.engine.prepareQuery s.tables capabilityBindingId payload capabilities ∧ s' = s
  | .closeSession, s, _, s' => s' = s
  | .executePreparedQuery prepared capabilities, s, a, s' =>
    a = s.engine.executePreparedQuery prepared capabilities ∧ s' = s
  | .record call, s, a, s' =>
    s' = { s with counters := (s.counters.record printable call).1 } ∧
      a = (s.counters.record printable call).2

/-- How queries interleave, where `changes` is what the surroundings do. -/
def queryRules (callers : List ProductQueryCaller) (printable : Char → Bool)
    (changes : QueryState μ π → QueryState μ π → Prop) :
    Threads.Rules (QueryState μ π) (QueryOp π) QueryOp.answer
      (Except QueryRaised ProductAnswer) where
  starts p := ∃ xApiKey body, p = (Interleaved.productQuery callers xApiKey body).run
  handles := queryHandles printable
  surroundings := changes

/-- The rest of the process: it counts no query. -/
def uncounted (s s' : QueryState μ π) : Prop := s'.counters = s.counters

/-- The queries of a process that counted none before. -/
def querySystem (callers : List ProductQueryCaller) (printable : Char → Bool) :
    StepSystem (Threads (QueryState μ π) (QueryOp π) QueryOp.answer
      (Except QueryRaised ProductAnswer)) Threads.Event :=
  Threads.system (queryRules callers printable uncounted) fun s => s.counters = .start

/-! ### What comes before an execution -/

/-- The operations that are performed in a session. -/
def QueryOp.inSession : QueryOp π → Bool
  | .prepareQuery _ _ _ | .closeSession => true
  | _ => false

/-- The operations that neither use a session nor lead to an execution. -/
def QueryOp.plain : QueryOp π → Bool
  | .getSecret _ | .monotonicSeconds | .record _ => true
  | _ => false

/-- The sessions that are opened, less the ones that are closed. -/
def sessions (log : List (QueryPerformed π)) : ℤ :=
  (log.map fun x =>
    match x.1 with
    | .openSession => (1 : ℤ)
    | .closeSession => -1
    | _ => 0).sum

/-- A query is prepared in a session of its own, which is closed. -/
def preparation (request : ProductQueryRequest) (capabilities : CapabilityRegistry)
    (prepared : Option (PreparedQuery π)) (closed : Option Unit) : List (QueryPerformed π) :=
  [⟨.capabilityRegistry, some capabilities⟩, ⟨.openSession, ()⟩,
    ⟨.prepareQuery request.capabilityBindingId request.payload capabilities, prepared⟩,
    ⟨.closeSession, closed⟩]

/-- A query was prepared, and its capability is the application's. -/
structure Owned (application : String) (request : ProductQueryRequest)
    (before : List (QueryPerformed π)) (prepared : PreparedQuery π)
    (capabilities : CapabilityRegistry) : Prop where
  preparation : preparation request capabilities (some prepared) (some ()) <:+ before
  owner : capabilities prepared.capabilityId = some application

/-- A query was cleared: the key that is presented was looked up for a caller with the scope, the
binding is granted to it, and the query was prepared for its application. -/
structure Cleared (callers : List ProductQueryCaller) (xApiKey : Option String)
    (body : Option ProductQueryRequest) (before : List (QueryPerformed π))
    (prepared : PreparedQuery π) (capabilities : CapabilityRegistry)
    (caller : ProductQueryCaller) (request : ProductQueryRequest) : Prop where
  mem : caller ∈ callers
  scope : "integration:query" ∈ caller.scopes
  presented : ⟨.getSecret caller.apiKeyRef, some (xApiKey.getD "")⟩ ∈ before
  body : body = some request
  granted : request.capabilityBindingId ∈ caller.bindingIds.map identifier
  owned : Owned caller.application request before prepared capabilities

/-- A log is orderly: what is executed was cleared, nothing but plain operations come after it, and
a session is open for nothing but the preparation, and not at the end. -/
structure Orderly (P : List (QueryPerformed π) → PreparedQuery π → CapabilityRegistry → Prop)
    (log : List (QueryPerformed π)) (done : Bool) : Prop where
  executes : Each (fun before x after => ∀ prepared capabilities,
    x.1 = .executePreparedQuery prepared capabilities →
      P before prepared capabilities ∧ ∀ y ∈ after, y.1.plain = true) log
  opens : Each (fun before x _ => x.1.inSession = true ∨ sessions before = 0) log
  closes : done = true → sessions log = 0

variable {P P' : List (QueryPerformed π) → PreparedQuery π → CapabilityRegistry → Prop}
  {log log' : List (QueryPerformed π)} {done : Bool}

theorem sessions_append : sessions (log ++ log') = sessions log + sessions log' := by
  rw [sessions, List.map_append, List.sum_append]
  rfl

theorem sessions_of_plain (h : ∀ x ∈ log, x.1.plain = true) : sessions log = 0 := by
  refine List.sum_eq_zero fun n hn => ?_
  obtain ⟨⟨o, a⟩, hx, rfl⟩ := List.mem_map.mp hn
  have hplain := h _ hx
  cases o <;> first | rfl | cases hplain

theorem orderly_of_plain (h : ∀ x ∈ log, x.1.plain = true) : Orderly P log done where
  executes := Process.each_of_forall fun x hx before after prepared capabilities hexecutes => by
    have hplain := h x hx
    rw [hexecutes] at hplain
    cases hplain
  opens := by
    rintro before x after rfl
    rw [List.forall_mem_append] at h
    exact .inr (sessions_of_plain h.1)
  closes _ := sessions_of_plain h

/-- What is orderly, behind plain operations. -/
theorem Orderly.behind (h : Orderly P log' done) (hplain : ∀ x ∈ log, x.1.plain = true)
    (hP : ∀ before prepared capabilities, P before prepared capabilities →
      P' (log ++ before) prepared capabilities) : Orderly P' (log ++ log') done where
  executes := by
    refine Process.each_append.mpr ⟨?_, h.executes.imp ?_⟩
    -- What is plain executes nothing.
    · refine Process.each_of_forall fun x hx before after prepared capabilities hexecutes => ?_
      have hplain := hplain x hx
      rw [hexecutes] at hplain
      cases hplain
    · intro before x after _ hx prepared capabilities hexecutes
      obtain ⟨hclear, hafter⟩ := hx prepared capabilities hexecutes
      exact ⟨hP _ _ _ hclear, hafter⟩
  opens := by
    refine Process.each_append.mpr ⟨?_, h.opens.imp ?_⟩
    · exact (@orderly_of_plain π P log false hplain).opens
    · intro before x after _ hx
      rwa [sessions_append, sessions_of_plain hplain, zero_add]
  closes hdone := by rw [sessions_append, sessions_of_plain hplain, h.closes hdone, add_zero]

/-- What is orderly and done, before plain operations. -/
theorem Orderly.followed (h : Orderly P log true) (hplain : ∀ x ∈ log', x.1.plain = true) :
    Orderly P (log ++ log') done where
  executes := by
    refine Process.each_append.mpr ⟨h.executes.imp ?_, ?_⟩
    · intro before x after _ hx prepared capabilities hexecutes
      obtain ⟨hclear, hafter⟩ := hx prepared capabilities hexecutes
      exact ⟨hclear, List.forall_mem_append.mpr ⟨hafter, hplain⟩⟩
    · refine Process.each_of_forall fun x hx before after prepared capabilities hexecutes => ?_
      have hplain := hplain x hx
      rw [hexecutes] at hplain
      cases hplain
  opens := by
    refine Process.each_append.mpr ⟨h.opens, ?_⟩
    rintro before x after rfl
    rw [List.forall_mem_append] at hplain
    exact .inr (by rw [sessions_append, h.closes rfl, sessions_of_plain hplain.1, add_zero])
  closes _ := by rw [sessions_append, h.closes rfl, sessions_of_plain hplain, add_zero]

theorem Orderly.of_prefix (h : Orderly P (log ++ log') done) : Orderly P log false where
  executes := (Process.each_append.mp h.executes).1.imp
    fun before x after _ hx prepared capabilities hexecutes => by
      obtain ⟨hclear, hafter⟩ := hx prepared capabilities hexecutes
      exact ⟨hclear, (List.forall_mem_append.mp hafter).1⟩
  opens := (Process.each_append.mp h.opens).1
  closes := nofun

theorem orderly_nil : Orderly P [] false :=
  orderly_of_plain (List.forall_mem_nil _)

/-- A registry that raises opens no session. -/
theorem orderly_registry (found : Option CapabilityRegistry) :
    Orderly P [⟨.capabilityRegistry, found⟩] true where
  executes := Process.each_cons.mpr ⟨fun _ _ => nofun, Process.each_nil⟩
  opens := Process.each_cons.mpr ⟨.inr rfl, Process.each_nil⟩
  closes _ := rfl

variable {request : ProductQueryRequest} {capabilities : CapabilityRegistry}

/-- What is prepared is prepared in a session that is closed. -/
theorem orderly_preparation (prepared : Option (PreparedQuery π)) (closed : Option Unit) :
    Orderly P (preparation request capabilities prepared closed) true where
  executes := by
    simp only [preparation, Process.each_cons]
    exact ⟨fun _ _ => nofun, fun _ _ => nofun, fun _ _ => nofun, fun _ _ => nofun,
      Process.each_nil⟩
  opens := by
    simp only [preparation, Process.each_cons]
    exact ⟨.inr rfl, .inr rfl, .inl rfl, .inl rfl, Process.each_nil⟩
  closes _ := rfl

/-- What is executed is executed behind its preparation, and goes on with lookups. -/
theorem orderly_executed {application : String} {prepared : PreparedQuery π}
    (howner : capabilities prepared.capabilityId = some application)
    (moves : Callback QueryRefs (Option (Dict String String)) (Option QueryResult))
    (hplain : ∀ x ∈ log, x.1.plain = true) :
    Orderly (Owned application request)
      (preparation request capabilities (some prepared) (some ()) ++
        ⟨.executePreparedQuery prepared capabilities, moves⟩ :: log) done where
  executes := by
    refine Process.each_append.mpr ⟨?_, Process.each_cons.mpr ⟨?_, ?_⟩⟩
    -- A preparation executes nothing; what is executed stands right behind it.
    · refine Process.each_of_forall fun x hx before after prepared capabilities hexecutes => ?_
      simp only [preparation, List.mem_cons, List.not_mem_nil, or_false] at hx
      rcases hx with rfl | rfl | rfl | rfl <;> cases hexecutes
    · intro prepared' capabilities' hexecutes
      cases hexecutes
      rw [List.append_nil]
      exact ⟨⟨List.suffix_rfl, howner⟩, hplain⟩
    · refine Process.each_of_forall fun x hx before after prepared capabilities hexecutes => ?_
      have hplain := hplain x hx
      rw [hexecutes] at hplain
      cases hplain
  opens := by
    refine Process.each_append.mpr
      ⟨(orderly_preparation (P := Owned application request) _ _).opens, ?_⟩
    refine Process.each_cons.mpr ⟨.inr rfl, ?_⟩
    rintro before x after rfl
    rw [List.forall_mem_append] at hplain
    right
    show sessions (_ ++ ([⟨.executePreparedQuery prepared capabilities, moves⟩] ++ before)) = 0
    rw [sessions_append, sessions_append, sessions_of_plain hplain.1]
    rfl
  closes _ := by
    show sessions (_ ++ ([⟨.executePreparedQuery prepared capabilities, moves⟩] ++ log)) = 0
    rw [sessions_append, sessions_append, sessions_of_plain hplain]
    rfl

/-! ### What a query does -/

namespace Interleaved

/-- A lookup, as an operation of a query. -/
def lookedUp (x : LookedUp) : QueryPerformed π := ⟨.getSecret x.1, x.2⟩

/-- The lookups of a query are those of what looks up. -/
theorem upholds_looking {α : Type} {p : Lookups α} {P : List LookedUp → Option α → Prop}
    (h : p.Upholds P) : (looking (π := π) p).Upholds
      fun log r => ∃ lookups : List LookedUp, log = lookups.map lookedUp ∧ P lookups r := by
  induction p generalizing P with
  | done a => exact ⟨[], rfl, h⟩
  | act reference next ih =>
    refine Process.upholds_perform_bind ⟨[], rfl, h.1⟩ fun a => ?_
    refine (ih a (h.2 a)).mono fun log r hlog => ?_
    obtain ⟨lookups, rfl, hlookups⟩ := hlog
    exact ⟨⟨reference, a⟩ :: lookups, rfl, hlookups⟩

theorem plain_lookups {lookups : List LookedUp} :
    ∀ x ∈ lookups.map (lookedUp (π := π)), x.1.plain = true := by
  intro x hx
  obtain ⟨y, -, rfl⟩ := List.mem_map.mp hx
  rfl

theorem plain_looking {α : Type} (p : Lookups α) :
    (looking (π := π) p).Upholds fun log _ => ∀ x ∈ log, x.1.plain = true := by
  refine (upholds_looking p.upholds_true).mono fun log r hlog => ?_
  obtain ⟨lookups, rfl, -⟩ := hlog
  exact plain_lookups

/-- What the module asks for is looked up. -/
theorem plain_asking
    (moves : Callback QueryRefs (Option (Dict String String)) (Option QueryResult)) :
    (asking (π := π) moves).Upholds fun log _ => ∀ x ∈ log, x.1.plain = true := by
  induction moves with
  | done result => exact List.forall_mem_nil _
  | ask refs next ih => exact Process.upholds_forall_bind (plain_looking _) ih

variable {application : String}

/-- What was prepared is executed for its owner, or not at all. -/
theorem orderly_executing (prepared : PreparedQuery π) :
    (executing application capabilities prepared).run.Upholds fun log r =>
      Orderly (Owned application request)
        (preparation request capabilities (some prepared) (some ()) ++ log) r.isSome := by
  have hnothing (done : Bool) : Orderly (Owned application request)
      (preparation request capabilities (some prepared) (some ()) ++ []) done :=
    (orderly_preparation _ _).followed (List.forall_mem_nil _)
  unfold executing
  -- Without an owner, or for another one, nothing is executed.
  cases howner : capabilities prepared.capabilityId with
  | none => exact hnothing true
  | some owner =>
    show (if owner ≠ application then return .invalidQuery else _ :
      QueryProgram π Fault ProductQueryResponse).run.Upholds _
    split
    · exact hnothing true
    · next howns =>
      obtain rfl := not_not.mp howns
      refine ⟨hnothing false, fun moves => ?_⟩
      have hexecuted {log : List (QueryPerformed π)} (done : Bool)
          (hplain : ∀ x ∈ log, x.1.plain = true) := @orderly_executed π log done request
        capabilities owner prepared howner moves hplain
      show Process.Upholds _ (ExceptT.lift (asking moves) >>= _ : QueryProgram π Fault _).run
      rw [ExceptT.run_bind_lift]
      refine Process.upholds_bind ((plain_asking moves).mono fun log r hlog => ⟨?_, ?_⟩)
      · exact fun _ => hexecuted false hlog
      · intro result _
        have hanswered := @hexecuted (log ++ []) true ((List.append_nil log).symm ▸ hlog)
        cases result with
        | none => exact hanswered
        | some result =>
          show (settled (fallible (queryResponse result)) : QueryProgram π Fault _).run.Upholds _
          cases queryResponse result <;> exact hanswered

/-- A query is executed for the owner of what was prepared. -/
theorem orderly_tryQuery (application : String) (request : ProductQueryRequest) :
    (tryQuery (π := π) application request).run.Upholds
      fun log r => Orderly (Owned application request) log r.isSome := by
  refine ⟨orderly_nil, fun found => ?_⟩
  cases found with
  | none => exact orderly_registry none
  | some capabilities =>
    have hopening (prepared : Option (PreparedQuery π)) (closed : Option Unit) :
        Orderly (Owned application request)
          (preparation request capabilities prepared closed) true := orderly_preparation _ _
    -- A query that stands within its preparation has performed a prefix of it.
    refine ⟨?_, fun _ => ⟨?_, fun prepared => ⟨?_, fun closed => ?_⟩⟩⟩
    · exact @Orderly.of_prefix π _ [_] [_, _, _] true (hopening none none)
    · exact @Orderly.of_prefix π _ [_, _] [_, _] true (hopening none none)
    · exact @Orderly.of_prefix π _ [_, _, _] [_] true (hopening prepared none)
    cases closed with
    | none => exact hopening prepared none
    | some closed =>
      cases prepared with
      | none => exact hopening none (some closed)
      | some prepared => exact orderly_executing prepared

/-- Whatever is raised, a query that was dispatched is orderly. -/
theorem orderly_dispatchQuery (application : String) (request : ProductQueryRequest) :
    (dispatchQuery (π := π) application request).run.Upholds
      fun log r => Orderly (Owned application request) log r.isSome := by
  refine Process.upholds_catching ((orderly_tryQuery application request).mono ?_)
  refine fun log r hlog => ⟨?_, ?_, ?_⟩
  · rintro rfl
    exact hlog
  · rintro response rfl
    exact hlog
  · rintro fault rfl
    show Orderly _ (log ++ []) true
    rwa [List.append_nil]

/-- And so is one that is measured. -/
theorem orderly_measured (application : String) (request : ProductQueryRequest) :
    (measured (π := π) application request).run.Upholds
      fun log r => Orderly (Owned application request) log r.isSome := by
  have hclock (started : ClockReading) {log : List (QueryPerformed π)} {done : Bool}
      (h : Orderly (Owned application request) log done) :
      Orderly (Owned application request)
        ([⟨.monotonicSeconds, started⟩] ++ log) done := by
    refine h.behind (List.forall_mem_singleton.mpr rfl)
      fun before prepared capabilities howned => ?_
    exact ⟨howned.preparation.trans (List.suffix_append _ _), howned.owner⟩
  refine ⟨orderly_nil, fun started => ?_⟩
  refine Process.upholds_except_bind ((orderly_dispatchQuery application request).mono ?_)
  refine fun log r hlog => ⟨?_, ?_, ?_⟩
  · rintro rfl
    exact hclock started hlog
  · rintro e rfl
    exact hclock started hlog
  · rintro response rfl
    -- Behind the dispatch there are the clock and the counters, which are plain.
    have hfollowed {log' : List (QueryPerformed π)} (done : Bool)
        (hplain : ∀ x ∈ log', x.1.plain = true) :
        Orderly (Owned application request)
          ([⟨.monotonicSeconds, started⟩] ++ (log ++ log')) done :=
      hclock started (Orderly.followed hlog hplain)
    refine ⟨hfollowed false (List.forall_mem_nil _), fun ended => ?_⟩
    refine ⟨hfollowed false (List.forall_mem_singleton.mpr rfl), fun raised => ?_⟩
    have hrecorded := @hfollowed [⟨.monotonicSeconds, ended⟩, ⟨.record _, raised⟩] true
      (by simp [QueryOp.plain])
    cases raised <;> exact hrecorded

/-! ### Who is let in -/

/-- A caller that is taken was looked up under the key that is presented. -/
theorem upholds_foldlM_compared (presented : String) (callers : List ProductQueryCaller)
    (matched : Option ProductQueryCaller) :
    (callers.foldlM (compared presented) matched).run.Upholds fun log r =>
      ∀ caller, r = some (.ok (some caller)) →
        matched = some caller ∨ caller ∈ callers ∧ ⟨caller.apiKeyRef, some presented⟩ ∈ log := by
  induction callers generalizing matched with
  | nil =>
    rintro caller ⟨⟩
    exact .inl rfl
  | cons first callers ih =>
    -- What the callers behind this one make of it, whatever it left matched.
    have hlater {value : Option String} {matched' : Option ProductQueryCaller}
        (hmatched : ∀ caller, matched' = some caller → matched = some caller ∨
          caller = first ∧ value = some presented) :
        (callers.foldlM (compared presented) matched').run.Upholds fun log r =>
          ∀ caller, r = some (.ok (some caller)) → matched = some caller ∨
            caller ∈ first :: callers ∧
              ⟨caller.apiKeyRef, some presented⟩ ∈ (⟨first.apiKeyRef, value⟩ :: log) := by
      refine (ih matched').mono fun log r hlog caller hcaller => ?_
      rcases hlog caller hcaller with h | ⟨hmem, hlookup⟩
      · rcases hmatched caller h with h | ⟨rfl, rfl⟩
        · exact .inl h
        · exact .inr ⟨List.mem_cons_self, List.mem_cons_self⟩
      · exact .inr ⟨List.mem_cons_of_mem _ hmem, List.mem_cons_of_mem _ hlookup⟩
    rw [List.foldlM_cons]
    refine ⟨nofun, fun value => ?_⟩
    cases value with
    | none => exact hlater fun caller hcaller => .inl hcaller
    | some material =>
      show ((match Text.compareDigest presented material with
        | none => throw .typeError
        | some same => return if same then some first else matched :
          LookupProgram AuthenticationFailure _) >>= _).run.Upholds _
      cases hsame : Text.compareDigest presented material with
      | none => exact nofun
      | some same =>
        -- Where the material is the same, it is the key that is presented.
        obtain rfl | rfl := same.eq_false_or_eq_true
        · refine hlater fun caller hcaller => .inr ?_
          obtain rfl := Option.some.inj hcaller
          rw [Text.eq_of_compareDigest hsame]
          exact ⟨rfl, rfl⟩
        · exact hlater fun caller hcaller => .inl hcaller

/-- Where the lookup is answered from one mapping, a caller is compared with it. -/
theorem comesTo_compared {held : Held} (presented : String)
    (matched : Option ProductQueryCaller) (caller : ProductQueryCaller) :
    (compared presented matched caller).run.ComesTo (FromHeld held)
      (ProductSurface.compared held presented matched caller) := by
  refine Process.comesTo_act fun given hgiven => ?_
  obtain rfl : given = held.get? caller.apiKeyRef := hgiven
  unfold ProductSurface.compared
  cases held.get? caller.apiKeyRef with
  | none => exact Process.comesTo_pure
  | some material =>
    show (match Text.compareDigest presented material with
      | none => throw .typeError
      | some same => return if same then some caller else matched :
        LookupProgram AuthenticationFailure _).run.ComesTo _ _
    simp only
    cases Text.compareDigest presented material <;> exact Process.comesTo_pure

/-- A principal is that of a caller with the scope, which was looked up under that key. -/
theorem upholds_authenticate (callers : List ProductQueryCaller)
    (presented requiredScope : String) :
    (authenticate callers presented requiredScope).run.Upholds fun log r =>
      ∀ found, r = some (.ok found) → ∃ caller ∈ callers, requiredScope ∈ caller.scopes ∧
        found = principal caller ∧ ⟨caller.apiKeyRef, some presented⟩ ∈ log := by
  refine Process.upholds_except_bind ((upholds_foldlM_compared presented callers none).mono ?_)
  refine fun log r hlog => ⟨?_, ?_, ?_⟩
  · rintro rfl
    exact nofun
  · rintro e rfl
    exact nofun
  · rintro matched rfl
    cases matched with
    | none => exact nofun
    | some caller =>
      obtain h | ⟨hmem, hlookup⟩ := hlog caller rfl
      · cases h
      · simp only
        split
        · next hscope =>
          rintro found hfound
          obtain rfl : principal caller = found := Except.ok.inj (Option.some.inj hfound)
          exact ⟨caller, hmem, hscope, rfl, List.mem_append_left [] hlookup⟩
        · exact nofun

/-- So is the principal a query is let in with. -/
theorem upholds_guard (callers : List ProductQueryCaller) (xApiKey : Option String) :
    (guard (π := π) callers xApiKey).run.Upholds fun log r =>
      (∀ x ∈ log, x.1.plain = true) ∧
      ∀ found, r = some (.ok found) → ∃ caller ∈ callers, "integration:query" ∈ caller.scopes ∧
        found = principal caller ∧
          ⟨.getSecret caller.apiKeyRef, some (xApiKey.getD "")⟩ ∈ log := by
  refine Process.upholds_catching ((upholds_looking
    (upholds_authenticate callers (xApiKey.getD "") "integration:query")).mono ?_)
  rintro log r ⟨lookups, rfl, hlookups⟩
  refine ⟨?_, ?_, ?_⟩
  · rintro rfl
    exact ⟨plain_lookups, nofun⟩
  · rintro found rfl
    refine ⟨plain_lookups, ?_⟩
    rintro _ ⟨⟩
    obtain ⟨caller, hmem, hscope, hfound, hlookup⟩ := hlookups found rfl
    exact ⟨caller, hmem, hscope, hfound, List.mem_map_of_mem (f := lookedUp) hlookup⟩
  · rintro e rfl
    refine ⟨?_, nofun⟩
    rw [List.append_nil]
    exact plain_lookups

/-- What is executed was cleared. -/
theorem orderly_productQuery (callers : List ProductQueryCaller) (xApiKey : Option String)
    (body : Option ProductQueryRequest) :
    (productQuery (π := π) callers xApiKey body).run.Upholds fun log r =>
      Orderly (fun before prepared capabilities => ∃ caller request,
        Cleared callers xApiKey body before prepared capabilities caller request) log r.isSome := by
  refine Process.upholds_except_bind ((upholds_guard callers xApiKey).mono ?_)
  rintro log r ⟨hplain, hfound⟩
  refine ⟨fun _ => orderly_of_plain hplain, fun _ _ => orderly_of_plain hplain, ?_⟩
  rintro found rfl
  obtain ⟨caller, hmem, hscope, rfl, hlookup⟩ := hfound found rfl
  -- A query that is refused has looked up credentials, and no more.
  have hrefused : ∀ done, Orderly (fun before prepared capabilities => ∃ caller request,
      Cleared callers xApiKey body before prepared capabilities caller request) (log ++ []) done :=
    fun _ => orderly_of_plain ((List.append_nil log).symm ▸ hplain)
  cases body with
  | none => exact hrefused true
  | some request =>
    show (if request.capabilityBindingId ∉ (principal caller).bindingIds then throw _
      else measured caller.application request : QueryProgram π _ _).run.Upholds _
    split
    · exact hrefused true
    · next hgranted =>
      refine (orderly_measured caller.application request).mono fun log' r' hlog' => ?_
      refine hlog'.behind hplain fun before prepared capabilities howned => ?_
      refine ⟨caller, request, hmem, hscope, List.mem_append_left _ hlookup, rfl,
        not_not.mp hgranted, ?_⟩
      exact ⟨howned.preparation.trans (List.suffix_append _ _), howned.owner⟩

end Interleaved

variable {callers : List ProductQueryCaller} {printable : Char → Bool}
  {changes : QueryState μ π → QueryState μ π → Prop} {init : QueryState μ π → Prop}
  {c : Threads (QueryState μ π) (QueryOp π) QueryOp.answer (Except QueryRaised ProductAnswer)}
  {steps : List (Threads (QueryState μ π) (QueryOp π) QueryOp.answer
    (Except QueryRaised ProductAnswer) × Threads.Event)}

/-- **Nothing is executed that was not cleared before**, however queries interleave, and whatever
becomes of what is held, the tables and the module meanwhile: each query is orderly, and each of its
answers was given in a step of its own of the run, as things stood in that step. -/
theorem executes_cleared
    (h : (Threads.system (queryRules callers printable changes) init).Run steps c) :
    ∀ t ∈ c.threads, ∃ xApiKey body,
      t.program = (Interleaved.productQuery callers xApiKey body).run ∧
      Orderly (fun before prepared capabilities => ∃ caller request,
        Cleared callers xApiKey body before prepared capabilities caller request)
        t.log t.now.result.isSome ∧
      Threads.Happened (queryRules callers printable changes) steps c t := by
  intro t ht
  obtain ⟨xApiKey, body, hprogram⟩ := Threads.starts_program h.reachable t ht
  refine ⟨xApiKey, body, hprogram, ?_, Threads.happened h t⟩
  exact (Interleaved.orderly_productQuery callers xApiKey body).of_goes (hprogram ▸ t.goes)

/-! ### One query -/

/-- A reading of the clock. -/
def someReading : ClockReading := ⟨.finite 0, PyFloat.reading_zero⟩

theorem no_payload_length : ([] : Dict String Json).length ≤ 16 := Nat.zero_le 16

/-- What a query asks for. -/
def someRequest : ProductQueryRequest := ⟨identifier 1, [], no_payload_length⟩

/-- A registry with one capability. -/
def someCapabilities : CapabilityRegistry := fun capability =>
  if capability = "messaging.receive.v1" then some "dotmac_erp" else none

/-- A query of that capability. -/
def somePrepared : PreparedQuery Unit := ⟨"messaging.receive.v1", ()⟩

/-- What is held for a caller, and for a connector. -/
def someHeld : Held :=
  [("env://INTEGRATOR_SECRET_CALLER", "caller-key"),
    ("env://INTEGRATOR_SECRET_ERP", "provider-key")]

/-- What a query performs: the caller is looked up, the query is prepared and executed, the
connector's secret is looked up twice, and the query is counted. -/
def queriedLog : List (QueryPerformed Unit) :=
  ⟨.getSecret "env://INTEGRATOR_SECRET_CALLER", some "caller-key"⟩ ::
    ⟨.monotonicSeconds, someReading⟩ ::
    (preparation someRequest someCapabilities (some somePrepared) (some ()) ++
    [⟨.executePreparedQuery somePrepared someCapabilities,
        querying.executePreparedQuery somePrepared someCapabilities⟩,
      ⟨.getSecret "env://INTEGRATOR_SECRET_ERP", some "provider-key"⟩,
      ⟨.getSecret "env://INTEGRATOR_SECRET_ERP", some "provider-key"⟩,
      ⟨.monotonicSeconds, someReading⟩, ⟨.record ⟨"ok", .finite 0⟩, none⟩])

/-- What it is answered. -/
def someResponse : ProductQueryResponse := ⟨.ok, some [], by simp⟩

/-- The query, answered. -/
def queriedThread : Thread (QueryOp Unit) QueryOp.answer (Except QueryRaised ProductAnswer) where
  program := (Interleaved.productQuery [someCaller] (some "caller-key") (some someRequest)).run
  log := queriedLog
  now := .done (.ok (.query 200 someResponse))
  goes := .act (.act (.act (.act (.act (.act (.act (.act (.act (.act (.act (.here _)))))))))))

/-- A process with one caller. -/
def someState (counters : QueryCounters) : QueryState Unit Unit :=
  ⟨someHeld, noRows, querying, someReading, counters⟩

/-- The counters, with one query counted. -/
def countedOnce : QueryCounters :=
  (QueryCounters.start.record (fun _ => true) ⟨"ok", .finite 0⟩).1

/-- The query runs alone. -/
theorem reachable_queried {changes : QueryState Unit Unit → QueryState Unit Unit → Prop}
    {init : QueryState Unit Unit → Prop} (hinit : init (someState .start)) :
    (Threads.system (queryRules [someCaller] (fun _ => true) changes) init).Reachable
      ⟨someState countedOnce, [queriedThread]⟩ := by
  have hrecord : queryHandles (fun _ => true) (.record ⟨"ok", .finite 0⟩) (someState .start) none
      (someState countedOnce) := by
    have haccepted : (QueryCounters.start.record (fun _ => true) ⟨"ok", .finite 0⟩).2 = none := by
      decide
    exact ⟨rfl, haccepted.symm⟩
  refine Threads.reachable_alone hinit ⟨some "caller-key", some someRequest, rfl⟩ ?_
  refine .cons ⟨rfl, rfl⟩ (.cons ⟨rfl, rfl⟩ (.cons ⟨rfl, rfl⟩ (.cons rfl (.cons ⟨rfl, rfl⟩ ?_))))
  refine .cons rfl (.cons ⟨rfl, rfl⟩ (.cons ⟨rfl, rfl⟩ (.cons ⟨rfl, rfl⟩ ?_)))
  exact .cons ⟨rfl, rfl⟩ (.cons hrecord (.nil _))

theorem executes_cleared_queried : ∃ steps xApiKey body,
    (querySystem [someCaller] fun _ => true).Run steps ⟨someState countedOnce, [queriedThread]⟩ ∧
      queriedThread.program = (Interleaved.productQuery [someCaller] xApiKey body).run ∧
      Orderly (fun before prepared capabilities => ∃ caller request,
        Cleared [someCaller] xApiKey body before prepared capabilities caller request)
        queriedThread.log queriedThread.now.result.isSome ∧
      Threads.Happened (queryRules [someCaller] (fun _ => true) uncounted) steps
        ⟨someState countedOnce, [queriedThread]⟩ queriedThread := by
  have h : (querySystem [someCaller] fun _ => true).Reachable
      ⟨someState countedOnce, [queriedThread]⟩ := reachable_queried rfl
  obtain ⟨steps, hrun⟩ := h.exists_run
  obtain ⟨xApiKey, body, hqueried⟩ :=
    executes_cleared hrun queriedThread (List.mem_singleton_self _)
  exact ⟨steps, xApiKey, body, hrun, hqueried⟩

end DotmacIntegrator.ProductSurface
