import DotmacIntegrator.Foundation.Process
import DotmacIntegrator.Foundation.Transaction
import DotmacIntegrator.Ingress.CappedBody
import DotmacIntegrator.Secrets.Resolver
import DotmacIntegrator.Telemetry.Counters

/-!
# The public ingress

A provider delivers events, or activates a subscription with a handshake. Both routes read the body
under the cap before anything else, hand it to the engine of the module, and count what the engine
decided. The engine opens units of work, resolves secrets, and reports the signatures it verified;
what else it does is left open. Requests interleave.

## Main definitions

* `unitOfWork`: the transaction a unit of work is
* `IngressModule`: the engine, as programs that ask for what the assembly supplies
* `ingressDelivery`, `ingressHandshake`: the two routes
* `ingressRules`: how requests interleave, with each other and with the rest of the deployment

## Main results

* `within_unitOfWork`: a unit lands whole, or leaves nothing
* `ingress_counts`: requests are counted as they are answered
* `ingress_reads_first`: the engine is handed a whole body within the cap, or nothing
-/

namespace DotmacIntegrator.Ingress

open Process (Performed perform)
open Secrets Stream' Telemetry

/-- What is raised on the way of a request: by the module or the database, or by the counters. -/
inductive IngressRaised
  | raised (name : String)
  | counterError (e : CounterError)
  deriving DecidableEq, Repr

/-! ### Units of work -/

/-- What the database raises at the end of a unit. -/
structure UnitFaults where
  commit : Option IngressRaised := none
  rollback : Option IngressRaised := none

variable {δ γ κ : Type}

/-- What may be raised. -/
def attempt (exc : Option IngressRaised) : Transaction δ IngressRaised Unit :=
  match exc with
  | none => pure ()
  | some e => .raise e

/-- What a caller does with the session of a unit. -/
abbrev UnitBody (δ γ : Type) := δ → Except IngressRaised γ × δ

/-- The body of a unit, which writes to the session. -/
def uses (body : UnitBody δ γ) : Transaction δ IngressRaised γ := do
  let seen ← .peek
  .write fun _ => (body seen).2
  match (body seen).1 with
  | .ok a => return a
  | .error e => .raise e

/-- A clean exit is committed. -/
def landing (faults : UnitFaults) (body : UnitBody δ γ) : Transaction δ IngressRaised γ := do
  let a ← uses body
  attempt faults.commit
  .commit
  return a

/-- An exception is rolled back, and goes on. -/
def unwinding (faults : UnitFaults) (e : IngressRaised) : Transaction δ IngressRaised γ := do
  attempt faults.rollback
  .rollback
  .raise e

/-- `unit_of_work`: commit on a clean exit, roll back on an exception. -/
def unitOfWork (faults : UnitFaults) (body : UnitBody δ γ) : Transaction δ IngressRaised γ :=
  (landing faults body).catching (unwinding faults)

/-! ### The engine -/

/-- `EndpointAddress`: the bearer key of an endpoint. -/
structure EndpointAddress where
  key : String

/-- `IngressRequest`: the envelope, unmodified. -/
structure IngressRequest where
  rawBody : Bytes
  headers : Dict String String
  params : Dict String String

variable (V : Vocabulary)

/-- `IngressCode`: the codes of the engine's outcomes, which are the declared ones. -/
abbrev IngressCode := {code : String // code ∈ V.ingressCodes.1}

/-- What a provider is told of an outcome that has a body of its own. -/
structure Acknowledgement where
  body : Bytes
  mediaType : String
  deriving DecidableEq

/-- `IngressOutcome`: what the engine decided. -/
structure IngressOutcome where
  code : IngressCode V
  statusCode : ℕ
  acknowledgement : Option Acknowledgement

/-- What the engine asks for on either route. -/
inductive EngineOp (δ γ : Type)
  | unit (body : UnitBody δ γ)
  | resolveSecrets (refs : Dict String String)

/-- What the engine asks for on a delivery: its signatures are observed too. -/
inductive ReceiveOp (δ γ : Type)
  | engine (op : EngineOp δ γ)
  | observeVerification (accepted : Bool) (matchedSecretPositions : List ℤ)

/-- What the engine is answered. -/
def EngineOp.answer : EngineOp δ γ → Type
  | .unit _ => Except IngressRaised γ
  | .resolveSecrets _ => Except SecretsNotHeld (Dict String String)

/-- What the engine is answered on a delivery. -/
def ReceiveOp.answer : ReceiveOp δ γ → Type
  | .engine op => op.answer
  | .observeVerification _ _ => Except IngressRaised Unit

/-- `dotmac_integration`: its two façades, and its refusal of a body that is too large. -/
structure IngressModule (δ γ κ : Type) where
  receive : EndpointAddress → IngressRequest → κ →
    Process (ReceiveOp δ γ) ReceiveOp.answer (Except IngressRaised (IngressOutcome V))
  answerChallenge : EndpointAddress → IngressRequest → κ →
    Process (EngineOp δ γ) EngineOp.answer (Except IngressRaised (IngressOutcome V))
  payloadTooLarge : IngressOutcome V

/-! ### The routes -/

/-- What a request does. To read the body of a client that disconnects raises, which is left out. -/
inductive IngressOp (δ γ κ : Type)
  | readBody (stream : Seq Bytes) (limit : ℕ)
  | discover
  | engine (op : EngineOp δ γ)
  | record (call : IngressCall)

/-- What it is answered. -/
def IngressOp.answer : IngressOp δ γ κ → Type
  | .readBody _ _ => Except BodyTooLarge Bytes
  | .discover => Except IngressRaised κ
  | .engine op => op.answer
  | .record _ => Except IngressRaised Unit

/-- What a request does, which may raise. -/
abbrev IngressProgram (δ γ κ α : Type) :=
  ExceptT IngressRaised (Process (IngressOp δ γ κ) IngressOp.answer) α

/-- A request of a provider, with the stream of its body. -/
structure ProviderRequest where
  endpointKey : String
  stream : Seq Bytes
  headers : Dict String String
  params : Dict String String

/-- What a provider is answered: the code of an outcome, or its acknowledgement. -/
inductive IngressAnswer
  | code (code : String) (statusCode : ℕ)
  | acknowledged (acknowledgement : Acknowledgement) (statusCode : ℕ)
  deriving DecidableEq

variable {V}

/-- `_answer`. -/
def answerOf (outcome : IngressOutcome V) : IngressAnswer :=
  match outcome.acknowledgement with
  | none => .code outcome.code outcome.statusCode
  | some acknowledgement => .acknowledged acknowledgement outcome.statusCode

/-- One operation of a request. -/
def performs (o : IngressOp δ γ κ) : Process (IngressOp δ γ κ) IngressOp.answer o.answer :=
  perform o

/-- A call of the counters. -/
def record (call : IngressCall) : IngressProgram δ γ κ Unit :=
  ExceptT.mk (performs (.record call))

/-- `integration.discover()`. -/
def discover : IngressProgram δ γ κ κ := ExceptT.mk (performs .discover)

/-- What the engine asks for is done by the assembly. -/
def asked (op : EngineOp δ γ) : Process (IngressOp δ γ κ) IngressOp.answer op.answer :=
  performs (.engine op)

/-- On a delivery, what is observed is counted. -/
def observed : (op : ReceiveOp δ γ) →
    Process (IngressOp δ γ κ) IngressOp.answer op.answer
  | .engine op => asked op
  | .observeVerification accepted positions =>
    performs (.record (.verification accepted positions))

/-- The outcome of a handshake, as it is counted. -/
def challengeOutcome (outcome : IngressOutcome V) : String :=
  if outcome.code.1 = "challenge_answered" then "served" else "refused"

/-- `_counted`. -/
def counted (outcome : IngressOutcome V) (handshake : Bool) :
    IngressProgram δ γ κ (IngressOutcome V) := do
  record (.ingressOutcome outcome.code)
  if handshake then record (.challenge (challengeOutcome outcome))
  return outcome

variable (M : IngressModule V δ γ κ) (limit : ℕ)

/-- `receive_delivery`. -/
def receiveDelivery (endpoint : EndpointAddress) (request : IngressRequest) :
    IngressProgram δ γ κ (IngressOutcome V) := do
  let registry ← discover
  let outcome ← ExceptT.mk ((M.receive endpoint request registry).among observed)
  counted outcome false

/-- `answer_handshake`. -/
def answerHandshake (endpoint : EndpointAddress) (request : IngressRequest) :
    IngressProgram δ γ κ (IngressOutcome V) := do
  let registry ← discover
  let outcome ← ExceptT.mk ((M.answerChallenge endpoint request registry).among asked)
  counted outcome true

/-- `read_capped_body`, of the body of a request. -/
def readBody (r : ProviderRequest) : IngressProgram δ γ κ (Except BodyTooLarge Bytes) :=
  ExceptT.lift (performs (.readBody r.stream limit))

/-- `ingress_delivery`. -/
def ingressDelivery (r : ProviderRequest) : IngressProgram δ γ κ IngressAnswer := do
  match ← readBody limit r with
  | .error _ =>
    record (.ingressOutcome M.payloadTooLarge.code)
    return answerOf M.payloadTooLarge
  | .ok body =>
    return answerOf (← receiveDelivery M ⟨r.endpointKey⟩ ⟨body, r.headers, r.params⟩)

/-- `ingress_handshake`. -/
def ingressHandshake (r : ProviderRequest) : IngressProgram δ γ κ IngressAnswer := do
  match ← readBody limit r with
  | .error _ =>
    record (.ingressOutcome M.payloadTooLarge.code)
    record (.challenge "refused")
    return answerOf M.payloadTooLarge
  | .ok body =>
    return answerOf (← answerHandshake M ⟨r.endpointKey⟩ ⟨body, r.headers, r.params⟩)

/-- The two routes: a delivery, or a handshake. -/
def ingressRoute (handshake : Bool) (r : ProviderRequest) : IngressProgram δ γ κ IngressAnswer :=
  if handshake then ingressHandshake M limit r else ingressDelivery M limit r

/-! ### What surrounds the requests -/

/-- The tables, and the counters of the process. -/
structure IngressState (δ : Type) where
  tables : δ
  counters : IngressCounters

/-- What a call of the counters comes to. -/
def recordedAs : Option CounterError → Except IngressRaised Unit
  | none => .ok ()
  | some e => .error (.counterError e)

variable (V) (printable : Char → Bool)

/-- What an operation answers, and what it does to the state. -/
def handles : (o : IngressOp δ γ κ) → IngressState δ → o.answer → IngressState δ → Prop
  | .readBody stream limit, s, a, s' => (∃ pulled, Ends limit stream pulled a) ∧ s' = s
  | .discover, s, _, s' => s' = s
  | .engine (.unit body), s, a, s' => s'.counters = s.counters ∧
    ∃ faults, (unitOfWork faults body).within s.tables = (a, s'.tables)
  | .engine (.resolveSecrets refs), s, a, s' => (∃ held, a = resolveSecrets held refs) ∧ s' = s
  | .record call, s, a, s' => s'.tables = s.tables ∧
    s'.counters = (s.counters.record V printable call).1 ∧
    a = recordedAs (s.counters.record V printable call).2

/-- What the ingress counts. -/
def FromIngress : CounterEvent → Prop
  | .tallied .ingress _ | .tallied .challenges _ => True
  | .tallied .signatures _ | .tallied .verificationKeyMatches _ => True
  | _ => False

/-- The rest of the deployment writes to the tables, and calls the counters for what it counts. -/
def surroundings (s s' : IngressState δ) : Prop :=
  s'.counters = s.counters ∨ ∃ call : IngressCall, (∀ event ∈ call.events, ¬ FromIngress event) ∧
    s'.counters = (s.counters.record V printable call).1

/-- How requests interleave. -/
def ingressRules : Threads.Rules (IngressState δ) (IngressOp δ γ κ) IngressOp.answer
    (Except IngressRaised IngressAnswer) where
  starts p := ∃ handshake r, p = (ingressRoute M limit handshake r).run
  handles := handles V printable
  surroundings := surroundings V printable

/-- A process that has counted nothing. -/
def ingressStart (s : IngressState δ) : Prop := s.counters = .start V

/-- The requests of a process, from its start. -/
def ingressSystem : StepSystem (Threads (IngressState δ) (IngressOp δ γ κ) IngressOp.answer
    (Except IngressRaised IngressAnswer)) Threads.Event :=
  Threads.system (ingressRules V M limit printable) (ingressStart V)

variable {V M limit printable}

/-! ### Units land whole -/

/-- The body of a unit writes to its session, and commits nothing. -/
theorem exec_uses (body : UnitBody δ γ) (store : δ) :
    (uses body).exec ⟨store, store⟩ = ((body store).1, ⟨store, (body store).2⟩) := by
  unfold uses
  rw [Transaction.exec_bind_of_ok Transaction.exec_peek]
  cases hbody : (body store).1 <;> simp only <;> rfl

/-- A unit whose body raises, or whose commit does, commits nothing. -/
theorem fails_landing {faults : UnitFaults} {body : UnitBody δ γ} {store : δ}
    (h : ∀ result, (body store).1 = .ok result → faults.commit ≠ none) :
    ∃ e, (landing faults body).Fails e ⟨store, store⟩ := by
  have huses := exec_uses body store
  cases hbody : (body store).1 with
  | error e =>
    rw [hbody] at huses
    exact ⟨e, _, Transaction.exec_bind_of_error huses, rfl⟩
  | ok result =>
    rw [hbody] at huses
    obtain ⟨e, hcommit⟩ := Option.ne_none_iff_exists'.mp (h result hbody)
    refine ⟨e, ⟨store, (body store).2⟩, (Transaction.exec_bind_of_ok huses).trans ?_, rfl⟩
    rw [hcommit]
    rfl

theorem fails_unwinding (faults : UnitFaults) (e : IngressRaised) :
    ∃ e', ∀ s : Session δ, (unwinding (γ := γ) faults e).Fails e' s := by
  cases hrollback : faults.rollback with
  | none =>
    refine ⟨e, fun s => ⟨⟨s.committed, s.committed⟩, ?_, rfl⟩⟩
    rw [unwinding, hrollback]
    rfl
  | some e' =>
    refine ⟨e', fun s => ⟨s, ?_, rfl⟩⟩
    rw [unwinding, hrollback]
    rfl

/-- **A unit lands whole, or leaves nothing.** -/
theorem within_unitOfWork {faults : UnitFaults} {body : UnitBody δ γ} {store store' : δ}
    {a : Except IngressRaised γ} (h : (unitOfWork faults body).within store = (a, store')) :
    (∃ result, a = .ok result ∧ body store = (.ok result, store')) ∨
      ((∃ e, a = .error e) ∧ store' = store) := by
  by_cases hclean : ∃ result, (body store).1 = .ok result ∧ faults.commit = none
  -- The body returned and the commit did not raise: what was written lands.
  · obtain ⟨result, hbody, hcommit⟩ := hclean
    have hlands : (landing faults body).exec ⟨store, store⟩ =
        (.ok result, ⟨(body store).2, (body store).2⟩) := by
      have huses := exec_uses body store
      rw [hbody] at huses
      refine (Transaction.exec_bind_of_ok huses).trans ?_
      rw [hcommit]
      rfl
    have hcaught : ((landing faults body).catching (unwinding faults)).exec ⟨store, store⟩ =
        (.ok result, ⟨(body store).2, (body store).2⟩) := Transaction.exec_catching_of_ok hlands
    have hwithin := Transaction.within_eq hcaught
    obtain ⟨rfl, rfl⟩ := Prod.mk.inj (h.symm.trans hwithin)
    exact .inl ⟨result, rfl, Prod.ext hbody rfl⟩
  -- Whatever was raised, by the body or by the commit, nothing had been committed.
  · obtain ⟨e, hfails⟩ := @fails_landing δ γ faults body store
      fun result hbody hcommit => hclean ⟨result, hbody, hcommit⟩
    obtain ⟨e', hunwinds⟩ := fails_unwinding (δ := δ) (γ := γ) faults e
    obtain ⟨rfl, rfl⟩ := Prod.mk.inj (h.symm.trans (hfails.catching hunwinds).within)
    exact .inr ⟨⟨e', rfl⟩, rfl⟩

/-! ### What a request is counted as -/

/-- An operation of a request, with its answer. -/
abbrev IngressPerformed (δ γ κ : Type) := Performed (IngressOp.answer (δ := δ) (γ := γ) (κ := κ))

/-- What an operation counted. -/
def reported : IngressPerformed δ γ κ → List CounterEvent
  | ⟨.record call, a⟩ =>
    match (a : Except IngressRaised Unit) with
    | .ok () => call.events
    | .error _ => []
  | _ => []

/-- The counts of outcomes and of challenges. -/
def CounterEvent.isOutcome : CounterEvent → Bool
  | .tallied .ingress _ | .tallied .challenges _ => true
  | _ => false

/-- The outcomes and the challenges that a request counted. -/
def outcomes (log : List (IngressPerformed δ γ κ)) : List CounterEvent :=
  (log.flatMap reported).filter CounterEvent.isOutcome

/-- What an outcome is counted as. -/
def tallies (handshake : Bool) (outcome : IngressOutcome V) (challenge : String) :
    List CounterEvent :=
  .tallied .ingress outcome.code :: if handshake then [.tallied .challenges challenge] else []

/-- How a request stands: what it counted, and what it came to. One that raised is counted under no
outcome. One that is answered is counted under the code it is answered with, and a handshake under
what it was to the challenge too. -/
inductive Account (M : IngressModule V δ γ κ) (handshake : Bool) :
    List CounterEvent → Option (Except IngressRaised IngressAnswer) → Prop
  | going : Account M handshake [] none
  | raised (e : IngressRaised) : Account M handshake [] (some (.error e))
  | between (outcome : IngressOutcome V) (h : handshake = true) :
    Account M handshake [.tallied .ingress outcome.code] none
  | answered (outcome : IngressOutcome V) :
    Account M handshake (tallies handshake outcome (challengeOutcome outcome))
      (some (.ok (answerOf outcome)))
  | tooLarge : Account M handshake (tallies handshake M.payloadTooLarge "refused")
      (some (.ok (answerOf M.payloadTooLarge)))

/-- A call that the counters accept is not refused. -/
def Honoured (V : Vocabulary) : IngressPerformed δ γ κ → Prop
  | ⟨.record call, a⟩ => call.Accepted V → (a : Except IngressRaised Unit) = .ok ()
  | _ => True

/-- A request stands in one of these ways, behind what it counted before, wherever the counters
accept what they may. -/
def Counts (M : IngressModule V δ γ κ) (handshake : Bool) (before : List CounterEvent)
    (p : IngressProgram δ γ κ IngressAnswer) : Prop :=
  p.run.Upholds fun log r => (∀ x ∈ log, Honoured V x) →
    Account M handshake (before ++ outcomes log) r

theorem outcomes_append (log log' : List (IngressPerformed δ γ κ)) :
    outcomes (log ++ log') = outcomes log ++ outcomes log' := by
  rw [outcomes, List.flatMap_append, List.filter_append]
  rfl

/-- The operations that count no outcome. -/
def Silent (x : IngressPerformed δ γ κ) : Prop := (reported x).filter CounterEvent.isOutcome = []

theorem outcomes_eq_nil {log : List (IngressPerformed δ γ κ)} (h : ∀ x ∈ log, Silent x) :
    outcomes log = [] := by
  rw [outcomes, List.filter_flatMap, List.flatMap_eq_nil_iff]
  exact h

variable {handshake : Bool} {before : List CounterEvent}

/-- Behind what was performed, and what that counted. -/
theorem Counts.behind {log : List (IngressPerformed δ γ κ)} {p : IngressProgram δ γ κ IngressAnswer}
    (h : Counts M handshake (before ++ outcomes log) p) :
    p.run.Upholds fun log' r => (∀ x ∈ log ++ log', Honoured V x) →
      Account M handshake (before ++ outcomes (log ++ log')) r := by
  refine h.mono fun log' r haccount hhonoured => ?_
  rw [outcomes_append, ← List.append_assoc]
  exact haccount fun x hx => hhonoured x (List.mem_append_right log hx)

/-- A part that counts no outcome, and what follows it. -/
theorem counts_bind {α : Type} {x : IngressProgram δ γ κ α}
    {f : α → IngressProgram δ γ κ IngressAnswer}
    (hx : x.run.Upholds fun log _ => ∀ x ∈ log, Silent x) (hf : ∀ a, Counts M handshake [] (f a)) :
    Counts M handshake [] (x >>= f) := by
  refine Process.upholds_except_bind (hx.mono fun log r hlog => ⟨?_, ?_, ?_⟩)
  · rintro - -
    rw [outcomes_eq_nil hlog]
    exact .going
  · rintro e - -
    rw [outcomes_eq_nil hlog]
    exact .raised e
  · rintro a -
    refine @Counts.behind δ γ κ V M handshake [] _ _ ?_
    rw [outcomes_eq_nil hlog]
    exact hf a

/-- A call that the counters accept, and what follows it. -/
theorem counts_record {call : IngressCall} (hcall : call.Accepted V)
    {f : Unit → IngressProgram δ γ κ IngressAnswer} (hbefore : Account M handshake before none)
    (hf : Counts M handshake (before ++ call.events.filter CounterEvent.isOutcome) (f ())) :
    Counts M handshake before (record call >>= f) := by
  refine Process.upholds_except_bind ⟨⟨fun _ _ => ?_, nofun, nofun⟩, fun a => ⟨nofun, ?_, ?_⟩⟩
  · exact (List.append_nil before).symm ▸ hbefore
  · intro e he hhonoured
    have haccepted : a = .ok () := hhonoured ⟨.record call, a⟩ (List.mem_singleton_self _) hcall
    rw [haccepted] at he
    cases he
  · intro _ hok
    obtain rfl : a = .ok () := Option.some.inj hok
    refine @Counts.behind δ γ κ V M handshake before [⟨.record call, .ok ()⟩] _ ?_
    rwa [show outcomes [⟨.record call, .ok ()⟩] = call.events.filter CounterEvent.isOutcome by
      simp [outcomes, reported]]

theorem counts_pure {answer : IngressAnswer} (h : Account M handshake before (some (.ok answer))) :
    Counts M handshake before (pure answer) := fun _ => (List.append_nil before).symm ▸ h

/-- What counts an outcome, and a handshake as what it was to the challenge too, before it is
answered. -/
theorem counts_tallies {outcome : IngressOutcome V} {challenge : String}
    {answer : IngressAnswer} (hchallenge : challenge ∈ challengeOutcomes.1)
    (h : Account M handshake (tallies handshake outcome challenge) (some (.ok answer))) :
    Counts M handshake [] (do
      record (.ingressOutcome outcome.code)
      if handshake then record (.challenge challenge)
      return answer) := by
  have hcode : IngressCall.Accepted V (.ingressOutcome outcome.code) :=
    List.forall_mem_singleton.mpr outcome.code.2
  have hchallenge : IngressCall.Accepted V (.challenge challenge) :=
    List.forall_mem_singleton.mpr hchallenge
  refine counts_record hcode .going ?_
  cases handshake with
  | false => exact counts_pure h
  | true => exact counts_record hchallenge (.between outcome rfl) (counts_pure h)

theorem challengeOutcome_mem (outcome : IngressOutcome V) :
    challengeOutcome outcome ∈ challengeOutcomes.1 := by
  unfold challengeOutcome
  split <;> decide

/-- What the engine decided is counted, and answered. -/
theorem counts_counted (outcome : IngressOutcome V) :
    Counts M handshake [] (do return answerOf (← counted outcome handshake)) := by
  have h := counts_tallies (challengeOutcome_mem outcome)
    (@Account.answered δ γ κ V M handshake outcome)
  cases handshake with
  | false => simpa [counted] using h
  | true => simpa [counted] using h

/-- What the engine asks for on a delivery counts no outcome. -/
theorem silent_observed (op : ReceiveOp δ γ) :
    (observed (κ := κ) op).Upholds fun log _ => ∀ x ∈ log, Silent x := by
  cases op with
  | engine op => exact ⟨nofun, fun _ => List.forall_mem_singleton.mpr rfl⟩
  | observeVerification accepted positions =>
    refine ⟨nofun, fun a => List.forall_mem_singleton.mpr ?_⟩
    obtain e | ⟨⟩ : Except IngressRaised Unit := a
    · rfl
    · simp [Silent, reported, IngressCall.events, CounterEvent.isOutcome]

/-- What it asks for on a handshake does not either. -/
theorem silent_asked (op : EngineOp δ γ) :
    (asked (κ := κ) op).Upholds fun log _ => ∀ x ∈ log, Silent x :=
  ⟨nofun, fun _ => List.forall_mem_singleton.mpr rfl⟩

theorem silent_discover :
    (discover : IngressProgram δ γ κ κ).run.Upholds fun log _ => ∀ x ∈ log, Silent x :=
  ⟨nofun, fun _ => List.forall_mem_singleton.mpr rfl⟩

theorem silent_readBody (r : ProviderRequest) :
    (readBody (δ := δ) (γ := γ) (κ := κ) limit r).run.Upholds fun log _ => ∀ x ∈ log, Silent x :=
  ⟨nofun, fun _ => List.forall_mem_singleton.mpr rfl⟩

/-- A request on either route stands in one of these ways. -/
theorem counts_ingressRoute (handshake : Bool) (r : ProviderRequest) :
    Counts M handshake [] (ingressRoute M limit handshake r) := by
  cases handshake with
  | false =>
    refine counts_bind (silent_readBody r) fun body => ?_
    cases body with
    -- A body that is too large is counted at once; the engine is not asked.
    | error _ => exact counts_tallies (by decide) .tooLarge
    | ok body =>
      simp only [receiveDelivery, bind_assoc]
      refine counts_bind silent_discover fun registry => ?_
      exact counts_bind (Process.upholds_forall_among silent_observed _) counts_counted
  | true =>
    refine counts_bind (silent_readBody r) fun body => ?_
    cases body with
    | error _ => exact counts_tallies (by decide) .tooLarge
    | ok body =>
      simp only [answerHandshake, bind_assoc]
      refine counts_bind silent_discover fun registry => ?_
      exact counts_bind (Process.upholds_forall_among silent_asked _) counts_counted

/-! ### The counters -/

/-- A process that starts has counted nothing. -/
theorem count_start (event : CounterEvent) : (IngressCounters.start V).count event = 0 := by
  cases event with
  | lostClaim | sweepFailure => rfl
  | tallied tally value =>
    show ((fromkeys (tally.allowed V).1 0).get? value).getD 0 = 0
    rw [fromkeys, Dict.get?_ofPairs_map fun _ => 0]
    split <;> rfl

/-- A call leaves the counters with their label values, and counts what it reports where it is not
refused. -/
theorem counting_record {counters : IngressCounters} (hkeyed : Keyed V counters)
    (call : IngressCall) :
    Counting V counters (counters.record V printable call).1
      (reported (δ := δ) (γ := γ) (κ := κ)
        ⟨.record call, recordedAs (counters.record V printable call).2⟩) := by
  rcases @record_cases V printable _ hkeyed call with
    ⟨-, e, hrefused⟩ | ⟨-, counters', hrecorded, hcounting⟩
  · rw [hrefused]
    exact ⟨hkeyed, fun event => rfl⟩
  · rw [hrecorded]
    exact hcounting

theorem counting_nil {counters counters' : IngressCounters} (hkeyed : Keyed V counters)
    (hsame : counters' = counters) : Counting V counters counters' [] := by
  subst hsame
  exact ⟨hkeyed, fun _ => rfl⟩

/-- What an operation does to the counters is what it counted. -/
theorem handles_counting {s s' : IngressState δ} (hkeyed : Keyed V s.counters)
    {x : IngressPerformed δ γ κ} (h : handles V printable x.1 s x.2 s') :
    Counting V s.counters s'.counters (reported x) := by
  obtain ⟨o, a⟩ := x
  cases o with
  | readBody stream limit => exact counting_nil hkeyed (congrArg IngressState.counters h.2)
  | discover => exact counting_nil hkeyed (congrArg IngressState.counters h)
  | engine op =>
    cases op with
    | unit body => exact counting_nil hkeyed h.1
    | resolveSecrets refs => exact counting_nil hkeyed (congrArg IngressState.counters h.2)
  | record call =>
    obtain ⟨-, hcounters, rfl⟩ := h
    exact hcounters ▸ counting_record hkeyed call

/-- The surroundings count nothing that the ingress counts. -/
theorem surroundings_counting {s s' : IngressState δ} (hkeyed : Keyed V s.counters)
    (h : surroundings V printable s s') :
    ∃ events, (∀ event ∈ events, ¬ FromIngress event) ∧
      Counting V s.counters s'.counters events := by
  rcases h with hs | ⟨call, hcall, hs⟩
  · exact ⟨[], nofun, counting_nil hkeyed hs⟩
  · rcases @record_cases V printable _ hkeyed call with
      ⟨-, e, hrefused⟩ | ⟨-, counters', hrecorded, hcounting⟩
    · rw [hrefused] at hs
      exact ⟨[], nofun, counting_nil hkeyed hs⟩
    · rw [hrecorded] at hs
      exact ⟨call.events, hcall, hs ▸ hcounting⟩

variable {c : Threads (IngressState δ) (IngressOp δ γ κ) IngressOp.answer
  (Except IngressRaised IngressAnswer)}

/-- Every operation was performed on counters that have the declared label values. -/
theorem handled_keyed (h : (ingressSystem V M limit printable).Reachable c) :
    ∀ t ∈ c.threads, ∀ x ∈ t.log, ∃ s s', Keyed V s.counters ∧
      handles V printable x.1 s x.2 s' := by
  refine Threads.handled (I := fun s => Keyed V s.counters) (fun s hs => ?_) ?_ ?_ h
  · rw [show s.counters = .start V from hs]
    exact keyed_start
  · exact fun o s a s' hkeyed hhandles => (handles_counting (x := ⟨o, a⟩) hkeyed hhandles).keyed
  · intro s s' hkeyed hs
    obtain ⟨_, -, hcounting⟩ := surroundings_counting hkeyed hs
    exact hcounting.keyed

/-- The counters refuse no request a call that they accept. -/
theorem handled_records (h : (ingressSystem V M limit printable).Reachable c) :
    ∀ t ∈ c.threads, ∀ x ∈ t.log, Honoured V x := by
  rintro t ht ⟨o, a⟩ hx
  obtain ⟨s, s', hkeyed, hhandles⟩ := handled_keyed h t ht _ hx
  cases o with
  | readBody | discover | engine => trivial
  | record call =>
    intro hcall
    rcases @record_cases V printable _ hkeyed call with
      ⟨hrefused, -⟩ | ⟨-, counters', hrecorded, -⟩
    · exact absurd hcall hrefused
    · refine hhandles.2.2.trans ?_
      rw [hrecorded]
      rfl

/-- **Requests are counted as they are answered.** However they interleave, each stands in one of
the ways of an account, and the counters hold what all of them counted. -/
theorem ingress_counts (h : (ingressSystem V M limit printable).Reachable c) :
    (∀ t ∈ c.threads, ∃ handshake r, t.program = (ingressRoute M limit handshake r).run ∧
      Account M handshake (outcomes t.log) t.now.result) ∧
    ∀ event, FromIngress event → c.state.counters.count event =
      (c.threads.map fun t => (t.log.flatMap reported).count event).sum := by
  constructor
  · intro t ht
    obtain ⟨handshake, r, hprogram⟩ := Threads.starts_program h t ht
    refine ⟨handshake, r, hprogram, ?_⟩
    exact (counts_ingressRoute handshake r).of_goes (hprogram ▸ t.goes) (handled_records h t ht)
  · intro event hevent
    -- Each count is a measure: requests add what they report, the surroundings add nothing.
    have hmeasured := Threads.measured (I := fun s => Keyed V s.counters)
      (m := fun s => s.counters.count event) (w := fun x => (reported x).count event) ?_ ?_ ?_ h
    · rw [hmeasured]
      congr 1
      refine List.map_congr_left fun t _ => ?_
      rw [Thread.weight, List.count_flatMap]
      rfl
    · intro s hs
      rw [show s.counters = .start V from hs]
      exact ⟨keyed_start, count_start event⟩
    · intro o s a s' hkeyed hhandles
      have hcounting := handles_counting (x := ⟨o, a⟩) hkeyed hhandles
      exact ⟨hcounting.keyed, hcounting.count event⟩
    · intro s s' hkeyed hs
      obtain ⟨events, hevents, hcounting⟩ := surroundings_counting hkeyed hs
      refine ⟨hcounting.keyed, ?_⟩
      have hnone := List.count_eq_zero.mpr fun hmem => hevents event hmem hevent
      rw [hcounting.count, hnone, Nat.add_zero]

/-! ### The body comes first -/

/-- What a request goes on with, behind its whole body. -/
def handed (M : IngressModule V δ γ κ) (handshake : Bool) (r : ProviderRequest) (body : Bytes) :
    IngressProgram δ γ κ IngressAnswer := do
  let endpoint : EndpointAddress := ⟨r.endpointKey⟩
  let request : IngressRequest := ⟨body, r.headers, r.params⟩
  return answerOf (← if handshake then answerHandshake M endpoint request
    else receiveDelivery M endpoint request)

/-- What a request goes on with, behind a body that is too large. -/
def refused (M : IngressModule V δ γ κ) (handshake : Bool) :
    IngressProgram δ γ κ IngressAnswer := do
  record (.ingressOutcome M.payloadTooLarge.code)
  if handshake then record (.challenge "refused")
  return answerOf M.payloadTooLarge

/-- A request reads its body, and goes on as that comes to. -/
theorem run_ingressRoute (handshake : Bool) (r : ProviderRequest) :
    (ingressRoute M limit handshake r).run =
      .act (.readBody r.stream limit) fun a : Except BodyTooLarge Bytes =>
        match a with
        | .error _ => (refused M handshake).run
        | .ok body => (handed M handshake r body).run := by
  cases handshake <;> exact congrArg (Process.act _) (funext fun a => by cases a <;> rfl)

/-- What a request performs behind a body that is too large. -/
def refusing (M : IngressModule V δ γ κ) (handshake : Bool) : List (IngressOp δ γ κ) :=
  .record (.ingressOutcome M.payloadTooLarge.code) ::
    if handshake then [.record (.challenge "refused")] else []

/-- How far a request has read: it has not, it read its whole body and goes on with it, or the body
is too large and nothing but that is counted and answered. -/
inductive ReadAs (M : IngressModule V δ γ κ) (limit : ℕ) (handshake : Bool) (r : ProviderRequest) :
    List (IngressPerformed δ γ κ) →
      Process (IngressOp δ γ κ) IngressOp.answer (Except IngressRaised IngressAnswer) → Prop
  | unread : ReadAs M limit handshake r [] (ingressRoute M limit handshake r).run
  | whole {chunks : List Bytes} {log : List (IngressPerformed δ γ κ)}
    {now : Process (IngressOp δ γ κ) IngressOp.answer (Except IngressRaised IngressAnswer)}
    (hstream : r.stream = .ofList chunks) (hwithin : totalBytes chunks ≤ limit)
    (hgoes : Process.Goes (handed M handshake r chunks.flatten).run log now) :
    ReadAs M limit handshake r (⟨.readBody r.stream limit, .ok chunks.flatten⟩ :: log) now
  | tooLarge {log : List (IngressPerformed δ γ κ)}
    {now : Process (IngressOp δ γ κ) IngressOp.answer (Except IngressRaised IngressAnswer)}
    (hexceeds : ∃ n, limit < totalBytes (r.stream.take n))
    (hrefusing : log.map (·.1) <+: refusing M handshake)
    (hanswer : ∀ result, now.result = some result → result = .ok (answerOf M.payloadTooLarge)) :
    ReadAs M limit handshake r (⟨.readBody r.stream limit, .error ⟨⟩⟩ :: log) now

/-- A body that is refused exceeds the cap. -/
theorem exceeds_of_ends {stream : Seq Bytes} {pulled : List Bytes} {e : BodyTooLarge}
    (h : Ends limit stream pulled (.error e)) : ∃ n, limit < totalBytes (stream.take n) := by
  by_contra hwithin
  simp only [not_exists, not_lt] at hwithin
  by_cases hterm : stream.Terminates
  · rw [← stream.ofList_toList hterm] at h hwithin
    have hle := hwithin (stream.toList hterm).length
    rw [StreamLoop.take_ofList] at hle
    cases (h.unique (ends_of_le hle)).2
  · obtain ⟨n, hn⟩ := h
    have hnone := outcome_eq_none (Seq.not_terminates_iff.mp hterm) hwithin n
    rw [(hn n le_rfl).2] at hnone
    cases hnone

/-- Behind calls that the counters accept, a body that is too large is answered as such. -/
theorem upholds_record_bind {calls : List (IngressOp δ γ κ)} {call : IngressCall}
    (hcall : call.Accepted V) {answer : IngressAnswer}
    {f : Unit → IngressProgram δ γ κ IngressAnswer}
    (hf : (f ()).run.Upholds fun log r => (∀ x ∈ log, Honoured V x) →
      log.map (·.1) <+: calls ∧ ∀ result, r = some result → result = .ok answer) :
    (record call >>= f).run.Upholds fun log r => (∀ x ∈ log, Honoured V x) →
      log.map (·.1) <+: .record call :: calls ∧
        ∀ result, r = some result → result = .ok answer := by
  refine Process.upholds_except_bind ⟨⟨fun _ _ => ⟨List.nil_prefix, nofun⟩, nofun, nofun⟩,
    fun a => ⟨nofun, ?_, ?_⟩⟩
  · intro e he hhonoured
    -- The counters do not refuse a call that they accept.
    have haccepted : a = .ok () := hhonoured ⟨.record call, a⟩ (List.mem_singleton_self _) hcall
    rw [haccepted] at he
    cases he
  · intro _ _
    refine hf.mono fun log r hcalls hhonoured => ?_
    obtain ⟨hmade, hanswer⟩ := hcalls fun x hx => hhonoured x (List.mem_cons_of_mem _ hx)
    exact ⟨(List.cons_prefix_cons).mpr ⟨rfl, hmade⟩, hanswer⟩

theorem upholds_refused (M : IngressModule V δ γ κ) (handshake : Bool) :
    (refused M handshake).run.Upholds
      fun log r => (∀ x ∈ log, Honoured V x) → log.map (·.1) <+: refusing M handshake ∧
        ∀ result, r = some result → result = .ok (answerOf M.payloadTooLarge) := by
  have hcode : IngressCall.Accepted V (.ingressOutcome M.payloadTooLarge.code) :=
    List.forall_mem_singleton.mpr M.payloadTooLarge.code.2
  have hchallenge : IngressCall.Accepted V (.challenge "refused") :=
    List.forall_mem_singleton.mpr (show "refused" ∈ challengeOutcomes.1 by decide)
  refine upholds_record_bind hcode ?_
  cases handshake with
  | false => exact fun _ => ⟨List.nil_prefix, fun _ h => (Option.some.inj h).symm⟩
  | true =>
    exact upholds_record_bind hchallenge
      fun _ => ⟨List.nil_prefix, fun _ h => (Option.some.inj h).symm⟩

/-- What a request performed tells how far it has read. -/
theorem readAs_of_goes {r : ProviderRequest} {log : List (IngressPerformed δ γ κ)}
    {now : Process (IngressOp δ γ κ) IngressOp.answer (Except IngressRaised IngressAnswer)}
    (h : Process.Goes (ingressRoute M limit handshake r).run log now)
    (hhonoured : ∀ x ∈ log, Honoured V x)
    (hread : ∀ a, ⟨.readBody r.stream limit, a⟩ ∈ log → ∃ pulled, Ends limit r.stream pulled a) :
    ReadAs M limit handshake r log now := by
  rcases (run_ingressRoute handshake r ▸ h).of_act with rfl | ⟨a, log, rfl, hgoes⟩
  · exact h.eq_of_nil ▸ .unread
  · obtain ⟨pulled, hends⟩ := hread a List.mem_cons_self
    rcases a with ⟨⟨⟩⟩ | body
    · obtain ⟨hrefusing, hanswer⟩ := (upholds_refused M handshake).of_goes hgoes
        fun x hx => hhonoured x (List.mem_cons_of_mem _ hx)
      exact .tooLarge (exceeds_of_ends hends) hrefusing hanswer
    · obtain ⟨hstream, hwithin, rfl⟩ := ends_ok_iff.mp hends
      exact .whole hstream hwithin hgoes

/-- **The engine is handed a whole body within the cap, or nothing.** However requests interleave,
each reads before anything else, and one whose body is too large is counted and answered as such. -/
theorem ingress_reads_first (h : (ingressSystem V M limit printable).Reachable c) :
    ∀ t ∈ c.threads, ∃ handshake r, t.program = (ingressRoute M limit handshake r).run ∧
      ReadAs M limit handshake r t.log t.now := by
  intro t ht
  obtain ⟨handshake, r, hprogram⟩ := Threads.starts_program h t ht
  refine ⟨handshake, r, hprogram, readAs_of_goes (hprogram ▸ t.goes) (handled_records h t ht) ?_⟩
  intro a ha
  obtain ⟨s, s', -, hhandles⟩ := handled_keyed h t ht _ ha
  exact hhandles.1

/-! ### One delivery -/

/-- An engine that accepts what it is handed. -/
def acceptingModule : IngressModule someVocabulary Unit Unit Unit where
  receive _ _ _ := .done (.ok ⟨⟨"accepted", by decide⟩, 200, none⟩)
  answerChallenge _ _ _ := .done (.ok ⟨⟨"accepted", by decide⟩, 200, none⟩)
  payloadTooLarge := ⟨⟨"accepted", by decide⟩, 413, none⟩

/-- A delivery of two chunks. -/
def someDelivery : ProviderRequest where
  endpointKey := "key"
  stream := .ofList [[1], [2]]
  headers := []
  params := []

/-- What it performs. -/
def deliveryLog : List (IngressPerformed Unit Unit Unit) :=
  [⟨.readBody someDelivery.stream 2, .ok [1, 2]⟩, ⟨.discover, .ok ()⟩,
    ⟨.record (.ingressOutcome "accepted"), .ok ()⟩]

/-- The delivery, answered. -/
def deliveredThread : Thread (IngressOp Unit Unit Unit) IngressOp.answer
    (Except IngressRaised IngressAnswer) where
  program := (ingressRoute acceptingModule 2 false someDelivery).run
  log := deliveryLog
  now := .done (.ok (.code "accepted" 200))
  goes := .act (.act (.act (.here _)))

/-- What it leaves: one outcome is counted. -/
def deliveredState : IngressState Unit :=
  ⟨(), ((IngressCounters.start someVocabulary).record someVocabulary (fun _ => true)
    (.ingressOutcome "accepted")).1⟩

theorem reachable_delivered :
    (ingressSystem someVocabulary acceptingModule 2 fun _ => true).Reachable
      ⟨deliveredState, [deliveredThread]⟩ := by
  have hends : Ends 2 someDelivery.stream [[1], [2]] (.ok [1, 2]) := ends_of_le (by decide)
  have hrecord : handles someVocabulary (fun _ => true) (γ := Unit) (κ := Unit)
      (.record (.ingressOutcome "accepted")) ⟨(), .start someVocabulary⟩ (.ok ()) deliveredState :=
    ⟨rfl, rfl, rfl⟩
  have hinit : ingressStart someVocabulary (⟨(), .start someVocabulary⟩ : IngressState Unit) := rfl
  exact Threads.reachable_alone hinit ⟨false, someDelivery, rfl⟩
    (.cons ⟨⟨_, hends⟩, rfl⟩ (.cons rfl (.cons hrecord (.nil _))))

theorem ingress_counts_delivered :
    deliveredState.counters.count (.tallied .ingress "accepted") = 1 :=
  (ingress_counts reachable_delivered).2 (.tallied .ingress "accepted") trivial

theorem ingress_reads_first_delivered : ∃ handshake r,
    deliveredThread.program = (ingressRoute acceptingModule 2 handshake r).run ∧
      ReadAs acceptingModule 2 handshake r deliveredThread.log deliveredThread.now :=
  ingress_reads_first reachable_delivered deliveredThread (List.mem_singleton_self _)

end DotmacIntegrator.Ingress
