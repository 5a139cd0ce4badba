import DotmacIntegrator.Operations.Evidence
import DotmacIntegrator.Operations.OperatorAuth

/-!
# The routes of the operator surface

A route lets an operator in, reads the document of the request, and hands the act on with the
identity of the operator and the stated reason. What is not let in changes nothing. The runs of the
routes are runs of the acts that were let in, with the sweeps of the timer between them.

## Main definitions

* `OperatorRoute`, `Arrival`: the routes, and a request as it arrives
* `enter`, `World.served`, `World.answered`: how a request is handled
* `Admits`: a request is let in as an act
* `Integration.Writes`: a row is the module's

## Main results

* `runService_eq`: a run of the routes is the run of what was let in
* `served_rows`: every row of the ledger is the module's, or names who was let in and why
-/

namespace DotmacIntegrator.Operations

open DotmacIntegrator.Configuration
open DotmacIntegrator.Secrets

variable {μ : Type}

/-! ### Requests -/

/-- What an operator may look at. -/
inductive OperatorRead
  | connectors
  | runtimePolicy
  | healthReport
  | shadowReport
  | secrets
  deriving DecidableEq, Repr

/-- The routes of the operator surface, with what stands in the path and the body of the request. -/
inductive OperatorRoute
  | read (looked : OperatorRead)
  | secretsRefresh (body : Option Json)
  | draftInstallation (body : Option Json)
  | configureBinding (installationId : String) (body : Option Json)
  | configureInstallation (installationId : String) (body : Option Json)
  | mintBindingIngressEndpoint (bindingId : String) (body : Option Json)
  | enableBinding (bindingId : String) (body : Option Json)
  | enableInstallation (installationId : String) (body : Option Json)
  | releaseExpired (body : Option Json)
  | replayDelivery (deliveryId : String) (body : Option Json)
  | replayReceipt (receiptId : String) (body : Option Json)

/-- What a mutating request asks for, and why. -/
structure Asked where
  reason : StrippedText 500
  act : OperatorAct

/-- A request whose document is its reason. -/
def withReason (act : OperatorAct) (body : Option Json) : Except OperatorRaised Asked := do
  return ⟨(← readDocument OperationReason.parse body).reason, act⟩

/-- A request that authors something. -/
def withDocument {α : Type} (parse : Dict String Json → Option α) (reason : α → OperationReason)
    (authors : α → AuthoringRequest) (body : Option Json) : Except OperatorRaised Asked := do
  let document ← readDocument parse body
  return ⟨(reason document).reason, .request (.authoring (authors document))⟩

/-- What a request asks for: a look, or an act. -/
def OperatorRoute.asks (around : Surroundings) :
    OperatorRoute → Except OperatorRaised (OperatorRead ⊕ Asked)
  | .read looked => .ok (.inl looked)
  | .secretsRefresh body => (withReason (.refreshSecretMaterial around) body).map .inr
  | .draftInstallation body =>
    (withDocument DraftInstallationRequest.parse (·.toOperationReason)
      (fun document => .createInstallation document.connectorKey.text document.name.text
        document.environment.str) body).map .inr
  | .configureBinding installationId body =>
    (withDocument BindingRequest.parse (·.toOperationReason)
      (fun document => .configureBinding installationId document.capabilityId.text document.scope
        document.policy) body).map .inr
  | .configureInstallation installationId body =>
    (withDocument ConfigRevisionRequest.parse (·.toOperationReason)
      (fun document => .configureInstallation installationId document.config document.secretRefs
        document.schemaVersion.text) body).map .inr
  | .mintBindingIngressEndpoint bindingId body =>
    (withReason (.request (.authoring (.mintBindingIngressEndpoint bindingId))) body).map .inr
  | .enableBinding bindingId body =>
    (withReason (.request (.authoring (.enableBinding bindingId))) body).map .inr
  | .enableInstallation installationId body =>
    (withReason (.request (.authoring (.enableInstallation installationId))) body).map .inr
  | .releaseExpired body => (withReason .releaseExpiredLeases body).map .inr
  | .replayDelivery deliveryId body =>
    (withReason (.request (.replay (.delivery deliveryId))) body).map .inr
  | .replayReceipt receiptId body =>
    (withReason (.request (.replay (.receipt receiptId))) body).map .inr

/-- A request as it arrives: what it presents, whose token the platform says it is, and what the
deployment is like while it is handled. The document of its route is decoded already: the framework
parses the body before the guard is asked, and what it answers to one it cannot parse is left
out. -/
structure Arrival (μ : Type) where
  authorization : Option String
  route : OperatorRoute
  authenticate : PlatformAuth μ
  around : Surroundings
  moment : Moment μ
  shown : OperatorRead → World μ → Except Raised Json

/-- A request, or a sweep of the timer. -/
inductive ServiceEvent (μ : Type)
  | request (arrival : Arrival μ)
  | sweep (moment : Moment μ)

/-- The database and the module, as they behave during an event. -/
def ServiceEvent.moment : ServiceEvent μ → Moment μ
  | .request arrival => arrival.moment
  | .sweep moment => moment

variable (kernel : SourceKernel) (text : Interpreter) (recognised : List String)
  (mechanism : String)

/-- A request, once it was let in. -/
def enter (w : World μ) (arrival : Arrival μ) :
    Except OperatorRaised (OperatorRead ⊕ Event μ) := do
  let actor ← (requireOperator mechanism arrival.authenticate arrival.authorization
    w.store).mapError .raised
  match ← arrival.route.asks arrival.around with
  | .inl looked => return .inl looked
  | .inr asked => return .inr (.operator actor asked.reason.text asked.act arrival.moment)

/-- What comes of an event: the act of a request that is let in, or a sweep. -/
def entered (w : World μ) : ServiceEvent μ → Option (Event μ)
  | .request arrival =>
    match enter mechanism w arrival with
    | .ok (.inr event) => some event
    | .ok (.inl _) | .error _ => none
  | .sweep moment => some (.sweep moment)

/-- The world behind an event. -/
def World.served (w : World μ) (event : ServiceEvent μ) : World μ :=
  match entered mechanism w event with
  | some act => w.step kernel text recognised act
  | none => w

/-- What an act answers. -/
def World.actAnswer (w : World μ) : Event μ → Except (ReadFailure ⊕ Raised) Json
  | .operator actor reason (.request request) moment =>
    (((request.perform (w.surface text moment) actor reason).within w.store).1).mapError .inr
  | .operator actor reason .releaseExpiredLeases moment =>
    (((releaseExpiredLeases (w.surface text moment) actor reason).within w.store).1).mapError .inr
  | .operator actor reason (.refreshSecretMaterial around) moment =>
    (refreshSecretMaterial (w.surface text moment) actor reason kernel recognised around w.secrets
      w.store).1
  | .sweep moment =>
    (((sweepExpiredLeases (w.surface text moment)).within w.store).1).mapError .inr

/-- What a request is answered. -/
def World.answered (w : World μ) (arrival : Arrival μ) :
    Except (ReadFailure ⊕ OperatorRaised) Json :=
  match enter mechanism w arrival with
  | .error raised => .error (.inr raised)
  | .ok (.inl looked) => (arrival.shown looked w).mapError fun raised => .inr (.raised raised)
  | .ok (.inr act) => (w.actAnswer kernel text recognised act).mapError (Sum.map id .raised)

/-- The world behind a run. -/
def World.runService (w : World μ) (events : List (ServiceEvent μ)) : World μ :=
  events.foldl (World.served kernel text recognised mechanism) w

/-- What was let in along a run. -/
def enteredAlong : World μ → List (ServiceEvent μ) → List (Event μ)
  | _, [] => []
  | w, event :: events =>
    (entered mechanism w event).toList ++
      enteredAlong (w.served kernel text recognised mechanism event) events

/-! ### Who is let in -/

/-- An operator is let in: the platform says that the bearer text is an administrator's, by a
mechanism that is known. -/
structure LetIn (w : World μ) (arrival : Arrival μ) (actor : OperatorIdentity) : Prop where
  known : mechanism ∈ operatorAuthMechanisms
  operator : ∃ scheme token admin, arrival.authorization = some (scheme ++ " " ++ token) ∧
    Text.lowerAscii scheme = "bearer" ∧ token ≠ "" ∧
    arrival.authenticate w.store token = .ok (some admin) ∧ actor = admin.identity mechanism

/-- A request is let in as an act: an operator is, and the document states the reason and what is
asked for. -/
structure Admits (w : World μ) (arrival : Arrival μ) (actor : OperatorIdentity) (reason : String)
    (act : OperatorAct) : Prop where
  letIn : LetIn mechanism w arrival actor
  document : ∃ asked : Asked, arrival.route.asks arrival.around = .ok (.inr asked) ∧
    reason = asked.reason.text ∧ act = asked.act

/-- What a request is refused with that is not let in. -/
def refusals : List OperatorRaised :=
  [.raised (.httpException 503 ("operator authentication is not configured; refusing to serve " ++
      "the operations surface")),
    .raised (.httpException 401 "operator authentication required"),
    .raised (.httpException 401 "operator authentication failed")]

variable {kernel text recognised mechanism} {w : World μ} {arrival : Arrival μ}
  {actor : OperatorIdentity} {reason : String} {act : OperatorAct}

theorem Admits.reason_bounded (h : Admits mechanism w arrival actor reason act) :
    trim reason = reason ∧ 1 ≤ reason.length ∧ reason.length ≤ 500 := by
  obtain ⟨asked, -, rfl, -⟩ := h.document
  exact ⟨asked.reason.trimmed, asked.reason.nonempty, asked.reason.bounded⟩

theorem requireOperator_eq_ok_iff_letIn :
    requireOperator mechanism arrival.authenticate arrival.authorization w.store = .ok actor ↔
      LetIn mechanism w arrival actor := by
  rw [requireOperator_eq_ok_iff]
  constructor
  · rintro ⟨hknown, token, admin, hbearer, hadmin, rfl⟩
    obtain ⟨scheme, hheader, hscheme, htoken⟩ := bearer_eq_some_iff.mp hbearer
    exact ⟨hknown, scheme, token, admin, hheader, hscheme, htoken, hadmin, rfl⟩
  · rintro ⟨hknown, scheme, token, admin, hheader, hscheme, htoken, hadmin, rfl⟩
    exact ⟨hknown, token, admin, bearer_eq_some_iff.mpr ⟨scheme, hheader, hscheme, htoken⟩, hadmin,
      rfl⟩

/-- Who is not let in is refused, or the platform failed to say. -/
theorem requireOperator_cases :
    (∃ actor, LetIn mechanism w arrival actor) ∨
      ∃ raised, requireOperator mechanism arrival.authenticate arrival.authorization w.store =
        .error raised ∧ (.raised raised ∈ refusals ∨
          ∃ token exc, arrival.authenticate w.store token = .error exc ∧
            raised = .failure exc) := by
  cases h : requireOperator mechanism arrival.authenticate arrival.authorization w.store with
  | ok actor => exact .inl ⟨actor, requireOperator_eq_ok_iff_letIn.mp h⟩
  | error raised =>
    refine .inr ⟨raised, rfl, ?_⟩
    -- In the order of the source: the mechanism, the bearer text, the platform, and its answer.
    unfold requireOperator at h
    split at h
    · obtain rfl := Except.error.inj h
      exact .inl (by simp [refusals])
    · split at h
      · obtain rfl := Except.error.inj h
        exact .inl (by simp [refusals])
      · next token _ =>
        split at h
        · next exc hexc =>
          obtain rfl := Except.error.inj h
          exact .inr ⟨token, exc, hexc, rfl⟩
        · obtain rfl := Except.error.inj h
          exact .inl (by simp [refusals])
        · cases h

/-- **Which requests are acts.** -/
theorem enter_eq_act_iff {event : Event μ} : enter mechanism w arrival = .ok (.inr event) ↔
    ∃ actor reason act, event = .operator actor reason act arrival.moment ∧
      Admits mechanism w arrival actor reason act := by
  unfold enter
  constructor
  · intro h
    obtain ⟨actor, hactor, h⟩ := Except.bind_eq_ok.mp h
    obtain ⟨asked, hasked, h⟩ := Except.bind_eq_ok.mp h
    cases asked with
    | inl looked => cases h
    | inr asked =>
      obtain rfl := Sum.inr.inj (Except.ok.inj h)
      have hletIn := requireOperator_eq_ok_iff_letIn.mp (Except.mapError_eq_ok.mp hactor)
      exact ⟨_, _, _, rfl, hletIn, asked, hasked, rfl, rfl⟩
  · rintro ⟨_, _, _, rfl, hletIn, asked, hasked, rfl, rfl⟩
    rw [requireOperator_eq_ok_iff_letIn.mpr hletIn, hasked]
    rfl

/-- What is entered is a sweep, or a request that is let in as an act. -/
theorem entered_eq_some_iff {event : ServiceEvent μ} {act : Event μ} :
    entered mechanism w event = some act ↔
      (∃ moment, event = .sweep moment ∧ act = .sweep moment) ∨
        ∃ arrival actor reason asked, event = .request arrival ∧
          act = .operator actor reason asked arrival.moment ∧
          Admits mechanism w arrival actor reason asked := by
  cases event with
  | sweep moment => simp [entered, eq_comm]
  | request arrival =>
    have hact : entered mechanism w (.request arrival) = some act ↔
        enter mechanism w arrival = .ok (.inr act) := by
      simp only [entered]
      rcases enter mechanism w arrival with raised | looked | event <;> simp
    rw [hact, enter_eq_act_iff]
    simp

/-- Who is not let in changes nothing, and is told nothing but a refusal. -/
theorem answered_of_not_letIn (h : ¬ ∃ actor, LetIn mechanism w arrival actor) :
    w.served kernel text recognised mechanism (.request arrival) = w ∧
      ∃ raised, w.answered kernel text recognised mechanism arrival = .error (.inr raised) ∧
        (raised ∈ refusals ∨
          ∃ token exc, arrival.authenticate w.store token = .error exc ∧
            raised = .raised (.failure exc)) := by
  obtain hletIn | ⟨raised, hraised, hrefused⟩ := @requireOperator_cases μ mechanism w arrival
  · exact absurd hletIn h
  · have henter : enter mechanism w arrival = .error (.raised raised) := by
      unfold enter
      rw [hraised]
      rfl
    refine ⟨?_, .raised raised, ?_, ?_⟩
    · simp only [World.served, entered, henter]
    · simp only [World.answered, henter]
    · refine hrefused.imp_right ?_
      rintro ⟨token, exc, hexc, rfl⟩
      exact ⟨token, exc, hexc, rfl⟩

/-! ### Runs -/

/-- A run of the routes is the run of what was let in. -/
theorem runService_eq (events : List (ServiceEvent μ)) :
    w.runService kernel text recognised mechanism events =
      w.run kernel text recognised (enteredAlong kernel text recognised mechanism w events) := by
  induction events generalizing w with
  | nil => rfl
  | cons event events ih =>
    show (w.served kernel text recognised mechanism event).runService kernel text recognised
      mechanism events = _
    rw [ih, enteredAlong, World.run, World.run, List.foldl_append]
    cases h : entered mechanism w event <;> simp [World.served, h]

/-- What was let in along a run was let in where the run then stood. -/
theorem entered_of_mem_enteredAlong {events : List (ServiceEvent μ)} {act : Event μ}
    (h : act ∈ enteredAlong kernel text recognised mechanism w events) :
    ∃ before event after, events = before ++ event :: after ∧
      entered mechanism (w.runService kernel text recognised mechanism before) event =
        some act := by
  induction events generalizing w with
  | nil => cases h
  | cons event events ih =>
    rcases List.mem_append.mp h with hact | hact
    · exact ⟨[], event, events, rfl, Option.mem_toList.mp hact⟩
    · obtain ⟨before, later, after, rfl, hlater⟩ := ih hact
      exact ⟨event :: before, later, after, rfl, hlater⟩

/-! ### The ledger -/

/-- A row that a call of the module writes. -/
inductive Integration.Writes (m : Integration μ) (row : AuditRow) : Prop
  | createDraft (connectorKey name environment actor : String) (store : Store μ)
    (h : row ∈ (m.createDraft connectorKey name environment actor store).rows)
  | putConfigRevision (installation : ConnectorInstallation) (config secretRefs : Dict String Json)
    (schemaVersion actor : String) (store : Store μ)
    (h : row ∈ (m.putConfigRevision installation config secretRefs schemaVersion actor store).rows)
  | addBinding (installation : ConnectorInstallation) (capabilityId : String)
    (scope policy : Option (Dict String Json)) (actor : String) (store : Store μ)
    (h : row ∈ (m.addBinding installation capabilityId scope policy actor store).rows)
  | mintIngressEndpoint (binding : CapabilityBinding) (actor : String) (store : Store μ)
    (h : row ∈ (m.mintIngressEndpoint binding actor store).rows)
  | setBindingEnabled (installation : ConnectorInstallation) (binding : CapabilityBinding)
    (actor : String) (store : Store μ)
    (h : row ∈ (m.setBindingEnabled installation binding actor store).rows)
  | enable (installation : ConnectorInstallation) (secrets : Dict String String) (actor : String)
    (store : Store μ) (h : row ∈ (m.enable installation secrets actor store).2.rows)
  | releaseExpiredLeases (adminId : Option Uuid) (store : Store μ)
    (h : row ∈ (m.releaseExpiredLeases adminId store).rows)
  | replayDelivery (delivery : Repairable) (adminId : Uuid) (reason : String) (store : Store μ)
    (h : row ∈ (m.replayDelivery delivery adminId reason store).rows)
  | replayReceipt (receipt : Repairable) (adminId : Uuid) (reason : String) (store : Store μ)
    (h : row ∈ (m.replayReceipt receipt adminId reason store).rows)

/-- An authoring operation calls the module. -/
def Authored.Calls (m : Integration μ) (a : Authored μ) : Prop :=
  ∀ store make, a.finds store = .ok make → ∀ store', ∀ row ∈ (make store').rows, m.Writes row

variable {surface : Surface μ} {store : Store μ}

theorem calls_of_script {request : AuthoringRequest} {a : Authored μ}
    (h : request.script surface actor reason = .inl a) : a.Calls surface.integration := by
  cases request with
  | createInstallation =>
    obtain rfl := Sum.inl.inj h
    rintro store _ ⟨⟩ store' row hrow
    exact .createDraft _ _ _ _ _ hrow
  | configureInstallation =>
    obtain rfl := Sum.inl.inj h
    intro store make hmake store' row hrow
    obtain ⟨installation, -, hmake⟩ := Except.bind_eq_ok.mp hmake
    obtain rfl := Except.ok.inj hmake
    exact .putConfigRevision _ _ _ _ _ _ hrow
  | configureBinding =>
    obtain rfl := Sum.inl.inj h
    intro store make hmake store' row hrow
    obtain ⟨installation, -, hmake⟩ := Except.bind_eq_ok.mp hmake
    obtain rfl := Except.ok.inj hmake
    exact .addBinding _ _ _ _ _ _ hrow
  | mintBindingIngressEndpoint =>
    obtain rfl := Sum.inl.inj h
    intro store make hmake store' row hrow
    obtain ⟨binding, -, hmake⟩ := Except.bind_eq_ok.mp hmake
    obtain rfl := Except.ok.inj hmake
    exact .mintIngressEndpoint _ _ _ hrow
  | enableBinding =>
    obtain rfl := Sum.inl.inj h
    intro store make hmake store' row hrow
    obtain ⟨binding, -, hmake⟩ := Except.bind_eq_ok.mp hmake
    obtain ⟨found, -, hmake⟩ := Except.bind_eq_ok.mp hmake
    cases found with
    | none => cases hmake
    | some installation =>
      obtain rfl := Except.ok.inj hmake
      exact .setBindingEnabled _ _ _ _ hrow
  -- An enablement has no script, since it asks for material first.
  | enableInstallation => cases h

/-- What an authoring operation writes through the module is the module's. -/
theorem rows_written (request : AuthoringRequest) (store : Store μ) :
    ∃ rows, (request.written surface actor reason store).ledger = store.ledger ++ rows ∧
      ∀ row ∈ rows, surface.integration.Writes row := by
  unfold AuthoringRequest.written
  cases hscript : request.script surface actor reason with
  | inl a =>
    simp only [Authored.written]
    cases hfinds : a.finds store with
    | error raised => exact ⟨[], (List.append_nil _).symm, nofun⟩
    | ok make => exact ⟨_, rfl, calls_of_script hscript store make hfinds store⟩
  | inr installationId =>
    simp only
    split
    · exact ⟨[], (List.append_nil _).symm, nofun⟩
    · exact ⟨_, rfl, fun row hrow => .enable _ _ _ _ hrow⟩

/-- What a step adds to the ledger: rows of the module, and one that says who asked and why. -/
def Accounts (m : Integration μ) (asked : Option (OperatorIdentity × String))
    (before after : List AuditRow) : Prop :=
  ∃ rows own, after = before ++ (rows ++ own) ∧ (∀ row ∈ rows, m.Writes row) ∧
    ∀ row ∈ own, ∃ actor reason, asked = some (actor, reason) ∧ row.Names actor reason

theorem accounts_refl (m : Integration μ) (asked : Option (OperatorIdentity × String))
    (ledger : List AuditRow) : Accounts m asked ledger ledger :=
  ⟨[], [], (List.append_nil _).symm, nofun, nofun⟩

theorem accounts_of_writes {m : Integration μ} (asked : Option (OperatorIdentity × String))
    {ledger rows : List AuditRow} (h : ∀ row ∈ rows, m.Writes row) :
    Accounts m asked ledger (ledger ++ rows) :=
  ⟨rows, [], by rw [List.append_nil], h, nofun⟩

/-- The moment of a step. -/
def Event.moment : Event μ → Moment μ
  | .operator _ _ _ moment => moment
  | .sweep moment => moment

/-- What is swept is the module's. -/
theorem accounts_sweep {made : Call μ ℤ} (answer : ℤ → Json)
    (asked : Option (OperatorIdentity × String))
    (h : ∀ row ∈ made.rows, surface.integration.Writes row) :
    Accounts surface.integration asked store.ledger
      (sweepOutcome surface made answer store).2.ledger := by
  rcases sweepOutcome_cases surface made answer store with
    ⟨-, raised, hdrops⟩ | ⟨-, -, given, hlands⟩
  · rw [hdrops]
    exact accounts_refl _ _ _
  · rw [hlands]
    exact accounts_of_writes asked h

/-- **A step adds rows of the module, and one that says who asked and why.** -/
theorem accounts_leaves (event : Event μ) :
    Accounts event.moment.integration event.asked w.store.ledger
      (w.leaves kernel text recognised event).1.ledger := by
  cases event with
  | sweep moment =>
    simp only [World.leaves, within_sweepExpiredLeases]
    exact accounts_sweep _ _ fun row hrow => .releaseExpiredLeases _ _ hrow
  | operator actor reason act moment =>
    cases act with
    | releaseExpiredLeases =>
      simp only [World.leaves, within_releaseExpiredLeases]
      exact accounts_sweep _ _ fun row hrow => .releaseExpiredLeases _ _ hrow
    | refreshSecretMaterial around =>
      rcases @leaves_refresh μ kernel text recognised w actor reason around moment with
        ⟨_, _, -, hleaves⟩ | ⟨_, report, -, hleaves⟩
      · rw [hleaves]
        exact accounts_refl _ _ _
      · rw [hleaves]
        simp only
        split
        · refine ⟨[], [refreshedRow actor reason report], rfl, List.forall_mem_nil _, ?_⟩
          exact List.forall_mem_singleton.mpr ⟨actor, reason, rfl, refreshedRow_names report⟩
        · exact accounts_refl _ _ _
    | request request =>
      cases request with
      | authoring request =>
        rcases @perform_cases μ (w.surface text moment) actor reason request w.store with
          ⟨raised, h⟩ | ⟨row, answer, hnames, h⟩
        · rw [leaves_request kernel recognised (.authoring request) h]
          exact accounts_refl _ _ _
        -- The rows of the module come first, then the one row that names who asked.
        · obtain ⟨rows, hrows, hwrites⟩ :=
            @rows_written μ actor reason (w.surface text moment) request w.store
          rw [leaves_request kernel recognised (.authoring request) h]
          refine ⟨rows, [row], ?_, hwrites,
            List.forall_mem_singleton.mpr ⟨actor, reason, rfl, hnames⟩⟩
          show _ ++ [row] = _
          rw [hrows, List.append_assoc]
      | replay request =>
        have hwithin := @within_replay μ (w.surface text moment) actor reason w.store
          (request.replay (w.surface text moment)) request.raw
        rcases @replayOutcome_cases μ actor reason (w.surface text moment)
            (request.replay (w.surface text moment)) request.raw w.store with
          ⟨raised, h⟩ | ⟨row, replayed, answer, -, h⟩
        · rw [leaves_request kernel recognised (.replay request) (hwithin.trans h)]
          exact accounts_refl _ _ _
        · rw [leaves_request kernel recognised (.replay request) (hwithin.trans h)]
          refine accounts_of_writes _ fun written hwritten => ?_
          cases request with
          | delivery deliveryId => exact .replayDelivery _ _ _ _ hwritten
          | receipt receiptId => exact .replayReceipt _ _ _ _ hwritten

/-- One event adds rows of the module, and one that names who was let in and why. -/
theorem accounts_served (event : ServiceEvent μ) : ∃ rows,
    (w.served kernel text recognised mechanism event).store.ledger = w.store.ledger ++ rows ∧
      ∀ row ∈ rows, event.moment.integration.Writes row ∨
        ∃ arrival actor reason act, event = .request arrival ∧
          Admits mechanism w arrival actor reason act ∧ row.Names actor reason := by
  cases hentered : entered mechanism w event with
  | none => exact ⟨[], by simp [World.served, hentered], nofun⟩
  | some act =>
    obtain ⟨rows, own, hledger, hwrites, hnames⟩ :=
      @accounts_leaves μ kernel text recognised w act
    refine ⟨rows ++ own, ?_, ?_⟩
    · rw [← hledger, World.served, hentered]
      rfl
    · rcases entered_eq_some_iff.mp hentered with
        ⟨moment, rfl, rfl⟩ | ⟨arrival, actor, reason, asked, rfl, rfl, hadmits⟩
      · intro row hrow
        rcases List.mem_append.mp hrow with hrow | hrow
        · exact .inl (hwrites row hrow)
        -- A sweep is asked for by nobody, so that it has no row of its own.
        · obtain ⟨_, _, hasked, -⟩ := hnames row hrow
          cases hasked
      · intro row hrow
        rcases List.mem_append.mp hrow with hrow | hrow
        · exact .inl (hwrites row hrow)
        · obtain ⟨_, _, hasked, hnamed⟩ := hnames row hrow
          obtain ⟨rfl, rfl⟩ := Prod.mk.inj (Option.some.inj hasked)
          exact .inr ⟨arrival, _, _, asked, rfl, hadmits, hnamed⟩

/-- **Every row of the ledger is the module's, or names who was let in and why.** Along a run of the
routes, a row that was not there before was written by the module during an event, or names the
administrator whose bearer text a request presented, with the reason that the request stated, which
is not blank. -/
theorem served_rows (w : World μ) (events : List (ServiceEvent μ)) : ∃ rows,
    (w.runService kernel text recognised mechanism events).store.ledger = w.store.ledger ++ rows ∧
      ∀ row ∈ rows, (∃ event ∈ events, event.moment.integration.Writes row) ∨
        ∃ before arrival after actor reason act, events = before ++ .request arrival :: after ∧
          Admits mechanism (w.runService kernel text recognised mechanism before) arrival actor
            reason act ∧
          row.Names actor reason ∧ trim reason = reason ∧ 1 ≤ reason.length ∧
            reason.length ≤ 500 := by
  -- The induction is on the events: the rows of the first one stand before those of the rest.
  induction events generalizing w with
  | nil => exact ⟨[], (List.append_nil _).symm, nofun⟩
  | cons event events ih =>
    obtain ⟨first, hfirst, hrows⟩ := @accounts_served μ kernel text recognised mechanism w
      event
    obtain ⟨rest, hrest, hlater⟩ := ih (w.served kernel text recognised mechanism event)
    refine ⟨first ++ rest, ?_, fun row hrow => ?_⟩
    · rw [← List.append_assoc, ← hfirst, ← hrest]
      rfl
    · rcases List.mem_append.mp hrow with hrow | hrow
      · rcases hrows row hrow with hwrites | ⟨arrival, actor, reason, act, rfl, hadmits, hnames⟩
        · exact .inl ⟨event, List.mem_cons_self, hwrites⟩
        · exact .inr ⟨[], arrival, events, actor, reason, act, rfl, hadmits, hnames,
            hadmits.reason_bounded⟩
      · rcases hlater row hrow with
          ⟨later, hmem, hwrites⟩ | ⟨before, arrival, after, actor, reason, act, rfl, h⟩
        · exact .inl ⟨later, List.mem_cons_of_mem event hmem, hwrites⟩
        · exact .inr ⟨event :: before, arrival, after, actor, reason, act, rfl, h⟩

/-- **Nothing happens on the operator surface without an operator.** A run of the routes is a run of
acts, each of them a sweep of the timer or a request that was let in where the run then stood; and a
request that is not let in changes nothing, and is told nothing but a refusal. -/
theorem service_lets_in (w : World μ) (events : List (ServiceEvent μ)) :
    (∃ acts, w.runService kernel text recognised mechanism events =
        w.run kernel text recognised acts ∧
      ∀ act ∈ acts, (∃ moment, .sweep moment ∈ events ∧ act = .sweep moment) ∨
        ∃ before arrival after actor reason asked, events = before ++ .request arrival :: after ∧
          act = .operator actor reason asked arrival.moment ∧
          Admits mechanism (w.runService kernel text recognised mechanism before) arrival actor
            reason asked) ∧
    ∀ before arrival after, events = before ++ .request arrival :: after →
      let here := w.runService kernel text recognised mechanism before
      (¬ ∃ actor, LetIn mechanism here arrival actor) →
        here.served kernel text recognised mechanism (.request arrival) = here ∧
          ∃ raised, here.answered kernel text recognised mechanism arrival = .error (.inr raised) ∧
            (raised ∈ refusals ∨ ∃ token exc,
              arrival.authenticate here.store token = .error exc ∧
                raised = .raised (.failure exc)) := by
  refine ⟨⟨_, runService_eq events, fun act hact => ?_⟩, fun _ _ _ _ => answered_of_not_letIn⟩
  -- An act of the run comes from one event, at the state the run had then reached.
  obtain ⟨before, event, after, rfl, hentered⟩ := entered_of_mem_enteredAlong hact
  rcases entered_eq_some_iff.mp hentered with
    ⟨moment, rfl, rfl⟩ | ⟨arrival, actor, reason, asked, rfl, rfl, hadmits⟩
  · exact .inl ⟨moment, by simp, rfl⟩
  · exact .inr ⟨before, arrival, after, actor, reason, asked, rfl, rfl, hadmits⟩

end DotmacIntegrator.Operations
