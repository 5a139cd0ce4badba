import DotmacIntegrator.Operations.Redacted

/-!
# Every operator act leaves who and why

The runs of the operator surface: requests of operators, and the sweep of the timer between them.
Every step leaves an effect: what it changed, and the audit rows that were committed with it. The
assembly's own operations and the replays say who asked and why in a row; the release of leases
says only who, and a refresh has replaced what is held before its row is written.

## Main definitions

* `World`, `Event`, `World.step`: the runs
* `Effect`, `Effect.Evidenced`: what a step leaves, and whether it says who and why
* `World.Meets`: the condition on a step

## Main results

* `evidenced_effect_iff`: a step is evidenced iff it meets the condition
* `allEvidenced_run_iff`: so is a run, iff all its steps do
-/

namespace DotmacIntegrator.Operations

open DotmacIntegrator.Secrets

/-- The row says who asked and why, in the fields both writers have. -/
structure AuditRow.Says (row : AuditRow) (actor : OperatorIdentity) (reason : String) :
    Prop where
  admin : row.actorAdminId = some actor.adminId
  reason : row.details.get? "reason" = some (.str reason)

variable {μ : Type}

/-- What is relied on of the module's own rows: a replay records the actor and the reason it is
given, and a release of leases records no reason. -/
structure Integration.Records (m : Integration μ) : Prop where
  replayDelivery : ∀ delivery adminId reason store replayed,
    (m.replayDelivery delivery adminId reason store).answer = .ok replayed →
      ∃ row ∈ (m.replayDelivery delivery adminId reason store).rows,
        row.actorAdminId = some adminId ∧ row.details.get? "reason" = some (.str reason)
  replayReceipt : ∀ receipt adminId reason store replayed,
    (m.replayReceipt receipt adminId reason store).answer = .ok replayed →
      ∃ row ∈ (m.replayReceipt receipt adminId reason store).rows,
        row.actorAdminId = some adminId ∧ row.details.get? "reason" = some (.str reason)
  releaseExpiredLeases : ∀ adminId store, ∀ row ∈ (m.releaseExpiredLeases adminId store).rows,
    row.details.get? "reason" = none

/-- The database and the module, as they behave during one step. -/
structure Moment (μ : Type) where
  db : Database
  integration : Integration μ
  records : integration.Records

/-- What an operator may ask for. -/
inductive OperatorAct
  | request (request : OperatorRequest)
  | releaseExpiredLeases
  | refreshSecretMaterial (around : Surroundings)

/-- A step: an operator asks for something with a reason, or the timer sweeps. -/
inductive Event (μ : Type)
  | operator (actor : OperatorIdentity) (reason : String) (act : OperatorAct) (moment : Moment μ)
  | sweep (moment : Moment μ)

/-- What a step leaves: on whose behalf, the tables before and after, whether what is held was
replaced, and the audit rows committed. -/
structure Effect (μ : Type) where
  asked : Option (OperatorIdentity × String)
  before : μ
  after : μ
  replaced : Bool
  rows : List AuditRow

/-- A mutation that an operator triggered has a row that says who and why. -/
def Effect.Evidenced (e : Effect μ) : Prop :=
  ∀ actor reason, e.asked = some (actor, reason) → e.before ≠ e.after ∨ e.replaced = true →
    ∃ row ∈ e.rows, row.Says actor reason

/-- The database, what is held, and the effects so far. -/
structure World (μ : Type) where
  store : Store μ
  secrets : SecretState
  effects : List (Effect μ)

variable (kernel : SourceKernel) (text : Interpreter) (recognised : List String)

/-- What an operation works with. -/
def World.surface (w : World μ) (moment : Moment μ) : Surface μ where
  held := w.secrets.held
  text := text
  db := moment.db
  integration := moment.integration

/-- A refresh replaces what is held: a source is installed, and its load returns. -/
def replaces (around : Surroundings) (secrets : SecretState) : Bool :=
  secrets.installed.isSome &&
    (Secrets.refresh kernel text.printable recognised around secrets).2.isOk

/-- The database and what is held after a step, and whether what is held was replaced. -/
def World.leaves (w : World μ) : Event μ → Store μ × SecretState × Bool
  | .operator actor reason (.request request) moment =>
    (((request.perform (w.surface text moment) actor reason).within w.store).2, w.secrets, false)
  | .operator actor reason .releaseExpiredLeases moment =>
    (((releaseExpiredLeases (w.surface text moment) actor reason).within w.store).2, w.secrets,
      false)
  | .operator actor reason (.refreshSecretMaterial around) moment =>
    let refreshed := refreshSecretMaterial (w.surface text moment) actor reason kernel recognised
      around w.secrets w.store
    (refreshed.2.2, refreshed.2.1, replaces kernel text recognised around w.secrets)
  | .sweep moment =>
    (((sweepExpiredLeases (w.surface text moment)).within w.store).2, w.secrets, false)

/-- On whose behalf a step is taken. -/
def Event.asked : Event μ → Option (OperatorIdentity × String)
  | .operator actor reason _ _ => some (actor, reason)
  | .sweep _ => none

/-- The effect of a step. -/
def World.effect (w : World μ) (event : Event μ) : Effect μ where
  asked := event.asked
  before := w.store.tables
  after := (w.leaves kernel text recognised event).1.tables
  replaced := (w.leaves kernel text recognised event).2.2
  rows := (w.leaves kernel text recognised event).1.ledger.drop w.store.ledger.length

/-- One step. -/
def World.step (w : World μ) (event : Event μ) : World μ where
  store := (w.leaves kernel text recognised event).1
  secrets := (w.leaves kernel text recognised event).2.1
  effects := w.effects ++ [w.effect kernel text recognised event]

/-- A run. -/
def World.run (w : World μ) (events : List (Event μ)) : World μ :=
  events.foldl (World.step kernel text recognised) w

/-- A world in which nothing has happened yet. -/
def World.start (store : Store μ) (secrets : SecretState) : World μ := ⟨store, secrets, []⟩

/-- Every effect so far says who and why. -/
def World.AllEvidenced (w : World μ) : Prop := ∀ e ∈ w.effects, e.Evidenced

/-- The condition on a step: leases that an operator releases are left by the module, or the
release fails; and material that is replaced finds a database that writes the row and commits. -/
def World.Meets (w : World μ) : Event μ → Prop
  | .operator actor _ .releaseExpiredLeases moment =>
    ∀ released,
      (moment.integration.releaseExpiredLeases (some actor.adminId) w.store).answer =
        .ok released → moment.db.commit = none →
      (moment.integration.releaseExpiredLeases (some actor.adminId) w.store).tables =
        w.store.tables
  | .operator _ _ (.refreshSecretMaterial around) moment =>
    replaces kernel text recognised around w.secrets = true → moment.db.evidence = none
  | _ => True

/-- Every step of a run meets the condition where it is taken. -/
def World.MeetsAlong : World μ → List (Event μ) → Prop
  | _, [] => True
  | w, event :: events =>
    w.Meets kernel text recognised event ∧
      World.MeetsAlong (w.step kernel text recognised event) events

variable {kernel text recognised} {w : World μ} {actor : OperatorIdentity} {reason : String}

/-! ### Steps -/

theorem AuditRow.Says.of_names {row : AuditRow} (h : row.Names actor reason) :
    row.Says actor reason :=
  ⟨h.admin, h.reason⟩

/-- The effect of a step, from what the step leaves. -/
theorem effect_of_leaves {event : Event μ} {store : Store μ} {secrets : SecretState}
    {replaced : Bool} (h : w.leaves kernel text recognised event = (store, secrets, replaced)) :
    w.effect kernel text recognised event = ⟨event.asked, w.store.tables, store.tables, replaced,
      store.ledger.drop w.store.ledger.length⟩ := by
  unfold World.effect
  rw [h]

/-- A step that leaves everything as it was needs no row. -/
theorem evidenced_of_unchanged {event : Event μ} {store : Store μ} {secrets : SecretState}
    (h : w.leaves kernel text recognised event = (store, secrets, false))
    (htables : store.tables = w.store.tables) :
    (w.effect kernel text recognised event).Evidenced := by
  rw [effect_of_leaves h]
  rintro actor reason - (hchanged | hreplaced)
  · exact absurd htables.symm hchanged
  · cases hreplaced

/-- A step that commits a row for whoever asked is evidenced. -/
theorem evidenced_of_row {event : Event μ} {store : Store μ} {secrets : SecretState}
    {replaced : Bool} (h : w.leaves kernel text recognised event = (store, secrets, replaced))
    (hasked : event.asked = some (actor, reason)) {rows : List AuditRow}
    (hledger : store.ledger = w.store.ledger ++ rows) {row : AuditRow} (hrow : row ∈ rows)
    (hnamed : row.Says actor reason) : (w.effect kernel text recognised event).Evidenced := by
  rw [effect_of_leaves h, hasked, hledger, List.drop_left' rfl]
  intro actor' reason' heq _
  obtain ⟨rfl, rfl⟩ := Prod.mk.inj (Option.some.inj heq)
  exact ⟨row, hrow, hnamed⟩

/-- What a request leaves, from what it comes to. -/
theorem leaves_request (kernel : SourceKernel) (recognised : List String)
    (request : OperatorRequest) {moment : Moment μ}
    {answer : Except Raised Json} {store : Store μ}
    (h : (request.perform (w.surface text moment) actor reason).within w.store =
      (answer, store)) :
    w.leaves kernel text recognised (.operator actor reason (.request request) moment) =
      (store, w.secrets, false) := by
  simp only [World.leaves, h]

/-- An authoring operation is evidenced: what it commits, it commits with its row. -/
theorem evidenced_authoring (request : AuthoringRequest) (moment : Moment μ) :
    (w.effect kernel text recognised
      (.operator actor reason (.request (.authoring request)) moment)).Evidenced := by
  rcases @perform_cases μ (w.surface text moment) actor reason request w.store with
    ⟨raised, h⟩ | ⟨row, answer, hnames, h⟩
  · have hleaves := leaves_request kernel recognised (.authoring request) h
    exact evidenced_of_unchanged hleaves rfl
  · obtain ⟨rows, hrows⟩ := @ledger_written μ (w.surface text moment) actor reason request w.store
    have hleaves := leaves_request kernel recognised (.authoring request) h
    have hledger : ((request.written (w.surface text moment) actor reason w.store).withRow
        row).ledger = w.store.ledger ++ (rows ++ [row]) := by
      rw [Store.withRow, hrows, List.append_assoc]
    exact evidenced_of_row hleaves rfl hledger
      (List.mem_append_right rows (List.mem_singleton_self row)) (.of_names hnames)

/-- What a commit without a row leaves. -/
theorem committing_cases (surface : Surface μ) (store written : Store μ)
    (answer : Except Raised Json) :
    (∃ raised, committing surface store written answer = (.error raised, store)) ∨
      surface.db.commit = none ∧ committing surface store written answer = (answer, written) := by
  unfold committing
  cases surface.db.commit with
  | none => exact .inr ⟨rfl, rfl⟩
  | some exc => exact .inl ⟨_, rfl⟩

/-- A replay commits nothing and raises, or it commits what the module did, which returned. -/
theorem replayOutcome_cases (surface : Surface μ) (r : Replay μ) (raw : String)
    (store : Store μ) :
    (∃ raised, r.outcome surface actor reason raw store = (.error raised, store)) ∨
      ∃ row replayed answer, (r.call row actor.adminId reason store).answer = .ok replayed ∧
        r.outcome surface actor reason raw store =
          (answer, (r.call row actor.adminId reason store).after store) := by
  unfold Replay.outcome
  cases r.finds surface raw store with
  | error raised => exact .inl ⟨raised, rfl⟩
  | ok row =>
    simp only
    cases hanswer : (r.call row actor.adminId reason store).answer with
    | error exc => exact .inl ⟨_, rfl⟩
    | ok replayed =>
      rcases committing_cases surface store ((r.call row actor.adminId reason store).after store)
        (rereading surface (repaired replayed)) with h | ⟨-, h⟩
      · exact .inl h
      · exact .inr ⟨row, replayed, _, hanswer, h⟩

/-- The module records a replay that it makes. -/
theorem records_replay {moment : Moment μ} (request : ReplayRequest) {row replayed : Repairable}
    {store : Store μ}
    (h : ((request.replay (w.surface text moment)).call row actor.adminId reason store).answer =
      .ok replayed) :
    ∃ r ∈ ((request.replay (w.surface text moment)).call row actor.adminId reason store).rows,
      r.Says actor reason := by
  cases request with
  | delivery deliveryId =>
    obtain ⟨r, hr, hadmin, hreason⟩ := moment.records.replayDelivery _ _ _ _ _ h
    exact ⟨r, hr, hadmin, hreason⟩
  | receipt receiptId =>
    obtain ⟨r, hr, hadmin, hreason⟩ := moment.records.replayReceipt _ _ _ _ _ h
    exact ⟨r, hr, hadmin, hreason⟩

/-- A replay is evidenced by the row of the module. -/
theorem evidenced_replay (request : ReplayRequest) (moment : Moment μ) :
    (w.effect kernel text recognised
      (.operator actor reason (.request (.replay request)) moment)).Evidenced := by
  have hwithin := @within_replay μ (w.surface text moment) actor reason w.store
    (request.replay (w.surface text moment)) request.raw
  rcases @replayOutcome_cases μ actor reason (w.surface text moment)
      (request.replay (w.surface text moment)) request.raw w.store with
    ⟨raised, h⟩ | ⟨row, replayed, answer, hanswer, h⟩
  · have hleaves := leaves_request kernel recognised (.replay request) (hwithin.trans h)
    exact evidenced_of_unchanged hleaves rfl
  · have hleaves := leaves_request kernel recognised (.replay request) (hwithin.trans h)
    obtain ⟨r, hr, hnamed⟩ := records_replay request hanswer
    exact evidenced_of_row hleaves rfl rfl hr hnamed

/-- A sweep leaves the store as it was, or it is committed as the module left it. -/
theorem sweepOutcome_cases (surface : Surface μ) (made : Call μ ℤ) (answer : ℤ → Json)
    (store : Store μ) :
    ((∀ released, made.answer = .ok released → surface.db.commit ≠ none) ∧
      ∃ raised, sweepOutcome surface made answer store = (.error raised, store)) ∨
    (∃ released, made.answer = .ok released) ∧ surface.db.commit = none ∧
      ∃ given, sweepOutcome surface made answer store = (given, made.after store) := by
  unfold sweepOutcome
  cases made.answer with
  | error exc => exact .inl ⟨nofun, _, rfl⟩
  | ok released =>
    simp only
    unfold committing
    cases surface.db.commit with
    | none => exact .inr ⟨⟨released, rfl⟩, rfl, _, rfl⟩
    | some exc => exact .inl ⟨nofun, _, rfl⟩

/-- What a release leaves, from what it comes to. -/
theorem leaves_release (kernel : SourceKernel) (recognised : List String) {moment : Moment μ}
    {answer : Except Raised Json} {store : Store μ}
    (h : (releaseExpiredLeases (w.surface text moment) actor reason).within w.store =
      (answer, store)) :
    w.leaves kernel text recognised (.operator actor reason .releaseExpiredLeases moment) =
      (store, w.secrets, false) := by
  simp only [World.leaves, h]

/-- A release is evidenced iff it leaves the leases as they were: the module's row has no reason,
and the assembly adds none. -/
theorem evidenced_release_iff (moment : Moment μ) :
    (w.effect kernel text recognised
      (.operator actor reason .releaseExpiredLeases moment)).Evidenced ↔
      w.Meets kernel text recognised (.operator actor reason .releaseExpiredLeases moment) := by
  have hwithin := @within_releaseExpiredLeases μ (w.surface text moment) actor reason w.store
  rcases sweepOutcome_cases (w.surface text moment)
      (moment.integration.releaseExpiredLeases (some actor.adminId) w.store) _ w.store with
    ⟨hfails, raised, h⟩ | ⟨⟨released, hmade⟩, hcommit, answer, h⟩
  · have hleaves := leaves_release kernel recognised (hwithin.trans h)
    constructor
    · intro _ released hmade hcommit
      exact absurd hcommit (hfails released hmade)
    · intro _
      exact evidenced_of_unchanged hleaves rfl
  · have hleaves := leaves_release kernel recognised (hwithin.trans h)
    constructor
    · intro hevidenced
      by_contra hnot
      have hchanged : (moment.integration.releaseExpiredLeases (some actor.adminId)
          w.store).tables ≠ w.store.tables := by
        intro heq
        apply hnot
        intro _ _ _
        exact heq
      rw [effect_of_leaves hleaves] at hevidenced
      obtain ⟨row, hrow, hnamed⟩ := hevidenced actor reason rfl (.inl (Ne.symm hchanged))
      have hmine : row ∈ (moment.integration.releaseExpiredLeases (some actor.adminId)
          w.store).rows := by
        simpa [Call.after] using hrow
      have hsilent := moment.records.releaseExpiredLeases _ _ row hmine
      rw [hnamed.reason] at hsilent
      cases hsilent
    · intro hmeets
      exact evidenced_of_unchanged hleaves (hmeets released hmade hcommit)

/-- A refresh records an action that is declared. -/
theorem refreshedRow_declared (report : Secrets.SecretLoadReport) :
    (refreshedRow actor reason report).action ∈ INTEGRATOR_AUDIT_ACTIONS := by
  show "integrator.secrets.refreshed" ∈ INTEGRATOR_AUDIT_ACTIONS
  decide

/-- The row of a refresh says who asked and why. -/
theorem refreshedRow_names (report : Secrets.SecretLoadReport) :
    (refreshedRow actor reason report).Names actor reason := by
  apply names_auditRow <;> simp

/-- A row is recorded, or nothing is. -/
theorem within_evidence {surface : Surface μ} {row : AuditRow}
    (h : row.action ∈ INTEGRATOR_AUDIT_ACTIONS) (store : Store μ) :
    ∃ recorded, (evidence surface row).within store =
      (recorded, if surface.db.evidence = none then store.withRow row else store) := by
  cases hdb : surface.db.evidence with
  | none =>
    refine ⟨.ok (), ?_⟩
    rw [Transaction.within_eq (exec_evidence h hdb)]
    rfl
  | some exc =>
    refine ⟨.error (.failure exc), ?_⟩
    rw [(fails_evidence h hdb).within]
    rfl

/-- What a refresh leaves: what is held, as the refresh of the kernel leaves it, and a row where it
returned and the database writes and commits. -/
theorem leaves_refresh (around : Surroundings) (moment : Moment μ) :
    (∃ refreshed failure,
      Secrets.refresh kernel text.printable recognised around w.secrets =
        (refreshed, .error failure) ∧
      w.leaves kernel text recognised
        (.operator actor reason (.refreshSecretMaterial around) moment) =
          (w.store, refreshed, false)) ∨
    ∃ refreshed report,
      Secrets.refresh kernel text.printable recognised around w.secrets =
        (refreshed, .ok report) ∧
      w.leaves kernel text recognised
        (.operator actor reason (.refreshSecretMaterial around) moment) =
          (if moment.db.evidence = none then w.store.withRow (refreshedRow actor reason report)
            else w.store,
          refreshed, replaces kernel text recognised around w.secrets) := by
  cases h : Secrets.refresh kernel text.printable recognised around w.secrets with
  | mk refreshed loaded =>
    cases loaded with
    | error failure =>
      refine .inl ⟨refreshed, failure, rfl, ?_⟩
      have hreplaces : replaces kernel text recognised around w.secrets = false := by
        unfold replaces
        rw [h]
        exact Bool.and_false _
      simp only [World.leaves, refreshSecretMaterial, World.surface, h, hreplaces]
    | ok report =>
      refine .inr ⟨refreshed, report, rfl, ?_⟩
      obtain ⟨recorded, hrecorded⟩ := @within_evidence μ (w.surface text moment)
        _ (refreshedRow_declared report) w.store
      simp only [World.leaves, refreshSecretMaterial, World.surface, h] at hrecorded ⊢
      rw [hrecorded]
      rfl

/-- A refresh is evidenced iff what it replaced finds a database that writes the row and commits:
the material is replaced before the row is written. -/
theorem evidenced_refresh_iff (around : Surroundings) (moment : Moment μ) :
    (w.effect kernel text recognised
      (.operator actor reason (.refreshSecretMaterial around) moment)).Evidenced ↔
      w.Meets kernel text recognised
        (.operator actor reason (.refreshSecretMaterial around) moment) := by
  rcases @leaves_refresh μ kernel text recognised w actor reason around moment with
    ⟨refreshed, failure, h, hleaves⟩ | ⟨refreshed, report, h, hleaves⟩
  · apply iff_of_true (evidenced_of_unchanged hleaves rfl)
    intro hreplaces
    unfold replaces at hreplaces
    rw [h] at hreplaces
    cases (Bool.and_eq_true_iff.mp hreplaces).2
  · show _ ↔ (replaces kernel text recognised around w.secrets = true → moment.db.evidence = none)
    by_cases hdb : moment.db.evidence = none
    · rw [if_pos hdb] at hleaves
      apply iff_of_true _ fun _ => hdb
      exact evidenced_of_row hleaves rfl rfl (List.mem_singleton_self _)
        (.of_names (refreshedRow_names report))
    · rw [if_neg hdb] at hleaves
      constructor
      · intro hevidenced hreplaces
        rw [effect_of_leaves hleaves, hreplaces] at hevidenced
        obtain ⟨row, hrow, -⟩ := hevidenced actor reason rfl (.inr rfl)
        rw [List.drop_length] at hrow
        cases hrow
      · intro hmeets
        have hreplaces : replaces kernel text recognised around w.secrets = false :=
          Bool.eq_false_iff.mpr fun hreplaces => hdb (hmeets hreplaces)
        rw [hreplaces] at hleaves
        exact evidenced_of_unchanged hleaves rfl

/-- A step is evidenced iff it meets the condition. -/
theorem evidenced_effect_iff (event : Event μ) :
    (w.effect kernel text recognised event).Evidenced ↔
      w.Meets kernel text recognised event := by
  cases event with
  | sweep moment =>
    -- nobody asked
    exact iff_of_true nofun trivial
  | operator actor reason act moment =>
    cases act with
    | request request =>
      apply iff_of_true _ trivial
      cases request with
      | authoring request => exact evidenced_authoring request moment
      | replay request => exact evidenced_replay request moment
    | releaseExpiredLeases => exact evidenced_release_iff moment
    | refreshSecretMaterial around => exact evidenced_refresh_iff around moment

/-! ### Runs -/

/-- After one step all is evidenced iff it was before, and the step meets the condition. -/
theorem allEvidenced_step_iff (event : Event μ) :
    (w.step kernel text recognised event).AllEvidenced ↔
      w.AllEvidenced ∧ w.Meets kernel text recognised event := by
  rw [← evidenced_effect_iff event]
  show (∀ e ∈ w.effects ++ [w.effect kernel text recognised event], e.Evidenced) ↔ _
  rw [List.forall_mem_append, List.forall_mem_singleton]
  rfl

/-- Along a run, from any world. -/
theorem allEvidenced_runFrom_iff (events : List (Event μ)) :
    ∀ w : World μ, (w.run kernel text recognised events).AllEvidenced ↔
      w.AllEvidenced ∧ w.MeetsAlong kernel text recognised events := by
  induction events with
  | nil =>
    intro w
    exact (and_iff_left trivial).symm
  | cons event events ih =>
    intro w
    show ((w.step kernel text recognised event).run kernel text recognised events).AllEvidenced ↔ _
    rw [ih, allEvidenced_step_iff, and_assoc]
    rfl

/-- **Every operator act of a run leaves who and why**, iff every release of the run leaves the
leases as they were, or fails, and every replacement of what is held finds a database that writes
and commits. -/
theorem allEvidenced_run_iff (store : Store μ) (secrets : SecretState)
    (events : List (Event μ)) :
    ((World.start store secrets).run kernel text recognised events).AllEvidenced ↔
      (World.start store secrets).MeetsAlong kernel text recognised events := by
  rw [allEvidenced_runFrom_iff, and_iff_right]
  nofun

/-- The row the module writes of released leases. -/
def releasedRow (actorAdminId : Option Uuid) (count : ℕ) : AuditRow where
  actorAdminId := actorAdminId
  action := "leases.released"
  entityType := "delivery"
  entityId := none
  details := [("count", .int count)]

/-- The row the module writes of a replay. -/
def replayedRow (actorAdminId : Uuid) (reason : String) : AuditRow where
  actorAdminId := some actorAdminId
  action := "delivery.replayed"
  entityType := "delivery"
  entityId := none
  details := [("reason", .str reason)]

/-- A module whose tables are the number of expired leases. -/
def leasing : Integration ℕ :=
  { permissive with
    releaseExpiredLeases := fun actorAdminId store =>
      ⟨0, [releasedRow actorAdminId store.tables], .ok store.tables⟩
    replayDelivery := fun delivery adminId reason store =>
      ⟨store.tables, [replayedRow adminId reason], .ok delivery⟩
    replayReceipt := fun receipt adminId reason store =>
      ⟨store.tables, [replayedRow adminId reason], .ok receipt⟩ }

theorem records_leasing : leasing.Records where
  replayDelivery _ _ _ _ _ _ := ⟨_, List.mem_singleton_self _, rfl, rfl⟩
  replayReceipt _ _ _ _ _ _ := ⟨_, List.mem_singleton_self _, rfl, rfl⟩
  releaseExpiredLeases := by
    intro adminId store row hrow
    obtain rfl := List.mem_singleton.mp hrow
    rfl

/-- A database that works, and a module with leases. -/
def leasingMoment : Moment ℕ := ⟨⟨none, none, none, none⟩, leasing, records_leasing⟩

/-- An operator releases the one lease that has expired: no row says why. -/
theorem not_allEvidenced_released :
    ¬ ((World.start (⟨1, []⟩ : Store ℕ) .empty).run ⟨false, none⟩
      (surfaceOf "caller-key" leasing).text []
      [.operator someOperator "the worker is gone" .releaseExpiredLeases leasingMoment]
      ).AllEvidenced := by
  intro h
  obtain ⟨-, hmeets⟩ := (allEvidenced_step_iff _).mp h
  exact one_ne_zero (hmeets 1 rfl rfl).symm

end DotmacIntegrator.Operations
