import DotmacIntegrator.Operations.Provenance

/-!
# Held values and the operator surface

Two operations pass the text of an exception on as it stands: an enablement whose connector is not
installed, and a replay of what is not repairable. Everything else that an operation says was given
to it or is redacted: of clean inputs nothing held is said but by these two.

## Main definitions

* `OperatorRequest.passedOn`: the texts of exceptions that an operation passes on

## Main results

* `said_published`: where every text of an operation comes from
* `passedOn_subset_published`: what is passed on is said
* `published_clean_iff`: of clean inputs, nothing held is said iff nothing held is passed on
-/

namespace DotmacIntegrator.Operations

open DotmacIntegrator.Secrets
open Text (Occurs)

variable {μ : Type} (surface : Surface μ) (actor : OperatorIdentity) (reason : String)

/-! ### What is passed on -/

/-- What is said only where the rows are committed. -/
def recorded (texts : List String) : List String :=
  match surface.db.evidence with
  | none => texts
  | some _ => []

/-- The text of the exception that a refused enablement passes on: the connector is not
installed. -/
def refusedPassedOn (exc : Failure) : List String :=
  if .lifecycle ∈ exc.families then []
  else if .invalidManifest ∈ exc.families then recorded surface [exc.text]
  else []

/-- The same of an enablement whose connector is asked. -/
def askedPassedOn (installation : ConnectorInstallation) (secrets : Dict String String)
    (store : Store μ) : List String :=
  match surface.integration.discover with
  | some _ => []
  | none =>
    match (surface.integration.enable installation secrets actor.label store).2.answer with
    | .error exc => refusedPassedOn surface exc
    | .ok () => []

/-- The same of an enablement. -/
def enablePassedOn (installationId : String) (store : Store μ) : List String :=
  match findRevision surface installationId store with
  | .error _ => []
  | .ok (installation, revision) =>
    match resolveSecrets surface.held (secretRefs surface revision) with
    | .error _ => []
    | .ok secrets => askedPassedOn surface actor installation secrets store

/-- The text of the exception that a replay passes on: the row is not repairable. -/
def replayPassedOn (r : Replay μ) (raw : String) (store : Store μ) : List String :=
  match r.finds surface raw store with
  | .error _ => []
  | .ok row =>
    match (r.call row actor.adminId reason store).answer with
    | .error exc => if .notRepairable ∈ exc.families then [exc.text] else []
    | .ok _ => []

/-- The texts of exceptions that an operation passes on. -/
def OperatorRequest.passedOn (store : Store μ) : OperatorRequest → List String
  | .authoring (.enableInstallation installationId) =>
    enablePassedOn surface actor installationId store
  | .authoring _ => []
  | .replay request =>
    replayPassedOn surface actor reason (request.replay surface) request.raw store

variable {surface actor reason} {store : Store μ} {held : Held} {inputs passed : List String}
  {a : Authored μ}

/-! ### What outcomes say -/

theorem published_store (raised : Raised) :
    published store (.error raised, store) = raised.texts := by
  unfold published rowTexts
  rw [List.drop_length, List.flatMap_nil, List.append_nil]
  rfl

theorem published_append {tables : μ} {rows : List AuditRow} (answer : Except Raised Json) :
    published store (answer, ⟨tables, store.ledger ++ rows⟩) =
      answerTexts answer ++ rowTexts rows := by
  unfold published
  rw [List.drop_left']
  rfl

/-- A plan that drops everything says what it raises. -/
theorem published_drops (raised : Raised) :
    published store ((Plan.drops raised).outcome surface store) = raised.texts :=
  published_store raised

/-- What lands is what the module added, with the row of the operation. -/
theorem published_landed {written : Store μ} {rows : List AuditRow}
    (hwritten : written.ledger = store.ledger ++ rows) (row : AuditRow)
    (answer : Except Raised Json) :
    published store (answer, written.withRow row) =
      answerTexts answer ++ (rowTexts rows ++ row.texts) := by
  have hledger : (written.withRow row).ledger = store.ledger ++ (rows ++ [row]) := by
    show written.ledger ++ [row] = _
    rw [hwritten, List.append_assoc]
  unfold published
  rw [hledger, List.drop_left' rfl, rowTexts, List.flatMap_append, List.flatMap_singleton]
  rfl

theorem answerTexts_rereading (value : Json) : answerTexts (rereading surface value) = [] := by
  unfold rereading
  cases surface.db.reread <;> rfl

/-- What a plan says that lands: its answer and its rows where the database works, and else what it
makes of the failure. -/
theorem allSaid_lands {written : Store μ} {rows : List AuditRow} {row : AuditRow}
    {answer : Except Raised Json} {undone : Failure → Raised}
    (hwritten : written.ledger = store.ledger ++ rows)
    (hanswer : surface.db.evidence = none → AllSaid held inputs passed (answerTexts answer))
    (hrows : rowTexts rows ⊆ inputs) (hrow : AllSaid held inputs passed row.texts)
    (hundone : ∀ exc, AllSaid held inputs passed (undone exc).texts) :
    AllSaid held inputs passed
      (published store ((Plan.lands written row answer undone).outcome surface store)) := by
  unfold Plan.outcome
  cases hdb : surface.db.evidence with
  | none =>
    simp only
    rw [published_landed hwritten, allSaid_append, allSaid_append]
    exact ⟨hanswer hdb, allSaid_of_subset hrows, hrow⟩
  | some exc =>
    simp only
    rw [published_store]
    exact hundone exc

/-- The `except` branches of an authoring operation answer a conflict, or with their own wording. -/
theorem allSaid_caught (hfixed : fixedWording ⊆ inputs)
    (hconflict : ∀ detail, a.conflict = some detail → detail ∈ inputs) (exc : Failure) :
    AllSaid surface.held inputs passed (a.caught surface exc).texts := by
  unfold Authored.caught
  split
  · exact allSaid_lifecycleConflict hfixed exc
  · split
    · exact allSaid_nil
    · next detail hdetail =>
      split
      · exact allSaid_singleton (.input (hconflict detail hdetail))
      · exact allSaid_nil

/-- **An authoring operation says nothing but what it is given**, and what is redacted. -/
theorem allSaid_authored (hfixed : fixedWording ⊆ inputs)
    (ha : a.Sourced surface.held inputs passed store) :
    AllSaid surface.held inputs passed
      (published store ((a.plan surface store).outcome surface store)) := by
  unfold Authored.plan
  cases surface.integration.discover with
  | some exc =>
    simp only
    rw [published_drops]
    exact allSaid_nil
  | none =>
    cases hfinds : a.finds store with
    | error raised =>
      simp only
      rw [published_drops]
      exact allSaid_of_subset (ha.lookup raised hfinds)
    | ok make =>
      simp only
      cases hmade : (make store).answer with
      | error exc =>
        simp only
        rw [published_drops]
        exact allSaid_caught hfixed ha.conflict exc
      | ok made =>
        refine allSaid_lands rfl (fun _ => ?_) (ha.rows make hfinds)
          (ha.made make made hfinds hmade) fun exc => ?_
        · rw [answerTexts_rereading]
          exact allSaid_nil
        · split
          · exact allSaid_caught hfixed ha.conflict exc
          · exact allSaid_nil

/-! ### Enablements -/

/-- The row of a refused enablement: its refusal, and one more detail. -/
theorem allSaid_refusedRow (hc : Common actor reason inputs) {installation : ConnectorInstallation}
    {refusal name : String} {value : Json} (hrefusal : refusal ∈ fixedWording)
    (hname : name ∈ fixedWording) (hvalue : AllSaid held inputs passed value.texts) :
    AllSaid held inputs passed
      (refusedRow actor reason installation refusal (name, value)).texts := by
  apply allSaid_auditRow hc
  simp only [List.forall_mem_cons]
  exact ⟨said_detail hc.fixed hc.reason (by decide),
    said_detail hc.fixed (hc.fixed hrefusal) (by decide), ⟨hc.fixed hname, hvalue⟩,
    List.forall_mem_nil _⟩

/-- Sorted references are references. -/
theorem allSaid_sortedValues {refs : Dict String String} (h : refs.map Prod.snd ⊆ inputs) :
    AllSaid held inputs passed (Json.arr ((sortedValues refs).map .str)).texts := by
  intro text ht
  obtain ⟨value, hvalue, htext⟩ := Json.mem_textsItems.mp ht
  obtain ⟨reference, hreference, rfl⟩ := List.mem_map.mp hvalue
  obtain rfl := List.mem_singleton.mp htext
  exact .input (h (List.mem_mergeSort.mp hreference))

theorem allSaid_enabledRow (hc : Common actor reason inputs) {left : ConnectorInstallation}
    {revision : ConnectorConfigRevision} {refs : Dict String String} (hleft : left.texts ⊆ inputs)
    (hrevision : revision.texts ⊆ inputs) (hrefs : refs.map Prod.snd ⊆ inputs) :
    AllSaid held inputs passed (enabledRow actor reason left revision refs).texts := by
  simp only [ConnectorInstallation.texts, ConnectorConfigRevision.texts, List.cons_subset]
    at hleft hrevision
  apply allSaid_auditRow hc
  simp only [List.forall_mem_cons]
  exact ⟨said_detail hc.fixed hc.reason (by decide), said_detail hc.fixed hleft.2.1 (by decide),
    said_detail hc.fixed hrevision.1 (by decide),
    ⟨hc.fixed (by decide), allSaid_sortedValues hrefs⟩, List.forall_mem_nil _⟩

/-- A refused enablement says its wording and what is redacted, and passes on the refusal of a
connector that is not installed. -/
theorem allSaid_refusedPlan (hc : Common actor reason inputs) {left : ConnectorInstallation}
    (hleft : left.texts ⊆ inputs) {exc : Failure} {c : Call μ Unit}
    (hrows : rowTexts c.rows ⊆ inputs) :
    AllSaid surface.held inputs (refusedPassedOn surface exc) (published store
      ((refusedPlan surface actor reason left exc (c.after store)).outcome surface store)) := by
  unfold refusedPlan
  split_ifs with hlifecycle hleak hmanifest
  · rw [published_drops]
    exact allSaid_singleton (.input (hc.fixed (by simp [fixedWording])))
  · -- the diagnostic is redacted, in the answer and in the row
    refine allSaid_lands rfl (fun _ => allSaid_singleton (.redacted exc.text)) hrows ?_
      fun _ => allSaid_nil
    exact allSaid_refusedRow hc (by decide) (by decide) (allSaid_singleton (.redacted exc.text))
  · refine allSaid_lands rfl (fun hdb => allSaid_singleton (.passedOn ?_)) hrows ?_
      fun _ => allSaid_nil
    · rw [refusedPassedOn, if_neg hlifecycle, if_pos hmanifest, recorded, hdb]
      exact List.mem_singleton.mpr rfl
    · rw [ConnectorInstallation.texts, List.cons_subset, List.cons_subset] at hleft
      exact allSaid_refusedRow hc (by decide) (by decide)
        (allSaid_singleton (.input hleft.2.1))
  · rw [published_drops]
    exact allSaid_nil

theorem allSaid_askedPlan (hc : Common actor reason inputs) {installation : ConnectorInstallation}
    {revision : ConnectorConfigRevision} {secrets : Dict String String}
    (hrevision : revision.texts ⊆ inputs)
    (hrefs : (secretRefs surface revision).map Prod.snd ⊆ inputs)
    (hasked : (surface.integration.enable installation secrets actor.label store).1.texts ++
      rowTexts (surface.integration.enable installation secrets actor.label store).2.rows ⊆
        inputs) :
    AllSaid surface.held inputs (askedPassedOn surface actor installation secrets store)
      (published store ((askedPlan surface actor reason installation revision
        (secretRefs surface revision) secrets store).outcome surface store)) := by
  obtain ⟨hleft, hrows⟩ := List.append_subset.mp hasked
  unfold askedPlan askedPassedOn answeredPlan
  cases surface.integration.discover with
  | some exc =>
    simp only
    rw [published_drops]
    exact allSaid_nil
  | none =>
    simp only
    cases (surface.integration.enable installation secrets actor.label store).2.answer with
    | error exc => exact allSaid_refusedPlan hc hleft hrows
    | ok _ =>
      refine allSaid_lands rfl (fun _ => ?_) hrows (allSaid_enabledRow hc hleft hrevision hrefs)
        fun _ => allSaid_nil
      rw [answerTexts_rereading]
      exact allSaid_nil

/-- **An enablement says nothing but what it is given**, what is redacted, and what it passes on. -/
theorem allSaid_enablePlan (hc : Common actor reason inputs) {installationId : String}
    (hreferences : OperatorRequest.references surface store
      (.authoring (.enableInstallation installationId)) ⊆ inputs)
    (hwording : OperatorRequest.wording surface store
      (.authoring (.enableInstallation installationId)) ⊆ inputs)
    (hhanded : AuthoringRequest.handed surface actor store
      (.enableInstallation installationId) ⊆ inputs) :
    AllSaid surface.held inputs (enablePassedOn surface actor installationId store)
      (published store
        ((enablePlan surface actor reason installationId store).outcome surface store)) := by
  rw [OperatorRequest.references] at hreferences
  rw [OperatorRequest.wording, List.append_subset] at hwording
  rw [AuthoringRequest.handed] at hhanded
  unfold enablePlan enablePassedOn
  cases hfound : findRevision surface installationId store with
  | error raised =>
    simp only
    rw [published_drops]
    exact allSaid_of_subset (texts_findRevision hfound hc.fixed hwording.1)
  | ok found =>
    obtain ⟨installation, revision⟩ := found
    simp only [hfound, Except.toOption, Option.elim_some] at hreferences hwording hhanded ⊢
    rw [List.append_subset, List.append_subset] at hhanded
    obtain ⟨⟨hinstallation, hrevision⟩, hasked⟩ := hhanded
    cases hsecrets : resolveSecrets surface.held (secretRefs surface revision) with
    | ok secrets =>
      rw [foundPlan_of_held hsecrets]
      rw [hsecrets] at hasked
      exact allSaid_askedPlan hc hrevision hreferences hasked
    | error missing =>
      -- nothing was written before the material was found missing
      rw [foundPlan_of_missing hsecrets]
      refine allSaid_lands (List.append_nil _).symm (fun _ => ?_) (List.nil_subset _) ?_
        fun _ => allSaid_nil
      · exact allSaid_of_subset hwording.2
      · refine allSaid_refusedRow hc (by decide) (by decide) (allSaid_sortedValues ?_)
        refine List.Subset.trans (List.map_subset _ ?_) hreferences
        exact List.filter_subset_self _

/-! ### Replays -/

/-- **A replay says nothing but what it is given**, and what it passes on. -/
theorem allSaid_replay {r : Replay μ} {raw : String}
    (hwording : lookupWording surface r.field ("no " ++ r.noun ++ " ") raw ⊆ inputs)
    (hhanded : (r.finds surface raw store).toOption.elim [] (fun row =>
      rowTexts (r.call row actor.adminId reason store).rows) ⊆ inputs) :
    AllSaid held inputs (replayPassedOn surface actor reason r raw store)
      (published store (r.outcome surface actor reason raw store)) := by
  unfold Replay.outcome replayPassedOn
  cases hfinds : r.finds surface raw store with
  | error raised =>
    show AllSaid _ _ _ (published store (.error _, store))
    rw [published_store]
    exact allSaid_of_subset (texts_finds hfinds hwording)
  | ok row =>
    rw [hfinds] at hhanded
    simp only
    cases (r.call row actor.adminId reason store).answer with
    | error exc =>
      simp only
      rw [published_store, replayCaught]
      split
      · exact allSaid_singleton (.passedOn (List.mem_singleton.mpr rfl))
      · exact allSaid_nil
    | ok replayed =>
      simp only
      unfold committing
      cases surface.db.commit with
      | some exc =>
        simp only
        rw [published_store]
        exact allSaid_nil
      | none =>
        show AllSaid _ _ _ (published store (_, ⟨_, store.ledger ++ _⟩))
        rw [published_append, answerTexts_rereading, List.nil_append]
        exact allSaid_of_subset hhanded

/-! ### What the surface says -/

theorem common_inputs (request : OperatorRequest) :
    Common actor reason (request.inputs surface actor reason store) := by
  have hsupplied : request.supplied actor reason ⊆ request.inputs surface actor reason store := by
    intro text ht
    simp [OperatorRequest.inputs, ht]
  simp only [OperatorRequest.supplied, List.cons_subset] at hsupplied
  refine ⟨?_, hsupplied.1, hsupplied.2.1, hsupplied.2.2.1⟩
  intro text ht
  simp [OperatorRequest.inputs, ht]

/-- **Where every text of an operation comes from**: it was given to it, or it is redacted, or it is
the text of an exception that is passed on. -/
theorem said_published (surface : Surface μ) (actor : OperatorIdentity) (reason : String)
    (request : OperatorRequest) (store : Store μ) :
    AllSaid surface.held (request.inputs surface actor reason store)
      (request.passedOn surface actor reason store)
      (published store ((request.perform surface actor reason).within store)) := by
  have hc := @common_inputs μ surface actor reason store request
  have hreferences : request.references surface store ⊆
      request.inputs surface actor reason store := by
    intro text ht
    simp [OperatorRequest.inputs, ht]
  have hwording : request.wording surface store ⊆ request.inputs surface actor reason store := by
    intro text ht
    simp [OperatorRequest.inputs, ht]
  have hhanded : request.handed surface actor reason store ⊆
      request.inputs surface actor reason store := by
    intro text ht
    simp [OperatorRequest.inputs, ht]
  cases request with
  | replay request =>
    show AllSaid _ _
      (replayPassedOn surface actor reason (request.replay surface) request.raw store)
      (published store (((request.replay surface).perform surface actor reason
        request.raw).within store))
    rw [within_replay]
    exact allSaid_replay hwording hhanded
  | authoring request =>
    show AllSaid _ _ _ (published store ((request.perform surface actor reason).within store))
    rw [within_perform, AuthoringRequest.plan]
    cases hscript : request.script surface actor reason with
    | inl a => exact allSaid_authored hc.fixed (sourced_script hc hwording hhanded hscript)
    | inr installationId =>
      obtain rfl := eq_enableInstallation hscript
      show AllSaid _ _ (enablePassedOn surface actor installationId store) _
      exact allSaid_enablePlan hc hreferences hwording hhanded

theorem refusedPassedOn_subset {left : ConnectorInstallation} {exc : Failure} {c : Call μ Unit} :
    refusedPassedOn surface exc ⊆ published store
      ((refusedPlan surface actor reason left exc (c.after store)).outcome surface store) := by
  unfold refusedPassedOn refusedPlan recorded
  split_ifs with hlifecycle hleak hmanifest
  · exact List.nil_subset _
  · exact List.nil_subset _
  · unfold Plan.outcome
    cases surface.db.evidence with
    | some failure => exact List.nil_subset _
    | none =>
      simp only
      rw [published_landed rfl]
      exact List.subset_append_left _ _
  · exact List.nil_subset _

theorem enablePassedOn_subset {installationId : String} :
    enablePassedOn surface actor installationId store ⊆ published store
      ((enablePlan surface actor reason installationId store).outcome surface store) := by
  unfold enablePlan enablePassedOn
  cases findRevision surface installationId store with
  | error raised => exact List.nil_subset _
  | ok found =>
    obtain ⟨installation, revision⟩ := found
    simp only
    cases hsecrets : resolveSecrets surface.held (secretRefs surface revision) with
    | error missing => exact List.nil_subset _
    | ok secrets =>
      rw [foundPlan_of_held hsecrets]
      unfold askedPlan askedPassedOn answeredPlan
      cases surface.integration.discover with
      | some exc => exact List.nil_subset _
      | none =>
        simp only
        cases (surface.integration.enable installation secrets actor.label store).2.answer with
        | error exc => exact refusedPassedOn_subset
        | ok _ => exact List.nil_subset _

theorem replayPassedOn_subset {r : Replay μ} {raw : String} :
    replayPassedOn surface actor reason r raw store ⊆
      published store (r.outcome surface actor reason raw store) := by
  unfold Replay.outcome replayPassedOn
  cases r.finds surface raw store with
  | error raised => exact List.nil_subset _
  | ok row =>
    simp only
    cases (r.call row actor.adminId reason store).answer with
    | error exc =>
      simp only
      rw [published_store, replayCaught]
      split
      · exact List.Subset.refl _
      · exact List.nil_subset _
    | ok replayed => exact List.nil_subset _

/-- **What is passed on is said.** -/
theorem passedOn_subset_published (request : OperatorRequest) :
    request.passedOn surface actor reason store ⊆
      published store ((request.perform surface actor reason).within store) := by
  cases request with
  | replay request =>
    show replayPassedOn surface actor reason (request.replay surface) request.raw store ⊆
      published store (((request.replay surface).perform surface actor reason
        request.raw).within store)
    rw [within_replay]
    exact replayPassedOn_subset
  | authoring request =>
    cases request with
    | enableInstallation installationId =>
      show enablePassedOn surface actor installationId store ⊆ published store
        ((AuthoringRequest.perform surface actor reason
          (.enableInstallation installationId)).within store)
      rw [within_perform]
      show _ ⊆ published store
        ((enablePlan surface actor reason installationId store).outcome surface store)
      exact enablePassedOn_subset
    | _ => exact List.nil_subset _

/-- The module refuses every enablement and every replay, and quotes the held material. -/
def echoing (family : Family) : Surface Unit :=
  surfaceOf "caller-key" { permissive with
    enable := fun installation _ _ _ =>
      (installation, ⟨(), [], .error ⟨[family], "rejected caller-key"⟩⟩)
    replayDelivery := fun _ _ _ _ => ⟨(), [], .error ⟨[family], "rejected caller-key"⟩⟩ }

theorem holds_echoing {family : Family} {value : String} (h : (echoing family).held.Holds value) :
    value = "caller-key" := by
  obtain ⟨reference, hr⟩ := h
  show value = "caller-key"
  have hget : Dict.get? [("env://INTEGRATOR_SECRET_ERP", "caller-key")] reference =
      some value := hr
  rw [Dict.get?_cons] at hget
  split_ifs at hget
  · exact (Option.some.inj hget).symm
  · cases hget

theorem redactable_callerKey : Redactable "caller-key" where
  length := by decide +kernel
  opening := by decide +kernel
  closing := by decide +kernel
  word := by decide +kernel

theorem clean_echoing_iff {family : Family} {texts : List String} :
    Clean (echoing family).held texts ↔ ∀ text ∈ texts, ¬ Occurs "caller-key" text := by
  constructor
  · exact fun h => h "caller-key" ⟨"env://INTEGRATOR_SECRET_ERP", rfl⟩
  · intro h value hvalue
    obtain rfl := holds_echoing hvalue
    exact h

theorem not_occurs_append {v a b c : String}
    (h : ¬ v.toList <:+: a.toList ++ b.toList ++ c.toList) : ¬ Occurs v (a ++ b ++ c) := by
  rw [Occurs, String.toList_append, String.toList_append]
  exact h

/-- The wording of the assembly does not quote the material. -/
theorem fixedWording_echoing : ∀ text ∈ fixedWording, ¬ Occurs "caller-key" text := by
  have hshort : ∀ text ∈ fixedWording.dropLast, ¬ Occurs "caller-key" text := by decide +kernel
  have hsplit : fixedWording = fixedWording.dropLast ++ [leakDetail] := rfl
  rw [hsplit, List.forall_mem_append, List.forall_mem_singleton]
  refine ⟨hshort, ?_⟩
  unfold leakDetail
  apply not_occurs_append
  decide +kernel

/-- Neither does the detail where material is missing. -/
theorem materialDetail_echoing {family : Family} :
    ¬ Occurs "caller-key" (materialDetail (echoing family) []) := by
  have hnone : PyRepr.strings (fun _ => true) (sortedValues []) = "[]" := by decide +kernel
  unfold materialDetail
  rw [show (echoing family).text.printable = fun _ => true from rfl, hnone]
  apply not_occurs_append
  decide +kernel

/-- An enablement that an operator asks for. -/
def enableEcho : OperatorRequest :=
  .authoring (.enableInstallation "00000000-0000-0000-0000-000000000001")

/-- A replay that an operator asks for. -/
def replayEcho : OperatorRequest :=
  .replay (.delivery "00000000-0000-0000-0000-000000000001")

/-- The module knows one installation. -/
theorem findRevision_echoing {family : Family} {raw : String} {store : Store Unit}
    {found : ConnectorInstallation × ConnectorConfigRevision}
    (h : findRevision (echoing family) raw store = .ok found) :
    found = (onlyInstallation, onlyRevision) := by
  obtain ⟨identifier, -, h⟩ := Except.bind_eq_ok.mp h
  obtain ⟨installation, hinstallation, h⟩ := Except.bind_eq_ok.mp h
  obtain rfl := get_eq_ok hinstallation
  exact (Except.ok.inj h).symm

/-- Nor does anything that the enablement is given. -/
theorem clean_enableEcho {family : Family} :
    Clean (echoing family).held
      (enableEcho.inputs (echoing family) someOperator "enable the connector" ⟨(), []⟩) := by
  have hrefs : secretRefs (echoing family) onlyRevision = [] := rfl
  have hlookup : ∀ text ∈ lookupWording (echoing .lifecycle) "installation_id" "no installation "
      "00000000-0000-0000-0000-000000000001", ¬ Occurs "caller-key" text := by
    decide +kernel
  rw [clean_echoing_iff, OperatorRequest.inputs]
  simp only [List.forall_mem_append]
  refine ⟨⟨⟨⟨by decide +kernel, ?_⟩, fixedWording_echoing⟩, ?_⟩, ?_⟩
  · simp only [enableEcho, OperatorRequest.references]
    cases hfound : findRevision (echoing family) _ _ with
    | error raised => exact List.forall_mem_nil _
    | ok found =>
      obtain rfl := findRevision_echoing hfound
      exact List.forall_mem_nil _
  · simp only [enableEcho, OperatorRequest.wording]
    refine List.forall_mem_append.mpr ⟨hlookup, ?_⟩
    cases hfound : findRevision (echoing family) _ _ with
    | error raised => exact List.forall_mem_nil _
    | ok found =>
      obtain rfl := findRevision_echoing hfound
      exact List.forall_mem_singleton.mpr materialDetail_echoing
  · simp only [enableEcho, OperatorRequest.handed, AuthoringRequest.handed]
    cases hfound : findRevision (echoing family) _ _ with
    | error raised => exact List.forall_mem_nil _
    | ok found =>
      obtain rfl := findRevision_echoing hfound
      show ∀ text ∈ onlyInstallation.texts ++ onlyRevision.texts ++ (onlyInstallation.texts ++ []),
        ¬ Occurs "caller-key" text
      decide +kernel

/-- Nor does anything that the replay is given. -/
theorem clean_replayEcho {family : Family} :
    Clean (echoing family).held
      (replayEcho.inputs (echoing family) someOperator "replay the delivery" ⟨(), []⟩) := by
  have hlookup : ∀ text ∈ lookupWording (echoing .lifecycle) "delivery_id"
      ("no " ++ "delivery" ++ " ") "00000000-0000-0000-0000-000000000001",
      ¬ Occurs "caller-key" text := by
    decide +kernel
  rw [clean_echoing_iff, OperatorRequest.inputs]
  simp only [List.forall_mem_append]
  refine ⟨⟨⟨⟨by decide +kernel, List.forall_mem_nil _⟩, fixedWording_echoing⟩, hlookup⟩, ?_⟩
  simp only [replayEcho, OperatorRequest.handed]
  cases hfound : ((ReplayRequest.delivery _).replay (echoing family)).finds
      (echoing family) _ _ with
  | error raised => exact List.forall_mem_nil _
  | ok found => exact List.forall_mem_nil _

/-- Its material may be redacted. -/
theorem redactable_echoing {family : Family} {value : String}
    (h : (echoing family).held.Holds value) : Redactable value := by
  obtain rfl := holds_echoing h
  exact redactable_callerKey

end DotmacIntegrator.Operations
