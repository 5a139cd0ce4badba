import DotmacIntegrator.Foundation.StepSystem
import Mathlib.Algebra.BigOperators.Group.List.Basic
import Mathlib.Algebra.GroupWithZero.Nat

/-!
# Processes that interleave

A process performs operations, and goes on with what each of them answers. Processes that share a
state interleave: a step is one operation of one of them, the start of another one, or a step of the
surroundings. What each process does, it does by itself; what all of them add to a measure of the
state is the sum of what each of them adds.

## Main definitions

* `Process`, `Process.Goes`: processes, and what is left of one behind a log
* `Process.Upholds`: a property of every log of a process, and of its result where it has one
* `Process.ComesTo`: what a process comes to where its operations are answered in a certain way
* `Process.Each`: a property of every item of a log, of what is before it and of what is after it
* `Thread`, `Threads`: running processes, each with its log, over one state
* `Threads.system`: how they interleave

## Main results

* `upholds_bind`: how a process is composed
* `Upholds.of_goes`: a process keeps what it upholds, wherever it stands
* `Threads.handled`: every operation in a log was performed on some state
* `Threads.happened`: and by its process, in a step of the run
* `Threads.measured`: a measure of the state is the sum of what each log weighs
* `Threads.linearised`: a part of the state is what the operations did to it one after the other
-/

/-- A process performs operations, and goes on with what each of them answers. -/
inductive Process (ω : Type) (answer : ω → Type) (α : Type)
  | done (a : α)
  | act (o : ω) (next : answer o → Process ω answer α)

namespace Process

variable {ω ω' : Type} {answer : ω → Type} {answer' : ω' → Type} {α β : Type}

/-- What was performed, with its answer. -/
abbrev Performed (answer : ω → Type) : Type := Σ o, answer o

/-- A process, and what follows it. -/
def bind : Process ω answer α → (α → Process ω answer β) → Process ω answer β
  | done a, f => f a
  | act o next, f => act o fun a => (next a).bind f

instance : Monad (Process ω answer) where
  pure := done
  bind := bind

/-- One operation. -/
def perform (o : ω) : Process ω answer (answer o) := act o done

/-- The same process, among more operations. -/
def among (f : (o : ω) → Process ω' answer' (answer o)) :
    Process ω answer α → Process ω' answer' α
  | done a => done a
  | act o next => f o >>= fun a => (next a).among f

/-- `try`: what is raised is handled. -/
def catching {ε ε' : Type} (x : ExceptT ε (Process ω answer) α)
    (handle : ε → ExceptT ε' (Process ω answer) α) : ExceptT ε' (Process ω answer) α :=
  ExceptT.mk (x.run >>= fun r =>
    match r with
    | .ok a => pure (.ok a)
    | .error e => (handle e).run)

/-- What a process comes to, if it is done. -/
def result : Process ω answer α → Option α
  | done a => some a
  | act _ _ => none

/-- What is left of a process behind a log. -/
inductive Goes : Process ω answer α → List (Performed answer) → Process ω answer α → Prop
  | here (p : Process ω answer α) : Goes p [] p
  | act {o : ω} {next : answer o → Process ω answer α} {a : answer o}
    {log : List (Performed answer)} {q : Process ω answer α} (h : Goes (next a) log q) :
    Goes (.act o next) (⟨o, a⟩ :: log) q

/-- Every log of a process meets `P`, with its result if the process is done. -/
def Upholds (P : List (Performed answer) → Option α → Prop) : Process ω answer α → Prop
  | done a => P [] (some a)
  | act o next => P [] none ∧ ∀ a, (next a).Upholds fun log => P (⟨o, a⟩ :: log)

variable {P Q : List (Performed answer) → Option α → Prop} {p q : Process ω answer α}
  {log : List (Performed answer)} {f : α → Process ω answer β}

/-! ### Logs -/

/-- A process goes on by one operation. -/
theorem Goes.snoc {o : ω} {next : answer o → Process ω answer α} (h : Goes p log (.act o next))
    (a : answer o) : Goes p (log ++ [⟨o, a⟩]) (next a) := by
  generalize hq : Process.act o next = q at h
  induction h with
  | here p =>
    subst hq
    exact .act (.here _)
  | act h ih => exact .act (ih hq)

theorem Goes.eq_of_nil (h : Goes p [] q) : q = p := by
  cases h
  rfl

/-- Behind an operation, a process goes on with its answer. -/
theorem Goes.of_act {o : ω} {next : answer o → Process ω answer α} (h : Goes (.act o next) log q) :
    log = [] ∨ ∃ a log', log = ⟨o, a⟩ :: log' ∧ Goes (next a) log' q := by
  cases h with
  | here => exact .inl rfl
  | act h => exact .inr ⟨_, _, rfl, h⟩

/-- What a process upholds holds of each of its logs. -/
theorem Upholds.of_goes (h : p.Upholds P) (hgoes : Goes p log q) : P log q.result := by
  induction hgoes generalizing P with
  | here p =>
    cases p with
    | done a => exact h
    | act o next => exact h.1
  | act _ ih => exact ih (h.2 _)

theorem Upholds.mono (h : p.Upholds P) (hPQ : ∀ log r, P log r → Q log r) : p.Upholds Q := by
  induction p generalizing P Q with
  | done a => exact hPQ _ _ h
  | act o next ih => exact ⟨hPQ _ _ h.1, fun a => ih a (h.2 a) fun log r => hPQ _ r⟩

/-- Every log of a process is gone through. -/
theorem upholds_goes (p : Process ω answer α) :
    p.Upholds fun log r => ∃ q, Goes p log q ∧ q.result = r := by
  induction p with
  | done a => exact ⟨_, .here _, rfl⟩
  | act o next ih =>
    refine ⟨⟨_, .here _, rfl⟩, fun a => (ih a).mono fun log r hlog => ?_⟩
    obtain ⟨q, hgoes, hresult⟩ := hlog
    exact ⟨q, .act hgoes, hresult⟩

theorem eq_done_of_result {a : α} (h : p.result = some a) : p = done a := by
  cases p with
  | done b => exact congrArg done (Option.some.inj h)
  | act o next => cases h

theorem upholds_true (p : Process ω answer α) : p.Upholds fun _ _ => True := by
  induction p with
  | done _ => trivial
  | act _ _ ih => exact ⟨trivial, ih⟩

instance : LawfulMonad (Process ω answer) := by
  refine LawfulMonad.mk' _ ?_ (fun _ _ => rfl) ?_
  · intro α p
    induction p with
    | done a => rfl
    | act o next ih => exact congrArg (act o) (funext ih)
  · intro α β γ p f g
    induction p with
    | done a => rfl
    | act o next ih => exact congrArg (act o) (funext ih)

/-- Behind a process, what follows goes on with its log. -/
theorem upholds_bind {R : List (Performed answer) → Option β → Prop}
    (h : p.Upholds fun log r => (r = none → R log none) ∧
      ∀ a, r = some a → (f a).Upholds fun log' => R (log ++ log')) : (p >>= f).Upholds R := by
  induction p generalizing R with
  | done a => exact h.2 a rfl
  | act o next ih => exact ⟨h.1.1 rfl, fun a => ih a (h.2 a)⟩

/-- One operation, and what follows it. -/
theorem upholds_perform_bind {R : List (Performed answer) → Option β → Prop} {o : ω}
    {f : answer o → Process ω answer β} (hnone : R [] none)
    (h : ∀ a, (f a).Upholds fun log => R (⟨o, a⟩ :: log)) : (perform o >>= f).Upholds R :=
  ⟨hnone, h⟩

/-- Behind a process that may raise. -/
theorem upholds_except_bind {ε : Type} {x : ExceptT ε (Process ω answer) α}
    {f : α → ExceptT ε (Process ω answer) β}
    {R : List (Performed answer) → Option (Except ε β) → Prop}
    (h : x.run.Upholds fun log r => (r = none → R log none) ∧
      (∀ e, r = some (.error e) → R log (some (.error e))) ∧
      ∀ a, r = some (.ok a) → (f a).run.Upholds fun log' => R (log ++ log')) :
    (x >>= f).run.Upholds R := by
  refine upholds_bind (h.mono fun log r hr => ⟨hr.1, ?_⟩)
  rintro (e | a) rfl
  · show R (log ++ []) (some (.error e))
    rw [List.append_nil]
    exact hr.2.1 e rfl
  · exact hr.2.2 a rfl

/-- Behind what was raised, and handled. -/
theorem upholds_catching {ε ε' : Type} {x : ExceptT ε (Process ω answer) α}
    {handle : ε → ExceptT ε' (Process ω answer) α}
    {R : List (Performed answer) → Option (Except ε' α) → Prop}
    (h : x.run.Upholds fun log r => (r = none → R log none) ∧
      (∀ a, r = some (.ok a) → R log (some (.ok a))) ∧
      ∀ e, r = some (.error e) → (handle e).run.Upholds fun log' => R (log ++ log')) :
    (catching x handle).run.Upholds R := by
  refine upholds_bind (h.mono fun log r hr => ⟨hr.1, ?_⟩)
  rintro (e | a) rfl
  · exact hr.2.2 e rfl
  · show R (log ++ []) (some (.ok a))
    rw [List.append_nil]
    exact hr.2.1 a rfl

/-- A property of the operations holds of a log if it does of its parts. -/
theorem upholds_forall_bind {P : Performed answer → Prop}
    (hp : p.Upholds fun log _ => ∀ x ∈ log, P x)
    (hf : ∀ a, (f a).Upholds fun log _ => ∀ x ∈ log, P x) :
    (p >>= f).Upholds fun log _ => ∀ x ∈ log, P x := by
  refine upholds_bind (hp.mono fun log r hlog => ⟨fun _ => hlog, fun a _ => ?_⟩)
  refine (hf a).mono fun log' _ hlog' => ?_
  rw [List.forall_mem_append]
  exact ⟨hlog, hlog'⟩

/-- And so it does of a process that may raise. -/
theorem upholds_forall_except_bind {ε : Type} {P : Performed answer → Prop}
    {x : ExceptT ε (Process ω answer) α} {f : α → ExceptT ε (Process ω answer) β}
    (hx : x.run.Upholds fun log _ => ∀ x ∈ log, P x)
    (hf : ∀ a, (f a).run.Upholds fun log _ => ∀ x ∈ log, P x) :
    (x >>= f).run.Upholds fun log _ => ∀ x ∈ log, P x := by
  refine upholds_forall_bind hx fun r => ?_
  cases r with
  | error e => exact List.forall_mem_nil _
  | ok a => exact hf a

/-- A property of the operations holds of the log of a process that only performs such. -/
theorem upholds_forall_among {P : Performed answer' → Prop}
    {f : (o : ω) → Process ω' answer' (answer o)}
    (h : ∀ o, (f o).Upholds fun log _ => ∀ x ∈ log, P x) (p : Process ω answer α) :
    (p.among f).Upholds fun log _ => ∀ x ∈ log, P x := by
  induction p with
  | done a => exact List.forall_mem_nil _
  | act o next ih => exact upholds_forall_bind (h o) ih

/-! ### Items of a log -/

section

variable {ι : Type} {E F : List ι → ι → List ι → Prop} {xs ys : List ι} {x : ι}

/-- A property of every item of a log, of what is before it and of what is after it. -/
def Each (E : List ι → ι → List ι → Prop) (xs : List ι) : Prop :=
  ∀ before x after, xs = before ++ x :: after → E before x after

theorem each_nil : Each E [] := by
  intro before x after h
  cases before <;> cases h

theorem each_cons :
    Each E (x :: xs) ↔ E [] x xs ∧ Each (fun before => E (x :: before)) xs := by
  constructor
  · intro h
    exact ⟨h [] x xs rfl, fun before y after hxs => h (x :: before) y after (by rw [hxs]; rfl)⟩
  · rintro ⟨hx, hxs⟩ before y after h
    cases before with
    | nil =>
      obtain ⟨rfl, rfl⟩ := List.cons.inj h
      exact hx
    | cons z before =>
      obtain ⟨rfl, hrest⟩ := List.cons.inj h
      exact hxs before y after hrest

theorem each_append : Each E (xs ++ ys) ↔
    Each (fun before x after => E before x (after ++ ys)) xs ∧
      Each (fun before => E (xs ++ before)) ys := by
  induction xs generalizing E with
  | nil => exact ⟨fun h => ⟨each_nil, h⟩, And.right⟩
  | cons x xs ih =>
    rw [List.cons_append, each_cons, each_cons, ih, and_assoc]
    rfl

theorem Each.imp (h : Each E xs) (hEF : ∀ before x after, x ∈ xs → E before x after →
    F before x after) : Each F xs := by
  rintro before x after rfl
  exact hEF before x after (by simp) (h before x after rfl)

/-- What holds of every item holds of it wherever it is. -/
theorem each_of_forall (h : ∀ x ∈ xs, ∀ before after, E before x after) : Each E xs := by
  rintro before x after rfl
  exact h x (by simp) before after

end

/-! ### Answers -/

/-- Where every operation is answered as `Told` says, a process comes to nothing but `a`. -/
def ComesTo (Told : Performed answer → Prop) (p : Process ω answer α) (a : α) : Prop :=
  p.Upholds fun log r => (∀ x ∈ log, Told x) → ∀ b, r = some b → b = a

variable {Told : Performed answer → Prop} {a : α} {b : β}

theorem comesTo_pure : (pure a : Process ω answer α).ComesTo Told a :=
  fun _ _ h => (Option.some.inj h).symm

/-- One operation, and what follows each answer that is told. -/
theorem comesTo_act {o : ω} {next : answer o → Process ω answer α}
    (h : ∀ given, Told ⟨o, given⟩ → (next given).ComesTo Told a) :
    (Process.act o next).ComesTo Told a := by
  refine ⟨fun _ _ => nofun, fun given => ?_⟩
  by_cases htold : Told ⟨o, given⟩
  · exact (h given htold).mono fun log r hlog hall =>
      hlog fun x hx => hall x (List.mem_cons_of_mem _ hx)
  · exact (upholds_true _).mono fun log _ _ hall => absurd (hall _ List.mem_cons_self) htold

theorem ComesTo.bind (h : p.ComesTo Told a) (hf : (f a).ComesTo Told b) :
    (p >>= f).ComesTo Told b := by
  refine upholds_bind (h.mono fun log r hlog => ⟨fun _ _ _ => nofun, fun found hfound => ?_⟩)
  by_cases htold : ∀ x ∈ log, Told x
  · obtain rfl := hlog htold found hfound
    exact hf.mono fun log' r' hlog' hall => hlog' fun x hx => hall x (List.mem_append_right log hx)
  · exact (upholds_true _).mono fun log' _ _ hall =>
      absurd (fun x hx => hall x (List.mem_append_left log' hx)) htold

/-- A process that may raise, and what follows it. -/
theorem ComesTo.except_bind {ε : Type} {x : ExceptT ε (Process ω answer) α}
    {f : α → ExceptT ε (Process ω answer) β} {r : Except ε α} {g : α → Except ε β}
    (h : x.run.ComesTo Told r) (hf : ∀ a, r = .ok a → (f a).run.ComesTo Told (g a)) :
    (x >>= f).run.ComesTo Told (r >>= g) := by
  refine h.bind ?_
  cases r with
  | error e => exact comesTo_pure
  | ok a => exact hf a rfl

/-- What is handled is answered by the handler. -/
theorem ComesTo.catching_error {ε ε' : Type} {x : ExceptT ε (Process ω answer) α} {e : ε}
    {handle : ε → ExceptT ε' (Process ω answer) α} {r : Except ε' α}
    (h : x.run.ComesTo Told (.error e)) (hhandle : (handle e).run.ComesTo Told r) :
    (catching x handle).run.ComesTo Told r :=
  h.bind hhandle

/-- What is not raised is not handled. -/
theorem ComesTo.catching_ok {ε ε' : Type} {x : ExceptT ε (Process ω answer) α}
    {handle : ε → ExceptT ε' (Process ω answer) α} (h : x.run.ComesTo Told (.ok a)) :
    (catching x handle).run.ComesTo Told (.ok a) :=
  h.bind comesTo_pure

/-- A loop, step by step. -/
theorem comesTo_foldlM {ε ι : Type} {f : α → ι → ExceptT ε (Process ω answer) α}
    {g : α → ι → Except ε α} (h : ∀ a x, (f a x).run.ComesTo Told (g a x)) (xs : List ι) (a : α) :
    (xs.foldlM f a).run.ComesTo Told (xs.foldlM g a) := by
  induction xs generalizing a with
  | nil => exact comesTo_pure
  | cons x xs ih =>
    rw [List.foldlM_cons, List.foldlM_cons]
    exact (h a x).except_bind fun a _ => ih a

/-- A process that only performs such, of which each comes to what `Answered` says. -/
theorem ComesTo.among {Told : Performed answer' → Prop} {Answered : Performed answer → Prop}
    {env : (o : ω) → answer o} {g : (o : ω) → Process ω' answer' (answer o)}
    (hg : ∀ o, (g o).ComesTo Told (env o)) (hanswered : ∀ o, Answered ⟨o, env o⟩)
    (h : p.ComesTo Answered a) : (p.among g).ComesTo Told a := by
  induction p with
  | done found =>
    obtain rfl := h (List.forall_mem_nil _) found rfl
    exact comesTo_pure
  | act o next ih =>
    refine (hg o).bind (ih (env o) ?_)
    exact (h.2 (env o)).mono fun log r hlog hall =>
      hlog (List.forall_mem_cons.mpr ⟨hanswered o, hall⟩)

end Process

/-! ### Interleaving -/

open Process (Performed Goes)

/-- A process that runs: its program, what it has performed, and what is left of it. -/
structure Thread (ω : Type) (answer : ω → Type) (α : Type) where
  program : Process ω answer α
  log : List (Performed answer)
  now : Process ω answer α
  goes : Goes program log now

/-- Processes that run over one state. -/
structure Threads (σ ω : Type) (answer : ω → Type) (α : Type) where
  state : σ
  threads : List (Thread ω answer α)

variable {σ ω : Type} {answer : ω → Type} {α : Type}

namespace Thread

/-- A process that was started. -/
def start (p : Process ω answer α) : Thread ω answer α := ⟨p, [], p, .here p⟩

/-- A process behind one more operation. -/
def behind (t : Thread ω answer α) {o : ω} {next : answer o → Process ω answer α}
    (h : t.now = .act o next) (a : answer o) : Thread ω answer α where
  program := t.program
  log := t.log ++ [⟨o, a⟩]
  now := next a
  goes := Goes.snoc (h ▸ t.goes) a

/-- What the log of a process weighs. -/
def weight (w : Performed answer → ℕ) (t : Thread ω answer α) : ℕ := (t.log.map w).sum

end Thread

namespace Threads

/-- What is given of processes that interleave: which may be started, what an operation answers and
does to the state, and what the surroundings do to it. -/
structure Rules (σ ω : Type) (answer : ω → Type) (α : Type) where
  starts : Process ω answer α → Prop
  handles : (o : ω) → σ → answer o → σ → Prop
  surroundings : σ → σ → Prop

variable (rules : Rules σ ω answer α)

/-- What happens: a process is started, one of them performs an operation, or the surroundings
act. -/
inductive Event
  | start
  | act
  | surroundings
  deriving DecidableEq, Repr

/-- One step. -/
inductive Step : Threads σ ω answer α → Event → Threads σ ω answer α → Prop
  | start {c : Threads σ ω answer α} {p : Process ω answer α} (h : rules.starts p) :
    Step c .start { c with threads := c.threads ++ [.start p] }
  | act {s s' : σ} {before after : List (Thread ω answer α)} {t : Thread ω answer α} {o : ω}
    {next : answer o → Process ω answer α} {a : answer o} (hnow : t.now = .act o next)
    (h : rules.handles o s a s') :
    Step ⟨s, before ++ t :: after⟩ .act ⟨s', before ++ t.behind hnow a :: after⟩
  | surroundings {c : Threads σ ω answer α} {s' : σ} (h : rules.surroundings c.state s') :
    Step c .surroundings { c with state := s' }

/-- Processes that interleave, from a state in which none has been started. -/
def system (init : σ → Prop) : StepSystem (Threads σ ω answer α) Event where
  init c := init c.state ∧ c.threads = []
  step := Step rules

/-- Operations that are performed one after the other. -/
inductive Handles : σ → List (Performed answer) → σ → Prop
  | nil (s : σ) : Handles s [] s
  | cons {s s₁ s' : σ} {o : ω} {a : answer o} {log : List (Performed answer)}
    (h : rules.handles o s a s₁) (hrest : Handles s₁ log s') : Handles s (⟨o, a⟩ :: log) s'

variable {rules} {init : σ → Prop} {c : Threads σ ω answer α}

/-- A process that runs alone performs what is left of its log. -/
theorem leads_alone {p now q : Process ω answer α} {before log : List (Performed answer)}
    {s s' : σ} (hnow : Goes p before now) (hrest : Goes now log q) (h : Handles rules s log s')
    (hgoes : Goes p (before ++ log) q) :
    (system rules init).Leads ⟨s, [⟨p, before, now, hnow⟩]⟩
      ⟨s', [⟨p, before ++ log, q, hgoes⟩]⟩ := by
  -- The induction is on what is performed, and what is left of the process goes along with it.
  induction h generalizing before now with
  | nil s =>
    obtain rfl := hrest.eq_of_nil
    simp only [List.append_nil]
    exact .refl _
  | @cons s s₁ s' o a log h _ ih =>
    cases hrest with
    | @act _ next _ _ _ hrest =>
      have hstep : (system rules init).step ⟨s, [⟨p, before, .act o next, hnow⟩]⟩ .act
          ⟨s₁, [Thread.behind ⟨p, before, .act o next, hnow⟩ rfl a]⟩ :=
        @Step.act _ _ _ _ rules s s₁ [] [] _ o next a rfl h
      have hrun := ih (hnow.snoc a) hrest (by rwa [List.append_assoc])
      simp only [List.append_assoc, List.singleton_append] at hrun
      exact (StepSystem.Leads.single hstep).trans hrun

/-- A process that is started, and runs alone. -/
theorem reachable_alone {t : Thread ω answer α} {s s' : σ} (hinit : init s)
    (hstart : rules.starts t.program) (hhandles : Handles rules s t.log s') :
    (system rules init).Reachable ⟨s', [t]⟩ := by
  refine ⟨⟨s, []⟩, ⟨hinit, rfl⟩, ?_⟩
  exact (StepSystem.Leads.single (a := .start) (Step.start hstart)).trans
    (leads_alone (.here t.program) t.goes hhandles t.goes)

/-- What survives every step of a process holds of every process. -/
theorem forall_threads {P : Thread ω answer α → Prop}
    (hstart : ∀ p, rules.starts p → P (.start p))
    (hact : ∀ (t : Thread ω answer α) (o : ω) (next : answer o → Process ω answer α)
      (a : answer o) (s s' : σ) (hnow : t.now = .act o next), P t → rules.handles o s a s' →
        P (t.behind hnow a))
    (h : (system rules init).Reachable c) : ∀ t ∈ c.threads, P t := by
  refine StepSystem.IsInductive.reachable (I := fun c => ∀ t ∈ c.threads, P t) ⟨?_, ?_⟩ h
  · rintro c ⟨-, hnil⟩ t ht
    rw [hnil] at ht
    cases ht
  · intro c e c' hc hstep
    cases hstep with
    | start hp =>
      rw [List.forall_mem_append, List.forall_mem_singleton]
      exact ⟨hc, hstart _ hp⟩
    | @act s s' before after t o next a hnow hhandles =>
      -- One process moves; those before it and behind it are left as they are.
      simp only [List.forall_mem_append, List.forall_mem_cons] at hc ⊢
      exact ⟨hc.1, hact t o next a s s' hnow hc.2.1 hhandles, hc.2.2⟩
    | surroundings _ => exact hc

/-- Every process was started. -/
theorem starts_program (h : (system rules init).Reachable c) :
    ∀ t ∈ c.threads, rules.starts t.program :=
  forall_threads (P := fun t => rules.starts t.program) (fun _ hp => hp)
    (fun _ _ _ _ _ _ _ ht _ => ht) h

/-- Every operation in a log was performed on some state, of which `I` held. -/
theorem handled {I : σ → Prop} (hinit : ∀ s, init s → I s)
    (hhandles : ∀ o s a s', I s → rules.handles o s a s' → I s')
    (hsurroundings : ∀ s s', I s → rules.surroundings s s' → I s')
    (h : (system rules init).Reachable c) :
    ∀ t ∈ c.threads, ∀ x ∈ t.log, ∃ s s', I s ∧ rules.handles x.1 s x.2 s' := by
  refine (StepSystem.IsInductive.reachable (I := fun c => I c.state ∧
    ∀ t ∈ c.threads, ∀ x ∈ t.log, ∃ s s', I s ∧ rules.handles x.1 s x.2 s') ⟨?_, ?_⟩ h).2
  · rintro c ⟨hc, hnil⟩
    refine ⟨hinit _ hc, fun t ht => ?_⟩
    rw [hnil] at ht
    cases ht
  · rintro c e c' ⟨hI, hc⟩ hstep
    cases hstep with
    | start _ =>
      refine ⟨hI, ?_⟩
      rw [List.forall_mem_append, List.forall_mem_singleton]
      exact ⟨hc, nofun⟩
    | @act s s' before after t o next a hnow hh =>
      refine ⟨hhandles _ _ _ _ hI hh, ?_⟩
      simp only [List.forall_mem_append, List.forall_mem_cons] at hc ⊢
      refine ⟨hc.1, ?_, hc.2.2⟩
      show ∀ x ∈ t.log ++ [⟨o, a⟩], _
      rw [List.forall_mem_append, List.forall_mem_singleton]
      exact ⟨hc.2.1, s, s', hI, hh⟩
    | surroundings hs => exact ⟨hsurroundings _ _ hI hs, hc⟩

/-- A step in which the process at place `i`, which was started as `p`, performs `x` behind what it
had performed. -/
structure Performs (rules : Rules σ ω answer α) (i : ℕ) (p : Process ω answer α)
    (before : List (Performed answer)) (x : Performed answer) (c c' : Threads σ ω answer α) :
    Prop where
  step : Step rules c .act c'
  handles : rules.handles x.1 c.state x.2 c'.state
  stood : ∃ t, c.threads[i]? = some t ∧ t.program = p ∧ t.log = before
  stands : ∃ t, c'.threads[i]? = some t ∧ t.program = p ∧ t.log = before ++ [x]

/-- Every operation of a process was performed by it in a step of its own of the run, in the order
of its log. -/
def Happened (rules : Rules σ ω answer α) (steps : List (Threads σ ω answer α × Event))
    (c : Threads σ ω answer α) (t : Thread ω answer α) : Prop :=
  ∀ i, c.threads[i]? = some t → Process.Each (fun before x _ =>
    ∃ c₁ c₂, StepSystem.Moment steps c c₁ .act c₂ ∧ Performs rules i t.program before x c₁ c₂) t.log

variable {steps : List (Threads σ ω answer α × Event)}

/-- What had happened by a moment of the run has happened by the next one. -/
theorem Happened.snoc {c' : Threads σ ω answer α} {e : Event} {t : Thread ω answer α} {i : ℕ}
    (h : Happened rules steps c t) (hi : c.threads[i]? = some t) :
    Process.Each (fun before x _ => ∃ c₁ c₂, StepSystem.Moment (steps ++ [(c, e)]) c' c₁ .act c₂ ∧
      Performs rules i t.program before x c₁ c₂) t.log := by
  refine (h i hi).imp fun before x after _ hx => ?_
  obtain ⟨c₁, c₂, hmoment, hperforms⟩ := hx
  exact ⟨c₁, c₂, hmoment.snoc, hperforms⟩

/-- **Every operation in a log was performed at a moment of the run**, in a step of its process. -/
theorem happened (h : (system rules init).Run steps c) (t : Thread ω answer α) :
    Happened rules steps c t := by
  induction h generalizing t with
  | init hinit =>
    intro i hi
    rw [hinit.2] at hi
    cases hi
  | @snoc steps c c' e hrun hstep ih =>
    intro i hi
    cases hstep with
    | @start c p hp =>
      rcases Nat.lt_or_ge i c.threads.length with hlt | hge
      · have hold : c.threads[i]? = some t := by
          rwa [List.getElem?_append_left hlt] at hi
        exact (ih t).snoc hold
      · -- The process that was started has performed nothing.
        rw [List.getElem?_append_right hge, List.getElem?_singleton] at hi
        split at hi
        · obtain rfl := Option.some.inj hi
          exact Process.each_nil
        · cases hi
    | @act s s' before after t₀ o next a hnow hh =>
      rcases Nat.lt_trichotomy i before.length with hlt | rfl | hgt
      · have hold : (before ++ t₀ :: after)[i]? = some t := by
          rwa [List.getElem?_append_left hlt] at hi ⊢
        exact (ih t).snoc hold
      · have hold : (before ++ t₀ :: after)[before.length]? = some t₀ := by simp
        obtain rfl : t₀.behind hnow a = t := by simpa using hi
        show Process.Each _ (t₀.log ++ [⟨o, a⟩])
        -- The operation that is new was performed in this very step.
        refine Process.each_append.mpr ⟨(ih t₀).snoc hold, ?_⟩
        refine Process.each_cons.mpr ⟨?_, Process.each_nil⟩
        refine ⟨_, _, StepSystem.moment_last _ _ _ _, .act hnow hh, hh, ⟨t₀, hold, rfl, ?_⟩,
          ⟨_, hi, rfl, ?_⟩⟩ <;> simp [Thread.behind]
      · have hold : (before ++ t₀ :: after)[i]? = some t := by
          rw [List.getElem?_append_right (Nat.le_of_lt hgt)] at hi ⊢
          obtain ⟨k, hk⟩ : ∃ k, i - before.length = k + 1 := ⟨i - before.length - 1, by omega⟩
          rw [hk, List.getElem?_cons_succ] at hi ⊢
          exact hi
        exact (ih t).snoc hold
    | surroundings hs => exact (ih t).snoc hi

/-- **A measure of the state is the sum of what each log weighs**: it starts at nothing, an
operation adds what it weighs, and the surroundings add nothing. -/
theorem measured {I : σ → Prop} {m : σ → ℕ} {w : Performed answer → ℕ}
    (hinit : ∀ s, init s → I s ∧ m s = 0)
    (hhandles : ∀ o s a s', I s → rules.handles o s a s' → I s' ∧ m s' = m s + w ⟨o, a⟩)
    (hsurroundings : ∀ s s', I s → rules.surroundings s s' → I s' ∧ m s' = m s)
    (h : (system rules init).Reachable c) :
    m c.state = (c.threads.map (Thread.weight w)).sum := by
  refine (StepSystem.IsInductive.reachable
    (I := fun c => I c.state ∧ m c.state = (c.threads.map (Thread.weight w)).sum)
    ⟨?_, ?_⟩ h).2
  · rintro c ⟨hc, hnil⟩
    rw [hnil]
    exact hinit _ hc
  · rintro c e c' ⟨hI, hm⟩ hstep
    cases hstep with
    | start _ =>
      refine ⟨hI, ?_⟩
      rw [List.map_append, List.sum_append, ← hm]
      rfl
    | @act s s' before after t o next a hnow hh =>
      obtain ⟨hI', hm'⟩ := hhandles o s a s' hI hh
      refine ⟨hI', ?_⟩
      -- Only the process that moved weighs more, and more by this operation.
      have hweight : (t.behind hnow a).weight w = t.weight w + w ⟨o, a⟩ := by
        simp [Thread.weight, Thread.behind]
      simp only [List.map_append, List.map_cons, List.sum_append, List.sum_cons] at hm ⊢
      rw [hm', hm, hweight]
      omega
    | surroundings hs =>
      obtain ⟨hI', hm'⟩ := hsurroundings _ _ hI hs
      exact ⟨hI', hm'.trans hm⟩

/-- **A part of the state is what the operations did to it one after the other**: `d` is done to
that part, by an operation once for every item of `w`, and by the surroundings never. -/
theorem linearised {τ ι : Type} {I : σ → Prop} (part : σ → τ) (start : τ) (d : τ → ι → τ)
    (w : Performed answer → List ι) (hinit : ∀ s, init s → I s ∧ part s = start)
    (hhandles : ∀ o s a s', I s → rules.handles o s a s' →
      I s' ∧ part s' = (w ⟨o, a⟩).foldl d (part s))
    (hsurroundings : ∀ s s', I s → rules.surroundings s s' → I s' ∧ part s' = part s)
    (h : (system rules init).Reachable c) : ∃ history : List ι,
      history.Perm (c.threads.flatMap fun t => t.log.flatMap w) ∧
        part c.state = history.foldl d start := by
  refine (StepSystem.IsInductive.reachable (I := fun c => I c.state ∧ ∃ history : List ι,
    history.Perm (c.threads.flatMap fun t => t.log.flatMap w) ∧
      part c.state = history.foldl d start) ⟨?_, ?_⟩ h).2
  · rintro c ⟨hc, hnil⟩
    refine ⟨(hinit _ hc).1, [], ?_, (hinit _ hc).2⟩
    rw [hnil]
    exact .refl _
  · rintro c e c' ⟨hI, history, hperm, hpart⟩ hstep
    cases hstep with
    | start _ =>
      refine ⟨hI, history, ?_, hpart⟩
      rw [List.flatMap_append]
      exact hperm.trans (.of_eq (List.append_nil _).symm)
    | @act s s' before after t o next a hnow hh =>
      obtain ⟨hI', hpart'⟩ := hhandles o s a s' hI hh
      refine ⟨hI', history ++ w ⟨o, a⟩, ?_, ?_⟩
      · have hlog : ((t.behind hnow a).log.flatMap w) = t.log.flatMap w ++ w ⟨o, a⟩ := by
          simp [Thread.behind]
        simp only [List.flatMap_append, List.flatMap_cons] at hperm ⊢
        rw [hlog]
        -- what the thread did last is moved behind what the later threads did
        refine (hperm.append_right _).trans ?_
        simp only [List.append_assoc]
        refine .append_left _ (.append_left _ ?_)
        exact List.perm_append_comm
      · rw [hpart', List.foldl_append]
        exact congrArg (fun x => (w ⟨o, a⟩).foldl d x) hpart
    | surroundings hs =>
      obtain ⟨hI', hpart'⟩ := hsurroundings _ _ hI hs
      exact ⟨hI', history, hperm, hpart'.trans hpart⟩

end Threads
