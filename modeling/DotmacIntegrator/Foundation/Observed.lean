import Mathlib.Data.List.Basic

/-!
# Observed programs

A program works on a state, may raise, and is seen to do some things on its way; what was seen stays
seen, whatever comes after. A program is guarded by a condition if, where the condition does not
hold, nothing is seen of it, the state stays, and its answer is a bare one.

## Main definitions

* `Observed`, `Observed.exec`: programs, and their runs
* `Observed.Quiet`: nothing is seen of a program, and the state stays
* `Observed.Guarded`: the guard of a program
* `Observed.Sees`: what is seen of a program, and what it comes to, from any state
* `Observed.Ends`: what is seen of a program, what it comes to and what it leaves, from one state
* `Observed.Keeps`: a program comes to an answer, and leaves its state
* `Observed.Alike`: two programs, on two states, come to the same answer
* `Callback`: a program that asks its caller for something, and goes on with what it is given

## Main results

* `exec_bind_quiet`, `exec_catching_raise`: what follows the last thing that is seen
* `Guarded.bind`, `Guarded.andThen`, `Guarded.catching`: how guards are composed
* `Guarded.holds`: what is seen, changed or said shows that the guard holds
* `Sees.bind`, `Sees.catching`, `Sees.closing`: what is seen of a program, part by part
* `Ends.bind`: what a program ends in, part by part
* `Alike.bind`, `Alike.catching`: how programs that answer alike are composed
-/

/-- The run of a program: what was seen, what it came to, and the state it left. -/
structure Observed.Run (ω σ ρ : Type) where
  seen : List ω
  answer : ρ
  left : σ

/-- A run, with something seen before it. -/
def Observed.Run.behind {ω σ ρ : Type} (r : Run ω σ ρ) (seen : List ω) : Run ω σ ρ :=
  { r with seen := seen ++ r.seen }

/-- Programs on a state that may raise. -/
def Observed (ω σ ε α : Type) := σ → Observed.Run ω σ (Except ε α)

/-- A program that asks for something, any number of times, and goes on with what it is given. -/
inductive Callback (ρ γ α : Type)
  | done (a : α)
  | ask (asked : ρ) (next : γ → Callback ρ γ α)

namespace Observed

variable {ω σ ε ε' ρ γ α β : Type}

theorem Run.eq_mk_of_answer {r : Run ω σ ρ} {answer : ρ} (h : r.answer = answer) :
    r = ⟨r.seen, answer, r.left⟩ := by
  obtain ⟨seen, found, left⟩ := r
  obtain rfl := h
  rfl

/-- The run of a program on a state. -/
def exec (t : Observed ω σ ε α) (s : σ) : Run ω σ (Except ε α) := t s

instance : Monad (Observed ω σ ε) where
  pure a := fun s => ⟨[], .ok a, s⟩
  bind t f := fun s =>
    match t s with
    | ⟨seen, .ok a, s'⟩ => (f a s').behind seen
    | ⟨seen, .error e, s'⟩ => ⟨seen, .error e, s'⟩

/-- `raise`. -/
def raise (e : ε) : Observed ω σ ε α := fun s => ⟨[], .error e, s⟩

/-- What may be raised. -/
def ofExcept (r : Except ε α) : Observed ω σ ε α := fun s => ⟨[], r, s⟩

/-- `try`: what is raised is handled in the state as it then stands. -/
def catching (t : Observed ω σ ε α) (handle : ε → Observed ω σ ε' α) : Observed ω σ ε' α :=
  fun s =>
    match t s with
    | ⟨seen, .ok a, s'⟩ => ⟨seen, .ok a, s'⟩
    | ⟨seen, .error e, s'⟩ => (handle e s').behind seen

/-- The state. -/
def peek : Observed ω σ ε σ := fun s => ⟨[], .ok s, s⟩

/-- Another state. -/
def put (s : σ) : Observed ω σ ε Unit := fun _ => ⟨[], .ok (), s⟩

/-- Be seen. -/
def emit (o : ω) : Observed ω σ ε Unit := fun s => ⟨[o], .ok (), s⟩

/-- A call of something outside, seen with what it came to. -/
def calling (call : σ → Except ε α × σ) (see : Except ε α → ω) : Observed ω σ ε α := fun s =>
  ⟨[see (call s).1], (call s).1, (call s).2⟩

/-- `with`: something is seen at the end, whatever the program comes to. -/
def closing (o : ω) (t : Observed ω σ ε α) : Observed ω σ ε α := fun s =>
  { t s with seen := (t s).seen ++ [o] }

/-- A part that is there where it is configured. -/
def optionally (configured : Bool) (t : Observed ω σ ε α) : Observed ω σ ε (Option α) :=
  if configured then do return some (← t) else pure none

/-- The run of a program that asks: every question is seen before it is answered. -/
def asking (see : ρ → ω) (give : ρ → γ) : Callback ρ γ α → Observed ω σ ε α
  | .done a => pure a
  | .ask asked next => do
    emit (see asked)
    asking see give (next (give asked))

/-- Nothing is seen of a program, the state stays, and it comes to an answer. -/
def Quiet (t : Observed ω σ ε α) (s : σ) (answer : Except ε α) : Prop :=
  t.exec s = ⟨[], answer, s⟩

/-- A program is guarded: the condition holds, or the program is quiet and its answer is bare. -/
def Guarded (φ : Prop) (Bare : Except ε α → Prop) (t : Observed ω σ ε α) (s : σ) : Prop :=
  φ ∨ ∃ answer, Bare answer ∧ t.Quiet s answer

variable {t : Observed ω σ ε α} {f : α → Observed ω σ ε β} {handle : ε → Observed ω σ ε' α}
  {s s' : σ}

/-! ### Quiet programs -/

theorem quiet_pure (a : α) : (pure a : Observed ω σ ε α).Quiet s (.ok a) := rfl

theorem quiet_raise (e : ε) : (raise e : Observed ω σ ε α).Quiet s (.error e) := rfl

theorem quiet_ofExcept (r : Except ε α) : (ofExcept r : Observed ω σ ε α).Quiet s r := rfl

theorem quiet_peek : (peek : Observed ω σ ε σ).Quiet s (.ok s) := rfl

/-- Behind a quiet part, a program is what follows. -/
theorem Quiet.exec_bind {a : α} (h : t.Quiet s (.ok a)) : (t >>= f).exec s = (f a).exec s := by
  have hrun : t s = ⟨[], .ok a, s⟩ := h
  simp only [exec, bind, hrun]
  rfl

theorem Quiet.bind {a : α} {answer : Except ε β} (h : t.Quiet s (.ok a))
    (hf : (f a).Quiet s answer) : (t >>= f).Quiet s answer :=
  h.exec_bind.trans hf

/-- A quiet part that raises ends a program. -/
theorem Quiet.bind_error {e : ε} (h : t.Quiet s (.error e)) : (t >>= f).Quiet s (.error e) := by
  have hrun : t s = ⟨[], .error e, s⟩ := h
  simp only [Quiet, exec, Bind.bind, hrun]

/-- What returns is not handled. -/
theorem Quiet.catching_ok {a : α} (h : t.Quiet s (.ok a)) :
    (t.catching handle).Quiet s (.ok a) := by
  have hrun : t s = ⟨[], .ok a, s⟩ := h
  simp only [Quiet, exec, catching, hrun]

/-- What raises is handled. -/
theorem Quiet.catching_error {e : ε} {answer : Except ε' α} (h : t.Quiet s (.error e))
    (hhandle : (handle e).Quiet s answer) : (t.catching handle).Quiet s answer := by
  have hrun : t s = ⟨[], .error e, s⟩ := h
  have hhandled : handle e s = ⟨[], answer, s⟩ := hhandle
  simp only [Quiet, exec, catching, hrun, hhandled]
  rfl

/-- Behind anything that leaves the state, quiet programs add what they come to. -/
theorem exec_bind_quiet {seen : List ω} {r : Except ε α} {g : α → Except ε β}
    (h : t.exec s = ⟨seen, r, s⟩) (hf : ∀ a, (f a).Quiet s (g a)) :
    (t >>= f).exec s = ⟨seen, r >>= g, s⟩ := by
  have hrun : t s = ⟨seen, r, s⟩ := h
  cases r with
  | error e => simp only [exec, Bind.bind, hrun, Except.bind]
  | ok a =>
    have hnext : f a s = ⟨[], g a, s⟩ := hf a
    simp only [exec, Bind.bind, hrun, hnext, Run.behind, List.append_nil, Except.bind]

/-- What is raised in place of an exception is raised in its place. -/
theorem exec_catching_raise {seen : List ω} {r : Except ε α} {g : ε → ε'}
    (h : t.exec s = ⟨seen, r, s⟩) :
    (t.catching fun e => raise (g e)).exec s = ⟨seen, r.mapError g, s⟩ := by
  have hrun : t s = ⟨seen, r, s⟩ := h
  cases r with
  | error e => simp only [exec, catching, hrun, raise, Run.behind, List.append_nil, Except.mapError]
  | ok a => simp only [exec, catching, hrun, Except.mapError]

/-! ### Guards -/

variable {φ : Prop} {Bare : Except ε α → Prop}

/-- A quiet program with a bare answer is guarded by anything. -/
theorem Quiet.guarded {answer : Except ε α} (h : t.Quiet s answer) (hbare : Bare answer) :
    t.Guarded φ Bare s :=
  .inr ⟨answer, hbare, h⟩

/-- A part that is quiet leaves a program with the guard of what follows. -/
theorem Guarded.bind {a : α} {Bare : Except ε β → Prop} (h : t.Quiet s (.ok a))
    (hf : (f a).Guarded φ Bare s) : (t >>= f).Guarded φ Bare s := by
  rcases hf with hφ | ⟨answer, hbare, hquiet⟩
  · exact .inl hφ
  · exact .inr ⟨answer, hbare, h.bind hquiet⟩

/-- A guarded part leaves a program with its guard, where what follows a bare answer has it. -/
theorem Guarded.andThen {Bare' : Except ε β → Prop} (h : t.Guarded φ Bare s)
    (hok : ∀ a, Bare (.ok a) → (f a).Guarded φ Bare' s)
    (herror : ∀ e, Bare (.error e) → Bare' (.error e)) : (t >>= f).Guarded φ Bare' s := by
  rcases h with hφ | ⟨answer, hbare, hquiet⟩
  · exact .inl hφ
  · cases answer with
    | ok a => exact Guarded.bind hquiet (hok a hbare)
    | error e => exact hquiet.bind_error.guarded (herror e hbare)

/-- A program that may raise first is guarded where what follows is. -/
theorem Guarded.bind_ofExcept {r : Except ε α} {Bare : Except ε β → Prop}
    (herror : ∀ e, r = .error e → Bare (.error e))
    (hf : ∀ a, r = .ok a → (f a).Guarded φ Bare s) :
    (ofExcept r >>= f : Observed ω σ ε β).Guarded φ Bare s := by
  cases r with
  | error e => exact (quiet_ofExcept (.error e)).bind_error.guarded (herror e rfl)
  | ok a => exact Guarded.bind (quiet_ofExcept (.ok a)) (hf a rfl)

/-- An exception that is handled barely keeps the guard. -/
theorem Guarded.catching {Bare' : Except ε' α → Prop} (h : t.Guarded φ Bare s)
    (hok : ∀ a, Bare (.ok a) → Bare' (.ok a))
    (herror : ∀ e, Bare (.error e) → (handle e).Guarded φ Bare' s) :
    (t.catching handle).Guarded φ Bare' s := by
  rcases h with hφ | ⟨answer, hbare, hquiet⟩
  · exact .inl hφ
  · cases answer with
    | ok a => exact hquiet.catching_ok.guarded (hok a hbare)
    | error e =>
      rcases herror e hbare with hφ | ⟨answer, hbare', hhandle⟩
      · exact .inl hφ
      · exact (hquiet.catching_error hhandle).guarded hbare'

/-- **What is seen, changed or said shows that the guard holds.** -/
theorem Guarded.holds (h : t.Guarded φ Bare s)
    (hacts : (t.exec s).seen ≠ [] ∨ (t.exec s).left ≠ s ∨ ¬ Bare (t.exec s).answer) : φ := by
  rcases h with hφ | ⟨answer, hbare, hquiet⟩
  · exact hφ
  · rw [hquiet] at hacts
    rcases hacts with hseen | hleft | hsaid
    · exact absurd rfl hseen
    · exact absurd rfl hleft
    · exact absurd hbare hsaid

/-! ### What is seen -/

/-- Whatever state a program starts from, what is seen of it and what it comes to meet `Q`. -/
def Sees (Q : List ω → Except ε α → Prop) (t : Observed ω σ ε α) : Prop :=
  ∀ s, Q (t.exec s).seen (t.exec s).answer

theorem Sees.mono {Q Q' : List ω → Except ε α → Prop} (h : t.Sees Q)
    (hQ : ∀ seen r, Q seen r → Q' seen r) : t.Sees Q' :=
  fun s => hQ _ _ (h s)

theorem sees_pure {Q : List ω → Except ε α → Prop} {a : α} (h : Q [] (.ok a)) :
    (pure a : Observed ω σ ε α).Sees Q :=
  fun _ => h

theorem sees_emit {Q : List ω → Except ε Unit → Prop} {o : ω} (h : Q [o] (.ok ())) :
    (emit o : Observed ω σ ε Unit).Sees Q :=
  fun _ => h

/-- A call may come to anything. -/
theorem sees_calling {Q : List ω → Except ε α → Prop} {call : σ → Except ε α × σ}
    {see : Except ε α → ω} (h : ∀ r, Q [see r] r) : (calling call see).Sees Q :=
  fun s => h (call s).1

theorem Sees.bind {Q : List ω → Except ε β → Prop}
    (h : t.Sees fun seen r =>
      (∀ a, r = .ok a → (f a).Sees fun seen' => Q (seen ++ seen')) ∧
        ∀ e, r = .error e → Q seen (.error e)) : (t >>= f).Sees Q := by
  intro s
  obtain ⟨hok, herror⟩ := h s
  rcases hrun : t s with ⟨seen, e | a, s'⟩
  · simp only [exec, hrun] at herror
    simpa only [exec, Bind.bind, hrun] using herror e rfl
  · simp only [exec, hrun] at hok
    simp only [exec, Bind.bind, hrun]
    exact hok a rfl s'

/-- Behind a call, which may come to anything. -/
theorem sees_calling_bind {Q : List ω → Except ε β → Prop} {call : σ → Except ε α × σ}
    {see : Except ε α → ω} (hok : ∀ a, (f a).Sees fun seen => Q (see (.ok a) :: seen))
    (herror : ∀ e, Q [see (.error e)] (.error e)) : (calling call see >>= f).Sees Q := by
  apply Sees.bind
  apply sees_calling
  intro r
  constructor
  · rintro a rfl
    exact hok a
  · rintro e rfl
    exact herror e

theorem Sees.catching {Q : List ω → Except ε' α → Prop}
    (h : t.Sees fun seen r => (∀ a, r = .ok a → Q seen (.ok a)) ∧
      ∀ e, r = .error e → (handle e).Sees fun seen' => Q (seen ++ seen')) :
    (t.catching handle).Sees Q := by
  intro s
  obtain ⟨hok, herror⟩ := h s
  rcases hrun : t s with ⟨seen, e | a, s'⟩
  · simp only [exec, hrun] at herror
    simp only [exec, Observed.catching, hrun]
    exact herror e rfl s'
  · simp only [exec, hrun] at hok
    simpa only [exec, Observed.catching, hrun] using hok a rfl

theorem Sees.closing {Q : List ω → Except ε α → Prop} {o : ω}
    (h : t.Sees fun seen => Q (seen ++ [o])) : (t.closing o).Sees Q :=
  h

/-! ### What a run ends in -/

/-- From the state, what is seen of a program, what it comes to and what it leaves meet `Q`. -/
def Ends (t : Observed ω σ ε α) (s : σ) (Q : List ω → Except ε α → σ → Prop) : Prop :=
  Q (t.exec s).seen (t.exec s).answer (t.exec s).left

theorem Ends.mono {Q Q' : List ω → Except ε α → σ → Prop} (h : t.Ends s Q)
    (hQ : ∀ seen r s', Q seen r s' → Q' seen r s') : t.Ends s Q' :=
  hQ _ _ _ h

theorem ends_pure {Q : List ω → Except ε α → σ → Prop} {a : α} (h : Q [] (.ok a) s) :
    (pure a : Observed ω σ ε α).Ends s Q :=
  h

theorem ends_raise {Q : List ω → Except ε α → σ → Prop} {e : ε} (h : Q [] (.error e) s) :
    (raise e : Observed ω σ ε α).Ends s Q :=
  h

theorem Ends.bind {Q : List ω → Except ε β → σ → Prop}
    (h : t.Ends s fun seen r s' =>
      (∀ a, r = .ok a → (f a).Ends s' fun seen' => Q (seen ++ seen')) ∧
        ∀ e, r = .error e → Q seen (.error e) s') : (t >>= f).Ends s Q := by
  obtain ⟨hok, herror⟩ := h
  rcases hrun : t s with ⟨seen, e | a, s'⟩
  · simp only [exec, hrun] at herror
    simpa only [Ends, exec, Bind.bind, hrun] using herror e rfl
  · simp only [exec, hrun] at hok
    simp only [Ends, exec, Bind.bind, hrun]
    exact hok a rfl

/-- Behind a part that may raise. -/
theorem ends_bind_ofExcept {r : Except ε α} {Q : List ω → Except ε β → σ → Prop}
    (hok : ∀ a, r = .ok a → (f a).Ends s Q) (herror : ∀ e, r = .error e → Q [] (.error e) s) :
    (ofExcept r >>= f).Ends s Q := by
  cases r with
  | error e => exact herror e rfl
  | ok a => exact hok a rfl

/-- Behind a part that is there where it is configured. -/
theorem ends_bind_optionally {configured : Bool} {f : Option α → Observed ω σ ε β}
    {Q : List ω → Except ε β → σ → Prop} (hnone : configured = false → (f none).Ends s Q)
    (hsome : configured = true → t.Ends s fun seen r s' =>
      (∀ a, r = .ok a → (f (some a)).Ends s' fun seen' => Q (seen ++ seen')) ∧
        ∀ e, r = .error e → Q seen (.error e) s') : (optionally configured t >>= f).Ends s Q := by
  cases configured with
  | false => exact hnone rfl
  | true =>
    apply Ends.bind
    apply Ends.bind
    refine (hsome rfl).mono fun seen r s' h => ⟨fun a ha => ?_, fun e he => ?_⟩
    · refine ends_pure ⟨?_, nofun⟩
      rintro _ ⟨⟩
      simpa only [List.append_nil] using h.1 a ha
    · exact ⟨nofun, fun e' he' => Except.error.inj he' ▸ h.2 e he⟩

/-- Behind a look at the state. -/
theorem ends_bind_peek {f : σ → Observed ω σ ε β} {Q : List ω → Except ε β → σ → Prop}
    (h : (f s).Ends s Q) : (peek >>= f).Ends s Q :=
  h

/-- Behind another state. -/
theorem ends_bind_put {f : Unit → Observed ω σ ε β} {Q : List ω → Except ε β → σ → Prop}
    (h : (f ()).Ends s' Q) : (put s' >>= f).Ends s Q :=
  h

/-- Behind what is seen. -/
theorem ends_bind_emit {o : ω} {f : Unit → Observed ω σ ε β}
    {Q : List ω → Except ε β → σ → Prop} (h : (f ()).Ends s fun seen => Q (o :: seen)) :
    (emit o >>= f).Ends s Q :=
  h

/-- A program comes to `r`, and leaves the state. -/
def Keeps (t : Observed ω σ ε α) (s : σ) (r : Except ε α) : Prop :=
  t.Ends s fun _ answer s' => answer = r ∧ s' = s

theorem Quiet.keeps {r : Except ε α} (h : t.Quiet s r) : t.Keeps s r := by
  rw [Keeps, Ends, show t.exec s = ⟨[], r, s⟩ from h]
  exact ⟨rfl, rfl⟩

theorem Keeps.bind {r : Except ε α} {g : α → Except ε β} (h : t.Keeps s r)
    (hf : ∀ a, r = .ok a → (f a).Keeps s (g a)) : (t >>= f).Keeps s (r >>= g) := by
  refine Ends.bind (h.mono fun seen answer s' => ?_)
  rintro ⟨rfl, rfl⟩
  refine ⟨?_, ?_⟩
  · rintro a rfl
    exact hf a rfl
  · rintro e rfl
    exact ⟨rfl, rfl⟩

/-- Behind a part that does not raise. -/
theorem Keeps.bind_ok {a : α} {r : Except ε β} (h : t.Keeps s (.ok a))
    (hf : (f a).Keeps s r) : (t >>= f).Keeps s r := by
  refine @Keeps.bind _ _ _ _ _ _ _ _ _ (fun _ => r) h fun a' ha => ?_
  rwa [← Except.ok.inj ha]

theorem keeps_ofExcept (r : Except ε α) : (ofExcept r : Observed ω σ ε α).Keeps s r :=
  (quiet_ofExcept r).keeps

/-- What is handled is answered by the handler. -/
theorem Keeps.catching_error {e : ε} {r : Except ε' α} (h : t.Keeps s (.error e))
    (hhandle : (handle e).Keeps s r) : (t.catching handle).Keeps s r := by
  obtain ⟨hanswer, hleft⟩ := h
  obtain ⟨hhandled, hkept⟩ := hhandle
  rcases hrun : t s with ⟨seen, e' | a, s'⟩
  · simp only [exec, hrun] at hanswer hleft
    obtain rfl := Except.error.inj hanswer
    subst hleft
    simp only [Keeps, Ends, exec, Observed.catching, hrun]
    exact ⟨hhandled, hkept⟩
  · simp only [exec, hrun] at hanswer
    cases hanswer

/-- What is not raised is not handled. -/
theorem Keeps.catching_ok {a : α} (h : t.Keeps s (.ok a)) :
    (t.catching handle).Keeps s (.ok a) := by
  obtain ⟨hanswer, hleft⟩ := h
  rcases hrun : t s with ⟨seen, e | a', s'⟩
  · simp only [exec, hrun] at hanswer
    cases hanswer
  · simp only [exec, hrun] at hanswer hleft
    simp only [Keeps, Ends, exec, Observed.catching, hrun]
    exact ⟨by rw [Except.ok.inj hanswer], hleft⟩

/-! ### Two runs -/

/-- Two programs, each on a state of its own, come to the same answer, and leave related states. -/
def Alike (P : σ → σ → Prop) (t t' : Observed ω σ ε α) (s s' : σ) : Prop :=
  (t.exec s).answer = (t'.exec s').answer ∧ P (t.exec s).left (t'.exec s').left

variable {P : σ → σ → Prop} {t' : Observed ω σ ε α} {f' : α → Observed ω σ ε β}
  {handle' : ε → Observed ω σ ε' α}

theorem Quiet.alike {answer : Except ε α} (h : t.Quiet s answer) (h' : t'.Quiet s' answer)
    (hP : P s s') : Alike P t t' s s' := by
  rw [Quiet] at h h'
  rw [Alike, h, h']
  exact ⟨rfl, hP⟩

theorem alike_pure (a : α) (hP : P s s') : Alike P (pure a : Observed ω σ ε α) (pure a) s s' :=
  (quiet_pure a).alike (quiet_pure a) hP

theorem alike_raise (e : ε) (hP : P s s') :
    Alike P (raise e : Observed ω σ ε α) (raise e) s s' :=
  (quiet_raise e).alike (quiet_raise e) hP

theorem alike_put {s₁ s₁' : σ} (hP : P s₁ s₁') :
    Alike P (put s₁ : Observed ω σ ε Unit) (put s₁') s s' :=
  ⟨rfl, hP⟩

theorem Alike.exists_run (h : Alike P t t' s s') : ∃ seen seen' answer s₁ s₁',
    t s = ⟨seen, answer, s₁⟩ ∧ t' s' = ⟨seen', answer, s₁'⟩ ∧ P s₁ s₁' := by
  obtain ⟨hanswer, hleft⟩ := h
  refine ⟨(t s).seen, (t' s').seen, (t s).answer, (t s).left, (t' s').left, rfl, ?_, hleft⟩
  rw [show (t s).answer = (t' s').answer from hanswer]

/-- Programs that go on alike behind parts that answer alike, from any related states. -/
theorem Alike.bind (h : Alike P t t' s s')
    (hf : ∀ a s₁ s₁', P s₁ s₁' → Alike P (f a) (f' a) s₁ s₁') :
    Alike P (t >>= f) (t' >>= f') s s' := by
  obtain ⟨seen, seen', answer, s₁, s₁', hrun, hrun', hleft⟩ := h.exists_run
  cases answer with
  | error e => simpa only [Alike, exec, Bind.bind, hrun, hrun', true_and] using hleft
  | ok a =>
    simp only [Alike, exec, Bind.bind, hrun, hrun']
    exact hf a s₁ s₁' hleft

/-- Behind a part that may raise. -/
theorem Alike.bind_ofExcept {r : Except ε α} (hP : P s s')
    (hf : ∀ a, r = .ok a → Alike P (f a) (f' a) s s') :
    Alike P (ofExcept r >>= f) (ofExcept r >>= f') s s' := by
  cases r with
  | error e =>
    exact (quiet_ofExcept (.error e)).bind_error.alike (quiet_ofExcept (.error e)).bind_error hP
  | ok a => exact hf a rfl

/-- Behind quiet parts. -/
theorem Alike.bind_quiet {a : α} (h : t.Quiet s (.ok a)) (h' : t'.Quiet s' (.ok a))
    (hf : Alike P (f a) (f' a) s s') : Alike P (t >>= f) (t' >>= f') s s' := by
  rw [Alike, h.exec_bind, h'.exec_bind]
  exact hf

/-- Behind a look at the states. -/
theorem Alike.bind_peek {f f' : σ → Observed ω σ ε β} (h : Alike P (f s) (f' s') s s') :
    Alike P (peek >>= f) (peek >>= f') s s' :=
  h

/-- Behind what is seen. -/
theorem Alike.bind_emit {o o' : ω} {f f' : Unit → Observed ω σ ε β}
    (h : Alike P (f ()) (f' ()) s s') : Alike P (emit o >>= f) (emit o' >>= f') s s' :=
  h

/-- Exceptions that are handled alike. -/
theorem Alike.catching (h : Alike P t t' s s')
    (hhandle : ∀ e s₁ s₁', P s₁ s₁' → Alike P (handle e) (handle' e) s₁ s₁') :
    Alike P (t.catching handle) (t'.catching handle') s s' := by
  obtain ⟨seen, seen', answer, s₁, s₁', hrun, hrun', hleft⟩ := h.exists_run
  cases answer with
  | error e =>
    simp only [Alike, exec, Observed.catching, hrun, hrun']
    exact hhandle e s₁ s₁' hleft
  | ok a => simpa only [Alike, exec, Observed.catching, hrun, hrun', true_and] using hleft

end Observed
