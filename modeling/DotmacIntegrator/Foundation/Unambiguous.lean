import Mathlib.Data.List.Basic

/-!
# Texts that are told apart

A text is told apart from the others a writer makes when, with anything that may follow it behind
it, it is the text of one value only and its end is determined. Writers are composed from others:
one behind another, behind a fixed symbol, or over the items of a list with a separator in front of
each and a closing symbol behind them.

## Main definitions

* `ToldApart`: the text of a value is told apart
* `writeSeparated`, `writeBracketed`: the writers of lists

## Main results

* `append_inj_of_free`: a text is determined up to the first of some symbols
* `ToldApart.cons`, `ToldApart.prod`, `ToldApart.bracketed`: composed writers
-/

variable {τ α β : Type*}

/-- In front of rests that meet `R`, the text of `a` is that of no other value that meets `A`, and
its end is determined. -/
def ToldApart (w : α → List τ) (A : α → Prop) (R : List τ → Prop) (a : α) : Prop :=
  ∀ b rest rest', A b → R rest → R rest' → w a ++ rest = w b ++ rest' → a = b ∧ rest = rest'

/-- The items, each behind a separator, and a closing symbol. -/
def writeSeparated (sep close : τ) (w : α → List τ) : List α → List τ
  | [] => [close]
  | x :: xs => sep :: (w x ++ writeSeparated sep close w xs)

/-- The items in brackets, with a separator in front of each but the first. -/
def writeBracketed (opening sep close : τ) (w : α → List τ) : List α → List τ
  | [] => [opening, close]
  | x :: xs => opening :: (w x ++ writeSeparated sep close w xs)

/-- Texts free of some symbols are determined in front of rests that start with one. -/
theorem append_inj_of_free {p : τ → Prop} {xs ys rest rest' : List τ} (hx : ∀ c ∈ xs, ¬ p c)
    (hy : ∀ c ∈ ys, ¬ p c) (hrest : ∀ c ∈ rest.head?, p c) (hrest' : ∀ c ∈ rest'.head?, p c)
    (h : xs ++ rest = ys ++ rest') : xs = ys ∧ rest = rest' := by
  induction xs generalizing ys with
  | nil =>
    cases ys with
    | nil => exact ⟨rfl, h⟩
    | cons c ys =>
      have hc : c ∈ rest.head? := by rw [show rest = c :: (ys ++ rest') from h]; rfl
      exact absurd (hrest c hc) (hy c List.mem_cons_self)
  | cons c xs ih =>
    cases ys with
    | nil =>
      have hc : c ∈ rest'.head? := by rw [show rest' = c :: (xs ++ rest) from h.symm]; rfl
      exact absurd (hrest' c hc) (hx c List.mem_cons_self)
    | cons d ys =>
      obtain ⟨rfl, htail⟩ := List.cons.inj h
      obtain ⟨rfl, hend⟩ := ih (fun e he => hx e (List.mem_cons_of_mem c he))
        (fun e he => hy e (List.mem_cons_of_mem c he)) htail
      exact ⟨rfl, hend⟩

namespace ToldApart

variable {w : α → List τ} {v : β → List τ} {A : α → Prop} {B : β → Prop} {R S : List τ → Prop}
  {a a' : α} {b : β}

/-- Where a text may stand alone, it is that of one value. -/
theorem eq_of_eq (h : ToldApart w A R a) (hR : R []) (ha' : A a') (heq : w a = w a') : a = a' :=
  (h a' [] [] ha' hR hR (by rw [heq])).1

/-- Behind a fixed symbol. -/
theorem cons (c : τ) (h : ToldApart w A R a) : ToldApart (fun x => c :: w x) A R a := by
  intro x rest rest' hx hrest hrest' heq
  exact h x rest rest' hx hrest hrest' (List.cons.inj heq).2

/-- One text behind another, which may be followed by it. -/
theorem prod (hw : ToldApart w A S a) (hv : ToldApart v B R b) (hS : ∀ y rest, S (v y ++ rest)) :
    ToldApart (fun p : α × β => w p.1 ++ v p.2) (fun p => A p.1 ∧ B p.2) R (a, b) := by
  rintro ⟨x, y⟩ rest rest' ⟨hx, hy⟩ hrest hrest' heq
  simp only [List.append_assoc] at heq
  obtain ⟨rfl, htail⟩ := hw x _ _ hx (hS b rest) (hS y rest') heq
  obtain ⟨rfl, hend⟩ := hv y rest rest' hy hrest hrest' htail
  exact ⟨rfl, hend⟩

/-- The items of a list are determined up to the closing symbol, when each of them is in front of a
separator or that symbol. -/
theorem separated {sep close : τ} (hne : sep ≠ close)
    (hR : ∀ c rest, c = sep ∨ c = close → R (c :: rest)) {xs : List α}
    (h : ∀ x ∈ xs, ToldApart w A R x) :
    ToldApart (writeSeparated sep close w) (fun ys => ∀ y ∈ ys, A y) (fun _ => True) xs := by
  -- What follows an item starts with a separator or the closing symbol.
  have hnext : ∀ ys rest, R (writeSeparated sep close w ys ++ rest) := by
    intro ys rest
    cases ys with
    | nil => exact hR close rest (Or.inr rfl)
    | cons y ys => exact hR sep _ (Or.inl rfl)
  induction xs with
  | nil =>
    intro ys rest rest' _ _ _ heq
    cases ys with
    | nil => exact ⟨rfl, (List.cons.inj heq).2⟩
    | cons y ys => exact absurd (List.cons.inj heq).1.symm hne
  | cons x xs ih =>
    intro ys rest rest' hys _ _ heq
    cases ys with
    | nil => exact absurd (List.cons.inj heq).1 hne
    | cons y ys =>
      rw [writeSeparated, writeSeparated, List.cons_append, List.cons_append, List.append_assoc,
        List.append_assoc] at heq
      obtain ⟨rfl, hitems⟩ := h x List.mem_cons_self y _ _ (hys y List.mem_cons_self)
        (hnext xs rest) (hnext ys rest') (List.cons.inj heq).2
      obtain ⟨rfl, hend⟩ := ih (fun z hz => h z (List.mem_cons_of_mem x hz)) ys rest rest'
        (fun z hz => hys z (List.mem_cons_of_mem x hz)) trivial trivial hitems
      exact ⟨rfl, hend⟩

/-- A list in brackets is determined, when none of its items starts with the closing one. -/
theorem bracketed {opening sep close : τ} (hne : sep ≠ close)
    (hR : ∀ c rest, c = sep ∨ c = close → R (c :: rest))
    (hstart : ∀ x rest, A x → (w x ++ rest).head? ≠ some close) {xs : List α}
    (hxs : ∀ x ∈ xs, A x) (h : ∀ x ∈ xs, ToldApart w A R x) :
    ToldApart (writeBracketed opening sep close w) (fun ys => ∀ y ∈ ys, A y) (fun _ => True)
      xs := by
  intro ys rest rest' hys _ _ heq
  cases xs with
  | nil =>
    cases ys with
    | nil => exact ⟨rfl, (List.cons.inj (List.cons.inj heq).2).2⟩
    | cons y ys =>
      have htail : close :: rest = w y ++ (writeSeparated sep close w ys ++ rest') := by
        simpa [writeBracketed] using heq
      have hhead := hstart y (writeSeparated sep close w ys ++ rest') (hys y List.mem_cons_self)
      rw [← htail] at hhead
      exact absurd rfl hhead
  | cons x xs =>
    cases ys with
    | nil =>
      have htail : w x ++ (writeSeparated sep close w xs ++ rest) = close :: rest' := by
        simpa [writeBracketed] using heq
      have hhead := hstart x (writeSeparated sep close w xs ++ rest) (hxs x List.mem_cons_self)
      rw [htail] at hhead
      exact absurd rfl hhead
    | cons y ys =>
      -- But for the first bracket, these are lists with a separator in front of each item.
      refine ToldApart.separated hne hR h (y :: ys) rest rest' hys trivial trivial ?_
      simpa [writeBracketed, writeSeparated] using heq

end ToldApart
