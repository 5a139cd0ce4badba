import DotmacIntegrator.Foundation.Text
import Mathlib.Data.List.Infix

/-!
# Replacing in text

`str.replace` looks for a text from the left and goes on behind each occurrence it replaced. What
is put in its place stands between two delimiters, so that a text without them lies inside a part
that was kept, or inside what was put in.

## Main definitions

* `Replace.all`: every occurrence of a text, replaced
* `Replace.Marked`: a text that begins and ends with a delimiter, around a word
* `Text.Occurs`, `Text.replace`: the same on strings

## Main results

* `infix_of_infix_all`: replacing brings no text about that avoids the delimiters and the word
* `not_infix_all`: a text that was replaced is gone
-/

/-- A text without the separator lies on one side of it. -/
theorem List.infix_append_cons_iff {α : Type*} {v xs ys : List α} {sep : α} (h : sep ∉ v) :
    v <:+: xs ++ sep :: ys ↔ v <:+: xs ∨ v <:+: ys := by
  constructor
  · intro hv
    rcases List.infix_append_iff.mp hv with hx | hy | ⟨l, r, rfl, hl, hr⟩
    · exact .inl hx
    · rcases List.infix_cons_iff.mp hy with hp | hi
      · cases v with
        | nil => exact .inr (List.nil_infix)
        | cons c cs =>
          obtain ⟨rfl, -⟩ := List.cons_prefix_cons.mp hp
          simp at h
      · exact .inr hi
    · -- A part that reaches over the separator would begin with it.
      cases r with
      | nil => exact .inl (by simpa using hl.isInfix)
      | cons c cs =>
        obtain ⟨rfl, -⟩ := List.cons_prefix_cons.mp hr
        simp at h
  · rintro (hx | hy)
    · exact List.infix_append_of_infix_left hx
    · exact List.infix_append_of_infix_right (List.infix_cons hy)

namespace Replace

variable {α : Type*} [DecidableEq α]

/-- Every occurrence of `old` replaced by `new`, after `skip` items that belong to the last one. -/
def scan (old new : List α) : ℕ → List α → List α
  | _, [] => []
  | skip + 1, _ :: cs => scan old new skip cs
  | 0, c :: cs =>
    if old <+: c :: cs then new ++ scan old new (old.length - 1) cs else c :: scan old new 0 cs

/-- Every occurrence of `old`, which is not empty, replaced by `new`. -/
def all (old new cs : List α) : List α := scan old new 0 cs

/-- `new` is a word between two delimiters, and `v` is not in it. -/
def Marked (new v : List α) : Prop :=
  ∃ l word r, new = l :: (word ++ [r]) ∧ l ∉ v ∧ r ∉ v ∧ ¬ v <:+: word

variable {old new v : List α}

omit [DecidableEq α] in
/-- What avoids the delimiters and the word is on one side of a replacement. -/
theorem Marked.split (h : Marked new v) {xs ys : List α} :
    v <:+: xs ++ (new ++ ys) ↔ v <:+: xs ∨ v <:+: ys := by
  obtain ⟨l, word, r, rfl, hl, hr, hw⟩ := h
  rw [List.cons_append, List.infix_append_cons_iff hl, List.append_assoc, List.singleton_append,
    List.infix_append_cons_iff hr, or_iff_right hw]

/-- What is found behind a kept part was in the text. -/
theorem infix_of_infix_scan (h : Marked new v) :
    ∀ (cs : List α) (skip : ℕ) (kept : List α), skip = 0 ∨ kept = [] →
      v <:+: kept ++ scan old new skip cs → v <:+: kept ++ cs := by
  intro cs
  induction cs with
  | nil => intro skip kept _ hv; simpa [scan] using hv
  | cons c cs ih =>
    intro skip kept hk hv
    cases skip with
    | succ skip =>
      obtain rfl : kept = [] := hk.resolve_left (Nat.succ_ne_zero skip)
      exact List.infix_cons (ih skip [] (.inr rfl) hv)
    | zero =>
      rw [scan] at hv
      split_ifs at hv with hp
      · rcases h.split.mp hv with hkept | hrest
        · exact List.infix_append_of_infix_left hkept
        · exact List.infix_append_of_infix_right
            (List.infix_cons (ih _ [] (.inr rfl) hrest))
      · -- The item is kept, and moves to the kept part.
        have := ih 0 (kept ++ [c]) (.inl rfl) (by simpa using hv)
        simpa using this

/-- **Replacing brings nothing about**: a text that avoids the delimiters and the word, and is
found afterwards, was there before. -/
theorem infix_of_infix_all (h : Marked new v) {cs : List α} (hv : v <:+: all old new cs) :
    v <:+: cs := by
  simpa using infix_of_infix_scan h cs 0 [] (.inl rfl) (by simpa [all] using hv)

/-- Where `old` starts nowhere in the kept part, it is not found behind it either. -/
theorem not_infix_scan (h : Marked new old) (hne : old ≠ []) :
    ∀ (cs : List α) (skip : ℕ) (kept : List α), skip = 0 ∨ kept = [] →
      (∀ a b, kept = a ++ b → b ≠ [] → ¬ old <+: b ++ cs) →
      ¬ old <:+: kept ++ scan old new skip cs := by
  -- An occurrence inside the kept part would start there.
  have hinside : ∀ {kept cs : List α},
      (∀ a b, kept = a ++ b → b ≠ [] → ¬ old <+: b ++ cs) → ¬ old <:+: kept := by
    rintro kept cs hstart ⟨a, b, rfl⟩
    refine hstart a (old ++ b) (by simp) (by simp [hne]) ?_
    rw [List.append_assoc]
    exact List.prefix_append _ _
  intro cs
  induction cs with
  | nil =>
    intro skip kept _ hstart
    simpa [scan] using hinside hstart
  | cons c cs ih =>
    intro skip kept hk hstart
    cases skip with
    | succ skip =>
      obtain rfl : kept = [] := hk.resolve_left (Nat.succ_ne_zero skip)
      exact ih skip [] (.inr rfl) (by simp)
    | zero =>
      rw [scan]
      split_ifs with hp
      · rw [h.split, not_or]
        exact ⟨hinside hstart, ih _ [] (.inr rfl) (by simp)⟩
      · rw [List.append_cons]
        refine ih 0 (kept ++ [c]) (.inl rfl) ?_
        intro a b hab hb hpre
        -- A new start is at the item itself, or was one before.
        rcases List.eq_nil_or_concat b with rfl | ⟨b', d, rfl⟩
        · exact hb rfl
        · rw [List.concat_eq_append, ← List.append_assoc] at hab
          obtain ⟨rfl, hcd⟩ := List.append_inj' hab rfl
          obtain rfl : c = d := by simpa using hcd
          rw [List.concat_eq_append, List.append_assoc, List.singleton_append] at hpre
          by_cases hb' : b' = []
          · subst hb'
            exact hp hpre
          · exact hstart a b' rfl hb' hpre

/-- **A text that was replaced is gone**, where it avoids what was put in its place. -/
theorem not_infix_all (h : Marked new old) (hne : old ≠ []) (cs : List α) :
    ¬ old <:+: all old new cs := by
  simpa [all] using not_infix_scan h hne cs 0 [] (.inl rfl) (by simp)

end Replace

namespace Text

/-- `v in s`. -/
def Occurs (v s : String) : Prop := v.toList <:+: s.toList

instance (v s : String) : Decidable (Occurs v s) :=
  inferInstanceAs (Decidable (v.toList <:+: s.toList))

/-- `s.replace(old, new)`, of a text that is not empty. -/
def replace (old new s : String) : String :=
  String.ofList (Replace.all old.toList new.toList s.toList)

/-- `s[:n]`. -/
def truncate (n : ℕ) (s : String) : String := String.ofList (s.toList.take n)

theorem occurs_of_truncate {v s : String} {n : ℕ} (h : Occurs v (truncate n s)) : Occurs v s := by
  rw [Occurs, truncate, String.toList_ofList] at h
  exact h.trans (List.take_prefix n s.toList).isInfix

/-- What occurs in a stripped text was there before. -/
theorem occurs_of_strip {v s : String} (h : Occurs v (strip s)) : Occurs v s := by
  unfold strip stripChars at h
  rw [Occurs, String.toList_ofList] at h
  have hprefix : ((s.toList.dropWhile isSpace).reverse.dropWhile isSpace).reverse <+:
      s.toList.dropWhile isSpace := by
    rw [← List.reverse_suffix, List.reverse_reverse]
    exact List.dropWhile_suffix _
  exact h.trans (List.IsInfix.trans hprefix.isInfix (List.dropWhile_suffix _).isInfix)

/-- What is not empty does not occur in the empty text. -/
theorem not_occurs_empty {v : String} (h : v ≠ "") : ¬ Occurs v "" := by
  intro hv
  rw [Occurs, String.toList_empty, List.infix_nil, ← String.toList_empty, String.toList_inj] at hv
  exact h hv

end Text
