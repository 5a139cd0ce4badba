import Mathlib.Data.List.Infix
import Mathlib.Data.List.TakeWhile

/-!
# Blanking runs behind a word

A run is a longest sequence of items that meet a predicate, right behind an occurrence of a word.
Substituting a blank for every run leaves everything else as it is. The word ends with an item
that fails the predicate, so that no word ends inside a run.

## Main definitions

* `Blanking.IsRun`: a part of a text is a run
* `Blanking.Segment`, `Blanking.segments`: a text, taken apart into its runs and the items kept
* `Blanking.Blanked`: a text with exactly its runs blanked
* `Blanking.blank`: the substitution, from the left

## Main results

* `blanked_blank`: the substitution blanks exactly the runs
* `eq_of_blanked_self`: a text is left as it is only if every run is the blank itself
* `blank_blank`: blanking again changes nothing, where the word is fenced
-/

namespace Blanking

variable {α : Type*}

/-- A part of a text: an item that is kept, or a run. -/
inductive Segment (α : Type*)
  | kept (c : α)
  | run (cs : List α)

/-- The items of a part. -/
def Segment.text : Segment α → List α
  | kept c => [c]
  | run cs => cs

/-- The part, with `new` in the place of a run. -/
def Segment.blanked (new : List α) : Segment α → List α
  | kept c => [c]
  | run _ => new

/-- The items of several parts. -/
def text (parts : List (Segment α)) : List α := parts.flatMap Segment.text

@[simp] theorem text_nil : text ([] : List (Segment α)) = [] := rfl

@[simp] theorem text_cons (part : Segment α) (parts : List (Segment α)) :
    text (part :: parts) = part.text ++ text parts := rfl

variable (p : α → Bool) (word : List α)

/-- `cs` is a run of the text `before ++ cs ++ after`. -/
structure IsRun (before cs after : List α) : Prop where
  ne : cs ≠ []
  mem : ∀ c ∈ cs, p c = true
  behind : word <:+ before
  longest : ∀ c ∈ after.head?, p c = false

/-- `out` is `cs` with `new` in the place of each of its runs, and of nothing else. -/
def Blanked (new cs out : List α) : Prop :=
  ∃ parts : List (Segment α), text parts = cs ∧ parts.flatMap (Segment.blanked new) = out ∧
    (∀ l run r, parts = l ++ .run run :: r → IsRun p word (text l) run (text r)) ∧
    ∀ before run after, cs = before ++ (run ++ after) → IsRun p word before run after →
      ∃ l r, parts = l ++ .run run :: r ∧ text l = before ∧ text r = after

variable {p word}

/-! ### Runs -/

theorem drop_takeWhile (cs : List α) : cs.drop (cs.takeWhile p).length = cs.dropWhile p := by
  have h : (cs.takeWhile p ++ cs.dropWhile p).drop (cs.takeWhile p).length = cs.dropWhile p :=
    List.drop_left
  rwa [List.takeWhile_append_dropWhile] at h

theorem take_takeWhile (cs : List α) : cs.take (cs.takeWhile p).length = cs.takeWhile p := by
  have h : (cs.takeWhile p ++ cs.dropWhile p).take (cs.takeWhile p).length = cs.takeWhile p :=
    List.take_left
  rwa [List.takeWhile_append_dropWhile] at h

/-- A longest sequence in front is what `takeWhile` takes. -/
theorem takeWhile_append_of_longest {cs after : List α} (hmem : ∀ c ∈ cs, p c = true)
    (hafter : ∀ c ∈ after.head?, p c = false) : (cs ++ after).takeWhile p = cs := by
  rw [List.takeWhile_append_of_pos hmem]
  cases after with
  | nil => simp
  | cons c after => simp [hafter c (by simp)]

/-- The word ends with an item that fails the predicate. -/
def Closed (p : α → Bool) (word : List α) : Prop := ∃ d, word.getLast? = some d ∧ p d = false

/-- What stands behind an item that fails is not reached. -/
theorem takeWhile_append_of_fails {before : List α} {d : α} (hd : d ∈ before) (hp : p d = false)
    (after : List α) : (before ++ after).takeWhile p = before.takeWhile p := by
  induction before with
  | nil => cases hd
  | cons c before ih =>
    by_cases hc : p c = true
    · have hmem : d ∈ before := by
        rcases List.mem_cons.mp hd with rfl | hmem
        · rw [hp] at hc
          cases hc
        · exact hmem
      rw [List.cons_append, List.takeWhile_cons_of_pos hc, List.takeWhile_cons_of_pos hc, ih hmem]
    · rw [List.cons_append, List.takeWhile_cons_of_neg hc, List.takeWhile_cons_of_neg hc]

/-- What stands in front of a run ends with an item that fails. -/
theorem IsRun.getLast {before cs after : List α} (hclosed : Closed p word)
    (h : IsRun p word before cs after) : ∃ d, before.getLast? = some d ∧ p d = false := by
  obtain ⟨d, hlast, hd⟩ := hclosed
  obtain ⟨front, rfl⟩ := h.behind
  exact ⟨d, by rw [List.getLast?_append, hlast, Option.some_or], hd⟩

/-- In the parts, a run is not empty, and ends as late as it can. -/
def Longest (p : α → Bool) (parts : List (Segment α)) : Prop :=
  ∀ l run r, parts = l ++ .run run :: r →
    run ≠ [] ∧ (∀ c ∈ run, p c = true) ∧ ∀ c ∈ (text r).head?, p c = false

theorem Longest.tail {part : Segment α} {parts : List (Segment α)}
    (h : Longest p (part :: parts)) : Longest p parts := by
  rintro l run r rfl
  exact h (part :: l) run r rfl

/-- Behind a run, blanking leaves the first item as it is. -/
theorem Longest.head?_blanked {new : List α} {parts : List (Segment α)} (h : Longest p parts)
    (hhead : ∀ c ∈ (text parts).head?, p c = false) :
    (parts.flatMap (Segment.blanked new)).head? = (text parts).head? := by
  cases parts with
  | nil => rfl
  | cons part parts =>
    cases part with
    | kept c => rfl
    | run cs =>
      obtain ⟨hne, hmem, -⟩ := h [] cs parts rfl
      obtain ⟨c, cs, rfl⟩ := List.exists_cons_of_ne_nil hne
      have := hhead c (by simp [Segment.text])
      rw [hmem c List.mem_cons_self] at this
      cases this

/-- Parts that are left as they are have only the blank for a run. -/
theorem eq_of_text_eq_blanked {new : List α} (hnew : ∀ c ∈ new, p c = true)
    {parts : List (Segment α)} (hlongest : Longest p parts)
    (heq : text parts = parts.flatMap (Segment.blanked new)) {run : List α}
    (hmem : .run run ∈ parts) : run = new := by
  induction parts with
  | nil => cases hmem
  | cons part parts ih =>
    rw [text_cons, List.flatMap_cons] at heq
    cases part with
    | kept c =>
      rcases List.mem_cons.mp hmem with hcase | hmem
      · cases hcase
      · exact ih hlongest.tail (List.append_cancel_left heq) hmem
    | run cs =>
      -- Both sides begin with a longest sequence: the run, and the blank.
      obtain ⟨-, hcs, hhead⟩ := hlongest [] cs parts rfl
      have hcase : cs = new := by
        have htake := congrArg (List.takeWhile p) heq
        rwa [Segment.text, Segment.blanked, takeWhile_append_of_longest hcs hhead,
          takeWhile_append_of_longest hnew] at htake
        rwa [hlongest.tail.head?_blanked hhead]
      rcases List.mem_cons.mp hmem with hrun | hmem
      · rw [← hcase]
        exact Segment.run.inj hrun
      · rw [Segment.text, Segment.blanked, hcase] at heq
        exact ih hlongest.tail (List.append_cancel_left heq) hmem

/-- A text is left as it is only if every run of it is the blank itself. -/
theorem eq_of_blanked_self {new before run after : List α} (hnew : ∀ c ∈ new, p c = true)
    (h : Blanked p word new (before ++ (run ++ after)) (before ++ (run ++ after)))
    (hrun : IsRun p word before run after) : run = new := by
  obtain ⟨parts, htext, hout, hsound, hcomplete⟩ := h
  obtain ⟨l, r, hparts, -, -⟩ := hcomplete before run after rfl hrun
  have hlongest : Longest p parts := by
    intro l run r hl
    exact ⟨(hsound l run r hl).ne, (hsound l run r hl).mem, (hsound l run r hl).longest⟩
  apply eq_of_text_eq_blanked hnew hlongest (htext.trans hout.symm)
  rw [hparts]
  exact List.mem_append_right l List.mem_cons_self

/-! ### The substitution -/

variable [DecidableEq α] (p word)

/-- The parts of a text, after `skip` items that belong to the last run; `seen` is what stands in
front, from the right. -/
def segments : ℕ → List α → List α → List (Segment α)
  | _, _, [] => []
  | skip + 1, seen, c :: cs => segments skip (c :: seen) cs
  | 0, seen, c :: cs =>
    if p c = true ∧ word.reverse <+: seen then
      .run (c :: cs.takeWhile p) :: segments (cs.takeWhile p).length (c :: seen) cs
    else .kept c :: segments 0 (c :: seen) cs

/-- Every run of a text, blanked. -/
def blank (new cs : List α) : List α := (segments p word 0 [] cs).flatMap (Segment.blanked new)

variable {p word}

/-- The parts make up the text. -/
theorem text_segments (skip : ℕ) (seen cs : List α) :
    text (segments p word skip seen cs) = cs.drop skip := by
  induction cs generalizing skip seen with
  | nil => simp [segments]
  | cons c cs ih =>
    cases skip with
    | succ skip => rw [segments, ih, List.drop_succ_cons]
    | zero =>
      by_cases h : p c = true ∧ word.reverse <+: seen
      · rw [segments, if_pos h, text_cons, ih, drop_takeWhile, Segment.text, List.cons_append,
          List.takeWhile_append_dropWhile, List.drop_zero]
      · rw [segments, if_neg h, text_cons, ih]
        rfl

/-- What is taken for a run is one. -/
theorem isRun_of_segments (cs : List α) : ∀ (skip : ℕ) (seen : List α) (l r : List (Segment α))
    (run : List α), segments p word skip seen cs = l ++ .run run :: r →
      IsRun p word (seen.reverse ++ (cs.take skip ++ text l)) run (text r) := by
  induction cs with
  | nil =>
    intro skip seen l r run h
    simp [segments] at h
  | cons c cs ih =>
    intro skip seen l r run h
    cases skip with
    | succ skip =>
      rw [segments] at h
      simpa using ih skip (c :: seen) l r run h
    | zero =>
      by_cases hc : p c = true ∧ word.reverse <+: seen
      · rw [segments, if_pos hc] at h
        cases l with
        | nil =>
          -- The run begins here, and goes on as long as it can.
          obtain ⟨hrun, rfl⟩ := List.cons.inj h
          obtain rfl := Segment.run.inj hrun
          refine ⟨List.cons_ne_nil _ _, ?_, ?_, ?_⟩
          · intro d hd
            rcases List.mem_cons.mp hd with rfl | hd
            · exact hc.1
            · exact List.mem_takeWhile_imp hd
          · simpa using List.reverse_prefix.mp (by simpa using hc.2)
          · rw [text_segments, drop_takeWhile]
            intro d hd
            have := List.head?_dropWhile_not p cs
            rw [Option.mem_def.mp hd] at this
            simpa using this
        | cons part l =>
          obtain ⟨rfl, hrest⟩ := List.cons.inj h
          have hrun := ih _ _ l r run hrest
          rw [take_takeWhile] at hrun
          simpa [Segment.text] using hrun
      · rw [segments, if_neg hc] at h
        cases l with
        | nil => cases (List.cons.inj h).1
        | cons part l =>
          obtain ⟨rfl, hrest⟩ := List.cons.inj h
          simpa [Segment.text] using ih 0 (c :: seen) l r run hrest

/-- Every run is taken for one, unless it begins among the items that are skipped. -/
theorem exists_segment_of_isRun (hclosed : Closed p word) (run after : List α) :
    ∀ (before : List α) (skip : ℕ) (seen : List α), skip ≤ before.length →
      IsRun p word (seen.reverse ++ before) run after →
      ∃ l r, segments p word skip seen (before ++ (run ++ after)) = l ++ .run run :: r ∧
        text l = before.drop skip ∧ text r = after := by
  intro before
  induction before with
  | nil =>
    intro skip seen hskip h
    obtain rfl := Nat.le_zero.mp hskip
    obtain ⟨c, cs, rfl⟩ := List.exists_cons_of_ne_nil h.ne
    have hbehind : word.reverse <+: seen := by
      simpa using List.reverse_prefix.mpr h.behind
    have htake : (cs ++ after).takeWhile p = cs :=
      takeWhile_append_of_longest (fun d hd => h.mem d (List.mem_cons_of_mem c hd)) h.longest
    refine ⟨[], segments p word cs.length (c :: seen) (cs ++ after), ?_, rfl, ?_⟩
    · rw [List.nil_append, List.cons_append, segments, if_pos ⟨h.mem c List.mem_cons_self, hbehind⟩,
        htake, List.nil_append]
    · rw [text_segments, List.drop_left]
  | cons c before ih =>
    intro skip seen hskip h
    have hshift : IsRun p word ((c :: seen).reverse ++ before) run after := by
      simpa using h
    cases skip with
    | succ skip => exact ih skip (c :: seen) (Nat.le_of_succ_le_succ hskip) hshift
    | zero =>
      by_cases hc : p c = true ∧ word.reverse <+: seen
      · -- A run that begins here ends before the word that `run` stands behind.
        obtain ⟨d, hlast, hd⟩ := h.getLast hclosed
        have hmem : d ∈ before := by
          rw [List.getLast?_append_of_ne_nil _ (List.cons_ne_nil c before)] at hlast
          rcases List.mem_cons.mp (List.mem_of_getLast? hlast) with rfl | hmem
          · rw [hd] at hc
            cases hc.1
          · exact hmem
        have htake := takeWhile_append_of_fails hmem hd (run ++ after)
        have hlen : (before.takeWhile p).length ≤ before.length :=
          (List.takeWhile_prefix p).length_le
        obtain ⟨l, r, hsegments, hl, hr⟩ := ih _ (c :: seen) hlen hshift
        refine ⟨.run (c :: before.takeWhile p) :: l, r, ?_, ?_, hr⟩
        · rw [List.cons_append, segments, if_pos hc, htake, hsegments]
          rfl
        · rw [text_cons, hl, drop_takeWhile, Segment.text, List.cons_append,
            List.takeWhile_append_dropWhile, List.drop_zero]
      · obtain ⟨l, r, hsegments, hl, hr⟩ := ih 0 (c :: seen) (Nat.zero_le _) hshift
        refine ⟨.kept c :: l, r, ?_, ?_, hr⟩
        · rw [List.cons_append, segments, if_neg hc, hsegments]
          rfl
        · rw [text_cons, hl]
          rfl

/-- **The substitution blanks exactly the runs.** -/
theorem blanked_blank (hclosed : Closed p word) (new cs : List α) :
    Blanked p word new cs (blank p word new cs) := by
  refine ⟨segments p word 0 [] cs, ?_, rfl, ?_, ?_⟩
  · rw [text_segments, List.drop_zero]
  · intro l run r h
    simpa using isRun_of_segments cs 0 [] l r run h
  · rintro before run after rfl h
    simpa using exists_segment_of_isRun hclosed run after before 0 [] (Nat.zero_le _)
      (by simpa using h)

/-! ### Blanking again -/

/-- The word stands between two items that fail, and what is between them is not the blank. -/
structure Fenced (p : α → Bool) (word new : List α) : Prop where
  parts : ∃ d mid e, word = d :: (mid ++ [e]) ∧ p d = false ∧ p e = false ∧
    (∀ c ∈ mid, p c = true) ∧ mid ≠ new
  ne : new ≠ []
  mem : ∀ c ∈ new, p c = true

variable {new : List α}

omit [DecidableEq α] in
/-- A fenced word, from the right. -/
theorem Fenced.reverse (h : Fenced p word new) : ∃ d mid e, word.reverse = e :: (mid ++ [d]) ∧
    p d = false ∧ p e = false ∧ (∀ c ∈ mid, p c = true) ∧ mid ≠ new.reverse := by
  obtain ⟨d, mid, e, rfl, hd, he, hmid, hne⟩ := h.parts
  refine ⟨d, mid.reverse, e, by simp, hd, he, ?_, ?_⟩
  · exact fun c hc => hmid c (List.mem_reverse.mp hc)
  · exact fun heq => hne (List.reverse_injective heq)

omit [DecidableEq α] in
/-- A fenced word does not end with an item that passes. -/
theorem Fenced.not_reverse_prefix (h : Fenced p word new) {c : α} (hc : p c = true)
    (seen : List α) : ¬ word.reverse <+: c :: seen := by
  obtain ⟨d, mid, e, hreverse, -, he, -, -⟩ := h.reverse
  intro hword
  rw [hreverse] at hword
  obtain ⟨rfl, -⟩ := List.cons_prefix_cons.mp hword
  rw [hc] at he
  cases he

/-- What is in front of a text agrees with what is in front of the blanked text: they are the same,
or the same back to a run, which was blanked. -/
inductive Agree (p : α → Bool) (new : List α) : List α → List α → Prop
  | same (seen : List α) : Agree p new seen seen
  | blanked (c : α) (hc : p c = true) (seen : List α) (f : α) (hf : p f = false) (front : List α)
      (x : α) (hx : p x = false) (items : List α) :
      Agree p new (items ++ x :: c :: seen) (items ++ x :: (new.reverse ++ f :: front))

omit [DecidableEq α] in
theorem Agree.kept {seen seen' : List α} (h : Agree p new seen seen') (c : α) :
    Agree p new (c :: seen) (c :: seen') := by
  cases h with
  | same => exact .same _
  | blanked a ha seen f hf front x hx items => exact .blanked a ha seen f hf front x hx (c :: items)

omit [DecidableEq α] in
/-- In front of a blanked text the word is found only where it was. -/
theorem Agree.behind (hfenced : Fenced p word new) {seen seen' : List α}
    (h : Agree p new seen seen') (hword : word.reverse <+: seen') : word.reverse <+: seen := by
  obtain ⟨d, mid, e, hreverse, hd, -, hmid, hne⟩ := hfenced.reverse
  rw [hreverse] at hword ⊢
  cases h with
  | same => exact hword
  | blanked c hc seen f hf front x hx items =>
    cases items with
    | nil =>
      -- The blank would be what is between the ends of the word.
      obtain ⟨tail, htail⟩ := (List.cons_prefix_cons.mp hword).2
      have htake := congrArg (List.takeWhile p) htail
      rw [List.append_assoc, takeWhile_append_of_longest hmid (by simpa using hd),
        takeWhile_append_of_longest (fun c hc => hfenced.mem c (List.mem_reverse.mp hc))
          (by simpa using hf)] at htake
      exact absurd htake hne
    | cons y items =>
      obtain ⟨rfl, hrest⟩ := List.cons_prefix_cons.mp hword
      refine List.cons_prefix_cons.mpr ⟨rfl, ?_⟩
      change mid ++ [d] <+: items ++ x :: (new.reverse ++ f :: front) at hrest
      change mid ++ [d] <+: items ++ x :: c :: seen
      rw [List.append_cons items x] at hrest ⊢
      -- What is kept ends with an item that fails, so that the word is within it.
      refine (List.prefix_of_prefix_length_le hrest (List.prefix_append _ _) ?_).trans
        (List.prefix_append _ _)
      by_contra hshort
      have hinside : items ++ [x] <+: mid := by
        refine List.prefix_of_prefix_length_le (List.prefix_append _ _)
          ((List.prefix_append mid [d]).trans hrest) ?_
        rw [List.length_append, List.length_singleton] at hshort
        omega
      have hpasses := hmid x (hinside.subset (by simp))
      rw [hx] at hpasses
      cases hpasses

omit [DecidableEq α] in
/-- Where the word is in front of a text, an item that fails is in front of the blanked one. -/
theorem Agree.fails (hfenced : Fenced p word new) {seen seen' : List α} (h : Agree p new seen seen')
    (hword : word.reverse <+: seen) : ∃ f front, seen' = f :: front ∧ p f = false := by
  obtain ⟨d, mid, e, hreverse, -, he, -, -⟩ := hfenced.reverse
  cases h with
  | same =>
    rw [hreverse] at hword
    obtain ⟨front, rfl⟩ := hword
    exact ⟨e, _, rfl, he⟩
  | blanked c hc seen f hf front x hx items =>
    cases items with
    | nil => exact ⟨x, _, rfl, hx⟩
    | cons y items =>
      rw [hreverse] at hword
      obtain ⟨rfl, -⟩ := List.cons_prefix_cons.mp hword
      exact ⟨_, _, rfl, he⟩

/-- Items that pass are kept, where the word is not in front of them. -/
theorem segments_append_of_not_word (hfenced : Fenced p word new) {items : List α}
    (hitems : ∀ c ∈ items, p c = true) {seen : List α} (h : ¬ word.reverse <+: seen)
    (cs : List α) : segments p word 0 seen (items ++ cs) =
      items.map .kept ++ segments p word 0 (items.reverse ++ seen) cs := by
  induction items generalizing seen with
  | nil => rfl
  | cons c items ih =>
    rw [List.cons_append, segments, if_neg fun hc => h hc.2,
      ih (fun x hx => hitems x (.tail _ hx))
        (hfenced.not_reverse_prefix (hitems c (.head _)) seen), List.map_cons, List.cons_append,
      List.reverse_cons, List.append_assoc]
    rfl

theorem segments_skip (k : ℕ) (seen cs : List α) :
    segments p word k seen cs = segments p word 0 ((cs.take k).reverse ++ seen) (cs.drop k) := by
  induction cs generalizing k seen with
  | nil => cases k <;> rfl
  | cons c cs ih =>
    cases k with
    | zero => rfl
    | succ k =>
      rw [segments, ih, List.take_succ_cons, List.reverse_cons, List.append_assoc]
      rfl

/-- A run that is taken, and what is behind it. -/
theorem segments_run {c : α} {seen : List α} (h : p c = true ∧ word.reverse <+: seen)
    (cs : List α) : segments p word 0 seen (c :: cs) =
      .run (c :: cs.takeWhile p) ::
        segments p word 0 ((cs.takeWhile p).reverse ++ c :: seen) (cs.dropWhile p) := by
  rw [segments, if_pos h, segments_skip, take_takeWhile, drop_takeWhile]

/-- An item that fails is kept. -/
theorem segments_of_fails {c : α} (h : p c = false) (seen cs : List α) :
    segments p word 0 seen (c :: cs) = .kept c :: segments p word 0 (c :: seen) cs := by
  rw [segments, if_neg fun hrun => Bool.false_ne_true (h.symm.trans hrun.1)]

/-- A blank that ends where an item fails is blanked, or kept. -/
theorem blanked_segments_blank (hfenced : Fenced p word new) (seen : List α) {tail : List α}
    (htail : ∀ c ∈ tail.head?, p c = false) :
    (segments p word 0 seen (new ++ tail)).flatMap (Segment.blanked new) =
      new ++ (segments p word 0 (new.reverse ++ seen) tail).flatMap (Segment.blanked new) := by
  by_cases hword : word.reverse <+: seen
  · obtain ⟨a, as, heq⟩ := List.exists_cons_of_ne_nil hfenced.ne
    have hall : ∀ c ∈ a :: as, p c = true := heq ▸ hfenced.mem
    have htake : (as ++ tail).takeWhile p = as :=
      takeWhile_append_of_longest (fun c hc => hall c (.tail _ hc)) htail
    have hdrop : (as ++ tail).dropWhile p = tail := by
      rw [← drop_takeWhile, htake, List.drop_left]
    rw [heq, List.cons_append, segments_run ⟨hall a (.head _), hword⟩, htake, hdrop,
      List.flatMap_cons, List.reverse_cons, List.append_assoc]
    rfl
  · rw [segments_append_of_not_word hfenced hfenced.mem hword, List.flatMap_append]
    congr 1
    have hkept : ∀ items : List α, (items.map .kept).flatMap (Segment.blanked new) = items := by
      intro items
      induction items with
      | nil => rfl
      | cons c items ih => exact congrArg (c :: ·) ih
    exact hkept new

omit [DecidableEq α] in
/-- A run, from the right, begins with an item that passes. -/
theorem exists_cons_of_run {c : α} (hc : p c = true) (cs seen : List α) :
    ∃ a as, (cs.takeWhile p).reverse ++ c :: seen = a :: as ∧ p a = true := by
  cases hrun : (cs.takeWhile p).reverse with
  | nil => exact ⟨c, seen, rfl, hc⟩
  | cons a as =>
    have hmem : a ∈ (cs.takeWhile p).reverse := by
      rw [hrun]
      exact List.mem_cons_self
    exact ⟨a, as ++ c :: seen, rfl, List.mem_takeWhile_imp (List.mem_reverse.mp hmem)⟩

/-- Blanking the parts of a text again leaves them as they are. -/
theorem blanked_segments (hfenced : Fenced p word new) (cs seen seen' : List α)
    (hagree : Agree p new seen seen') :
    (segments p word 0 seen' ((segments p word 0 seen cs).flatMap
      (Segment.blanked new))).flatMap (Segment.blanked new) =
        (segments p word 0 seen cs).flatMap (Segment.blanked new) := by
  induction hn : cs.length using Nat.strong_induction_on generalizing cs seen seen' with
  | _ n ih =>
    cases cs with
    | nil => rfl
    | cons c cs =>
      by_cases hrun : p c = true ∧ word.reverse <+: seen
      · obtain ⟨f, front, rfl, hf⟩ := hagree.fails hfenced hrun.2
        rw [segments_run hrun, List.flatMap_cons, Segment.blanked]
        have hlength : (cs.dropWhile p).length ≤ cs.length := (List.dropWhile_suffix p).length_le
        have hhead := List.head?_dropWhile_not p cs
        cases hrest : cs.dropWhile p with
        | nil =>
          have hone := @blanked_segments_blank _ _ _ _ _ hfenced (f :: front) [] (by simp)
          simpa [segments] using hone
        | cons x rest =>
          -- What is behind the run begins with an item that fails.
          have hx : p x = false := by simpa [hrest] using hhead
          obtain ⟨a, as, hseen, ha⟩ := exists_cons_of_run hrun.1 cs seen
          have hagree' : Agree p new (x :: ((cs.takeWhile p).reverse ++ c :: seen))
              (x :: (new.reverse ++ f :: front)) := by
            rw [hseen]
            exact .blanked a ha as f hf front x hx []
          have hlt : rest.length < n := by
            rw [hrest] at hlength
            simp only [List.length_cons] at hlength hn
            omega
          rw [segments_of_fails hx, List.flatMap_cons, Segment.blanked, List.singleton_append,
            blanked_segments_blank hfenced _ (by simpa using hx), segments_of_fails hx,
            List.flatMap_cons, Segment.blanked, List.singleton_append,
            ih rest.length hlt rest _ _ hagree' rfl]
      · have hkept : ¬ (p c = true ∧ word.reverse <+: seen') := fun h =>
          hrun ⟨h.1, hagree.behind hfenced h.2⟩
        rw [segments, if_neg hrun, List.flatMap_cons, Segment.blanked, List.singleton_append,
          segments, if_neg hkept, List.flatMap_cons, Segment.blanked, List.singleton_append,
          ih cs.length (by rw [← hn]; exact Nat.lt_succ_self _) cs (c :: seen) (c :: seen')
            (hagree.kept c) rfl]

/-- **Blanking again changes nothing.** -/
theorem blank_blank (hfenced : Fenced p word new) (cs : List α) :
    blank p word new (blank p word new cs) = blank p word new cs :=
  blanked_segments hfenced cs [] [] (.same [])

end Blanking
