import DotmacIntegrator.Foundation.JsonParse

/-!
# The grammar of JSON

The texts of RFC 8259, and which values `json.dumps` writes as one: the three floats that are no
numbers are written by names the grammar does not have. A text of the grammar has none of their
capitals outside its strings. A reader may have other names and other numbers than the grammar;
these are its lexicon.

## Main definitions

* `Rfc8259.Lexicon`, `Rfc8259.rfc`: the names and the numbers of a reader, and those of the grammar
* `Rfc8259.Derives`, `Rfc8259.Text`: the grammar
* `Rfc8259.Marks`: what a text has outside its strings

## Main results

* `Derives.plain`: what a text of the grammar has outside its strings
* `derives_encode`: a value whose floats are finite is written as a text of the grammar
* `text_encode_iff`: and no other value is
-/

namespace Rfc8259

/-! ### The grammar -/

/-- `ws`. -/
def Ws (t : List Char) : Prop := ∀ c ∈ t, c = ' ' ∨ c = '\t' ∨ c = '\n' ∨ c = '\r'

/-- `number = [ minus ] int [ frac ] [ exp ]`. -/
def Number (t : List Char) : Prop :=
  ∃ i frac exp, t = i ++ frac ++ exp ∧ Json.IntPart i ∧ Json.FracPart frac ∧ Json.ExpPart exp

/-- `*char`, between the quotation marks of a string. -/
inductive Chars : List Char → Prop
  | nil : Chars []
  | unescaped {c : Char} {cs : List Char} (hc : 32 ≤ c.toNat) (hquote : c ≠ '"') (hslash : c ≠ '\\')
      (hcs : Chars cs) : Chars (c :: cs)
  | escaped {c : Char} {cs : List Char}
      (hc : c ∈ ['"', '\\', '/', 'b', 'f', 'n', 'r', 't']) (hcs : Chars cs) :
      Chars ('\\' :: c :: cs)
  | unicode {a b c d : Char} {cs : List Char} (h : ∀ x ∈ [a, b, c, d], (Json.hexVal x).isSome)
      (hcs : Chars cs) : Chars ('\\' :: 'u' :: a :: b :: c :: d :: cs)

/-- What the grammar derives: a value, the values of an array, the members of an object. -/
inductive Symbol
  | value
  | elements
  | members

/-- The values that are written by name, and the texts of numbers. -/
structure Lexicon where
  names : List (List Char)
  number : List Char → Prop

/-- The names and the numbers of the grammar. -/
def rfc : Lexicon where
  names := ["null".toList, "true".toList, "false".toList]
  number := Number

/-- The grammar, over a lexicon. -/
inductive Derives (L : Lexicon) : Symbol → List Char → Prop
  | literal {t : List Char} (h : t ∈ L.names) : Derives L .value t
  | number {t : List Char} (h : L.number t) : Derives L .value t
  | string {cs : List Char} (h : Chars cs) : Derives L .value ('"' :: (cs ++ ['"']))
  | emptyArray {w : List Char} (hw : Ws w) : Derives L .value ('[' :: (w ++ [']']))
  | array {t : List Char} (h : Derives L .elements t) : Derives L .value ('[' :: (t ++ [']']))
  | emptyObject {w : List Char} (hw : Ws w) : Derives L .value ('{' :: (w ++ ['}']))
  | object {t : List Char} (h : Derives L .members t) : Derives L .value ('{' :: (t ++ ['}']))
  | element {w t w' : List Char} (hw : Ws w) (h : Derives L .value t) (hw' : Ws w') :
      Derives L .elements (w ++ (t ++ w'))
  | elements {w t w' ts : List Char} (hw : Ws w) (h : Derives L .value t) (hw' : Ws w')
      (hts : Derives L .elements ts) : Derives L .elements (w ++ (t ++ (w' ++ ',' :: ts)))
  | member {w k w₁ w₂ t w₃ : List Char} (hw : Ws w) (hk : Chars k) (hw₁ : Ws w₁) (hw₂ : Ws w₂)
      (h : Derives L .value t) (hw₃ : Ws w₃) :
      Derives L .members (w ++ ('"' :: (k ++ ['"']) ++ (w₁ ++ ':' :: (w₂ ++ (t ++ w₃)))))
  | members {w k w₁ w₂ t w₃ ts : List Char} (hw : Ws w) (hk : Chars k) (hw₁ : Ws w₁) (hw₂ : Ws w₂)
      (h : Derives L .value t) (hw₃ : Ws w₃) (hts : Derives L .members ts) :
      Derives L .members
        (w ++ ('"' :: (k ++ ['"']) ++ (w₁ ++ ':' :: (w₂ ++ (t ++ (w₃ ++ ',' :: ts))))))

/-- `JSON-text = ws value ws`. -/
def Text (t : List Char) : Prop :=
  ∃ w v w', t = w ++ (v ++ w') ∧ Ws w ∧ Derives rfc .value v ∧ Ws w'

theorem Ws.nil : Ws [] := by simp [Ws]

/-! ### What a text has outside its strings -/

/-- Where a scan of a text is: outside a string, in one, or behind a backslash. -/
inductive Mode
  | plain
  | string
  | escape

/-- The characters of a text outside its strings. -/
def outside : Mode → List Char → List Char
  | _, [] => []
  | .plain, c :: cs => if c = '"' then outside .string cs else c :: outside .plain cs
  | .string, c :: cs =>
    outside (if c = '"' then .plain else if c = '\\' then .escape else .string) cs
  | .escape, _ :: cs => outside .string cs

/-- Every string of the text is closed, and `k` is what it has outside them. -/
def Marks (t k : List Char) : Prop :=
  ∀ rest, outside .plain (t ++ rest) = k ++ outside .plain rest

theorem Marks.append {t k t' k' : List Char} (h : Marks t k) (h' : Marks t' k') :
    Marks (t ++ t') (k ++ k') := by
  intro rest
  rw [List.append_assoc, h, h', List.append_assoc]

theorem Marks.unique {t k k' : List Char} (h : Marks t k) (h' : Marks t k') : k = k' := by
  have hnil := (h []).symm.trans (h' [])
  simpa [outside] using hnil

/-- Without a quotation mark, all of a text is outside. -/
theorem Marks.of_no_quote {t : List Char} (h : '"' ∉ t) : Marks t t := by
  induction t with
  | nil => exact fun rest => rfl
  | cons c t ih =>
    obtain ⟨hc, ht⟩ := not_or.mp (mt List.mem_cons.mpr h)
    intro rest
    rw [List.cons_append, outside, if_neg (Ne.symm hc), ih ht, List.cons_append]

/-- No character of a string ends it. -/
theorem Chars.outside {cs : List Char} (h : Chars cs) (rest : List Char) :
    outside .string (cs ++ rest) = Rfc8259.outside .string rest := by
  induction h with
  | nil => rfl
  | unescaped _ hquote hslash _ ih =>
    rw [List.cons_append, Rfc8259.outside, if_neg hquote, if_neg hslash, ih]
  | escaped _ _ ih =>
    rw [List.cons_append, Rfc8259.outside, if_neg (by decide), if_pos rfl, List.cons_append,
      Rfc8259.outside, ih]
  | unicode hhex _ ih =>
    -- A hexadecimal digit is neither a quotation mark nor a backslash.
    have hne : ∀ x, (Json.hexVal x).isSome → x ≠ '"' ∧ x ≠ '\\' := by
      rintro x hx
      refine ⟨?_, ?_⟩ <;> rintro rfl <;> exact absurd hx (by decide)
    simp only [List.mem_cons, List.not_mem_nil, or_false, forall_eq_or_imp, forall_eq] at hhex
    obtain ⟨ha, hb, hc, hd⟩ := hhex
    simp [Rfc8259.outside, hne _ ha, hne _ hb, hne _ hc, hne _ hd, ih]

/-- A string has nothing outside. -/
theorem Chars.marks {cs : List Char} (h : Chars cs) : Marks ('"' :: (cs ++ ['"'])) [] := by
  intro rest
  rw [List.cons_append, List.append_assoc, Rfc8259.outside, if_pos rfl, h.outside]
  rfl

/-! ### What the grammar has outside strings -/

/-- A character that begins none of the names of the floats that are no numbers. -/
def Plain (c : Char) : Prop := c ≠ 'N' ∧ c ≠ 'I'

/-- A text whose strings are closed, and that is plain outside them. -/
def AllPlain (t : List Char) : Prop := ∃ k, Marks t k ∧ ∀ c ∈ k, Plain c

theorem AllPlain.append {t t' : List Char} (h : AllPlain t) (h' : AllPlain t') :
    AllPlain (t ++ t') := by
  obtain ⟨k, hk, hplain⟩ := h
  obtain ⟨k', hk', hplain'⟩ := h'
  exact ⟨k ++ k', hk.append hk', List.forall_mem_append.mpr ⟨hplain, hplain'⟩⟩

theorem AllPlain.of_forall {t : List Char} (h : ∀ c ∈ t, c ≠ '"' ∧ Plain c) : AllPlain t :=
  ⟨t, .of_no_quote fun hquote => (h '"' hquote).1 rfl, fun c hc => (h c hc).2⟩

theorem AllPlain.cons {c : Char} {t : List Char} (hc : c ≠ '"' ∧ Plain c) (h : AllPlain t) :
    AllPlain (c :: t) :=
  AllPlain.append (.of_forall (t := [c]) (by simpa using hc)) h

theorem Chars.allPlain {cs : List Char} (h : Chars cs) : AllPlain ('"' :: (cs ++ ['"'])) :=
  ⟨[], h.marks, by simp⟩

theorem Ws.allPlain {w : List Char} (hw : Ws w) : AllPlain w := by
  refine .of_forall fun c hc => ?_
  rcases hw c hc with rfl | rfl | rfl | rfl <;> exact ⟨by decide, by decide, by decide⟩

theorem ne_of_isDigit {c : Char} (h : c.isDigit) : c ≠ '"' ∧ Plain c := by
  refine ⟨?_, ?_, ?_⟩ <;> rintro rfl <;> exact absurd h (by decide)

theorem Number.allPlain {t : List Char} (h : Number t) : AllPlain t := by
  obtain ⟨i, frac, exp, rfl, hi, hf, he⟩ := h
  have hdigits : ∀ {ds}, Json.Digits ds → AllPlain ds := fun hds =>
    .of_forall fun c hc => ne_of_isDigit (hds.2 c hc)
  refine .append (.append ?_ ?_) ?_
  · obtain ⟨sign, ds, rfl, hsign, hds, -⟩ := hi
    refine .append (.of_forall ?_) (hdigits hds)
    rcases hsign with rfl | rfl <;> simp [Plain]
  · rcases hf with rfl | ⟨ds, rfl, hds⟩
    · exact .of_forall (by simp)
    · exact .cons (by simp [Plain]) (hdigits hds)
  · rcases he with rfl | ⟨e, sign, ds, rfl, he, hsign, hds⟩
    · exact .of_forall (by simp)
    · refine .cons ?_ (.append (.of_forall ?_) (hdigits hds))
      · rcases he with rfl | rfl <;> simp [Plain]
      · rcases hsign with rfl | rfl | rfl <;> simp [Plain]

/-- **What the grammar derives is plain outside its strings.** -/
theorem Derives.plain {symbol : Symbol} {t : List Char} (h : Derives rfc symbol t) :
    AllPlain t := by
  induction h with
  | literal h =>
    simp only [rfc, List.mem_cons, List.not_mem_nil, or_false] at h
    rcases h with rfl | rfl | rfl <;> exact .of_forall (by simp [Plain])
  | number h => exact Number.allPlain h
  | string h => exact h.allPlain
  | emptyArray hw | emptyObject hw =>
    exact .cons (by simp [Plain]) (hw.allPlain.append (.of_forall (by simp [Plain])))
  | array _ ih | object _ ih =>
    exact .cons (by simp [Plain]) (ih.append (.of_forall (by simp [Plain])))
  -- From here on piece by piece, as the rules are written.
  | element hw _ hw' ih => exact hw.allPlain.append (ih.append hw'.allPlain)
  | elements hw _ hw' _ ih ihs =>
    exact hw.allPlain.append (ih.append (hw'.allPlain.append (.cons (by simp [Plain]) ihs)))
  | member hw hk hw₁ hw₂ _ hw₃ ih =>
    exact hw.allPlain.append (hk.allPlain.append (hw₁.allPlain.append
      (.cons (by simp [Plain]) (hw₂.allPlain.append (ih.append hw₃.allPlain)))))
  | members hw hk hw₁ hw₂ _ hw₃ _ ih ihs =>
    exact hw.allPlain.append (hk.allPlain.append (hw₁.allPlain.append
      (.cons (by simp [Plain]) (hw₂.allPlain.append (ih.append (hw₃.allPlain.append
        (.cons (by simp [Plain]) ihs)))))))

theorem Text.plain {t : List Char} (h : Text t) : AllPlain t := by
  obtain ⟨w, v, w', rfl, hw, hv, hw'⟩ := h
  exact hw.allPlain.append (hv.plain.append hw'.allPlain)

/-! ### What is written -/

open Json

theorem Chars.append {cs cs' : List Char} (h : Chars cs) (h' : Chars cs') : Chars (cs ++ cs') := by
  induction h with
  | nil => exact h'
  | unescaped hc hquote hslash _ ih => exact .unescaped hc hquote hslash ih
  | escaped hc _ ih => exact .escaped hc ih
  | unicode hhex _ ih => exact .unicode hhex ih

theorem chars_hexChars (n : ℕ) : Chars ('\\' :: 'u' :: hexChars n) := by
  refine .unicode ?_ .nil
  simp only [List.mem_cons, List.not_mem_nil, or_false, forall_eq_or_imp, forall_eq,
    hexVal_hexChar_all _ (Nat.mod_lt _ (by decide : 0 < 16)), Option.isSome_some, and_self]

/-- What is written for a character stands in a string. -/
theorem chars_escapeChar (c : Char) : Chars (escapeChar c) := by
  rw [escapeChar]
  split_ifs with h₁ h₂ h₃ h₄ h₅ h₆ h₇ h₈ h₉
  · exact .escaped (by simp) .nil
  · exact .escaped (by simp) .nil
  · exact .escaped (by simp) .nil
  · exact .escaped (by simp) .nil
  · exact .escaped (by simp) .nil
  · exact .escaped (by simp) .nil
  · exact .escaped (by simp) .nil
  · exact .unescaped h₈.1 h₁ h₂ .nil
  · exact chars_hexChars _
  · exact (chars_hexChars _).append (chars_hexChars _)

theorem chars_escape (cs : List Char) : Chars (escape cs) := by
  induction cs with
  | nil => exact .nil
  | cons c cs ih => exact (chars_escapeChar c).append ih

variable {F : FloatText}

/-- A value between no white space. -/
theorem Derives.alone {t : List Char} (h : Derives rfc .value t) : Derives rfc .elements t := by
  have helement := Derives.element .nil h .nil
  rwa [List.nil_append, List.append_nil] at helement

theorem derives_items {x : Json} {xs : List Json}
    (h : ∀ v ∈ x :: xs, Derives rfc .value (encode F v)) :
    ∃ t, encode F x ++ encodeItems F xs = t ++ [']'] ∧ Derives rfc .elements t := by
  induction xs generalizing x with
  | nil => exact ⟨encode F x, rfl, (h x (by simp)).alone⟩
  | cons y ys ih =>
    obtain ⟨t, ht, hitems⟩ := ih fun v hv => h v (List.mem_cons_of_mem x hv)
    refine ⟨encode F x ++ ',' :: t, ?_, .elements .nil (h x (by simp)) .nil hitems⟩
    rw [encodeItems, ht, List.append_assoc, List.cons_append]

theorem derives_members {k : String} {v : Json} {ms : List (String × Json)}
    (h : ∀ p ∈ (k, v) :: ms, Derives rfc .value (encode F p.2)) :
    ∃ t, encodeString k ++ ':' :: (encode F v ++ encodeMembers F ms) = t ++ ['}'] ∧
      Derives rfc .members t := by
  induction ms generalizing k v with
  | nil =>
    refine ⟨encodeString k ++ ':' :: encode F v, ?_, ?_⟩
    · rw [encodeMembers, List.append_assoc, List.cons_append]
    · have hmember := Derives.member .nil (chars_escape k.toList) .nil .nil (h (k, v) (by simp))
        .nil
      rwa [List.append_nil] at hmember
  | cons p ms ih =>
    obtain ⟨l, w⟩ := p
    obtain ⟨t, ht, hmembers⟩ := ih fun q hq => h q (List.mem_cons_of_mem (k, v) hq)
    refine ⟨encodeString k ++ ':' :: (encode F v ++ ',' :: t), ?_,
      .members .nil (chars_escape k.toList) .nil .nil (h (k, v) (by simp)) .nil hmembers⟩
    rw [encodeMembers, ht, List.append_assoc, List.cons_append, List.append_assoc,
      List.cons_append]

theorem number_encodeInt (n : ℤ) : Number (encodeInt n) :=
  ⟨encodeInt n, [], [], by simp, intPart_encodeInt n, .inl rfl, .inl rfl⟩

theorem number_of_floatLiteral {t : List Char} (h : FloatLiteral t) : Number t := by
  obtain ⟨i, frac, exp, rfl, hi, hf, he, -⟩ := h
  exact ⟨i, frac, exp, rfl, hi, hf, he⟩

/-- The text of a finite float is a number. -/
theorem number_encodeFloat (hF : ∀ x : PyFloat, x.IsFinite → FloatLiteral (F.repr x)) {x : PyFloat}
    (hx : x.IsFinite) : Number (encodeFloat F x) := by
  have hnumber := number_of_floatLiteral (hF x hx)
  cases x with
  | finite q => exact hnumber
  | negZero => exact hnumber
  | posInf | negInf | nan => exact absurd hx (by decide)

/-- **A value whose floats are finite is written as a text of the grammar.** -/
theorem derives_encode (hF : ∀ x : PyFloat, x.IsFinite → FloatLiteral (F.repr x)) {v : Json}
    (h : v.AllFloats PyFloat.IsFinite) : Derives rfc .value (encode F v) := by
  induction v with
  | null => exact .literal (by simp [encode, rfc])
  | bool b =>
    cases b with
    | true => exact .literal (by simp [encode, rfc])
    | false => exact .literal (by simp [encode, rfc])
  | int n => exact .number (number_encodeInt n)
  | float x => exact .number (number_encodeFloat hF (h x (by simp [floats])))
  | str s => exact .string (chars_escape s.toList)
  | arr xs ih =>
    cases xs with
    | nil => exact .emptyArray .nil
    | cons x xs =>
      obtain ⟨t, ht, hitems⟩ := derives_items (F := F) fun v hv => ih v hv (h.item hv)
      rw [encode, ht]
      exact .array hitems
  | obj ms ih =>
    cases ms with
    | nil => exact .emptyObject .nil
    | cons p ms =>
      obtain ⟨k, v⟩ := p
      obtain ⟨t, ht, hmembers⟩ := derives_members (F := F) fun q hq => ih q hq (h.member hq)
      rw [encode, ht]
      exact .object hmembers

/-- A text whose strings are closed, and that is not plain outside them where `P` holds. -/
def Marked (t : List Char) (P : Prop) : Prop := ∃ k, Marks t k ∧ (P → ∃ c ∈ k, ¬ Plain c)

theorem Marked.append {t t' : List Char} {P P' : Prop} (h : Marked t P) (h' : Marked t' P') :
    Marked (t ++ t') (P ∨ P') := by
  obtain ⟨k, hk, hmark⟩ := h
  obtain ⟨k', hk', hmark'⟩ := h'
  refine ⟨k ++ k', hk.append hk', ?_⟩
  rintro (hP | hP')
  · obtain ⟨c, hc, hplain⟩ := hmark hP
    exact ⟨c, List.mem_append_left _ hc, hplain⟩
  · obtain ⟨c, hc, hplain⟩ := hmark' hP'
    exact ⟨c, List.mem_append_right _ hc, hplain⟩

theorem Marked.imp {t : List Char} {P P' : Prop} (h : Marked t P) (hP : P' → P) : Marked t P' := by
  obtain ⟨k, hk, hmark⟩ := h
  exact ⟨k, hk, fun hP' => hmark (hP hP')⟩

theorem Marked.of_mem {t : List Char} {c : Char} {P : Prop} (hquote : '"' ∉ t) (hc : c ∈ t)
    (hplain : ¬ Plain c) : Marked t P :=
  ⟨t, .of_no_quote hquote, fun _ => ⟨c, hc, hplain⟩⟩

theorem AllPlain.marked {t : List Char} (h : AllPlain t) : Marked t False := by
  obtain ⟨k, hk, -⟩ := h
  exact ⟨k, hk, False.elim⟩

theorem Marked.cons {c : Char} {t : List Char} {P : Prop} (hc : c ≠ '"') (h : Marked t P) :
    Marked (c :: t) P := by
  have hmarked : Marked ([c] ++ t) (False ∨ P) :=
    Marked.append ⟨[c], .of_no_quote (by simpa using hc.symm), False.elim⟩ h
  exact hmarked.imp .inr

theorem marked_items {xs : List Json}
    (h : ∀ v ∈ xs, Marked (encode F v) (¬ v.AllFloats PyFloat.IsFinite)) :
    Marked (encodeItems F xs) (∃ v ∈ xs, ¬ v.AllFloats PyFloat.IsFinite) := by
  induction xs with
  | nil => exact ⟨[']'], .of_no_quote (by simp [encodeItems]), by simp⟩
  | cons x xs ih =>
    have hmarked := (h x (by simp)).append (ih fun v hv => h v (List.mem_cons_of_mem x hv))
    exact .cons (by decide) (hmarked.imp fun hnot => by simpa using hnot)

theorem marked_members {ms : List (String × Json)}
    (h : ∀ p ∈ ms, Marked (encode F p.2) (¬ p.2.AllFloats PyFloat.IsFinite)) :
    Marked (encodeMembers F ms) (∃ p ∈ ms, ¬ p.2.AllFloats PyFloat.IsFinite) := by
  induction ms with
  | nil => exact ⟨['}'], .of_no_quote (by simp [encodeMembers]), by simp⟩
  | cons p ms ih =>
    obtain ⟨k, v⟩ := p
    have hkey := (chars_escape k.toList).allPlain.marked
    have hrest := ih fun q hq => h q (List.mem_cons_of_mem (k, v) hq)
    have hmarked := (h (k, v) (by simp)).append hrest
    refine .cons (by decide) ((hkey.append (.cons (by decide) hmarked)).imp fun hnot => .inr ?_)
    simpa using hnot

/-- What is written closes its strings, and shows a float that is no number outside them. -/
theorem marked_encode (hF : ∀ x : PyFloat, x.IsFinite → FloatLiteral (F.repr x)) (v : Json) :
    Marked (encode F v) (¬ v.AllFloats PyFloat.IsFinite) := by
  have hscalar : ∀ {v : Json}, v.AllFloats PyFloat.IsFinite →
      Marked (encode F v) (¬ v.AllFloats PyFloat.IsFinite) := fun hfinite =>
    (derives_encode hF hfinite).plain.marked.imp fun hnot => hnot hfinite
  induction v with
  -- Text without such a float: only that its strings are closed has to be shown.
  | null | bool | int | str => exact hscalar (by simp [AllFloats, floats])
  | float x =>
    by_cases hx : x.IsFinite
    · exact hscalar (by simpa [AllFloats, floats] using hx)
    -- The three floats that are no numbers are written with a capital in front.
    · cases x with
      | finite q => exact absurd rfl hx
      | negZero => exact absurd rfl hx
      | nan =>
        exact .of_mem (t := "NaN".toList) (c := 'N') (by decide) (by decide) (by simp [Plain])
      | posInf =>
        exact .of_mem (t := "Infinity".toList) (c := 'I') (by decide) (by decide) (by simp [Plain])
      | negInf =>
        exact .of_mem (t := "-Infinity".toList) (c := 'I') (by decide) (by decide) (by simp [Plain])
  | arr xs ih =>
    cases xs with
    | nil => exact hscalar (by simp [AllFloats, floats, floatsItems])
    | cons x xs =>
      have hitems := marked_items fun v hv => ih v (List.mem_cons_of_mem x hv)
      refine .cons (by decide) (((ih x (by simp)).append hitems).imp fun hnot => ?_)
      -- Were all the items finite, the array would be.
      by_contra hall
      rw [not_or, not_not, not_exists] at hall
      refine hnot (.arr ?_)
      simpa [not_and, not_not] using hall
  | obj ms ih =>
    cases ms with
    | nil => exact hscalar (by simp [AllFloats, floats, floatsMembers])
    | cons p ms =>
      obtain ⟨k, v⟩ := p
      have hkey := (chars_escape k.toList).allPlain.marked
      have hmembers := marked_members fun q hq => ih q (List.mem_cons_of_mem (k, v) hq)
      refine .cons (by decide) ((hkey.append (.cons (by decide)
        ((ih (k, v) (by simp)).append hmembers))).imp fun hnot => ?_)
      by_contra hall
      rw [not_or, not_or, not_not, not_exists] at hall
      refine hnot (.obj ?_)
      simpa [not_and, not_not] using hall.2

/-- **What is written is a text of the grammar iff its floats are finite.** -/
theorem text_encode_iff (hF : ∀ x : PyFloat, x.IsFinite → FloatLiteral (F.repr x)) (v : Json) :
    Text (encode F v) ↔ v.AllFloats PyFloat.IsFinite := by
  constructor
  · intro h
    by_contra hnot
    -- The capital that is written stands outside the strings, where the grammar has none.
    obtain ⟨k, hk, hmark⟩ := marked_encode hF v
    obtain ⟨k', hk', hplain⟩ := h.plain
    obtain ⟨c, hc, hc'⟩ := hmark hnot
    rw [hk.unique hk'] at hc
    exact hc' (hplain c hc)
  · intro h
    exact ⟨[], encode F v, [], by simp, .nil, derives_encode hF h, .nil⟩

end Rfc8259
