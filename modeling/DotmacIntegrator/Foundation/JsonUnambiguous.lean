import DotmacIntegrator.Foundation.JsonKeyOrder
import DotmacIntegrator.Foundation.JsonRoundTrip
import DotmacIntegrator.Foundation.Unambiguous

/-!
# The texts of values are unambiguous

No two values have one text, and the text of a value shows where it ends. Of numbers it is assumed
that no two have one text, and that none has a bracket, a quote or a separator in it.

## Main definitions

* `Json.NumberTexts`: what is assumed of the texts of numbers
* `Json.opening`: the first character of strings, arrays and objects

## Main results

* `NumberTexts.of_roundTrips`: floats that are read back have such texts
* `toldApart_encode`: the text of a value, in front of a delimiter, is that of no other value
* `eqUpToOrder_of_encode_sortKeys_eq`: values with one canonical text are equal up to the order of
  keys
-/

namespace Json

/-- The characters that open, close and separate. -/
def delimiters : List Char := ['"', '[', ']', '{', '}', ',', ':']

/-- An integer, or a float that meets `D`. -/
def IsNumber (D : PyFloat → Prop) : Json → Prop
  | int _ => True
  | float x => D x
  | _ => False

/-- A value that is written by its name, but for the floats that are. -/
def IsConstant : Json → Prop
  | null => True
  | bool _ => True
  | _ => False

/-- The texts of the floats that meet `D` are numerals: they start as such and have no delimiter in
them, and no two numbers have one text. -/
structure NumberTexts (F : FloatText) (D : PyFloat → Prop) : Prop where
  starts : ∀ x, D x → x.IsFinite → ∃ c cs, F.repr x = c :: cs ∧ (c = '-' ∨ c.isDigit)
  undelimited : ∀ x, D x → x.IsFinite → ∀ c ∈ F.repr x, c ∉ delimiters
  injective : ∀ u v, IsNumber D u → IsNumber D v → encode F u = encode F v → u = v

/-- The character a string, an array or an object starts with. -/
def opening : Json → Option Char
  | str _ => some '"'
  | arr _ => some '['
  | obj _ => some '{'
  | _ => none

variable {F : FloatText} {D : PyFloat → Prop}

/-! ### Numbers and constants -/

theorem encodeFloat_of_isFinite {x : PyFloat} (h : x.IsFinite) : encodeFloat F x = F.repr x := by
  cases x with
  | finite q => rfl
  | negZero => rfl
  | _ => simp [PyFloat.IsFinite, PyFloat.value?] at h

@[simp] theorem encodeFloat_nan : encodeFloat F .nan = ['N', 'a', 'N'] := rfl

@[simp] theorem encodeFloat_posInf :
    encodeFloat F .posInf = ['I', 'n', 'f', 'i', 'n', 'i', 't', 'y'] := rfl

@[simp] theorem encodeFloat_negInf :
    encodeFloat F .negInf = ['-', 'I', 'n', 'f', 'i', 'n', 'i', 't', 'y'] := rfl

/-- No delimiter is a sign or a digit. -/
theorem delimiters_not_digit : ∀ c ∈ delimiters, ¬ (c = '-' ∨ c.isDigit) := by
  simp [delimiters]

theorem mem_encodeInt {n : ℤ} {c : Char} (h : c ∈ encodeInt n) : c = '-' ∨ c.isDigit := by
  unfold encodeInt at h
  split_ifs at h
  · rcases List.mem_cons.mp h with rfl | h
    · exact Or.inl rfl
    · exact Or.inr (isDigit_of_mem_toDigits h)
  · exact Or.inr (isDigit_of_mem_toDigits h)

/-- Numbers have no delimiter in their texts. -/
theorem not_mem_delimiters_of_number (hF : NumberTexts F D) {v : Json} (hv : IsNumber D v)
    {c : Char} (h : c ∈ encode F v) : c ∉ delimiters := by
  cases v with
  | int n => exact fun hc => delimiters_not_digit c hc (mem_encodeInt h)
  | float x =>
    rw [encode] at h
    by_cases hfin : x.IsFinite
    · rw [encodeFloat_of_isFinite hfin] at h
      exact hF.undelimited x hv hfin c h
    · -- The others are written by name.
      cases x with
      | finite q => exact absurd rfl hfin
      | negZero => exact absurd rfl hfin
      | _ =>
        revert h c
        simp [delimiters]
  | _ => cases hv

/-- The first characters of numbers: those of numerals, and of the three names. -/
theorem head_of_number (hF : NumberTexts F D) {v : Json} (hv : IsNumber D v) :
    ∃ c cs, encode F v = c :: cs ∧ (c = '-' ∨ c.isDigit ∨ c = 'N' ∨ c = 'I') := by
  cases v with
  | int n =>
    obtain ⟨c, cs, hc, hstart⟩ := (intPart_encodeInt n).head
    exact ⟨c, cs, hc, by tauto⟩
  | float x =>
    by_cases hfin : x.IsFinite
    · obtain ⟨c, cs, hc, hstart⟩ := hF.starts x hv hfin
      exact ⟨c, cs, by rw [encode, encodeFloat_of_isFinite hfin, hc], by tauto⟩
    · cases x with
      | finite q => exact absurd rfl hfin
      | negZero => exact absurd rfl hfin
      | posInf => exact ⟨'I', _, rfl, by decide⟩
      | negInf => exact ⟨'-', _, rfl, by decide⟩
      | nan => exact ⟨'N', _, rfl, by decide⟩
  | _ => cases hv

/-- The constant whose name starts with the character. -/
def constantOf (c : Char) : Json := if c = 'n' then null else bool (c = 't')

/-- The first character of a constant tells which one it is. -/
theorem head_of_constant {v : Json} (hv : IsConstant v) :
    ∃ c cs, encode F v = c :: cs ∧ c ∈ ['n', 't', 'f'] ∧ v = constantOf c := by
  cases v with
  | null => exact ⟨'n', _, rfl, by decide, rfl⟩
  | bool b =>
    cases b with
    | true => exact ⟨'t', _, rfl, by decide, rfl⟩
    | false => exact ⟨'f', _, rfl, by decide, rfl⟩
  | _ => cases hv

theorem eq_of_encode_eq_of_constant {u v : Json} (hu : IsConstant u) (hv : IsConstant v)
    (h : encode F u = encode F v) : u = v := by
  obtain ⟨c, cs, hc, -, hcu⟩ := head_of_constant (F := F) hu
  obtain ⟨d, ds, hd, -, hdv⟩ := head_of_constant (F := F) hv
  rw [hc, hd] at h
  rw [hcu, hdv, (List.cons.inj h).1]

theorem constants_not_number :
    ∀ c ∈ ['n', 't', 'f'], ¬ (c = '-' ∨ c.isDigit ∨ c = 'N' ∨ c = 'I') := by simp

theorem constant_ne_number (hF : NumberTexts F D) {u v : Json} (hu : IsConstant u)
    (hv : IsNumber D v) : encode F u ≠ encode F v := by
  intro h
  obtain ⟨c, cs, hc, hmem, -⟩ := head_of_constant (F := F) hu
  obtain ⟨d, ds, hd, hstart⟩ := head_of_number hF hv
  rw [hc, hd] at h
  obtain rfl := (List.cons.inj h).1
  exact constants_not_number c hmem hstart

/-- A value that is no string, array or object is a constant or a number. -/
theorem constant_or_number {v : Json} (hv : v.AllFloats D) (hopening : v.opening = none) :
    IsConstant v ∨ IsNumber D v := by
  cases v with
  | null => exact Or.inl trivial
  | bool b => exact Or.inl trivial
  | int n => exact Or.inr trivial
  | float x => exact Or.inr (hv x (by simp [floats]))
  | _ => cases hopening

/-- Such a value has no delimiter in its text. -/
theorem not_mem_delimiters_of_bare (hF : NumberTexts F D) {v : Json} (hv : v.AllFloats D)
    (hopening : v.opening = none) {c : Char} (h : c ∈ encode F v) : c ∉ delimiters := by
  rcases constant_or_number hv hopening with hconstant | hnumber
  · cases v with
    | null =>
      revert h c
      simp [encode, delimiters]
    | bool b =>
      revert h c
      cases b <;> simp [encode, delimiters]
    | _ => cases hconstant
  · exact not_mem_delimiters_of_number hF hnumber h

/-- No two such values have one text. -/
theorem eq_of_encode_eq_of_bare (hF : NumberTexts F D) {u v : Json} (hu : u.AllFloats D)
    (hv : v.AllFloats D) (hu' : u.opening = none) (hv' : v.opening = none)
    (h : encode F u = encode F v) : u = v := by
  rcases constant_or_number hu hu' with hcu | hnu <;>
    rcases constant_or_number hv hv' with hcv | hnv
  · exact eq_of_encode_eq_of_constant hcu hcv h
  · exact absurd h (constant_ne_number hF hcu hnv)
  · exact absurd h.symm (constant_ne_number hF hcv hnu)
  · exact hF.injective u v hnu hnv h

/-! ### First characters -/

/-- The first character of a value opens it, if it is a delimiter. -/
theorem head_encode (hF : NumberTexts F D) {v : Json} (hv : v.AllFloats D) :
    ∃ c cs, encode F v = c :: cs ∧ v.opening = if c ∈ delimiters then some c else none := by
  cases v with
  | str s => exact ⟨'"', _, rfl, rfl⟩
  | arr xs => cases xs <;> exact ⟨'[', _, rfl, rfl⟩
  | obj ms => rcases ms with _ | ⟨⟨k, w⟩, ms⟩ <;> exact ⟨'{', _, rfl, rfl⟩
  | null => exact ⟨'n', _, rfl, rfl⟩
  | bool b =>
    cases b with
    | true => exact ⟨'t', _, rfl, rfl⟩
    | false => exact ⟨'f', _, rfl, rfl⟩
  | int n =>
    obtain ⟨c, cs, hc, -⟩ := head_of_number hF (v := .int n) trivial
    have hfree := not_mem_delimiters_of_number hF (v := .int n) trivial (c := c) (by simp [hc])
    exact ⟨c, cs, hc, by rw [if_neg hfree]; rfl⟩
  | float x =>
    have hx : D x := hv x (by simp [floats])
    obtain ⟨c, cs, hc, -⟩ := head_of_number hF (v := .float x) hx
    have hfree := not_mem_delimiters_of_number hF (v := .float x) hx (c := c) (by simp [hc])
    exact ⟨c, cs, hc, by rw [if_neg hfree]; rfl⟩

/-- Values whose texts start alike are opened alike. -/
theorem opening_eq (hF : NumberTexts F D) {u v : Json} (hu : u.AllFloats D) (hv : v.AllFloats D)
    {rest rest' : List Char} (h : encode F u ++ rest = encode F v ++ rest') :
    u.opening = v.opening := by
  obtain ⟨c, cs, hc, hu'⟩ := head_encode hF hu
  obtain ⟨d, ds, hd, hv'⟩ := head_encode hF hv
  rw [hc, hd] at h
  rw [hu', hv', (List.cons.inj h).1]

/-- No value starts with a closing bracket. -/
theorem head_encode_ne (hF : NumberTexts F D) {v : Json} (hv : v.AllFloats D) (rest : List Char) :
    (encode F v ++ rest).head? ≠ some ']' := by
  obtain ⟨c, cs, hc, hopening⟩ := head_encode hF hv
  rw [hc]
  rintro ⟨⟩
  rw [if_pos (by decide)] at hopening
  cases v <;> cases hopening

/-! ### Values -/

/-- A member of an object. -/
def encodeMember (F : FloatText) (p : String × Json) : List Char :=
  encodeString p.1 ++ ':' :: encode F p.2

theorem encodeItems_eq (xs : List Json) :
    encodeItems F xs = writeSeparated ',' ']' (encode F) xs := by
  induction xs with
  | nil => rfl
  | cons x xs ih => rw [encodeItems, ih, writeSeparated]

theorem encodeMembers_eq (ms : List (String × Json)) :
    encodeMembers F ms = writeSeparated ',' '}' (encodeMember F) ms := by
  induction ms with
  | nil => rfl
  | cons p ms ih =>
    rw [encodeMembers, ih, writeSeparated, encodeMember, List.append_assoc, List.cons_append]

/-- An array is its items in brackets. -/
theorem encode_arr (xs : List Json) :
    encode F (arr xs) = writeBracketed '[' ',' ']' (encode F) xs := by
  cases xs with
  | nil => rfl
  | cons x xs => rw [encode, encodeItems_eq, writeBracketed]

/-- An object is its members in braces. -/
theorem encode_obj (ms : List (String × Json)) :
    encode F (obj ms) = writeBracketed '{' ',' '}' (encodeMember F) ms := by
  cases ms with
  | nil => rfl
  | cons p ms =>
    rw [encode, encodeMembers_eq, writeBracketed, encodeMember, List.append_assoc,
      List.cons_append]

/-- A string shows where it ends. -/
theorem toldApart_encodeString (s : String) :
    ToldApart encodeString (fun _ => True) (fun _ => True) s := by
  intro t rest rest' _ _ _ h
  obtain ⟨tail, ht, hscan⟩ := scanString_encodeString s rest
  obtain ⟨tail', ht', hscan'⟩ := scanString_encodeString t rest'
  rw [ht, ht'] at h
  rw [(List.cons.inj h).2, hscan'] at hscan
  obtain ⟨htext, hrest⟩ := Prod.mk.inj (Option.some.inj hscan)
  exact ⟨String.toList_inj.mp htext.symm, hrest.symm⟩

/-- A constant or a number reaches to the delimiter behind it. -/
theorem toldApart_of_bare (hF : NumberTexts F D) {v : Json} (hv : v.AllFloats D)
    (hopening : v.opening = none) : ToldApart (encode F) (AllFloats D) Delimited v := by
  intro b rest rest' hb hrest hrest' h
  have hb' : b.opening = none := (opening_eq hF hv hb h).symm.trans hopening
  have hdelim : ∀ r, Delimited r → ∀ c ∈ r.head?, c ∈ delimiters := by
    intro r hr c hc
    rcases hr c hc with rfl | rfl | rfl <;> decide
  obtain ⟨htext, hend⟩ := append_inj_of_free
    (fun c hc => not_mem_delimiters_of_bare hF hv hopening hc)
    (fun c hc => not_mem_delimiters_of_bare hF hb hb' hc) (hdelim rest hrest)
    (hdelim rest' hrest') h
  exact ⟨eq_of_encode_eq_of_bare hF hv hb hopening hb' htext, hend⟩

/-- A member is its key and its value, when its value is told apart. -/
theorem toldApart_encodeMember {p : String × Json}
    (h : ToldApart (encode F) (AllFloats D) Delimited p.2) :
    ToldApart (encodeMember F) (fun q => True ∧ AllFloats D q.2) Delimited p :=
  (toldApart_encodeString p.1).prod (h.cons ':') fun _ _ => trivial

/-- **The text of a value, in front of a delimiter, is that of no other value.** -/
theorem toldApart_encode (hF : NumberTexts F D) {v : Json} (hv : v.AllFloats D) :
    ToldApart (encode F) (AllFloats D) Delimited v := by
  induction v with
  | str s =>
    intro b rest rest' hb _ _ h
    have hopening := opening_eq hF hv hb h
    cases b with
    | str t =>
      obtain ⟨rfl, hend⟩ := toldApart_encodeString s t rest rest' trivial trivial trivial h
      exact ⟨rfl, hend⟩
    | _ => cases hopening
  | arr xs ih =>
    intro b rest rest' hb _ _ h
    have hopening := opening_eq hF hv hb h
    cases b with
    | arr ys =>
      rw [encode_arr, encode_arr] at h
      have hitems : ToldApart (writeBracketed '[' ',' ']' (encode F))
          (fun ys => ∀ y ∈ ys, AllFloats D y) (fun _ => True) xs := by
        refine ToldApart.bracketed (by decide) ?_ (fun x rest hx => head_encode_ne hF hx rest)
          (fun x hx => hv.item hx) fun x hx => ih x hx (hv.item hx)
        rintro c rest (rfl | rfl) <;> simp [Delimited]
      obtain ⟨rfl, hend⟩ := hitems ys rest rest' (fun y hy => hb.item hy) trivial trivial h
      exact ⟨rfl, hend⟩
    | _ => cases hopening
  | obj ms ih =>
    intro b rest rest' hb _ _ h
    have hopening := opening_eq hF hv hb h
    cases b with
    | obj ns =>
      rw [encode_obj, encode_obj] at h
      have hmembers : ToldApart (writeBracketed '{' ',' '}' (encodeMember F))
          (fun ns => ∀ q ∈ ns, True ∧ AllFloats D q.2) (fun _ => True) ms := by
        refine ToldApart.bracketed (by decide) ?_ ?_ (fun p hp => ⟨trivial, hv.member hp⟩)
          fun p hp => toldApart_encodeMember (ih p hp (hv.member hp))
        · rintro c rest (rfl | rfl) <;> simp [Delimited]
        · -- A member starts with the quote of its key.
          simp [encodeMember, encodeString]
      obtain ⟨rfl, hend⟩ := hmembers ns rest rest' (fun q hq => ⟨trivial, hb.member hq⟩) trivial
        trivial h
      exact ⟨rfl, hend⟩
    | _ => cases hopening
  | _ => exact toldApart_of_bare hF hv rfl

/-- The text of a value is that of no other value. -/
theorem eq_of_encode_eq (hF : NumberTexts F D) {u v : Json} (hu : u.AllFloats D)
    (hv : v.AllFloats D) (h : encode F u = encode F v) : u = v :=
  (toldApart_encode hF hu).eq_of_eq Delimited.nil hv h

/-! ### Floats that are read back -/

/-- The characters of float literals. -/
def literalChar (c : Char) : Prop := c.isDigit ∨ c ∈ ['-', '+', '.', 'e', 'E']

theorem literalChar_of_digit {c : Char} (h : c = '-' ∨ c.isDigit) : literalChar c := by
  rcases h with rfl | h
  · exact Or.inr List.mem_cons_self
  · exact Or.inl h

/-- Neither a point nor the letter of an exponent is a sign or a digit. -/
theorem point_not_digit : ∀ c ∈ ['.', 'e', 'E'], ¬ (c = '-' ∨ c.isDigit) := by simp

theorem names_not_literal : ∀ c ∈ ['N', 'I'], ¬ literalChar c := by simp [literalChar]

theorem delimiters_not_literal : ∀ c ∈ delimiters, ¬ literalChar c := by
  simp [delimiters, literalChar]

theorem literalChar_of_mem {t : List Char} (ht : FloatLiteral t) {c : Char} (h : c ∈ t) :
    literalChar c := by
  obtain ⟨i, frac, exp, rfl, ⟨sign, ds, rfl, hsign, hds, -⟩, hfrac, hexp, -⟩ := ht
  rw [List.mem_append, List.mem_append, List.mem_append] at h
  rcases h with ((h | h) | h) | h
  · rcases hsign with rfl | rfl
    · cases h
    · exact literalChar_of_digit (Or.inl (List.mem_singleton.mp h))
  · exact Or.inl (hds.2 c h)
  · rcases hfrac with rfl | ⟨fs, rfl, hfs⟩
    · cases h
    · rcases List.mem_cons.mp h with rfl | h
      · exact Or.inr (by decide)
      · exact Or.inl (hfs.2 c h)
  · rcases hexp with rfl | ⟨e, esign, es, rfl, he, hesign, hes⟩
    · cases h
    · rw [List.mem_cons, List.mem_append] at h
      rcases h with rfl | h | h
      · rcases he with rfl | rfl <;> exact Or.inr (by decide)
      · rcases hesign with rfl | rfl | rfl <;> simp_all [literalChar]
      · exact Or.inl (hes.2 c h)

/-- A float literal has a point or an exponent. -/
theorem exists_mem_floatLiteral {t : List Char} (ht : FloatLiteral t) :
    ∃ c ∈ t, c ∈ ['.', 'e', 'E'] := by
  obtain ⟨i, frac, exp, rfl, -, hfrac, hexp, hne⟩ := ht
  rcases hfrac with rfl | ⟨fs, rfl, -⟩
  · rcases hexp with rfl | ⟨e, esign, es, rfl, he, -⟩
    · simp at hne
    · exact ⟨e, by simp, by rcases he with rfl | rfl <;> decide⟩
  · exact ⟨'.', by simp, by decide⟩

/-- The names have a character that no numeral has. -/
theorem exists_mem_name {x : PyFloat} (h : ¬ x.IsFinite) :
    ∃ c ∈ encodeFloat F x, c ∈ ['N', 'I'] := by
  cases x with
  | finite q => exact absurd rfl h
  | negZero => exact absurd rfl h
  | posInf => exact ⟨'I', by simp, by decide⟩
  | negInf => exact ⟨'I', by simp, by decide⟩
  | nan => exact ⟨'N', by simp, by decide⟩

/-- A float that is written as an integer is none that is read back. -/
theorem encodeInt_ne_encodeFloat {x : PyFloat} (hx : x.IsFinite → F.RoundTrips x) (n : ℤ) :
    encodeInt n ≠ encodeFloat F x := by
  intro h
  by_cases hfin : x.IsFinite
  · rw [encodeFloat_of_isFinite hfin] at h
    obtain ⟨c, hc, hmem⟩ := exists_mem_floatLiteral (hx hfin).1
    exact point_not_digit c hmem (mem_encodeInt (h ▸ hc))
  · obtain ⟨c, hc, hmem⟩ := exists_mem_name (F := F) hfin
    exact names_not_literal c hmem (literalChar_of_digit (mem_encodeInt (h ▸ hc)))

theorem repr_ne_name {x y : PyFloat} (hx : F.RoundTrips x) (hy : ¬ y.IsFinite) :
    F.repr x ≠ encodeFloat F y := by
  intro h
  obtain ⟨c, hc, hmem⟩ := exists_mem_name (F := F) hy
  exact names_not_literal c hmem (literalChar_of_mem hx.1 (h ▸ hc))

theorem encodeFloat_injective {x y : PyFloat} (hx : x.IsFinite → F.RoundTrips x)
    (hy : y.IsFinite → F.RoundTrips y) (h : encodeFloat F x = encodeFloat F y) : x = y := by
  by_cases hfx : x.IsFinite <;> by_cases hfy : y.IsFinite
  · rw [encodeFloat_of_isFinite hfx, encodeFloat_of_isFinite hfy] at h
    rw [← (hx hfx).2, h, (hy hfy).2]
  · rw [encodeFloat_of_isFinite hfx] at h
    exact absurd h (repr_ne_name (hx hfx) hfy)
  · rw [encodeFloat_of_isFinite hfy] at h
    exact absurd h.symm (repr_ne_name (hy hfy) hfx)
  · cases x <;> cases y <;> simp_all [PyFloat.IsFinite, PyFloat.value?]

/-- **Floats that are read back have texts of numbers.** -/
theorem NumberTexts.of_roundTrips (h : ∀ x, D x → x.IsFinite → F.RoundTrips x) :
    NumberTexts F D where
  starts x hx hfin := (h x hx hfin).1.head
  undelimited x hx hfin c hc hmem :=
    delimiters_not_literal c hmem (literalChar_of_mem (h x hx hfin).1 hc)
  injective u v hu hv heq := by
    cases u with
    | int m =>
      cases v with
      | int n => rw [← readInt_encodeInt m, show encodeInt m = encodeInt n from heq,
          readInt_encodeInt]
      | float y => exact absurd heq (encodeInt_ne_encodeFloat (h y hv) m)
      | _ => cases hv
    | float x =>
      cases v with
      | int n => exact absurd heq.symm (encodeInt_ne_encodeFloat (h x hu) n)
      | float y => rw [encodeFloat_injective (h x hu) (h y hv) heq]
      | _ => cases hv
    | _ => cases hu

/-! ### Canonical texts -/

/-- Sorting keys leaves the numbers as they are. -/
theorem allFloats_sortKeys {v : Json} (hv : v.AllFloats D) : v.sortKeys.AllFloats D := by
  induction v with
  | arr xs ih =>
    rw [sortKeys, sortItems_eq_map]
    refine .arr fun w hw => ?_
    obtain ⟨x, hx, rfl⟩ := List.mem_map.mp hw
    exact ih x hx (hv.item hx)
  | obj ms ih =>
    rw [sortKeys, sortMembers_eq_map]
    refine .obj fun q hq => ?_
    obtain ⟨p, hp, rfl⟩ := List.mem_map.mp ((List.mergeSort_perm _ _).mem_iff.mp hq)
    exact ih p hp (hv.member hp)
  | _ => exact hv

/-- **Values with one canonical text are equal up to the order of keys.** -/
theorem eqUpToOrder_of_encode_sortKeys_eq (hF : NumberTexts F D) {u v : Json}
    (hu : u.AllFloats D) (hv : v.AllFloats D)
    (h : encode F u.sortKeys = encode F v.sortKeys) : EqUpToOrder u v :=
  eqUpToOrder_of_sortKeys_eq (eq_of_encode_eq hF (allFloats_sortKeys hu) (allFloats_sortKeys hv) h)

end Json
