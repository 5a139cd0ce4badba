import DotmacIntegrator.Foundation.JsonParse

/-!
# Written JSON is read back

## Main definitions

* `FloatText.RoundTrips`: the text of a float is a float literal, and is read as that float
* `Json.Writable`: the values whose text names them: distinct keys, integers short enough to be
  written, and floats whose text names them
* `Json.fuel`: the fuel the reader needs for the text of a value

## Main results

* `parseValue_encode`: the reader finds a written value in front of a delimiter
* `loads_encode`: reading inverts writing on writable values
-/

/-- The text of `x` is a float literal that is read as `x`. -/
def FloatText.RoundTrips (F : FloatText) (x : PyFloat) : Prop :=
  Json.FloatLiteral (F.repr x) ∧ F.read (F.repr x) = x

namespace Json

variable (F : FloatText)

/-- The values whose compact text is read back. -/
structure Writable (v : Json) : Prop where
  printable : v.Printable
  floats : v.AllFloats fun x => x.IsFinite → F.RoundTrips x
  keys : v.DistinctKeys

variable {F}

theorem Writable.item {xs : List Json} (h : Writable F (arr xs)) {v : Json} (hv : v ∈ xs) :
    Writable F v where
  printable n hn := h.printable n (mem_intsItems.mpr ⟨v, hv, hn⟩)
  floats := h.floats.item hv
  keys := distinctKeysItems_iff.mp h.keys v hv

theorem Writable.member {ms : List (String × Json)} (h : Writable F (obj ms))
    {p : String × Json} (hp : p ∈ ms) : Writable F p.2 where
  printable n hn := h.printable n (mem_intsMembers.mpr ⟨p, hp, hn⟩)
  floats := h.floats.member hp
  keys := distinctKeysMembers_iff.mp h.keys.2 p hp

mutual

/-- The fuel the reader needs for a value. -/
def fuel : Json → ℕ
  | arr xs => 1 + fuelItems xs
  | obj ms => 1 + fuelMembers ms
  | _ => 1

/-- The fuel the reader needs for the items of an array. -/
def fuelItems : List Json → ℕ
  | [] => 0
  | x :: xs => 1 + fuel x + fuelItems xs

/-- The fuel the reader needs for the members of an object. -/
def fuelMembers : List (String × Json) → ℕ
  | [] => 0
  | (_, v) :: ms => 1 + fuel v + fuelMembers ms

end

/-! ### First characters -/

/-- The first characters of texts that are numbers or names of values. -/
def Starts (c : Char) : Prop :=
  c ≠ ' ' ∧ c ≠ '\t' ∧ c ≠ '\n' ∧ c ≠ '\r' ∧ c ≠ ']' ∧ c ≠ '}'

instance (c : Char) : Decidable (Starts c) := by unfold Starts; infer_instance

theorem starts_of_sign_or_digit {c : Char} (h : c = '-' ∨ c.isDigit) : Starts c := by
  refine ⟨?_, ?_, ?_, ?_, ?_, ?_⟩ <;> rintro rfl <;> revert h <;> decide

theorem IntPart.head {i : List Char} (h : IntPart i) :
    ∃ c cs, i = c :: cs ∧ (c = '-' ∨ c.isDigit) := by
  obtain ⟨sign, ds, rfl, rfl | rfl, hd, -⟩ := h
  · obtain ⟨c, cs, rfl⟩ := List.exists_cons_of_ne_nil hd.1
    exact ⟨c, cs, rfl, Or.inr (hd.2 c (by simp))⟩
  · exact ⟨_, _, rfl, Or.inl rfl⟩

theorem FloatLiteral.head {t : List Char} (h : FloatLiteral t) :
    ∃ c cs, t = c :: cs ∧ (c = '-' ∨ c.isDigit) := by
  obtain ⟨i, frac, exp, rfl, hi, -⟩ := h
  obtain ⟨c, cs, rfl, hc⟩ := hi.head
  exact ⟨c, cs ++ frac ++ exp, by simp, hc⟩

/-- The first character of a written value. -/
theorem encode_head {v : Json} (h : Writable F v) :
    ∃ c cs, encode F v = c :: cs ∧ Starts c := by
  cases v with
  | null => exact ⟨_, _, rfl, by decide⟩
  | bool b => cases b <;> exact ⟨_, _, rfl, by decide⟩
  | int n =>
    obtain ⟨c, cs, hc, hs⟩ := (intPart_encodeInt n).head
    exact ⟨c, cs, by rw [encode, hc], starts_of_sign_or_digit hs⟩
  | float x =>
    -- The text of a finite float is a literal.
    have hfin : x.IsFinite → ∃ c cs, F.repr x = c :: cs ∧ Starts c := fun hx => by
      obtain ⟨c, cs, hc, hs⟩ := (h.floats x (by simp [Json.floats]) hx).1.head
      exact ⟨c, cs, hc, starts_of_sign_or_digit hs⟩
    cases x with
    | finite q => exact hfin (by simp [PyFloat.IsFinite, PyFloat.value?])
    | negZero => exact hfin (by simp [PyFloat.IsFinite, PyFloat.value?])
    | posInf => exact ⟨_, _, rfl, by decide⟩
    | negInf => exact ⟨_, _, rfl, by decide⟩
    | nan => exact ⟨_, _, rfl, by decide⟩
  | str s => exact ⟨_, _, rfl, by decide⟩
  | arr xs => cases xs <;> exact ⟨_, _, rfl, by decide⟩
  | obj ms => rcases ms with _ | ⟨⟨k, w⟩, ms⟩ <;> exact ⟨_, _, rfl, by decide⟩

theorem skipWs_of_starts {c : Char} (h : Starts c) (cs : List Char) :
    skipWs (c :: cs) = c :: cs := by
  obtain ⟨h₁, h₂, h₃, h₄, -⟩ := h
  simp [skipWs, h₁, h₂, h₃, h₄]

theorem skipWs_encode {v : Json} (h : Writable F v) (rest : List Char) :
    skipWs (encode F v ++ rest) = encode F v ++ rest := by
  obtain ⟨c, cs, hc, hs⟩ := encode_head h
  rw [hc, List.cons_append, skipWs_of_starts hs]

/-! ### One value -/

theorem scanConstant_of_sign_or_digit {c : Char} {cs : List Char}
    (h : c.isDigit ∨ c = '-' ∧ ∀ d ∈ cs.head?, d.isDigit) : scanConstant (c :: cs) = none := by
  rcases h with h | ⟨rfl, h⟩
  · have hne : ∀ d : Char, d.isDigit = false → d ≠ c := by
      rintro d hd rfl
      simp [h] at hd
    simp [scanConstant, constants, List.isPrefixOf?, hne]
  · cases cs with
    | nil => decide
    | cons d cs =>
      have hd := h d (by simp)
      have hne : 'I' ≠ d := by
        rintro rfl
        revert hd
        decide
      simp [scanConstant, constants, List.isPrefixOf?, hne]

theorem IntPart.scanConstant {i : List Char} (h : IntPart i) (rest : List Char) :
    scanConstant (i ++ rest) = none := by
  obtain ⟨sign, ds, rfl, rfl | rfl, hd, -⟩ := h <;>
    obtain ⟨c, cs, rfl⟩ := List.exists_cons_of_ne_nil hd.1
  -- No constant starts with a digit, and none has a digit behind a sign.
  · exact scanConstant_of_sign_or_digit (Or.inl (hd.2 c (by simp)))
  · refine scanConstant_of_sign_or_digit (Or.inr ⟨rfl, ?_⟩)
    simpa using hd.2 c (by simp)

/-- A text that no bracket, brace or quote starts is a constant or a number. -/
theorem parseValue_scalar {n : ℕ} {i rest : List Char} (hi : IntPart i) :
    parseValue F (n + 1) (i ++ rest) = scanNumber F (i ++ rest) := by
  have hconst := hi.scanConstant rest
  obtain ⟨c, cs, rfl, hc⟩ := hi.head
  have hne : c ≠ '"' ∧ c ≠ '[' ∧ c ≠ '{' := by
    refine ⟨?_, ?_, ?_⟩ <;> rintro rfl <;> revert hc <;> decide
  rw [List.cons_append] at hconst ⊢
  rw [parseValue, if_neg hne.1, if_neg hne.2.1, if_neg hne.2.2, hconst, Option.none_or]

theorem parseValue_floatLiteral {n : ℕ} {t rest : List Char} (ht : FloatLiteral t)
    (hr : Delimited rest) :
    parseValue F (n + 1) (t ++ rest) = some (float (F.read t), rest) := by
  have hscan := scanNumber_floatLiteral F ht hr
  obtain ⟨i, frac, exp, rfl, hi, -⟩ := ht
  rw [List.append_assoc, List.append_assoc] at hscan ⊢
  rw [parseValue_scalar hi, hscan]

/-- The items of a written array, when each of them is read back. -/
theorem parseItems_encode {x : Json} {xs : List Json} {n : ℕ} {rest : List Char}
    (h : ∀ v ∈ x :: xs, Writable F v ∧ ∀ n rest, fuel v ≤ n → Delimited rest →
      parseValue F n (encode F v ++ rest) = some (v, rest))
    (hn : fuelItems (x :: xs) ≤ n) :
    parseItems F n (encode F x ++ (encodeItems F xs ++ rest)) = some (x :: xs, rest) := by
  -- Induction on the items behind the first; each costs one unit of fuel and its own.
  induction xs generalizing x n with
  | nil =>
    obtain ⟨m, rfl⟩ : ∃ m, n = m + 1 := ⟨n - 1, by simp only [fuelItems] at hn; omega⟩
    simp only [fuelItems] at hn
    have hx := (h x (by simp)).2 m (encodeItems F [] ++ rest) (by omega)
      (Delimited.encodeItems F [] rest)
    rw [parseItems, hx]
    simp [encodeItems, skipWs]
  | cons y ys ih =>
    obtain ⟨m, rfl⟩ : ∃ m, n = m + 1 := ⟨n - 1, by simp only [fuelItems] at hn; omega⟩
    simp only [fuelItems] at hn
    have hx := (h x (by simp)).2 m (encodeItems F (y :: ys) ++ rest) (by omega)
      (Delimited.encodeItems F _ rest)
    have hys := ih (x := y) (n := m) (fun v hv => h v (by simp [List.mem_cons.mp hv]))
      (by simp only [fuelItems]; omega)
    have hws := skipWs_encode (h y (by simp)).1 (encodeItems F ys ++ rest)
    rw [parseItems, hx]
    simp only [encodeItems, List.cons_append, List.append_assoc]
    rw [skipWs_of_starts (by decide)]
    simp only [hws, hys, Option.map_some]

/-- The members of a written object, when the value of each is read back. -/
theorem parseMembers_encode {k : String} {v : Json} {ms : List (String × Json)} {n : ℕ}
    {rest : List Char}
    (h : ∀ p ∈ (k, v) :: ms, Writable F p.2 ∧ ∀ n rest, fuel p.2 ≤ n → Delimited rest →
      parseValue F n (encode F p.2 ++ rest) = some (p.2, rest))
    (hn : fuelMembers ((k, v) :: ms) ≤ n) :
    parseMembers F n (encodeString k ++ ':' :: (encode F v ++ (encodeMembers F ms ++ rest))) =
      some ((k, v) :: ms, rest) := by
  -- Induction on the members behind the first, as for items.
  induction ms generalizing k v n with
  | nil =>
    obtain ⟨m, rfl⟩ : ∃ m, n = m + 1 := ⟨n - 1, by simp only [fuelMembers] at hn; omega⟩
    simp only [fuelMembers] at hn
    have hv := (h (k, v) (by simp)).2 m (encodeMembers F [] ++ rest) (by simp; omega)
      (Delimited.encodeMembers F [] rest)
    have hws := skipWs_encode (h (k, v) (by simp)).1 (encodeMembers F [] ++ rest)
    obtain ⟨tail, ht, hscan⟩ :=
      scanString_encodeString k (':' :: (encode F v ++ (encodeMembers F [] ++ rest)))
    rw [ht, parseMembers]
    simp only [hscan]
    rw [skipWs_of_starts (by decide)]
    simp only [hws, hv]
    simp [encodeMembers, skipWs]
  | cons p ms ih =>
    obtain ⟨l, w⟩ := p
    obtain ⟨m, rfl⟩ : ∃ m, n = m + 1 := ⟨n - 1, by simp only [fuelMembers] at hn; omega⟩
    simp only [fuelMembers] at hn
    have hv := (h (k, v) (by simp)).2 m (encodeMembers F ((l, w) :: ms) ++ rest) (by simp; omega)
      (Delimited.encodeMembers F _ rest)
    have hms := ih (k := l) (v := w) (n := m) (fun q hq => h q (by simp [List.mem_cons.mp hq]))
      (by simp only [fuelMembers]; omega)
    have hws := skipWs_encode (h (k, v) (by simp)).1 (encodeMembers F ((l, w) :: ms) ++ rest)
    obtain ⟨tail, ht, hscan⟩ :=
      scanString_encodeString k (':' :: (encode F v ++ (encodeMembers F ((l, w) :: ms) ++ rest)))
    rw [ht, parseMembers]
    simp only [hscan]
    rw [skipWs_of_starts (by decide)]
    simp only [hws, hv]
    simp only [encodeMembers, List.cons_append, List.append_assoc]
    rw [skipWs_of_starts (by decide)]
    simp only [encodeString, List.cons_append, List.append_assoc] at hms ⊢
    rw [skipWs_of_starts (by decide)]
    simp only [hms, Option.map_some, String.ofList_toList]

/-- A value written by name is read back. -/
theorem parseValue_constant {c : Char} {cs : List Char} {v : Json}
    (hc : c ≠ '"' ∧ c ≠ '[' ∧ c ≠ '{')
    (hscan : ∀ rest, scanConstant (c :: cs ++ rest) = some (v, rest)) (n : ℕ)
    (rest : List Char) : parseValue F (n + 1) (c :: cs ++ rest) = some (v, rest) := by
  have := hscan rest
  rw [List.cons_append] at this ⊢
  rw [parseValue, if_neg hc.1, if_neg hc.2.1, if_neg hc.2.2, this, Option.some_or]

/-- **A written value is read back** in front of a delimiter. -/
theorem parseValue_encode (v : Json) (hv : Writable F v) :
    ∀ n rest, fuel v ≤ n → Delimited rest →
      parseValue F n (encode F v ++ rest) = some (v, rest) := by
  -- One case per kind of value; no case has fuel zero, since `fuel` is positive.
  induction v with
  | null =>
    rintro (_ | n) rest hn -
    · simp [fuel] at hn
    · exact parseValue_constant (by decide) (fun _ => rfl) n rest
  | bool b =>
    rintro (_ | n) rest hn -
    · simp [fuel] at hn
    · cases b with
      | true =>
        exact parseValue_constant (by decide) (fun _ => rfl) n rest
      | false =>
        exact parseValue_constant (by decide) (fun _ => rfl) n rest
  | int k =>
    rintro (_ | n) rest hn hr
    · simp [fuel] at hn
    · rw [encode, parseValue_scalar (intPart_encodeInt k)]
      exact scanNumber_encodeInt F (hv.printable k (by simp [ints])) hr
  | float x =>
    rintro (_ | n) rest hn hr
    · simp [fuel] at hn
    · -- A finite float is a literal; the others are written by name.
      have hfin : x.IsFinite →
          parseValue F (n + 1) (F.repr x ++ rest) = some (float x, rest) := by
        intro hx
        obtain ⟨hlit, hread⟩ := hv.floats x (by simp [Json.floats]) hx
        rw [parseValue_floatLiteral hlit hr, hread]
      cases x with
      | finite q => exact hfin (by simp [PyFloat.IsFinite, PyFloat.value?])
      | negZero => exact hfin (by simp [PyFloat.IsFinite, PyFloat.value?])
      | posInf =>
        exact parseValue_constant (by decide) (fun _ => rfl) n rest
      | negInf =>
        exact parseValue_constant (by decide) (fun _ => rfl) n rest
      | nan =>
        exact parseValue_constant (by decide) (fun _ => rfl) n rest
  | str t =>
    rintro (_ | n) rest hn -
    · simp [fuel] at hn
    · obtain ⟨tail, ht, hscan⟩ := scanString_encodeString t rest
      rw [encode, ht, parseValue, if_pos rfl, hscan, Option.map_some, String.ofList_toList]
  | arr xs ih =>
    rintro (_ | n) rest hn hr
    · simp [fuel] at hn
    · cases xs with
      | nil => simp [encode, parseValue, skipWs]
      | cons x xs =>
        have hx : Writable F x := hv.item (by simp)
        have hitems : parseItems F n (encode F x ++ (encodeItems F xs ++ rest)) =
            some (x :: xs, rest) := by
          refine parseItems_encode (fun w hw => ⟨hv.item hw, ih w hw (hv.item hw)⟩) ?_
          simp only [fuel] at hn
          omega
        -- The first item does not start with a closing bracket, so that the array is not empty.
        obtain ⟨c, cs, hc, hs⟩ := encode_head hx
        have hws := skipWs_encode hx (encodeItems F xs ++ rest)
        simp only [encode, List.cons_append, List.append_assoc]
        rw [parseValue, if_neg (by decide), if_pos rfl, hws, if_neg, hitems, Option.map_some]
        rw [hc, List.cons_append, List.head?_cons, Option.some.injEq]
        exact hs.2.2.2.2.1
  | obj ms ih =>
    rintro (_ | n) rest hn hr
    · simp [fuel] at hn
    · rcases ms with _ | ⟨⟨k, w⟩, ms⟩
      · simp [encode, parseValue, skipWs]
      · have hmembers : parseMembers F n
            (encodeString k ++ ':' :: (encode F w ++ (encodeMembers F ms ++ rest))) =
              some ((k, w) :: ms, rest) := by
          refine parseMembers_encode (fun p hp => ⟨hv.member hp, ih p hp (hv.member hp)⟩) ?_
          simp only [fuel] at hn
          omega
        -- Distinct keys: that the last of several equal keys wins loses no member.
        simp only [encode, encodeString, List.cons_append, List.append_assoc] at hmembers ⊢
        rw [parseValue, if_neg (by decide), if_neg (by decide), if_pos rfl,
          skipWs_of_starts (by decide), if_neg (by simp), hmembers, Option.map_some,
          Dict.ofPairs_of_nodup hv.keys.1]

/-! ### Whole texts -/

theorem length_encode_pos {v : Json} (h : Writable F v) : 0 < (encode F v).length := by
  obtain ⟨c, cs, hc, -⟩ := encode_head h
  simp [hc]

theorem fuelItems_le {xs : List Json}
    (h : ∀ v ∈ xs, fuel v ≤ 2 * (encode F v).length) :
    fuelItems xs + 1 ≤ 2 * (encodeItems F xs).length := by
  induction xs with
  | nil => simp [fuelItems, encodeItems]
  | cons x xs ih =>
    have hx := h x (by simp)
    have hxs := ih fun v hv => h v (by simp [hv])
    simp only [fuelItems, encodeItems, List.length_cons, List.length_append]
    omega

theorem fuelMembers_le {ms : List (String × Json)}
    (h : ∀ p ∈ ms, fuel p.2 ≤ 2 * (encode F p.2).length) :
    fuelMembers ms + 1 ≤ 2 * (encodeMembers F ms).length := by
  induction ms with
  | nil => simp [fuelMembers, encodeMembers]
  | cons p ms ih =>
    obtain ⟨k, v⟩ := p
    have hv := h (k, v) (by simp)
    have hms := ih fun q hq => h q (by simp [hq])
    simp only [fuelMembers, encodeMembers, List.length_cons, List.length_append] at hv ⊢
    omega

/-- The reader needs at most twice the length of the text. -/
theorem fuel_le_length (v : Json) (h : Writable F v) : fuel v ≤ 2 * (encode F v).length := by
  -- A level takes one unit more than its parts, and its brackets are two characters.
  induction v with
  | arr xs ih =>
    cases xs with
    | nil => simp [fuel, fuelItems, encode]
    | cons x xs =>
      have hx := ih x (by simp) (h.item (by simp))
      have hxs : fuelItems xs + 1 ≤ 2 * (encodeItems F xs).length :=
        fuelItems_le fun v hv => ih v (by simp [hv]) (h.item (by simp [hv]))
      simp only [fuel, fuelItems, encode, List.length_cons, List.length_append]
      omega
  | obj ms ih =>
    rcases ms with _ | ⟨⟨k, w⟩, ms⟩
    · simp [fuel, fuelMembers, encode]
    · have hw := ih (k, w) (by simp) (h.member (by simp))
      have hms : fuelMembers ms + 1 ≤ 2 * (encodeMembers F ms).length :=
        fuelMembers_le fun p hp => ih p (by simp [hp]) (h.member (by simp [hp]))
      simp only [fuel, fuelMembers, encode, List.length_cons, List.length_append] at hw ⊢
      omega
  | _ =>
    have := length_encode_pos h
    simp only [fuel]
    omega

/-- **Reading inverts writing**: a writable value is what the text `json.dumps` writes is read
as. -/
theorem loads_encode {v : Json} (h : Writable F v) :
    loads F (String.ofList (encode F v)) = some v := by
  have hlen := fuel_le_length v h
  have hws := skipWs_encode h []
  rw [List.append_nil] at hws
  -- The fuel is enough, and the end of the text delimits the value.
  have hparse := parseValue_encode v h (2 * (encode F v).length + 2) [] (by omega) Delimited.nil
  rw [List.append_nil] at hparse
  rw [loads, String.toList_ofList, hws, hparse]
  rfl

end Json
