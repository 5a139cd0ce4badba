import DotmacIntegrator.Foundation.JsonEncode

/-!
# Reading JSON

The reader follows Python's: `NaN` and the infinities are read, a literal with a fraction or an
exponent is a float, an integer of more than `maxDigits` digits is refused, the last of several
equal keys wins. Its fuel bounds the nesting and is twice the length of the text, which every
text that is written needs at most.

## Main definitions

* `Json.scanString`, `Json.scanNumber`: the two scanners
* `Json.parseValue`, `Json.loads`: a value at the front of a text, and a whole text
* `Json.LoadsError`: why a reader that may run out of stack raises
* `Json.FloatLiteral`: texts that are read as floats

## Main results

* `scanString_encodeString`, `scanNumber_encodeInt`, `scanNumber_floatLiteral`: what is written
  is scanned back
-/

namespace Json

/-! ### Characters -/

/-- The value of a hexadecimal digit of either case. -/
def hexVal (c : Char) : Option ℕ :=
  if c.isDigit then some (c.toNat - 48)
  else if 'a' ≤ c ∧ c ≤ 'f' then some (c.toNat - 87)
  else if 'A' ≤ c ∧ c ≤ 'F' then some (c.toNat - 55)
  else none

/-- The number four hexadecimal digits write. -/
def hexVal4 (a b c d : Char) : Option ℕ :=
  match hexVal a, hexVal b, hexVal c, hexVal d with
  | some a, some b, some c, some d => some (a * 4096 + b * 256 + c * 16 + d)
  | _, _, _, _ => none

theorem hexVal_hexChar_all : ∀ n < 16, hexVal (hexChar n) = some n := by decide

theorem hexVal4_hexChars {n : ℕ} (h : n < 0x10000) :
    hexVal4 (hexChar (n / 4096 % 16)) (hexChar (n / 256 % 16)) (hexChar (n / 16 % 16))
      (hexChar (n % 16)) = some n := by
  have hx := fun k => hexVal_hexChar_all (k % 16) (Nat.mod_lt _ (by decide))
  simp only [hexVal4, hx, Option.some.injEq]
  omega

/-- The character of a `\u` escape that is not half of a pair. A lone surrogate, which is no
Unicode scalar value, is read as the replacement character. -/
def codePoint (u : ℕ) : Char := if u.isValidChar then Char.ofNat u else '\uFFFD'

/-- The character of a surrogate pair. -/
def joinSurrogates (hi lo : ℕ) : Char :=
  Char.ofNat (0x10000 + (hi - 0xd800) * 1024 + (lo - 0xdc00))

/-- The escapes of one character. -/
def unescape : Char → Option Char
  | '"' => some '"'
  | '\\' => some '\\'
  | '/' => some '/'
  | 'b' => some '\x08'
  | 'f' => some '\x0c'
  | 'n' => some '\n'
  | 'r' => some '\r'
  | 't' => some '\t'
  | _ => none

/-- Put a character in front of what is scanned next. -/
def push (c : Char) (r : Option (List Char × List Char)) : Option (List Char × List Char) :=
  r.map fun p => (c :: p.1, p.2)

/-- A high surrogate no low one followed is read as the replacement character. -/
def flush (pending : Option ℕ) (r : Option (List Char × List Char)) :
    Option (List Char × List Char) :=
  if pending.isSome then push '\uFFFD' r else r

/-- The characters of a string, after a high surrogate that may be `pending`, and what follows
its closing quote. -/
def scanChars : Option ℕ → List Char → Option (List Char × List Char)
  | _, [] => none
  | pending, '\\' :: 'u' :: a :: b :: c :: d :: cs =>
    match hexVal4 a b c d with
    | none => none
    | some u =>
      if pending.isSome ∧ 0xdc00 ≤ u ∧ u ≤ 0xdfff then
        push (joinSurrogates (pending.getD 0) u) (scanChars none cs)
      else if 0xd800 ≤ u ∧ u ≤ 0xdbff then flush pending (scanChars (some u) cs)
      else flush pending (push (codePoint u) (scanChars none cs))
  | pending, '\\' :: c :: cs =>
    match unescape c with
    | none => none
    | some c' => flush pending (push c' (scanChars none cs))
  | pending, c :: cs =>
    if c = '"' then flush pending (some ([], cs))
    else if c = '\\' ∨ c.toNat < 32 then none
    else flush pending (push c (scanChars none cs))

/-- The characters of a string whose opening quote was read, and what follows its closing
quote. -/
def scanString (cs : List Char) : Option (List Char × List Char) := scanChars none cs

theorem scanString_escape_u {c : Char} (h : c.toNat < 0x10000) (rest : List Char) :
    scanString ('\\' :: 'u' :: (hexChars c.toNat ++ rest)) = push c (scanString rest) := by
  have hv : c.toNat.isValidChar := c.valid
  -- A character is never a surrogate.
  have hns : ¬ (0xd800 ≤ c.toNat ∧ c.toNat ≤ 0xdbff) := by
    rcases hv with hv | hv <;> omega
  have hcp : codePoint c.toNat = c := by
    rw [codePoint, if_pos hv, Char.ofNat_toNat]
  simp only [hexChars, List.cons_append, List.nil_append, scanString]
  rw [scanChars.eq_def]
  simp only [hexVal4_hexChars h, if_neg hns, hcp, Option.isSome_none, Bool.false_eq_true,
    false_and, if_false, flush]

/-- The two halves of a number past the basic plane join to the number. -/
theorem joinSurrogates_halves {m hi lo : ℕ} (hm : m < 0x100000) (hhi : hi = 0xd800 + m / 1024)
    (hlo : lo = 0xdc00 + m % 1024) :
    joinSurrogates hi lo = Char.ofNat (0x10000 + m) := by
  have h : 0x10000 + (hi - 0xd800) * 1024 + (lo - 0xdc00) = 0x10000 + m := by omega
  rw [joinSurrogates, h]

theorem scanString_escape_pair {c : Char} (h : ¬ c.toNat < 0x10000) (rest : List Char) :
    scanString ('\\' :: 'u' :: (hexChars (0xd800 + (c.toNat - 0x10000) / 1024) ++
      '\\' :: 'u' :: (hexChars (0xdc00 + (c.toNat - 0x10000) % 1024) ++ rest))) =
      push c (scanString rest) := by
  have hv : c.toNat.isValidChar := c.valid
  -- `m` is the offset past the basic plane, `hi` and `lo` the two halves that are written.
  obtain ⟨m, hm⟩ : ∃ m, c.toNat = 0x10000 + m := ⟨c.toNat - 0x10000, by omega⟩
  have hlt : m < 0x100000 := by rcases hv with hv | hv <;> omega
  have hc : Char.ofNat (0x10000 + m) = c := by rw [← hm, Char.ofNat_toNat]
  obtain ⟨hi, hhi⟩ : ∃ hi, hi = 0xd800 + m / 1024 := ⟨_, rfl⟩
  obtain ⟨lo, hlo⟩ : ∃ lo, lo = 0xdc00 + m % 1024 := ⟨_, rfl⟩
  have hjoin := joinSurrogates_halves hlt hhi hlo
  rw [hm, Nat.add_sub_cancel_left, ← hhi, ← hlo]
  have hhex := hexVal4_hexChars (show hi < 0x10000 by omega)
  have hlex := hexVal4_hexChars (show lo < 0x10000 by omega)
  -- They are in the ranges that are scanned as a pair.
  have hih : 0xd800 ≤ hi ∧ hi ≤ 0xdbff := by omega
  have hil : 0xdc00 ≤ lo ∧ lo ≤ 0xdfff := by omega
  simp only [hexChars, List.cons_append, List.nil_append, scanString]
  rw [scanChars.eq_def]
  simp only [hhex, Option.isSome_none, Bool.false_eq_true, false_and, if_false, flush, if_pos hih]
  rw [scanChars.eq_def]
  simp only [hlex, Option.isSome_some, true_and, Option.getD_some, if_pos hil, hjoin, hc]

/-- What is written for a character is scanned as that character. -/
theorem scanString_escapeChar (c : Char) (rest : List Char) :
    scanString (escapeChar c ++ rest) = push c (scanString rest) := by
  unfold escapeChar
  split_ifs with h₁ h₂ h₃ h₄ h₅ h₆ h₇ h₈ h₉
  · subst h₁; simp [scanString, scanChars, unescape, flush]
  · subst h₂; simp [scanString, scanChars, unescape, flush]
  · subst h₃; simp [scanString, scanChars, unescape, flush]
  · subst h₄; simp [scanString, scanChars, unescape, flush]
  · subst h₅; simp [scanString, scanChars, unescape, flush]
  · subst h₆; simp [scanString, scanChars, unescape, flush]
  · subst h₇; simp [scanString, scanChars, unescape, flush]
  · have h32 : ¬ c.toNat < 32 := by omega
    rw [List.cons_append, List.nil_append, scanString, scanChars.eq_def]
    split <;> simp_all [flush, scanString]
  · exact scanString_escape_u h₉ rest
  · rw [List.append_assoc]
    exact scanString_escape_pair h₉ rest

theorem scanString_escape (cs rest : List Char) :
    scanString (escape cs ++ '"' :: rest) = some (cs, rest) := by
  induction cs with
  | nil => simp [scanString, scanChars, flush]
  | cons c cs ih => rw [escape_cons, List.append_assoc, scanString_escapeChar, ih]; rfl

theorem scanString_encodeString (t : String) (rest : List Char) :
    ∃ tail, encodeString t ++ rest = '"' :: tail ∧ scanString tail = some (t.toList, rest) :=
  ⟨escape t.toList ++ '"' :: rest, by simp [encodeString], scanString_escape _ _⟩

/-! ### Numbers -/

/-- The digits at the front of a text, and what follows them. -/
def spanDigits (cs : List Char) : List Char × List Char :=
  (cs.takeWhile Char.isDigit, cs.dropWhile Char.isDigit)

/-- A natural number: a zero, or digits that do not start with one. -/
def scanNat (cs : List Char) : Option (List Char × List Char) :=
  if cs.head? = some '0' then some (['0'], cs.tail)
  else if (spanDigits cs).1 = [] then none
  else some (spanDigits cs)

/-- The integer part of a number. -/
def scanInt : List Char → Option (List Char × List Char)
  | '-' :: cs => (scanNat cs).map fun p => ('-' :: p.1, p.2)
  | cs => scanNat cs

/-- The fraction of a number: empty, unless a digit follows the point. -/
def scanFrac : List Char → List Char × List Char
  | '.' :: cs =>
    if (spanDigits cs).1 = [] then ([], '.' :: cs)
    else ('.' :: (spanDigits cs).1, (spanDigits cs).2)
  | cs => ([], cs)

/-- The sign of an exponent. -/
def scanSign : List Char → List Char × List Char
  | '+' :: cs => (['+'], cs)
  | '-' :: cs => (['-'], cs)
  | cs => ([], cs)

/-- The exponent of a number: empty, unless a digit follows the letter and an optional sign. -/
def scanExp : List Char → List Char × List Char
  | [] => ([], [])
  | e :: cs =>
    if (e = 'e' ∨ e = 'E') ∧ (spanDigits (scanSign cs).2).1 ≠ [] then
      (e :: ((scanSign cs).1 ++ (spanDigits (scanSign cs).2).1), (spanDigits (scanSign cs).2).2)
    else ([], e :: cs)

/-- The number decimal digits after an optional sign write. -/
def readInt : List Char → ℤ
  | '-' :: ds => -(Nat.ofDigitChars 10 ds 0)
  | ds => Nat.ofDigitChars 10 ds 0

variable (F : FloatText)

/-- A number: an integer, unless it has a fraction or an exponent. -/
def scanNumber (cs : List Char) : Option (Json × List Char) :=
  match scanInt cs with
  | none => none
  | some (i, r) =>
    let frac := scanFrac r
    let exp := scanExp frac.2
    if frac.1 = [] ∧ exp.1 = [] then
      if (i.filter Char.isDigit).length ≤ maxDigits then some (int (readInt i), r) else none
    else some (float (F.read (i ++ frac.1 ++ exp.1)), exp.2)

/-- Digits, at least one. -/
def Digits (ds : List Char) : Prop := ds ≠ [] ∧ ∀ c ∈ ds, c.isDigit

instance (ds : List Char) : Decidable (Digits ds) :=
  @instDecidableAnd _ _ _ (List.decidableBAll _ ds)

/-- The texts of integer parts. -/
def IntPart (i : List Char) : Prop :=
  ∃ sign ds, i = sign ++ ds ∧ (sign = [] ∨ sign = ['-']) ∧ Digits ds ∧
    (ds = ['0'] ∨ ds.head? ≠ some '0')

/-- The texts of fractions. -/
def FracPart (frac : List Char) : Prop := frac = [] ∨ ∃ ds, frac = '.' :: ds ∧ Digits ds

/-- The texts of exponents. -/
def ExpPart (exp : List Char) : Prop :=
  exp = [] ∨ ∃ e sign ds, exp = e :: (sign ++ ds) ∧ (e = 'e' ∨ e = 'E') ∧
    (sign = [] ∨ sign = ['+'] ∨ sign = ['-']) ∧ Digits ds

/-- The texts that are scanned as floats: an integer part, then a fraction or an exponent. -/
def FloatLiteral (t : List Char) : Prop :=
  ∃ i frac exp, t = i ++ frac ++ exp ∧ IntPart i ∧ FracPart frac ∧ ExpPart exp ∧
    (frac ≠ [] ∨ exp ≠ [])

/-- What may follow a value: the end, or a delimiter. -/
def Delimited (rest : List Char) : Prop := ∀ c ∈ rest.head?, c = ',' ∨ c = ']' ∨ c = '}'

theorem Delimited.nil : Delimited [] := by simp [Delimited]

theorem Delimited.encodeItems (xs : List Json) (rest : List Char) :
    Delimited (encodeItems F xs ++ rest) := by
  cases xs <;> simp [Delimited, Json.encodeItems]

theorem Delimited.encodeMembers (ms : List (String × Json)) (rest : List Char) :
    Delimited (encodeMembers F ms ++ rest) := by
  rcases ms with _ | ⟨⟨k, v⟩, ms⟩ <;> simp [Delimited, Json.encodeMembers]

/-- A text whose first character, if any, is not a digit. -/
def NoDigit (rest : List Char) : Prop := ∀ c ∈ rest.head?, c.isDigit = false

/-- A text that does not go on with a number: its first character, if any, is none of one. -/
def Follows (rest : List Char) : Prop :=
  ∀ c ∈ rest.head?, c.isDigit = false ∧ c ≠ '.' ∧ c ≠ 'e' ∧ c ≠ 'E'

theorem Follows.noDigit {rest : List Char} (h : Follows rest) : NoDigit rest := fun c hc =>
  (h c hc).1

theorem Delimited.follows {rest : List Char} (h : Delimited rest) : Follows rest := by
  intro c hc
  rcases h c hc with rfl | rfl | rfl <;> decide

theorem spanDigits_append {ds rest : List Char} (hd : ∀ c ∈ ds, c.isDigit) (hr : NoDigit rest) :
    spanDigits (ds ++ rest) = (ds, rest) := by
  induction ds with
  | nil => cases rest <;> simp_all [spanDigits, NoDigit]
  | cons c ds ih =>
    have hc := hd c (by simp)
    have := ih fun x hx => hd x (by simp [hx])
    simp only [spanDigits, Prod.mk.injEq] at this
    simp [spanDigits, hc, this.1, this.2]

theorem scanNat_append {ds rest : List Char} (hd : Digits ds)
    (h0 : ds = ['0'] ∨ ds.head? ≠ some '0') (hr : NoDigit rest) :
    scanNat (ds ++ rest) = some (ds, rest) := by
  obtain ⟨hne, hdig⟩ := hd
  unfold scanNat
  rcases h0 with rfl | h0
  · simp
  · rw [if_neg (by rwa [List.head?_append_of_ne_nil _ hne]), spanDigits_append hdig hr, if_neg hne]

theorem scanInt_append {i rest : List Char} (hi : IntPart i) (hr : NoDigit rest) :
    scanInt (i ++ rest) = some (i, rest) := by
  obtain ⟨sign, ds, rfl, hs, hd, h0⟩ := hi
  rcases hs with rfl | rfl
  · rw [List.nil_append]
    have hscan := scanNat_append hd h0 hr
    obtain ⟨c, cs, rfl⟩ := List.exists_cons_of_ne_nil hd.1
    -- Without a sign, the first digit is not taken for one.
    have hne : c ≠ '-' := by
      rintro rfl
      exact absurd (hd.2 '-' (by simp)) (by decide)
    rw [List.cons_append] at hscan ⊢
    rw [scanInt.eq_def]
    split
    · simp_all
    · exact hscan
  · simp [scanInt, scanNat_append hd h0 hr]

theorem scanFrac_append {frac rest : List Char} (hf : FracPart frac) (hr : NoDigit rest)
    (hp : frac = [] → rest.head? ≠ some '.') : scanFrac (frac ++ rest) = (frac, rest) := by
  rcases hf with rfl | ⟨ds, rfl, hd⟩
  · rw [List.nil_append, scanFrac.eq_def]
    split
    · simp_all
    · rfl
  · simp [scanFrac, spanDigits_append hd.2 hr, hd.1]

theorem scanExp_append {exp rest : List Char} (he : ExpPart exp) (hr : NoDigit rest)
    (hp : exp = [] → rest.head? ≠ some 'e' ∧ rest.head? ≠ some 'E') :
    scanExp (exp ++ rest) = (exp, rest) := by
  rcases he with rfl | ⟨e, sign, ds, rfl, he, hs, hd⟩
  · cases rest with
    | nil => rfl
    | cons c cs =>
      have hc := hp rfl
      simp only [List.head?_cons, ne_eq, Option.some.injEq] at hc
      simp [scanExp, hc.1, hc.2]
  · have hsign : scanSign (sign ++ ds ++ rest) = (sign, ds ++ rest) := by
      rcases hs with rfl | rfl | rfl
      · obtain ⟨c, cs, rfl⟩ := List.exists_cons_of_ne_nil hd.1
        have hc := hd.2 c (by simp)
        rw [List.nil_append, List.cons_append, scanSign.eq_def]
        split <;> simp_all +decide
      · rfl
      · rfl
    rw [List.cons_append, scanExp, hsign, spanDigits_append hd.2 hr, if_pos ⟨he, hd.1⟩]

/-- **What the three parts of a number are scanned as**, where nothing behind goes on with it. -/
theorem scanNumber_append {i frac exp rest : List Char} (hi : IntPart i) (hf : FracPart frac)
    (he : ExpPart exp) (hr : Follows rest) :
    scanNumber F (i ++ frac ++ exp ++ rest) =
      if frac = [] ∧ exp = [] then
        if (i.filter Char.isDigit).length ≤ maxDigits then some (int (readInt i), rest) else none
      else some (float (F.read (i ++ frac ++ exp)), rest) := by
  -- Each of the three parts ends where the next one, or what is behind, starts.
  have hexp : NoDigit (exp ++ rest) ∧ (exp ++ rest).head? ≠ some '.' := by
    rcases he with rfl | ⟨e, sign, ds, rfl, he, -, -⟩
    · exact ⟨hr.noDigit, fun h => (hr '.' h).2.1 rfl⟩
    · rcases he with rfl | rfl <;> simp +decide [NoDigit]
  have hfrac : NoDigit (frac ++ (exp ++ rest)) := by
    rcases hf with rfl | ⟨ds, rfl, -⟩
    · exact hexp.1
    · simp +decide [NoDigit]
  have hend : exp = [] → rest.head? ≠ some 'e' ∧ rest.head? ≠ some 'E' := fun _ =>
    ⟨fun h => (hr 'e' h).2.2.1 rfl, fun h => (hr 'E' h).2.2.2 rfl⟩
  rw [List.append_assoc, List.append_assoc, scanNumber, scanInt_append hi hfrac]
  simp only [scanFrac_append hf hexp.1 fun _ => hexp.2, scanExp_append he hr.noDigit hend]
  split_ifs with hint
  · rw [hint.1, hint.2, List.nil_append, List.nil_append]
  · rfl
  · rfl

/-- **Float literals are scanned as floats**, up to the delimiter behind them. -/
theorem scanNumber_floatLiteral {t rest : List Char} (ht : FloatLiteral t)
    (hr : Delimited rest) : scanNumber F (t ++ rest) = some (float (F.read t), rest) := by
  obtain ⟨i, frac, exp, rfl, hi, hf, he, hne⟩ := ht
  -- A fraction or an exponent makes it a float.
  rw [scanNumber_append F hi hf he hr.follows, if_neg fun h => hne.elim (· h.1) (· h.2)]

theorem intPart_encodeInt (n : ℤ) : IntPart (encodeInt n) := by
  have hdig : Digits (Nat.toDigits 10 n.natAbs) :=
    ⟨Nat.toDigits_ne_nil, fun c hc => isDigit_of_mem_toDigits hc⟩
  have h0 : Nat.toDigits 10 n.natAbs = ['0'] ∨ (Nat.toDigits 10 n.natAbs).head? ≠ some '0' := by
    by_cases hn : n.natAbs = 0
    · exact Or.inl (by rw [hn, Nat.toDigits_zero])
    · obtain ⟨c, cs, hc, hne⟩ := toDigits_head_ne_zero hn
      exact Or.inr (by simpa [hc] using hne)
  unfold encodeInt
  split_ifs
  · exact ⟨['-'], _, rfl, Or.inr rfl, hdig, h0⟩
  · exact ⟨[], _, rfl, Or.inl rfl, hdig, h0⟩

theorem readInt_encodeInt (n : ℤ) : readInt (encodeInt n) = n := by
  unfold encodeInt
  split_ifs with h
  · simp only [readInt, Nat.ofDigitChars_ten_toDigits]
    omega
  · have hne : ∀ cs, Nat.toDigits 10 n.natAbs ≠ '-' :: cs := fun cs hc =>
      absurd (isDigit_of_mem_toDigits (n := n.natAbs) (hc ▸ List.mem_cons_self)) (by decide)
    rw [readInt.eq_def]
    split
    · exact absurd ‹_› (hne _)
    · rw [Nat.ofDigitChars_ten_toDigits]
      omega

theorem filter_isDigit_encodeInt (n : ℤ) :
    (encodeInt n).filter Char.isDigit = Nat.toDigits 10 n.natAbs := by
  -- Digits are kept, and a sign is not.
  have h : (Nat.toDigits 10 n.natAbs).filter Char.isDigit = Nat.toDigits 10 n.natAbs :=
    List.filter_eq_self.mpr fun c hc => isDigit_of_mem_toDigits hc
  unfold encodeInt
  split_ifs
  · rw [List.filter_cons_of_neg (by decide), h]
  · exact h

/-- Integers short enough to be written are scanned back. -/
theorem scanNumber_encodeInt {n : ℤ} (hn : (Nat.toDigits 10 n.natAbs).length ≤ maxDigits)
    {rest : List Char} (hr : Delimited rest) :
    scanNumber F (encodeInt n ++ rest) = some (int n, rest) := by
  have hscan := scanNumber_append F (intPart_encodeInt n) (Or.inl rfl) (Or.inl rfl) hr.follows
  rw [List.append_nil, List.append_nil] at hscan
  rw [hscan, if_pos ⟨rfl, rfl⟩, filter_isDigit_encodeInt, if_pos hn, readInt_encodeInt]

/-! ### Values and texts -/

/-- The white space between tokens. -/
def skipWs (cs : List Char) : List Char :=
  cs.dropWhile fun c => c = ' ' ∨ c = '\t' ∨ c = '\n' ∨ c = '\r'

/-- The values written by name. -/
def constants : List (String × Json) :=
  [("null", null), ("true", bool true), ("false", bool false), ("NaN", float .nan),
    ("Infinity", float .posInf), ("-Infinity", float .negInf)]

/-- A value written by name. -/
def scanConstant (cs : List Char) : Option (Json × List Char) :=
  constants.findSome? fun p => (p.1.toList.isPrefixOf? cs).map fun rest => (p.2, rest)

mutual

/-- The value at the front of a text, and what follows it. -/
def parseValue : ℕ → List Char → Option (Json × List Char)
  | 0, _ => none
  | _ + 1, [] => none
  | fuel + 1, c :: cs =>
    if c = '"' then (scanString cs).map fun p => (str (String.ofList p.1), p.2)
    else if c = '[' then
      if (skipWs cs).head? = some ']' then some (arr [], (skipWs cs).tail)
      else (parseItems fuel (skipWs cs)).map fun p => (arr p.1, p.2)
    else if c = '{' then
      if (skipWs cs).head? = some '}' then some (obj [], (skipWs cs).tail)
      else (parseMembers fuel (skipWs cs)).map fun p => (obj (Dict.ofPairs p.1), p.2)
    else (scanConstant (c :: cs)).or (scanNumber F (c :: cs))

/-- The items of an array up to and including its closing bracket. -/
def parseItems : ℕ → List Char → Option (List Json × List Char)
  | 0, _ => none
  | fuel + 1, cs =>
    match parseValue fuel cs with
    | none => none
    | some (x, r) =>
      match skipWs r with
      | ']' :: r => some ([x], r)
      | ',' :: r => (parseItems fuel (skipWs r)).map fun p => (x :: p.1, p.2)
      | _ => none

/-- The members of an object up to and including its closing brace. -/
def parseMembers : ℕ → List Char → Option (List (String × Json) × List Char)
  | 0, _ => none
  | fuel + 1, cs =>
    match cs with
    | '"' :: cs =>
      match scanString cs with
      | none => none
      | some (k, r) =>
        match skipWs r with
        | ':' :: r =>
          match parseValue fuel (skipWs r) with
          | none => none
          | some (v, r) =>
            match skipWs r with
            | '}' :: r => some ([(String.ofList k, v)], r)
            | ',' :: r =>
              (parseMembers fuel (skipWs r)).map fun p => ((String.ofList k, v) :: p.1, p.2)
            | _ => none
        | _ => none
    | _ => none

end

/-- `json.loads` of a text: one value, with white space around it and nothing else. -/
def loads (text : String) : Option Json :=
  match parseValue F (2 * text.toList.length + 2) (skipWs text.toList) with
  | some (v, rest) => if skipWs rest = [] then some v else none
  | none => none

/-- Why a text is not read: it is refused, or it is nested too deeply for the interpreter. -/
inductive LoadsError
  | valueError
  | recursionError
  deriving DecidableEq, Repr

end Json
