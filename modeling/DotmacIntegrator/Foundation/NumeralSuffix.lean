import Mathlib.Data.List.DropRight
import Mathlib.Data.Nat.Notation
import Mathlib.Algebra.Order.Ring.Nat

/-!
# A numeral at the end of a text

A search for a marker with a positive decimal numeral behind it, at the end of a text or in front
of the line feed that ends it. The numeral has no leading zero, and the marker does not end in a
digit, so that there is at most one numeral to find.

## Main definitions

* `NumeralSuffix.IsPositive`: the numerals of the positive integers
* `NumeralSuffix.search`: the numeral behind the marker, searched from the left

## Main results

* `search_eq_some_iff`: where a numeral is found
* `toDigits_ofDigitChars`: a numeral is what is written of the integer it reads as
-/

namespace NumeralSuffix

/-- A decimal numeral without leading zero. -/
def IsPositive (ds : List Char) : Prop :=
  (∀ c ∈ ds, c.isDigit) ∧ ∃ d ∈ ds.head?, d ≠ '0'

instance (ds : List Char) : Decidable (IsPositive ds) :=
  decidable_of_iff (ds.all Char.isDigit ∧ ds.head?.any (· != '0'))
    (by cases ds <;> simp [IsPositive])

/-- `([1-9][0-9]*)$`, at the front. -/
def numeral? (cs : List Char) : Option (List Char) :=
  if IsPositive (cs.takeWhile Char.isDigit) ∧
      (cs.dropWhile Char.isDigit = [] ∨ cs.dropWhile Char.isDigit = ['\n'])
  then some (cs.takeWhile Char.isDigit) else none

/-- The marker and the numeral behind it, at the front. -/
def here? (marker cs : List Char) : Option (List Char) :=
  if marker <+: cs then numeral? (cs.drop marker.length) else none

/-- `re.search` of the marker and the numeral behind it. -/
def search (marker : List Char) : List Char → Option (List Char)
  | [] => here? marker []
  | c :: cs => (here? marker (c :: cs)).or (search marker cs)

/-! ### What is found -/

variable {marker cs ds : List Char}

/-- The text ends in the numeral, or in the numeral and a line feed. -/
def EndsIn (marker cs ds : List Char) : Prop :=
  IsPositive ds ∧ ∃ stem, cs = stem ++ marker ++ ds ∨ cs = stem ++ marker ++ ds ++ ['\n']

theorem endsIn_of_here? (h : here? marker cs = some ds) : EndsIn marker cs ds := by
  rw [here?] at h
  split_ifs at h with hmarker
  obtain ⟨rest, rfl⟩ := hmarker
  rw [List.drop_left, numeral?] at h
  split_ifs at h with hnumeral
  obtain rfl := Option.some.inj h
  obtain ⟨hpositive, hend⟩ := hnumeral
  have hrest := List.takeWhile_append_dropWhile (p := Char.isDigit) (l := rest)
  refine ⟨hpositive, [], hend.imp (fun hnil => ?_) (fun hfeed => ?_)⟩
  · rw [hnil, List.append_nil] at hrest
    simp [hrest]
  · rw [hfeed] at hrest
    simp [hrest]

theorem endsIn_of_search (h : search marker cs = some ds) : EndsIn marker cs ds := by
  induction cs with
  | nil => exact endsIn_of_here? h
  | cons c cs ih =>
    rw [search, Option.or_eq_some_iff] at h
    rcases h with h | ⟨-, h⟩
    · exact endsIn_of_here? h
    · obtain ⟨hpositive, stem, hstem⟩ := ih h
      refine ⟨hpositive, c :: stem, ?_⟩
      simpa using hstem

/-- Behind a marker that ends in no digit, the digits at the end are the numeral. -/
theorem rtakeWhile_append (stem : List Char) (hdigits : ∀ c ∈ ds, c.isDigit)
    (hlast : ∃ x ∈ marker.getLast?, x.isDigit = false) :
    (stem ++ marker ++ ds).rtakeWhile Char.isDigit = ds := by
  obtain ⟨x, hx, hnot⟩ := hlast
  obtain ⟨front, rfl⟩ := List.getLast?_eq_some_iff.mp hx
  have hrev : (stem ++ (front ++ [x]) ++ ds).reverse =
      ds.reverse ++ x :: (front.reverse ++ stem.reverse) := by simp
  rw [List.rtakeWhile, hrev, List.takeWhile_append_of_pos (by simpa using hdigits),
    List.takeWhile_cons_of_neg (by simp [hnot])]
  simp

/-- There is at most one numeral. -/
theorem EndsIn.unique (hlast : ∃ x ∈ marker.getLast?, x.isDigit = false) {ds' : List Char}
    (h : EndsIn marker cs ds) (h' : EndsIn marker cs ds') : ds = ds' := by
  -- A text does not end both in a numeral and in a line feed.
  have hdigit : ∀ {es : List Char}, IsPositive es → ∀ {a b : List Char}, a ++ es ≠ b ++ ['\n'] := by
    rintro es ⟨hdigits, d, hd, -⟩ a b heq
    have hne : es ≠ [] := by
      rintro rfl
      cases hd
    have hlast := congrArg List.getLast? heq
    rw [List.getLast?_append_of_ne_nil _ hne, List.getLast?_append_of_ne_nil _ (by simp)] at hlast
    have hmem := List.mem_of_getLast? hlast
    exact absurd (hdigits _ hmem) (by decide)
  obtain ⟨hpositive, stem, hcs⟩ := h
  obtain ⟨hpositive', stem', hcs'⟩ := h'
  -- Both numerals are the digits at the end.
  have hsame : ∀ {stem stem' : List Char}, stem ++ marker ++ ds = stem' ++ marker ++ ds' →
      ds = ds' := by
    intro stem stem' heq
    rw [← rtakeWhile_append stem hpositive.1 hlast, heq,
      rtakeWhile_append stem' hpositive'.1 hlast]
  rcases hcs with rfl | rfl <;> rcases hcs' with heq | heq
  · exact hsame heq
  · exact absurd heq (hdigit hpositive)
  · exact absurd heq.symm (hdigit hpositive')
  · exact hsame (List.append_cancel_right heq)

/-- A numeral behind the marker is at the front, or further on. -/
theorem exists_search (h : EndsIn marker cs ds) : ∃ ds', search marker cs = some ds' := by
  obtain ⟨hpositive, stem, hcs⟩ := h
  induction stem generalizing cs with
  | nil =>
    have hhere : ∀ rest, rest = [] ∨ rest = ['\n'] →
        here? marker (marker ++ ds ++ rest) = some ds := by
      intro rest hrest
      have hstop : rest.takeWhile Char.isDigit = [] ∧ rest.dropWhile Char.isDigit = rest := by
        rcases hrest with rfl | rfl <;> decide
      have htake : (ds ++ rest).takeWhile Char.isDigit = ds := by
        rw [List.takeWhile_append_of_pos hpositive.1, hstop.1, List.append_nil]
      have hdrop : (ds ++ rest).dropWhile Char.isDigit = rest := by
        rw [List.dropWhile_append_of_pos hpositive.1, hstop.2]
      rw [here?, List.append_assoc, if_pos (List.prefix_append ..), List.drop_left, numeral?, htake,
        hdrop, if_pos ⟨hpositive, hrest⟩]
    have hfound : here? marker cs = some ds := by
      rcases hcs with rfl | rfl
      · simpa using hhere [] (.inl rfl)
      · simpa using hhere ['\n'] (.inr rfl)
    cases cs with
    | nil => exact ⟨ds, hfound⟩
    | cons c cs => exact ⟨ds, by rw [search, hfound, Option.some_or]⟩
  | cons c stem ih =>
    obtain ⟨rest, rfl, hrest⟩ : ∃ rest, cs = c :: rest ∧
        (rest = stem ++ marker ++ ds ∨ rest = stem ++ marker ++ ds ++ ['\n']) := by
      rcases hcs with rfl | rfl
      · exact ⟨_, rfl, .inl rfl⟩
      · exact ⟨_, rfl, .inr rfl⟩
    obtain ⟨ds', hds'⟩ := ih hrest
    rw [search, hds']
    cases here? marker (c :: rest) with
    | none => exact ⟨ds', rfl⟩
    | some found => exact ⟨found, rfl⟩

/-- **Where a numeral is found**: behind the marker, at the end or in front of a last line feed. -/
theorem search_eq_some_iff (hlast : ∃ x ∈ marker.getLast?, x.isDigit = false) :
    search marker cs = some ds ↔ EndsIn marker cs ds := by
  refine ⟨endsIn_of_search, fun h => ?_⟩
  obtain ⟨ds', hds'⟩ := exists_search h
  rw [hds', (endsIn_of_search hds').unique hlast h]

/-! ### What a numeral reads as -/

/-- A decimal digit is the character of the number it stands for. -/
theorem exists_digitChar {c : Char} (h : c.isDigit) : ∃ n < 10, Nat.digitChar n = c := by
  rw [Char.isDigit, Bool.and_eq_true, decide_eq_true_eq, decide_eq_true_eq] at h
  have hlo : 48 ≤ c.toNat := h.1
  have hhi : c.toNat ≤ 57 := h.2
  have hc : Char.ofNat (48 + (c.toNat - 48)) = c := by
    rw [Nat.add_sub_cancel' hlo, Char.ofNat_toNat]
  -- The digits stand in a row, from `0` on.
  have hten : ∀ n < 10, Nat.digitChar n = Char.ofNat (48 + n) := by decide
  exact ⟨c.toNat - 48, by omega, (hten _ (by omega)).trans hc⟩

/-- A numeral reads as a positive integer, and is what is written of it. -/
theorem toDigits_ofDigitChars (h : IsPositive ds) :
    0 < Nat.ofDigitChars 10 ds 0 ∧ Nat.toDigits 10 (Nat.ofDigitChars 10 ds 0) = ds := by
  -- Induction on the digits from the left: the last one is appended.
  induction ds using List.reverseRecOn with
  | nil =>
    obtain ⟨-, d, hd, -⟩ := h
    cases hd
  | append_singleton ds c ih =>
    obtain ⟨hdigits, hhead⟩ := h
    obtain ⟨n, hn, rfl⟩ := exists_digitChar (hdigits c (by simp))
    rw [Nat.ofDigitChars_append, Nat.ofDigitChars_cons_digitChar_of_lt_ten hn,
      Nat.ofDigitChars_nil]
    cases ds with
    | nil =>
      have hne : n ≠ 0 := by
        rintro rfl
        simp at hhead
      simp only [Nat.ofDigitChars_nil, mul_zero, zero_add, List.nil_append]
      exact ⟨by omega, Nat.toDigits_of_lt_base hn⟩
    | cons d ds =>
      obtain ⟨hpos, hwritten⟩ := ih ⟨fun c hc => hdigits c (List.mem_append_left _ hc),
        by simpa using hhead⟩
      refine ⟨by omega, ?_⟩
      rw [← Nat.toDigits_append_toDigits (by decide) hpos hn, hwritten, Nat.toDigits_of_lt_base hn]

end NumeralSuffix
