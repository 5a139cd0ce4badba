import DotmacIntegrator.Foundation.Rfc8259

/-!
# The texts that are read

`json.loads` reads the texts of the grammar of JSON, but for its lexicon: it also knows the names of
the three floats that are no numbers, and it refuses an integer of more digits than are converted.
What the reader accepts is a text of the grammar over that lexicon, and every such text is accepted;
its fuel is enough for every text.

## Main definitions

* `Json.ReadableNumber`, `Json.python`: the numbers and the lexicon of the reader
* `Rfc8259.ObjectText`: the texts of objects, over a lexicon

## Main results

* `parse_sound`: what is read at the front of a text is derived
* `parse_complete`: what is derived is read
* `loads_object_iff`: an object is read of exactly the texts of objects
-/

namespace Rfc8259

/-- The text of an object, over a lexicon. -/
def ObjectText (L : Lexicon) (t : List Char) : Prop :=
  ∃ w v w', t = w ++ (v ++ w') ∧ Ws w ∧ Derives L .value v ∧ v.head? = some '{' ∧ Ws w'

variable {L : Lexicon} {w t : List Char}

theorem Ws.append {w' : List Char} (hw : Ws w) (hw' : Ws w') : Ws (w ++ w') :=
  List.forall_mem_append.mpr ⟨hw, hw'⟩

/-- White space in front of the values of an array. -/
theorem Derives.ws_elements (h : Derives L .elements t) (hw : Ws w) :
    Derives L .elements (w ++ t) := by
  cases h with
  | element hw₁ h hw₂ =>
    rw [← List.append_assoc]
    exact .element (hw.append hw₁) h hw₂
  | elements hw₁ h hw₂ hts =>
    rw [← List.append_assoc]
    exact .elements (hw.append hw₁) h hw₂ hts

/-- White space in front of the members of an object. -/
theorem Derives.ws_members (h : Derives L .members t) (hw : Ws w) :
    Derives L .members (w ++ t) := by
  cases h with
  | member hw₀ hk hw₁ hw₂ h hw₃ =>
    rw [← List.append_assoc]
    exact .member (hw.append hw₀) hk hw₁ hw₂ h hw₃
  | members hw₀ hk hw₁ hw₂ h hw₃ hts =>
    rw [← List.append_assoc]
    exact .members (hw.append hw₀) hk hw₁ hw₂ h hw₃ hts

end Rfc8259

namespace Json

open Rfc8259

/-! ### The lexicon -/

/-- The texts of numbers that are read: an integer has no more digits than are converted. -/
def ReadableNumber (t : List Char) : Prop :=
  ∃ i frac exp, t = i ++ frac ++ exp ∧ IntPart i ∧ FracPart frac ∧ ExpPart exp ∧
    (frac = [] → exp = [] → (i.filter Char.isDigit).length ≤ maxDigits)

/-- The names and the numbers of the reader. -/
def python : Lexicon where
  names := constants.map fun p => p.1.toList
  number := ReadableNumber

variable {F : FloatText} {cs rest : List Char} {v : Json}

/-- A number begins with a sign and a digit, or with a digit. -/
theorem number_cases {t : List Char} (h : ReadableNumber t) :
    ∃ d ds, d.isDigit ∧ (t = d :: ds ∨ t = '-' :: d :: ds) := by
  obtain ⟨_, frac, exp, rfl, ⟨sign, ds, rfl, hsign, ⟨hne, hdigits⟩, -⟩, -⟩ := h
  obtain ⟨d, ds, rfl⟩ := List.exists_cons_of_ne_nil hne
  refine ⟨d, ds ++ frac ++ exp, hdigits d (.head _), ?_⟩
  rcases hsign with rfl | rfl
  · exact .inl rfl
  · exact .inr rfl

theorem ne_nil_of_number {t : List Char} (h : ReadableNumber t) : t ≠ [] := by
  obtain ⟨d, ds, -, rfl | rfl⟩ := number_cases h <;> exact List.cons_ne_nil _ _

theorem ne_nil_of_name {t : List Char} (h : t ∈ python.names) : t ≠ [] := by
  revert t
  decide

/-! ### White space -/

theorem skipWs_sound (cs : List Char) : ∃ w, cs = w ++ skipWs cs ∧ Ws w := by
  refine ⟨_, List.takeWhile_append_dropWhile.symm, fun c hc => ?_⟩
  simpa using List.all_eq_true.mp List.all_takeWhile c hc

/-- White space is passed over, up to a character that is none. -/
theorem skipWs_append {w : List Char} (hw : Ws w) (rest : List Char) :
    skipWs (w ++ rest) = skipWs rest := by
  induction w with
  | nil => rfl
  | cons c w ih =>
    have hc : c = ' ' ∨ c = '\t' ∨ c = '\n' ∨ c = '\r' := hw c (.head _)
    rw [List.cons_append, skipWs, List.dropWhile_cons_of_pos (by simpa using hc)]
    exact ih fun c hc => hw c (.tail _ hc)

theorem skipWs_cons {c : Char} (h : ¬ (c = ' ' ∨ c = '\t' ∨ c = '\n' ∨ c = '\r'))
    (cs : List Char) : skipWs (c :: cs) = c :: cs :=
  List.dropWhile_cons_of_neg (by simpa using h)

/-! ### What is scanned -/

theorem flush_eq_some {pending : Option ℕ} {r : Option (List Char × List Char)}
    {p : List Char × List Char} (h : flush pending r = some p) :
    ∃ q, r = some q ∧ q.2 = p.2 := by
  unfold flush push at h
  split_ifs at h
  · obtain ⟨q, hq, rfl⟩ := Option.map_eq_some_iff.mp h
    exact ⟨q, hq, rfl⟩
  · exact ⟨p, h, rfl⟩

theorem push_eq_some {c : Char} {r : Option (List Char × List Char)} {p : List Char × List Char}
    (h : push c r = some p) : ∃ q, r = some q ∧ q.2 = p.2 := by
  obtain ⟨q, hq, rfl⟩ := Option.map_eq_some_iff.mp h
  exact ⟨q, hq, rfl⟩

theorem hexVal4_eq_some {a b c d : Char} {u : ℕ} (h : hexVal4 a b c d = some u) :
    ∀ x ∈ [a, b, c, d], (hexVal x).isSome := by
  unfold hexVal4 at h
  split at h
  · next ha hb hc hd => simp [ha, hb, hc, hd]
  · cases h

theorem mem_of_unescape {c c' : Char} (h : unescape c = some c') :
    c ∈ ['"', '\\', '/', 'b', 'f', 'n', 'r', 't'] := by
  unfold unescape at h
  split at h
  case h_9 => cases h
  all_goals simp

/-- What is scanned of a string is derived. -/
theorem scanChars_sound {pending : Option ℕ} {p : List Char × List Char}
    (h : scanChars pending cs = some p) : ∃ k, cs = k ++ '"' :: p.2 ∧ Chars k := by
  induction pending, cs using scanChars.induct generalizing p with
  | case1 => simp [scanChars] at h
  | case2 pending a b c d cs hhex =>
    rw [scanChars, hhex] at h
    cases h
  | case3 pending a b c d cs u hhex hpair ih =>
    rw [scanChars, hhex] at h
    simp only [if_pos hpair] at h
    obtain ⟨q, hq, hrest⟩ := push_eq_some h
    obtain ⟨k, rfl, hk⟩ := ih hq
    exact ⟨_, by rw [← hrest]; rfl, .unicode (hexVal4_eq_some hhex) hk⟩
  | case4 pending a b c d cs u hhex hpair hhigh ih =>
    rw [scanChars, hhex] at h
    simp only [if_neg hpair, if_pos hhigh] at h
    obtain ⟨q, hq, hrest⟩ := flush_eq_some h
    obtain ⟨k, rfl, hk⟩ := ih hq
    exact ⟨_, by rw [← hrest]; rfl, .unicode (hexVal4_eq_some hhex) hk⟩
  | case5 pending a b c d cs u hhex hpair hhigh ih =>
    rw [scanChars, hhex] at h
    simp only [if_neg hpair, if_neg hhigh] at h
    obtain ⟨q, hq, hrest⟩ := flush_eq_some h
    obtain ⟨q', hq', hrest'⟩ := push_eq_some hq
    obtain ⟨k, rfl, hk⟩ := ih hq'
    exact ⟨_, by rw [← hrest, ← hrest']; rfl, .unicode (hexVal4_eq_some hhex) hk⟩
  | case6 pending c cs hnot hescape =>
    rw [scanChars.eq_3 _ _ _ hnot, hescape] at h
    cases h
  | case7 pending c cs hnot c' hescape ih =>
    rw [scanChars.eq_3 _ _ _ hnot, hescape] at h
    obtain ⟨q, hq, hrest⟩ := flush_eq_some h
    obtain ⟨q', hq', hrest'⟩ := push_eq_some hq
    obtain ⟨k, rfl, hk⟩ := ih hq'
    exact ⟨_, by rw [← hrest, ← hrest']; rfl, .escaped (mem_of_unescape hescape) hk⟩
  | case8 pending cs hnot hnot' =>
    rw [scanChars.eq_4 _ _ _ hnot hnot', if_pos rfl] at h
    obtain ⟨q, hq, hrest⟩ := flush_eq_some h
    obtain rfl := Option.some.inj hq
    exact ⟨[], by rw [← hrest]; rfl, .nil⟩
  | case9 pending c cs hnot hnot' hquote hcontrol =>
    rw [scanChars.eq_4 _ _ _ hnot hnot', if_neg hquote, if_pos hcontrol] at h
    cases h
  | case10 pending c cs hnot hnot' hquote hcontrol ih =>
    rw [scanChars.eq_4 _ _ _ hnot hnot', if_neg hquote, if_neg hcontrol] at h
    obtain ⟨q, hq, hrest⟩ := flush_eq_some h
    obtain ⟨q', hq', hrest'⟩ := push_eq_some hq
    obtain ⟨k, rfl, hk⟩ := ih hq'
    obtain ⟨hslash, hprintable⟩ := not_or.mp hcontrol
    exact ⟨c :: k, by rw [← hrest, ← hrest']; rfl,
      .unescaped (not_lt.mp hprintable) hquote hslash hk⟩

/-- What is derived of a string is scanned, whatever half of a pair is pending. -/
theorem scanChars_complete {k : List Char} (h : Chars k) (pending : Option ℕ) (rest : List Char) :
    ∃ cs, scanChars pending (k ++ '"' :: rest) = some (cs, rest) := by
  have hpush : ∀ {c : Char} {r : Option (List Char × List Char)} {cs : List Char},
      r = some (cs, rest) → push c r = some (c :: cs, rest) := by
    rintro c r cs rfl
    rfl
  have hflush : ∀ {pending : Option ℕ} {r : Option (List Char × List Char)} {cs : List Char},
      r = some (cs, rest) → ∃ cs', flush pending r = some (cs', rest) := by
    rintro pending r cs rfl
    unfold flush
    split_ifs
    · exact ⟨_, rfl⟩
    · exact ⟨_, rfl⟩
  induction h generalizing pending with
  | nil =>
    rw [List.nil_append, scanChars.eq_4 _ _ _ (fun _ _ _ _ _ h => absurd h (by decide))
      (fun _ _ h => absurd h (by decide)), if_pos rfl]
    exact hflush rfl
  | @unescaped c k hc hquote hslash _ ih =>
    obtain ⟨cs, hcs⟩ := ih none
    rw [List.cons_append, scanChars.eq_4 _ _ _ (fun _ _ _ _ _ h => absurd h hslash)
      (fun _ _ h => absurd h hslash), if_neg hquote,
      if_neg (not_or.mpr ⟨hslash, not_lt.mpr hc⟩)]
    exact hflush (hpush hcs)
  | @escaped c k hc _ ih =>
    obtain ⟨cs, hcs⟩ := ih none
    obtain ⟨c', hc'⟩ : ∃ c', unescape c = some c' := by
      simp only [List.mem_cons, List.not_mem_nil, or_false] at hc
      rcases hc with rfl | rfl | rfl | rfl | rfl | rfl | rfl | rfl <;> exact ⟨_, rfl⟩
    have hnot : c ≠ 'u' := by
      rintro rfl
      cases hc'
    rw [List.cons_append, List.cons_append,
      scanChars.eq_3 _ _ _ fun _ _ _ _ _ h => absurd h hnot, hc']
    exact hflush (hpush hcs)
  | @unicode a b c d k hhex _ ih =>
    obtain ⟨u, hu⟩ : ∃ u, hexVal4 a b c d = some u := by
      simp only [List.mem_cons, List.not_mem_nil, or_false, forall_eq_or_imp, forall_eq,
        Option.isSome_iff_exists] at hhex
      obtain ⟨⟨_, ha⟩, ⟨_, hb⟩, ⟨_, hc⟩, ⟨_, hd⟩⟩ := hhex
      exact ⟨_, by rw [hexVal4, ha, hb, hc, hd]⟩
    simp only [List.cons_append]
    rw [scanChars, hu]
    simp only
    split_ifs
    · obtain ⟨cs, hcs⟩ := ih none
      exact ⟨_, hpush hcs⟩
    · obtain ⟨cs, hcs⟩ := ih (some u)
      exact hflush hcs
    · obtain ⟨cs, hcs⟩ := ih none
      exact hflush (hpush hcs)

/-! ### Numbers -/

theorem spanDigits_sound (cs : List Char) :
    cs = (spanDigits cs).1 ++ (spanDigits cs).2 ∧ ∀ c ∈ (spanDigits cs).1, c.isDigit :=
  ⟨List.takeWhile_append_dropWhile.symm, fun c hc =>
    List.all_eq_true.mp List.all_takeWhile c hc⟩

theorem scanNat_sound {ds r : List Char} (h : scanNat cs = some (ds, r)) :
    cs = ds ++ r ∧ Digits ds ∧ (ds = ['0'] ∨ ds.head? ≠ some '0') := by
  unfold scanNat at h
  split_ifs at h with hzero hnone
  · obtain ⟨rfl, rfl⟩ := Prod.mk.inj (Option.some.inj h)
    obtain ⟨tail, rfl⟩ := List.head?_eq_some_iff.mp hzero
    exact ⟨rfl, by decide, .inl rfl⟩
  · obtain ⟨hcs, hdigits⟩ := spanDigits_sound cs
    rw [Option.some.inj h] at hcs hdigits hnone
    refine ⟨hcs, ⟨hnone, hdigits⟩, .inr ?_⟩
    rw [hcs, List.head?_append_of_ne_nil _ hnone] at hzero
    exact hzero

theorem scanInt_sound {i r : List Char} (h : scanInt cs = some (i, r)) :
    cs = i ++ r ∧ IntPart i := by
  unfold scanInt at h
  split at h
  · obtain ⟨p, hp, heq⟩ := Option.map_eq_some_iff.mp h
    obtain ⟨rfl, rfl⟩ := Prod.mk.inj heq
    obtain ⟨rfl, hdigits, hzero⟩ := scanNat_sound hp
    exact ⟨rfl, ['-'], p.1, rfl, .inr rfl, hdigits, hzero⟩
  · obtain ⟨hcs, hdigits, hzero⟩ := scanNat_sound h
    exact ⟨hcs, [], i, rfl, .inl rfl, hdigits, hzero⟩

theorem scanFrac_sound (cs : List Char) :
    cs = (scanFrac cs).1 ++ (scanFrac cs).2 ∧ FracPart (scanFrac cs).1 := by
  unfold scanFrac
  split
  · next cs =>
    split_ifs with hnone
    · exact ⟨rfl, .inl rfl⟩
    · obtain ⟨hcs, hdigits⟩ := spanDigits_sound cs
      exact ⟨congrArg ('.' :: ·) hcs, .inr ⟨_, rfl, hnone, hdigits⟩⟩
  · exact ⟨rfl, .inl rfl⟩

theorem scanSign_sound (cs : List Char) :
    cs = (scanSign cs).1 ++ (scanSign cs).2 ∧
      ((scanSign cs).1 = [] ∨ (scanSign cs).1 = ['+'] ∨ (scanSign cs).1 = ['-']) := by
  unfold scanSign
  split
  · exact ⟨rfl, .inr (.inl rfl)⟩
  · exact ⟨rfl, .inr (.inr rfl)⟩
  · exact ⟨rfl, .inl rfl⟩

theorem scanExp_sound (cs : List Char) :
    cs = (scanExp cs).1 ++ (scanExp cs).2 ∧ ExpPart (scanExp cs).1 := by
  cases cs with
  | nil => exact ⟨rfl, .inl rfl⟩
  | cons e cs =>
    rw [scanExp]
    split_ifs with hexp
    · obtain ⟨hsplit, hsign⟩ := scanSign_sound cs
      obtain ⟨hdigits, hall⟩ := spanDigits_sound (scanSign cs).2
      refine ⟨?_, .inr ⟨e, _, _, rfl, hexp.1, hsign, hexp.2, hall⟩⟩
      rw [List.cons_append, List.append_assoc, ← hdigits, ← hsplit]
    · exact ⟨rfl, .inl rfl⟩

/-- What is scanned of a number is one that is read. -/
theorem scanNumber_sound (h : scanNumber F cs = some (v, rest)) :
    (∃ t, cs = t ++ rest ∧ ReadableNumber t) ∧ ∀ ms, v ≠ obj ms := by
  unfold scanNumber at h
  split at h
  · cases h
  · next i r hint =>
    obtain ⟨rfl, hi⟩ := scanInt_sound hint
    obtain ⟨hr, hf⟩ := scanFrac_sound r
    obtain ⟨hr', he⟩ := scanExp_sound (scanFrac r).2
    simp only at h
    split_ifs at h with hempty hlong
    · obtain ⟨rfl, rfl⟩ := Prod.mk.inj (Option.some.inj h)
      refine ⟨⟨i, rfl, i, [], [], by simp, hi, .inl rfl, .inl rfl, fun _ _ => hlong⟩, nofun⟩
    · obtain ⟨rfl, rfl⟩ := Prod.mk.inj (Option.some.inj h)
      refine ⟨⟨_, ?_, i, _, _, rfl, hi, hf, he, fun hnil hnil' => absurd ⟨hnil, hnil'⟩ hempty⟩,
        nofun⟩
      rw [List.append_assoc, List.append_assoc, ← hr', ← hr]

/-- A number that is read is scanned, where nothing behind goes on with it. -/
theorem scanNumber_complete {t : List Char} (h : ReadableNumber t) (hr : Follows rest) :
    ∃ v, scanNumber F (t ++ rest) = some (v, rest) := by
  obtain ⟨i, frac, exp, rfl, hi, hf, he, hlong⟩ := h
  rw [scanNumber_append F hi hf he hr]
  split_ifs with hempty hshort
  · exact ⟨_, rfl⟩
  · exact absurd (hlong hempty.1 hempty.2) hshort
  · exact ⟨_, rfl⟩

/-! ### Names -/

theorem scanConstant_sound (h : scanConstant cs = some (v, rest)) :
    (∃ t ∈ python.names, cs = t ++ rest) ∧ ∀ ms, v ≠ obj ms := by
  obtain ⟨p, hp, hscan⟩ := List.exists_of_findSome?_eq_some h
  obtain ⟨r, hr, heq⟩ := Option.map_eq_some_iff.mp hscan
  obtain ⟨rfl, rfl⟩ := Prod.mk.inj heq
  refine ⟨⟨_, List.mem_map_of_mem hp, (List.isPrefixOf?_eq_some_iff_append_eq.mp hr).symm⟩, ?_⟩
  simp only [constants, List.mem_cons, List.not_mem_nil, or_false] at hp
  rcases hp with rfl | rfl | rfl | rfl | rfl | rfl <;> exact nofun

theorem scanConstant_complete {t : List Char} (h : t ∈ python.names) (rest : List Char) :
    ∃ v, scanConstant (t ++ rest) = some (v, rest) := by
  simp only [python, constants, List.map_cons, List.map_nil, List.mem_cons, List.not_mem_nil,
    or_false] at h
  rcases h with rfl | rfl | rfl | rfl | rfl | rfl <;> exact ⟨_, rfl⟩

/-- No number is taken for a name. -/
theorem scanConstant_of_number {t : List Char} (h : ReadableNumber t) (rest : List Char) :
    scanConstant (t ++ rest) = none := by
  obtain ⟨d, ds, hdigit, ht⟩ := number_cases h
  have hd : ∀ c : Char, c.isDigit = false → c ≠ d := by
    rintro c hc rfl
    rw [hdigit] at hc
    cases hc
  have hletters : 'n' ≠ d ∧ 't' ≠ d ∧ 'f' ≠ d ∧ 'N' ≠ d ∧ 'I' ≠ d ∧ '-' ≠ d :=
    ⟨hd _ rfl, hd _ rfl, hd _ rfl, hd _ rfl, hd _ rfl, hd _ rfl⟩
  rcases ht with rfl | rfl <;>
    simp [scanConstant, constants, List.findSome?, List.isPrefixOf?, hletters]

/-! ### What is read is derived -/

/-- What is read with some fuel is derived, and an object is what a brace opens. -/
structure Sound (F : FloatText) (n : ℕ) : Prop where
  value : ∀ {cs rest v}, parseValue F n cs = some (v, rest) →
    ∃ t, cs = t ++ rest ∧ Derives python .value t ∧ ((∃ ms, v = obj ms) ↔ t.head? = some '{')
  items : ∀ {cs rest xs}, parseItems F n cs = some (xs, rest) →
    ∃ t, cs = t ++ ']' :: rest ∧ Derives python .elements t
  members : ∀ {cs rest ms}, parseMembers F n cs = some (ms, rest) →
    ∃ t, cs = t ++ '}' :: rest ∧ Derives python .members t

variable {n : ℕ}

/-- A value that is no object, and that no brace opens. -/
theorem noObject {t : List Char} (hv : ∀ ms, v ≠ obj ms) (ht : t.head? ≠ some '{') :
    (∃ ms, v = obj ms) ↔ t.head? = some '{' :=
  iff_of_false (fun ⟨ms, h⟩ => hv ms h) ht

theorem Sound.value_succ (h : Sound F n) (hparse : parseValue F (n + 1) cs = some (v, rest)) :
    ∃ t, cs = t ++ rest ∧ Derives python .value t ∧
      ((∃ ms, v = obj ms) ↔ t.head? = some '{') := by
  cases cs with
  | nil => cases hparse
  | cons c cs =>
    rw [parseValue] at hparse
    split_ifs at hparse with hquote hbracket hempty hbrace hempty
    · obtain ⟨p, hp, heq⟩ := Option.map_eq_some_iff.mp hparse
      obtain ⟨rfl, rfl⟩ := Prod.mk.inj heq
      obtain ⟨k, rfl, hk⟩ := scanChars_sound hp
      refine ⟨'"' :: (k ++ ['"']), ?_, .string hk, noObject nofun (by simp)⟩
      rw [hquote, List.cons_append, List.append_assoc, List.singleton_append]
    · -- The array is closed at once.
      obtain ⟨rfl, rfl⟩ := Prod.mk.inj (Option.some.inj hparse)
      obtain ⟨w, hcs, hw⟩ := skipWs_sound cs
      obtain ⟨tail, htail⟩ := List.head?_eq_some_iff.mp hempty
      refine ⟨'[' :: (w ++ [']']), ?_, .emptyArray hw, noObject nofun (by simp)⟩
      rw [hbracket, List.cons_append, List.append_assoc, List.singleton_append]
      refine congrArg _ (hcs.trans ?_)
      rw [htail, List.tail_cons]
    · obtain ⟨p, hp, heq⟩ := Option.map_eq_some_iff.mp hparse
      obtain ⟨rfl, rfl⟩ := Prod.mk.inj heq
      obtain ⟨w, hcs, hw⟩ := skipWs_sound cs
      obtain ⟨t, ht, hitems⟩ := h.items hp
      refine ⟨'[' :: ((w ++ t) ++ [']']), ?_, .array (hitems.ws_elements hw),
        noObject nofun (by simp)⟩
      rw [hbracket, List.cons_append, List.append_assoc, List.append_assoc, List.singleton_append,
        ← ht, ← hcs]
    · obtain ⟨rfl, rfl⟩ := Prod.mk.inj (Option.some.inj hparse)
      obtain ⟨w, hcs, hw⟩ := skipWs_sound cs
      obtain ⟨tail, htail⟩ := List.head?_eq_some_iff.mp hempty
      refine ⟨'{' :: (w ++ ['}']), ?_, .emptyObject hw, iff_of_true ⟨_, rfl⟩ rfl⟩
      rw [hbrace, List.cons_append, List.append_assoc, List.singleton_append]
      refine congrArg _ (hcs.trans ?_)
      rw [htail, List.tail_cons]
    · obtain ⟨p, hp, heq⟩ := Option.map_eq_some_iff.mp hparse
      obtain ⟨rfl, rfl⟩ := Prod.mk.inj heq
      obtain ⟨w, hcs, hw⟩ := skipWs_sound cs
      obtain ⟨t, ht, hmembers⟩ := h.members hp
      refine ⟨'{' :: ((w ++ t) ++ ['}']), ?_, .object (hmembers.ws_members hw),
        iff_of_true ⟨_, rfl⟩ rfl⟩
      rw [hbrace, List.cons_append, List.append_assoc, List.append_assoc, List.singleton_append,
        ← ht, ← hcs]
    · -- A name or a number, whose first character is the one at hand.
      have hhead : ∀ {t : List Char}, c :: cs = t ++ rest → t ≠ [] → t.head? ≠ some '{' := by
        intro t ht hne
        obtain ⟨a, t, rfl⟩ := List.exists_cons_of_ne_nil hne
        obtain ⟨rfl, -⟩ := List.cons.inj ht
        simpa using hbrace
      rcases Option.or_eq_some_iff.mp hparse with hname | ⟨-, hnumber⟩
      · obtain ⟨⟨t, ht, hcs⟩, hv⟩ := scanConstant_sound hname
        exact ⟨t, hcs, .literal ht, noObject hv (hhead hcs (ne_nil_of_name ht))⟩
      · obtain ⟨⟨t, hcs, ht⟩, hv⟩ := scanNumber_sound hnumber
        exact ⟨t, hcs, .number ht, noObject hv (hhead hcs (ne_nil_of_number ht))⟩

theorem Sound.items_succ {xs : List Json} (h : Sound F n)
    (hparse : parseItems F (n + 1) cs = some (xs, rest)) :
    ∃ t, cs = t ++ ']' :: rest ∧ Derives python .elements t := by
  rw [parseItems] at hparse
  split at hparse
  · cases hparse
  · next x r hvalue =>
    obtain ⟨t, rfl, ht, -⟩ := h.value hvalue
    obtain ⟨w, hr, hw⟩ := skipWs_sound r
    split at hparse
    · next r' hclose =>
      obtain ⟨-, rfl⟩ := Prod.mk.inj (Option.some.inj hparse)
      refine ⟨[] ++ (t ++ w), ?_, .element .nil ht hw⟩
      rw [List.nil_append, List.append_assoc, ← hclose, ← hr]
    · next r' hcomma =>
      obtain ⟨p, hp, heq⟩ := Option.map_eq_some_iff.mp hparse
      obtain ⟨-, rfl⟩ := Prod.mk.inj heq
      obtain ⟨w', hr', hw'⟩ := skipWs_sound r'
      obtain ⟨ts, hts, hitems⟩ := h.items hp
      refine ⟨[] ++ (t ++ (w ++ ',' :: (w' ++ ts))), ?_,
        .elements .nil ht hw (hitems.ws_elements hw')⟩
      rw [List.nil_append, List.append_assoc, List.append_assoc, List.cons_append,
        List.append_assoc, ← hts, ← hr', ← hcomma, ← hr]
    · cases hparse

theorem Sound.members_succ {ms : List (String × Json)} (h : Sound F n)
    (hparse : parseMembers F (n + 1) cs = some (ms, rest)) :
    ∃ t, cs = t ++ '}' :: rest ∧ Derives python .members t := by
  unfold parseMembers at hparse
  split at hparse
  · next cs =>
    split at hparse
    · cases hparse
    · next k r hkey =>
      obtain ⟨k', rfl, hk⟩ := scanChars_sound hkey
      obtain ⟨w₁, hr, hw₁⟩ := skipWs_sound r
      simp only
      split at hparse
      · next r' hcolon =>
        obtain ⟨w₂, hr', hw₂⟩ := skipWs_sound r'
        split at hparse
        · cases hparse
        · next v r'' hvalue =>
          obtain ⟨t, ht', ht, -⟩ := h.value hvalue
          obtain ⟨w₃, hr'', hw₃⟩ := skipWs_sound r''
          -- Up to the value, whatever follows it.
          have hfront : '"' :: (k' ++ '"' :: r) =
              '"' :: (k' ++ ['"']) ++ (w₁ ++ ':' :: (w₂ ++ (t ++ r''))) := by
            rw [← ht', ← hr', ← hcolon, ← hr, List.cons_append, List.append_assoc,
              List.singleton_append]
          split at hparse
          · next rest' hclose =>
            obtain ⟨-, rfl⟩ := Prod.mk.inj (Option.some.inj hparse)
            refine ⟨_, ?_, .member .nil hk hw₁ hw₂ ht hw₃⟩
            rw [hfront, hr'', hclose]
            simp
          · next rest' hcomma =>
            obtain ⟨p, hp, heq⟩ := Option.map_eq_some_iff.mp hparse
            obtain ⟨-, rfl⟩ := Prod.mk.inj heq
            obtain ⟨w', hrest, hw'⟩ := skipWs_sound rest'
            obtain ⟨ts, hts, hmembers⟩ := h.members hp
            refine ⟨_, ?_, .members .nil hk hw₁ hw₂ ht hw₃ (hmembers.ws_members hw')⟩
            rw [hfront, hr'', hcomma, hrest, hts]
            simp
          · cases hparse
      · cases hparse
  · cases hparse

/-- **What is read at the front of a text is derived.** -/
theorem parse_sound (F : FloatText) (n : ℕ) : Sound F n := by
  induction n with
  | zero => exact ⟨nofun, nofun, nofun⟩
  | succ n ih => exact ⟨ih.value_succ, ih.items_succ, ih.members_succ⟩

/-! ### What is derived is read -/

theorem Follows.ws {w : List Char} (hw : Ws w) (h : Follows rest) : Follows (w ++ rest) := by
  cases w with
  | nil => exact h
  | cons c w =>
    intro a ha
    obtain rfl := Option.some.inj ha
    rcases hw c (.head _) with rfl | rfl | rfl | rfl <;> decide

/-- A value begins with a character that is neither white space nor a closing bracket. -/
theorem skipWs_value {t : List Char} (h : Derives python .value t) (rest : List Char) :
    skipWs (t ++ rest) = t ++ rest ∧ (t ++ rest).head? ≠ some ']' := by
  have hcons : ∀ {c : Char} {t : List Char},
      ¬ (c = ' ' ∨ c = '\t' ∨ c = '\n' ∨ c = '\r') → c ≠ ']' →
        skipWs (c :: t ++ rest) = c :: t ++ rest ∧ (c :: t ++ rest).head? ≠ some ']' :=
    fun hws hne => ⟨skipWs_cons hws _, fun hhead => hne (Option.some.inj hhead)⟩
  cases h with
  | literal h =>
    simp only [python, constants, List.map_cons, List.map_nil, List.mem_cons, List.not_mem_nil,
      or_false] at h
    rcases h with rfl | rfl | rfl | rfl | rfl | rfl <;> exact hcons (by decide) (by decide)
  | number h =>
    obtain ⟨d, ds, hdigit, rfl | rfl⟩ := number_cases h
    · refine hcons ?_ ?_
      · rintro (rfl | rfl | rfl | rfl) <;> cases hdigit
      · rintro rfl
        cases hdigit
    · exact hcons (by decide) (by decide)
  | string | emptyArray | array | emptyObject | object => exact hcons (by decide) (by decide)

theorem parseValue_other {c : Char} (hquote : c ≠ '"') (hbracket : c ≠ '[') (hbrace : c ≠ '{')
    (cs : List Char) :
    parseValue F (n + 1) (c :: cs) = (scanConstant (c :: cs)).or (scanNumber F (c :: cs)) := by
  rw [parseValue, if_neg hquote, if_neg hbracket, if_neg hbrace]

/-- What is derived is read, with fuel that is twice its length. -/
def Reads (F : FloatText) : Symbol → List Char → Prop
  | .value, t => ∀ n, 2 * t.length ≤ n → ∀ rest, Follows rest →
    ∃ v, parseValue F n (t ++ rest) = some (v, rest)
  | .elements, t => ∀ n, 2 * t.length + 1 ≤ n → ∀ rest,
    (skipWs (t ++ ']' :: rest)).head? ≠ some ']' ∧
      ∃ xs, parseItems F n (skipWs (t ++ ']' :: rest)) = some (xs, rest)
  | .members, t => ∀ n, 2 * t.length + 1 ≤ n → ∀ rest,
    (skipWs (t ++ '}' :: rest)).head? ≠ some '}' ∧
      ∃ ms, parseMembers F n (skipWs (t ++ '}' :: rest)) = some (ms, rest)

theorem reads_literal {t : List Char} (h : t ∈ python.names) : Reads F .value t := by
  intro n hn rest _
  obtain ⟨v, hv⟩ := scanConstant_complete h rest
  obtain ⟨c, cs, rfl⟩ := List.exists_cons_of_ne_nil (ne_nil_of_name h)
  obtain ⟨m, rfl⟩ : ∃ m, n = m + 1 := ⟨n - 1, by rw [List.length_cons] at hn; omega⟩
  have hfirst : ∀ t ∈ python.names, t.head? ≠ some '"' ∧ t.head? ≠ some '[' ∧
      t.head? ≠ some '{' := by decide
  obtain ⟨hquote, hbracket, hbrace⟩ := hfirst _ h
  refine ⟨v, ?_⟩
  rw [List.cons_append, parseValue_other (fun h => hquote (congrArg some h))
    (fun h => hbracket (congrArg some h)) (fun h => hbrace (congrArg some h)), ← List.cons_append,
    hv, Option.some_or]

theorem reads_number {t : List Char} (h : ReadableNumber t) : Reads F .value t := by
  intro n hn rest hrest
  obtain ⟨v, hv⟩ := @scanNumber_complete F rest t h hrest
  have hname := scanConstant_of_number h rest
  obtain ⟨m, rfl⟩ : ∃ m, n = m + 1 := by
    have := List.length_pos_iff.mpr (ne_nil_of_number h)
    exact ⟨n - 1, by omega⟩
  obtain ⟨d, ds, hdigit, rfl | rfl⟩ := number_cases h
  · have hne : ∀ c : Char, c.isDigit = false → d ≠ c := by
      rintro c hc rfl
      rw [hdigit] at hc
      cases hc
    refine ⟨v, ?_⟩
    rw [List.cons_append, parseValue_other (hne _ rfl) (hne _ rfl) (hne _ rfl), ← List.cons_append,
      hname, hv]
    rfl
  · refine ⟨v, ?_⟩
    rw [List.cons_append, parseValue_other (by decide) (by decide) (by decide), ← List.cons_append,
      hname, hv]
    rfl

/-- A value with white space around it is read, up to the delimiter behind it. -/
theorem Reads.within {w t w' : List Char} (h : Reads F .value t) (hw : Ws w)
    (ht : Derives python .value t) (hw' : Ws w') {c : Char} (hc : c = ',' ∨ c = ']' ∨ c = '}')
    (rest : List Char) :
    skipWs (w ++ (t ++ (w' ++ c :: rest))) = t ++ (w' ++ c :: rest) ∧
      (t ++ (w' ++ c :: rest)).head? ≠ some ']' ∧
      skipWs (w' ++ c :: rest) = c :: rest ∧
      ∀ n, 2 * t.length ≤ n →
        ∃ v, parseValue F n (t ++ (w' ++ c :: rest)) = some (v, w' ++ c :: rest) := by
  obtain ⟨hskip, hhead⟩ := skipWs_value ht (w' ++ c :: rest)
  have hdelimited : Delimited (c :: rest) := by simpa [Delimited] using hc
  have hbehind : ¬ (c = ' ' ∨ c = '\t' ∨ c = '\n' ∨ c = '\r') := by
    rcases hc with rfl | rfl | rfl <;> decide
  refine ⟨?_, hhead, ?_, fun n hn => h n hn _ (.ws hw' hdelimited.follows)⟩
  · rw [skipWs_append hw, hskip]
  · rw [skipWs_append hw', skipWs_cons hbehind]

/-- **What is derived is read.** -/
theorem parse_complete (F : FloatText) {symbol : Symbol} {t : List Char}
    (h : Derives python symbol t) : Reads F symbol t := by
  induction h with
  | literal h => exact reads_literal h
  | number h => exact reads_number h
  | @string k h =>
    intro n hn rest _
    obtain ⟨m, rfl⟩ : ∃ m, n = m + 1 := ⟨n - 1, by rw [List.length_cons] at hn; omega⟩
    obtain ⟨cs, hcs⟩ := scanChars_complete h none rest
    refine ⟨str (String.ofList cs), ?_⟩
    rw [List.cons_append, List.append_assoc, List.singleton_append, parseValue, if_pos rfl,
      scanString, hcs]
    rfl
  | @emptyArray w hw =>
    intro n hn rest _
    obtain ⟨m, rfl⟩ : ∃ m, n = m + 1 := ⟨n - 1, by rw [List.length_cons] at hn; omega⟩
    refine ⟨arr [], ?_⟩
    rw [List.cons_append, List.append_assoc, List.singleton_append, parseValue,
      skipWs_append hw, skipWs_cons (by decide)]
    rfl
  | @array t _ ih =>
    intro n hn rest _
    rw [List.length_cons, List.length_append, List.length_singleton] at hn
    obtain ⟨m, rfl⟩ : ∃ m, n = m + 1 := ⟨n - 1, by omega⟩
    obtain ⟨hhead, xs, hxs⟩ := ih m (by omega) rest
    refine ⟨arr xs, ?_⟩
    rw [List.cons_append, List.append_assoc, List.singleton_append, parseValue,
      if_neg (by decide), if_pos rfl, if_neg hhead, hxs]
    rfl
  | @emptyObject w hw =>
    intro n hn rest _
    obtain ⟨m, rfl⟩ : ∃ m, n = m + 1 := ⟨n - 1, by rw [List.length_cons] at hn; omega⟩
    refine ⟨obj [], ?_⟩
    rw [List.cons_append, List.append_assoc, List.singleton_append, parseValue,
      skipWs_append hw, skipWs_cons (by decide)]
    rfl
  | @object t _ ih =>
    intro n hn rest _
    rw [List.length_cons, List.length_append, List.length_singleton] at hn
    obtain ⟨m, rfl⟩ : ∃ m, n = m + 1 := ⟨n - 1, by omega⟩
    obtain ⟨hhead, ms, hms⟩ := ih m (by omega) rest
    refine ⟨obj (Dict.ofPairs ms), ?_⟩
    rw [List.cons_append, List.append_assoc, List.singleton_append, parseValue,
      if_neg (by decide), if_neg (by decide), if_pos rfl, if_neg hhead, hms]
    rfl
  | @element w t w' hw ht hw' ih =>
    intro n hn rest
    simp only [List.length_append] at hn
    obtain ⟨m, rfl⟩ : ∃ m, n = m + 1 := ⟨n - 1, by omega⟩
    obtain ⟨hskip, hhead, hbehind, hvalue⟩ := Reads.within ih hw ht hw' (c := ']') (by simp) rest
    obtain ⟨v, hv⟩ := hvalue m (by omega)
    rw [List.append_assoc, List.append_assoc, hskip]
    refine ⟨hhead, [v], ?_⟩
    rw [parseItems, hv]
    simp only [hbehind]
  | @elements w t w' ts hw ht hw' _ ih ihs =>
    intro n hn rest
    simp only [List.length_append, List.length_cons] at hn
    obtain ⟨m, rfl⟩ : ∃ m, n = m + 1 := ⟨n - 1, by omega⟩
    obtain ⟨hskip, hhead, hbehind, hvalue⟩ :=
      Reads.within ih hw ht hw' (c := ',') (by simp) (ts ++ ']' :: rest)
    obtain ⟨v, hv⟩ := hvalue m (by omega)
    obtain ⟨-, xs, hxs⟩ := ihs m (by omega) rest
    rw [List.append_assoc, List.append_assoc, List.append_assoc, List.cons_append, hskip]
    refine ⟨hhead, v :: xs, ?_⟩
    rw [parseItems, hv]
    simp only [hbehind, hxs, Option.map_some]
  | @member w k w₁ w₂ t w₃ hw hk hw₁ hw₂ ht hw₃ ih =>
    intro n hn rest
    simp only [List.length_append, List.length_cons] at hn
    obtain ⟨m, rfl⟩ : ∃ m, n = m + 1 := ⟨n - 1, by omega⟩
    obtain ⟨hskip, -, hbehind, hvalue⟩ := Reads.within ih hw₂ ht hw₃ (c := '}') (by simp) rest
    obtain ⟨v, hv⟩ := hvalue m (by omega)
    obtain ⟨cs, hcs⟩ := scanChars_complete hk none
      (w₁ ++ ':' :: (w₂ ++ (t ++ (w₃ ++ '}' :: rest))))
    simp only [List.append_assoc, List.cons_append, List.nil_append]
    rw [skipWs_append hw, skipWs_cons (by decide)]
    refine ⟨by simp, [(String.ofList cs, v)], ?_⟩
    simp only [parseMembers, scanString, hcs, skipWs_append hw₁, skipWs_cons (c := ':') (by decide),
      hskip, hv, hbehind]
  | @members w k w₁ w₂ t w₃ ts hw hk hw₁ hw₂ ht hw₃ _ ih ihs =>
    intro n hn rest
    simp only [List.length_append, List.length_cons] at hn
    obtain ⟨m, rfl⟩ : ∃ m, n = m + 1 := ⟨n - 1, by omega⟩
    obtain ⟨hskip, -, hbehind, hvalue⟩ :=
      Reads.within ih hw₂ ht hw₃ (c := ',') (by simp) (ts ++ '}' :: rest)
    obtain ⟨v, hv⟩ := hvalue m (by omega)
    obtain ⟨-, ms, hms⟩ := ihs m (by omega) rest
    obtain ⟨cs, hcs⟩ := scanChars_complete hk none
      (w₁ ++ ':' :: (w₂ ++ (t ++ (w₃ ++ ',' :: (ts ++ '}' :: rest)))))
    simp only [List.append_assoc, List.cons_append, List.nil_append]
    rw [skipWs_append hw, skipWs_cons (by decide)]
    refine ⟨by simp, (String.ofList cs, v) :: ms, ?_⟩
    simp only [parseMembers, scanString, hcs, skipWs_append hw₁, skipWs_cons (c := ':') (by decide),
      hskip, hv, hbehind, hms, Option.map_some]

/-! ### Texts -/

theorem loads_eq_some {text : String} (h : loads F text = some v) :
    ∃ rest, parseValue F (2 * text.toList.length + 2) (skipWs text.toList) = some (v, rest) ∧
      Ws rest := by
  unfold loads at h
  split at h
  · next found rest hparse =>
    split_ifs at h with hend
    obtain rfl := Option.some.inj h
    obtain ⟨w, hrest, hw⟩ := skipWs_sound rest
    rw [hend, List.append_nil] at hrest
    exact ⟨rest, hparse, hrest ▸ hw⟩
  · cases h

/-- **An object is read of exactly the texts of objects**, over the lexicon of the reader. -/
theorem loads_object_iff (F : FloatText) (text : String) :
    (∃ ms, loads F text = some (.obj ms)) ↔ ObjectText python text.toList := by
  constructor
  · rintro ⟨ms, h⟩
    obtain ⟨rest, hparse, hrest⟩ := loads_eq_some h
    obtain ⟨w, htext, hw⟩ := skipWs_sound text.toList
    obtain ⟨t, ht, hderives, hobject⟩ := (parse_sound F _).value hparse
    exact ⟨w, t, rest, by rw [← ht, ← htext], hw, hderives, hobject.mp ⟨ms, rfl⟩, hrest⟩
  · rintro ⟨w, t, w', htext, hw, ht, hbrace, hw'⟩
    have hlength : 2 * t.length ≤ 2 * text.toList.length + 2 := by
      rw [htext, List.length_append, List.length_append]
      omega
    have hfollows : Follows (w' ++ []) := .ws hw' (by simp [Follows])
    rw [List.append_nil] at hfollows
    obtain ⟨v, hparse⟩ := parse_complete F ht _ hlength w' hfollows
    -- What is read is what is derived, as the same is left of the text.
    obtain ⟨t', ht', -, hobject⟩ := (parse_sound F _).value hparse
    obtain rfl := List.append_cancel_right ht'
    obtain ⟨ms, rfl⟩ := hobject.mpr hbrace
    have hskip : skipWs text.toList = t ++ w' := by
      rw [htext, skipWs_append hw, (skipWs_value ht w').1]
    have hend : skipWs w' = [] := by
      have := skipWs_append hw' []
      rwa [List.append_nil] at this
    exact ⟨ms, by rw [loads, hskip, hparse]; exact if_pos hend⟩

end Json
