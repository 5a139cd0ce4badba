import Mathlib.Data.List.Dedup
import Mathlib.Data.List.Sort
import Mathlib.Data.List.TakeWhile
import Mathlib.Data.String.Basic

/-!
# Python text

The operations of Python's `str` the program uses. White space is what `str.isspace` accepts,
which is also what `str.strip` removes.

## Main definitions

* `Text.isSpace`, `Text.strip`: white space, and its removal at both ends
* `Text.sorted`: the distinct strings of a list, in order
* `Text.partition`: a text, split at the first of a character
* `Text.compareDigest`: the comparison of secrets

## Main results

* `strip_eq_empty_iff`: nothing is left iff every character is white space
* `strip_strip`: stripping twice is stripping once
* `sorted_congr`: sorting forgets order and repetition
-/

namespace Text

/-- The characters `str.isspace` accepts. -/
def isSpace (c : Char) : Bool :=
  let n := c.toNat
  (0x09 ≤ n && n ≤ 0x0d) || (0x1c ≤ n && n ≤ 0x20) || n == 0x85 || n == 0xa0 || n == 0x1680 ||
    (0x2000 ≤ n && n ≤ 0x200a) || n == 0x2028 || n == 0x2029 || n == 0x202f || n == 0x205f ||
    n == 0x3000

/-- Drop the characters that meet `p` at both ends. -/
def stripChars (p : Char → Bool) (cs : List Char) : List Char :=
  ((cs.dropWhile p).reverse.dropWhile p).reverse

/-- `str.strip()`. -/
def strip (s : String) : String := String.ofList (stripChars isSpace s.toList)

theorem stripChars_eq_nil_iff {p : Char → Bool} {cs : List Char} :
    stripChars p cs = [] ↔ ∀ c ∈ cs, p c := by
  unfold stripChars
  rw [List.reverse_eq_nil_iff, List.dropWhile_eq_nil_iff]
  constructor
  · intro h c hc
    rw [← List.takeWhile_append_dropWhile (p := p) (l := cs), List.mem_append] at hc
    rcases hc with hc | hc
    · exact List.mem_takeWhile_imp hc
    · exact h c (List.mem_reverse.mpr hc)
  · intro h c hc
    exact h c ((List.dropWhile_sublist p).subset (List.mem_reverse.mp hc))

/-- Nothing is left iff every character is white space. -/
theorem strip_eq_empty_iff {s : String} : strip s = "" ↔ ∀ c ∈ s.toList, isSpace c := by
  rw [strip, ← stripChars_eq_nil_iff, ← String.toList_inj, String.toList_ofList,
    String.toList_empty]

/-- A list whose two ends fail `p` is left as it is. -/
theorem stripChars_of_ends {p : Char → Bool} {cs : List Char} (hl : ∀ c ∈ cs.head?, p c = false)
    (hr : ∀ c ∈ cs.getLast?, p c = false) : stripChars p cs = cs := by
  have hd : ∀ {ds : List Char}, (∀ c ∈ ds.head?, p c = false) → ds.dropWhile p = ds := by
    rintro (_ | ⟨c, ds⟩) h
    · rfl
    · rw [List.dropWhile_cons_of_neg (by simp [h c (by simp)])]
  rw [stripChars, hd hl, hd (by simpa using hr), List.reverse_reverse]

theorem head?_dropWhile {p : Char → Bool} {cs : List Char} :
    ∀ c ∈ (cs.dropWhile p).head?, p c = false := by
  intro c hc
  have := List.head?_dropWhile_not p cs
  rw [Option.mem_def.mp hc] at this
  simpa using this

theorem getLast?_stripChars {p : Char → Bool} {cs : List Char} :
    ∀ c ∈ (stripChars p cs).getLast?, p c = false := by
  intro c hc
  exact head?_dropWhile c (by simpa [stripChars] using hc)

theorem head?_stripChars {p : Char → Bool} {cs : List Char} :
    ∀ c ∈ (stripChars p cs).head?, p c = false := by
  intro c hc
  -- Stripping at the end leaves a prefix of what stripping at the start left.
  have hpre : stripChars p cs <+: cs.dropWhile p := by
    rw [stripChars, ← List.reverse_suffix, List.reverse_reverse]
    exact List.dropWhile_suffix p
  obtain ⟨t, ht⟩ := hpre
  have hc' : c ∈ (cs.dropWhile p).head? := by
    rw [← ht, List.head?_append, Option.mem_def.mp hc]
    rfl
  exact head?_dropWhile c hc'

/-- Stripping twice is stripping once. -/
theorem strip_strip (s : String) : strip (strip s) = strip s := by
  rw [strip, strip, String.toList_ofList,
    stripChars_of_ends head?_stripChars getLast?_stripChars]

theorem mem_of_mem_strip {c : Char} {s : String} (h : c ∈ (strip s).toList) : c ∈ s.toList := by
  rw [strip, String.toList_ofList, stripChars, List.mem_reverse] at h
  have hd := (List.dropWhile_sublist isSpace).subset h
  exact (List.dropWhile_sublist isSpace).subset (List.mem_reverse.mp hd)

/-- `sorted(set(names))`. -/
def sorted (names : List String) : List String := names.dedup.mergeSort fun a b => a ≤ b

theorem mem_sorted {names : List String} {a : String} : a ∈ sorted names ↔ a ∈ names := by
  rw [sorted, (List.mergeSort_perm _ _).mem_iff, List.mem_dedup]

/-- Sorting forgets order and repetition. -/
theorem sorted_congr {xs ys : List String} (h : ∀ a, a ∈ xs ↔ a ∈ ys) : sorted xs = sorted ys := by
  have hperm : xs.dedup.Perm ys.dedup :=
    (List.perm_ext_iff_of_nodup (List.nodup_dedup _) (List.nodup_dedup _)).mpr
      fun a => by simp only [List.mem_dedup, h a]
  have hs : ∀ zs : List String, (sorted zs).Pairwise fun a b => a ≤ b := by
    intro zs
    have := @List.pairwise_mergeSort String (fun a b => decide (a ≤ b))
      (fun a b c hab hbc => by simpa using le_trans (by simpa using hab) (by simpa using hbc))
      (fun a b => by simpa using le_total a b) zs.dedup
    simpa [sorted] using this
  -- Sorted permutations of each other are equal.
  exact List.Perm.eq_of_pairwise (fun a b _ _ hab hba => le_antisymm hab hba) (hs xs) (hs ys)
    ((List.mergeSort_perm _ _).trans (hperm.trans (List.mergeSort_perm _ _).symm))

/-- `str.partition` at a character: what stands before the first one, and what stands behind it. -/
def partition (sep : Char) (s : String) : String × String :=
  (String.ofList (s.toList.takeWhile (· ≠ sep)), String.ofList (s.toList.dropWhile (· ≠ sep)).tail)

/-- `str.lower`, of the ASCII letters. -/
def lowerAscii (s : String) : String := String.ofList (s.toList.map Char.toLower)

/-- `str.isascii`. -/
def isAscii (s : String) : Bool := s.toList.all fun c => c.toNat < 0x80

theorem isAscii_strip {s : String} (h : isAscii s = true) : isAscii (strip s) = true := by
  rw [isAscii, List.all_eq_true] at h ⊢
  intro c hc
  exact h c (mem_of_mem_strip hc)

theorem isAscii_partition_snd {sep : Char} {s : String} (h : isAscii s = true) :
    isAscii (partition sep s).2 = true := by
  rw [isAscii, List.all_eq_true] at h ⊢
  intro c hc
  rw [partition, String.toList_ofList] at hc
  exact h c ((List.dropWhile_sublist _).subset (List.mem_of_mem_tail hc))

/-- `secrets.compare_digest` of two texts; none is its `TypeError`. -/
def compareDigest (a b : String) : Option Bool :=
  if isAscii a && isAscii b then some (a == b) else none

/-- Two texts are compared iff both are ASCII. -/
theorem compareDigest_eq_none_iff {a b : String} :
    compareDigest a b = none ↔ ¬ (isAscii a = true ∧ isAscii b = true) := by
  simp [compareDigest]

/-- Texts that are compared are the same iff they are equal. -/
theorem compareDigest_eq_true_iff {a b : String} :
    compareDigest a b = some true ↔ a = b ∧ compareDigest a b ≠ none := by
  by_cases h : (isAscii a && isAscii b) = true
  · simp [compareDigest, h]
  · simp [compareDigest, h]

theorem eq_of_compareDigest {a b : String} (h : compareDigest a b = some true) : a = b := by
  unfold compareDigest at h
  split_ifs at h
  exact eq_of_beq (Option.some.inj h)

end Text
