import Mathlib.Data.List.Infix
import Mathlib.Data.String.Basic

/-!
# `urlsplit`

Python's splitting of a URL into five parts. Leading control characters and blanks are dropped,
tabs and line ends are removed everywhere, and the scheme is lower-cased. The checks of a host that
need the Unicode or the address tables are parameters.

## Main definitions

* `Url.HostRules`: the checks that need tables
* `Url.urlsplit`: the five parts, or a `ValueError`

## Main results

* `scheme_eq_http_iff`: which spellings have the scheme `http`
-/

namespace Url

/-- The checks of a network location that need tables. -/
structure HostRules where
  /-- `_checknetloc`, of a location that is not ASCII. -/
  normalizes : String → Bool
  /-- `_check_bracketed_host`. -/
  bracketedHost : String → Bool

/-- The five parts of a URL. -/
structure SplitResult where
  scheme : String
  netloc : String
  path : String
  query : String
  fragment : String
  deriving DecidableEq, Repr

/-- A C0 control character or a blank. -/
def isC0OrSpace (c : Char) : Bool := c.toNat ≤ 0x20

/-- A character that is removed wherever it stands. -/
def isRemoved (c : Char) : Bool := c = '\t' || c = '\r' || c = '\n'

/-- A character of a scheme. -/
def isSchemeChar (c : Char) : Bool := c.isAlphanum || c = '+' || c = '-' || c = '.'

/-- The URL as it is split. -/
def clean (url : String) : List Char :=
  (url.toList.dropWhile isC0OrSpace).filter fun c => !isRemoved c

/-- The scheme, lower-cased, and what follows it. -/
def splitScheme (url : List Char) : List Char × List Char :=
  match url.dropWhile (· ≠ ':') with
  | [] => ([], url)
  | _ :: rest =>
    let name := url.takeWhile (· ≠ ':')
    if name.head?.any Char.isAlpha && name.all isSchemeChar then (name.map Char.toLower, rest)
    else ([], url)

/-- The network location, and what follows it. -/
def splitNetloc : List Char → List Char × List Char
  | '/' :: '/' :: rest =>
    (rest.takeWhile fun c => c ∉ ['/', '?', '#'], rest.dropWhile fun c => c ∉ ['/', '?', '#'])
  | url => ([], url)

/-- What stands before the first `sep`, and what stands after it. -/
def splitOn (sep : Char) (url : List Char) : List Char × List Char :=
  (url.takeWhile (· ≠ sep), (url.dropWhile (· ≠ sep)).tail)

variable (R : HostRules)

/-- The network location raises no `ValueError`. -/
def netlocAccepted (netloc : List Char) : Bool :=
  (decide ('[' ∈ netloc) == decide (']' ∈ netloc)) &&
    ('[' ∉ netloc || R.bracketedHost (String.ofList (splitOn ']' (splitOn '[' netloc).2).1)) &&
    (netloc.all (fun c => c.toNat < 128) || R.normalizes (String.ofList netloc))

/-- `urlsplit`: the five parts, or a `ValueError`. -/
def urlsplit (url : String) : Option SplitResult :=
  let (scheme, url) := splitScheme (clean url)
  let (netloc, url) := splitNetloc url
  let (url, fragment) := splitOn '#' url
  let (path, query) := splitOn '?' url
  if netlocAccepted R netloc then
    some ⟨String.ofList scheme, String.ofList netloc, String.ofList path, String.ofList query,
      String.ofList fragment⟩
  else none

/-- `username` or `password` is set: an `@` stands in the network location. -/
def SplitResult.hasUserinfo (parts : SplitResult) : Bool := '@' ∈ parts.netloc.toList

/-- An http(s) URL without credentials, query, or fragment. -/
def SplitResult.isPlainHttp (parts : SplitResult) : Bool :=
  parts.scheme ∈ ["http", "https"] && parts.netloc ≠ "" && !parts.hasUserinfo &&
    parts.query = "" && parts.fragment = ""

/-! ### The scheme -/

variable {R}

/-- Lower-casing changes capital letters only, and into letters. -/
theorem toLower_eq_self_or (c : Char) : c.toLower = c ∨ c.isAlpha ∧ c.toLower.isAlpha := by
  by_cases h : c.val ≥ 'A'.val ∧ c.val ≤ 'Z'.val
  · refine .inr ?_
    -- A capital letter is moved up by 32, from `A`..`Z` to `a`..`z`.
    have hval : c.toLower.val = c.val + ('a'.val - 'A'.val) := by
      delta Char.toLower
      rw [dif_pos h]
    have hA : 65 ≤ c.val.toNat := UInt32.le_iff_toNat_le.mp h.1
    have hZ : c.val.toNat ≤ 90 := UInt32.le_iff_toNat_le.mp h.2
    have hsum : c.toLower.val.toNat = c.val.toNat + 32 := by
      rw [hval, UInt32.toNat_add]
      exact Nat.mod_eq_of_lt (by have : ('a'.val - 'A'.val).toNat = 32 := rfl; omega)
    have ha : 'a'.val ≤ c.toLower.val := by
      rw [UInt32.le_iff_toNat_le, hsum]
      exact Nat.add_le_add_right hA 32
    have hz : c.toLower.val ≤ 'z'.val := by
      rw [UInt32.le_iff_toNat_le, hsum]
      exact Nat.add_le_add_right hZ 32
    have hupper : c.isUpper = true := decide_eq_true h
    have hlower : c.toLower.isLower = true :=
      Bool.and_eq_true_iff.mpr ⟨decide_eq_true ha, decide_eq_true hz⟩
    exact ⟨Bool.or_eq_true_iff.mpr (.inl hupper), Bool.or_eq_true_iff.mpr (.inr hlower)⟩
  · refine .inl ?_
    delta Char.toLower
    rw [dif_neg h]

theorem isAlpha_of_toLower {c : Char} (h : c.toLower.isAlpha) : c.isAlpha := by
  rcases toLower_eq_self_or c with he | ⟨hc, -⟩
  · rwa [he] at h
  · exact hc

theorem eq_colon_of_toLower {c : Char} (h : c.toLower = ':') : c = ':' := by
  rcases toLower_eq_self_or c with he | ⟨-, hc⟩
  · rw [← he, h]
  · rw [h] at hc
    exact absurd hc (by decide)

theorem splitScheme_append {name rest : List Char} (hcolon : ':' ∉ name)
    (hhead : name.head?.any Char.isAlpha) (hall : name.all isSchemeChar) :
    splitScheme (name ++ ':' :: rest) = (name.map Char.toLower, rest) := by
  have hne : ∀ c ∈ name, (decide (c ≠ ':')) = true := by
    intro c hc
    rw [decide_eq_true_eq]
    rintro rfl
    exact hcolon hc
  have hdrop : (name ++ ':' :: rest).dropWhile (· ≠ ':') = ':' :: rest := by
    rw [List.dropWhile_append_of_pos hne, List.dropWhile_cons_of_neg (by simp)]
  have htake : (name ++ ':' :: rest).takeWhile (· ≠ ':') = name := by
    rw [List.takeWhile_append_of_pos hne, List.takeWhile_cons_of_neg (by simp), List.append_nil]
  simp only [splitScheme, hdrop, htake, hhead, hall, Bool.and_self, if_true]

/-- A name that is lower-cased to letters is a scheme. -/
theorem splitScheme_of_toLower {name rest : List Char} (hne : name.map Char.toLower ≠ [])
    (h : (name.map Char.toLower).all Char.isAlpha = true) :
    splitScheme (name ++ ':' :: rest) = (name.map Char.toLower, rest) := by
  have halpha : ∀ c ∈ name, c.isAlpha := fun c hc =>
    isAlpha_of_toLower (List.all_eq_true.mp h _ (List.mem_map_of_mem hc))
  have hcolon : ':' ∉ name := fun h => absurd (halpha _ h) (by decide)
  have hhead : name.head?.any Char.isAlpha := by
    cases name with
    | nil => exact absurd rfl hne
    | cons d ds => exact halpha d List.mem_cons_self
  have hall : name.all isSchemeChar := by
    rw [List.all_eq_true]
    intro d hd
    simp [isSchemeChar, Char.isAlphanum, halpha d hd]
  exact splitScheme_append hcolon hhead hall

theorem splitScheme_eq_http_iff {url : List Char} :
    (splitScheme url).1 = "http".toList ↔ "http:".toList <+: url.map Char.toLower := by
  constructor
  · intro h
    have hnil : ([] : List Char) ≠ "http".toList := by decide
    unfold splitScheme at h
    split at h
    · -- There is no colon, and so no scheme.
      exact absurd h hnil
    · rename_i c rest hdrop
      simp only at h
      split at h
      · -- What precedes the first colon is the scheme, once it is lower-cased.
        have hc : c = ':' := by
          have := List.head?_dropWhile_not (fun c => decide (c ≠ ':')) url
          rw [hdrop] at this
          simpa using this
        refine ⟨rest.map Char.toLower, ?_⟩
        rw [← List.takeWhile_append_dropWhile (p := fun c => decide (c ≠ ':')) (l := url),
          List.map_append, hdrop, hc]
        exact congrArg (· ++ ':' :: rest.map Char.toLower) h.symm
      · exact absurd h hnil
  · -- Conversely the prefix is the lower-casing of a name and of a colon, which is a colon.
    rintro ⟨tail, htail⟩
    have hmap : url.map Char.toLower = "http".toList ++ ':' :: tail := htail.symm
    obtain ⟨name, rest', rfl, hname, hrest⟩ := List.map_eq_append_iff.mp hmap
    obtain ⟨c, rest, rfl, hc, -⟩ := List.map_eq_cons_iff.mp hrest
    obtain rfl := eq_colon_of_toLower hc
    rw [splitScheme_of_toLower (hname ▸ by decide) (hname ▸ by decide), hname]

/-- **The scheme is `http` iff the URL, as it is split, begins so in some letter case.** -/
theorem scheme_eq_http_iff {url : String} {parts : SplitResult} (h : urlsplit R url = some parts) :
    parts.scheme = "http" ↔ "http:".toList <+: (clean url).map Char.toLower := by
  rw [← splitScheme_eq_http_iff]
  unfold urlsplit at h
  simp only at h
  split at h
  · obtain rfl := Option.some.inj h
    rw [← String.toList_inj, String.toList_ofList]
  · cases h

end Url
