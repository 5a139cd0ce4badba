import DotmacIntegrator.Foundation.Url
import Mathlib.Data.List.TakeWhile

/-!
# Spellings of a URL

`urlsplit` finds an http(s) URL without credentials, query, or fragment in exactly the texts that
spell one: the scheme in some letter case, `://`, a network location, and a path, behind which only
separators stand.

## Main definitions

* `PlainSpelling`: a spelling of such a URL

## Main results

* `isPlainHttp_iff`: which texts are split into one
-/

namespace Url

/-- A spelling of an http(s) URL without credentials, query, or fragment. -/
structure PlainSpelling (R : HostRules) (url : List Char) where
  name : List Char
  netloc : List Char
  path : List Char
  question : List Char
  hash : List Char
  spelled : url = name ++ ':' :: '/' :: '/' :: (netloc ++ (path ++ question ++ hash))
  scheme : name.map Char.toLower ∈ ["http".toList, "https".toList]
  netloc_ne : netloc ≠ []
  netloc_chars : ∀ c ∈ netloc, c ∉ ['/', '?', '#', '@']
  netloc_accepted : netlocAccepted R netloc = true
  path_start : path = [] ∨ path.head? = some '/'
  path_chars : ∀ c ∈ path, c ∉ ['?', '#']
  question_mem : question ∈ [[], ['?']]
  hash_mem : hash ∈ [[], ['#']]

/-! ### Cutting a text -/

/-- A text is cut in front of the first character that fails. -/
theorem cut_append {p : Char → Bool} {before after : List Char} (hbefore : ∀ c ∈ before, p c = true)
    (hafter : ∀ c ∈ after.head?, p c = false) :
    (before ++ after).takeWhile p = before ∧ (before ++ after).dropWhile p = after := by
  rw [List.takeWhile_append_of_pos hbefore, List.dropWhile_append_of_pos hbefore]
  cases after with
  | nil => simp
  | cons c after => simp [hafter c rfl]

/-- Where a text is cut. -/
theorem cut_spec (p : Char → Bool) (url : List Char) :
    url = url.takeWhile p ++ url.dropWhile p ∧ (∀ c ∈ url.takeWhile p, p c = true) ∧
      ∀ c ∈ (url.dropWhile p).head?, p c = false := by
  refine ⟨List.takeWhile_append_dropWhile.symm, fun c hc => List.mem_takeWhile_imp hc, ?_⟩
  intro c hc
  have hnot := List.head?_dropWhile_not p url
  rw [Option.mem_def.mp hc] at hnot
  simpa using hnot

/-! ### Splitting at a separator -/

variable {R : HostRules}

theorem splitOn_append {sep : Char} {before tail : List Char} (hbefore : sep ∉ before)
    (htail : tail ∈ [[], [sep]]) : splitOn sep (before ++ tail) = (before, []) := by
  have hne : ∀ c ∈ before, (decide (c ≠ sep)) = true := by
    intro c hc
    rw [decide_eq_true_eq]
    rintro rfl
    exact hbefore hc
  have hsep : ∀ c ∈ tail.head?, (decide (c ≠ sep)) = false := by
    rcases List.mem_pair.mp htail with rfl | rfl <;> simp
  obtain ⟨htake, hdrop⟩ := cut_append hne hsep
  rw [splitOn, htake, hdrop]
  rcases List.mem_pair.mp htail with rfl | rfl <;> rfl

theorem notMem_splitOn_fst (sep : Char) (url : List Char) : sep ∉ (splitOn sep url).1 := by
  intro h
  simpa using (cut_spec (· ≠ sep) url).2.1 sep h

/-- Where nothing stands behind the separator, the text ends in it or does not have it. -/
theorem eq_append_of_splitOn {sep : Char} {url : List Char} (h : (splitOn sep url).2 = []) :
    ∃ tail ∈ [[], [sep]], url = (splitOn sep url).1 ++ tail := by
  obtain ⟨hurl, -, hsep⟩ := cut_spec (· ≠ sep) url
  refine ⟨url.dropWhile (· ≠ sep), ?_, hurl⟩
  rw [splitOn] at h
  cases hdrop : url.dropWhile (· ≠ sep) with
  | nil => exact List.mem_cons_self
  | cons c rest =>
    rw [hdrop] at h hsep
    obtain rfl : rest = [] := h
    obtain rfl : c = sep := by simpa using hsep c rfl
    exact List.mem_cons_of_mem _ (List.mem_singleton_self _)

/-! ### Splitting the scheme and the network location off -/

/-- The letters of `http` and `https` are a scheme, in any letter case. -/
theorem splitScheme_of_http {name rest : List Char}
    (h : name.map Char.toLower ∈ ["http".toList, "https".toList]) :
    splitScheme (name ++ ':' :: rest) = (name.map Char.toLower, rest) := by
  have hletters : ∀ target ∈ ["http".toList, "https".toList],
      target ≠ [] ∧ target.all Char.isAlpha = true := by decide
  obtain ⟨hne, halpha⟩ := hletters _ h
  exact splitScheme_of_toLower hne halpha

/-- A scheme that is found stands in front of the first colon. -/
theorem eq_append_of_splitScheme {url : List Char} (hne : (splitScheme url).1 ≠ []) :
    ∃ name, url = name ++ ':' :: (splitScheme url).2 ∧
      name.map Char.toLower = (splitScheme url).1 := by
  obtain ⟨hurl, -, hcolon⟩ := cut_spec (· ≠ ':') url
  revert hne
  unfold splitScheme
  cases hdrop : url.dropWhile (· ≠ ':') with
  | nil => exact fun hne => absurd rfl hne
  | cons c rest =>
    rw [hdrop] at hurl hcolon
    obtain rfl : c = ':' := by simpa using hcolon c rfl
    simp only
    split
    · exact fun _ => ⟨_, hurl, rfl⟩
    · exact fun hne => absurd rfl hne

/-- What ends a network location. -/
def EndsNetloc (rest : List Char) : Prop := ∀ c ∈ rest.head?, c ∈ ['/', '?', '#']

theorem EndsNetloc.append {before after : List Char} (hbefore : EndsNetloc before)
    (hafter : EndsNetloc after) : EndsNetloc (before ++ after) := by
  intro c hc
  rw [List.head?_append, Option.mem_def, Option.or_eq_some_iff] at hc
  rcases hc with hc | ⟨-, hc⟩
  · exact hbefore c hc
  · exact hafter c hc

theorem endsNetloc_of_mem {sep : Char} (hsep : sep ∈ ['/', '?', '#']) {tail : List Char}
    (htail : tail ∈ [[], [sep]]) : EndsNetloc tail := by
  rcases List.mem_pair.mp htail with rfl | rfl
  · exact nofun
  · rintro c ⟨⟩
    exact hsep

theorem splitNetloc_append {netloc rest : List Char} (hnetloc : ∀ c ∈ netloc, c ∉ ['/', '?', '#'])
    (hrest : EndsNetloc rest) :
    splitNetloc ('/' :: '/' :: (netloc ++ rest)) = (netloc, rest) := by
  obtain ⟨htake, hdrop⟩ := cut_append (p := fun c => decide (c ∉ ['/', '?', '#']))
    (fun c hc => decide_eq_true (hnetloc c hc))
    (fun c hc => decide_eq_false (not_not.mpr (hrest c hc)))
  rw [splitNetloc, htake, hdrop]

/-- A network location that is found stands behind two slashes. -/
theorem eq_append_of_splitNetloc {url : List Char} (hne : (splitNetloc url).1 ≠ []) :
    url = '/' :: '/' :: ((splitNetloc url).1 ++ (splitNetloc url).2) ∧
      (∀ c ∈ (splitNetloc url).1, c ∉ ['/', '?', '#']) ∧ EndsNetloc (splitNetloc url).2 := by
  revert hne
  unfold splitNetloc
  split
  · rename_i rest
    obtain ⟨hrest, hin, hout⟩ := cut_spec (fun c => decide (c ∉ ['/', '?', '#'])) rest
    refine fun _ => ⟨?_, fun c hc => of_decide_eq_true (hin c hc), fun c hc => ?_⟩
    · rw [← hrest]
    · exact not_not.mp (of_decide_eq_false (hout c hc))
  · exact fun hne => absurd rfl hne

/-! ### The parts -/

/-- The parts of a URL, where no `ValueError` is raised. -/
theorem urlsplit_eq_some_iff {url : String} {parts : SplitResult} :
    urlsplit R url = some parts ↔
      netlocAccepted R (splitNetloc (splitScheme (clean url)).2).1 = true ∧
        parts =
          { scheme := String.ofList (splitScheme (clean url)).1
            netloc := String.ofList (splitNetloc (splitScheme (clean url)).2).1
            path := String.ofList
              (splitOn '?' (splitOn '#' (splitNetloc (splitScheme (clean url)).2).2).1).1
            query := String.ofList
              (splitOn '?' (splitOn '#' (splitNetloc (splitScheme (clean url)).2).2).1).2
            fragment := String.ofList
              (splitOn '#' (splitNetloc (splitScheme (clean url)).2).2).2 } := by
  simp only [urlsplit]
  split
  · rename_i haccepted
    exact ⟨fun h => ⟨haccepted, (Option.some.inj h).symm⟩, fun h => congrArg some h.2.symm⟩
  · rename_i hrefused
    exact ⟨nofun, fun h => absurd h.1 hrefused⟩

/-- An http(s) URL without credentials, query, or fragment, by its parts. -/
theorem isPlainHttp_ofList_iff {scheme netloc path query fragment : List Char} :
    (SplitResult.mk (String.ofList scheme) (String.ofList netloc) (String.ofList path)
        (String.ofList query) (String.ofList fragment)).isPlainHttp = true ↔
      scheme ∈ ["http".toList, "https".toList] ∧ netloc ≠ [] ∧ '@' ∉ netloc ∧ query = [] ∧
        fragment = [] := by
  have hscheme : String.ofList scheme ∈ ["http", "https"] ↔
      scheme ∈ ["http".toList, "https".toList] := by
    simp only [List.mem_cons, List.not_mem_nil, or_false, ← String.toList_inj,
      String.toList_ofList]
  have hempty : ∀ cs : List Char, String.ofList cs = "" ↔ cs = [] := by
    intro cs
    rw [← String.toList_inj, String.toList_ofList, String.toList_empty]
  simp only [SplitResult.isPlainHttp, SplitResult.hasUserinfo, Bool.and_eq_true,
    decide_eq_true_eq, Bool.not_eq_true', decide_eq_false_iff_not, hscheme, ne_eq, hempty,
    String.toList_ofList, and_assoc]

/-- A spelling is split into its parts. -/
theorem PlainSpelling.exists_parts {url : String} (spelling : PlainSpelling R (clean url)) :
    ∃ parts, urlsplit R url = some parts ∧ parts.isPlainHttp = true := by
  obtain ⟨name, netloc, path, question, hash, hspelled, hscheme, hne, hchars, haccepted, hstart,
    hpath, hquestion, hhash⟩ := spelling
  have hin : ∀ c ∈ netloc, c ∉ ['/', '?', '#'] := fun c hc hmem =>
    hchars c hc (List.mem_append_left ['@'] hmem)
  have huserinfo : '@' ∉ netloc := fun h => hchars _ h (by decide)
  have hfragment : '#' ∉ path ++ question := by
    rw [List.mem_append, not_or]
    refine ⟨fun h => hpath _ h (by decide), ?_⟩
    rcases List.mem_pair.mp hquestion with rfl | rfl <;> decide
  have hquery : '?' ∉ path := fun h => hpath _ h (by decide)
  have hslash : EndsNetloc path := by
    rcases hstart with rfl | hstart
    · exact nofun
    · intro c hc
      obtain rfl := Option.some.inj (hstart.symm.trans hc)
      decide
  have hends : EndsNetloc (path ++ question ++ hash) :=
    (hslash.append (endsNetloc_of_mem (by decide) hquestion)).append
      (endsNetloc_of_mem (by decide) hhash)
  refine ⟨_, urlsplit_eq_some_iff.mpr ⟨?_, rfl⟩, ?_⟩
  · rw [hspelled, splitScheme_of_http hscheme, splitNetloc_append hin hends]
    exact haccepted
  · rw [isPlainHttp_ofList_iff, hspelled, splitScheme_of_http hscheme,
      splitNetloc_append hin hends, splitOn_append hfragment hhash,
      splitOn_append hquery hquestion]
    exact ⟨hscheme, hne, huserinfo, rfl, rfl⟩

/-- The parts of an http(s) URL are spelled. -/
theorem exists_spelling {url : String} {parts : SplitResult} (h : urlsplit R url = some parts)
    (hplain : parts.isPlainHttp = true) : Nonempty (PlainSpelling R (clean url)) := by
  obtain ⟨haccepted, rfl⟩ := urlsplit_eq_some_iff.mp h
  obtain ⟨hscheme, hne, huserinfo, hquery, hfragment⟩ := isPlainHttp_ofList_iff.mp hplain
  have hname : (splitScheme (clean url)).1 ≠ [] := by
    intro hnil
    rw [hnil] at hscheme
    exact absurd hscheme (by decide)
  obtain ⟨name, hclean, hlower⟩ := eq_append_of_splitScheme hname
  obtain ⟨hslashes, hin, hends⟩ := eq_append_of_splitNetloc hne
  obtain ⟨hash, hhash, hbefore⟩ := eq_append_of_splitOn hfragment
  obtain ⟨question, hquestion, hpath⟩ := eq_append_of_splitOn hquery
  -- The path is what stands in front of both separators.
  generalize hrest : (splitNetloc (splitScheme (clean url)).2).2 = rest at *
  generalize hfront : (splitOn '#' rest).1 = front at *
  generalize hown : (splitOn '?' front).1 = path at *
  have hquestionMark : '?' ∉ path := hown ▸ notMem_splitOn_fst '?' front
  have hhashMark : '#' ∉ path := by
    intro hmem
    have hfrontMem : '#' ∈ front := hpath ▸ List.mem_append_left question hmem
    exact notMem_splitOn_fst '#' rest (hfront ▸ hfrontMem)
  refine ⟨⟨name, (splitNetloc (splitScheme (clean url)).2).1, path, question, hash, ?_,
    hlower ▸ hscheme, hne, ?_, haccepted, ?_, ?_, hquestion, hhash⟩⟩
  · rw [← hpath, ← hbefore, ← hslashes, ← hclean]
  · intro c hc hmem
    rcases List.mem_append.mp (show c ∈ ['/', '?', '#'] ++ ['@'] from hmem) with hend | hat
    · exact hin c hc hend
    · obtain rfl := List.mem_singleton.mp hat
      exact huserinfo hc
  · cases path with
    | nil => exact .inl rfl
    | cons c path =>
      -- What stands first behind the location ends it, and is neither `?` nor `#`.
      have hc : c ∈ ['/', '?', '#'] := by
        apply hends
        rw [hbefore, hpath]
        rfl
      rcases List.mem_cons.mp hc with rfl | hc
      · exact .inr rfl
      · rcases List.mem_pair.mp hc with rfl | rfl
        · exact absurd List.mem_cons_self hquestionMark
        · exact absurd List.mem_cons_self hhashMark
  · intro c hc hmem
    rcases List.mem_pair.mp hmem with rfl | rfl
    · exact hquestionMark hc
    · exact hhashMark hc

/-- **Which texts are split into an http(s) URL** without credentials, query, or fragment: those
that spell one, as they are cleaned. -/
theorem isPlainHttp_iff {url : String} :
    (∃ parts, urlsplit R url = some parts ∧ parts.isPlainHttp = true) ↔
      Nonempty (PlainSpelling R (clean url)) := by
  constructor
  · rintro ⟨parts, h, hplain⟩
    exact exists_spelling h hplain
  · rintro ⟨spelling⟩
    exact spelling.exists_parts

end Url
