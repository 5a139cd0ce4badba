import DotmacIntegrator.Foundation.OverlappingReplace
import DotmacIntegrator.Secrets.Redaction

/-!
# The order of redaction

Redaction replaces one held value after the other, each in the text that the ones before it left. Of
a value that overlaps another, as a rotated key overlaps its predecessor, a part may be left. To say
which part, the characters of a text carry their places through the replacements.

## Main definitions

* `redactIn`: redaction, with the references enumerated in some order
* `traced`, `Survives`: redaction of characters with their places, and what is left of them
* `RedactsEverything`: the order makes no difference, and nothing of an occurrence is left
* `HeldApart`: the occurrences that are replaced do not overlap, and cover all of them
* `Untouched`, `BesideMarkers`: a value does not reach into the marker, in any text or in those
  between the replacements

## Main results

* `traced_text`: tracing changes nothing
* `traced_eq_leavesOn`: what an order of the references leaves
* `redactsEverything_of_single`: one value alone
* `redactsEverything_iff_heldApart`: when everything is redacted
-/

namespace DotmacIntegrator.Secrets

open Text (Occurs)
open Replace (OccursAt Clear allOn placed picks leavesOn unmask)

variable (held : Held)

/-- `redact`, with the references enumerated in some order. -/
def redactIn (order : List String) (text : String) : String :=
  if text = "" then text else order.foldl (redactOne held) text

/-- The marker; its characters come from nowhere. -/
def placedMarker : List (Char × Option ℕ) := REDACTION.toList.map fun c => (c, none)

/-- One reference: its value is replaced, if it is long enough and occurs. -/
def traceOne (items : List (Char × Option ℕ)) (reference : String) : List (Char × Option ℕ) :=
  match held.get? reference with
  | none => items
  | some value =>
    if value ≠ "" ∧ minimumRedactableLength ≤ value.length ∧
        Occurs value (String.ofList (items.map Prod.fst)) then
      allOn Prod.fst value.toList placedMarker items
    else items

/-- The redacted text, each character with its place in the text. -/
def traced (order : List String) (text : String) : List (Char × Option ℕ) :=
  order.foldl (traceOne held) (placed 0 text.toList)

/-- The character at a place of the text is left. -/
def Survives (order : List String) (text : String) (j : ℕ) : Prop :=
  ∃ c, (c, some j) ∈ traced held order text

/-- **Everything is redacted**: the order of the references makes no difference, and no character of
an occurrence of a held value is left. -/
structure RedactsEverything (text : String) : Prop where
  order : ∀ order, order.Perm held.keys → redactIn held order text = redact held text
  covers : ∀ order, order.Perm held.keys → ∀ value, held.Holds value →
    ∀ i, OccursAt value.toList i text.toList →
      ∀ j, i ≤ j → j < i + value.length → ¬ Survives held order text j

/-- The occurrences that `str.replace` picks of different held values do not overlap, and those that
it picks cover every occurrence of a held value. -/
structure HeldApart (text : String) : Prop where
  apart : ∀ v, held.Holds v → ∀ w, held.Holds w → v ≠ w →
    ∀ i ∈ picks v.toList text.toList, ∀ j ∈ picks w.toList text.toList,
      i + v.length ≤ j ∨ j + w.length ≤ i
  covers : ∀ value, held.Holds value → ∀ i, OccursAt value.toList i text.toList →
    ∀ j, i ≤ j → j < i + value.length →
      ∃ v, held.Holds v ∧ ∃ k ∈ picks v.toList text.toList, k ≤ j ∧ j < k + v.length

/-- A value that does not reach into the marker, in any text. -/
def Untouched (value : String) : Prop := ∀ cs, Clear value.toList REDACTION.toList cs

/-- The values of the references, in some order. -/
def heldValues (order : List String) : List (List Char) :=
  order.map fun reference => ((held.get? reference).getD "").toList

/-- In whatever order: where the turn of a held value comes, and the marker stands for what was
masked before it, the value occurs beside the markers only. -/
def BesideMarkers (text : String) : Prop :=
  ∀ before value after, (before ++ value :: after).Perm (heldValues held held.keys) →
    ∀ i, OccursAt value i
        ((unmask placedMarker (leavesOn Prod.fst before (placed 0 text.toList))).map Prod.fst) →
      ∀ item ∈ ((unmask placedMarker (leavesOn Prod.fst before (placed 0 text.toList))).drop i).take
        value.length, item.2 ≠ none

variable {held} {order : List String} {text value : String}

theorem redact_eq_redactIn (held : Held) (text : String) :
    redact held text = redactIn held held.keys text := rfl

/-! ### Tracing -/

theorem map_fst_placedMarker : placedMarker.map Prod.fst = REDACTION.toList := by
  rw [placedMarker, List.map_map]
  exact List.map_id _

theorem map_fst_traceOne (items : List (Char × Option ℕ)) (reference : String) :
    String.ofList ((traceOne held items reference).map Prod.fst) =
      redactOne held (String.ofList (items.map Prod.fst)) reference := by
  unfold traceOne redactOne
  cases held.get? reference with
  | none => rfl
  | some value =>
    simp only
    split_ifs
    · rw [Replace.map_allOn, map_fst_placedMarker, Text.replace, String.toList_ofList]
    · rfl

theorem foldl_redactOne_empty (order : List String) : order.foldl (redactOne held) "" = "" := by
  have hone : ∀ reference, redactOne held "" reference = "" := by
    intro reference
    unfold redactOne
    split
    · rfl
    · exact if_neg fun h => Text.not_occurs_empty h.1 h.2.2
  induction order with
  | nil => rfl
  | cons reference order ih => rw [List.foldl_cons, hone, ih]

/-- **Tracing changes nothing**: the characters are those of the redacted text. -/
theorem traced_text (held : Held) (order : List String) (text : String) :
    String.ofList ((traced held order text).map Prod.fst) = redactIn held order text := by
  have hfold : ∀ (order : List String) (items : List (Char × Option ℕ)),
      String.ofList ((order.foldl (traceOne held) items).map Prod.fst) =
        order.foldl (redactOne held) (String.ofList (items.map Prod.fst)) := by
    intro order
    induction order with
    | nil => exact fun _ => rfl
    | cons reference order ih =>
      intro items
      rw [List.foldl_cons, List.foldl_cons, ih, map_fst_traceOne]
  rw [traced, hfold, Replace.map_fst_placed, String.ofList_toList]
  unfold redactIn
  split_ifs with hempty
  · rw [hempty, foldl_redactOne_empty]
  · rfl

/-- Nothing of the marker has a place. -/
theorem place_of_mem_placedMarker {c : Char} {place : Option ℕ} (h : (c, place) ∈ placedMarker) :
    place = none := by
  obtain ⟨c, -, heq⟩ := List.mem_map.mp h
  exact (Prod.mk.inj heq).2.symm

/-- A character with a place is left iff it is kept. -/
theorem mem_unmask_iff {ts : List (Option (Char × Option ℕ))} {c : Char} {j : ℕ} :
    (c, some j) ∈ unmask placedMarker ts ↔ some (c, some j) ∈ ts := by
  rw [unmask, List.mem_flatMap]
  constructor
  · rintro ⟨t, ht, hmem⟩
    cases t with
    | none => cases place_of_mem_placedMarker hmem
    | some item =>
      obtain rfl := List.mem_singleton.mp hmem
      exact ht
  · exact fun h => ⟨_, h, List.mem_singleton.mpr rfl⟩

/-! ### The values, in their order -/

theorem mem_heldValues {v : List Char} :
    v ∈ heldValues held held.keys ↔ ∃ value, held.Holds value ∧ value.toList = v := by
  rw [heldValues, List.mem_map]
  constructor
  · rintro ⟨reference, hmem, rfl⟩
    obtain ⟨value, hvalue⟩ := Option.isSome_iff_exists.mp (Dict.get?_isSome_iff.mpr hmem)
    exact ⟨value, ⟨reference, hvalue⟩, by rw [hvalue, Option.getD_some]⟩
  · rintro ⟨value, ⟨reference, hvalue⟩, rfl⟩
    refine ⟨reference, Dict.get?_isSome_iff.mp (by rw [hvalue]; rfl), ?_⟩
    rw [hvalue, Option.getD_some]

/-- Every order of the values is that of some order of the references. -/
theorem exists_order {vs : List (List Char)} (h : vs.Perm (heldValues held held.keys)) :
    ∃ order, order.Perm held.keys ∧ heldValues held order = vs :=
  List.exists_perm_map_eq h

variable (hlength : ∀ value, held.Holds value → minimumRedactableLength ≤ value.length)

include hlength

theorem ne_nil_of_mem_heldValues {v : List Char} (h : v ∈ heldValues held held.keys) : v ≠ [] := by
  obtain ⟨value, hvalue, rfl⟩ := mem_heldValues.mp h
  have := hlength value hvalue
  rw [minimumRedactableLength, ← String.length_toList] at this
  rintro hnil
  rw [hnil] at this
  cases this

/-- Tracing replaces the values in their order. -/
theorem traced_eq (horder : order.Perm held.keys) (text : String) :
    traced held order text = (heldValues held order).foldl
      (fun items v => allOn Prod.fst v placedMarker items) (placed 0 text.toList) := by
  have hone : ∀ reference ∈ order, ∀ items, traceOne held items reference =
      allOn Prod.fst ((held.get? reference).getD "").toList placedMarker items := by
    intro reference hmem items
    obtain ⟨value, hvalue⟩ := Option.isSome_iff_exists.mp
      (Dict.get?_isSome_iff.mpr (horder.mem_iff.mp hmem))
    have hlong := hlength value ⟨reference, hvalue⟩
    rw [traceOne, hvalue]
    simp only [Option.getD_some]
    split_ifs with hcase
    · rfl
    · -- What is long enough and not replaced does not occur.
      have hne : value ≠ "" := by
        rintro rfl
        exact absurd hlong (by decide)
      symm
      refine Replace.allOn_of_not_infix fun hoccurs => hcase ⟨hne, hlong, ?_⟩
      rw [Occurs, String.toList_ofList]
      exact hoccurs
  unfold traced heldValues
  rw [List.foldl_map]
  exact List.foldl_ext _ _ _ fun items reference hmem => hone reference hmem items

/-- **What an order of the references leaves**, where no value reaches into a marker: the marker,
for what was masked. -/
theorem traced_eq_leavesOn
    (hmarkers : (∀ value, held.Holds value → Untouched value) ∨ BesideMarkers held text)
    (horder : order.Perm held.keys) :
    traced held order text =
      unmask placedMarker (leavesOn Prod.fst (heldValues held order) (placed 0 text.toList)) := by
  have hperm : (heldValues held order).Perm (heldValues held held.keys) := horder.map _
  have hne : ∀ v ∈ heldValues held order, v ≠ [] := fun v hv =>
    ne_nil_of_mem_heldValues hlength (hperm.mem_iff.mp hv)
  rw [traced_eq hlength horder]
  rcases hmarkers with huntouched | hbeside
  · rw [leavesOn, ← Replace.foldl_allOn_unmask (by decide) hne, Replace.unmask_map_some]
    intro v hv
    obtain ⟨value, hvalue, rfl⟩ := mem_heldValues.mp (hperm.mem_iff.mp hv)
    rw [map_fst_placedMarker]
    exact huntouched value hvalue
  · -- By induction on how many values were replaced.
    suffices ∀ before after, heldValues held order = before ++ after →
        before.foldl (fun items v => allOn Prod.fst v placedMarker items) (placed 0 text.toList) =
          unmask placedMarker (leavesOn Prod.fst before (placed 0 text.toList)) from
      this _ [] (List.append_nil _).symm
    intro before
    induction before using List.reverseRecOn with
    | nil => exact fun _ _ => (Replace.unmask_map_some _).symm
    | append_singleton before v ih =>
      intro after hvalues
      rw [List.append_assoc, List.singleton_append] at hvalues
      have hv : v ∈ heldValues held order := by
        rw [hvalues]
        exact List.mem_append_right _ (.head _)
      rw [List.foldl_append, ih _ hvalues, Replace.leavesOn_concat, List.foldl_cons, List.foldl_nil]
      refine Replace.allOn_unmask_of_kept (hne v hv) (by decide) (fun item hitem hplace => ?_)
        (hbeside before v after (hvalues ▸ hperm))
      exact hplace (place_of_mem_placedMarker hitem)

omit hlength in
theorem heldApart_iff_pickedApart :
    HeldApart held text ↔ Replace.PickedApart (heldValues held held.keys) text.toList := by
  constructor
  · intro h
    constructor
    · intro v hv w hw hvw i hi j hj
      obtain ⟨value, hvalue, rfl⟩ := mem_heldValues.mp hv
      obtain ⟨other, hother, rfl⟩ := mem_heldValues.mp hw
      exact h.apart value hvalue other hother (fun heq => hvw (heq ▸ rfl)) i hi j hj
    · intro v hv i hoccurs j hij hj
      obtain ⟨value, hvalue, rfl⟩ := mem_heldValues.mp hv
      obtain ⟨other, hother, k, hk, hle, hlt⟩ := h.covers value hvalue i hoccurs j hij hj
      exact ⟨_, mem_heldValues.mpr ⟨other, hother, rfl⟩, k, hk, hle, hlt⟩
  · intro h
    constructor
    · intro v hv w hw hvw i hi j hj
      exact h.apart _ (mem_heldValues.mpr ⟨v, hv, rfl⟩) _ (mem_heldValues.mpr ⟨w, hw, rfl⟩)
        (fun heq => hvw (String.toList_injective heq)) i hi j hj
    · intro value hvalue i hoccurs j hij hj
      obtain ⟨v, hv, k, hk, hle, hlt⟩ :=
        h.covers _ (mem_heldValues.mpr ⟨value, hvalue, rfl⟩) i hoccurs j hij hj
      obtain ⟨other, hother, rfl⟩ := mem_heldValues.mp hv
      exact ⟨other, hother, k, hk, hle, hlt⟩

/-- What the condition is enough for: every order masks the same, and what is masked is not left. -/
theorem redactsEverything_of_heldApart
    (hmarkers : (∀ value, held.Holds value → Untouched value) ∨ BesideMarkers held text)
    (hapart : HeldApart held text) : RedactsEverything held text := by
  have hpicked := heldApart_iff_pickedApart.mp hapart
  have hne : ∀ v ∈ heldValues held held.keys, v ≠ [] := fun v hv =>
    ne_nil_of_mem_heldValues hlength hv
  have hmask : ∀ order, order.Perm held.keys → traced held order text = unmask placedMarker
      (Replace.mask Prod.fst (heldValues held held.keys) (placed 0 text.toList)) := by
    intro order horder
    rw [traced_eq_leavesOn hlength hmarkers horder, Replace.leavesOn_eq_mask hne]
    · rw [Replace.map_fst_placed]
      exact hpicked.apart
    · exact fun v => (horder.map _).mem_iff
  constructor
  · intro order horder
    rw [redact_eq_redactIn, ← traced_text, ← traced_text, hmask order horder, hmask _ (.refl _)]
  · rintro order horder value hvalue i hoccurs j hij hj ⟨c, hc⟩
    rw [hmask order horder, mem_unmask_iff, ← Nat.zero_add j] at hc
    obtain ⟨-, hcovered⟩ := (Replace.mem_mask_placed_iff hne hpicked.apart).mp ⟨c, hc⟩
    refine hcovered (hpicked.covers _ (mem_heldValues.mpr ⟨value, hvalue, rfl⟩) i hoccurs j hij ?_)
    rwa [String.length_toList]

/-- What it is needed for: where everything is redacted, the values are replaced uniformly. -/
theorem uniform_of_redactsEverything
    (hmarkers : (∀ value, held.Holds value → Untouched value) ∨ BesideMarkers held text)
    (h : RedactsEverything held text) :
    Replace.Uniform REDACTION.toList.length (heldValues held held.keys) 0 text.toList := by
  -- What an order of the values leaves is what redaction in an order of the references leaves.
  have hleaves : ∀ vs, vs.Perm (heldValues held held.keys) → ∃ order, order.Perm held.keys ∧
      traced held order text =
        unmask placedMarker (leavesOn Prod.fst vs (placed 0 text.toList)) := by
    intro vs hvs
    obtain ⟨order, horder, rfl⟩ := exists_order hvs
    exact ⟨order, horder, traced_eq_leavesOn hlength hmarkers horder⟩
  have hsize : ∀ vs, vs.Perm (heldValues held held.keys) →
      (leavesOn Prod.fst vs (placed 0 text.toList)).countP Option.isSome +
        REDACTION.toList.length *
          (leavesOn Prod.fst vs (placed 0 text.toList)).countP Option.isNone =
            (redact held text).toList.length := by
    intro vs hvs
    obtain ⟨order, horder, htraced⟩ := hleaves vs hvs
    have hmarker : placedMarker.length = REDACTION.toList.length := List.length_map _
    rw [← h.order order horder, ← traced_text, htraced, String.toList_ofList, List.length_map,
      Replace.length_unmask, hmarker]
  constructor
  · intro vs hvs vs' hvs'
    rw [hsize vs hvs, hsize vs' hvs']
  · rintro vs hvs j ⟨v, hv, i, hoccurs, hij, hj⟩ c hc
    obtain ⟨value, hvalue, rfl⟩ := mem_heldValues.mp hv
    obtain ⟨order, horder, htraced⟩ := hleaves vs hvs
    rw [String.length_toList] at hj
    refine h.covers order horder value hvalue i hoccurs j hij hj ⟨c, ?_⟩
    rw [htraced, mem_unmask_iff, ← Nat.zero_add j]
    exact hc

/-- Where one value alone is held, under however many references, and its occurrences are covered,
everything is redacted. -/
theorem redactsEverything_of_single {only : String}
    (honly : ∀ value, held.Holds value → value = only) (hapart : HeldApart held text) :
    RedactsEverything held text := by
  -- In every order the same value is replaced, as often as there are references.
  have hsame : ∀ order, order.Perm held.keys →
      heldValues held order = List.replicate held.keys.length only.toList := by
    intro order horder
    rw [List.eq_replicate_iff, heldValues, List.length_map]
    refine ⟨horder.length_eq, fun v hv => ?_⟩
    obtain ⟨value, hvalue, rfl⟩ := mem_heldValues.mp ((horder.map _).mem_iff.mp hv)
    rw [honly value hvalue]
  constructor
  · intro order horder
    rw [redact_eq_redactIn, ← traced_text, ← traced_text, traced_eq hlength horder,
      traced_eq hlength (List.Perm.refl _), hsame order horder, hsame _ (List.Perm.refl _)]
  · rintro order horder value hvalue i hoccurs j hij hj ⟨c, hc⟩
    obtain rfl := honly value hvalue
    have hne : value.toList ≠ [] :=
      ne_nil_of_mem_heldValues hlength (mem_heldValues.mpr ⟨value, hvalue, rfl⟩)
    obtain ⟨n, hn⟩ : ∃ n, held.keys.length = n + 1 := by
      obtain ⟨reference, hget⟩ := hvalue
      have hmem : reference ∈ held.keys := Dict.get?_isSome_iff.mp (by rw [hget]; rfl)
      exact Nat.exists_eq_add_one.mpr (List.length_pos_of_mem hmem)
    rw [traced_eq hlength horder, hsame order horder, hn, List.replicate_succ,
      List.foldl_cons] at hc
    have hpicked : Replace.PicksApart [value.toList] text.toList := by
      intro v hv w hw hvw
      exact absurd ((List.mem_singleton.mp hv).trans (List.mem_singleton.mp hw).symm) hvw
    -- What the first replacement does not keep, no later one brings back.
    have hmasked := (Replace.mem_of_mem_foldl_allOn hc).resolve_right fun hmarker => by
      cases place_of_mem_placedMarker hmarker
    rw [Replace.allOn_eq_unmask hne, mem_unmask_iff, ← Nat.zero_add j] at hmasked
    change some (c, some (0 + j)) ∈ leavesOn Prod.fst [value.toList] (placed 0 text.toList)
      at hmasked
    rw [Replace.leavesOn_eq_mask (by simpa using hne) (by rwa [Replace.map_fst_placed])
      fun _ => Iff.rfl] at hmasked
    obtain ⟨-, hcovered⟩ := (Replace.mem_mask_placed_iff (by simpa using hne) hpicked).mp
      ⟨c, hmasked⟩
    obtain ⟨v, hv, k, hk, hle, hlt⟩ := hapart.covers value hvalue i hoccurs j hij hj
    obtain rfl := honly v hv
    refine hcovered ⟨_, .head _, k, hk, hle, ?_⟩
    rwa [String.length_toList]

omit hlength

/-- A redactable value does not reach into the marker. -/
theorem Redactable.untouched (h : Redactable value) : Untouched value := by
  intro cs i j hi hj
  by_contra hover
  rw [not_or, not_or, not_le, not_le] at hover
  obtain ⟨-, hbehind, hbefore⟩ := hover
  have hmarker : REDACTION.toList = '«' :: ("redacted".toList ++ ['»']) := rfl
  have hsize : REDACTION.toList.length = 10 := rfl
  rw [hsize] at hbefore
  -- The value has the characters of the marker that it reaches over.
  have hchar : ∀ k < 10, ∀ c, REDACTION.toList[k]? = some c → i ≤ j + k →
      j + k < i + value.toList.length → c ∈ value.toList := by
    intro k hk c hc hlow hhigh
    have hmarked := hj.getElem? (hsize ▸ hk)
    have hvalue := hi.getElem? (show j + k - i < value.toList.length by omega)
    rw [show i + (j + k - i) = j + k by omega, hmarked, hc] at hvalue
    exact List.mem_of_getElem? hvalue.symm
  rcases Nat.lt_or_ge j i with hlt | hle
  · rcases Nat.lt_or_ge (j + 9) (i + value.toList.length) with hend | hinside
    · exact h.closing (hchar 9 (by omega) '»' rfl (by omega) (by omega))
    · -- The value lies between the delimiters.
      obtain ⟨n, rfl⟩ : ∃ n, i = j + (n + 1) := ⟨i - j - 1, by omega⟩
      have hlong := h.length
      rw [minimumRedactableLength, ← String.length_toList] at hlong
      obtain ⟨rest, hrest⟩ := hj
      have hword : "redacted".toList.length = 8 := rfl
      have hplace : value.toList <+: "redacted".toList.drop n ++ ('»' :: rest) := by
        have hi' := hi
        rw [OccursAt, ← List.drop_drop, ← hrest, hmarker, List.cons_append, List.drop_succ_cons,
          List.append_assoc, List.singleton_append,
          List.drop_append_of_le_length (by omega)] at hi'
        exact hi'
      refine h.word ?_
      refine List.IsInfix.trans (List.IsPrefix.isInfix ?_) (List.drop_suffix n _).isInfix
      refine List.prefix_of_prefix_length_le hplace (List.prefix_append _ _) ?_
      rw [List.length_drop, hword]
      omega
  · exact h.opening (hchar 0 (by omega) '«' rfl (by omega) (by omega))

/-- Only the old key occurs, and only once. -/
theorem heldApart_rotatedKeys : HeldApart rotatedKeys "was sk-live-1, is sk-live-2" := by
  have hold : picks "sk-live-1".toList "was sk-live-1, is sk-live-2".toList = [4] := by
    decide +kernel
  have hnew : picks "sk-live-1b".toList "was sk-live-1, is sk-live-2".toList = [] := by
    decide +kernel
  have honce : ∀ i < 27, "sk-live-1".toList <+: "was sk-live-1, is sk-live-2".toList.drop i →
      i = 4 := by decide +kernel
  constructor
  · intro v hv w hw hvw i hi j hj
    rcases holds_rotatedKeys hv with rfl | rfl
    · rcases holds_rotatedKeys hw with rfl | rfl
      · exact absurd rfl hvw
      · exact absurd (hnew ▸ hj) List.not_mem_nil
    · exact absurd (hnew ▸ hi) List.not_mem_nil
  · intro value hvalue i hoccurs j hij hj
    rcases holds_rotatedKeys hvalue with rfl | rfl
    · -- An occurrence begins inside the text.
      have hsize : "was sk-live-1, is sk-live-2".toList.length = 27 := by decide +kernel
      have hlong : 0 < "sk-live-1".toList.length := by decide +kernel
      have hlen := hoccurs.length_le
      rw [List.length_drop, hsize] at hlen
      obtain rfl := honce i (by omega) hoccurs
      exact ⟨_, hvalue, 4, hold ▸ .head _, hij, hj⟩
    · obtain ⟨q, hq, -⟩ := Replace.exists_picks_le (by decide +kernel) hoccurs
      exact absurd (hnew ▸ hq) List.not_mem_nil

end DotmacIntegrator.Secrets
