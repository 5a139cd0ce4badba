import DotmacIntegrator.Foundation.TextReplace
import DotmacIntegrator.Secrets.Resolver

/-!
# Redaction

On its way out a text has every held value replaced by a marker, one reference after the other.

## Main definitions

* `redact`: a text without the held values
* `Redactable`: a value that can be told from the marker

## Main results

* `redact_clean`: where every held value is redactable, none occurs in a redacted text
-/

namespace DotmacIntegrator.Secrets

open Text (Occurs)

/-- What a held value is replaced with. -/
def REDACTION : String := "«redacted»"

/-- A value that is looked up under some reference. -/
def Held.Holds (held : Held) (value : String) : Prop :=
  ∃ reference, held.get? reference = some value

/-- One reference: its value is replaced, if it is long enough and occurs. -/
def redactOne (held : Held) (cleaned reference : String) : String :=
  match held.get? reference with
  | none => cleaned
  | some value =>
    if value ≠ "" ∧ minimumRedactableLength ≤ value.length ∧ Occurs value cleaned then
      Text.replace value REDACTION cleaned
    else cleaned

/-- `redact`: every held value replaced by the marker. -/
def redact (held : Held) (text : String) : String :=
  if text = "" then text else held.keys.foldl (redactOne held) text

/-- A value that is long enough, has none of the marker's delimiters and is no part of its
word. -/
structure Redactable (value : String) : Prop where
  length : minimumRedactableLength ≤ value.length
  opening : '«' ∉ value.toList
  closing : '»' ∉ value.toList
  word : ¬ Occurs value "redacted"

variable {held : Held} {value : String}

theorem Redactable.ne_empty (h : Redactable value) : value ≠ "" := by
  rintro rfl
  exact absurd h.length (by decide)

theorem Redactable.marked (h : Redactable value) : Replace.Marked REDACTION.toList value.toList :=
  ⟨'«', "redacted".toList, '»', rfl, h.opening, h.closing, h.word⟩

/-- One reference brings no redactable value about. -/
theorem occurs_of_redactOne (h : Redactable value) {cleaned reference : String}
    (hv : Occurs value (redactOne held cleaned reference)) : Occurs value cleaned := by
  unfold redactOne at hv
  split at hv
  · exact hv
  · split_ifs at hv
    · rw [Occurs, Text.replace, String.toList_ofList] at hv
      exact Replace.infix_of_infix_all h.marked hv
    · exact hv

/-- One reference removes its own value. -/
theorem not_occurs_redactOne (h : Redactable value) {reference : String}
    (hr : held.get? reference = some value) (cleaned : String) :
    ¬ Occurs value (redactOne held cleaned reference) := by
  rw [redactOne, hr]
  simp only [h.ne_empty, h.length, ne_eq, not_false_eq_true, true_and]
  split_ifs with hocc
  · rw [Occurs, Text.replace, String.toList_ofList]
    apply Replace.not_infix_all h.marked
    rw [ne_eq, ← String.toList_empty, String.toList_inj]
    exact h.ne_empty
  · exact hocc

theorem occurs_of_foldl_redactOne (h : Redactable value) {references : List String}
    {cleaned : String} (hv : Occurs value (references.foldl (redactOne held) cleaned)) :
    Occurs value cleaned := by
  induction references generalizing cleaned with
  | nil => exact hv
  | cons reference references ih => exact occurs_of_redactOne h (ih hv)

/-- **A redacted text has no redactable held value in it.** -/
theorem redact_clean (h : Redactable value) (hheld : held.Holds value) (text : String) :
    ¬ Occurs value (redact held text) := by
  obtain ⟨reference, hr⟩ := hheld
  unfold redact
  split_ifs with hempty
  · rw [hempty]
    exact Text.not_occurs_empty h.ne_empty
  · have hmem : reference ∈ held.keys := by
      rw [← Dict.get?_isSome_iff, hr]
      rfl
    obtain ⟨before, after, hkeys⟩ := List.append_of_mem hmem
    rw [hkeys, List.foldl_append, List.foldl_cons]
    -- The value is removed at its reference, and no later one brings it back.
    intro hocc
    exact not_occurs_redactOne h hr _ (occurs_of_foldl_redactOne h hocc)

/-- A text in which no held value occurs is left as it is. -/
theorem redact_of_clean {text : String} (h : ∀ v, held.Holds v → ¬ Occurs v text) :
    redact held text = text := by
  have hone : ∀ reference, redactOne held text reference = text := by
    intro reference
    unfold redactOne
    split
    · rfl
    · next v hv => exact if_neg fun hc => h v ⟨reference, hv⟩ hc.2.2
  unfold redact
  split_ifs
  · rfl
  · induction held.keys with
    | nil => rfl
    | cons reference references ih => rw [List.foldl_cons, hone, ih]

/-- **Redaction leaves no held value**: where every held value is redactable, none occurs in a
redacted text; and a text in which none occurs is left as it is. -/
theorem redact_leaves_no_held_value (held : Held) (h : ∀ value, held.Holds value → Redactable value)
    (text : String) :
    (∀ value, held.Holds value → ¬ Occurs value (redact held text)) ∧
      ((∀ value, held.Holds value → ¬ Occurs value text) → redact held text = text) :=
  ⟨fun value hvalue => redact_clean (h value hvalue) hvalue text, redact_of_clean⟩

/-- A key and its rotation, which contains it. -/
def rotatedKeys : Held :=
  [("env://INTEGRATOR_SECRET_OLD", "sk-live-1"), ("env://INTEGRATOR_SECRET_NEW", "sk-live-1b")]

theorem holds_rotatedKeys (h : rotatedKeys.Holds value) :
    value = "sk-live-1" ∨ value = "sk-live-1b" := by
  obtain ⟨reference, hget⟩ := h
  rw [rotatedKeys, Dict.get?_cons, Dict.get?_cons] at hget
  split_ifs at hget with hold hnew
  · exact .inl (Option.some.inj hget).symm
  · exact .inr (Option.some.inj hget).symm
  · cases hget

theorem redactable_rotatedKeys (h : rotatedKeys.Holds value) : Redactable value := by
  rcases holds_rotatedKeys h with rfl | rfl
  · exact ⟨by decide +kernel, by decide +kernel, by decide +kernel, by decide +kernel⟩
  · exact ⟨by decide +kernel, by decide +kernel, by decide +kernel, by decide +kernel⟩

theorem redact_leaves_no_held_value_rotatedKeys :
    ¬ Occurs "sk-live-1b" (redact rotatedKeys "401 for sk-live-1b, was sk-live-1") ∧
      redact rotatedKeys "401 for sk-live-2" = "401 for sk-live-2" := by
  have hall : ∀ value, rotatedKeys.Holds value → Redactable value := fun _ h =>
    redactable_rotatedKeys h
  refine ⟨(redact_leaves_no_held_value rotatedKeys hall _).1 _
    ⟨"env://INTEGRATOR_SECRET_NEW", rfl⟩, (redact_leaves_no_held_value rotatedKeys hall _).2 ?_⟩
  intro value hvalue
  rcases holds_rotatedKeys hvalue with rfl | rfl
  · decide +kernel
  · decide +kernel

end DotmacIntegrator.Secrets
