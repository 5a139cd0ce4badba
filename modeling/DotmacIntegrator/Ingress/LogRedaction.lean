import DotmacIntegrator.Foundation.Blanking
import DotmacIntegrator.Foundation.PyLogging
import DotmacIntegrator.Foundation.Text

/-!
# Ingress keys in the logs

An ingress key is the path segment behind `/ingress/`. A filter replaces the keys in the rendered
message of a record, and drops its arguments. It is installed on three loggers by name; a record
that is logged through another one, a child of theirs among them, passes no filter of theirs.

## Main definitions

* `redactIngressKeys`: a text, with its keys replaced
* `LogFilter`, `installLogRedaction`: the filter, and the loggers that get it
* `IngressKey`, `Clean`: a key in a message, and a record without any
* `Keyless`: a text without keys

## Main results

* `redaction_removes_keys_only`: what redaction does to a text
* `handlers_receive_no_key_iff`: through which loggers no handler receives a key
-/

namespace DotmacIntegrator.Ingress

open PyLogging

/-- What replaces a key. -/
def REDACTED : String := "<redacted>"

/-- The characters of a path segment, as far as it is taken for a key. -/
def keyChar (c : Char) : Bool := !Text.isSpace c && c ∉ ['/', '?', '"', '\'', '#']

/-- What a key stands behind. -/
def ingressPath : List Char := "/ingress/".toList

/-- `redact_ingress_keys`. -/
def redactIngressKeys (text : String) : String :=
  String.ofList (Blanking.blank keyChar ingressPath REDACTED.toList text.toList)

variable {Obj : Type}

/-- A filter of a logger: the redacting one, or another, that keeps or drops a record. -/
inductive LogFilter (Obj : Type)
  | ingressKeyRedacting
  | other (keeps : LogRecord Obj → Bool)

/-- The filter is an `IngressKeyRedactingFilter`. -/
def LogFilter.isRedacting : LogFilter Obj → Bool
  | ingressKeyRedacting => true
  | other _ => false

/-- What the redacting filter makes of a record: nothing, where it cannot be rendered. -/
def redactRecord (F : Formatting Obj) (record : LogRecord Obj) : LogRecord Obj :=
  match record.getMessage F with
  | none => record
  | some rendered =>
    if redactIngressKeys rendered ≠ rendered then
      { record with msg := .text (redactIngressKeys rendered), args := [] }
    else record

/-- `filter`. -/
def LogFilter.apply (F : Formatting Obj) : LogFilter Obj → LogRecord Obj → Option (LogRecord Obj)
  | ingressKeyRedacting, record => some (redactRecord F record)
  | other keeps, record => if keeps record then some record else none

/-- The loggers the filter is installed on. -/
def REDACTED_LOGGERS : List LoggerName :=
  [logger ["uvicorn", "access"], logger ["uvicorn", "error"], logger ["dotmac_integrator"]]

/-- The filter, added to a logger that does not have it. -/
def installOn (logging : Logging (LogFilter Obj)) (name : LoggerName) : Logging (LogFilter Obj) :=
  if (logging.filters name).any LogFilter.isRedacting then logging
  else
    { logging with
      filters := Function.update logging.filters name
        (logging.filters name ++ [.ingressKeyRedacting]) }

/-- `install_log_redaction`. -/
def installLogRedaction (logging : Logging (LogFilter Obj)) : Logging (LogFilter Obj) :=
  REDACTED_LOGGERS.foldl installOn logging

/-! ### Keys -/

/-- The part `key` of a message is an ingress key: the longest sequence of characters of a path
segment behind `/ingress/`. What replaces a key is none. -/
structure IngressKey (before key after : List Char) : Prop where
  run : Blanking.IsRun keyChar ingressPath before key after
  ne : key ≠ REDACTED.toList

/-- The message has an ingress key. -/
def HasKey (rendered : String) : Prop :=
  ∃ before key after, rendered.toList = before ++ (key ++ after) ∧ IngressKey before key after

/-- No character of a key of the message is left: the record has no arguments, and its message is
the one rendered, with what replaces a key in the place of each. -/
def Clean (rendered : String) (left : LogRecord Obj) : Prop :=
  left.args = [] ∧ ∃ out, left.msg = .text out ∧
    Blanking.Blanked keyChar ingressPath REDACTED.toList rendered.toList out.toList

theorem blanked_redactIngressKeys (text : String) :
    Blanking.Blanked keyChar ingressPath REDACTED.toList text.toList
      (redactIngressKeys text).toList := by
  rw [redactIngressKeys, String.toList_ofList]
  exact Blanking.blanked_blank ⟨'/', rfl, rfl⟩ _ _

/-- The path is fenced by its slashes, and what is between them does not replace a key. -/
theorem fenced_ingressPath : Blanking.Fenced keyChar ingressPath REDACTED.toList where
  parts := ⟨'/', "ingress".toList, '/', rfl, rfl, rfl, List.all_eq_true.mp (by decide),
    by simp [REDACTED]⟩
  ne := by simp [REDACTED]
  mem := List.all_eq_true.mp (by decide)

/-- A message with a key is not left as it is. -/
theorem not_blanked_self {rendered : String} (h : HasKey rendered) :
    ¬ Blanking.Blanked keyChar ingressPath REDACTED.toList rendered.toList rendered.toList := by
  obtain ⟨before, key, after, htext, hkey⟩ := h
  intro hself
  rw [htext] at hself
  exact hkey.ne (Blanking.eq_of_blanked_self fenced_ingressPath.mem hself hkey.run)

theorem redactIngressKeys_ne {rendered : String} (h : HasKey rendered) :
    redactIngressKeys rendered ≠ rendered := by
  intro heq
  have hblanked := blanked_redactIngressKeys rendered
  rw [heq] at hblanked
  exact not_blanked_self h hblanked

/-- Wherever the path is followed by a character of a path segment, it is followed by what replaces
a key, and that by another character or by the end of the text. -/
def Keyless (text : String) : Prop :=
  ∀ before c after, text.toList = before ++ (ingressPath ++ c :: after) → keyChar c = true →
    ∃ rest, c :: after = REDACTED.toList ++ rest ∧ ∀ d ∈ rest.head?, keyChar d = false

/-- A text that is left as it is is keyless. -/
theorem keyless_of_redactIngressKeys_eq {text : String} (h : redactIngressKeys text = text) :
    Keyless text := by
  intro before c after htext hc
  set key := (c :: after).takeWhile keyChar with hkey
  set rest := (c :: after).dropWhile keyChar with hrest
  have hsplit : key ++ rest = c :: after := List.takeWhile_append_dropWhile
  have hstop : ∀ d ∈ rest.head?, keyChar d = false := by
    intro d hd
    have := List.head?_dropWhile_not keyChar (c :: after)
    rw [← hrest, Option.mem_def.mp hd] at this
    simpa using this
  have hrun : Blanking.IsRun keyChar ingressPath (before ++ ingressPath) key rest :=
    { ne := by simp [hkey, List.takeWhile_cons_of_pos hc]
      mem := fun d hd => List.mem_takeWhile_imp hd
      behind := List.suffix_append before ingressPath
      longest := hstop }
  have hself := blanked_redactIngressKeys text
  rw [h, htext, ← hsplit, ← List.append_assoc before] at hself
  refine ⟨rest, ?_, hstop⟩
  rw [← hsplit, Blanking.eq_of_blanked_self fenced_ingressPath.mem hself hrun]

theorem redactIngressKeys_redactIngressKeys (text : String) :
    redactIngressKeys (redactIngressKeys text) = redactIngressKeys text := by
  rw [redactIngressKeys, redactIngressKeys, String.toList_ofList,
    Blanking.blank_blank fenced_ingressPath]

/-- **Redaction removes every key and nothing else.** What it leaves is keyless, and is the text
with its keys replaced; redacting it again changes nothing. -/
theorem redaction_removes_keys_only (text : String) :
    Keyless (redactIngressKeys text) ∧
      Blanking.Blanked keyChar ingressPath REDACTED.toList text.toList
        (redactIngressKeys text).toList ∧
      redactIngressKeys (redactIngressKeys text) = redactIngressKeys text :=
  ⟨keyless_of_redactIngressKeys_eq (redactIngressKeys_redactIngressKeys text),
    blanked_redactIngressKeys text, redactIngressKeys_redactIngressKeys text⟩

/-! ### The filter -/

variable {F : Formatting Obj} {record : LogRecord Obj} {rendered : String}

/-- The filter cleans a record whose message has a key. -/
theorem clean_redactRecord (hrendered : record.getMessage F = some rendered)
    (hkey : HasKey rendered) : Clean rendered (redactRecord F record) := by
  have hne := redactIngressKeys_ne hkey
  simp only [redactRecord, hrendered, if_pos hne]
  exact ⟨rfl, _, rfl, blanked_redactIngressKeys rendered⟩

/-- A record whose message has a key is not clean as it is. -/
theorem not_clean_self (hrendered : record.getMessage F = some rendered)
    (hkey : HasKey rendered) : ¬ Clean rendered record := by
  rintro ⟨hargs, out, hmsg, hblanked⟩
  -- Without arguments the message is what is rendered.
  have hout : out = rendered := by
    simpa [LogRecord.getMessage, hargs, hmsg, Message.render] using hrendered
  rw [hout] at hblanked
  exact not_blanked_self hkey hblanked

/-! ### Installation -/

/-- The filter, on further loggers. -/
def withFilter (logging : Logging (LogFilter Obj)) (names : List LoggerName) :
    Logging (LogFilter Obj) :=
  { logging with
    filters := fun name =>
      logging.filters name ++ if name ∈ names then [.ingressKeyRedacting] else [] }

/-- Installing on loggers that do not have the filter gives it to each of them. -/
theorem foldl_installOn {names : List LoggerName} (hnodup : names.Nodup)
    {logging : Logging (LogFilter Obj)}
    (h : ∀ name ∈ names, (logging.filters name).any LogFilter.isRedacting = false) :
    names.foldl installOn logging = withFilter logging names := by
  induction names generalizing logging with
  | nil => simp [withFilter]
  | cons name names ih =>
    obtain ⟨hnotMem, hnodup⟩ := List.nodup_cons.mp hnodup
    -- The first logger gets the filter, and the others are installed on what that leaves.
    have hfirst : installOn logging name = withFilter logging [name] := by
      rw [installOn, if_neg (by simp [h name List.mem_cons_self]), withFilter]
      congr 1
      ext1 n
      by_cases hn : n = name
      · simp [hn]
      · simp [hn]
    rw [List.foldl_cons, hfirst, ih hnodup]
    · -- A logger is the first one, or among the others.
      simp only [withFilter]
      congr 1
      ext1 n
      by_cases hn : n = name
      · simp [hn, hnotMem]
      · simp [hn]
    · intro n hn
      have hne : n ≠ name := fun heq => hnotMem (heq ▸ hn)
      simpa [withFilter, hne] using h n (List.mem_cons_of_mem name hn)

/-- Installing on loggers that have the filter changes nothing. -/
theorem foldl_installOn_of_redacting {names : List LoggerName} {logging : Logging (LogFilter Obj)}
    (h : ∀ name ∈ names, (logging.filters name).any LogFilter.isRedacting = true) :
    names.foldl installOn logging = logging := by
  induction names with
  | nil => rfl
  | cons name names ih =>
    rw [List.foldl_cons, installOn, if_pos (h name List.mem_cons_self)]
    exact ih fun n hn => h n (List.mem_cons_of_mem name hn)

/-- What others arranged: their filters keep or drop a record. -/
abbrev Arrangement (Obj : Type) := Logging (LogRecord Obj → Bool)

/-- The arrangement, before the redacting filter is installed. -/
def arranged (arrangement : Arrangement Obj) : Logging (LogFilter Obj) :=
  { arrangement with filters := fun name => (arrangement.filters name).map .other }

variable {arrangement : Arrangement Obj} {name : LoggerName}

theorem installLogRedaction_arranged :
    installLogRedaction (arranged arrangement) =
      withFilter (arranged arrangement) REDACTED_LOGGERS := by
  apply foldl_installOn
  · simp [REDACTED_LOGGERS, logger]
  · intro name _
    simp [arranged, LogFilter.isRedacting]

/-- The logging of the process, once the filter is installed, whether once or again. -/
theorem iterate_installLogRedaction (again : ℕ) :
    installLogRedaction^[again + 1] (arranged arrangement) =
      withFilter (arranged arrangement) REDACTED_LOGGERS := by
  induction again with
  | zero => exact installLogRedaction_arranged
  | succ again ih =>
    rw [Function.iterate_succ_apply', ih]
    apply foldl_installOn_of_redacting
    intro name hname
    simp [withFilter, hname, LogFilter.isRedacting]

/-! ### What the handlers receive -/

/-- The record is kept by the logger's own filters, as others arranged them, and some handler takes
it. -/
structure Heard (arrangement : Arrangement Obj) (name : LoggerName) (record : LogRecord Obj) :
    Prop where
  enabled : arrangement.disabled name = false
  kept : ∀ keeps ∈ arrangement.filters name, keeps record = true
  taken : arrangement.takers name record.level ≠ []

/-- The filters of others keep a record, as it is, or drop it. -/
theorem filtered_other (keepers : List (LogRecord Obj → Bool)) :
    filtered (LogFilter.apply F) (keepers.map .other) record =
      if ∀ keeps ∈ keepers, keeps record = true then some record else none := by
  induction keepers with
  | nil => rfl
  | cons keeps keepers ih =>
    by_cases hkeeps : keeps record = true
    · simp only [List.forall_mem_cons, hkeeps, true_and, ← ih]
      simp [filtered, LogFilter.apply, hkeeps]
    · simp [filtered, LogFilter.apply, hkeeps]

theorem filtered_withFilter :
    filtered (LogFilter.apply F) ((withFilter (arranged arrangement) REDACTED_LOGGERS).filters name)
        record =
      if ∀ keeps ∈ arrangement.filters name, keeps record = true then
        some (if name ∈ REDACTED_LOGGERS then redactRecord F record else record)
      else none := by
  have hothers := @filtered_other _ F record (arrangement.filters name)
  unfold filtered at hothers ⊢
  rw [withFilter, arranged, List.foldlM_append, hothers]
  split_ifs <;> rfl

/-- What a handler receives of a record, in the process. -/
theorem mem_received_installed {again : ℕ} {h : Handler} {left : LogRecord Obj} :
    (h, left) ∈ received (LogFilter.apply F)
        (installLogRedaction^[again + 1] (arranged arrangement)) name record ↔
      Heard arrangement name record ∧ h ∈ arrangement.takers name record.level ∧
        left = if name ∈ REDACTED_LOGGERS then redactRecord F record else record := by
  have hlevel : (redactRecord F record).level = record.level := by
    unfold redactRecord
    split
    · rfl
    · split_ifs <;> rfl
  -- Installing changes no handler, and cleaning no level.
  have htakers : ∀ level, (withFilter (arranged arrangement) REDACTED_LOGGERS).takers name level =
      arrangement.takers name level := by
    intro level
    apply takers_congr <;> rfl
  rw [iterate_installLogRedaction, mem_received_iff, filtered_withFilter, htakers]
  constructor
  · rintro ⟨henabled, hleft, htaken⟩
    split_ifs at hleft with hkept hname
    · obtain rfl := Option.some.inj hleft
      rw [hlevel] at htaken
      exact ⟨⟨henabled, hkept, List.ne_nil_of_mem htaken⟩, htaken, (if_pos hname).symm⟩
    · obtain rfl := Option.some.inj hleft
      exact ⟨⟨henabled, hkept, List.ne_nil_of_mem htaken⟩, htaken, (if_neg hname).symm⟩
  · rintro ⟨⟨henabled, hkept, -⟩, htaken, rfl⟩
    refine ⟨henabled, if_pos hkept, ?_⟩
    split_ifs
    · rwa [hlevel]
    · exact htaken

/-- **Through which loggers no handler receives a key**: a record whose message has one is cleaned
for every handler iff it is logged through one of the three loggers itself, or no handler takes
it. -/
theorem handlers_receive_no_key_iff (F : Formatting Obj) (arrangement : Arrangement Obj)
    (again : ℕ) (name : LoggerName) {record : LogRecord Obj} {rendered : String}
    (hrendered : record.getMessage F = some rendered) (hkey : HasKey rendered) :
    (∀ h left, (h, left) ∈ received (LogFilter.apply F)
        (installLogRedaction^[again + 1] (arranged arrangement)) name record →
          Clean rendered left) ↔
      name ∈ REDACTED_LOGGERS ∨ ¬ Heard arrangement name record := by
  simp only [mem_received_installed]
  constructor
  · intro hclean
    by_contra hneither
    obtain ⟨hname, hheard⟩ := not_or.mp hneither
    -- Some handler takes the record, as it was logged.
    obtain ⟨h, hh⟩ := List.exists_mem_of_ne_nil _ (not_not.mp hheard).taken
    exact not_clean_self hrendered hkey
      (hclean h record ⟨not_not.mp hheard, hh, (if_neg hname).symm⟩)
  · rintro (hname | hunheard) h left ⟨hheard, -, rfl⟩
    · rw [if_pos hname]
      exact clean_redactRecord hrendered hkey
    · exact absurd hheard hunheard

/-! ### A logger of a module -/

/-- The loggers the process logs through. -/
def LoggedThrough (name : LoggerName) : Prop :=
  name = logger ["uvicorn", "access"] ∨ name = logger ["uvicorn", "error"] ∨ name = [] ∨
    logger ["dotmac_integrator"] <:+ name

/-- Texts, rendered as they are. -/
def plainFormatting : Formatting String where
  str := some
  percent _ args := some (String.join args)

/-- One handler, at the root. -/
def rootHandler : Arrangement String where
  filters _ := []
  handlers name := if name = [] then [⟨"stderr", 0⟩] else []
  propagates _ := true
  disabled _ := false
  lastResort := none

/-- A line of the delivery module that quotes a path. -/
def deliveryLine : LogRecord String where
  level := 30
  msg := .text "POST /ingress/8f2ce41 failed"
  args := []

theorem hasKey_deliveryLine : HasKey "POST /ingress/8f2ce41 failed" := by
  have hlongest : ∀ c ∈ " failed".toList.head?, keyChar c = false := by
    rintro _ ⟨⟩
    rfl
  refine ⟨"POST /ingress/".toList, "8f2ce41".toList, " failed".toList, rfl, ⟨?_, by decide⟩⟩
  exact ⟨by decide, List.all_eq_true.mp (by decide), ⟨"POST ".toList, rfl⟩, hlongest⟩

theorem handlers_receive_no_key_iff_deliveryLine :
    (∀ h left, (h, left) ∈ received (LogFilter.apply plainFormatting)
        (installLogRedaction^[1] (arranged rootHandler)) (logger ["uvicorn", "error"])
        deliveryLine → Clean "POST /ingress/8f2ce41 failed" left) ↔
      logger ["uvicorn", "error"] ∈ REDACTED_LOGGERS ∨
        ¬ Heard rootHandler (logger ["uvicorn", "error"]) deliveryLine :=
  handlers_receive_no_key_iff plainFormatting rootHandler 0 _ rfl hasKey_deliveryLine

/-- The logger of the delivery module is a child of one that has the filter, and the handler of the
root receives the key. -/
theorem not_handlers_receive_no_key_deliveryLine :
    ¬ ∀ name, LoggedThrough name → ∀ record rendered,
      record.getMessage plainFormatting = some rendered → HasKey rendered →
        ∀ h left, (h, left) ∈ received (LogFilter.apply plainFormatting)
          (installLogRedaction^[1] (arranged rootHandler)) name record → Clean rendered left := by
  intro h
  have hchild : LoggedThrough (logger ["dotmac_integrator", "delivery"]) :=
    Or.inr (Or.inr (Or.inr ⟨["delivery"], rfl⟩))
  have hclean := h _ hchild deliveryLine _ rfl hasKey_deliveryLine ⟨"stderr", 0⟩ deliveryLine
    (mem_received_installed.mpr ⟨⟨rfl, by simp [rootHandler], by decide⟩, by decide, rfl⟩)
  exact not_clean_self (F := plainFormatting) rfl hasKey_deliveryLine hclean

end DotmacIntegrator.Ingress
