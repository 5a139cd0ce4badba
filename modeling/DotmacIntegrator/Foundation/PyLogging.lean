import Mathlib.Logic.Function.Basic
import Mathlib.Data.Int.Notation

/-!
# Python's logging hierarchy

A record is filtered by the logger it is logged through, and by no other. It is then handed to the
handlers of that logger and of its ancestors, up to the first that does not propagate; where none of
them has a handler it goes to the handler of last resort. A handler takes the records of its level
and above.

## Main definitions

* `PyLogging.LogRecord`, `getMessage`: a record, and the message it is rendered as
* `PyLogging.Logging`: filters and handlers, by logger
* `PyLogging.received`: what a record comes to, handler by handler

## Main results

* `takers_congr`: which handlers take a record does not depend on any filter
* `mem_received_iff`: a handler receives what the logger's own filters leave
-/

namespace PyLogging

/-- A logger, by the parts of its name, the last one first. The root logger has none. -/
abbrev LoggerName := List String

/-- The logger of a dotted name, by its parts. -/
def logger (parts : List String) : LoggerName := parts.reverse

variable {Obj Filter : Type}

/-- The message of a record: a text, or an object that is rendered as one. -/
inductive Message (Obj : Type)
  | text (s : String)
  | object (o : Obj)

/-- What is logged. -/
structure LogRecord (Obj : Type) where
  level : ℤ
  msg : Message Obj
  args : List Obj

/-- How objects are rendered: `str`, and the formatting operator. Both may raise. -/
structure Formatting (Obj : Type) where
  str : Obj → Option String
  percent : String → List Obj → Option String

/-- The text of a message. -/
def Message.render (F : Formatting Obj) : Message Obj → Option String
  | text s => some s
  | object o => F.str o

/-- `record.getMessage()`: the message, formatted with the arguments if there are any. -/
def LogRecord.getMessage (F : Formatting Obj) (record : LogRecord Obj) : Option String :=
  (record.msg.render F).bind fun text =>
    match record.args with
    | [] => some text
    | args => F.percent text args

/-- A handler, with the least level it takes. -/
structure Handler where
  name : String
  level : ℤ
  deriving DecidableEq, Repr

/-- Filters and handlers, by logger. -/
structure Logging (Filter : Type) where
  filters : LoggerName → List Filter
  handlers : LoggerName → List Handler
  propagates : LoggerName → Bool
  disabled : LoggerName → Bool
  lastResort : Option Handler

/-- The loggers whose handlers a record is handed to. -/
def Logging.visited (logging : Logging Filter) : LoggerName → List LoggerName
  | [] => [[]]
  | part :: parent =>
    (part :: parent) ::
      if logging.propagates (part :: parent) then logging.visited parent else []

/-- The handlers that take a record of this level. -/
def Logging.takers (logging : Logging Filter) (name : LoggerName) (level : ℤ) : List Handler :=
  let found := (logging.visited name).flatMap logging.handlers
  (if found = [] then logging.lastResort.toList else found).filter fun h => h.level ≤ level

/-- The loggers visited depend on which of them propagate. -/
theorem visited_congr {Filter' : Type} {logging : Logging Filter} {logging' : Logging Filter'}
    (h : logging.propagates = logging'.propagates) (name : LoggerName) :
    logging.visited name = logging'.visited name := by
  induction name with
  | nil => rfl
  | cons part parent ih => rw [Logging.visited, Logging.visited, h, ih]

/-- The handlers that take a record do not depend on any filter. -/
theorem takers_congr {Filter' : Type} {logging : Logging Filter} {logging' : Logging Filter'}
    (hpropagates : logging.propagates = logging'.propagates)
    (hhandlers : logging.handlers = logging'.handlers)
    (hlast : logging.lastResort = logging'.lastResort) (name : LoggerName) (level : ℤ) :
    logging.takers name level = logging'.takers name level := by
  rw [Logging.takers, Logging.takers, visited_congr hpropagates, hhandlers, hlast]

variable (apply : Filter → LogRecord Obj → Option (LogRecord Obj))

/-- `filter`: what the filters of one logger leave of a record, unless one of them drops it. -/
def filtered (filters : List Filter) (record : LogRecord Obj) : Option (LogRecord Obj) :=
  filters.foldlM (fun r f => apply f r) record

/-- `handle`: what each handler receives of a record. -/
def received (logging : Logging Filter) (name : LoggerName) (record : LogRecord Obj) :
    List (Handler × LogRecord Obj) :=
  if logging.disabled name then []
  else
    match filtered apply (logging.filters name) record with
    | none => []
    | some left => (logging.takers name left.level).map fun h => (h, left)

variable {apply}

/-- **A handler receives what the logger's own filters leave**, whichever logger it belongs to. -/
theorem mem_received_iff {logging : Logging Filter} {name : LoggerName}
    {record left : LogRecord Obj} {h : Handler} :
    (h, left) ∈ received apply logging name record ↔
      logging.disabled name = false ∧ filtered apply (logging.filters name) record = some left ∧
        h ∈ logging.takers name left.level := by
  unfold received
  by_cases hd : logging.disabled name = true
  · simp [hd]
  · rw [if_neg hd]
    cases hleft : filtered apply (logging.filters name) record with
    | none => simp
    | some found =>
      simp only [List.mem_map, Prod.mk.injEq, Option.some.injEq, Bool.not_eq_true] at hd ⊢
      constructor
      · rintro ⟨h', hh, rfl, rfl⟩
        exact ⟨hd, rfl, hh⟩
      · rintro ⟨-, rfl, hh⟩
        exact ⟨h, hh, rfl, rfl⟩

end PyLogging
