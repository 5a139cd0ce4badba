import DotmacIntegrator.Foundation.Fallible
import DotmacIntegrator.Foundation.PyFormat
import DotmacIntegrator.Foundation.PyRepr
import DotmacIntegrator.Telemetry.Families

/-!
# The exposition

Samples are checked against the declared families, grouped, and written one to a line with
`format(value, "g")`. That format keeps six significant digits, so a counter past a million or a
timestamp of today is not the number that is printed.

## Main definitions

* `Sample`: one value, on a declared label
* `lines`, `render`: the text exposition
* `lineNumber`: the number a scraper reads on a line

## Main results

* `sample_line_mem`: every accepted sample has its line
* `lineNumber_sampleLine_eq_iff`: the line prints the value iff that has six significant digits
* `printed_eq_value_iff`: rendering is faithful exactly to such values
-/

namespace DotmacIntegrator.Telemetry

open GeneralFormat SignificantDigits

/-- The value of a sample: an integer or a float. -/
inductive SampleValue
  | int (n : ℤ)
  | float (x : PyFloat)
  deriving DecidableEq, Repr

/-- The number a value is, where it is one. -/
def SampleValue.number? : SampleValue → Option ℚ
  | .int n => some n
  | .float x => x.value?

/-- One value, optionally on one declared label. -/
structure Sample where
  family : String
  value : SampleValue
  labelValue : Option String
  deriving DecidableEq, Repr

/-- What rendering raises. -/
inductive RenderError
  | undeclaredLabel (message : String)
  | overflowError (message : String)
  deriving DecidableEq, Repr

variable (V : Vocabulary) (printable : Char → Bool)

/-- `repr` of an optional label value. -/
def reprLabelValue : Option String → String
  | none => "None"
  | some v => PyRepr.string printable v

/-- The declared family of a sample, if the sample carries what the family declares. -/
def checkedFamily (sample : Sample) : Except RenderError MetricFamily :=
  match (families V).find? fun family => family.name = sample.family with
  | none =>
    .error (.undeclaredLabel
      (PyRepr.string printable sample.family ++ " is not a declared metric family. Declare it " ++
        "in FAMILIES, with its complete allowed label set"))
  | some family =>
    match family.label with
    | none =>
      if sample.labelValue.isSome then
        .error (.undeclaredLabel
          (family.name ++ " takes no label, but a sample carried " ++
            reprLabelValue printable sample.labelValue))
      else .ok family
    | some label =>
      if sample.labelValue.all fun v => v ∉ family.allowed then
        .error (.undeclaredLabel
          (reprLabelValue printable sample.labelValue ++ " is not a declared value for " ++
            family.name ++ "\x7b" ++ label ++ "\x7d. Allowed: " ++
            PyRepr.strings printable (family.allowed.mergeSort fun a b => a ≤ b) ++
            ". A label set that accepts arbitrary values is how an identifier leaks into every " ++
            "dashboard that renders it"))
      else .ok family

/-- The text of a value. -/
def valueText : SampleValue → Except RenderError String
  | .int n =>
    match PyFormat.int n with
    | none => .error (.overflowError "int too large to convert to float")
    | some cs => .ok (String.ofList cs)
  | .float x => .ok (String.ofList (PyFormat.float x))

/-- The series of a sample: its family and label. -/
def series (family : MetricFamily) (sample : Sample) : String :=
  match family.label with
  | none => family.name
  | some label =>
    family.name ++ "\x7b" ++ label ++ "=\"" ++ sample.labelValue.getD "None" ++ "\"\x7d"

/-- The line of a sample. -/
def sampleLine (family : MetricFamily) (sample : Sample) : Except RenderError String :=
  (valueText sample.value).map fun number => series family sample ++ " " ++ number

/-- The lines of a family: none where it has no sample. -/
def familyLines (samples : List Sample) (family : MetricFamily) :
    Except RenderError (List String) :=
  let rows := samples.filter fun sample => sample.family = family.name
  if rows = [] then .ok []
  else (rows.mapM (sampleLine family)).map fun ls =>
    ("# HELP " ++ family.name ++ " " ++ family.help) ::
      ("# TYPE " ++ family.name ++ " " ++ family.kind.text) :: ls

/-- `_lines`: every sample is checked before the first line is written. -/
def lines (samples : List Sample) : Except RenderError (List String) := do
  let _ ← samples.mapM (checkedFamily V printable)
  let blocks ← (families V).mapM (familyLines samples)
  return blocks.flatten

/-- `render`: the text exposition. -/
def render (samples : List Sample) : Except RenderError String :=
  (lines V printable samples).map fun ls => "\n".intercalate ls ++ "\n"

/-- The number a scraper reads on a line: the decimal number after the last blank. -/
def lineNumber (line : String) : Option ℚ := readDecimal (line.toList.rtakeWhile (· ≠ ' '))

/-! ### The line of a sample -/

variable {V printable} {samples : List Sample} {sample : Sample} {family : MetricFamily}

/-- A checked sample belongs to a declared family of its name. -/
theorem checkedFamily_eq_ok (h : checkedFamily V printable sample = .ok family) :
    family ∈ families V ∧ family.name = sample.family := by
  unfold checkedFamily at h
  cases hf : (families V).find? fun family => family.name = sample.family with
  | none => simp [hf] at h
  | some found =>
    -- The checks of the label refuse the sample or return the family that was found.
    have hfound : found = family := by
      rw [hf] at h
      simp only at h
      split at h <;> split at h <;> simp_all
    rw [← hfound]
    exact ⟨List.mem_of_find?_eq_some hf, by simpa using List.find?_some hf⟩

/-- The lines of a family hold the line of each of its samples. -/
theorem sampleLine_mem_familyLines {ls : List String} (h : familyLines samples family = .ok ls)
    (hs : sample ∈ samples) (hname : family.name = sample.family) :
    ∃ line ∈ ls, sampleLine family sample = .ok line := by
  -- The sample is a row of its family, which therefore is not left out.
  have hrow : sample ∈ samples.filter fun sample => sample.family = family.name :=
    List.mem_filter.mpr ⟨hs, by simp [hname]⟩
  rw [familyLines, if_neg (List.ne_nil_of_mem hrow)] at h
  obtain ⟨rows, hrows, rfl⟩ := Except.map_eq_ok.mp h
  obtain ⟨line, hline, hok⟩ := Except.exists_mem_of_mapM_eq_ok hrows sample hrow
  exact ⟨line, List.mem_cons_of_mem _ (List.mem_cons_of_mem _ hline), hok⟩

/-- **Every sample of an accepted list has its line.** -/
theorem sample_line_mem {ls : List String} (h : lines V printable samples = .ok ls)
    (hs : sample ∈ samples) :
    ∃ family ∈ families V, family.name = sample.family ∧
      ∃ line ∈ ls, sampleLine family sample = .ok line := by
  obtain ⟨checked, hchecked, h⟩ := Except.bind_eq_ok.mp h
  obtain ⟨blocks, hblocks, h⟩ := Except.bind_eq_ok.mp h
  obtain rfl : blocks.flatten = ls := by simpa [pure, Except.pure] using h
  obtain ⟨family, hfamily⟩ := Except.ok_of_mapM_eq_ok hchecked sample hs
  obtain ⟨hmem, hname⟩ := checkedFamily_eq_ok hfamily
  obtain ⟨block, hblock, hlines⟩ := Except.exists_mem_of_mapM_eq_ok hblocks family hmem
  obtain ⟨line, hline, hok⟩ := sampleLine_mem_familyLines hlines hs hname
  exact ⟨family, hmem, hname, line, List.mem_flatten.mpr ⟨block, hblock, hline⟩, hok⟩

/-- The number of a line is read after its series. -/
theorem lineNumber_append {pre : String} {cs : List Char} (h : ' ' ∉ cs) :
    lineNumber (pre ++ " " ++ String.ofList cs) = readDecimal cs := by
  have hne : ∀ c ∈ cs.reverse, (decide (c ≠ ' ')) = true := by
    intro c hc
    rw [decide_eq_true_eq]
    rintro rfl
    exact h (List.mem_reverse.mp hc)
  -- Read from the end, the blank before the number is the first one.
  have hlist : (pre ++ " " ++ String.ofList cs).toList = pre.toList ++ ' ' :: cs := by
    simp [String.toList_append]
  rw [lineNumber, hlist, List.rtakeWhile, List.reverse_append, List.reverse_cons, List.append_assoc,
    List.takeWhile_append_of_pos hne, List.singleton_append, List.takeWhile_cons_of_neg (by simp),
    List.append_nil, List.reverse_reverse]

/-- No blank occurs in the text of a value. -/
theorem space_not_mem_valueText {value : SampleValue} {number : String}
    (h : valueText value = .ok number) :
    ∃ cs, number = String.ofList cs ∧ ' ' ∉ cs := by
  cases value with
  | int n =>
    unfold valueText at h
    cases hn : PyFormat.int n with
    | none => simp [hn] at h
    | some cs =>
      obtain ⟨q, -, rfl⟩ := Option.map_eq_some_iff.mp hn
      simp only [hn, Except.ok.injEq] at h
      exact ⟨_, h.symm, space_not_mem_general _ q⟩
  | float x =>
    simp only [valueText, Except.ok.injEq] at h
    refine ⟨_, h.symm, ?_⟩
    -- Only a finite value is formatted; the texts of the others are fixed.
    cases x with
    | finite q => exact space_not_mem_general _ q
    | negZero | posInf | negInf | nan => decide

/-- **The line of a sample prints its value iff that has six significant digits.** -/
theorem lineNumber_sampleLine_eq_iff {line : String} (h : sampleLine family sample = .ok line)
    {v : ℚ} (hv : sample.value.number? = some v) :
    lineNumber line = some v ↔ HasDigits 10 6 |v| := by
  obtain ⟨number, hnumber, rfl⟩ := Except.map_eq_ok.mp h
  obtain ⟨cs, rfl, hspace⟩ := space_not_mem_valueText hnumber
  rw [lineNumber_append hspace]
  -- An integer is formatted as the float nearest to it, a float as it is.
  cases hvalue : sample.value with
  | int n =>
    rw [hvalue] at hv hnumber
    obtain rfl := Option.some.inj hv
    cases hn : PyFormat.int n with
    | none => simp [valueText, hn] at hnumber
    | some ds =>
      simp only [valueText, hn, Except.ok.injEq] at hnumber
      rw [← String.ofList_inj.mp hnumber]
      exact PyFormat.readDecimal_int_eq_iff hn
  | float x =>
    rw [hvalue] at hv hnumber
    simp only [valueText, Except.ok.injEq] at hnumber
    rw [← String.ofList_inj.mp hnumber]
    exact PyFormat.readDecimal_float_eq_iff hv

/-- **Rendering is faithful exactly to the values of six significant digits.** Every sample of an
accepted list has its line in the text, and the number on it is the value iff the value has at
most six significant decimal digits. -/
theorem printed_eq_value_iff {text : String} (h : render V printable samples = .ok text) :
    ∃ ls, lines V printable samples = .ok ls ∧ text = "\n".intercalate ls ++ "\n" ∧
      ∀ sample ∈ samples, ∀ v, sample.value.number? = some v →
        ∃ family ∈ families V, family.name = sample.family ∧
          ∃ line ∈ ls, sampleLine family sample = .ok line ∧
            (lineNumber line = some v ↔ HasDigits 10 6 |v|) := by
  obtain ⟨ls, hls, rfl⟩ := Except.map_eq_ok.mp h
  refine ⟨ls, hls, rfl, ?_⟩
  intro sample hs v hv
  obtain ⟨family, hfamily, hname, line, hline, hok⟩ := sample_line_mem hls hs
  exact ⟨family, hfamily, hname, line, hline, hok, lineNumber_sampleLine_eq_iff hok hv⟩

/-! ### A timestamp of today -/

/-- Label values that are not asked for. -/
def someVocabulary : Vocabulary :=
  ⟨⟨["accepted"], by decide⟩, ⟨["accepted"], by decide⟩, ⟨["pending"], by decide⟩,
    ⟨["verified"], by decide⟩, ⟨["open_circuits"], by decide⟩⟩

/-- A counter of lost claims. -/
def lostClaims (n : ℤ) : Sample := ⟨"integrator_receipt_lost_claims_total", .int n, none⟩

/-- The last sweep, at the start of a year. -/
def lastSweep : Sample :=
  ⟨"integrator_worker_last_sweep_timestamp_seconds", .float (.finite 1767225600), none⟩

theorem printed_eq_value_iff_lostClaims :
    ∃ ls, lines someVocabulary (fun _ => true) [lostClaims 123456] = .ok ls ∧
      ∃ line ∈ ls, lineNumber line = some 123456 := by
  have hok : (lines someVocabulary (fun _ => true) [lostClaims 123456]).isOk = true := by
    decide +kernel
  obtain ⟨ls, hls⟩ := Except.isOk_iff.mp hok
  have hrender : render someVocabulary (fun _ => true) [lostClaims 123456] =
      .ok ("\n".intercalate ls ++ "\n") := by
    rw [render, hls]
    rfl
  obtain ⟨ls, hls, -, hall⟩ := printed_eq_value_iff hrender
  -- The count has six digits.
  obtain ⟨-, -, -, line, hline, -, hiff⟩ :=
    hall (lostClaims 123456) (by simp) 123456 (by simp [lostClaims, SampleValue.number?])
  exact ⟨ls, hls, line, hline, hiff.mpr ⟨123456, 0, by decide, by norm_num⟩⟩

/-- The lines of the timestamp. -/
def lastSweepLines : List String :=
  ["# HELP integrator_worker_last_sweep_timestamp_seconds Unix time of the last COMPLETED lease " ++
      "sweep. Omitted until the first one finishes, so a never-started worker cannot look recent.",
    "# TYPE integrator_worker_last_sweep_timestamp_seconds gauge",
    "integrator_worker_last_sweep_timestamp_seconds 1.76723e+09"]

/-- No line prints the timestamp, and two counts are printed as one number. -/
theorem lastSweep_misprinted :
    (lines someVocabulary (fun _ => true) [lastSweep] = .ok lastSweepLines ∧
      lastSweep.value.number? = some 1767225600 ∧
      ∀ line ∈ lastSweepLines, lineNumber line ≠ some 1767225600) ∧
    lines someVocabulary (fun _ => true) [lostClaims 1234567] =
      lines someVocabulary (fun _ => true) [lostClaims 1234568] := by
  refine ⟨⟨?_, rfl, ?_⟩, ?_⟩
  · decide +kernel
  · decide +kernel
  · decide +kernel

end DotmacIntegrator.Telemetry
