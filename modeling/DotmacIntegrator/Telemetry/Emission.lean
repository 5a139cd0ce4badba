import DotmacIntegrator.Foundation.Grouping
import DotmacIntegrator.Foundation.RaisingLoop
import DotmacIntegrator.Telemetry.Exposition

/-!
# The exposition, as it is emitted

Every sample is checked and put under its family before the first line is emitted. The lines are
then emitted family by family, as they are declared: a sample that is not declared has nothing
emitted, and the samples that are have all their lines.

## Main definitions

* `generate`: the lines that are emitted, and what ends them
* `Undeclared`: a sample that is refused
* `Block`, `Layout`: the lines of a family, and how the lines of all of them stand

## Main results

* `generate_of_lines_eq_ok`: the lines, one after the other
* `render_eq_undeclaredLabel_iff`: which samples are refused
* `exists_layout`, `render_of_declared`: the lines of samples that are not refused
-/

namespace DotmacIntegrator.Telemetry

variable (V : Vocabulary) (printable : Char → Bool)

/-! ### The generator -/

/-- One sample of the first loop. -/
def groupOne (grouped : Dict String (List Sample)) (sample : Sample) :
    Dict String (List Sample) × Option RenderError :=
  match checkedFamily V printable sample with
  | .error e => (grouped, some e)
  | .ok _ => (grouped.push sample.family sample, none)

/-- One sample of a family. -/
def emitSample (family : MetricFamily) (emitted : List String) (sample : Sample) :
    List String × Option RenderError :=
  match sampleLine family sample with
  | .error e => (emitted, some e)
  | .ok line => (emitted ++ [line], none)

/-- The two lines in front of a family. -/
def heading (family : MetricFamily) : List String :=
  ["# HELP " ++ family.name ++ " " ++ family.help,
    "# TYPE " ++ family.name ++ " " ++ family.kind.text]

/-- One family. -/
def emitFamily (grouped : Dict String (List Sample)) (emitted : List String)
    (family : MetricFamily) : List String × Option RenderError :=
  match grouped.get? family.name with
  | none | some [] => (emitted, none)
  | some rows => RaisingLoop.run (emitSample family) (emitted ++ heading family) rows

/-- `_lines`: what is emitted, and what ends it. -/
def generate (samples : List Sample) : List String × Option RenderError :=
  match RaisingLoop.run (groupOne V printable) [] samples with
  | (_, some e) => ([], some e)
  | (grouped, none) => RaisingLoop.run (emitFamily grouped) [] (families V)

/-! ### Blocks -/

/-- The lines of a family that has samples: its heading, and a line for each of them. -/
structure Block where
  family : MetricFamily
  rows : List (Sample × String)
  written : ∀ row ∈ rows, sampleLine family row.1 = .ok row.2

/-- The samples of a block. -/
def Block.samples (block : Block) : List Sample := block.rows.map Prod.fst

/-- The lines of a block. -/
def Block.lines (block : Block) : List String :=
  heading block.family ++ block.rows.map Prod.snd

/-- The blocks are those of the families that have samples, as they are declared and each once; the
samples of a block are those of its family, in order; and the blocks have every sample once. -/
structure Layout (samples : List Sample) (blocks : List Block) : Prop where
  families : blocks.map Block.family =
    (families V).filter fun family => samples.any fun sample => sample.family = family.name
  once : (blocks.map fun block => block.family.name).Nodup
  rows : ∀ block ∈ blocks,
    block.samples = samples.filter fun sample => sample.family = block.family.name
  all : (blocks.flatMap Block.samples).Perm samples

/-! ### The lines, one after the other -/

variable {V printable} {samples : List Sample} {sample : Sample} {family : MetricFamily}

/-- The samples of a family, one after the other. -/
theorem run_emitSample {rows : List Sample} {ls : List String}
    (h : rows.mapM (sampleLine family) = .ok ls) (emitted : List String) :
    RaisingLoop.run (emitSample family) emitted rows = (emitted ++ ls, none) := by
  rw [RaisingLoop.run_of_mapM_ok (g := fun emitted line => emitted ++ [line]) ?_ h,
    List.foldl_append_eq_append, ← List.flatMap_def, List.flatMap_singleton']
  intro emitted sample line hline
  rw [emitSample, hline]

/-- The group of a family is its samples. -/
theorem emitFamily_group (emitted : List String) (family : MetricFamily) :
    emitFamily (Dict.group Sample.family samples) emitted family =
      if samples.filter (fun sample => sample.family = family.name) = [] then (emitted, none)
      else RaisingLoop.run (emitSample family) (emitted ++ heading family)
        (samples.filter fun sample => sample.family = family.name) := by
  rw [emitFamily, Dict.get?_group]
  by_cases hnone : samples.filter (fun sample => sample.family = family.name) = []
  · rw [if_pos hnone, if_pos hnone]
  · rw [if_neg hnone, if_neg hnone]
    obtain ⟨row, rows, hrows⟩ := List.exists_cons_of_ne_nil hnone
    rw [hrows]

theorem emitFamily_of_ok {ls : List String} (h : familyLines samples family = .ok ls)
    (emitted : List String) :
    emitFamily (Dict.group Sample.family samples) emitted family = (emitted ++ ls, none) := by
  rw [emitFamily_group]
  unfold familyLines at h
  by_cases hnone : samples.filter (fun sample => sample.family = family.name) = []
  · rw [if_pos hnone] at h ⊢
    obtain rfl := Except.ok.inj h
    rw [List.append_nil]
  · rw [if_neg hnone] at h ⊢
    obtain ⟨rows, hrows, rfl⟩ := Except.map_eq_ok.mp h
    rw [run_emitSample hrows, List.append_assoc]
    rfl

/-- Checked samples are all put under their families. -/
theorem run_groupOne {checked : List MetricFamily}
    (h : samples.mapM (checkedFamily V printable) = .ok checked) :
    RaisingLoop.run (groupOne V printable) [] samples =
      (Dict.group Sample.family samples, none) := by
  have hok : ∀ sample ∈ samples, ∃ family, checkedFamily V printable sample = .ok family :=
    Except.ok_of_mapM_eq_ok h
  have hclean : ∀ grouped, ∀ sample ∈ samples,
      groupOne V printable grouped sample = (grouped.push sample.family sample, none) := by
    intro grouped sample hsample
    obtain ⟨family, hfamily⟩ := hok sample hsample
    rw [groupOne, hfamily]
  rw [RaisingLoop.run_of_clean _ _ _ fun grouped sample hsample => by
    rw [hclean grouped sample hsample]]
  congr 1
  apply List.foldl_ext
  intro grouped sample hsample
  rw [hclean grouped sample hsample]

/-- What a sample is refused with. -/
def refusal (V : Vocabulary) (printable : Char → Bool) (sample : Sample) : Option RenderError :=
  match checkedFamily V printable sample with
  | .error e => some e
  | .ok _ => none

theorem groupOne_snd (grouped : Dict String (List Sample)) (sample : Sample) :
    (groupOne V printable grouped sample).2 = refusal V printable sample := by
  unfold groupOne refusal
  cases checkedFamily V printable sample <;> rfl

/-- The first sample that is refused ends the check. -/
theorem run_groupOne_error {e : RenderError}
    (h : samples.mapM (checkedFamily V printable) = .error e) :
    (RaisingLoop.run (groupOne V printable) [] samples).2 = some e := by
  obtain ⟨before, sample, after, rfl, hsample, hbefore⟩ := Except.mapM_eq_error.mp h
  have hnone : before.findSome? (refusal V printable) = none := by
    apply List.findSome?_eq_none_iff.mpr
    intro earlier hmem
    obtain ⟨family, hfamily⟩ := hbefore earlier hmem
    rw [refusal, hfamily]
  rw [RaisingLoop.run_eq groupOne_snd, List.findSome?_append, hnone, Option.none_or,
    List.findSome?_cons, refusal, hsample]

/-- A sample that is refused has nothing emitted. -/
theorem generate_of_refused {e : RenderError}
    (h : samples.mapM (checkedFamily V printable) = .error e) :
    generate V printable samples = ([], some e) := by
  have hrun := run_groupOne_error h
  rcases hgrouped : RaisingLoop.run (groupOne V printable) [] samples with ⟨grouped, _ | e'⟩
  · rw [hgrouped] at hrun
    cases hrun
  · rw [hgrouped] at hrun
    obtain rfl := Option.some.inj hrun
    rw [generate, hgrouped]

/-- What is emitted, where the lines are made. -/
theorem generate_of_lines_eq_ok {ls : List String} (h : lines V printable samples = .ok ls) :
    generate V printable samples = (ls, none) := by
  obtain ⟨checked, hchecked, h⟩ := Except.bind_eq_ok.mp h
  obtain ⟨blocks, hblocks, h⟩ := Except.bind_eq_ok.mp h
  obtain rfl := Except.ok.inj h
  rw [generate, run_groupOne hchecked]
  simp only
  rw [RaisingLoop.run_of_mapM_ok (g := fun emitted ls => emitted ++ id ls)
    (fun emitted family ls hls => emitFamily_of_ok hls emitted) hblocks,
    List.foldl_append_eq_append, List.map_id, List.nil_append]

/-! ### Samples that are refused -/

/-- A sample names a family that is not declared, or carries a label that its family does not take,
or a label value that its family does not allow; a family with a label allows no sample without. -/
def Undeclared (V : Vocabulary) (sample : Sample) : Prop :=
  (∀ family ∈ families V, family.name ≠ sample.family) ∨
    (∃ family ∈ families V, family.name = sample.family ∧ family.label = none ∧
      sample.labelValue ≠ none) ∨
    ∃ family ∈ families V, family.name = sample.family ∧ family.label ≠ none ∧
      ∀ v ∈ family.allowed, sample.labelValue ≠ some v

/-- The declared names are distinct. -/
theorem nodup_names (V : Vocabulary) : ((families V).map MetricFamily.name).Nodup := by
  have hnames : (families V).map MetricFamily.name =
      (families someVocabulary).map MetricFamily.name := rfl
  rw [hnames]
  decide

/-- A family is found by its name. -/
theorem find_family (h : family ∈ families V) (hname : family.name = sample.family) :
    ((families V).find? fun family => family.name = sample.family) = some family := by
  cases hfind : (families V).find? fun family => family.name = sample.family with
  | none => exact absurd hname (by simpa using List.find?_eq_none.mp hfind family h)
  | some found =>
    have hfound : found.name = family.name := by
      rw [hname]
      simpa using List.find?_some hfind
    rw [List.inj_on_of_nodup_map (nodup_names V) (List.mem_of_find?_eq_some hfind) h hfound]

/-- A sample of a declared family is undeclared by its label alone. -/
theorem undeclared_iff (h : family ∈ families V) (hname : family.name = sample.family) :
    Undeclared V sample ↔ (family.label = none ∧ sample.labelValue ≠ none) ∨
      (family.label ≠ none ∧ ∀ v ∈ family.allowed, sample.labelValue ≠ some v) := by
  have hunique : ∀ other ∈ families V, other.name = sample.family → other = family :=
    fun other hother hsame => List.inj_on_of_nodup_map (nodup_names V) hother h
      (hsame.trans hname.symm)
  constructor
  · rintro (hnone | ⟨other, hother, hsame, hlabel⟩ | ⟨other, hother, hsame, hlabel⟩)
    · exact absurd hname (hnone family h)
    · obtain rfl := hunique other hother hsame
      exact .inl hlabel
    · obtain rfl := hunique other hother hsame
      exact .inr hlabel
  · rintro (hlabel | hlabel)
    · exact .inr (.inl ⟨family, h, hname, hlabel⟩)
    · exact .inr (.inr ⟨family, h, hname, hlabel⟩)

/-- The check refuses an undeclared sample, and finds the family of any other. -/
theorem checkedFamily_cases (V : Vocabulary) (printable : Char → Bool) (sample : Sample) :
    (Undeclared V sample ∧
        ∃ message, checkedFamily V printable sample = .error (.undeclaredLabel message)) ∨
      (¬ Undeclared V sample ∧ ∃ family, checkedFamily V printable sample = .ok family) := by
  by_cases hfamily : ∃ family ∈ families V, family.name = sample.family
  · obtain ⟨family, hmem, hname⟩ := hfamily
    rw [undeclared_iff hmem hname, checkedFamily, find_family hmem hname]
    cases hlabel : family.label with
    | none =>
      cases hvalue : sample.labelValue with
      | none => exact .inr ⟨by simp, family, by simp [hlabel]⟩
      | some v =>
        refine .inl ⟨by simp, family.name ++ " takes no label, but a sample carried " ++
          reprLabelValue printable (some v), ?_⟩
        simp [hlabel]
    | some label =>
      by_cases hallowed : sample.labelValue.all fun v => v ∉ family.allowed
      · refine .inl ⟨.inr ⟨by simp, ?_⟩, _, by simp only [hlabel, hallowed]; rfl⟩
        rintro v hv hsome
        simp [hsome, hv] at hallowed
      · refine .inr ⟨?_, family, by simp only [hlabel, hallowed]; rfl⟩
        rintro (⟨hnone, -⟩ | ⟨-, hnone⟩)
        · cases hnone
        · apply hallowed
          cases hvalue : sample.labelValue with
          | none => rfl
          | some v =>
            have hv : v ∉ family.allowed := fun hv => hnone v hv hvalue
            simpa using hv
  · refine .inl ⟨.inl fun family hmem hname => hfamily ⟨family, hmem, hname⟩, ?_⟩
    have hfind : ((families V).find? fun family => family.name = sample.family) = none := by
      apply List.find?_eq_none.mpr
      intro family hmem hname
      exact hfamily ⟨family, hmem, of_decide_eq_true hname⟩
    rw [checkedFamily, hfind]
    exact ⟨_, rfl⟩

/-- Declared samples are checked. -/
theorem exists_checked (h : ∀ sample ∈ samples, ¬ Undeclared V sample) :
    ∃ checked, samples.mapM (checkedFamily V printable) = .ok checked := by
  apply Except.exists_mapM_eq_ok
  intro sample hsample
  rcases checkedFamily_cases V printable sample with ⟨hundeclared, -⟩ | ⟨-, hok⟩
  · exact absurd hundeclared (h sample hsample)
  · exact hok

/-- An undeclared sample ends the check. -/
theorem exists_refused (h : ∃ sample ∈ samples, Undeclared V sample) :
    ∃ message, samples.mapM (checkedFamily V printable) = .error (.undeclaredLabel message) := by
  cases hchecked : samples.mapM (checkedFamily V printable) with
  | error e =>
    -- What is raised is raised for some sample, and the check raises nothing else.
    obtain ⟨before, sample, after, -, hsample, -⟩ := Except.mapM_eq_error.mp hchecked
    rcases checkedFamily_cases V printable sample with ⟨-, message, hmessage⟩ | ⟨-, family, hok⟩
    · exact ⟨message, congrArg Except.error (Except.error.inj (hsample.symm.trans hmessage))⟩
    · rw [hok] at hsample
      cases hsample
  | ok checked =>
    obtain ⟨sample, hsample, hundeclared⟩ := h
    obtain ⟨family, hfamily⟩ := Except.ok_of_mapM_eq_ok hchecked sample hsample
    rcases checkedFamily_cases V printable sample with ⟨-, message, hmessage⟩ | ⟨hdeclared, -⟩
    · rw [hfamily] at hmessage
      cases hmessage
    · exact absurd hundeclared hdeclared

/-! ### Lines that are emitted -/

/-- The value can be written: it is a float, or an integer that can be made one. -/
def Writable (value : SampleValue) : Prop :=
  ∀ n, value = .int n → PyFormat.floatOfInt n ≠ none

theorem exists_valueText {value : SampleValue} (h : Writable value) :
    ∃ number, valueText value = .ok number := by
  cases value with
  | float x => exact ⟨_, rfl⟩
  | int n =>
    obtain ⟨q, hq⟩ := Option.ne_none_iff_exists'.mp (h n rfl)
    exact ⟨_, by rw [valueText, PyFormat.int, hq]; rfl⟩

theorem writable_of_valueText {value : SampleValue} {number : String}
    (h : valueText value = .ok number) : Writable value := by
  rintro n rfl hnone
  rw [valueText, PyFormat.int, hnone] at h
  cases h

/-- A count is written, unless it is past `2 ^ 1023`. -/
theorem writable_of_le {n : ℤ} (h : |(n : ℚ)| ≤ 2 ^ 1023) : Writable (.int n) := by
  rintro m hm
  obtain rfl := SampleValue.int.inj hm
  exact PyFormat.floatOfInt_ne_none h

theorem valueText_error {value : SampleValue} {e : RenderError} (h : valueText value = .error e) :
    ∃ message, e = .overflowError message := by
  cases value with
  | float x => cases h
  | int n =>
    cases hn : PyFormat.int n with
    | none =>
      simp only [valueText, hn] at h
      exact ⟨_, (Except.error.inj h).symm⟩
    | some cs =>
      simp only [valueText, hn] at h
      cases h

/-- The lines of a family are refused only for a value that cannot be written. -/
theorem familyLines_error {e : RenderError} (h : familyLines samples family = .error e) :
    ∃ message, e = .overflowError message := by
  by_cases hnone : samples.filter (fun sample => sample.family = family.name) = []
  · rw [familyLines, if_pos hnone] at h
    cases h
  · rw [familyLines, if_neg hnone, Except.map_eq_error] at h
    obtain ⟨before, sample, after, -, hsample, -⟩ := Except.mapM_eq_error.mp h
    rw [sampleLine, Except.map_eq_error] at hsample
    exact valueText_error hsample

/-- Writable samples have their lines. -/
theorem exists_block (family : MetricFamily) {rows : List Sample}
    (h : ∀ sample ∈ rows, Writable sample.value) :
    ∃ block : Block, block.family = family ∧ block.samples = rows ∧
      rows.mapM (sampleLine family) = .ok (block.rows.map Prod.snd) := by
  induction rows with
  | nil => exact ⟨⟨family, [], nofun⟩, rfl, rfl, rfl⟩
  | cons sample rows ih =>
    obtain ⟨number, hnumber⟩ := exists_valueText (h sample List.mem_cons_self)
    have hline : sampleLine family sample = .ok (series family sample ++ " " ++ number) := by
      rw [sampleLine, hnumber]
      rfl
    obtain ⟨block, rfl, rfl, hrows⟩ := ih fun other hother => h other (.tail _ hother)
    refine ⟨⟨block.family, (sample, series block.family sample ++ " " ++ number) :: block.rows, ?_⟩,
      rfl, rfl, ?_⟩
    · intro row hrow
      rcases List.mem_cons.mp hrow with rfl | hrow
      · exact hline
      · exact block.written row hrow
    · rw [List.mapM_cons, hline, Except.ok_bind, hrows]
      rfl

/-- The lines of a family are those of its block, if it has samples. -/
theorem familyLines_eq_ok (h : ∀ sample ∈ samples, Writable sample.value)
    (family : MetricFamily) :
    ∃ blocks : List Block, familyLines samples family = .ok (blocks.flatMap Block.lines) ∧
      blocks.map Block.family =
        (if samples.any fun sample => sample.family = family.name then [family] else []) ∧
      ∀ block ∈ blocks,
        block.samples = samples.filter fun sample => sample.family = block.family.name := by
  by_cases hnone : samples.filter (fun sample => sample.family = family.name) = []
  · refine ⟨[], by rw [familyLines, if_pos hnone]; rfl, ?_, nofun⟩
    have hany : (samples.any fun sample => sample.family = family.name) = false := by
      simpa [List.filter_eq_nil_iff] using hnone
    rw [hany]
    rfl
  · have hwritable : ∀ sample ∈ samples.filter (fun sample => sample.family = family.name),
        Writable sample.value := fun sample hsample => h sample (List.mem_filter.mp hsample).1
    obtain ⟨block, rfl, hsamples, hrows⟩ := exists_block family hwritable
    refine ⟨[block], ?_, ?_, ?_⟩
    · rw [familyLines, if_neg hnone, hrows]
      simp [Except.map, Block.lines, heading]
    · have hany : (samples.any fun sample => sample.family = block.family.name) = true := by
        simpa [List.filter_eq_nil_iff] using hnone
      rw [hany]
      rfl
    · intro other hother
      rw [List.mem_singleton.mp hother]
      exact hsamples

/-- The lines of several families. -/
theorem exists_blocks (h : ∀ sample ∈ samples, Writable sample.value) (fs : List MetricFamily) :
    ∃ (blocks : List Block) (ls : List (List String)), fs.mapM (familyLines samples) = .ok ls ∧
      ls.flatten = blocks.flatMap Block.lines ∧
      blocks.map Block.family =
        (fs.filter fun family => samples.any fun sample => sample.family = family.name) ∧
      ∀ block ∈ blocks,
        block.samples = samples.filter fun sample => sample.family = block.family.name := by
  induction fs with
  | nil => exact ⟨[], [], rfl, rfl, rfl, nofun⟩
  | cons family fs ih =>
    obtain ⟨blocks, ls, hls, hflatten, hfamilies, hsamples⟩ := ih
    obtain ⟨own, hown, hfamily, hrows⟩ := familyLines_eq_ok h family
    refine ⟨own ++ blocks, own.flatMap Block.lines :: ls, ?_, ?_, ?_, ?_⟩
    · rw [List.mapM_cons, hown, Except.ok_bind, hls]
      rfl
    · rw [List.flatten_cons, hflatten, List.flatMap_append]
    · rw [List.map_append, hfamily, hfamilies, List.filter_cons]
      split <;> simp
    · intro block hblock
      rcases List.mem_append.mp hblock with hblock | hblock
      · exact hrows block hblock
      · exact hsamples block hblock

/-- **The lines of samples that are declared and can be written** are laid out in blocks. -/
theorem exists_layout (hdeclared : ∀ sample ∈ samples, ¬ Undeclared V sample)
    (hwritable : ∀ sample ∈ samples, Writable sample.value) :
    ∃ blocks, Layout V samples blocks ∧
      lines V printable samples = .ok (blocks.flatMap Block.lines) := by
  obtain ⟨blocks, ls, hls, hflatten, hfamilies, hrows⟩ := exists_blocks hwritable (families V)
  obtain ⟨checked, hchecked⟩ := @exists_checked V printable samples hdeclared
  have hnames : blocks.map (fun block => block.family.name) =
      (blocks.map Block.family).map MetricFamily.name := by
    rw [List.map_map]
    rfl
  have honce : (blocks.map fun block => block.family.name).Nodup := by
    rw [hnames, hfamilies]
    exact (List.filter_sublist.map MetricFamily.name).nodup (nodup_names V)
  refine ⟨blocks, ⟨hfamilies, honce, hrows, ?_⟩, ?_⟩
  · -- The families of the blocks cover the samples.
    have hflatMap : blocks.flatMap Block.samples =
        (blocks.map fun block => block.family.name).flatMap
          fun name => samples.filter fun sample => sample.family = name := by
      rw [List.flatMap_map]
      exact List.flatMap_congr hrows
    rw [hflatMap]
    apply Dict.perm_flatMap_filter honce
    intro sample hsample
    obtain ⟨family, hfamily⟩ := Except.ok_of_mapM_eq_ok hchecked sample hsample
    obtain ⟨hmem, hname⟩ := checkedFamily_eq_ok hfamily
    rw [hnames, hfamilies, ← hname]
    apply List.mem_map_of_mem
    apply List.mem_filter.mpr
    exact ⟨hmem, List.any_eq_true.mpr ⟨sample, hsample, by simp [hname]⟩⟩
  · rw [lines, hchecked, Except.ok_bind, hls, Except.ok_bind, hflatten]
    rfl

/-- Declared samples are refused only for a value that cannot be written. -/
theorem lines_error_of_declared (hdeclared : ∀ sample ∈ samples, ¬ Undeclared V sample)
    {e : RenderError} (h : lines V printable samples = .error e) :
    ∃ message, e = .overflowError message := by
  obtain ⟨checked, hchecked⟩ := @exists_checked V printable samples hdeclared
  rw [lines, hchecked, Except.ok_bind] at h
  cases hblocks : (families V).mapM (familyLines samples) with
  | ok blocks =>
    rw [hblocks] at h
    cases h
  | error e' =>
    rw [hblocks] at h
    obtain rfl := Except.error.inj h
    obtain ⟨before, family, after, -, hfamily, -⟩ := Except.mapM_eq_error.mp hblocks
    exact familyLines_error hfamily

/-- Samples that have their lines can be written. -/
theorem writable_of_lines {ls : List String} (h : lines V printable samples = .ok ls) :
    ∀ sample ∈ samples, Writable sample.value := by
  intro sample hsample
  obtain ⟨family, -, -, line, -, hline⟩ := sample_line_mem h hsample
  obtain ⟨number, hnumber, -⟩ := Except.map_eq_ok.mp hline
  exact writable_of_valueText hnumber

/-- **Declared samples are rendered iff they can be written**, and nothing is refused but a value
that cannot. -/
theorem render_of_declared (hdeclared : ∀ sample ∈ samples, ¬ Undeclared V sample) :
    ((∀ sample ∈ samples, Writable sample.value) ∧ ∃ text, render V printable samples = .ok text) ∨
      ((¬ ∀ sample ∈ samples, Writable sample.value) ∧
        ∃ message, render V printable samples = .error (.overflowError message)) := by
  cases hlines : lines V printable samples with
  | ok ls => exact .inl ⟨writable_of_lines hlines, _, by rw [render, hlines]; rfl⟩
  | error e =>
    obtain ⟨message, rfl⟩ := lines_error_of_declared hdeclared hlines
    refine .inr ⟨fun hwritable => ?_, message, by rw [render, hlines]; rfl⟩
    obtain ⟨blocks, -, hok⟩ := @exists_layout V printable samples hdeclared hwritable
    rw [hlines] at hok
    cases hok

/-- **A sample that is not declared is refused, with nothing emitted**, and only such a sample is
refused so. -/
theorem render_eq_undeclaredLabel_iff :
    ((∃ message, render V printable samples = .error (.undeclaredLabel message)) ↔
        ∃ sample ∈ samples, Undeclared V sample) ∧
      ((∃ sample ∈ samples, Undeclared V sample) → (generate V printable samples).1 = []) := by
  refine ⟨⟨?_, ?_⟩, ?_⟩
  · rintro ⟨message, h⟩
    by_contra hnone
    have hdeclared : ∀ sample ∈ samples, ¬ Undeclared V sample :=
      fun sample hsample hundeclared => hnone ⟨sample, hsample, hundeclared⟩
    obtain ⟨overflow, hoverflow⟩ := lines_error_of_declared hdeclared (Except.map_eq_error.mp h)
    cases hoverflow
  · intro hundeclared
    obtain ⟨message, hmessage⟩ := @exists_refused V printable samples hundeclared
    exact ⟨message, by rw [render, lines, hmessage]; rfl⟩
  · intro hundeclared
    obtain ⟨message, hmessage⟩ := @exists_refused V printable samples hundeclared
    rw [generate_of_refused hmessage]

end DotmacIntegrator.Telemetry
