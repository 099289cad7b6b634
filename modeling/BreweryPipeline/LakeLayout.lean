import BreweryPipeline.BreweryDag
import BreweryPipeline.LayerPaths
import BreweryPipeline.Support.TemplateText
import BreweryPipeline.Support.Calendar

/-!
The paths the tasks of airflow_pipeline/dags/brewery_dag.py are given: templates
that are formatted when the file is parsed and rendered for each run. No output of a
task lies inside another one, and a task reads from the outputs of the task upstream
of it and from no others.
-/

namespace Brewery

open Support Support.FormatString Support.PosixPath Support.Calendar

/-- The dates a run is rendered with. `strftime` pads no year to four digits. -/
@[ext]
structure RunDates where
  ds : CalendarDate
  data_interval_end : CalendarDate
  fourDigits : 1000 ≤ ds.year ∧ 1000 ≤ data_interval_end.year

/-- The run as the lake knows it. -/
def RunDates.dagRun (dates : RunDates) : DagRun := ⟨dates.ds.number, dates.data_interval_end.number⟩

def isoText (date : CalendarDate) : Text := date.isoFormat.toList

/-- The date without its dashes. -/
def noDash (date : CalendarDate) : Text :=
  padded 4 date.year ++ (padded 2 date.month ++ padded 2 date.day)

def dsExpression : Text := ['d', 's']

def dsNoDashExpression : Text := ['d', 's', '_', 'n', 'o', 'd', 'a', 's', 'h']

def intervalEndExpression : Text := "data_interval_end.strftime('%Y-%m-%d')".toList

/-- What the expressions of the DAG file stand for; others are undefined and render as nothing. -/
def templateValue (dates : RunDates) (expression : Text) : Text :=
  if expression = dsExpression then isoText dates.ds
  else if expression = dsNoDashExpression then noDash dates.ds
  else if expression = intervalEndExpression then isoText dates.data_interval_end
  else []

/-- `{{ expression }}` -/
def printed (expression : Text) : Text := (TemplateText.Piece.expression expression).written

def extractDate : Text := ['e', 'x', 't', 'r', 'a', 'c', 't', '_', 'd', 'a', 't', 'e', '=']

def brewerydata : Text := ['b', 'r', 'e', 'w', 'e', 'r', 'y', 'd', 'a', 't', 'a', '_']

def jsonSuffix : Text := ['.', 'j', 's', 'o', 'n']

/-- `PARTITION_FOLDER_EXTRACT` -/
def partitionFolderExtract : Text := extractDate ++ printed intervalEndExpression

def bronze : Text := ['B', 'r', 'o', 'n', 'z', 'e']

def gold : Text := ['G', 'o', 'l', 'd']

section Dag
variable (python : Interpreter) (desktop : Path) (dates : RunDates)

/-- A field of a task, formatted by the DAG file and rendered for the run. -/
def renderFor (template : Except FormatError Path) : Option Path :=
  template.toOption.bind (TemplateText.render (templateValue dates))

/-- `file_path` of `brewery_operator`. -/
def filePath : Option Path :=
  renderFor dates ((layerFolder python desktop bronze partitionFolderExtract).map fun folder =>
    join folder [brewerydata ++ (printed dsNoDashExpression ++ jsonSuffix)])

/-- `--src` of `brewery_transform`. -/
def transformSource : Option Path :=
  renderFor dates (layerFolder python desktop bronze partitionFolderExtract)

/-- The directory `brewery_transform` overwrites, of its `--dest` and `--process-date`. -/
def transformTarget : Option Path :=
  (renderFor dates (layerFolder python desktop silver [])).bind fun dest =>
    (TemplateText.render (templateValue dates) (printed dsExpression)).bind fun processDate =>
      (transformationPath python dest processDate).toOption

/-- `--src` of `brewery_aggregate`. -/
def aggregateSource : Option Path :=
  renderFor dates ((layerFolder python desktop silver []).map silverRoot)

/-- The directory `brewery_aggregate` overwrites. -/
def aggregateTarget : Option Path :=
  (renderFor dates (layerFolder python desktop gold [])).bind fun dest =>
    (TemplateText.render (templateValue dates) (printed dsExpression)).map (aggregationPath dest)

end Dag

/-! The texts the expressions render to. -/

theorem padded_plain (char : Char) (other : ∀ digit < 10, Nat.digitChar digit ≠ char)
    (width number : Nat) : char ∉ padded width number := by
  induction width generalizing number with
  | zero => simp [padded]
  | succ width ih =>
      rw [padded, List.mem_append, List.mem_singleton]
      rintro (earlier | last)
      · exact ih _ earlier
      · exact other _ (Nat.mod_lt number (by decide)) last.symm

theorem iso_text_eq (date : CalendarDate) : isoText date =
    padded 4 date.year ++ '-' :: (padded 2 date.month ++ '-' :: padded 2 date.day) := by
  rw [isoText, CalendarDate.isoFormat, String.toList_ofList]

theorem iso_plain (date : CalendarDate) (char : Char)
    (other : ∀ digit < 10, Nat.digitChar digit ≠ char) (dash : '-' ≠ char) : char ∉ isoText date := by
  simp [iso_text_eq, padded_plain char other, dash.symm]

theorem iso_braceless (date : CalendarDate) : Braceless (isoText date) :=
  ⟨iso_plain date '{' (by decide) (by decide), iso_plain date '}' (by decide) (by decide)⟩

theorem iso_no_slash (date : CalendarDate) : '/' ∉ isoText date :=
  iso_plain date '/' (by decide) (by decide)

theorem no_dash_no_slash (date : CalendarDate) : '/' ∉ noDash date := by
  simp [noDash, padded_plain '/' (by decide)]

theorem iso_injective : Function.Injective isoText := fun _ _ same =>
  iso_format_strict.injective (String.toList_injective same)

theorem padded_injective (width left right : Nat) (leftFits : left < 10 ^ width)
    (rightFits : right < 10 ^ width) (same : padded width left = padded width right) : left = right := by
  rcases Nat.lt_trichotomy left right with less | equal | less
  · exact absurd same (padded_lt width left right less rightFits).ne
  · exact equal
  · exact absurd same (padded_lt width right left less leftFits).ne'

theorem no_dash_injective : Function.Injective noDash := by
  intro left right same
  obtain ⟨years, rest⟩ := List.append_inj same (by rw [padded_length, padded_length])
  obtain ⟨months, days⟩ := List.append_inj rest (by rw [padded_length, padded_length])
  have monthFits (date : CalendarDate) : date.month < 10 ^ 2 := date.realMonth.2.trans_lt (by decide)
  have dayFits (date : CalendarDate) : date.day < 10 ^ 2 := date.realDay.2.trans_lt (days_small _ _)
  exact CalendarDate.ext (padded_injective 4 _ _ left.fourDigits right.fourDigits years)
    (padded_injective 2 _ _ (monthFits left) (monthFits right) months)
    (padded_injective 2 _ _ (dayFits left) (dayFits right) days)

theorem ds_value (dates : RunDates) : templateValue dates dsExpression = isoText dates.ds := rfl

theorem no_dash_value (dates : RunDates) :
    templateValue dates dsNoDashExpression = noDash dates.ds := rfl

theorem interval_end_value (dates : RunDates) :
    templateValue dates intervalEndExpression = isoText dates.data_interval_end := by
  have other : intervalEndExpression ≠ dsExpression ∧ intervalEndExpression ≠ dsNoDashExpression := by
    decide +kernel
  rw [templateValue, if_neg other.1, if_neg other.2, if_pos rfl]

theorem expression_plain (expression : Text)
    (known : expression ∈ [dsExpression, dsNoDashExpression, intervalEndExpression]) :
    (TemplateText.Piece.expression expression).Plain := by
  have tight : ∀ text ∈ [dsExpression, dsNoDashExpression, intervalEndExpression],
      '}' ∉ text ∧ '\r' ∉ text ∧ text ≠ [] ∧ text.head? ≠ some ' ' ∧
        text.getLast? ≠ some ' ' := by
    decide +kernel
  exact tight expression known

theorem printed_ends (front expression : Text) :
    (front ++ printed expression).getLast? = some '}' := by
  have closed : front ++ printed expression =
      (front ++ '{' :: '{' :: ' ' :: (expression ++ [' ', '}'])) ++ ['}'] := by
    simp [printed, TemplateText.Piece.written]
  rw [closed, List.getLast?_concat]

/-! What the fields render to. -/
section Fields
variable (python : Interpreter) (desktop : Path) (plain : TemplateText.Settled desktop) (dates : RunDates)

def layerFront (layer : Text) : Path := directory desktop ++ (datalake ++ (layer ++ breweryData))

theorem layer_folder_front (layer part : Text) (braceless : Braceless desktop) :
    layerFolder python desktop layer part = .ok (layerFront desktop layer ++ part) := by
  rw [layer_folder_eq python desktop layer part braceless]
  simp only [layerFront, List.append_assoc]

theorem settled_directory (path : Path) (settled : TemplateText.Settled path) :
    TemplateText.Settled (directory path) := by
  unfold directory
  split
  · exact settled
  · exact (TemplateText.settled_append _ _).mpr ⟨settled, by simp [TemplateText.Settled]⟩

theorem render_settled (text : Text) (settled : TemplateText.Settled text)
    (ends : text.getLast? ≠ some '\n') :
    TemplateText.render (templateValue dates) text = some text := by
  have rendered := TemplateText.render_template (templateValue dates) [.literal text]
    (by simpa using settled) (by simpa [TemplateText.template, TemplateText.Piece.written] using ends)
  simpa [TemplateText.template, TemplateText.rendered, TemplateText.Piece.written,
    TemplateText.Piece.shown] using rendered

theorem render_ds :
    TemplateText.render (templateValue dates) (printed dsExpression) = some (isoText dates.ds) := by
  have rendered := TemplateText.render_template (templateValue dates) [.expression dsExpression]
    (by simpa using expression_plain dsExpression (by simp)) (by decide)
  simpa [TemplateText.template, TemplateText.rendered, printed, TemplateText.Piece.shown,
    ds_value] using rendered

/-- The Bronze directory of a run. -/
def extractFolder : Path :=
  layerFront desktop bronze ++ (extractDate ++ isoText dates.data_interval_end)

def fileName : Text := brewerydata ++ (noDash dates.ds ++ jsonSuffix)

include plain

theorem layer_front_settled (layer : Text) (named : TemplateText.Settled layer) :
    TemplateText.Settled (layerFront desktop layer) := by
  have folders : TemplateText.Settled datalake ∧ TemplateText.Settled breweryData := by
    simp [TemplateText.Settled, datalake, breweryData]
  simp [layerFront, settled_directory desktop plain, named, folders]

theorem bronze_settled : TemplateText.Settled (layerFront desktop bronze ++ extractDate) := by
  have front := layer_front_settled desktop plain bronze (by simp [TemplateText.Settled, bronze])
  exact (TemplateText.settled_append _ _).mpr ⟨front, by simp [TemplateText.Settled, extractDate]⟩

theorem transform_source_eq :
    transformSource python desktop dates = some (extractFolder desktop dates) := by
  have written : layerFront desktop bronze ++ partitionFolderExtract = TemplateText.template
      [.literal (layerFront desktop bronze ++ extractDate), .expression intervalEndExpression] := by
    simp [TemplateText.template, TemplateText.Piece.written, partitionFolderExtract, printed]
  have ends : (layerFront desktop bronze ++ partitionFolderExtract).getLast? ≠ some '\n' := by
    rw [partitionFolderExtract, ← List.append_assoc, printed_ends]
    decide
  rw [transformSource, layer_folder_front python desktop bronze _ plain.1, renderFor, Except.toOption,
    Option.bind_some, written, TemplateText.render_template _ _ _ (written ▸ ends)]
  · simp [TemplateText.rendered, TemplateText.Piece.shown, interval_end_value, extractFolder]
  · exact List.forall_mem_cons.mpr
      ⟨bronze_settled desktop plain, List.forall_mem_singleton.mpr (expression_plain _ (by simp))⟩

theorem file_path_eq : filePath python desktop dates =
    some (extractFolder desktop dates ++ '/' :: fileName dates) := by
  have joined : join (layerFront desktop bronze ++ partitionFolderExtract)
      [brewerydata ++ (printed dsNoDashExpression ++ jsonSuffix)] =
      layerFront desktop bronze ++ partitionFolderExtract ++
        '/' :: (brewerydata ++ (printed dsNoDashExpression ++ jsonSuffix)) := by
    have closed : (partitionFolderExtract).getLast? ≠ some '/' := by
      rw [partitionFolderExtract, printed_ends]
      decide
    have relative := join_part_relative (layerFront desktop bronze ++ partitionFolderExtract)
      (brewerydata ++ (printed dsNoDashExpression ++ jsonSuffix)) (by simp [brewerydata])
    rw [directory_name _ _ (by simp [partitionFolderExtract, extractDate]) closed] at relative
    exact relative.trans (by simp)
  have written : layerFront desktop bronze ++ partitionFolderExtract ++
        '/' :: (brewerydata ++ (printed dsNoDashExpression ++ jsonSuffix)) = TemplateText.template
      [.literal (layerFront desktop bronze ++ extractDate), .expression intervalEndExpression,
        .literal ('/' :: brewerydata), .expression dsNoDashExpression, .literal jsonSuffix] := by
    simp [TemplateText.template, TemplateText.Piece.written, partitionFolderExtract, printed]
  have ends : (layerFront desktop bronze ++ partitionFolderExtract ++
      '/' :: (brewerydata ++ (printed dsNoDashExpression ++ jsonSuffix))).getLast? ≠ some '\n' := by
    have behind : (partitionFolderExtract ++
        '/' :: (brewerydata ++ (printed dsNoDashExpression ++ jsonSuffix))).getLast? ≠ some '\n' := by
      decide +kernel
    rw [List.append_assoc, List.getLast?_append_of_ne_nil _ (by simp)]
    exact behind
  rw [filePath, layer_folder_front python desktop bronze _ plain.1, Except.map, joined, renderFor,
    Except.toOption, Option.bind_some, written, TemplateText.render_template _ _ _ (written ▸ ends)]
  · simp [TemplateText.rendered, TemplateText.Piece.shown, interval_end_value, no_dash_value,
      extractFolder, fileName]
  · simp only [List.forall_mem_cons, List.not_mem_nil, IsEmpty.forall_iff, implies_true, and_true]
    exact ⟨bronze_settled desktop plain, expression_plain _ (by simp),
      by simp [TemplateText.Settled, brewerydata], expression_plain _ (by simp),
      by simp [TemplateText.Settled, jsonSuffix]⟩

omit plain in
theorem layer_front_ends (layer : Text) : (layerFront desktop layer).getLast? = some '/' := by
  simp [layerFront, breweryData]

omit plain in
theorem silver_root_eq (layer : Text) :
    silverRoot (layerFront desktop layer) = layerFront desktop layer ++ breweryDataMain := by
  have below := join_part_relative (layerFront desktop layer) breweryDataMain (by decide)
  rwa [directory, if_pos (Or.inr (layer_front_ends desktop layer))] at below

/-- A field that formats to the folder of a layer has nothing left to render. -/
theorem layer_folder_rendered (layer : Text) (named : TemplateText.Settled layer) :
    renderFor dates (layerFolder python desktop layer []) = some (layerFront desktop layer) := by
  have front := layer_front_settled desktop plain layer named
  rw [layer_folder_front python desktop layer [] plain.1, List.append_nil, renderFor, Except.toOption,
    Option.bind_some, render_settled dates _ front (by simp [layer_front_ends desktop layer])]

theorem silver_front_rendered :
    renderFor dates (layerFolder python desktop silver []) = some (layerFront desktop silver) :=
  layer_folder_rendered python desktop plain dates silver (by simp [TemplateText.Settled, silver])

theorem transform_target_eq : transformTarget python desktop dates =
    some (aggregationPath (layerFront desktop silver) (isoText dates.ds)) := by
  have front := layer_front_settled desktop plain silver (by simp [TemplateText.Settled, silver])
  rw [transformTarget, silver_front_rendered python desktop plain, Option.bind_some, render_ds,
    Option.bind_some, transformation_path_braceless python _ _ front.1 (iso_braceless dates.ds)]
  rfl

theorem aggregate_source_eq :
    aggregateSource python desktop dates = some (silverRoot (layerFront desktop silver)) := by
  have front := layer_front_settled desktop plain silver (by simp [TemplateText.Settled, silver])
  have settled : TemplateText.Settled (silverRoot (layerFront desktop silver)) := by
    rw [silver_root_eq, TemplateText.settled_append]
    exact ⟨front, by simp [TemplateText.Settled, breweryDataMain]⟩
  have ends : (silverRoot (layerFront desktop silver)).getLast? ≠ some '\n' := by
    rw [silver_root_eq, List.getLast?_append_of_ne_nil _ (by decide)]
    decide
  rw [aggregateSource, layer_folder_front python desktop silver [] plain.1, List.append_nil, renderFor]
  exact render_settled dates _ settled ends

theorem aggregate_target_eq : aggregateTarget python desktop dates =
    some (aggregationPath (layerFront desktop gold) (isoText dates.ds)) := by
  rw [aggregateTarget, layer_folder_rendered python desktop plain dates gold
    (by simp [TemplateText.Settled, gold]), Option.bind_some, render_ds]
  rfl

end Fields

/-! Where the rendered paths lie. -/

def apacheAirflow : Text := ['A', 'p', 'a', 'c', 'h', 'e', ' ', 'A', 'i', 'r', 'f', 'l', 'o', 'w']

def datalakeName : Text := ['d', 'a', 't', 'a', 'l', 'a', 'k', 'e']

def breweryDataName : Text := ['b', 'r', 'e', 'w', 'e', 'r', 'y', '_', 'd', 'a', 't', 'a']

section Layout
variable (python : Interpreter) (desktop : Path)

/-- The path a task writes: a file, or the directory it overwrites. -/
def output : Task → RunDates → Option Path
  | .extract => filePath python desktop
  | .transform => transformTarget python desktop
  | .aggregate => aggregateTarget python desktop

/-- The directory a task reads from the lake. -/
def input : Task → RunDates → Option Path
  | .extract => fun _ => none
  | .transform => transformSource python desktop
  | .aggregate => aggregateSource python desktop

/-- The names below the desktop folder. -/
def outputNames : Task → RunDates → List Text
  | .extract, dates =>
      [bronze, breweryDataName, extractDate ++ isoText dates.data_interval_end, fileName dates]
  | .transform, dates =>
      [silver, breweryDataName, breweryDataMain, processDatePartition (isoText dates.ds)]
  | .aggregate, dates =>
      [gold, breweryDataName, breweryDataMain, processDatePartition (isoText dates.ds)]

def inputNames : Task → RunDates → Option (List Text)
  | .extract, _ => none
  | .transform, dates => some [bronze, breweryDataName, extractDate ++ isoText dates.data_interval_end]
  | .aggregate, _ => some [silver, breweryDataName, breweryDataMain]

def Within (outer inner : Option Path) : Prop :=
  ∃ outerPath ∈ outer, ∃ innerPath ∈ inner, components outerPath <+: components innerPath

/-- The keys of a task's output in its layer of the lake. -/
def keys : Task → DagRun → List Day
  | .extract, run => [run.data_interval_end, run.ds]
  | _, run => [run.ds]

/-- The keys of what a task reads of the layer before it. -/
def inputKeys : Task → DagRun → List Day
  | .transform, run => [run.data_interval_end]
  | _, _ => []

theorem layer_components (layer part : Text) (named : Component layer) :
    components (layerFront desktop layer ++ part) = components desktop ++
      apacheAirflow :: datalakeName :: layer :: breweryDataName :: components part := by
  have written : layerFront desktop layer ++ part = directory desktop ++ (apacheAirflow ++ '/' ::
      (datalakeName ++ '/' :: (layer ++ '/' :: (breweryDataName ++ '/' :: part)))) := by
    simp [layerFront, apacheAirflow, datalakeName, breweryDataName, datalake, breweryData]
  rw [written, components_directory, components_under _ _ (by decide), components_under _ _ (by decide),
    components_under _ _ named, components_under _ _ (by decide)]

theorem extract_folder_components (dates : RunDates) : components (extractFolder desktop dates) =
    components desktop ++ apacheAirflow :: datalakeName ::
      [bronze, breweryDataName, extractDate ++ isoText dates.data_interval_end] := by
  have folder : Component (extractDate ++ isoText dates.data_interval_end) := by
    simp [Component, extractDate, iso_no_slash]
  rw [extractFolder, layer_components desktop bronze _ (by decide), components_name _ folder]

theorem file_components (dates : RunDates) :
    components (extractFolder desktop dates ++ '/' :: fileName dates) =
      components desktop ++ apacheAirflow :: datalakeName :: outputNames .extract dates := by
  have file : Component (fileName dates) := by
    simp [Component, fileName, brewerydata, jsonSuffix, no_dash_no_slash]
  rw [components_append, extract_folder_components, components_name _ file, List.append_assoc]
  rfl

theorem table_components (layer : Text) (named : Component layer) :
    components (silverRoot (layerFront desktop layer)) = components desktop ++
      apacheAirflow :: datalakeName :: [layer, breweryDataName, breweryDataMain] := by
  rw [silver_root_eq, layer_components desktop layer _ named,
    components_name breweryDataMain (by decide)]

theorem partition_components (layer : Text) (named : Component layer) (dates : RunDates) :
    components (aggregationPath (layerFront desktop layer) (isoText dates.ds)) =
      components desktop ++ apacheAirflow :: datalakeName ::
        [layer, breweryDataName, breweryDataMain, processDatePartition (isoText dates.ds)] := by
  have relative := join_part_relative (silverRoot (layerFront desktop layer))
    (processDatePartition (isoText dates.ds)) (partition_relative _)
  rw [aggregation_path_under_root]
  refine (congrArg components relative).trans ?_
  rw [components_directory, table_components desktop layer named,
    components_name _ ((partition_component _).mpr (iso_no_slash dates.ds)), List.append_assoc]
  rfl

theorem same_file_name (left right : RunDates) : fileName left = fileName right ↔ left.ds = right.ds := by
  rw [fileName, fileName, List.append_right_inj, List.append_left_inj, no_dash_injective.eq_iff]

theorem same_partition (left right : RunDates) :
    processDatePartition (isoText left.ds) = processDatePartition (isoText right.ds) ↔
      left.ds = right.ds := by
  rw [processDatePartition, processDatePartition, List.append_right_inj, iso_injective.eq_iff]

theorem layers_apart : bronze ≠ silver ∧ bronze ≠ gold ∧ silver ≠ gold := by decide

/-- Outputs that are named along one another have the same names. -/
theorem output_names_prefix (task other : Task) (left right : RunDates) :
    outputNames task left <+: outputNames other right ↔
      task = other ∧ keys task left.dagRun = keys task right.dagRun := by
  obtain ⟨notSilver, notGold, apart⟩ := layers_apart
  cases task <;> cases other
  case extract.extract =>
    simp [outputNames, keys, RunDates.dagRun, iso_injective.eq_iff, same_file_name,
      number_strict.injective.eq_iff]
  case transform.transform | aggregate.aggregate =>
    simp [outputNames, keys, RunDates.dagRun, same_partition, number_strict.injective.eq_iff]
  all_goals simp [outputNames, notSilver, notGold, apart, notSilver.symm, notGold.symm, apart.symm]

theorem input_names_prefix (reader writer : Task) (left right : RunDates) (names : List Text)
    (reads : inputNames reader left = some names) : names <+: outputNames writer right ↔
      writer.downstream = some reader ∧ inputKeys reader left.dagRun <+: keys writer right.dagRun := by
  obtain ⟨notSilver, notGold, apart⟩ := layers_apart
  cases reader with
  | extract => simp [inputNames] at reads
  | transform =>
      obtain rfl := Option.some.inj reads
      cases writer <;> simp [outputNames, Task.downstream, inputKeys, keys, RunDates.dagRun,
        iso_injective.eq_iff, number_strict.injective.eq_iff, notSilver, notGold]
  | aggregate =>
      obtain rfl := Option.some.inj reads
      cases writer <;> simp [outputNames, Task.downstream, inputKeys, notSilver.symm, apart]

variable (plain : TemplateText.Settled desktop)
include plain

/-- What a task writes lies below the data lake on the desktop, under the names of its layer. -/
theorem output_lies (task : Task) (dates : RunDates) :
    ∃ path, output python desktop task dates = some path ∧
      components path =
        components desktop ++ apacheAirflow :: datalakeName :: outputNames task dates := by
  cases task with
  | extract => exact ⟨_, file_path_eq python desktop plain dates, file_components desktop dates⟩
  | transform =>
      exact ⟨_, transform_target_eq python desktop plain dates,
        partition_components desktop silver (by decide) dates⟩
  | aggregate =>
      exact ⟨_, aggregate_target_eq python desktop plain dates,
        partition_components desktop gold (by decide) dates⟩

theorem input_lies (task : Task) (dates : RunDates) (names : List Text)
    (reads : inputNames task dates = some names) : ∃ path, input python desktop task dates = some path ∧
      components path = components desktop ++ apacheAirflow :: datalakeName :: names := by
  cases task with
  | extract => simp [inputNames] at reads
  | transform =>
      obtain rfl := Option.some.inj reads
      exact ⟨_, transform_source_eq python desktop plain dates, extract_folder_components desktop dates⟩
  | aggregate =>
      obtain rfl := Option.some.inj reads
      exact ⟨_, aggregate_source_eq python desktop plain dates,
        table_components desktop silver (by decide)⟩

omit plain in
theorem within_names (front names below : List Path) (outer inner : Path)
    (outside : components outer = front ++ names) (inside : components inner = front ++ below) :
    Within (some outer) (some inner) ↔ names <+: below := by
  simp [Within, outside, inside, List.prefix_append_right_inj]

/-- No output lies inside another: two attempts write to one place, or to places apart. -/
theorem output_within (task other : Task) (left right : RunDates) :
    Within (output python desktop task left) (output python desktop other right) ↔
      task = other ∧ keys task left.dagRun = keys task right.dagRun := by
  obtain ⟨outer, written, outside⟩ := output_lies python desktop plain task left
  obtain ⟨inner, writes, inside⟩ := output_lies python desktop plain other right
  rw [written, writes, within_names _ _ _ outer inner outside inside, List.cons_prefix_cons,
    List.cons_prefix_cons, output_names_prefix]
  simp

/-- A task reads the outputs of the task upstream of it, and none of any other task. -/
theorem input_within (reader writer : Task) (left right : RunDates) :
    Within (input python desktop reader left) (output python desktop writer right) ↔
      writer.downstream = some reader ∧ inputKeys reader left.dagRun <+: keys writer right.dagRun := by
  obtain ⟨inner, writes, inside⟩ := output_lies python desktop plain writer right
  cases reads : inputNames reader left with
  | none =>
      -- Only the extraction reads nothing of the lake, and it is no task's downstream task.
      cases reader <;> simp [inputNames] at reads
      cases writer <;> simp [Within, input, Task.downstream]
  | some names =>
      obtain ⟨outer, given, outside⟩ := input_lies python desktop plain reader left names reads
      rw [given, writes, within_names _ _ _ outer inner outside inside, List.cons_prefix_cons,
        List.cons_prefix_cons, input_names_prefix reader writer left right names reads]
      simp

/-- The paths of the DAG lie as the keys of the lake do: no task writes into another
output, and a task reads what the task upstream of it wrote, for the dates it asks for. -/
theorem lake_layout (task other : Task) (left right : RunDates) :
    (Within (output python desktop task left) (output python desktop other right) ↔
      task = other ∧ keys task left.dagRun = keys task right.dagRun) ∧
    (Within (input python desktop task left) (output python desktop other right) ↔
      other.downstream = some task ∧ inputKeys task left.dagRun <+: keys other right.dagRun) :=
  ⟨output_within python desktop plain task other left right,
    input_within python desktop plain task other left right⟩

end Layout

/-- The run of a day in July, which ends on the next one. -/
def julyRun (day : Nat) (real : 1 ≤ day ∧ day ≤ 30) : RunDates where
  ds := ⟨2025, 7, day, by decide, by decide, real.1, real.2.trans (by decide)⟩
  data_interval_end :=
    ⟨2025, 7, day + 1, by decide, by decide, Nat.le_add_left 1 day, Nat.succ_le_succ real.2⟩
  fourDigits := (by decide : 1000 ≤ 2025 ∧ 1000 ≤ 2025)

theorem july_layout :
    let python : Interpreter :=
      ⟨fun _ => none, fun _ => true, true, fun _ _ _ _ => .error .attributeError⟩
    let desktop := ['/', 'h', 'o', 'm', 'e', '/', 'e', 'n', 'd', 'u', 's', 'e', 'r', '/',
      'D', 'e', 's', 'k', 't', 'o', 'p']
    let first := julyRun 1 (by decide)
    let second := julyRun 2 (by decide)
    Within (input python desktop .transform first) (output python desktop .extract first) ∧
      ¬Within (input python desktop .transform first) (output python desktop .extract second) := by
  intro python desktop first second
  have settled : TemplateText.Settled desktop := by simp [TemplateText.Settled, desktop]
  have own := lake_layout python desktop settled .transform .extract first first
  have other := lake_layout python desktop settled .transform .extract first second
  refine ⟨own.2.mpr ⟨rfl, ⟨[first.dagRun.ds], rfl⟩⟩, fun inside => ?_⟩
  -- The two runs end on different days.
  have later : first.data_interval_end.number < second.data_interval_end.number :=
    number_strict ((date_lt_iff _ _).mpr (by decide))
  have sameDay : first.dagRun.data_interval_end = second.dagRun.data_interval_end :=
    (List.cons_prefix_cons.mp (other.2.mp inside).2).1
  exact later.ne (Int.ofNat.inj sameDay)

end Brewery
