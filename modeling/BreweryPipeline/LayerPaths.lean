import BreweryPipeline.Support.FormatPieces
import BreweryPipeline.Support.PosixPath

/-!
The directories of the layers. The transformation puts the destination and the date
into a template and formats the whole; the aggregation joins plain texts. The
two agree exactly when neither text holds a brace.
-/

namespace Brewery

open Support.FormatString Support.PosixPath

def tableName : Text := ['t', 'a', 'b', 'l', 'e', '_', 'n', 'a', 'm', 'e']

def breweryDataMain : Text :=
  ['b', 'r', 'e', 'w', 'e', 'r', 'y', '_', 'd', 'a', 't', 'a', '_', 'm', 'a', 'i', 'n']

/-- `f'process_date={process_date}'` -/
def processDatePartition (processDate : Text) : Text :=
  ['p', 'r', 'o', 'c', 'e', 's', 's', '_', 'd', 'a', 't', 'e', '='] ++ processDate

/-! `brewery_transformation` -/

def tableDest (dest processDate : Text) : Path :=
  join dest ['{' :: (tableName ++ ['}']), processDatePartition processDate]

def transformationPath (python : Interpreter) (dest processDate : Text) : Except FormatError Path :=
  format python [(tableName, breweryDataMain)] (tableDest dest processDate)

/-! `aggregated_layer` -/

def aggregationPath (dest processDate : Text) : Path :=
  join dest [breweryDataMain, processDatePartition processDate]

/-! `brewery_dag` -/

def datalake : Path := ['A', 'p', 'a', 'c', 'h', 'e', ' ', 'A', 'i', 'r', 'f', 'l', 'o', 'w', '/'] ++
  ['d', 'a', 't', 'a', 'l', 'a', 'k', 'e', '/']

def breweryData : Path := ['/', 'b', 'r', 'e', 'w', 'e', 'r', 'y', '_', 'd', 'a', 't', 'a', '/']

def stage : Text := ['s', 't', 'a', 'g', 'e']

def partition : Text := ['p', 'a', 'r', 't', 'i', 't', 'i', 'o', 'n']

def layerTemplate : Path :=
  datalake ++ '{' :: (stage ++ '}' :: (breweryData ++ '{' :: (partition ++ ['}'])))

/-- `BASE_FOLDER`, below the user's desktop folder. -/
def baseFolder (desktop : Path) : Path := join desktop [layerTemplate]

def layerFolder (python : Interpreter) (desktop : Path) (layer part : Text) : Except FormatError Path :=
  format python [(stage, layer), (partition, part)] (baseFolder desktop)

def silver : Text := ['S', 'i', 'l', 'v', 'e', 'r']

/-- The source handed to the aggregation, for the Silver folder of the transformation. -/
def silverRoot (dest : Path) : Path := join dest [breweryDataMain]

theorem partition_relative (processDate : Text) :
    (processDatePartition processDate).head? ≠ some '/' := by
  simp [processDatePartition]

theorem partition_component (processDate : Text) :
    Component (processDatePartition processDate) ↔ '/' ∉ processDate := by
  simp [Component, processDatePartition]

@[simp] theorem braceless_partition (processDate : Text) :
    Braceless (processDatePartition processDate) ↔ Braceless processDate := by
  simp [processDatePartition]

@[simp] theorem braceless_table : Braceless breweryDataMain := by
  simp [breweryDataMain]

theorem join_table (dest name processDate : Text) (relative : name.head? ≠ some '/') (named : name ≠ [])
    (ends : name.getLast? ≠ some '/') : join dest [name, processDatePartition processDate] =
      directory dest ++ (name ++ '/' :: processDatePartition processDate) := by
  change joinPart (joinPart dest name) (processDatePartition processDate) = _
  rw [join_part_relative _ _ (partition_relative processDate), join_part_relative dest name relative,
    directory_name _ name named ends, List.append_assoc, List.append_assoc, List.singleton_append]

theorem table_dest_eq (dest processDate : Text) : tableDest dest processDate =
    directory dest ++ ('{' :: (tableName ++ ['}']) ++ '/' :: processDatePartition processDate) :=
  join_table dest _ processDate (by decide) (by decide) (by decide)

theorem aggregation_path_eq (dest processDate : Text) : aggregationPath dest processDate =
    directory dest ++ (breweryDataMain ++ '/' :: processDatePartition processDate) :=
  join_table dest _ processDate (by decide) (by decide) (by decide)

theorem aggregation_path_under_root (dest processDate : Text) : aggregationPath dest processDate =
    join (silverRoot dest) [processDatePartition processDate] := rfl

@[simp] theorem braceless_directory (dest : Path) : Braceless (directory dest) ↔ Braceless dest := by
  unfold directory
  split <;> simp

theorem braceless_aggregation_path (dest processDate : Text) :
    Braceless (aggregationPath dest processDate) ↔ Braceless dest ∧ Braceless processDate := by
  rw [aggregation_path_eq]
  simp

/-! The transformation formats its destination. -/

theorem plain_table_name : PlainName tableName where
  head := ⟨'t', rfl, by decide, by decide⟩
  unmarked := by simp [tableName]

theorem transformation_path_braceless (python : Interpreter) (dest processDate : Text)
    (destination : Braceless dest) (date : Braceless processDate) :
    transformationPath python dest processDate = .ok (aggregationPath dest processDate) := by
  have pieces := format_pieces python [(tableName, breweryDataMain)]
    [.literal (directory dest), .named tableName, .literal ('/' :: processDatePartition processDate)]
    (by simp [destination, date, plain_table_name])
  rw [transformationPath, table_dest_eq, aggregation_path_eq]
  simpa [template, filled, Piece.written, Piece.shown] using pieces

/-! The DAG formats its base folder, with the user's desktop folder in it. -/

theorem plain_stage : PlainName stage where
  head := ⟨'s', rfl, by decide, by decide⟩
  unmarked := by simp [stage]

theorem plain_partition : PlainName partition where
  head := ⟨'p', rfl, by decide, by decide⟩
  unmarked := by simp [partition]

theorem braceless_folders :
    Braceless datalake ∧ Braceless silver ∧ Braceless breweryData := by
  simp [datalake, silver, breweryData]

theorem layer_folder_eq (python : Interpreter) (desktop : Path) (layer part : Text)
    (plain : Braceless desktop) : layerFolder python desktop layer part =
      .ok (directory desktop ++ (datalake ++ (layer ++ (breweryData ++ part)))) := by
  have below : baseFolder desktop = directory desktop ++ layerTemplate :=
    join_part_relative desktop layerTemplate (by decide)
  have values : [(stage, layer), (partition, part)].lookup stage = some layer ∧
      [(stage, layer), (partition, part)].lookup partition = some part := ⟨rfl, rfl⟩
  have pieces := format_pieces python [(stage, layer), (partition, part)]
    [.literal (directory desktop), .literal datalake, .named stage, .literal breweryData,
      .named partition]
    (by simp [plain, plain_stage, plain_partition, values, braceless_folders])
  rw [layerFolder, below]
  simpa [template, layerTemplate, filled, Piece.written, Piece.shown, values] using pieces

/-- In the runs of the DAG the two programs meet, for a desktop folder without braces. -/
theorem dag_layer_paths (python : Interpreter) (desktop : Path) (processDate : Text)
    (home : Braceless desktop) (date : Braceless processDate) :
    ∃ dest, layerFolder python desktop silver [] = .ok dest ∧
      transformationPath python dest processDate =
        .ok (join (silverRoot dest) [processDatePartition processDate]) := by
  have plain : Braceless (directory desktop ++ (datalake ++ (silver ++ (breweryData ++ [])))) := by
    simp [home, braceless_folders]
  exact ⟨_, layer_folder_eq python desktop silver [] home,
    transformation_path_braceless python _ processDate plain date⟩

theorem transformation_path_only_braceless (decimal : Char → Option (Fin 10)) (printable : Char → Bool)
    (zeroPads : Bool) (dest processDate : Text)
    (agrees : transformationPath ⟨decimal, printable, zeroPads, fun _ _ _ _ => .error .attributeError⟩
      dest processDate = .ok (aggregationPath dest processDate)) :
    Braceless dest ∧ Braceless processDate := by
  -- The field of the table name is one brace of either kind, and its value is longer.
  have values (name value : Text) (stored : (name, value) ∈ [(tableName, breweryDataMain)]) :
      Braceless name ∧ Braceless value := by
    obtain ⟨rfl, rfl⟩ := Prod.mk.inj (List.mem_singleton.mp stored)
    simp [tableName]
  have field : ('{' :: (tableName ++ ['}'])).count '{' = 1 ∧ ('{' :: (tableName ++ ['}'])).count '}' = 1 ∧
      breweryDataMain.count '{' = 0 ∧ breweryDataMain.count '}' = 0 := by decide
  obtain ⟨opening, closing, noOpening, noClosing⟩ := field
  have longer : ('{' :: (tableName ++ ['}'])).length < breweryDataMain.length := by decide
  rw [← braceless_aggregation_path dest processDate]
  refine format_sole_field _ _ (fun _ _ _ _ _ printed => by cases printed) values _ _ agrees ?_ ?_ ?_
  · rw [table_dest_eq, aggregation_path_eq]
    simp only [List.count_append, opening, noOpening]
    omega
  · rw [table_dest_eq, aggregation_path_eq]
    simp only [List.count_append, closing, noClosing]
    omega
  · rw [table_dest_eq, aggregation_path_eq]
    simp only [List.length_append] at longer ⊢
    omega

/-- Every interpreter writes where the aggregation's path expression points, right
below the Silver root, exactly for texts without braces and dates with nothing but
empty names and single dots behind their first slash. -/
theorem layer_paths_agree_iff (decimal : Char → Option (Fin 10)) (printable : Char → Bool)
    (zeroPads : Bool) (dest processDate : Text) :
    ((∀ member, transformationPath ⟨decimal, printable, zeroPads, member⟩ dest processDate =
        .ok (aggregationPath dest processDate)) ∧
      LiesDirectlyUnder (silverRoot dest) (aggregationPath dest processDate)) ↔
      Braceless dest ∧ Braceless processDate ∧
        ∀ part ∈ (processDate.splitOn '/').tail, part ∈ [[], ['.']] := by
  have under : LiesDirectlyUnder (silverRoot dest) (aggregationPath dest processDate) ↔
      ∀ part ∈ (processDate.splitOn '/').tail, part ∈ [[], ['.']] :=
    lies_directly_under_iff _ (processDatePartition []) processDate (by decide) (by decide)
  rw [under, ← and_assoc]
  refine and_congr_left fun _ => ⟨fun agrees => ?_, fun braceless member => ?_⟩
  · exact transformation_path_only_braceless decimal printable zeroPads dest processDate (agrees _)
  · exact transformation_path_braceless _ dest processDate braceless.1 braceless.2

/-- The doubled braces are kept by the aggregation and halved by the transformation. -/
theorem doubled_braces_part_ways :
    let python : Interpreter :=
      ⟨fun _ => none, fun _ => true, true, fun _ _ _ _ => .error .attributeError⟩
    let dest := "/lake/{{raw}}".toList
    let processDate := "2024-01-01".toList
    ¬(transformationPath python dest processDate = .ok (aggregationPath dest processDate) ∧
      LiesDirectlyUnder (silverRoot dest) (aggregationPath dest processDate)) := by
  rintro python dest processDate ⟨agrees, _⟩
  have written : transformationPath python dest processDate =
      .ok "/lake/{raw}/brewery_data_main/process_date=2024-01-01".toList := by decide +kernel
  have read : aggregationPath dest processDate =
      "/lake/{{raw}}/brewery_data_main/process_date=2024-01-01".toList := by decide +kernel
  rw [written, read, Except.ok.injEq] at agrees
  exact absurd agrees (by decide +kernel)

end Brewery
