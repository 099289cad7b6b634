import BreweryPipeline.Aggregation

/-!
The Silver root as a table: which rows belong to which partition, whose rows the
latest date selects, and what the counts written to Gold are in terms of the
partitions. A partition without rows takes no part in the choice of the date.
-/

namespace Brewery

open Support.JsonText Support.FileStore Support.Grouping

/-- The `(brewery_type, country)` pairs of the rows a partition holds. -/
def partitionKeys (files : List DataFrame) : List (Option String × Option String) :=
  files.flatMap fun file => file.records.map recordKey

def Lake.silverKeys (lake : Lake) (day : Day) : List (Option String × Option String) :=
  partitionKeys ((lake.silver[day]?).getD [])

/-- The latest date under which the Silver table holds a row. -/
def LatestSilver (lake : Lake) (day : Day) : Prop :=
  lake.silverKeys day ≠ [] ∧ ∀ other, lake.silverKeys other ≠ [] → other ≤ day

/-- A frame built from records keeps the pairs of the records. -/
theorem of_records_keys (records : List Record) :
    partitionKeys [DataFrame.ofRecords records] = records.map recordKey := by
  simp only [partitionKeys, List.flatMap_singleton, of_records_records, List.map_map]
  apply List.map_congr_left
  intro record member
  simp only [Function.comp_def, recordKey, project_cell records record member]

theorem insert_keys (lake : Lake) (day other : Day) (files : List DataFrame) :
    (lake.withSilver (lake.silver.insert day files)).silverKeys other =
      if other = day then partitionKeys files else lake.silverKeys other := by
  split
  · rename_i same
    subst same
    simp [Lake.silverKeys]
  · rename_i differs
    simp only [Lake.silverKeys, with_silver_silver, insert_other _ _ _ _ differs]

theorem mem_silver_files (silver : Store Day (List DataFrame)) (file : DataFrame) :
    file ∈ silverFiles silver ↔
      ∃ (day : Day) (files : List DataFrame), silver[day]? = some files ∧ file ∈ files := by
  simp only [silverFiles, List.mem_flatMap, Prod.exists, mem_entries]

theorem validate_aggregation_ok_iff (columns : List String) :
    validateAggregationSchema columns = .ok () ↔ ∀ column ∈ aggregationColumns, column ∈ columns := by
  by_cases complete : aggregationColumns.filter (fun column => !decide (column ∈ columns)) = []
  · simp only [validateAggregationSchema, complete, if_true, true_iff]
    simpa [List.filter_eq_nil_iff] using complete
  · simp only [validateAggregationSchema, complete, if_false, reduceCtorEq, false_iff]
    simpa [List.filter_eq_nil_iff] using complete

/-- The schema of the root is that of one of its files. -/
theorem read_parquet_ok (schemaFile : Nat) (silver : Store Day (List DataFrame))
    (table : SilverTable Day) (read : readParquet schemaFile silver = .ok table) :
    ∃ schema ∈ silverFiles silver, table.columns = dataColumns schema ++ [partitionColumn] ∧
      table.rows = tableRows (dataColumns schema) silver := by
  unfold readParquet at read
  simp only at read
  split at read
  · contradiction
  · rename_i schema found
    cases read
    exact ⟨schema, List.mem_of_getElem? found, rfl, rfl⟩

theorem read_parquet_exists (schemaFile : Nat) (silver : Store Day (List DataFrame))
    (file : DataFrame) (member : file ∈ silverFiles silver) :
    ∃ table, readParquet schemaFile silver = .ok table := by
  have positive : 0 < (silverFiles silver).length := List.length_pos_of_mem member
  have bound := Nat.mod_lt schemaFile positive
  simp [readParquet, List.getElem?_eq_getElem bound]

theorem data_columns_member (schema : DataFrame) (column : String)
    (member : column ∈ dataColumns schema ++ [partitionColumn]) (ordinary : column ≠ partitionColumn) :
    column ∈ dataColumns schema := by
  rcases List.mem_append.mp member with data | partition
  · exact data
  · exact absurd (List.mem_singleton.mp partition) ordinary

theorem project_cell_of_mem (columns : List String) (record : Record) (column : String)
    (member : column ∈ columns) : (record.project columns).cell column = record.cell column := by
  rw [Record.project, cell_zip, if_pos member]

/-- A schema with both columns reads the pairs of every file as they were written. -/
theorem partition_rows_keys (columns : List String) (day : Day) (files : List DataFrame)
    (brewery_type : "brewery_type" ∈ columns) (country : "country" ∈ columns) :
    (partitionRows columns day files).map SilverRow.key = partitionKeys files := by
  have keys (record : Record) : recordKey (record.project columns) = recordKey record := by
    rw [recordKey, project_cell_of_mem columns record _ brewery_type,
      project_cell_of_mem columns record _ country, recordKey]
  simp only [partitionRows, partitionKeys, List.map_flatMap, List.map_map, Function.comp_def,
    SilverRow.key, keys]

theorem partition_rows_date (columns : List String) (day : Day) (files : List DataFrame)
    (row : SilverRow Day) (member : row ∈ partitionRows columns day files) :
    row.process_date = some day := by
  obtain ⟨file, _, inside⟩ := List.mem_flatMap.mp member
  obtain ⟨record, _, same⟩ := List.mem_map.mp inside
  exact same ▸ rfl

theorem filter_partition_rows (columns : List String) (day wanted : Day) (files : List DataFrame) :
    (partitionRows columns day files).filter (fun row => decide (row.process_date = some wanted)) =
      if day = wanted then partitionRows columns day files else [] := by
  split
  · rename_i same
    apply List.filter_eq_self.mpr
    intro row member
    simp [partition_rows_date columns day files row member, same]
  · rename_i differs
    apply List.filter_eq_nil_iff.mpr
    intro row member
    simp [partition_rows_date columns day files row member, differs]

/-- The rows of one date are those of its partition. -/
theorem table_rows_of (columns : List String) (silver : Store Day (List DataFrame)) (day : Day) :
    rowsOf (tableRows columns silver) day = partitionRows columns day ((silver[day]?).getD []) := by
  have chosen : rowsOf (tableRows columns silver) day =
      (silver.toList.filter fun entry => decide (entry.1 = day)).flatMap fun entry =>
        partitionRows columns entry.1 entry.2 := by
    unfold rowsOf tableRows
    induction silver.toList with
    | nil => rfl
    | cons entry rest ih =>
        rw [List.flatMap_cons, List.filter_append, filter_partition_rows, ih]
        by_cases same : entry.1 = day <;> simp [same]
  rw [chosen, filter_entries]
  cases silver[day]? with
  | none => simp [partitionRows]
  | some files => simp

section Keys
variable (columns : List String) (lake : Lake) (brewery_type : "brewery_type" ∈ columns)
  (country : "country" ∈ columns)
include brewery_type country

theorem table_row_keys (day : Day) :
    (rowsOf (tableRows columns lake.silver) day).map SilverRow.key = lake.silverKeys day := by
  rw [table_rows_of, partition_rows_keys columns day _ brewery_type country, Lake.silverKeys]

theorem table_row_date (day : Day) :
    some day ∈ (tableRows columns lake.silver).map SilverRow.process_date ↔
      lake.silverKeys day ≠ [] := by
  rw [← table_row_keys columns lake brewery_type country day]
  simp only [rowsOf, ne_eq, List.map_eq_nil_iff, List.filter_eq_nil_iff, List.mem_map,
    decide_eq_true_eq]
  push Not
  rfl

theorem latest_date_silver (day : Day) :
    LatestDate (tableRows columns lake.silver) day ↔ LatestSilver lake day := by
  simp only [LatestDate, LatestSilver, table_row_date columns lake brewery_type country]

/-- With both columns in the schema and no failing job, the rows chosen are
those of the latest partition that has any. -/
theorem latest_keys (day : Day) (isLatest : LatestSilver lake day) :
    (filterByLatestExtractDate false (tableRows columns lake.silver)).map SilverRow.key =
      lake.silverKeys day := by
  have top := (latest_date_silver columns lake brewery_type country day).mpr isLatest
  rw [filter_latest _ day top, table_row_keys columns lake brewery_type country day]

theorem no_keys (empty : ∀ day, lake.silverKeys day = []) :
    filterByLatestExtractDate false (tableRows columns lake.silver) = [] := by
  apply filter_undated
  intro day dated
  exact (table_row_date columns lake brewery_type country day).mp dated (empty day)

end Keys

theorem latest_silver_exists (lake : Lake) (day : Day) (rows : lake.silverKeys day ≠ []) :
    ∃ top, LatestSilver lake top := by
  have member (other : Day) : some other ∈ (tableRows ["brewery_type", "country"]
      lake.silver).map SilverRow.process_date ↔ lake.silverKeys other ≠ [] :=
    table_row_date _ lake (by decide) (by decide) other
  obtain ⟨top, isLatest⟩ := latest_date_exists _ day ((member day).mpr rows)
  exact ⟨top, (latest_date_silver _ lake (by decide) (by decide) top).mp isLatest⟩

/-- Everything an attempt can do: it refuses and leaves the lake alone, or the
table was accepted and the Gold partition of its own date was written to. -/
inductive Aggregated (env : AggregateEnv) (run : DagRun) (lake : Lake) :
    Except Failure Unit × Lake → Prop where
  | refused (failure : Failure) : Aggregated env run lake (.error failure, lake)
  | torn (table : SilverTable Day) (frame : List GoldRow) (fault : WriteFault)
      (read : readSilver env lake = .ok table)
      (valid : validateAggregationSchema table.columns = .ok ())
      (result : frame = getAggregate (filterByLatestExtractDate env.maxFails table.rows))
      (faulty : env.writeFault = some fault) :
      Aggregated env run lake (.error .sparkJob, lake.withGold
        (overwrite (some fault) run.ds frame (fun count => frame.take count) lake.gold))
  | done (table : SilverTable Day) (frame : List GoldRow) (read : readSilver env lake = .ok table)
      (valid : validateAggregationSchema table.columns = .ok ())
      (result : frame = getAggregate (filterByLatestExtractDate env.maxFails table.rows))
      (clean : env.writeFault = none) :
      Aggregated env run lake (.ok (), lake.withGold (lake.gold.insert run.ds frame))

theorem aggregate_cases (env : AggregateEnv) (run : DagRun) (lake : Lake) :
    Aggregated env run lake (breweryAggregate env run lake) := by
  unfold breweryAggregate
  rcases read : readSilver env lake with failure | table
  · exact .refused failure
  simp only [aggregatedLayer]
  rcases valid : validateAggregationSchema table.columns with failure | ⟨⟩
  · exact .refused failure
  simp only [exportGold]
  cases faulty : env.writeFault with
  | none => exact .done table _ read valid rfl faulty
  | some fault => exact .torn table _ fault read valid rfl faulty

theorem aggregate_done (env : AggregateEnv) (run : DagRun) (lake : Lake) (table : SilverTable Day)
    (read : readSilver env lake = .ok table)
    (valid : validateAggregationSchema table.columns = .ok ()) (clean : env.writeFault = none) :
    breweryAggregate env run lake = (.ok (), lake.withGold (lake.gold.insert run.ds
      (getAggregate (filterByLatestExtractDate env.maxFails table.rows)))) := by
  simp only [breweryAggregate, read, aggregated_layer_done env table run.ds lake.gold clean valid]

/-- An accepted table has the two grouping columns in the schema of its rows. -/
theorem accepted_table (env : AggregateEnv) (lake : Lake) (table : SilverTable Day)
    (read : readSilver env lake = .ok table)
    (valid : validateAggregationSchema table.columns = .ok ()) :
    ∃ columns, "brewery_type" ∈ columns ∧ "country" ∈ columns ∧
      table.rows = tableRows columns lake.silver := by
  unfold readSilver at read
  split at read
  · contradiction
  · obtain ⟨schema, _, columns, rows⟩ := read_parquet_ok env.schemaFile lake.silver table read
    rw [validate_aggregation_ok_iff, columns] at valid
    exact ⟨dataColumns schema, data_columns_member schema _ (valid _ (by decide)) (by decide),
      data_columns_member schema _ (valid _ (by decide)) (by decide), rows⟩

/-- Which file the schema was taken from does not show in the counts. -/
theorem aggregate_schema_free (maxFails : Bool) (left right : List String) (lake : Lake)
    (leftType : "brewery_type" ∈ left) (leftCountry : "country" ∈ left)
    (rightType : "brewery_type" ∈ right) (rightCountry : "country" ∈ right) :
    getAggregate (filterByLatestExtractDate maxFails (tableRows left lake.silver)) =
      getAggregate (filterByLatestExtractDate maxFails (tableRows right lake.silver)) := by
  cases maxFails with
  | true => rfl
  | false =>
      by_cases empty : ∀ day, lake.silverKeys day = []
      · rw [no_keys left lake leftType leftCountry empty,
          no_keys right lake rightType rightCountry empty]
      · push Not at empty
        obtain ⟨day, rows⟩ := empty
        obtain ⟨top, isLatest⟩ := latest_silver_exists lake day rows
        rw [getAggregate, getAggregate, latest_keys left lake leftType leftCountry top isLatest,
          latest_keys right lake rightType rightCountry top isLatest]

theorem aggregate_counts (env : AggregateEnv) (run : DagRun) (lake next : Lake) (day : Day)
    (success : breweryAggregate env run lake = (.ok (), next)) (collected : env.maxFails = false)
    (isLatest : LatestSilver lake day) :
    ∃ rows, next.gold[run.ds]? = some rows ∧ CountsOf (lake.silverKeys day) rows := by
  have aggregated := success ▸ aggregate_cases env run lake
  cases aggregated with
  | done table frame read valid result _ =>
      obtain ⟨columns, brewery_type, country, rows⟩ := accepted_table env lake table read valid
      refine ⟨frame, insert_same _ _ _, ?_⟩
      rw [result, collected, rows,
        ← latest_keys columns lake brewery_type country day isLatest]
      exact get_aggregate_counts _

/-- A table without rows gives an empty partition. -/
theorem aggregate_no_rows (env : AggregateEnv) (run : DagRun) (lake next : Lake)
    (success : breweryAggregate env run lake = (.ok (), next)) (collected : env.maxFails = false)
    (empty : ∀ day, lake.silverKeys day = []) : next.gold[run.ds]? = some [] := by
  have aggregated := success ▸ aggregate_cases env run lake
  cases aggregated with
  | done table frame read valid result _ =>
      obtain ⟨columns, brewery_type, country, rows⟩ := accepted_table env lake table read valid
      rw [collected, rows, no_keys columns lake brewery_type country empty] at result
      rw [with_gold_gold, insert_same, result]
      rfl

/-- Whatever happens, only the Gold partition of the run's own date can differ. -/
theorem aggregate_frame (env : AggregateEnv) (run : DagRun) (lake : Lake) :
    OnlyGold run lake (breweryAggregate env run lake).2 :=
  ⟨rfl, rfl, fun day differs => aggregated_layer_frame env _ run.ds day lake.gold differs⟩

end Brewery
