import BreweryPipeline.PagesToGold

/-!
src/notebooks/nb_explorer.ipynb: the latest `extract_date` of the Bronze root, and
the counts of the Silver rows whose `process_date` is that date. A Bronze directory
is named by the end of a run's interval and a Silver partition by the run's `ds`, so
the notebook finds the latest extraction in Silver only when the two are one day.
-/

namespace Brewery

open Support.JsonText Support.FileStore Support.Grouping Support.Replay

def bronzeRoot (lake : Lake) : List (List Char) :=
  lake.bronze.toList.flatMap fun directory => directory.2.toList.map Prod.snd

/-- The column `extract_date` of the frame read from the Bronze root. -/
def extractDates (lake : Lake) : List (Option Day) :=
  lake.bronze.toList.flatMap fun directory =>
    (directory.2.toList.flatMap fun file => textRecords file.2).map fun _ => some directory.1

/-- `df.agg(f.max('extract_date').alias('latest_date')).collect()[0]['latest_date']` -/
def latestDate (lake : Lake) : Except Failure (Option Day) :=
  -- No file to infer a schema from.
  if bronzeRoot lake = [] then .error .analysisException
  else .ok (latest (extractDates lake))

def dfLatestData (dfMainSilver : SilverTable Day) : Option Day → List (SilverRow Day)
  -- A comparison with `None` holds of no row.
  | none => []
  | some day => rowsOf dfMainSilver.rows day

def dfAggLocType (schemaFile : Nat) (lake : Lake) : Except Failure (List GoldRow) :=
  (latestDate lake).bind fun latestDate =>
    (readParquet schemaFile lake.silver).bind fun dfMainSilver =>
      -- `groupBy` resolves its columns against the schema.
      if "brewery_type" ∈ dfMainSilver.columns ∧ "country" ∈ dfMainSilver.columns then
        .ok (getAggregate (dfLatestData dfMainSilver latestDate))
      else .error .analysisException

section Lake
variable (lake : Lake)

theorem bronze_file_entry (run : DagRun) (text : List Char) : lake.bronzeFile run = some text ↔
    ∃ files, (run.data_interval_end, files) ∈ lake.bronze.toList ∧ (run.ds, text) ∈ files.toList := by
  simp only [mem_entries, Lake.bronzeFile, Lake.bronzeDirectory]
  cases lake.bronze[run.data_interval_end]? <;> simp

theorem bronze_root_present (run : DagRun) (text : List Char)
    (present : lake.bronzeFile run = some text) : bronzeRoot lake ≠ [] := by
  obtain ⟨files, directory, file⟩ := (bronze_file_entry lake run text).mp present
  exact List.ne_nil_of_mem (List.mem_flatMap.mpr ⟨_, directory, List.mem_map_of_mem file⟩)

/-- A date is in the column when a file of its directory holds a row. -/
theorem mem_extract_dates (day : Day) : some day ∈ extractDates lake ↔
    ∃ ds text, lake.bronzeFile ⟨ds, day⟩ = some text ∧ textRecords text ≠ [] := by
  constructor
  · intro member
    obtain ⟨⟨date, files⟩, directory, inside⟩ := List.mem_flatMap.mp member
    obtain ⟨record, found, same⟩ := List.mem_map.mp inside
    obtain ⟨⟨ds, text⟩, file, row⟩ := List.mem_flatMap.mp found
    obtain rfl := Option.some.inj same
    exact ⟨ds, text, (bronze_file_entry lake ⟨ds, date⟩ text).mpr ⟨files, directory, file⟩,
      List.ne_nil_of_mem row⟩
  · rintro ⟨ds, text, present, rows⟩
    obtain ⟨files, directory, file⟩ := (bronze_file_entry lake ⟨ds, day⟩ text).mp present
    obtain ⟨record, row⟩ := List.exists_mem_of_ne_nil _ rows
    exact List.mem_flatMap.mpr ⟨_, directory, List.mem_map.mpr
      ⟨record, List.mem_flatMap.mpr ⟨_, file, row⟩, rfl⟩⟩

theorem latest_date_some (run : DagRun) (text : List Char)
    (own : lake.bronzeFile run = some text) (rows : textRecords text ≠ [])
    (newest : ∀ ds day, run.data_interval_end < day → lake.bronzeFile ⟨ds, day⟩ = none) :
    latestDate lake = .ok (some run.data_interval_end) := by
  have top : latest (extractDates lake) = some run.data_interval_end := by
    rw [latest_eq_some_iff]
    refine ⟨(mem_extract_dates lake _).mpr ⟨run.ds, text, own, rows⟩, fun day dated => ?_⟩
    obtain ⟨ds, other, present, _⟩ := (mem_extract_dates lake day).mp dated
    by_contra later
    rw [newest ds day (not_le.mp later)] at present
    contradiction
  rw [latestDate, if_neg (bronze_root_present lake run text own), top]

/-- On a checked Silver layer the notebook counts the partition of the latest date. -/
theorem notebook_counts (schemaFile : Nat) (valid : ValidSilver lake) (file : DataFrame)
    (member : file ∈ silverFiles lake.silver) (day : Day) (date : latestDate lake = .ok (some day)) :
    ∃ rows, dfAggLocType schemaFile lake = .ok rows ∧ CountsOf (lake.silverKeys day) rows := by
  obtain ⟨table, read⟩ := read_parquet_exists schemaFile lake.silver file member
  obtain ⟨schema, stored, columns, rows⟩ := read_parquet_ok schemaFile lake.silver table read
  have carried := valid_schema_aggregates schema (valid schema stored)
  have kind := carried "brewery_type" (by decide)
  have country := carried "country" (by decide)
  have resolved : "brewery_type" ∈ table.columns ∧ "country" ∈ table.columns :=
    columns ▸ ⟨kind, country⟩
  refine ⟨getAggregate (rowsOf table.rows day), ?_, ?_⟩
  · simp only [dfAggLocType, date, read, Except.bind, if_pos resolved, dfLatestData]
  · rw [rows, ← table_row_keys (dataColumns schema) lake
      (data_columns_member schema _ kind (by decide)) (data_columns_member schema _ country (by decide))]
    exact get_aggregate_counts _

end Lake

section System
variable {Id : Type} [DecidableEq Id] (runs : Id → DagRun)

/-- Once the newest run is through its transform, the notebook counts that run's
extraction if its interval ends on its own date, and nothing if it ends later. -/
theorem notebook_shows (separate : SeparateRuns runs) (events : List (Event Id)) (state : System Id)
    (history : replay (step runs) events (freshSystem Id) = some state) (top : Id)
    (newest : ∀ id, TakesPart events id → (runs id).ds ≤ (runs top).ds ∧
      (runs id).data_interval_end ≤ (runs top).data_interval_end)
    (begins : (runs top).ds ≤ (runs top).data_interval_end)
    (transformed : Task.transform.done (state.next top) = true) (schemaFile : Nat) :
    ∃ rows, dfAggLocType schemaFile state.lake = .ok rows ∧
      CountsOf (if (runs top).data_interval_end = (runs top).ds then
        ((state.extracted top).flatMap valueRecords).map recordKey else []) rows := by
  have view := silver_view runs separate events (freshSystem Id) state (fun _ => rfl)
    (fun id => empty_alone (runs id)) history
  have valid := replay_lake runs ValidSilver (fun id => perform_valid (runs id)) events (freshSystem Id)
    state (empty_valid _ rfl) history
  obtain ⟨silver, bronze⟩ := history_frame runs events (freshSystem Id) state history
  have own := view.own top (done_not_extract _ _ transformed)
  have shown := view.view top transformed
  have rows : textRecords (writeLines (state.extracted top)) ≠ [] := by
    rw [text_records_written]
    exact valid_nonempty _ shown.valid
  have date := latest_date_some state.lake (runs top) _ own rows fun ds day later => by
    rw [bronze ⟨ds, day⟩ fun id part same => ?_]
    · simp [freshSystem, emptyLake, Lake.bronzeFile, Lake.bronzeDirectory]
    · have within := (newest id part).2
      rw [same] at within
      exact absurd within (not_le.mpr later)
  obtain ⟨counted, computed, counts⟩ := notebook_counts state.lake schemaFile valid _
    ((mem_silver_files _ _).mpr ⟨_, _, shown.rows, List.mem_singleton_self _⟩) _ date
  refine ⟨counted, computed, ?_⟩
  by_cases same : (runs top).data_interval_end = (runs top).ds
  · rw [same, shows_keys _ _ _ shown] at counts
    rwa [if_pos same]
  · -- No run that took part begins as late as the newest one ends.
    have behind := silver (runs top).data_interval_end fun id part later => by
      have within := (newest id part).1
      rw [later] at within
      exact same (le_antisymm within begins)
    rw [Lake.silverKeys, behind] at counts
    rw [if_neg same]
    exact counts

end System

/-- Two scheduled runs through their transform: the notebook finds no rows of the
third day, on which the newer run's interval ends. -/
theorem in_turn_notebook : ∃ state,
    replay (step consecutiveRuns) (inTurn false) (freshSystem Bool) = some state ∧
      ∃ rows, dfAggLocType 0 state.lake = .ok rows ∧ CountsOf [] rows := by
  obtain ⟨state, history, stage⟩ := in_turn_history false
  exact ⟨state, history, notebook_shows consecutiveRuns consecutive_separate (inTurn false) state history
    true (fun id _ => by cases id <;> decide) (by decide) (by rw [(stage true).1]; rfl) 0⟩

end Brewery
