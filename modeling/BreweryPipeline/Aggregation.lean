import BreweryPipeline.Lake
import BreweryPipeline.Support.Grouping

/-!
src/scripts/spark/aggregation.py. The frame is read from the root of the Silver
table, its latest date is found by one Spark job inside a catch-all handler, and
a second job writes the counts into the partition of `process_date`, which takes
no part in the choice of the rows. Dates are any linear order: calendar dates, or
their ISO texts.
-/

namespace Brewery

open Support.JsonText Support.FileStore Support.Grouping

structure SilverRow (Date : Type) where
  cells : Record
  process_date : Option Date

structure SilverTable (Date : Type) where
  columns : List String
  rows : List (SilverRow Date)

/-- What one attempt of `brewery_aggregate` meets in Spark: the file the schema
of the table is taken from, and which of its jobs fail. -/
structure AggregateEnv where
  schemaFile : Nat
  readFails : Bool
  maxFails : Bool
  writeFault : Option WriteFault

/-- A cell of a string column. A value of another kind is kept as its text. -/
def textCell : Json → Option String
  | .null => none
  | .str text => some text
  | value => some (String.ofList (dumps value))

def recordKey (record : Record) : Option String × Option String :=
  (textCell (record.cell "brewery_type"), textCell (record.cell "country"))

def SilverRow.key {Date : Type} (row : SilverRow Date) : Option String × Option String :=
  recordKey row.cells

def aggregationColumns : List String := ["brewery_type", "country", "process_date"]

def validateAggregationSchema (columns : List String) : Except Failure Unit :=
  let missing := aggregationColumns.filter fun column => !decide (column ∈ columns)
  if missing = [] then .ok ()
  else .error (.valueError "[ERROR] Missing required columns for aggregation" missing)

section Table
variable {Date : Type}

def getAggregate (rows : List (SilverRow Date)) : List GoldRow :=
  orderByDescending (fun group => group.1.2) (countBy (rows.map SilverRow.key))

theorem get_aggregate_counts (rows : List (SilverRow Date)) :
    CountsOf (rows.map SilverRow.key) (getAggregate rows) :=
  (count_by_counts _).perm (order_by_perm _ _)

theorem get_aggregate_sorted (rows : List (SilverRow Date)) :
    (getAggregate rows).Pairwise fun left right => nullsLast left.1.2 right.1.2 :=
  order_by_sorted _ _

variable [LinearOrder Date]

-- The handler covers the job that collects the maximum; the filter it returns
-- is only evaluated when the result is written.
def filterByLatestExtractDate (maxFails : Bool) (rows : List (SilverRow Date)) :
    List (SilverRow Date) :=
  if maxFails then []
  else match latest (rows.map SilverRow.process_date) with
    | some latestDate => rows.filter fun row => decide (row.process_date = some latestDate)
    | none => []

def exportGold {Key : Type} [LinearOrder Key] (fault : Option WriteFault) (processDate : Key)
    (frame : List GoldRow) (gold : Store Key (List GoldRow)) :
    Except Failure Unit × Store Key (List GoldRow) :=
  (if fault.isSome then .error .sparkJob else .ok (),
    overwrite fault processDate frame (fun count => frame.take count) gold)

/-- `aggregated_layer`, given what `spark.read.parquet(src)` returns. -/
def aggregatedLayer {Key : Type} [LinearOrder Key] (env : AggregateEnv)
    (dfSilver : Except Failure (SilverTable Date)) (processDate : Key)
    (gold : Store Key (List GoldRow)) : Except Failure Unit × Store Key (List GoldRow) :=
  match dfSilver with
  | .error failure => (.error failure, gold)
  | .ok dfSilver =>
      match validateAggregationSchema dfSilver.columns with
      | .error failure => (.error failure, gold)
      | .ok () =>
          -- `process_date` names the target and selects nothing.
          let dfSilverLatest := filterByLatestExtractDate env.maxFails dfSilver.rows
          exportGold env.writeFault processDate (getAggregate dfSilverLatest) gold

end Table

/-! The Silver root. Its schema is that of one of its files, without merging,
with the partition column in place of a data column of that name. -/

def partitionColumn : String := "process_date"

def dataColumns (schema : DataFrame) : List String :=
  schema.columns.filter fun column => !decide (column = partitionColumn)

def partitionRows (columns : List String) (day : Day) (files : List DataFrame) :
    List (SilverRow Day) :=
  files.flatMap fun file => file.records.map fun record => ⟨record.project columns, some day⟩

def tableRows (columns : List String) (silver : Store Day (List DataFrame)) : List (SilverRow Day) :=
  silver.toList.flatMap fun entry => partitionRows columns entry.1 entry.2

def silverFiles (silver : Store Day (List DataFrame)) : List DataFrame :=
  silver.toList.flatMap Prod.snd

def readParquet (schemaFile : Nat) (silver : Store Day (List DataFrame)) :
    Except Failure (SilverTable Day) :=
  let files := silverFiles silver
  match files[schemaFile % files.length]? with
  -- No file to infer a schema from.
  | none => .error .analysisException
  | some schema =>
      let columns := dataColumns schema
      .ok { columns := columns ++ [partitionColumn], rows := tableRows columns silver }

def readSilver (env : AggregateEnv) (lake : Lake) : Except Failure (SilverTable Day) :=
  if env.readFails then .error .sparkJob else readParquet env.schemaFile lake.silver

/-- The task `brewery_aggregate` of one run. -/
def breweryAggregate (env : AggregateEnv) (run : DagRun) (lake : Lake) :
    Except Failure Unit × Lake :=
  let (result, gold) := aggregatedLayer env (readSilver env lake) run.ds lake.gold
  (result, lake.withGold gold)

/-! What the aggregation computes. -/
section Table
variable {Date : Type} [LinearOrder Date]

/-- The largest date of the rows that have one. -/
def LatestDate (rows : List (SilverRow Date)) (top : Date) : Prop :=
  some top ∈ rows.map SilverRow.process_date ∧
    ∀ day, some day ∈ rows.map SilverRow.process_date → day ≤ top

def rowsOf (rows : List (SilverRow Date)) (day : Date) : List (SilverRow Date) :=
  rows.filter fun row => decide (row.process_date = some day)

theorem filter_latest (rows : List (SilverRow Date)) (top : Date) (isLatest : LatestDate rows top) :
    filterByLatestExtractDate false rows = rowsOf rows top := by
  simp only [filterByLatestExtractDate, Bool.false_eq_true, if_false,
    (latest_eq_some_iff _ top).mpr isLatest, rowsOf]

theorem filter_undated (rows : List (SilverRow Date))
    (undated : ∀ day, some day ∉ rows.map SilverRow.process_date) :
    filterByLatestExtractDate false rows = [] := by
  have absent : latest (rows.map SilverRow.process_date) = none := by
    apply (latest_eq_none_iff _).mpr
    intro value member
    cases value with
    | none => rfl
    | some day => exact absurd member (undated day)
  simp only [filterByLatestExtractDate, Bool.false_eq_true, if_false, absent]

theorem latest_date_exists (rows : List (SilverRow Date)) (day : Date)
    (dated : some day ∈ rows.map SilverRow.process_date) : ∃ top, LatestDate rows top := by
  obtain ⟨top, found⟩ := latest_exists _ day dated
  exact ⟨top, (latest_eq_some_iff _ top).mp found⟩

variable {Key : Type} [LinearOrder Key]

/-- A call that returns has replaced exactly the partition it was told to write. -/
theorem aggregated_layer_ok (env : AggregateEnv) (table : SilverTable Date) (processDate : Key)
    (gold : Store Key (List GoldRow))
    (success : (aggregatedLayer env (.ok table) processDate gold).1 = .ok ()) :
    validateAggregationSchema table.columns = .ok () ∧ env.writeFault = none ∧
      (aggregatedLayer env (.ok table) processDate gold).2 = gold.insert processDate
        (getAggregate (filterByLatestExtractDate env.maxFails table.rows)) := by
  rcases valid : validateAggregationSchema table.columns with failure | ⟨⟩
  · simp [aggregatedLayer, valid] at success
  · cases fault : env.writeFault with
    | some fault => simp [aggregatedLayer, valid, exportGold, fault] at success
    | none => exact ⟨rfl, rfl, by simp [aggregatedLayer, valid, exportGold, fault, overwrite]⟩

theorem aggregated_layer_done (env : AggregateEnv) (table : SilverTable Date) (processDate : Key)
    (gold : Store Key (List GoldRow)) (clean : env.writeFault = none)
    (valid : validateAggregationSchema table.columns = .ok ()) :
    aggregatedLayer env (.ok table) processDate gold = (.ok (), gold.insert processDate
      (getAggregate (filterByLatestExtractDate env.maxFails table.rows))) := by
  simp [aggregatedLayer, valid, exportGold, clean, overwrite]

/-- No partition but the one of `process_date` is touched. -/
theorem aggregated_layer_frame (env : AggregateEnv) (table : Except Failure (SilverTable Date))
    (processDate other : Key) (gold : Store Key (List GoldRow)) (differs : other ≠ processDate) :
    (aggregatedLayer env table processDate gold).2[other]? = gold[other]? := by
  unfold aggregatedLayer
  split
  · rfl
  split
  · rfl
  · exact overwrite_other _ _ _ _ _ _ differs

end Table

end Brewery
