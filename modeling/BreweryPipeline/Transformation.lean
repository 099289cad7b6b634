import BreweryPipeline.Lake

/-!
src/scripts/spark/transformation.py. The frame read from the whole Bronze
directory is validated by its columns alone, and only then does the overwrite of
the Silver partition begin. Reading and writing may fail for reasons of Spark's
own; a Bronze directory that does not exist cannot be read.
-/

namespace Brewery

open Support.JsonText Support.FileStore

def expectedColumns : List String :=
  ["address_1", "address_2", "address_3", "brewery_type", "city", "country", "id", "latitude",
    "longitude", "name", "phone", "postal_code", "state", "state_province", "street",
    "website_url"]

def missingColumns (expected actual : List String) : List String :=
  expected.filter fun column => !decide (column ∈ actual)

def validateSchema (columns : List String) : Except Failure Unit :=
  let missing := missingColumns expectedColumns columns
  if missing = [] then .ok ()
  else .error (.valueError "[ERROR] Missing columns in input data" missing)

/-- A brewery of which only the type is known. -/
def sampleBrewery (kind : String) : Record :=
  expectedColumns.map fun column => (column, if column = "brewery_type" then .str kind else .null)

/-- What one attempt of `brewery_transform` meets in Spark. -/
structure TransformEnv where
  readFails : Bool
  writeFault : Option WriteFault

def exportSilver (fault : Option WriteFault) (processDate : Day) (frame : DataFrame) (lake : Lake) :
    Except Failure Unit × Lake :=
  (if fault.isSome then .error .sparkJob else .ok (),
    lake.withSilver (overwrite fault processDate [frame] (fun count => [frame.take count])
      lake.silver))

def breweryTransformation (env : TransformEnv) (run : DagRun) (lake : Lake) :
    Except Failure Unit × Lake :=
  match lake.bronze[run.data_interval_end]? with
  -- `spark.read.json` refuses a path that does not exist.
  | none => (.error .analysisException, lake)
  | some _ =>
      if env.readFails then (.error .sparkJob, lake)
      else
        -- `--src` is the directory, so every file in it is read.
        let frame := readJson (lake.bronzeTexts run.data_interval_end)
        match validateSchema frame.columns with
        | .error failure => (.error failure, lake)
        | .ok () => exportSilver env.writeFault run.ds frame lake

theorem missing_columns_nil_iff (expected actual : List String) :
    missingColumns expected actual = [] ↔ ∀ column ∈ expected, column ∈ actual := by
  simp [missingColumns, List.filter_eq_nil_iff]

theorem validate_schema_ok_iff (columns : List String) :
    validateSchema columns = .ok () ↔ ∀ column ∈ expectedColumns, column ∈ columns := by
  rw [← missing_columns_nil_iff]
  by_cases complete : missingColumns expectedColumns columns = [] <;>
    simp [validateSchema, complete]

theorem sample_keys (kind : String) : (sampleBrewery kind).keys = expectedColumns := by
  simp [sampleBrewery, Record.keys, Function.comp_def]

theorem sample_valid (kind : String) :
    validateSchema (DataFrame.ofRecords [sampleBrewery kind]).columns = .ok () := by
  rw [validate_schema_ok_iff]
  intro column required
  exact (mem_columns _ column).mpr
    ⟨sampleBrewery kind, List.mem_singleton_self _, (sample_keys kind).symm ▸ required⟩

/-- A frame that passes the check has every required column from some object. -/
theorem valid_frame_carries (texts : List (List Char))
    (valid : validateSchema (readJson texts).columns = .ok ()) (column : String)
    (required : column ∈ expectedColumns) :
    ∃ text ∈ texts, ∃ record ∈ textObjects text, column ∈ record.keys := by
  have ordinary : column ≠ "_corrupt_record" := by
    intro same
    subst same
    exact absurd required (by decide)
  exact read_json_columns texts column ((validate_schema_ok_iff _).mp valid column required) ordinary

/-- Everything an attempt can do: it refuses and leaves the lake alone, or the
columns were there and the Silver partition of its own date was written to. -/
inductive Transformed (env : TransformEnv) (run : DagRun) (lake : Lake) :
    Except Failure Unit × Lake → Prop where
  | refused (failure : Failure) : Transformed env run lake (.error failure, lake)
  | torn (frame : DataFrame) (fault : WriteFault)
      (directory : lake.bronze[run.data_interval_end]?.isSome) (reads : env.readFails = false)
      (read : frame = readJson (lake.bronzeTexts run.data_interval_end))
      (valid : validateSchema frame.columns = .ok ()) (faulty : env.writeFault = some fault) :
      Transformed env run lake (.error .sparkJob,
        lake.withSilver (overwrite (some fault) run.ds [frame] (fun count => [frame.take count])
          lake.silver))
  | done (frame : DataFrame) (directory : lake.bronze[run.data_interval_end]?.isSome)
      (reads : env.readFails = false)
      (read : frame = readJson (lake.bronzeTexts run.data_interval_end))
      (valid : validateSchema frame.columns = .ok ()) (clean : env.writeFault = none) :
      Transformed env run lake (.ok (), lake.withSilver (lake.silver.insert run.ds [frame]))

theorem transform_cases (env : TransformEnv) (run : DagRun) (lake : Lake) :
    Transformed env run lake (breweryTransformation env run lake) := by
  unfold breweryTransformation
  split
  · exact .refused _
  rename_i files present
  have directory : lake.bronze[run.data_interval_end]?.isSome := by simp [present]
  split
  · exact .refused _
  rename_i reads
  rcases valid : validateSchema (readJson (lake.bronzeTexts run.data_interval_end)).columns with
    failure | ⟨⟩
  · simp only [valid]
    exact .refused failure
  simp only [valid, exportSilver]
  cases faulty : env.writeFault with
  | none => exact .done _ directory (by simpa using reads) rfl valid faulty
  | some fault => exact .torn _ fault directory (by simpa using reads) rfl valid faulty

theorem transform_done (env : TransformEnv) (run : DagRun) (lake : Lake)
    (directory : lake.bronze[run.data_interval_end]?.isSome) (reads : env.readFails = false)
    (clean : env.writeFault = none)
    (valid : validateSchema (readJson (lake.bronzeTexts run.data_interval_end)).columns = .ok ()) :
    breweryTransformation env run lake = (.ok (), lake.withSilver
      (lake.silver.insert run.ds [readJson (lake.bronzeTexts run.data_interval_end)])) := by
  obtain ⟨found, present⟩ := Option.isSome_iff_exists.mp directory
  simp [breweryTransformation, present, reads, valid, exportSilver, clean, overwrite]

/-- A run alone in its directory writes the records of its own pages to Silver. -/
theorem transform_alone (env : TransformEnv) (run : DagRun) (lake : Lake) (pages : List Json)
    (alone : lake.Alone run) (reads : env.readFails = false) (clean : env.writeFault = none)
    (valid : validateSchema (DataFrame.ofRecords (pages.flatMap valueRecords)).columns = .ok ()) :
    let extracted := lake.writeBronze run (writeLines pages)
    breweryTransformation env run extracted = (.ok (), extracted.withSilver
      (lake.silver.insert run.ds [DataFrame.ofRecords (pages.flatMap valueRecords)])) := by
  intro extracted
  have frame : readJson (extracted.bronzeTexts run.data_interval_end) =
      DataFrame.ofRecords (pages.flatMap valueRecords) := by
    rw [bronze_texts_alone lake run _ alone, readJson, List.flatMap_singleton, text_records_written]
  have directory : extracted.bronze[run.data_interval_end]?.isSome := by
    simp [extracted, Lake.writeBronze]
  have done := transform_done env run extracted directory reads clean (frame ▸ valid)
  rw [done, frame]
  rfl

theorem transform_succeeds (env : TransformEnv) (run : DagRun) (lake next : Lake)
    (success : breweryTransformation env run lake = (.ok (), next)) :
    validateSchema (readJson (lake.bronzeTexts run.data_interval_end)).columns = .ok () ∧
      next = lake.withSilver
        (lake.silver.insert run.ds [readJson (lake.bronzeTexts run.data_interval_end)]) := by
  have transformed := success ▸ transform_cases env run lake
  cases transformed with
  | done frame _ _ read valid _ => exact ⟨read ▸ valid, by rw [read]⟩

theorem transform_refused (env : TransformEnv) (run : DagRun) (lake : Lake)
    (invalid : validateSchema (readJson (lake.bronzeTexts run.data_interval_end)).columns ≠ .ok ()) :
    ∃ failure, breweryTransformation env run lake = (.error failure, lake) := by
  generalize outcome : breweryTransformation env run lake = result
  have transformed := outcome ▸ transform_cases env run lake
  cases transformed with
  | refused failure => exact ⟨failure, rfl⟩
  | torn frame fault _ _ read valid _ => exact absurd (read ▸ valid) invalid
  | done frame _ _ read valid _ => exact absurd (read ▸ valid) invalid

/-- Whatever happens, only the Silver partition of the run's own date can differ. -/
theorem transform_frame (env : TransformEnv) (run : DagRun) (lake : Lake) :
    OnlySilver run lake (breweryTransformation env run lake).2 := by
  generalize outcome : breweryTransformation env run lake = result
  have transformed := outcome ▸ transform_cases env run lake
  cases transformed with
  | refused failure => exact .refl run lake
  | torn frame fault _ _ _ _ _ =>
      exact ⟨rfl, fun day differs => overwrite_other _ _ _ _ _ _ differs, rfl⟩
  | done frame _ _ _ _ _ => exact ⟨rfl, fun day differs => insert_other _ _ _ _ differs, rfl⟩

end Brewery
