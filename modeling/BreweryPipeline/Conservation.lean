import BreweryPipeline.Pagination
import BreweryPipeline.PublishedRun

/-!
One undisturbed run over a stable collection, from the pages of the API to the
counts in Gold. The pages cut the collection without a gap, the reader splices
them together again, and the partition of the run's own date is the latest.
-/

namespace Brewery

open Support.JsonText Support.FileStore Support.Grouping Support.Replay Support.Paging

def nullable : Option String → Json
  | none => .null
  | some text => .str text

/-- A record as the API serves it: every required key, and a type and a country
that are strings or null. -/
structure BreweryRecord where
  fields : Record
  complete : ∀ column ∈ expectedColumns, column ∈ fields.keys
  brewery_type : Option String
  country : Option String
  brewery_type_cell : fields.cell "brewery_type" = nullable brewery_type
  country_cell : fields.cell "country" = nullable country

def BreweryRecord.pair (record : BreweryRecord) : Option String × Option String :=
  (record.brewery_type, record.country)

def pageBody (xs : List BreweryRecord) (page : Nat) : Json :=
  recordsPage ((slice perPage xs page).map BreweryRecord.fields)

/-- A server that reports the collection and answers each page with its slice. -/
structure Serves (baseUrl : String) (server : Server) (xs : List BreweryRecord) : Prop where
  total : Reports baseUrl server xs.length
  page : ∀ page, 1 ≤ page → page ≤ pageCount xs.length →
    pageReply baseUrl server page = .ok (pageBody xs page)

theorem text_cell_nullable (text : Option String) : textCell (nullable text) = text := by
  cases text <;> rfl

theorem record_key_pair (record : BreweryRecord) : recordKey record.fields = record.pair := by
  simp only [recordKey, record.brewery_type_cell, record.country_cell, text_cell_nullable,
    BreweryRecord.pair]

theorem record_keys (records : List BreweryRecord) :
    (records.map BreweryRecord.fields).map recordKey = records.map BreweryRecord.pair := by
  rw [List.map_map]
  exact List.map_congr_left fun record _ => record_key_pair record

section Collection
variable (xs : List BreweryRecord)

theorem page_body_full (page : Nat) (last : page ≤ pageCount xs.length) (nonempty : xs ≠ []) :
    (pageBody xs page).truthy = true := by
  have positive := List.length_pos_of_ne_nil nonempty
  have inside : perPage * (page - 1) < xs.length := by
    simp only [perPage, pageCount] at last ⊢
    omega
  have full := slice_ne_nil perPage xs page (by decide) inside
  exact (records_page_truthy _).mpr (mt List.map_eq_nil_iff.mp full)

/-- The first pages hold the first records. -/
theorem first_pages_records (count : Nat) :
    ((List.range' 1 count).map (pageBody xs)).flatMap valueRecords =
      (xs.take (perPage * count)).map BreweryRecord.fields := by
  calc ((List.range' 1 count).map (pageBody xs)).flatMap valueRecords
      = (List.range' 1 count).flatMap fun page => (slice perPage xs page).map BreweryRecord.fields := by
        simp only [List.flatMap_map, pageBody, recordsPage, value_records_array]
    _ = (xs.take (perPage * count)).map BreweryRecord.fields := by
        rw [← slices_flatten, List.map_flatMap]

/-- The reader gets the collection back from the pages. -/
theorem pages_records :
    ((List.range' 1 (pageCount xs.length)).map (pageBody xs)).flatMap valueRecords =
      xs.map BreweryRecord.fields := by
  rw [first_pages_records, List.take_of_length_le]
  simp only [perPage, pageCount]
  omega

theorem collection_valid (nonempty : xs ≠ []) :
    validateSchema (DataFrame.ofRecords (xs.map BreweryRecord.fields)).columns = .ok () := by
  obtain ⟨first, member⟩ := List.exists_mem_of_ne_nil xs nonempty
  rw [validate_schema_ok_iff]
  intro column required
  exact (mem_columns _ column).mpr
    ⟨first.fields, List.mem_map_of_mem member, first.complete column required⟩

/-- The hook returns every page of a collection whose pages it counts exactly. -/
theorem hook_serves (baseUrl : String) (server : Server) (serves : Serves baseUrl server xs)
    (nonempty : xs ≠ []) (size : xs.length ≤ exactTotal) : runHook (.ok baseUrl) server =
      .ok ((List.range' 1 (pageCount xs.length)).map (pageBody xs)) :=
  hook_all_pages baseUrl server (pageCount xs.length)
    (reported_exact totalPages baseUrl server _ (total_pages_exact _ size) serves.total) (pageBody xs)
    fun page first last => ⟨serves.page page first last, page_body_full xs page last nonempty⟩

end Collection

/-- End to end, the Gold partition of the run counts the served collection.
The schema of a Silver file that the transform did not write is the only thing
that can stop the last task, and then the task fails. -/
theorem conservation (xs : List BreweryRecord) (nonempty : xs ≠ []) (size : xs.length ≤ exactTotal)
    (lake : Lake) (run : DagRun) (baseUrl : String) (e : ExtractEnv) (t : TransformEnv)
    (a : AggregateEnv) (connected : e.connection = .ok baseUrl) (serves : Serves baseUrl e.server xs)
    (undisturbed : Undisturbed e t a) (alone : lake.Alone run)
    (newest : ∀ day, run.ds < day → lake.silver[day]? = none) :
    let outcome := runTasks ⟨[e], [t], [a]⟩ run lake
    (ValidSilver lake → outcome.1 = true) ∧
    (outcome.1 = true → ∃ rows, outcome.2.gold[run.ds]? = some rows ∧
      CountsOf (xs.map BreweryRecord.pair) rows ∧ (rows.map Prod.snd).sum = xs.length) ∧
    OnlyOwn run lake outcome.2 := by
  intro outcome
  have hook := hook_serves xs baseUrl e.server serves nonempty size
  rw [← connected] at hook
  have records := pages_records xs
  have valid := collection_valid xs nonempty
  rw [← records] at valid
  refine ⟨?_, ?_, run_tasks_frame run lake ⟨[e], [t], [a]⟩⟩
  · exact published_succeeds run lake e t a _ undisturbed alone hook valid
  · intro success
    obtain ⟨rows, published, counts⟩ := published_own run lake e t a _ undisturbed alone hook valid
      newest outcome.2 (Prod.ext success rfl)
    rw [records, record_keys] at counts
    exact ⟨rows, published, counts, by rw [counts.total, List.length_map]⟩

def sampleRecord : BreweryRecord where
  fields := sampleBrewery "micro"
  complete := fun _ required => (sample_keys "micro").symm ▸ required
  brewery_type := some "micro"
  country := none
  brewery_type_cell := rfl
  country_cell := rfl

theorem sample_serves : Serves "" (calmExtract "micro").server [sampleRecord] := by
  refine ⟨⟨[("total", .int 1)], rfl, rfl⟩, fun page first last => ?_⟩
  have single : page = 1 := by
    simp only [pageCount, List.length_singleton] at last
    omega
  exact single ▸ rfl

theorem conservation_sample :
    let outcome := runTasks ⟨[calmExtract "micro"], [calmTransform], [calmAggregate]⟩ ⟨1, 2⟩ emptyLake
    outcome.1 = true ∧ ∃ rows, outcome.2.gold[(1 : Day)]? = some rows ∧
      CountsOf [(some "micro", none)] rows ∧ (rows.map Prod.snd).sum = 1 := by
  intro outcome
  obtain ⟨returns, published, _⟩ := conservation [sampleRecord] (by simp) (by decide) emptyLake ⟨1, 2⟩
    "" (calmExtract "micro") calmTransform calmAggregate rfl sample_serves (calm_undisturbed "micro")
    (empty_alone ⟨1, 2⟩) (fun day _ => by simp [emptyLake])
  have success := returns (empty_valid emptyLake rfl)
  exact ⟨success, published success⟩

/-! A Silver file that no transform wrote, from before the first run. -/

def strangerFrame : DataFrame := .ofRecords [[("id", .str "x")]]

def strangerLake : Lake :=
  emptyLake.withSilver ((∅ : Store Day (List DataFrame)).insert 0 [strangerFrame])

/-- When the schema of the table is taken from a file without a grouping column
the aggregation writes nothing. -/
theorem aggregate_refused (env : AggregateEnv) (run : DagRun) (lake : Lake) (schema : DataFrame)
    (opened : env.readFails = false) (bound : env.schemaFile < (silverFiles lake.silver).length)
    (chosen : (silverFiles lake.silver)[env.schemaFile]? = some schema)
    (absent : "country" ∉ schema.columns) :
    ∃ failure, breweryAggregate env run lake = (.error failure, lake) := by
  have read : readSilver env lake = .ok ⟨dataColumns schema ++ [partitionColumn],
      tableRows (dataColumns schema) lake.silver⟩ := by
    simp only [readSilver, opened, Bool.false_eq_true, if_false, readParquet,
      Nat.mod_eq_of_lt bound, chosen]
  rcases valid : validateAggregationSchema (dataColumns schema ++ [partitionColumn]) with
    failure | ⟨⟩
  · refine ⟨failure, ?_⟩
    simp only [breweryAggregate, aggregatedLayer, read, valid]
    rfl
  · have present := (validate_aggregation_ok_iff _).mp valid "country" (by decide)
    have data := data_columns_member schema "country" present (by decide)
    exact absurd (List.mem_of_mem_filter data) absent

/-- What the aggregation of the first run meets. -/
def strangerSilver : Lake := publishedSilver ⟨1, 2⟩ strangerLake [samplePage "micro"]

theorem stranger_refused : ∃ env : AggregateEnv,
    Undisturbed (calmExtract "micro") calmTransform env ∧
      ∃ failure, breweryAggregate env ⟨1, 2⟩ strangerSilver = (.error failure, strangerSilver) := by
  have older : strangerSilver.silver[(0 : Day)]? = some [strangerFrame] :=
    (insert_other strangerLake.silver 1 0 _ (by decide)).trans (insert_same ∅ 0 _)
  have member : strangerFrame ∈ silverFiles strangerSilver.silver :=
    (mem_silver_files _ _).mpr ⟨0, _, older, List.mem_singleton_self _⟩
  obtain ⟨index, bound, found⟩ := List.getElem_of_mem member
  have absent : "country" ∉ strangerFrame.columns := by
    intro column
    obtain ⟨record, inside, key⟩ := (mem_columns _ "country").mp column
    rw [List.mem_singleton.mp inside] at key
    exact absurd key (by decide)
  exact ⟨⟨index, false, false, none⟩, ⟨⟨rfl, rfl⟩, rfl, rfl, rfl, rfl, rfl, rfl⟩,
    aggregate_refused _ ⟨1, 2⟩ strangerSilver strangerFrame rfl bound
      (found ▸ List.getElem?_eq_getElem bound) absent⟩

/-- The last task fails on the columns of the older file, and Gold stays empty. -/
theorem stranger_stops_run :
    ¬ ∀ (xs : List BreweryRecord) (lake : Lake) (run : DagRun) (baseUrl : String) (e : ExtractEnv)
      (t : TransformEnv) (a : AggregateEnv), xs ≠ [] → e.connection = .ok baseUrl →
      Serves baseUrl e.server xs → Undisturbed e t a → lake.Alone run →
      (∀ day, run.ds < day → lake.silver[day]? = none) →
      ∃ rows, (runTasks ⟨[e], [t], [a]⟩ run lake).2.gold[run.ds]? = some rows ∧
        CountsOf (xs.map BreweryRecord.pair) rows := by
  intro claim
  obtain ⟨env, undisturbed, failure, refused⟩ := stranger_refused
  have alone : strangerLake.Alone ⟨1, 2⟩ := empty_alone ⟨1, 2⟩
  have newest (day : Day) (later : (1 : Day) < day) : strangerLake.silver[day]? = none := by
    have behind : day ≠ 0 := ne_of_gt (lt_trans (by decide) later)
    rw [strangerLake, with_silver_silver, insert_other _ _ _ _ behind]
    simp
  have valid : validateSchema
      (DataFrame.ofRecords ([samplePage "micro"].flatMap valueRecords)).columns = .ok () := by
    rw [sample_page_records]
    exact sample_valid "micro"
  have ran : runTasks ⟨[calmExtract "micro"], [calmTransform], [env]⟩ ⟨1, 2⟩ strangerLake =
      (false, strangerSilver) := by
    rw [published_stages ⟨1, 2⟩ strangerLake (calmExtract "micro") calmTransform env
      [samplePage "micro"] undisturbed alone (calm_hook "micro") valid]
    exact attempts_refused _ [env] _ (List.forall_mem_singleton.mpr ⟨failure, refused⟩)
  obtain ⟨rows, written, _⟩ := claim [sampleRecord] strangerLake ⟨1, 2⟩ "" (calmExtract "micro")
    calmTransform env (by simp) rfl sample_serves undisturbed alone newest
  rw [ran] at written
  simp [strangerSilver, publishedSilver, strangerLake, emptyLake] at written

end Brewery
