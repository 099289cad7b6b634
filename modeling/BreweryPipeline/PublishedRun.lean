import BreweryPipeline.SilverView

/-!
A run whose tasks meet no failure outside the API, given the pages its hook
returns. The records of the pages become its partition and, when no later
partition has rows, their counts become its Gold partition, complete or not.
-/

namespace Brewery

open Support.JsonText Support.FileStore Support.Grouping Support.Replay

theorem shows_keys (lake : Lake) (run : DagRun) (records : List Record)
    (shown : Shows lake run records) : lake.silverKeys run.ds = records.map recordKey := by
  rw [Lake.silverKeys, shown.rows, Option.getD_some, of_records_keys]

/-- The check refuses a frame without rows. -/
theorem valid_nonempty (records : List Record)
    (valid : validateSchema (DataFrame.ofRecords records).columns = .ok ()) : records ≠ [] := by
  rintro rfl
  have member := (validate_schema_ok_iff _).mp valid "id" (by decide)
  simp [DataFrame.ofRecords] at member

/-- With no rows behind its date a partition that shows records is the latest. -/
theorem shows_latest (lake : Lake) (run : DagRun) (records : List Record)
    (shown : Shows lake run records) (newest : ∀ day, run.ds < day → lake.silver[day]? = none) :
    LatestSilver lake run.ds := by
  constructor
  · rw [shows_keys lake run records shown]
    simpa using valid_nonempty records shown.valid
  · intro day present
    by_contra later
    apply present
    simp [Lake.silverKeys, newest day (not_le.mp later), partitionKeys]

section Run
variable (run : DagRun) (lake : Lake) (e : ExtractEnv) (t : TransformEnv) (a : AggregateEnv)
  (pages : List Json)

/-- The lake the aggregation of the run meets. -/
def publishedSilver : Lake :=
  (lake.writeBronze run (writeLines pages)).withSilver
    (lake.silver.insert run.ds [DataFrame.ofRecords (pages.flatMap valueRecords)])

theorem published_shows
    (valid : validateSchema (DataFrame.ofRecords (pages.flatMap valueRecords)).columns = .ok ()) :
    Shows (publishedSilver run lake pages) run (pages.flatMap valueRecords) :=
  ⟨insert_same _ _ _, valid⟩

/-- The first two tasks, up to the aggregation. -/
theorem published_stages (undisturbed : Undisturbed e t a) (alone : lake.Alone run)
    (hook : runHook e.connection e.server = .ok pages)
    (valid : validateSchema (DataFrame.ofRecords (pages.flatMap valueRecords)).columns = .ok ()) :
    runTasks ⟨[e], [t], [a]⟩ run lake =
      attempts (fun env => breweryAggregate env run) [a] (publishedSilver run lake pages) := by
  have extract := execute_done e run lake pages undisturbed.reached undisturbed.written hook
  have transform := transform_alone t run lake pages alone undisturbed.read undisturbed.exported valid
  simp only [runTasks, attempts, extract, transform, publishedSilver]

/-- Pages that carry every column reach Silver whatever other partitions there
are, and the run succeeds when the schema of every other Silver file would do. -/
theorem published_succeeds (undisturbed : Undisturbed e t a) (alone : lake.Alone run)
    (hook : runHook e.connection e.server = .ok pages)
    (valid : validateSchema (DataFrame.ofRecords (pages.flatMap valueRecords)).columns = .ok ())
    (silver : ValidSilver lake) : (runTasks ⟨[e], [t], [a]⟩ run lake).1 = true := by
  have shown := published_shows run lake pages valid
  have accepted : ValidSilver (publishedSilver run lake pages) :=
    overwrite_valid none run.ds _ (lake.writeBronze run (writeLines pages)) silver valid
  have member : DataFrame.ofRecords (pages.flatMap valueRecords) ∈
      silverFiles (publishedSilver run lake pages).silver :=
    (mem_silver_files _ _).mpr ⟨run.ds, _, shown.rows, List.mem_singleton_self _⟩
  have returned := aggregate_returns a run _ _ accepted member undisturbed.opened undisturbed.published
  rw [published_stages run lake e t a pages undisturbed alone hook valid,
    (attempts_single _ a _ _).mpr (Prod.ext returned rfl)]

/-- A run that succeeds has written the counts of the latest partition. -/
theorem published_counts (undisturbed : Undisturbed e t a) (alone : lake.Alone run)
    (hook : runHook e.connection e.server = .ok pages)
    (valid : validateSchema (DataFrame.ofRecords (pages.flatMap valueRecords)).columns = .ok ())
    (day : Day) (latest : LatestSilver (publishedSilver run lake pages) day) (final : Lake)
    (ran : runTasks ⟨[e], [t], [a]⟩ run lake = (true, final)) :
    OnlyGold run (publishedSilver run lake pages) final ∧ ∃ rows, final.gold[run.ds]? = some rows ∧
      CountsOf ((publishedSilver run lake pages).silverKeys day) rows := by
  rw [published_stages run lake e t a pages undisturbed alone hook valid] at ran
  have outcome := (attempts_single _ a _ _).mp ran
  have own := aggregate_frame a run (publishedSilver run lake pages)
  rw [outcome] at own
  exact ⟨own, aggregate_counts a run _ final day outcome undisturbed.collected latest⟩

/-- Its own partition is the latest when no later date has one. -/
theorem published_latest
    (valid : validateSchema (DataFrame.ofRecords (pages.flatMap valueRecords)).columns = .ok ())
    (newest : ∀ day, run.ds < day → lake.silver[day]? = none) :
    LatestSilver (publishedSilver run lake pages) run.ds := by
  apply shows_latest _ run _ (published_shows run lake pages valid)
  intro day later
  rw [publishedSilver, with_silver_silver, insert_other _ _ _ _ (ne_of_gt later), newest day later]

/-- A newest run that succeeds has published its own pages. -/
theorem published_own (undisturbed : Undisturbed e t a) (alone : lake.Alone run)
    (hook : runHook e.connection e.server = .ok pages)
    (valid : validateSchema (DataFrame.ofRecords (pages.flatMap valueRecords)).columns = .ok ())
    (newest : ∀ day, run.ds < day → lake.silver[day]? = none) (final : Lake)
    (ran : runTasks ⟨[e], [t], [a]⟩ run lake = (true, final)) :
    ∃ rows, final.gold[run.ds]? = some rows ∧
      CountsOf ((pages.flatMap valueRecords).map recordKey) rows := by
  obtain ⟨_, rows, written, counts⟩ := published_counts run lake e t a pages undisturbed alone hook
    valid run.ds (published_latest run lake pages valid newest) final ran
  rw [shows_keys _ run _ (published_shows run lake pages valid)] at counts
  exact ⟨rows, written, counts⟩

/-- The newest run publishes its own pages. -/
theorem run_publishes (undisturbed : Undisturbed e t a) (alone : lake.Alone run)
    (hook : runHook e.connection e.server = .ok pages)
    (valid : validateSchema (DataFrame.ofRecords (pages.flatMap valueRecords)).columns = .ok ())
    (silver : ValidSilver lake) (newest : ∀ day, run.ds < day → lake.silver[day]? = none) :
    ∃ final rows, runTasks ⟨[e], [t], [a]⟩ run lake = (true, final) ∧
      final.gold[run.ds]? = some rows ∧
      CountsOf ((pages.flatMap valueRecords).map recordKey) rows := by
  have ran : runTasks ⟨[e], [t], [a]⟩ run lake = (true, _) :=
    Prod.ext (published_succeeds run lake e t a pages undisturbed alone hook valid silver) rfl
  obtain ⟨rows, written, counts⟩ :=
    published_own run lake e t a pages undisturbed alone hook valid newest _ ran
  exact ⟨_, rows, ran, written, counts⟩

/-- What a run leaves in the layers, with any partition the latest. -/
theorem run_counts_latest (undisturbed : Undisturbed e t a) (alone : lake.Alone run)
    (hook : runHook e.connection e.server = .ok pages)
    (valid : validateSchema (DataFrame.ofRecords (pages.flatMap valueRecords)).columns = .ok ())
    (silver : ValidSilver lake) (day : Day)
    (latest : LatestSilver (publishedSilver run lake pages) day) :
    ∃ final rows, runTasks ⟨[e], [t], [a]⟩ run lake = (true, final) ∧
      final.bronzeFile run = some (writeLines pages) ∧
      final.silver = (publishedSilver run lake pages).silver ∧
      final.gold[run.ds]? = some rows ∧
      CountsOf ((publishedSilver run lake pages).silverKeys day) rows := by
  have ran : runTasks ⟨[e], [t], [a]⟩ run lake = (true, _) :=
    Prod.ext (published_succeeds run lake e t a pages undisturbed alone hook valid silver) rfl
  obtain ⟨only, rows, written, counts⟩ :=
    published_counts run lake e t a pages undisturbed alone hook valid day latest _ ran
  refine ⟨_, rows, ran, ?_, only.silver, written, counts⟩
  rw [same_bronze_file only.bronze run]
  exact write_bronze_file lake run _

/-- Pages without a record are not published: the run fails in its transform. -/
theorem run_refuses (undisturbed : Undisturbed e t a) (alone : lake.Alone run)
    (hook : runHook e.connection e.server = .ok []) :
    (runTasks ⟨[e], [t], [a]⟩ run lake).1 = false ∧
      (runTasks ⟨[e], [t], [a]⟩ run lake).2.silver = lake.silver ∧
      (runTasks ⟨[e], [t], [a]⟩ run lake).2.gold = lake.gold := by
  have extract := execute_done e run lake [] undisturbed.reached undisturbed.written hook
  have invalid : validateSchema (readJson ((lake.writeBronze run (writeLines [])).bronzeTexts
      run.data_interval_end)).columns ≠ .ok () := by
    rw [bronze_texts_alone lake run _ alone, readJson, List.flatMap_singleton, text_records_written]
    exact fun valid => valid_nonempty [] valid rfl
  obtain ⟨failure, refused⟩ := transform_refused t run _ invalid
  simp only [runTasks, attempts, extract, refused, write_bronze_silver, write_bronze_gold, and_self]

end Run

end Brewery
