import BreweryPipeline.BreweryDag

/-!
The two schema checks over whole runs. The transform compares its required
columns with the union of the keys of the objects in the Bronze directory before
it writes, so nothing downstream of a refused directory happens. Every Silver
file is written behind that check, so the columns of any of them satisfy the
check of the aggregation.
-/

namespace Brewery

open Support.JsonText Support.FileStore Support.Replay

/-- Some object in some file of the directory has the key. -/
def Lake.CarriesColumn (lake : Lake) (extractDate : Day) (column : String) : Prop :=
  ∃ text ∈ lake.bronzeTexts extractDate, ∃ record ∈ textObjects text, column ∈ record.keys

/-- Without one of the columns no attempt of the transform gets past the check. -/
theorem transform_attempts_refused (envs : List TransformEnv) (run : DagRun) (lake : Lake)
    (column : String) (required : column ∈ expectedColumns)
    (absent : ¬ lake.CarriesColumn run.data_interval_end column) :
    attempts (fun env => breweryTransformation env run) envs lake = (false, lake) := by
  apply attempts_refused
  intro env _
  apply transform_refused
  intro valid
  exact absent (valid_frame_carries _ valid column required)

/-- A run that reaches Silver or Gold has read every required column. -/
theorem run_tasks_gate (envs : RunEnvs) (run : DagRun) (lake : Lake) (column : String)
    (required : column ∈ expectedColumns)
    (absent : ¬ (runTasks envs run lake).2.CarriesColumn run.data_interval_end column) :
    (runTasks envs run lake).1 = false ∧ (runTasks envs run lake).2.silver = lake.silver ∧
      (runTasks envs run lake).2.gold = lake.gold := by
  generalize outcome : runTasks envs run lake = result at absent ⊢
  have ran := outcome ▸ run_tasks_cases run lake envs
  have first := extract_attempts_frame run lake envs.extract
  have stopped (extracted : Lake) (same : result.2.bronze = extracted.bronze) :
      attempts (fun env => breweryTransformation env run) envs.transform extracted =
        (false, extracted) := by
    apply transform_attempts_refused envs.transform run extracted column required
    rintro ⟨text, file, carried⟩
    refine absent ⟨text, ?_, carried⟩
    simpa only [Lake.bronzeTexts, Lake.bronzeDirectory, same] using file
  cases ran with
  | extractFailed next extract =>
      rw [extract] at first
      exact ⟨rfl, first.silver, first.gold⟩
  | transformFailed extracted next extract transform =>
      have second := transform_attempts_frame run extracted envs.transform
      rw [transform] at second
      rw [stopped extracted second.bronze, Prod.mk.injEq] at transform
      rw [extract] at first
      exact ⟨rfl, transform.2 ▸ first.silver, transform.2 ▸ first.gold⟩
  | aggregated extracted transformed next result extract transform aggregate =>
      have second := transform_attempts_frame run extracted envs.transform
      have third := aggregate_attempts_frame run transformed envs.aggregate
      rw [transform] at second
      rw [aggregate] at third
      rw [stopped extracted (third.bronze.trans second.bronze)] at transform
      simp at transform

/-- With at most three attempts a task, a run changes Silver or Gold only when
the objects of its Bronze directory carry every required column between them.
Otherwise, and so when the directory holds no object at all, it fails and both
layers are as before. -/
theorem schema_gate (envs : RunEnvs) (run : DagRun) (lake : Lake) :
    let final := (dagRun envs run lake).2
    (final.silver ≠ lake.silver ∨ final.gold ≠ lake.gold →
      ∀ column ∈ expectedColumns, final.CarriesColumn run.data_interval_end column) ∧
    (∀ column ∈ expectedColumns, ¬ final.CarriesColumn run.data_interval_end column →
      (dagRun envs run lake).1 = false ∧ final.silver = lake.silver ∧ final.gold = lake.gold) ∧
    ((∀ text ∈ final.bronzeTexts run.data_interval_end, textObjects text = []) →
      (dagRun envs run lake).1 = false ∧ final.silver = lake.silver ∧ final.gold = lake.gold) := by
  have refused := run_tasks_gate ⟨envs.extract.take (retries + 1), envs.transform.take (retries + 1),
    envs.aggregate.take (retries + 1)⟩ run lake
  refine ⟨?_, refused, ?_⟩
  · intro changed column required
    by_contra absent
    obtain ⟨_, silver, gold⟩ := refused column required absent
    rcases changed with changed | changed
    · exact changed silver
    · exact changed gold
  · intro none
    apply refused "id" (by decide)
    rintro ⟨text, file, record, member, _⟩
    exact List.ne_nil_of_mem member (none text file)

/-! The check of the aggregation. -/

/-- Every file of the Silver table has the columns the transform requires. -/
def ValidSilver (lake : Lake) : Prop :=
  ∀ file ∈ silverFiles lake.silver, validateSchema file.columns = .ok ()

theorem overwrite_valid (fault : Option WriteFault) (day : Day) (frame : DataFrame) (lake : Lake)
    (before : ValidSilver lake) (valid : validateSchema frame.columns = .ok ()) :
    ValidSilver (lake.withSilver
      (overwrite fault day [frame] (fun count => [frame.take count]) lake.silver)) := by
  intro file member
  obtain ⟨other, files, present, inside⟩ := (mem_silver_files _ file).mp member
  by_cases same : other = day
  · subst same
    rcases overwrite_own fault other [frame] (fun count => [frame.take count]) lake.silver files
      present with whole | ⟨count, part⟩ | old
    · rw [whole, List.mem_singleton] at inside
      exact inside ▸ valid
    · rw [part, List.mem_singleton] at inside
      exact inside ▸ valid
    · exact before file ((mem_silver_files _ file).mpr ⟨other, files, old, inside⟩)
  · have old := overwrite_other fault day other [frame] (fun count => [frame.take count])
      lake.silver same
    exact before file ((mem_silver_files _ file).mpr ⟨other, files, old ▸ present, inside⟩)

/-- No attempt of any task, whether it succeeds or fails, breaks the invariant. -/
theorem perform_valid (run : DagRun) (attempt : Attempt) (lake : Lake) (before : ValidSilver lake) :
    ValidSilver (perform run attempt lake).2 := by
  cases attempt with
  | extract env =>
      have same := (execute_frame env run lake).silver
      simpa only [perform, ValidSilver, same] using before
  | transform env =>
      simp only [perform]
      generalize outcome : breweryTransformation env run lake = result
      have transformed := outcome ▸ transform_cases env run lake
      cases transformed with
      | refused failure => exact before
      | torn frame fault _ _ _ valid _ =>
          exact overwrite_valid (some fault) run.ds frame lake before valid
      | done frame _ _ _ valid _ => exact overwrite_valid none run.ds frame lake before valid
  | aggregate env =>
      have same := (aggregate_frame env run lake).silver
      simpa only [perform, ValidSilver, same] using before

theorem sample_silver_valid (kind : String) (run : DagRun) (lake : Lake) (before : ValidSilver lake) :
    ValidSilver (sampleSilver kind run lake) :=
  overwrite_valid none run.ds _ (sampleBronze kind run lake) before (sample_valid kind)

theorem empty_valid (lake : Lake) (empty : lake.silver = ∅) : ValidSilver lake := by
  intro file member
  simp [silverFiles, empty] at member

/-- The columns of one valid file, with the partition column, are enough to aggregate. -/
theorem valid_schema_aggregates (schema : DataFrame) (valid : validateSchema schema.columns = .ok ()) :
    ∀ column ∈ aggregationColumns, column ∈ dataColumns schema ++ [partitionColumn] := by
  have carried := (validate_schema_ok_iff _).mp valid
  intro column required
  simp only [aggregationColumns, List.mem_cons, List.not_mem_nil, or_false] at required
  rcases required with same | same | same <;> subst same
  · exact List.mem_append_left _ (List.mem_filter.mpr ⟨carried _ (by decide), by decide⟩)
  · exact List.mem_append_left _ (List.mem_filter.mpr ⟨carried _ (by decide), by decide⟩)
  · exact List.mem_append_right _ (List.mem_singleton.mpr rfl)

theorem read_silver_columns (env : AggregateEnv) (lake : Lake) (table : SilverTable Day)
    (valid : ValidSilver lake) (read : readSilver env lake = .ok table) :
    ∀ column ∈ aggregationColumns, column ∈ table.columns := by
  unfold readSilver at read
  split at read
  · contradiction
  · obtain ⟨schema, member, columns, _⟩ := read_parquet_ok _ _ table read
    rw [columns]
    exact valid_schema_aggregates schema (valid schema member)

/-- A valid table that holds a file is read and accepted. -/
theorem aggregate_returns (env : AggregateEnv) (run : DagRun) (lake : Lake) (file : DataFrame)
    (valid : ValidSilver lake) (member : file ∈ silverFiles lake.silver)
    (reads : env.readFails = false) (clean : env.writeFault = none) :
    (breweryAggregate env run lake).1 = .ok () := by
  obtain ⟨table, parquet⟩ := read_parquet_exists env.schemaFile lake.silver file member
  have read : readSilver env lake = .ok table := by simp [readSilver, reads, parquet]
  have accepted := (validate_aggregation_ok_iff _).mpr
    (read_silver_columns env lake table valid read)
  rw [aggregate_done env run lake table read accepted clean]

/-- In every history that starts with an empty Silver layer, whatever fails in
it, the table the aggregation reads has the columns it asks for, so its check
never raises. -/
theorem schema_checks_agree {Id : Type} [DecidableEq Id] (runs : Id → DagRun)
    (events : List (Event Id)) (start state : System Id) (empty : start.lake.silver = ∅)
    (history : replay (step runs) events start = some state) (id : Id) (env : AggregateEnv) :
    (∀ table, readSilver env state.lake = .ok table →
      ∀ column ∈ aggregationColumns, column ∈ table.columns) ∧
    ∀ message missing, (breweryAggregate env (runs id) state.lake).1 ≠
      .error (.valueError message missing) := by
  have valid := replay_lake runs ValidSilver (fun id => perform_valid (runs id)) events start state
    (empty_valid start.lake empty) history
  refine ⟨fun table read => read_silver_columns env state.lake table valid read, ?_⟩
  intro message missing raised
  rcases read : readSilver env state.lake with failure | table
  · rw [breweryAggregate, read] at raised
    simp only [aggregatedLayer, Except.error.injEq] at raised
    rw [raised] at read
    unfold readSilver readParquet at read
    simp only at read
    split at read
    · cases read
    · split at read <;> cases read
  · have accepted := (validate_aggregation_ok_iff _).mpr
      (read_silver_columns env state.lake table valid read)
    simp only [breweryAggregate, aggregatedLayer, read, accepted, exportGold] at raised
    split at raised <;> cases raised

theorem schema_checks_agree_sample :
    ∃ state, replay (step fun _ : Unit => ⟨1, 2⟩)
        [.attempt () (.extract (calmExtract "micro")), .attempt () (.transform calmTransform)]
        (freshSystem Unit) = some state ∧
      (∀ table, readSilver calmAggregate state.lake = .ok table →
        ∀ column ∈ aggregationColumns, column ∈ table.columns) ∧
      ∀ message missing, (breweryAggregate calmAggregate ⟨1, 2⟩ state.lake).1 ≠
        .error (.valueError message missing) := by
  have history := sample_history (fun _ : Unit => ⟨1, 2⟩) "micro" () (freshSystem Unit) rfl
    (empty_alone ⟨1, 2⟩)
  exact ⟨_, history, schema_checks_agree (fun _ : Unit => ⟨1, 2⟩) _ (freshSystem Unit) _ rfl history
    () calmAggregate⟩

end Brewery
