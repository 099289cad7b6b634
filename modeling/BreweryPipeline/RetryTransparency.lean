import BreweryPipeline.SchemaGate

/-!
Failed attempts do not show. Each task writes one file or one partition as a
whole and reads nothing of what it writes, so an attempt that succeeds erases
whatever the failed ones left there.
-/

namespace Brewery

open Support.JsonText Support.FileStore Support.Replay

/-- An attempt that reaches the hook ends with a result and a text that the lake
has no part in. -/
theorem execute_reaches (env : ExtractEnv) (run : DagRun) (reached : ReachesHook env) :
    ∃ result text, ∀ lake, execute env run lake = (result, lake.writeBronze run text) := by
  unfold execute
  simp only [reached.1, reached.2]
  rcases hook : runHook env.connection env.server with failure | pages
  · exact ⟨.error failure, [], fun lake => by simp only [write_bronze_made]⟩
  · rcases written : writePages env.writeFault pages [] with ⟨result, text⟩
    exact ⟨result, text, fun lake => by simp only [written, write_bronze_made, write_bronze_again]⟩

theorem extract_absorbs (run : DagRun) (last env : ExtractEnv) (lake next : Lake) (failure : Failure)
    (failed : execute env run lake = (.error failure, next))
    (success : (execute last run next).1 = .ok ()) :
    execute last run next = execute last run lake := by
  obtain ⟨result, text, outcome⟩ :=
    execute_reaches last run ((execute_ok_iff last run next).mp success).1
  have executed := failed ▸ execute_cases env run lake
  rw [outcome, outcome]
  cases executed with
  | noFolder failure folder => rfl
  | notOpened failure folder opened => rw [write_bronze_made]
  | hookRaised failure reached hook => rw [write_bronze_again]
  | torn pages room reached hook fault => rw [write_bronze_again]

/-- What a transform that succeeds writes does not depend on the Silver layer. -/
theorem transform_reads_bronze (env : TransformEnv) (run : DagRun) (lake : Lake)
    (silver : Store Day (List DataFrame))
    (success : (breweryTransformation env run (lake.withSilver silver)).1 = .ok ()) :
    ∃ files, ∀ other, breweryTransformation env run (lake.withSilver other) =
      (.ok (), lake.withSilver (other.insert run.ds files)) := by
  generalize outcome : breweryTransformation env run (lake.withSilver silver) = result at success
  have transformed := outcome ▸ transform_cases env run (lake.withSilver silver)
  cases transformed with
  | refused failure => contradiction
  | torn _ _ _ _ _ _ _ => contradiction
  | done frame directory reads read valid clean =>
      refine ⟨[frame], fun other => ?_⟩
      have done := transform_done env run (lake.withSilver other) directory reads clean (read ▸ valid)
      rw [done, read]
      rfl

theorem transform_absorbs (run : DagRun) (last env : TransformEnv) (lake next : Lake)
    (failure : Failure) (failed : breweryTransformation env run lake = (.error failure, next))
    (success : (breweryTransformation last run next).1 = .ok ()) :
    breweryTransformation last run next = breweryTransformation last run lake := by
  have transformed := failed ▸ transform_cases env run lake
  cases transformed with
  | refused failure => rfl
  | torn frame fault directory reads read valid faulty =>
      obtain ⟨files, written⟩ := transform_reads_bronze last run lake _ success
      rw [written, overwrite_absorbed]
      exact (written lake.silver).symm

/-- What an aggregation that succeeds writes does not depend on the Gold layer. -/
theorem aggregate_reads_silver (env : AggregateEnv) (run : DagRun) (lake : Lake)
    (gold : Store Day (List GoldRow))
    (success : (breweryAggregate env run (lake.withGold gold)).1 = .ok ()) :
    ∃ rows, ∀ other, breweryAggregate env run (lake.withGold other) =
      (.ok (), lake.withGold (other.insert run.ds rows)) := by
  generalize outcome : breweryAggregate env run (lake.withGold gold) = result at success
  have aggregated := outcome ▸ aggregate_cases env run (lake.withGold gold)
  cases aggregated with
  | refused failure => contradiction
  | torn _ _ _ _ _ _ _ => contradiction
  | done table frame read valid counted clean =>
      refine ⟨frame, fun other => ?_⟩
      rw [aggregate_done env run (lake.withGold other) table read valid clean, counted]
      rfl

theorem aggregate_absorbs (run : DagRun) (last env : AggregateEnv) (lake next : Lake)
    (failure : Failure) (failed : breweryAggregate env run lake = (.error failure, next))
    (success : (breweryAggregate last run next).1 = .ok ()) :
    breweryAggregate last run next = breweryAggregate last run lake := by
  have aggregated := failed ▸ aggregate_cases env run lake
  cases aggregated with
  | refused failure => rfl
  | torn table frame fault read valid result faulty =>
      obtain ⟨rows, written⟩ := aggregate_reads_silver last run lake _ success
      rw [written, overwrite_absorbed]
      exact (written lake.gold).symm

/-! A run whose tasks fail any number of times before they succeed. -/

def RunEnvs.followedBy (failed : RunEnvs) (e : ExtractEnv) (t : TransformEnv) (a : AggregateEnv) :
    RunEnvs :=
  ⟨failed.extract ++ [e], failed.transform ++ [t], failed.aggregate ++ [a]⟩

/-- Every attempt of the three lists fails where the run makes it. -/
structure Crashes (run : DagRun) (lake : Lake) (failed : RunEnvs) (e : ExtractEnv)
    (t : TransformEnv) : Prop where
  extract : (attempts (fun env => execute env run) failed.extract lake).1 = false
  transform : (attempts (fun env => breweryTransformation env run) failed.transform
    (attempts (fun env => execute env run) (failed.extract ++ [e]) lake).2).1 = false
  aggregate : (attempts (fun env => breweryAggregate env run) failed.aggregate
    (attempts (fun env => breweryTransformation env run) (failed.transform ++ [t])
      (attempts (fun env => execute env run) (failed.extract ++ [e]) lake).2).2).1 = false

theorem crashes_do_not_show (run : DagRun) (lake : Lake) (failed : RunEnvs) (e : ExtractEnv)
    (t : TransformEnv) (a : AggregateEnv) (crashes : Crashes run lake failed e t)
    (success : (runTasks (failed.followedBy e t a) run lake).1 = true) :
    runTasks (failed.followedBy e t a) run lake = runTasks ⟨[e], [t], [a]⟩ run lake := by
  generalize outcome : runTasks (failed.followedBy e t a) run lake = result at success ⊢
  have ran := outcome ▸ run_tasks_cases run lake (failed.followedBy e t a)
  cases ran with
  | extractFailed next extract => contradiction
  | transformFailed extracted next extract transform => contradiction
  | aggregated extracted transformed next result extract transform aggregate =>
      simp only [RunEnvs.followedBy] at extract transform aggregate
      simp only at success
      subst success
      have first := attempts_settled (fun env => execute env run) e
        (fun env state failure next => extract_absorbs run e env state next failure)
        failed.extract lake crashes.extract (congrArg Prod.fst extract)
      have transformCrashes := crashes.transform
      rw [extract] at transformCrashes
      have second := attempts_settled (fun env => breweryTransformation env run) t
        (fun env state failure next => transform_absorbs run t env state next failure)
        failed.transform extracted transformCrashes (congrArg Prod.fst transform)
      have aggregateCrashes := crashes.aggregate
      rw [extract, transform] at aggregateCrashes
      have third := attempts_settled (fun env => breweryAggregate env run) a
        (fun env state failure next => aggregate_absorbs run a env state next failure)
        failed.aggregate transformed aggregateCrashes (congrArg Prod.fst aggregate)
      rw [extract] at first
      rw [transform] at second
      rw [aggregate] at third
      simp only [runTasks, ← first, ← second, ← third]

/-- What the lake holds after a run that succeeded is what the same responses
would be turned into once more. -/
structure Settled (run : DagRun) (pages : List Json) (final : Lake) : Prop where
  bronze : final.bronzeFile run = some (writeLines pages)
  directory : final.bronze[run.data_interval_end]?.isSome
  valid : validateSchema (readJson (final.bronzeTexts run.data_interval_end)).columns = .ok ()
  silver : final.silver[run.ds]? = some [readJson (final.bronzeTexts run.data_interval_end)]
  gold : ∃ columns, "brewery_type" ∈ columns ∧ "country" ∈ columns ∧ final.gold[run.ds]? =
    some (getAggregate (filterByLatestExtractDate false (tableRows columns final.silver)))

theorem run_settles (run : DagRun) (lake final : Lake) (e : ExtractEnv) (t : TransformEnv)
    (a : AggregateEnv) (collected : a.maxFails = false)
    (success : runTasks ⟨[e], [t], [a]⟩ run lake = (true, final)) :
    ∃ pages, runHook e.connection e.server = .ok pages ∧ Settled run pages final := by
  have ran := success ▸ run_tasks_cases run lake ⟨[e], [t], [a]⟩
  cases ran with
  | aggregated extracted transformed next result extract transform aggregate =>
      rw [attempts_single] at extract transform aggregate
      obtain ⟨pages, hook, written⟩ := execute_succeeds e run lake extracted extract
      obtain ⟨valid, stored⟩ := transform_succeeds t run extracted transformed transform
      have aggregates := aggregate ▸ aggregate_cases a run transformed
      cases aggregates with
      | done table rows read accepted counted clean =>
          obtain ⟨columns, brewery_type, country, tableIs⟩ :=
            accepted_table a transformed table read accepted
          subst stored written
          refine ⟨pages, hook, write_bronze_file lake run _, ?_, valid, insert_same _ _ _,
            columns, brewery_type, country, ?_⟩
          · simp [Lake.writeBronze]
          · rw [with_gold_gold, insert_same, counted, collected, tableIs]
            rfl

/-- Another undisturbed run with the same pages rewrites what is there. -/
theorem settled_again (run : DagRun) (pages : List Json) (final : Lake)
    (settled : Settled run pages final) (e : ExtractEnv) (t : TransformEnv) (a : AggregateEnv)
    (undisturbed : Undisturbed e t a) (hook : runHook e.connection e.server = .ok pages) :
    (runTasks ⟨[e], [t], [a]⟩ run final).2 = final := by
  have extract := execute_done e run final pages undisturbed.reached undisturbed.written hook
  rw [write_bronze_present final run _ settled.bronze] at extract
  have transform := transform_done t run final settled.directory undisturbed.read
    undisturbed.exported settled.valid
  rw [with_silver_present final _ _ settled.silver] at transform
  have kept : (breweryAggregate a run final).2 = final := by
    generalize outcome : breweryAggregate a run final = result
    have aggregates := outcome ▸ aggregate_cases a run final
    cases aggregates with
    | refused failure => rfl
    | torn table rows fault read accepted counted faulty =>
        rw [undisturbed.published] at faulty
        contradiction
    | done table rows read accepted counted clean =>
        obtain ⟨columns, brewery_type, country, gold⟩ := settled.gold
        obtain ⟨others, othersType, othersCountry, tableIs⟩ := accepted_table a final table read accepted
        rw [counted, tableIs, undisturbed.collected, aggregate_schema_free false others columns final
          othersType othersCountry brewery_type country, with_gold_present final _ _ gold]
  rcases aggregate : breweryAggregate a run final with ⟨_ | _, next⟩ <;>
    simpa only [runTasks, attempts, extract, transform, aggregate] using kept

/-- Whatever its failed attempts left behind, a run whose last attempts meet no
failure ends in the lake of a run without them. A second run with the same
responses changes nothing, and no run touches more than its own file and
partitions. -/
theorem retry_transparency (run : DagRun) (lake : Lake) (failed : RunEnvs) (e : ExtractEnv)
    (t : TransformEnv) (a : AggregateEnv) (undisturbed : Undisturbed e t a)
    (crashes : Crashes run lake failed e t)
    (success : (runTasks (failed.followedBy e t a) run lake).1 = true) :
    let outcome := runTasks (failed.followedBy e t a) run lake
    outcome = runTasks ⟨[e], [t], [a]⟩ run lake ∧
    (∀ e' t' a', Undisturbed e' t' a' →
      runHook e'.connection e'.server = runHook e.connection e.server →
      (runTasks ⟨[e'], [t'], [a']⟩ run outcome.2).2 = outcome.2) ∧
    ∀ envs, OnlyOwn run lake (runTasks envs run lake).2 := by
  intro outcome
  have same := crashes_do_not_show run lake failed e t a crashes success
  refine ⟨same, ?_, run_tasks_frame run lake⟩
  intro e' t' a' again responses
  obtain ⟨pages, hook, settled⟩ := run_settles run lake outcome.2 e t a undisturbed.collected
    (same.symm.trans (Prod.ext success rfl))
  exact settled_again run pages outcome.2 settled e' t' a' again (responses.trans hook)

/-! One failed attempt of each task: no connection, an unreadable directory, and
an overwrite that stops after it has cleared its target. -/

def brokenExtract : ExtractEnv :=
  ⟨.ok (), .ok (), .error .connectionNotFound, onePageServer .null, none⟩

def brokenEnvs : RunEnvs := ⟨[brokenExtract], [⟨true, none⟩], [⟨0, false, false, some .cleared⟩]⟩

def emptiedLake : Lake := emptyLake.writeBronze ⟨1, 2⟩ []

theorem broken_extract :
    attempts (fun env => execute env ⟨1, 2⟩) ([brokenExtract] ++ [calmExtract "micro"]) emptyLake =
      (true, sampleBronze "micro" ⟨1, 2⟩ emptiedLake) := by
  have failed : execute brokenExtract ⟨1, 2⟩ emptyLake =
      (.error .connectionNotFound, emptiedLake) := by
    have made := write_bronze_made emptyLake ⟨1, 2⟩ []
    simpa [execute, brokenExtract, runHook, Except.bind, emptiedLake] using made
  simp only [List.singleton_append, attempts, failed, calm_extract_done]

theorem broken_transform :
    attempts (fun env => breweryTransformation env ⟨1, 2⟩) ([⟨true, none⟩] ++ [calmTransform])
      (sampleBronze "micro" ⟨1, 2⟩ emptiedLake) =
        (true, sampleSilver "micro" ⟨1, 2⟩ emptiedLake) := by
  have failed :
      breweryTransformation ⟨true, none⟩ ⟨1, 2⟩ (sampleBronze "micro" ⟨1, 2⟩ emptiedLake) =
      (.error .sparkJob, sampleBronze "micro" ⟨1, 2⟩ emptiedLake) := by
    simp [breweryTransformation, sampleBronze, Lake.writeBronze]
  have done := calm_transform_done "micro" ⟨1, 2⟩ emptiedLake
    (write_bronze_alone emptyLake ⟨1, 2⟩ [] (empty_alone ⟨1, 2⟩))
  simp only [List.singleton_append, attempts, failed, done]

theorem broken_aggregate (env : AggregateEnv) (run : DagRun) (lake : Lake)
    (faulty : env.writeFault ≠ none) :
    (attempts (fun env => breweryAggregate env run) [env] lake).1 = false := by
  generalize outcome : breweryAggregate env run lake = result
  have aggregated := outcome ▸ aggregate_cases env run lake
  cases aggregated with
  | refused failure => simp [attempts, outcome]
  | torn table rows fault read accepted counted _ => simp [attempts, outcome]
  | done table rows read accepted counted clean => exact absurd clean faulty

theorem broken_crashes :
    Crashes ⟨1, 2⟩ emptyLake brokenEnvs (calmExtract "micro") calmTransform where
  extract := rfl
  transform := by
    simp only [brokenEnvs, broken_extract]
    simp [attempts, breweryTransformation, sampleBronze, Lake.writeBronze]
  aggregate := by
    simp only [brokenEnvs, broken_extract, broken_transform]
    exact broken_aggregate _ _ _ (by simp)

theorem broken_succeeds : (runTasks (brokenEnvs.followedBy (calmExtract "micro") calmTransform
    calmAggregate) ⟨1, 2⟩ emptyLake).1 = true := by
  have failed := broken_aggregate ⟨0, false, false, some .cleared⟩ ⟨1, 2⟩
    (sampleSilver "micro" ⟨1, 2⟩ emptiedLake) (by simp)
  have frame := aggregate_attempts_frame ⟨1, 2⟩ (sampleSilver "micro" ⟨1, 2⟩ emptiedLake)
    [⟨0, false, false, some .cleared⟩]
  have valid := sample_silver_valid "micro" ⟨1, 2⟩ emptiedLake (empty_valid emptiedLake rfl)
  simp only [runTasks, RunEnvs.followedBy, brokenEnvs, broken_extract, broken_transform]
  rw [attempts_append _ _ _ _ failed]
  generalize (attempts (fun env => breweryAggregate env ⟨1, 2⟩) [⟨0, false, false, some .cleared⟩]
    (sampleSilver "micro" ⟨1, 2⟩ emptiedLake)).2 = cleared at frame ⊢
  have member : DataFrame.ofRecords [sampleBrewery "micro"] ∈ silverFiles cleared.silver := by
    rw [frame.silver]
    exact (mem_silver_files _ _).mpr ⟨1, _, insert_same _ _ _, List.mem_singleton_self _⟩
  have returned := aggregate_returns calmAggregate ⟨1, 2⟩ cleared _
    (by rw [ValidSilver, frame.silver]; exact valid) member rfl rfl
  exact congrArg Prod.fst ((attempts_single _ calmAggregate cleared _).mpr (Prod.ext returned rfl))

theorem retry_transparency_broken :
    let outcome := runTasks (brokenEnvs.followedBy (calmExtract "micro") calmTransform calmAggregate)
      ⟨1, 2⟩ emptyLake
    outcome = runTasks ⟨[calmExtract "micro"], [calmTransform], [calmAggregate]⟩ ⟨1, 2⟩ emptyLake ∧
    (runTasks ⟨[calmExtract "micro"], [calmTransform], [calmAggregate]⟩ ⟨1, 2⟩ outcome.2).2 =
      outcome.2 := by
  intro outcome
  obtain ⟨same, again, _⟩ := retry_transparency ⟨1, 2⟩ emptyLake brokenEnvs (calmExtract "micro")
    calmTransform calmAggregate (calm_undisturbed "micro") broken_crashes broken_succeeds
  exact ⟨same, again _ _ _ (calm_undisturbed "micro") rfl⟩

end Brewery
