import BreweryPipeline.SchemaGate

/-!
Which partition the aggregation of a run counts, over every order in which the
tasks of overlapping, backfilled and repeated runs execute. Its date names the
Gold partition it writes and nothing else: the rows are those of the latest date
in the Silver table at that moment.
-/

namespace Brewery

open Support.JsonText Support.FileStore Support.Grouping Support.Replay

section System
variable {Id : Type} [DecidableEq Id] (runs : Id → DagRun)

theorem aggregate_step_silver (state next : System Id) (id : Id) (env : AggregateEnv)
    (taken : step runs state (.attempt id (.aggregate env)) = some next) :
    next.lake.silver = state.lake.silver := by
  rw [attempt_lake runs state next id (.aggregate env) taken]
  exact (aggregate_frame env (runs id) state.lake).silver

/-- Wherever in a history the aggregation of a run succeeds, it has written the
counts of the latest Silver partition that holds rows, and so those of its own
date when that partition holds rows and no later one does. -/
theorem gold_counts_latest_silver (start final : System Id) (before after : List (Event Id)) (id : Id)
    (env : AggregateEnv)
    (history : replay (step runs) (before ++ .attempt id (.aggregate env) :: after) start = some final)
    (collected : env.maxFails = false) :
    ∃ state next, replay (step runs) before start = some state ∧
      step runs state (.attempt id (.aggregate env)) = some next ∧
      replay (step runs) after next = some final ∧ next.lake.silver = state.lake.silver ∧
      (next.next id = none → ∃ rows, next.lake.gold[(runs id).ds]? = some rows ∧
        (∀ day, LatestSilver next.lake day → CountsOf (next.lake.silverKeys day) rows) ∧
        ((∀ day, next.lake.silverKeys day = []) → rows = []) ∧
        (next.lake.silverKeys (runs id).ds ≠ [] →
          (∀ day, (runs id).ds < day → next.lake.silverKeys day = []) →
          CountsOf (next.lake.silverKeys (runs id).ds) rows)) := by
  obtain ⟨state, next, first, taken, later⟩ := replay_split _ before after _ start final history
  have silver := aggregate_step_silver runs state next id env taken
  refine ⟨state, next, first, taken, later, silver, fun finished => ?_⟩
  have success : breweryAggregate env (runs id) state.lake = (.ok (), next.lake) :=
    (attempt_done runs state next id (.aggregate env) taken finished).2
  have keys (day : Day) : next.lake.silverKeys day = state.lake.silverKeys day := by
    rw [Lake.silverKeys, silver, Lake.silverKeys]
  simp only [LatestSilver, keys]
  by_cases empty : ∀ day, state.lake.silverKeys day = []
  · refine ⟨[], aggregate_no_rows env (runs id) _ _ success collected empty, ?_, fun _ => rfl, ?_⟩
    · exact fun day isLatest => absurd (empty day) isLatest.1
    · exact fun own _ => absurd (empty _) own
  · push Not at empty
    obtain ⟨day, present⟩ := empty
    obtain ⟨top, isLatest⟩ := latest_silver_exists state.lake day present
    obtain ⟨rows, written, counts⟩ :=
      aggregate_counts env (runs id) _ _ top success collected isLatest
    have only (other : Day) (also : LatestSilver state.lake other) : other = top :=
      le_antisymm (isLatest.2 other also.1) (also.2 top isLatest.1)
    refine ⟨rows, written, fun other also => only other also ▸ counts,
      fun none => absurd (none day) present, fun own newest => ?_⟩
    have also : LatestSilver state.lake (runs id).ds := by
      refine ⟨own, fun other rows => ?_⟩
      by_contra behind
      exact rows (newest other (not_le.mp behind))
    exact only _ also ▸ counts

end System

/-! A backfilled day and the day after it. -/

def twoDays : Bool → DagRun
  | false => ⟨1, 2⟩
  | true => ⟨2, 3⟩

def overlapping : List (Event Bool) :=
  [.attempt false (.extract (calmExtract "micro")), .attempt false (.transform calmTransform),
    .attempt true (.extract (calmExtract "large")), .attempt true (.transform calmTransform)]

def overlappingLake : Lake :=
  sampleSilver "large" ⟨2, 3⟩ (sampleSilver "micro" ⟨1, 2⟩ emptyLake)

def overlappingState : System Bool where
  lake := overlappingLake
  next := fun _ => some .aggregate
  extracted := fun id => if id then [samplePage "large"] else [samplePage "micro"]

theorem overlapping_history :
    replay (step twoDays) overlapping (freshSystem Bool) = some overlappingState := by
  have older := sample_history twoDays "micro" false (freshSystem Bool) rfl (empty_alone ⟨1, 2⟩)
  have newer := sample_history twoDays "large" true
    ⟨sampleSilver "micro" ⟨1, 2⟩ emptyLake,
      Function.update (freshSystem Bool).next false (some .aggregate),
      Function.update (freshSystem Bool).extracted false [samplePage "micro"]⟩ rfl ?_
  · rw [show overlapping = _ ++ _ from (List.take_append_drop 2 overlapping).symm, replay_append]
    refine (congrArg (fun first => Option.bind first _) older).trans (newer.trans ?_)
    rw [Option.some.injEq, overlappingState, System.mk.injEq]
    refine ⟨rfl, ?_, ?_⟩ <;> funext id <;> cases id <;> rfl
  · intro ds _
    rw [sampleSilver, Lake.bronzeDirectory]
    simp [sampleBronze, Lake.writeBronze, Lake.withSilver, twoDays, emptyLake]

theorem overlapping_keys (day : Day) : overlappingLake.silverKeys day =
    if day = 2 then [(some "large", none)] else if day = 1 then [(some "micro", none)] else [] := by
  simp only [overlappingLake, sample_silver_keys]
  rfl

theorem overlapping_latest : LatestSilver overlappingLake 2 := by
  refine ⟨by simp [overlapping_keys], fun day present => ?_⟩
  rw [overlapping_keys] at present
  split at present
  · rename_i same
    exact le_of_eq same
  split at present
  · rename_i same
    exact same ▸ by decide
  · exact absurd rfl present

/-- The backfilled run aggregates last. -/
theorem overlapping_aggregate : ∃ next,
    step twoDays overlappingState (.attempt false (.aggregate calmAggregate)) = some next ∧
      next.next false = none ∧
      breweryAggregate calmAggregate ⟨1, 2⟩ overlappingLake = (.ok (), next.lake) := by
  have valid := replay_lake twoDays ValidSilver (fun id => perform_valid (twoDays id)) overlapping
    (freshSystem Bool) overlappingState (empty_valid emptyLake rfl) overlapping_history
  have member : DataFrame.ofRecords [sampleBrewery "large"] ∈ silverFiles overlappingLake.silver :=
    (mem_silver_files _ _).mpr ⟨2, _, insert_same _ _ _, List.mem_singleton_self _⟩
  have returned := aggregate_returns calmAggregate ⟨1, 2⟩ overlappingLake _ valid member rfl rfl
  have outcome : breweryAggregate calmAggregate ⟨1, 2⟩ overlappingLake =
      (.ok (), (breweryAggregate calmAggregate ⟨1, 2⟩ overlappingLake).2) := Prod.ext returned rfl
  exact ⟨_, step_done twoDays overlappingState false (.aggregate calmAggregate) _ rfl outcome,
    by simp [System.succeed, Attempt.task, Task.downstream], outcome⟩

theorem gold_counts_overlapping :
    ∃ state next, replay (step twoDays) overlapping (freshSystem Bool) = some state ∧
      step twoDays state (.attempt false (.aggregate calmAggregate)) = some next ∧
      next.lake.silver = state.lake.silver ∧
      (next.next false = none → ∃ rows, next.lake.gold[(1 : Day)]? = some rows ∧
        ∀ day, LatestSilver next.lake day → CountsOf (next.lake.silverKeys day) rows) := by
  obtain ⟨next, taken, _, _⟩ := overlapping_aggregate
  have history : replay (step twoDays) (overlapping ++
      .attempt false (.aggregate calmAggregate) :: []) (freshSystem Bool) = some next :=
    (replay_snoc _ overlapping _ _ next).mpr ⟨overlappingState, overlapping_history, taken⟩
  obtain ⟨state, next, first, taken, _, silver, published⟩ := gold_counts_latest_silver twoDays
    (freshSystem Bool) next overlapping [] false calmAggregate history rfl
  refine ⟨state, next, first, taken, silver, fun finished => ?_⟩
  obtain ⟨rows, written, counts, _⟩ := published finished
  exact ⟨rows, written, counts⟩

/-- The partition of day 1 gets the counts of day 2. -/
theorem gold_of_another_date :
    ¬ ∀ (runs : Bool → DagRun) (events : List (Event Bool)) (start state next : System Bool)
      (id : Bool) (env : AggregateEnv), replay (step runs) events start = some state →
      step runs state (.attempt id (.aggregate env)) = some next → next.next id = none →
      env.maxFails = false → ∃ rows, next.lake.gold[(runs id).ds]? = some rows ∧
        CountsOf (next.lake.silverKeys (runs id).ds) rows := by
  intro matches_date
  obtain ⟨next, taken, finished, outcome⟩ := overlapping_aggregate
  obtain ⟨rows, written, counts⟩ := matches_date twoDays overlapping (freshSystem Bool)
    overlappingState next false calmAggregate overlapping_history taken finished rfl
  obtain ⟨published, present, latest⟩ :=
    aggregate_counts calmAggregate ⟨1, 2⟩ overlappingLake next.lake 2 outcome rfl overlapping_latest
  have same : rows = published := Option.some.inj (written.symm.trans present)
  have silver := aggregate_step_silver twoDays overlappingState next false calmAggregate taken
  have own : next.lake.silverKeys (twoDays false).ds = [(some "micro", none)] := by
    rw [Lake.silverKeys, silver]
    exact overlapping_keys 1
  rw [own] at counts
  rw [← same, overlapping_keys, if_pos rfl] at latest
  have member := (counts.exact (some "micro", none) 1).mpr ⟨List.mem_singleton_self _, by decide⟩
  have absent := ((latest.exact (some "micro", none) 1).mp member).1
  simp at absent

end Brewery
