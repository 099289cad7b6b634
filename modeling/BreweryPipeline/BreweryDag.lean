import BreweryPipeline.BreweryOperator
import BreweryPipeline.PageCount
import BreweryPipeline.Transformation
import BreweryPipeline.SilverTable
import BreweryPipeline.Support.Replay

/-!
airflow_pipeline/dags/brewery_dag.py: `brewery_operator >> brewery_transform >>
brewery_aggregate`. One task attempt executes at a time, those of different runs
in any order. A task is available once the task before it has succeeded. A failed
attempt leaves it available, and what the attempt wrote stays in the lake.
Clearing a task that has succeeded makes it available again.
-/

namespace Brewery

open Support.JsonText Support.FileStore Support.Replay

inductive Task where
  | extract
  | transform
  | aggregate
  deriving DecidableEq

def Task.downstream : Task → Option Task
  | .extract => some .transform
  | .transform => some .aggregate
  | .aggregate => none

theorem downstream_moves (task : Task) : task.downstream ≠ some task := by
  cases task <;> simp [Task.downstream]

/-- Whether a run whose next task is the given one has been through a task. -/
def Task.done : Task → Option Task → Bool
  | _, none => true
  | .extract, some .transform => true
  | .extract, some .aggregate => true
  | .transform, some .aggregate => true
  | _, _ => false

/-- One attempt of a task, with what it meets outside the DAG. -/
inductive Attempt where
  | extract (env : ExtractEnv)
  | transform (env : TransformEnv)
  | aggregate (env : AggregateEnv)

def Attempt.task : Attempt → Task
  | .extract _ => .extract
  | .transform _ => .transform
  | .aggregate _ => .aggregate

def perform (run : DagRun) (attempt : Attempt) (lake : Lake) : Except Failure Unit × Lake :=
  match attempt with
  | .extract env => execute env run lake
  | .transform env => breweryTransformation env run lake
  | .aggregate env => breweryAggregate env run lake

/-- The pages an extraction hands to the operator. -/
def Attempt.pages : Attempt → Option (List Json)
  | .extract env => (runHook env.connection env.server).toOption
  | _ => none

/-- `extracted` only records history: the pages of each run's last extraction
that succeeded. No step reads it. -/
structure System (Id : Type) where
  lake : Lake
  next : Id → Option Task
  extracted : Id → List Json

inductive Event (Id : Type) where
  | attempt (id : Id) (attempt : Attempt)
  | clear (id : Id) (task : Task)

/-- No run has started and the lake is empty. -/
def freshSystem (Id : Type) : System Id := ⟨emptyLake, fun _ => some .extract, fun _ => []⟩

section System
variable {Id : Type} [DecidableEq Id] (runs : Id → DagRun)

def System.succeed (state : System Id) (id : Id) (attempt : Attempt) (lake : Lake) : System Id where
  lake := lake
  next := Function.update state.next id attempt.task.downstream
  extracted := Function.update state.extracted id (attempt.pages.getD (state.extracted id))

def step (state : System Id) (event : Event Id) : Option (System Id) :=
  match event with
  -- The scheduler queues a task only when its upstream task is in state success.
  | .attempt id attempt =>
      if state.next id = some attempt.task then
        match perform (runs id) attempt state.lake with
        | (.ok (), lake) => some (state.succeed id attempt lake)
        | (.error _, lake) => some { state with lake := lake }
      else none
  -- Clearing a task clears the tasks downstream of it too.
  | .clear id task =>
      if task.done (state.next id) then
        some { state with next := Function.update state.next id (some task) }
      else none

/-- Everything one event can do. -/
inductive Stepped (state : System Id) : Event Id → System Id → Prop where
  | failed (id : Id) (attempt : Attempt) (failure : Failure) (lake : Lake)
      (ready : state.next id = some attempt.task)
      (outcome : perform (runs id) attempt state.lake = (.error failure, lake)) :
      Stepped state (.attempt id attempt) { state with lake := lake }
  | succeeded (id : Id) (attempt : Attempt) (lake : Lake)
      (ready : state.next id = some attempt.task)
      (outcome : perform (runs id) attempt state.lake = (.ok (), lake)) :
      Stepped state (.attempt id attempt) (state.succeed id attempt lake)
  | cleared (id : Id) (task : Task) (finished : task.done (state.next id) = true) :
      Stepped state (.clear id task)
        { state with next := Function.update state.next id (some task) }

theorem step_cases (state next : System Id) (event : Event Id)
    (taken : step runs state event = some next) : Stepped runs state event next := by
  unfold step at taken
  split at taken
  · rename_i id attempt
    split at taken
    · rename_i ready
      rcases outcome : perform (runs id) attempt state.lake with ⟨failure | ⟨⟩, lake⟩
      · simp only [outcome, Option.some.injEq] at taken
        exact taken ▸ .failed id attempt failure lake ready outcome
      · simp only [outcome, Option.some.injEq] at taken
        exact taken ▸ .succeeded id attempt lake ready outcome
    · contradiction
  · rename_i id task
    split at taken
    · rename_i finished
      exact Option.some.inj taken ▸ .cleared id task finished
    · contradiction

theorem step_done (state : System Id) (id : Id) (attempt : Attempt) (lake : Lake)
    (ready : state.next id = some attempt.task)
    (outcome : perform (runs id) attempt state.lake = (.ok (), lake)) :
    step runs state (.attempt id attempt) = some (state.succeed id attempt lake) := by
  simp only [step, ready, if_true, outcome]

theorem attempt_lake (state next : System Id) (id : Id) (attempt : Attempt)
    (taken : step runs state (.attempt id attempt) = some next) :
    next.lake = (perform (runs id) attempt state.lake).2 := by
  have stepped := step_cases runs state next _ taken
  cases stepped with
  | failed id attempt failure lake _ outcome => exact (congrArg Prod.snd outcome).symm
  | succeeded id attempt lake _ outcome => exact (congrArg Prod.snd outcome).symm

/-- An attempt after which the run has moved on is one that succeeded. -/
theorem attempt_done (state next : System Id) (id : Id) (attempt : Attempt)
    (taken : step runs state (.attempt id attempt) = some next)
    (moved : next.next id = attempt.task.downstream) :
    state.next id = some attempt.task ∧
      perform (runs id) attempt state.lake = (.ok (), next.lake) := by
  have stepped := step_cases runs state next _ taken
  cases stepped with
  | failed id attempt failure lake ready _ =>
      exact absurd (moved.symm.trans ready) (downstream_moves attempt.task)
  | succeeded id attempt lake ready outcome => exact ⟨ready, outcome⟩

/-- A property of the lake that every task attempt keeps is kept by every event. -/
theorem step_lake (property : Lake → Prop)
    (kept : ∀ id attempt lake, property lake → property (perform (runs id) attempt lake).2)
    (state next : System Id) (event : Event Id) (before : property state.lake)
    (taken : step runs state event = some next) : property next.lake := by
  have stepped := step_cases runs state next event taken
  cases stepped with
  | failed id attempt failure lake _ outcome =>
      have after := kept id attempt state.lake before
      rwa [outcome] at after
  | succeeded id attempt lake _ outcome =>
      have after := kept id attempt state.lake before
      rwa [outcome] at after
  | cleared id task _ => exact before

theorem replay_lake (property : Lake → Prop)
    (kept : ∀ id attempt lake, property lake → property (perform (runs id) attempt lake).2)
    (events : List (Event Id)) (start final : System Id) (initial : property start.lake)
    (history : replay (step runs) events start = some final) : property final.lake :=
  replay_invariant (step runs) (fun state => property state.lake)
    (fun state event next before taken => step_lake runs property kept state next event before taken)
    events start final initial history

end System

/-! One run on its own: each task is attempted until it succeeds, and the next
one starts only then. -/

/-- What the attempts of one run meet, task by task. -/
structure RunEnvs where
  extract : List ExtractEnv
  transform : List TransformEnv
  aggregate : List AggregateEnv

def runTasks (envs : RunEnvs) (run : DagRun) (lake : Lake) : Bool × Lake :=
  match attempts (fun env => execute env run) envs.extract lake with
  | (false, lake) => (false, lake)
  | (true, lake) =>
      match attempts (fun env => breweryTransformation env run) envs.transform lake with
      | (false, lake) => (false, lake)
      | (true, lake) => attempts (fun env => breweryAggregate env run) envs.aggregate lake

/-- Attempts of the three tasks that meet no failure outside the API. -/
structure Undisturbed (extract : ExtractEnv) (transform : TransformEnv) (aggregate : AggregateEnv) :
    Prop where
  reached : ReachesHook extract
  written : extract.writeFault = none
  read : transform.readFails = false
  exported : transform.writeFault = none
  opened : aggregate.readFails = false
  collected : aggregate.maxFails = false
  published : aggregate.writeFault = none

/-- `"retries": 2`. -/
def retries : Nat := 2

/-- The run the scheduler carries out: no task is attempted more often than its
retries allow. -/
def dagRun (envs : RunEnvs) (run : DagRun) (lake : Lake) : Bool × Lake :=
  runTasks ⟨envs.extract.take (retries + 1), envs.transform.take (retries + 1),
    envs.aggregate.take (retries + 1)⟩ run lake

section Frames
variable (run : DagRun) (lake : Lake)

theorem extract_attempts_frame (envs : List ExtractEnv) :
    OnlyBronze run lake (attempts (fun env => execute env run) envs lake).2 :=
  attempts_related _ (OnlyBronze run) (.refl run) (fun _ _ _ => .trans)
    (fun env state => execute_frame env run state) envs lake

theorem transform_attempts_frame (envs : List TransformEnv) :
    OnlySilver run lake (attempts (fun env => breweryTransformation env run) envs lake).2 :=
  attempts_related _ (OnlySilver run) (.refl run) (fun _ _ _ => .trans)
    (fun env state => transform_frame env run state) envs lake

theorem aggregate_attempts_frame (envs : List AggregateEnv) :
    OnlyGold run lake (attempts (fun env => breweryAggregate env run) envs lake).2 :=
  attempts_related _ (OnlyGold run) (.refl run) (fun _ _ _ => .trans)
    (fun env state => aggregate_frame env run state) envs lake

/-- Where the tasks of a run stop: each stage hands its lake to the next. -/
inductive Ran (envs : RunEnvs) : Bool × Lake → Prop where
  | extractFailed (next : Lake)
      (extract : attempts (fun env => execute env run) envs.extract lake = (false, next)) :
      Ran envs (false, next)
  | transformFailed (extracted next : Lake)
      (extract : attempts (fun env => execute env run) envs.extract lake = (true, extracted))
      (transform : attempts (fun env => breweryTransformation env run) envs.transform extracted =
        (false, next)) :
      Ran envs (false, next)
  | aggregated (extracted transformed next : Lake) (result : Bool)
      (extract : attempts (fun env => execute env run) envs.extract lake = (true, extracted))
      (transform : attempts (fun env => breweryTransformation env run) envs.transform extracted =
        (true, transformed))
      (aggregate : attempts (fun env => breweryAggregate env run) envs.aggregate transformed =
        (result, next)) :
      Ran envs (result, next)

theorem run_tasks_cases (envs : RunEnvs) : Ran run lake envs (runTasks envs run lake) := by
  unfold runTasks
  rcases extract : attempts (fun env => execute env run) envs.extract lake with ⟨_ | _, extracted⟩
  · exact .extractFailed extracted extract
  simp only
  rcases transform : attempts (fun env => breweryTransformation env run) envs.transform extracted
    with ⟨_ | _, transformed⟩
  · exact .transformFailed extracted transformed extract transform
  · exact .aggregated extracted transformed _ _ extract transform rfl

/-- Whatever its attempts meet, a run touches nothing but its own file and partitions. -/
theorem run_tasks_frame (envs : RunEnvs) : OnlyOwn run lake (runTasks envs run lake).2 := by
  generalize outcome : runTasks envs run lake = result
  have ran := outcome ▸ run_tasks_cases run lake envs
  have first := (extract_attempts_frame run lake envs.extract).own
  cases ran with
  | extractFailed next extract => exact extract ▸ first
  | transformFailed extracted next extract transform =>
      have second := (transform_attempts_frame run extracted envs.transform).own
      rw [extract] at first
      rw [transform] at second
      exact first.trans second
  | aggregated extracted transformed next result extract transform aggregate =>
      have second := (transform_attempts_frame run extracted envs.transform).own
      have third := (aggregate_attempts_frame run transformed envs.aggregate).own
      rw [extract] at first
      rw [transform] at second
      rw [aggregate] at third
      exact (first.trans second).trans third

end Frames

/-! The two views of a run agree. -/
section History
variable {Id : Type} [DecidableEq Id] (runs : Id → DagRun) (id : Id)

def OfRun (id : Id) (event : Event Id) : Prop := ∃ attempt, event = .attempt id attempt

/-- The attempts of one task are a piece of a history. It ends with the task
available still, or with the next one. -/
theorem attempts_history {Env : Type} (attempt : Env → Attempt) (task : Task)
    (work : Env → Lake → Except Failure Unit × Lake) (kind : ∀ env, (attempt env).task = task)
    (performs : ∀ env, perform (runs id) (attempt env) = work env) (envs : List Env)
    (state : System Id) (ready : state.next id = some task) :
    ∃ events final, (∀ event ∈ events, OfRun id event) ∧
      replay (step runs) events state = some final ∧ attempts work envs state.lake =
        (decide (final.next id ≠ some task), final.lake) ∧
      (final.next id = some task ∨ final.next id = task.downstream) := by
  induction envs generalizing state with
  | nil => exact ⟨[], state, by simp, rfl, by simp [attempts, ready], Or.inl ready⟩
  | cons env rest ih =>
      have enabled : state.next id = some (attempt env).task := (kind env).symm ▸ ready
      have performed := congrFun (performs env) state.lake
      rcases outcome : work env state.lake with ⟨failure | ⟨⟩, lake⟩ <;> rw [outcome] at performed
      · obtain ⟨events, final, own, later, settled, ends⟩ := ih { state with lake := lake } ready
        refine ⟨.attempt id (attempt env) :: events, final, ?_, ?_, ?_, ends⟩
        · exact List.forall_mem_cons.mpr ⟨⟨_, rfl⟩, own⟩
        · simp only [replay, step, enabled, if_true, performed, Option.bind_some, later]
        · simp only [attempts, outcome, settled]
      · have taken := step_done runs state id (attempt env) lake enabled performed
        have moved : (state.succeed id (attempt env) lake).next id = task.downstream := by
          simp [System.succeed, kind env]
        refine ⟨[.attempt id (attempt env)], state.succeed id (attempt env) lake, ?_, ?_, ?_,
          Or.inr moved⟩
        · exact List.forall_mem_singleton.mpr ⟨_, rfl⟩
        · rw [replay, taken, Option.bind_some, replay]
        · simp only [attempts, outcome, moved, ne_eq, downstream_moves, not_false_eq_true, decide_true]
          rfl

/-- A run on its own is a history of the system: what its tasks do in sequence,
some events of that run do. -/
theorem run_tasks_history (envs : RunEnvs) (state : System Id)
    (ready : state.next id = some .extract) :
    ∃ events final, (∀ event ∈ events, OfRun id event) ∧
      replay (step runs) events state = some final ∧ runTasks envs (runs id) state.lake =
        (decide (final.next id = none), final.lake) := by
  obtain ⟨first, extracted, ownFirst, extracts, extract, stage⟩ :=
    attempts_history runs id .extract .extract (fun env => execute env (runs id))
      (fun _ => rfl) (fun _ => rfl) envs.extract state ready
  rcases stage with same | moved
  · refine ⟨first, extracted, ownFirst, extracts, ?_⟩
    simp [runTasks, extract, same]
  simp only [Task.downstream] at moved
  obtain ⟨second, transformed, ownSecond, transforms, transform, stage⟩ :=
    attempts_history runs id .transform .transform (fun env => breweryTransformation env (runs id))
      (fun _ => rfl) (fun _ => rfl) envs.transform extracted moved
  rcases stage with same | moved'
  · refine ⟨first ++ second, transformed, List.forall_mem_append.mpr ⟨ownFirst, ownSecond⟩, ?_, ?_⟩
    · rw [replay_append, extracts, Option.bind_some, transforms]
    · simp [runTasks, extract, moved, transform, same]
  simp only [Task.downstream] at moved'
  obtain ⟨third, final, ownThird, aggregates, aggregate, stage⟩ :=
    attempts_history runs id .aggregate .aggregate (fun env => breweryAggregate env (runs id))
      (fun _ => rfl) (fun _ => rfl) envs.aggregate transformed moved'
  refine ⟨first ++ second ++ third, final, ?_, ?_, ?_⟩
  · exact List.forall_mem_append.mpr ⟨List.forall_mem_append.mpr ⟨ownFirst, ownSecond⟩, ownThird⟩
  · rw [replay_append, replay_append, extracts, Option.bind_some, transforms, Option.bind_some,
      aggregates]
  · rcases stage with same | done
    · simp [runTasks, extract, moved, transform, moved', aggregate, same]
    · simp only [Task.downstream] at done
      simp [runTasks, extract, moved, transform, moved', aggregate, done]

end History
/-! A run that meets no failure and extracts one page with one brewery. -/

def samplePage (kind : String) : Json := .arr [.obj (sampleBrewery kind)]

def calmExtract (kind : String) : ExtractEnv :=
  ⟨.ok (), .ok (), .ok "", onePageServer (samplePage kind), none⟩

def calmTransform : TransformEnv := ⟨false, none⟩

def calmAggregate : AggregateEnv := ⟨0, false, false, none⟩

theorem calm_undisturbed (kind : String) :
    Undisturbed (calmExtract kind) calmTransform calmAggregate :=
  ⟨⟨rfl, rfl⟩, rfl, rfl, rfl, rfl, rfl, rfl⟩

theorem calm_hook (kind : String) :
    runHook (calmExtract kind).connection (calmExtract kind).server = .ok [samplePage kind] :=
  one_page_hook (samplePage kind) rfl

theorem sample_page_records (kind : String) :
    [samplePage kind].flatMap valueRecords = [sampleBrewery kind] := by
  have spliced := value_records_array [sampleBrewery kind]
  simpa [samplePage] using spliced

def sampleBronze (kind : String) (run : DagRun) (lake : Lake) : Lake :=
  lake.writeBronze run (writeLines [samplePage kind])

def sampleSilver (kind : String) (run : DagRun) (lake : Lake) : Lake :=
  (sampleBronze kind run lake).withSilver
    (lake.silver.insert run.ds [DataFrame.ofRecords [sampleBrewery kind]])

theorem sample_silver_keys (kind : String) (run : DagRun) (lake : Lake) (day : Day) :
    (sampleSilver kind run lake).silverKeys day =
      if day = run.ds then [(some kind, none)] else lake.silverKeys day := by
  unfold sampleSilver
  rw [show lake.silver = (sampleBronze kind run lake).silver from rfl, insert_keys, of_records_keys]
  rfl

theorem calm_extract_done (kind : String) (run : DagRun) (lake : Lake) :
    execute (calmExtract kind) run lake = (.ok (), sampleBronze kind run lake) :=
  execute_done (calmExtract kind) run lake [samplePage kind] ⟨rfl, rfl⟩ rfl (calm_hook kind)

theorem calm_transform_done (kind : String) (run : DagRun) (lake : Lake) (alone : lake.Alone run) :
    breweryTransformation calmTransform run (sampleBronze kind run lake) =
      (.ok (), sampleSilver kind run lake) := by
  have valid := sample_valid kind
  rw [← sample_page_records] at valid
  have done := transform_alone calmTransform run lake _ alone rfl rfl valid
  rwa [sample_page_records] at done

/-- The history of the first two tasks of a run that is alone in its directory. -/
theorem sample_history {Id : Type} [DecidableEq Id] (runs : Id → DagRun) (kind : String) (id : Id)
    (state : System Id) (ready : state.next id = some .extract)
    (alone : state.lake.Alone (runs id)) :
    replay (step runs) [.attempt id (.extract (calmExtract kind)),
      .attempt id (.transform calmTransform)] state =
        some ⟨sampleSilver kind (runs id) state.lake, Function.update state.next id (some .aggregate),
          Function.update state.extracted id [samplePage kind]⟩ := by
  have extract := step_done runs state id (.extract (calmExtract kind)) _ ready
    (calm_extract_done kind (runs id) state.lake)
  have transform := step_done runs (state.succeed id (.extract (calmExtract kind))
    (sampleBronze kind (runs id) state.lake)) id (.transform calmTransform) _
    (by simp [System.succeed, Attempt.task, Task.downstream])
    (calm_transform_done kind (runs id) state.lake alone)
  rw [replay, extract, Option.bind_some, replay, transform]
  simp [replay, System.succeed, Attempt.task, Task.downstream, Attempt.pages, calm_hook,
    Except.toOption]

end Brewery
