import BreweryPipeline.PagesToGold

/-!
What the Gold layer shows after whole histories. The partition of the newest run
counts that run's own extraction whatever else happened. Runs carried out one
after another, in any order of their dates, leave in each partition the counts of
the newest run so far, so a run carried out late counts a later run's records.
-/

namespace Brewery

open Support.JsonText Support.FileStore Support.Grouping Support.Replay

/-- A Gold partition changes only when its own run aggregates. -/
theorem perform_gold (run : DagRun) (attempt : Attempt) (lake : Lake) (day : Day)
    (untouched : day ≠ run.ds ∨ attempt.task ≠ .aggregate) :
    (perform run attempt lake).2.gold[day]? = lake.gold[day]? := by
  cases attempt with
  | extract env => exact congrArg (·[day]?) (execute_frame env run lake).gold
  | transform env => exact congrArg (·[day]?) (transform_frame env run lake).gold
  | aggregate env =>
      have differs : day ≠ run.ds := untouched.resolve_right fun later => later rfl
      exact (aggregate_frame env run lake).gold day differs

section Newest
variable {Id : Type} [DecidableEq Id] (runs : Id → DagRun) (top : Id)

/-- The partition of a complete run counts what the run shows in Silver. -/
def GoldView (state : System Id) : Prop :=
  state.next top = none → ∃ rows, state.lake.gold[(runs top).ds]? = some rows ∧
    CountsOf ((state.records top).map recordKey) rows

theorem gold_view_kept (separate : SeparateRuns runs) (state next : System Id) (id : Id)
    (attempt : Attempt) (before : GoldView runs top state)
    (taken : step runs state (.attempt id attempt) = some next) (differs : top ≠ id)
    (stage : next.next top = state.next top) (same : next.extracted top = state.extracted top) :
    GoldView runs top next := by
  intro complete
  have kept := perform_gold (runs id) attempt state.lake (runs top).ds
    (Or.inl (separate.date.ne differs))
  rw [← attempt_lake runs state next id attempt taken] at kept
  obtain ⟨rows, written, counts⟩ := before (stage ▸ complete)
  exact ⟨rows, kept.trans written, by rwa [System.records, same]⟩

theorem gold_view_step (separate : SeparateRuns runs) (state next : System Id) (event : Event Id)
    (view : SilverView runs state) (newest : ∀ day, (runs top).ds < day → state.lake.silver[day]? = none)
    (collected : ∀ env, event = .attempt top (.aggregate env) → env.maxFails = false)
    (before : GoldView runs top state) (taken : step runs state event = some next) :
    GoldView runs top next := by
  have stepped := step_cases runs state next event taken
  cases stepped with
  | failed id attempt failure lake ready outcome =>
      by_cases same : top = id
      · subst same
        intro complete
        exact absurd (ready.symm.trans complete) (by simp)
      · exact gold_view_kept runs top separate state _ id attempt before taken same rfl rfl
  | succeeded id attempt lake ready outcome =>
      by_cases same : top = id
      · subst same
        intro complete
        cases attempt with
        | extract env => simp [System.succeed, Attempt.task, Task.downstream] at complete
        | transform env => simp [System.succeed, Attempt.task, Task.downstream] at complete
        | aggregate env =>
            have shown := view.view top (by rw [ready]; rfl)
            obtain ⟨rows, written, counts⟩ := aggregate_counts env (runs top) state.lake lake
              (runs top).ds outcome (collected env rfl) (shows_latest _ _ _ shown newest)
            rw [shows_keys _ _ _ shown] at counts
            exact ⟨rows, written, by simpa [System.succeed, System.records, Attempt.pages] using counts⟩
      · exact gold_view_kept runs top separate state _ id attempt before taken same
          (by simp only [System.succeed, Function.update_of_ne same])
          (by simp only [System.succeed, Function.update_of_ne same])
  | cleared id task finished =>
      by_cases same : top = id
      · subst same
        intro complete
        simp at complete
      · intro complete
        simp only [Function.update_of_ne same] at complete
        exact before complete

theorem gold_view (separate : SeparateRuns runs) (events : List (Event Id))
    (start state : System Id) (unstarted : ∀ id, start.next id = some .extract)
    (alone : ∀ id, start.lake.Alone (runs id))
    (newest : ∀ id, TakesPart events id → (runs id).ds ≤ (runs top).ds)
    (unwritten : ∀ day, (runs top).ds < day → start.lake.silver[day]? = none)
    (collected : ∀ env, .attempt top (.aggregate env) ∈ events → env.maxFails = false)
    (history : replay (step runs) events start = some state) : GoldView runs top state := by
  -- From the end of the history: the last step starts from a state a history reached.
  induction events using List.reverseRecOn generalizing state with
  | nil =>
      obtain rfl := Option.some.inj history
      intro complete
      simp [unstarted top] at complete
  | append_singleton events event ih =>
      obtain ⟨before, earlier, taken⟩ := (replay_snoc _ events event start state).mp history
      have view := silver_view runs separate events start before unstarted alone earlier
      have silver := (history_frame runs events start before earlier).1
      have earliest (id : Id) (part : TakesPart events id) : (runs id).ds ≤ (runs top).ds :=
        newest id (part.imp fun attempt member => List.mem_append_left [event] member)
      refine gold_view_step runs top separate before state event view (fun day later => ?_)
        (fun env same => collected env (List.mem_append_right _ (by simp [same])))
        (ih before earliest (fun env member => collected env (List.mem_append_left _ member)) earlier)
        taken
      rw [silver day fun id part same => absurd (earliest id part) (by rw [same]; exact not_le.mpr later)]
      exact unwritten day later

/-- In every history of separate runs, the newest run's Gold partition counts that
run's own last extraction whenever the run is complete, in whatever order the
tasks of all the runs were attempted, retried and cleared. -/
theorem newest_gold (separate : SeparateRuns runs) (events : List (Event Id))
    (start state : System Id) (unstarted : ∀ id, start.next id = some .extract)
    (alone : ∀ id, start.lake.Alone (runs id))
    (newest : ∀ id, TakesPart events id → (runs id).ds ≤ (runs top).ds)
    (unwritten : ∀ day, (runs top).ds < day → start.lake.silver[day]? = none)
    (collected : ∀ env, .attempt top (.aggregate env) ∈ events → env.maxFails = false)
    (history : replay (step runs) events start = some state) (complete : state.next top = none) :
    ∃ rows, state.lake.gold[(runs top).ds]? = some rows ∧
      CountsOf (((state.extracted top).flatMap valueRecords).map recordKey) rows :=
  gold_view runs top separate events start state unstarted alone newest unwritten collected history
    complete

end Newest

/-- The newer run comes first and is aggregated last. -/
theorem in_turn_newest : ∃ state,
    replay (step consecutiveRuns) (inTurn true ++ [.attempt true (.aggregate calmAggregate)])
      (freshSystem Bool) = some state ∧ ∃ rows, state.lake.gold[(2 : Day)]? = some rows ∧
        CountsOf (((state.extracted true).flatMap valueRecords).map recordKey) rows := by
  obtain ⟨state, history, stage⟩ := in_turn_history true
  have view := silver_view consecutiveRuns consecutive_separate (inTurn true) (freshSystem Bool) state
    (fun _ => rfl) (fun id => empty_alone (consecutiveRuns id)) history
  have valid := replay_lake consecutiveRuns ValidSilver (fun id => perform_valid (consecutiveRuns id))
    (inTurn true) (freshSystem Bool) state (empty_valid _ rfl) history
  have shown := view.view true (by rw [(stage true).1]; rfl)
  have returned := aggregate_returns calmAggregate (consecutiveRuns true) state.lake _ valid
    ((mem_silver_files _ _).mpr ⟨_, _, shown.rows, List.mem_singleton_self _⟩) rfl rfl
  have taken := step_done consecutiveRuns state true (.aggregate calmAggregate) _ (stage true).1
    (Prod.ext returned rfl)
  have whole := (replay_snoc _ (inTurn true) _ (freshSystem Bool) _).mpr ⟨state, history, taken⟩
  refine ⟨_, whole, newest_gold consecutiveRuns true consecutive_separate _ (freshSystem Bool) _
    (fun _ => rfl) (fun id => empty_alone (consecutiveRuns id)) (fun id _ => ?_)
    (fun day _ => by simp [freshSystem, emptyLake]) (fun env member => ?_) whole (by
      simp [System.succeed, Attempt.task, Task.downstream])⟩
  · cases id <;> decide
  · simp only [inTurn, List.mem_append, List.mem_cons, List.not_mem_nil, or_false] at member
    rcases member with ((member | member) | (member | member)) | member <;> cases member
    rfl

/-! Whole runs, one after another. -/

/-- A run that nothing disturbs, with pages that carry every column. -/
structure Job where
  run : DagRun
  extract : ExtractEnv
  transform : TransformEnv
  aggregate : AggregateEnv
  pages : List Json
  undisturbed : Undisturbed extract transform aggregate
  hook : runHook extract.connection extract.server = .ok pages
  valid : validateSchema (DataFrame.ofRecords (pages.flatMap valueRecords)).columns = .ok ()

def Job.records (job : Job) : List Record := job.pages.flatMap valueRecords

def Job.carryOut (job : Job) (lake : Lake) : Bool × Lake :=
  runTasks ⟨[job.extract], [job.transform], [job.aggregate]⟩ job.run lake

def carryOut (jobs : List Job) (lake : Lake) : Lake :=
  jobs.foldl (fun lake job => (job.carryOut lake).2) lake

/-- No two of the runs share a date or the end of an interval. -/
def Separate (jobs : List Job) : Prop :=
  jobs.Pairwise fun left right => left.run.ds ≠ right.run.ds ∧
    left.run.data_interval_end ≠ right.run.data_interval_end

theorem carry_out_split (before after : List Job) (job : Job) (lake : Lake) :
    carryOut (before ++ job :: after) lake =
      carryOut after (job.carryOut (carryOut before lake)).2 := by
  simp only [carryOut, List.foldl_append, List.foldl_cons]

/-- Runs touch nothing but their own files and partitions. -/
theorem carry_out_frame (jobs : List Job) (lake : Lake) (run : DagRun)
    (others : ∀ job ∈ jobs, job.run.ds ≠ run.ds) :
    (carryOut jobs lake).bronzeFile run = lake.bronzeFile run ∧
      (carryOut jobs lake).silver[run.ds]? = lake.silver[run.ds]? ∧
      (carryOut jobs lake).gold[run.ds]? = lake.gold[run.ds]? := by
  induction jobs generalizing lake with
  | nil => exact ⟨rfl, rfl, rfl⟩
  | cons job rest ih =>
      obtain ⟨differs, later⟩ := List.forall_mem_cons.mp others
      have own := run_tasks_frame job.run lake ⟨[job.extract], [job.transform], [job.aggregate]⟩
      obtain ⟨bronze, silver, gold⟩ := ih (job.carryOut lake).2 later
      refine ⟨bronze.trans (own.bronze run ?_), silver.trans (own.silver _ differs.symm),
        gold.trans (own.gold _ differs.symm)⟩
      rintro rfl
      exact differs rfl

theorem carry_out_alone (jobs : List Job) (lake : Lake) (run : DagRun) (alone : lake.Alone run)
    (others : ∀ job ∈ jobs, job.run.data_interval_end ≠ run.data_interval_end) :
    (carryOut jobs lake).Alone run := by
  induction jobs generalizing lake with
  | nil => exact alone
  | cons job rest ih =>
      obtain ⟨differs, later⟩ := List.forall_mem_cons.mp others
      apply ih _ _ later
      intro ds apart
      have own := run_tasks_frame job.run lake ⟨[job.extract], [job.transform], [job.aggregate]⟩
      refine (own.bronze ⟨ds, run.data_interval_end⟩ fun same => differs ?_).trans (alone ds apart)
      exact (congrArg DagRun.data_interval_end same).symm

/-- The Silver layer behind a list of runs: the partitions of the runs, and no rows elsewhere. -/
structure Behind (jobs : List Job) (lake : Lake) : Prop where
  valid : ValidSilver lake
  shown : ∀ job ∈ jobs, Shows lake job.run job.records
  rest : ∀ day, (∀ job ∈ jobs, job.run.ds ≠ day) → lake.silver[day]? = none

theorem Behind.same_silver {jobs : List Job} {before after : Lake} (behind : Behind jobs before)
    (same : after.silver = before.silver) : Behind jobs after where
  valid := by rw [ValidSilver, same]; exact behind.valid
  shown := fun job member => ⟨by rw [same]; exact (behind.shown job member).rows, job.valid⟩
  rest := fun day others => by rw [same]; exact behind.rest day others

/-- The job of the newest date in a list of runs. -/
def Leads (leader : Job) (jobs : List Job) : Prop :=
  leader ∈ jobs ∧ ∀ job ∈ jobs, job.run.ds ≤ leader.run.ds

theorem leader_exists (jobs : List Job) (nonempty : jobs ≠ []) : ∃ leader, Leads leader jobs := by
  cases top : jobs.argmax (fun job => job.run.ds) with
  | none => exact absurd (List.argmax_eq_none.mp top) nonempty
  | some leader =>
      exact ⟨leader, List.argmax_mem top, fun job member =>
        List.le_of_mem_argmax (f := fun job : Job => job.run.ds) member top⟩

theorem Behind.latest {jobs : List Job} {lake : Lake} (behind : Behind jobs lake) (leader : Job)
    (leads : Leads leader jobs) : LatestSilver lake leader.run.ds := by
  obtain ⟨member, newest⟩ := leads
  apply shows_latest lake leader.run leader.records (behind.shown leader member)
  intro day later
  exact behind.rest day fun job inside same =>
    absurd (newest job inside) (by rw [same]; exact not_le.mpr later)

theorem published_behind (jobs : List Job) (lake : Lake) (job : Job) (behind : Behind jobs lake)
    (apart : ∀ other ∈ jobs, other.run.ds ≠ job.run.ds) :
    Behind (jobs ++ [job]) (publishedSilver job.run lake job.pages) where
  valid := overwrite_valid none job.run.ds _ (lake.writeBronze job.run _) behind.valid job.valid
  shown := by
    intro other member
    rcases List.mem_append.mp member with earlier | same
    · have kept := insert_other lake.silver job.run.ds other.run.ds
        [DataFrame.ofRecords job.records] (apart other earlier)
      exact ⟨kept.trans (behind.shown other earlier).rows, other.valid⟩
    · obtain rfl := List.mem_singleton.mp same
      exact published_shows other.run lake other.pages other.valid
  rest := by
    intro day others
    have earlier := behind.rest day fun other member => others other (List.mem_append_left _ member)
    have differs := others job (List.mem_append_right _ (List.mem_singleton_self job))
    exact (insert_other lake.silver job.run.ds day _ differs.symm).trans earlier

/-- One more run: it succeeds, and counts the records of the newest run so far. -/
theorem carry_out_job (jobs : List Job) (lake : Lake) (job : Job) (behind : Behind jobs lake)
    (apart : ∀ other ∈ jobs, other.run.ds ≠ job.run.ds) (alone : lake.Alone job.run) :
    ∃ final rows leader, job.carryOut lake = (true, final) ∧ Behind (jobs ++ [job]) final ∧
      final.bronzeFile job.run = some (writeLines job.pages) ∧ Leads leader (jobs ++ [job]) ∧
      final.gold[job.run.ds]? = some rows ∧ CountsOf (leader.records.map recordKey) rows := by
  have published := published_behind jobs lake job behind apart
  obtain ⟨leader, leads⟩ := leader_exists (jobs ++ [job]) (by simp)
  obtain ⟨final, rows, ran, bronze, silver, written, counts⟩ := run_counts_latest job.run lake
    job.extract job.transform job.aggregate job.pages job.undisturbed alone job.hook job.valid
    behind.valid leader.run.ds (published.latest leader leads)
  rw [shows_keys _ leader.run _ (published.shown leader leads.1)] at counts
  exact ⟨final, rows, leader, ran, published.same_silver silver, bronze, leads, written, counts⟩

/-- Runs carried out one after another leave their own partitions behind. -/
theorem carry_out_behind (jobs : List Job) (lake : Lake) (separate : Separate jobs)
    (alone : ∀ job ∈ jobs, lake.Alone job.run) (empty : lake.silver = ∅) :
    Behind jobs (carryOut jobs lake) := by
  induction jobs using List.reverseRecOn with
  | nil =>
      refine ⟨empty_valid lake empty, by simp, fun day _ => ?_⟩
      simp [carryOut, empty]
  | append_singleton jobs job ih =>
      obtain ⟨earlier, _, apart⟩ := List.pairwise_append.mp separate
      have behind := ih earlier fun other member => alone other (List.mem_append_left _ member)
      have differs (other : Job) (member : other ∈ jobs) :=
        apart other member job (List.mem_singleton_self job)
      have still := carry_out_alone jobs lake job.run (alone job (by simp)) fun other member =>
        (differs other member).2
      obtain ⟨final, _, _, ran, after, _⟩ := carry_out_job jobs _ job behind
        (fun other member => (differs other member).1) still
      rw [carry_out_split, ran]
      exact after

/-- Runs carried out one after another, whatever the order of their dates, all
succeed and leave their own pages in Bronze and Silver. The Gold partition of each
counts the records of the newest run up to its turn: a run that comes in the order
of the dates counts its own, a backfilled one the records of a later date. -/
theorem carried_out_gold (jobs : List Job) (lake : Lake) (separate : Separate jobs)
    (alone : ∀ job ∈ jobs, lake.Alone job.run) (empty : lake.silver = ∅) (before after : List Job)
    (job : Job) (split : jobs = before ++ job :: after) :
    let final := carryOut jobs lake
    (job.carryOut (carryOut before lake)).1 = true ∧
      final.bronzeFile job.run = some (writeLines job.pages) ∧
      final.silver[job.run.ds]? = some [DataFrame.ofRecords job.records] ∧
      ∃ leader rows, Leads leader (before ++ [job]) ∧ final.gold[job.run.ds]? = some rows ∧
        CountsOf (leader.records.map recordKey) rows := by
  intro final
  subst split
  obtain ⟨earlier, later, apart⟩ := List.pairwise_append.mp separate
  obtain ⟨behindJob, _⟩ := List.pairwise_cons.mp later
  have differs (other : Job) (member : other ∈ before) := apart other member job List.mem_cons_self
  have behind := carry_out_behind before lake earlier (fun other member =>
    alone other (List.mem_append_left _ member)) empty
  have still := carry_out_alone before lake job.run (alone job (by simp)) fun other member =>
    (differs other member).2
  obtain ⟨middle, rows, leader, ran, shown, bronze, leads, written, counts⟩ := carry_out_job before _ job
    behind (fun other member => (differs other member).1) still
  obtain ⟨file, silver, gold⟩ := carry_out_frame after middle job.run fun other member =>
    (behindJob other member).1.symm
  have whole : final = carryOut after middle := by
    simp only [final, carry_out_split, ran]
  refine ⟨by rw [ran], ?_, ?_, leader, rows, leads, ?_, counts⟩
  · rw [whole, file, bronze]
  · rw [whole, silver]
    exact (shown.shown job (by simp)).rows
  · rw [whole, gold, written]

def sampleJob (kind : String) (run : DagRun) : Job where
  run := run
  extract := calmExtract kind
  transform := calmTransform
  aggregate := calmAggregate
  pages := [samplePage kind]
  undisturbed := calm_undisturbed kind
  hook := calm_hook kind
  valid := by rw [sample_page_records]; exact sample_valid kind

/-- The run of day 1 is carried out after that of day 2. -/
theorem backfilled_gold :
    let final := carryOut [sampleJob "large" ⟨2, 3⟩, sampleJob "micro" ⟨1, 2⟩] emptyLake
    ((sampleJob "micro" ⟨1, 2⟩).carryOut (carryOut [sampleJob "large" ⟨2, 3⟩] emptyLake)).1 = true ∧
      final.bronzeFile ⟨1, 2⟩ = some (writeLines [samplePage "micro"]) ∧
      final.silver[(1 : Day)]? = some [DataFrame.ofRecords (sampleJob "micro" ⟨1, 2⟩).records] ∧
      ∃ leader rows, Leads leader ([sampleJob "large" ⟨2, 3⟩] ++ [sampleJob "micro" ⟨1, 2⟩]) ∧
        final.gold[(1 : Day)]? = some rows ∧ CountsOf (leader.records.map recordKey) rows := by
  apply carried_out_gold [sampleJob "large" ⟨2, 3⟩, sampleJob "micro" ⟨1, 2⟩] emptyLake _
    (fun job _ => empty_alone job.run) rfl [sampleJob "large" ⟨2, 3⟩] []
    (sampleJob "micro" ⟨1, 2⟩) rfl
  simp [Separate, sampleJob]

end Brewery
