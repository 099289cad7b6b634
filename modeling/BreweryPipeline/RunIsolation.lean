import BreweryPipeline.SchemaGate

/-!
Whose records a Silver partition holds. The Bronze directory is named by the end
of the data interval and the file in it by `ds`, and the transform reads the
whole directory. A scheduled run and a manual run can meet in one directory.
-/

namespace Brewery

open Support.JsonText Support.FileStore Support.Replay

/-- The timetable: a scheduled run ends its interval a day later, a manual run at once. -/
def Timetabled (run : DagRun) : Prop :=
  run.data_interval_end = run.ds + 1 ∨ run.data_interval_end = run.ds

/-- Two runs that share a directory are a scheduled run and the manual run of the day after. -/
theorem shared_directory (left right : DagRun) (leftDates : Timetabled left)
    (rightDates : Timetabled right) (shared : left.data_interval_end = right.data_interval_end)
    (apart : left ≠ right) : left.ds = right.ds + 1 ∨ right.ds = left.ds + 1 := by
  have differs : left.ds ≠ right.ds := by
    intro same
    cases left
    cases right
    simp_all
  unfold Timetabled at leftDates rightDates
  rcases leftDates with leftEnd | leftEnd <;> rcases rightDates with rightEnd | rightEnd
  · exact absurd (add_right_cancel (leftEnd.symm.trans (shared.trans rightEnd))) differs
  · exact Or.inr (rightEnd.symm.trans (shared.symm.trans leftEnd))
  · exact Or.inl (leftEnd.symm.trans (shared.trans rightEnd))
  · exact absurd (leftEnd.symm.trans (shared.trans rightEnd)) differs

/-! What a run has extracted stays in its own file. -/

/-- A file changes only when its own run extracts. -/
theorem perform_file (run other : DagRun) (attempt : Attempt) (lake : Lake)
    (untouched : other ≠ run ∨ attempt.task ≠ .extract) :
    (perform run attempt lake).2.bronzeFile other = lake.bronzeFile other := by
  cases attempt with
  | extract env =>
      have differs : other ≠ run := untouched.resolve_right fun later => later rfl
      exact (execute_frame env run lake).bronze other differs
  | transform env => exact same_bronze_file (transform_frame env run lake).bronze other
  | aggregate env => exact same_bronze_file (aggregate_frame env run lake).bronze other

theorem later_pages (attempt : Attempt) (later : attempt.task ≠ .extract) : attempt.pages = none := by
  cases attempt with
  | extract env => exact absurd rfl later
  | transform env => rfl
  | aggregate env => rfl

theorem done_not_extract (task : Task) (next : Option Task) (finished : task.done next = true) :
    next ≠ some .extract := by
  intro same
  subst same
  cases task <;> contradiction

section System
variable {Id : Type} [DecidableEq Id] (runs : Id → DagRun)

/-- A run past its extraction finds its own pages in its own file. -/
def OwnExtraction (state : System Id) : Prop :=
  ∀ id, state.next id ≠ some .extract →
    state.lake.bronzeFile (runs id) = some (writeLines (state.extracted id))

theorem own_extraction_step (distinct : Function.Injective runs) (state next : System Id)
    (event : Event Id) (before : OwnExtraction runs state)
    (taken : step runs state event = some next) : OwnExtraction runs next := by
  have stepped := step_cases runs state next event taken
  cases stepped with
  | failed id attempt failure lake ready outcome =>
      intro other past
      have untouched : runs other ≠ runs id ∨ attempt.task ≠ .extract := by
        by_cases same : other = id
        · exact Or.inr fun extract => past (same ▸ extract ▸ ready)
        · exact Or.inl (distinct.ne same)
      have kept := perform_file (runs id) (runs other) attempt state.lake untouched
      rw [outcome] at kept
      exact kept.trans (before other past)
  | succeeded id attempt lake ready outcome =>
      intro other past
      have kept := perform_file (runs id) (runs other) attempt state.lake
      rw [outcome] at kept
      by_cases same : other = id
      · subst same
        by_cases extract : attempt.task = .extract
        · -- The file and the recorded pages change together.
          cases attempt with
          | extract env =>
              obtain ⟨pages, hook, written⟩ :=
                execute_succeeds env (runs other) state.lake lake outcome
              simp [System.succeed, Attempt.pages, hook, Except.toOption, written]
          | transform env => contradiction
          | aggregate env => contradiction
        · have ownFile := before other (by rw [ready]; simpa using extract)
          simp only [System.succeed, later_pages attempt extract, Option.getD_none,
            Function.update_self]
          exact (kept (Or.inr extract)).trans ownFile
      · simp only [System.succeed, Function.update_of_ne same] at past ⊢
        exact (kept (Or.inl (distinct.ne same))).trans (before other past)
  | cleared id task finished =>
      intro other past
      by_cases same : other = id
      · subst same
        exact before other (done_not_extract task (state.next other) finished)
      · simp only [Function.update_of_ne same] at past
        exact before other past

/-- Every Bronze file is the file of some run. -/
def FilesOfRuns (lake : Lake) : Prop :=
  ∀ run text, lake.bronzeFile run = some text → ∃ id, runs id = run

omit [DecidableEq Id] in
theorem perform_files (id : Id) (attempt : Attempt) (lake : Lake) (before : FilesOfRuns runs lake) :
    FilesOfRuns runs (perform (runs id) attempt lake).2 := by
  intro run text present
  by_cases own : run = runs id
  · exact ⟨id, own.symm⟩
  · rw [perform_file (runs id) run attempt lake (Or.inl own)] at present
    exact before run text present

/-- From an empty Bronze layer on, a file of another name in the directory of a
run belongs to the run a day before or after it. -/
theorem companion_file (events : List (Event Id)) (start state : System Id)
    (timetabled : ∀ id, Timetabled (runs id)) (empty : start.lake.bronze = ∅)
    (history : replay (step runs) events start = some state) (id : Id) (ds : Day) (text : List Char)
    (differs : ds ≠ (runs id).ds)
    (present : state.lake.bronzeFile ⟨ds, (runs id).data_interval_end⟩ = some text) :
    ∃ other, runs other = ⟨ds, (runs id).data_interval_end⟩ ∧
      (ds = (runs id).ds + 1 ∨ (runs id).ds = ds + 1) := by
  have initial : FilesOfRuns runs start.lake := by
    intro run text found
    simp [Lake.bronzeFile, Lake.bronzeDirectory, empty] at found
  obtain ⟨other, same⟩ := replay_lake runs (FilesOfRuns runs) (perform_files runs) events start state
    initial history _ text present
  refine ⟨other, same, ?_⟩
  have companion := shared_directory (runs other) (runs id) (timetabled other) (timetabled id)
    (by rw [same]) fun equal => differs (by rw [← equal, same])
  rwa [same] at companion

theorem own_extraction (distinct : Function.Injective runs) (events : List (Event Id))
    (start state : System Id) (unstarted : ∀ id, start.next id = some .extract)
    (history : replay (step runs) events start = some state) : OwnExtraction runs state :=
  replay_invariant (step runs) (OwnExtraction runs)
    (fun state event next before taken => own_extraction_step runs distinct state next event before taken)
    events start state (fun id past => absurd (unstarted id) past) history

end System

/-! What the transform makes of a directory: the run's own records and the rest. -/

def NoOtherRecords (lake : Lake) (run : DagRun) : Prop :=
  ∀ ds, ds ≠ run.ds → ∀ text,
    (lake.bronzeDirectory run.data_interval_end)[ds]? = some text → textRecords text = []

def otherRecords (lake : Lake) (run : DagRun) : List Record :=
  ((lake.bronzeDirectory run.data_interval_end).toList.filter
    fun entry => !decide (entry.1 = run.ds)).flatMap fun entry => textRecords entry.2

theorem other_records_nil_iff (lake : Lake) (run : DagRun) :
    otherRecords lake run = [] ↔ NoOtherRecords lake run := by
  simp only [otherRecords, List.flatMap_eq_nil_iff, List.mem_filter, Prod.forall, mem_entries,
    Bool.not_eq_eq_eq_not, Bool.not_true, decide_eq_false_iff_not]
  constructor
  · exact fun none ds differs text present => none ds text ⟨present, differs⟩
  · exact fun none ds text found => none ds found.2 text found.1

theorem directory_records (lake : Lake) (run : DagRun) (pages : List Json)
    (own : lake.bronzeFile run = some (writeLines pages)) :
    ((lake.bronzeTexts run.data_interval_end).flatMap textRecords).Perm
      (pages.flatMap valueRecords ++ otherRecords lake run) := by
  have entries := entries_perm (lake.bronzeDirectory run.data_interval_end) run.ds _ own
  have records := entries.flatMap_right fun entry => textRecords entry.2
  rw [List.flatMap_cons, text_records_written] at records
  rwa [Lake.bronzeTexts, List.flatMap_map]

/-- The partition holds these records and no others, each as often as listed. -/
def HoldsExactly (lake : Lake) (day : Day) (records : List Record) : Prop :=
  ∃ frame, lake.silver[day]? = some [frame] ∧
    frame.rows.Perm (records.map (Record.row frame.columns))

theorem transform_holds_iff (env : TransformEnv) (run : DagRun) (lake next : Lake) (pages : List Json)
    (own : lake.bronzeFile run = some (writeLines pages))
    (success : breweryTransformation env run lake = (.ok (), next)) :
    HoldsExactly next run.ds (pages.flatMap valueRecords) ↔ NoOtherRecords lake run := by
  obtain ⟨_, written⟩ := transform_succeeds env run lake next success
  have records := directory_records lake run pages own
  rw [← other_records_nil_iff]
  constructor
  · rintro ⟨frame, present, same⟩
    rw [written, with_silver_silver, insert_same, Option.some.injEq, List.singleton_inj] at present
    have lengths := same.length_eq
    rw [← present] at lengths
    simp only [readJson, DataFrame.ofRecords, List.length_map, records.length_eq,
      List.length_append] at lengths
    exact List.eq_nil_of_length_eq_zero (by omega)
  · intro none
    refine ⟨readJson (lake.bronzeTexts run.data_interval_end), ?_, ?_⟩
    · rw [written, with_silver_silver, insert_same]
    · rw [none, List.append_nil] at records
      exact records.map _

/-- A run whose own records carry every column passes the check in any directory. -/
theorem transform_own_valid (env : TransformEnv) (run : DagRun) (lake : Lake) (pages : List Json)
    (own : lake.bronzeFile run = some (writeLines pages)) (reads : env.readFails = false)
    (clean : env.writeFault = none) (complete : ∀ column ∈ expectedColumns,
      ∃ record ∈ pages.flatMap valueRecords, column ∈ record.keys) :
    ∃ next, breweryTransformation env run lake = (.ok (), next) := by
  have directory : lake.bronze[run.data_interval_end]?.isSome := by
    cases present : lake.bronze[run.data_interval_end]? with
    | some files => rfl
    | none => simp [Lake.bronzeFile, Lake.bronzeDirectory, present] at own
  have valid : validateSchema (readJson (lake.bronzeTexts run.data_interval_end)).columns = .ok () := by
    rw [validate_schema_ok_iff]
    intro column required
    obtain ⟨record, member, key⟩ := complete column required
    have inside := (directory_records lake run pages own).mem_iff.mpr (List.mem_append_left _ member)
    exact (mem_columns _ column).mpr ⟨record, inside, key⟩
  exact ⟨_, transform_done env run lake directory reads clean valid⟩

/-- Wherever in a history the transform of a run succeeds, its partition holds
exactly what the run itself extracted if and only if no other file of the
directory gives a record at that moment. -/
theorem silver_holds_own_iff {Id : Type} [DecidableEq Id] (runs : Id → DagRun)
    (distinct : Function.Injective runs) (start final : System Id) (before after : List (Event Id))
    (id : Id) (env : TransformEnv) (unstarted : ∀ id, start.next id = some .extract)
    (history : replay (step runs) (before ++ .attempt id (.transform env) :: after) start = some final) :
    ∃ state next, replay (step runs) before start = some state ∧
      step runs state (.attempt id (.transform env)) = some next ∧
      replay (step runs) after next = some final ∧
      (next.next id = some .aggregate →
        (HoldsExactly next.lake (runs id).ds ((state.extracted id).flatMap valueRecords) ↔
          NoOtherRecords state.lake (runs id))) := by
  obtain ⟨state, next, first, taken, later⟩ := replay_split _ before after _ start final history
  refine ⟨state, next, first, taken, later, fun done => ?_⟩
  have extracted := own_extraction runs distinct before start state unstarted first id
  obtain ⟨ready, outcome⟩ := attempt_done runs state next id (.transform env) taken done
  have own := extracted (by rw [ready]; simp [Attempt.task])
  exact transform_holds_iff env (runs id) state.lake next.lake _ own outcome

/-! A scheduled run for day 1 and a manual run on day 2. -/

def meetingRuns : Bool → DagRun
  | false => ⟨1, 2⟩
  | true => ⟨2, 2⟩

theorem meeting_distinct : Function.Injective meetingRuns := by
  intro left right same
  cases left <;> cases right <;> simp_all [meetingRuns]

theorem meeting_timetabled (id : Bool) : Timetabled (meetingRuns id) := by
  cases id <;> simp [meetingRuns, Timetabled]

/-- Both extract before the manual run is transformed. -/
def meeting : List (Event Bool) :=
  [.attempt false (.extract (calmExtract "micro")), .attempt true (.extract (calmExtract "large"))]

def meetingLake : Lake := sampleBronze "large" ⟨2, 2⟩ (sampleBronze "micro" ⟨1, 2⟩ emptyLake)

def meetingState : System Bool where
  lake := meetingLake
  next := fun _ => some .transform
  extracted := fun id => if id then [samplePage "large"] else [samplePage "micro"]

theorem meeting_history :
    replay (step meetingRuns) meeting (freshSystem Bool) = some meetingState := by
  have scheduled := step_done meetingRuns (freshSystem Bool) false (.extract (calmExtract "micro"))
    _ rfl (calm_extract_done "micro" ⟨1, 2⟩ emptyLake)
  have manual := step_done meetingRuns ((freshSystem Bool).succeed false
    (.extract (calmExtract "micro")) (sampleBronze "micro" ⟨1, 2⟩ emptyLake)) true
    (.extract (calmExtract "large")) _ rfl (calm_extract_done "large" ⟨2, 2⟩ _)
  rw [meeting, replay, scheduled, Option.bind_some, replay, manual, Option.bind_some, replay,
    Option.some.injEq, meetingState, System.mk.injEq]
  refine ⟨rfl, ?_, ?_⟩
  · funext id
    cases id <;> rfl
  · funext id
    cases id <;> simp [System.succeed, Attempt.pages, calm_hook, Except.toOption, freshSystem]

theorem meeting_own : meetingLake.bronzeFile ⟨2, 2⟩ = some (writeLines [samplePage "large"]) :=
  write_bronze_file _ ⟨2, 2⟩ _

theorem meeting_other : meetingLake.bronzeFile ⟨1, 2⟩ = some (writeLines [samplePage "micro"]) :=
  (write_bronze_elsewhere _ ⟨2, 2⟩ _ ⟨1, 2⟩ (by decide)).trans (write_bronze_file _ ⟨1, 2⟩ _)

theorem meeting_transform : ∃ next,
    step meetingRuns meetingState (.attempt true (.transform calmTransform)) = some next ∧
      next.next true = some .aggregate ∧
      breweryTransformation calmTransform ⟨2, 2⟩ meetingLake = (.ok (), next.lake) := by
  obtain ⟨lake, outcome⟩ := transform_own_valid calmTransform ⟨2, 2⟩ meetingLake _ meeting_own rfl rfl
    fun column required => ⟨sampleBrewery "large",
      by rw [sample_page_records]; exact List.mem_singleton_self _,
      (sample_keys "large").symm ▸ required⟩
  exact ⟨_, step_done meetingRuns meetingState true (.transform calmTransform) lake rfl outcome,
    by simp [System.succeed, Attempt.task, Task.downstream], outcome⟩

theorem silver_holds_own_meeting :
    ∃ state next, replay (step meetingRuns) meeting (freshSystem Bool) = some state ∧
      step meetingRuns state (.attempt true (.transform calmTransform)) = some next ∧
      (next.next true = some .aggregate →
        (HoldsExactly next.lake 2 ((state.extracted true).flatMap valueRecords) ↔
          NoOtherRecords state.lake ⟨2, 2⟩)) := by
  obtain ⟨next, taken, _, _⟩ := meeting_transform
  have history : replay (step meetingRuns) (meeting ++
      .attempt true (.transform calmTransform) :: []) (freshSystem Bool) = some next :=
    (replay_snoc _ meeting _ _ next).mpr ⟨meetingState, meeting_history, taken⟩
  obtain ⟨state, next, first, taken, _, holds⟩ := silver_holds_own_iff meetingRuns meeting_distinct
    (freshSystem Bool) next meeting [] true calmTransform (fun _ => rfl) history
  exact ⟨state, next, first, taken, holds⟩

/-- The manual run's partition also holds the record of the scheduled run. -/
theorem silver_mixes_two_runs :
    ¬ ∀ (runs : Bool → DagRun) (events : List (Event Bool)) (state next : System Bool) (id : Bool)
      (env : TransformEnv), Function.Injective runs → (∀ id, Timetabled (runs id)) →
      replay (step runs) events (freshSystem Bool) = some state →
      step runs state (.attempt id (.transform env)) = some next →
      next.next id = some .aggregate →
      HoldsExactly next.lake (runs id).ds ((state.extracted id).flatMap valueRecords) := by
  intro isolated
  obtain ⟨next, taken, done, outcome⟩ := meeting_transform
  have exactly := isolated meetingRuns meeting meetingState next true calmTransform meeting_distinct
    meeting_timetabled meeting_history taken done
  have none := (transform_holds_iff calmTransform ⟨2, 2⟩ meetingLake next.lake [samplePage "large"]
    meeting_own outcome).mp exactly
  have empty := none 1 (by decide) _ meeting_other
  rw [text_records_written, sample_page_records] at empty
  exact List.cons_ne_nil _ _ empty

end Brewery
