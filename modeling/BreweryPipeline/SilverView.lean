import BreweryPipeline.RunIsolation

/-!
What the Silver layer shows after any history. When no two runs share their date
or the end of their interval, each run has its Bronze directory and its Silver
partition to itself, and a run past its transform finds there the records of its
own last extraction, whatever failed, was retried or was cleared meanwhile. The
layer depends on what was extracted and not on the order of the attempts.
-/

namespace Brewery

open Support.JsonText Support.FileStore Support.Replay

/-- No two runs meet in a Bronze directory or in a partition. -/
structure SeparateRuns {Id : Type} (runs : Id → DagRun) : Prop where
  date : Function.Injective fun id => (runs id).ds
  interval : Function.Injective fun id => (runs id).data_interval_end

theorem SeparateRuns.distinct {Id : Type} {runs : Id → DagRun} (separate : SeparateRuns runs) :
    Function.Injective runs := by
  intro left right same
  exact separate.date (congrArg DagRun.ds same)

/-- An attempt leaves every other directory alone with its own file. -/
theorem perform_alone (run other : DagRun) (attempt : Attempt) (lake : Lake)
    (apart : other = run ∨ other.data_interval_end ≠ run.data_interval_end)
    (alone : lake.Alone other) : (perform run attempt lake).2.Alone other := by
  intro ds differs
  have elsewhere : (⟨ds, other.data_interval_end⟩ : DagRun) ≠ run := by
    intro same
    rcases apart with own | apart
    · exact differs (own ▸ congrArg DagRun.ds same)
    · have meets := congrArg DagRun.data_interval_end same
      exact apart meets
  exact (perform_file run ⟨ds, other.data_interval_end⟩ attempt lake (Or.inl elsewhere)).trans
    (alone ds differs)

/-- A Silver partition changes only when its own run transforms. -/
theorem perform_silver (run : DagRun) (attempt : Attempt) (lake : Lake) (day : Day)
    (untouched : day ≠ run.ds ∨ attempt.task ≠ .transform) :
    (perform run attempt lake).2.silver[day]? = lake.silver[day]? := by
  cases attempt with
  | extract env => exact congrArg (·[day]?) (execute_frame env run lake).silver
  | transform env =>
      have differs : day ≠ run.ds := untouched.resolve_right fun later => later rfl
      exact (transform_frame env run lake).silver day differs
  | aggregate env => exact congrArg (·[day]?) (aggregate_frame env run lake).silver

/-- The partition holds these records and nothing else, and they passed the check. -/
structure Shows (lake : Lake) (run : DagRun) (records : List Record) : Prop where
  rows : lake.silver[run.ds]? = some [DataFrame.ofRecords records]
  valid : validateSchema (DataFrame.ofRecords records).columns = .ok ()

/-- Alone with its file, a run's transform writes the records of the file. -/
theorem transform_own (env : TransformEnv) (run : DagRun) (lake next : Lake) (pages : List Json)
    (alone : lake.Alone run) (own : lake.bronzeFile run = some (writeLines pages))
    (success : breweryTransformation env run lake = (.ok (), next)) :
    Shows next run (pages.flatMap valueRecords) := by
  obtain ⟨valid, written⟩ := transform_succeeds env run lake next success
  have texts := bronze_texts_alone lake run (writeLines pages) alone
  rw [write_bronze_present lake run _ own] at texts
  have frame : readJson (lake.bronzeTexts run.data_interval_end) =
      DataFrame.ofRecords (pages.flatMap valueRecords) := by
    rw [texts, readJson, List.flatMap_singleton, text_records_written]
  rw [frame] at valid written
  exact ⟨by rw [written, with_silver_silver, insert_same], valid⟩

section System
variable {Id : Type} [DecidableEq Id] (runs : Id → DagRun)

/-- What a run shows the readers of Silver once its transform has succeeded. -/
def System.records (state : System Id) (id : Id) : List Record :=
  (state.extracted id).flatMap valueRecords

structure SilverView (state : System Id) : Prop where
  own : OwnExtraction runs state
  alone : ∀ id, state.lake.Alone (runs id)
  view : ∀ id, Task.transform.done (state.next id) = true →
    Shows state.lake (runs id) (state.records id)

theorem attempt_alone (separate : SeparateRuns runs) (id : Id) (attempt : Attempt) (lake : Lake)
    (alone : ∀ id, lake.Alone (runs id)) (other : Id) :
    (perform (runs id) attempt lake).2.Alone (runs other) := by
  apply perform_alone (runs id) (runs other) attempt lake _ (alone other)
  by_cases same : other = id
  · exact Or.inl (congrArg runs same)
  · exact Or.inr (separate.interval.ne same)

/-- Of the tasks a run can be ready for, only the last lies behind the transform. -/
theorem ready_past_transform (next : Option Task) (task : Task) (ready : next = some task)
    (finished : Task.transform.done next = true) : task = .aggregate := by
  subst ready
  cases task with
  | extract => contradiction
  | transform => contradiction
  | aggregate => rfl

theorem done_before (next : Option Task) (finished : Task.aggregate.done next = true) :
    Task.transform.done next = true := by
  cases next with
  | none => rfl
  | some task => cases task <;> contradiction

theorem silver_view_attempt (separate : SeparateRuns runs) (state next : System Id) (id : Id)
    (attempt : Attempt) (before : SilverView runs state)
    (taken : step runs state (.attempt id attempt) = some next) (other : Id)
    (untouched : other ≠ id ∨ attempt.task ≠ .transform)
    (shown : Task.transform.done (state.next other) = true)
    (same : next.extracted other = state.extracted other) :
    Shows next.lake (runs other) (next.records other) := by
  obtain ⟨rows, valid⟩ := before.view other shown
  have kept := perform_silver (runs id) attempt state.lake (runs other).ds
    (untouched.imp_left separate.date.ne)
  rw [← attempt_lake runs state next id attempt taken] at kept
  simp only [System.records, same]
  exact ⟨kept.trans rows, valid⟩

theorem silver_view_step (separate : SeparateRuns runs) (state next : System Id) (event : Event Id)
    (before : SilverView runs state) (taken : step runs state event = some next) :
    SilverView runs next := by
  have own := own_extraction_step runs separate.distinct state next event before.own taken
  have stepped := step_cases runs state next event taken
  cases stepped with
  | failed id attempt failure lake ready outcome =>
      have alone := attempt_alone runs separate id attempt state.lake before.alone
      rw [outcome] at alone
      refine ⟨own, alone, fun other finished => ?_⟩
      apply silver_view_attempt runs separate state _ id attempt before taken other _ finished rfl
      by_cases same : other = id
      · have task := ready_past_transform _ _ (same ▸ ready) finished
        exact Or.inr (by simp [task])
      · exact Or.inl same
  | succeeded id attempt lake ready outcome =>
      have alone := attempt_alone runs separate id attempt state.lake before.alone
      rw [outcome] at alone
      refine ⟨own, alone, fun other finished => ?_⟩
      by_cases same : other = id
      · subst same
        cases attempt with
        | extract env => simp [System.succeed, Attempt.task, Task.downstream, Task.done] at finished
        | transform env =>
            have file := before.own other (by rw [ready]; simp [Attempt.task])
            have shown := transform_own env (runs other) state.lake lake _ (before.alone other)
              file outcome
            simpa [System.succeed, System.records, Attempt.pages] using shown
        | aggregate env =>
            apply silver_view_attempt runs separate state _ other _ before taken other
              (Or.inr (by simp [Attempt.task])) (by rw [ready]; rfl)
            simp [System.succeed, Attempt.pages]
      · simp only [System.succeed, Function.update_of_ne same] at finished
        apply silver_view_attempt runs separate state _ id attempt before taken other (Or.inl same)
          finished
        simp only [System.succeed, Function.update_of_ne same]
  | cleared id task finished =>
      refine ⟨own, before.alone, fun other past => before.view other ?_⟩
      by_cases same : other = id
      · subst same
        simp only [Function.update_self] at past
        have last := ready_past_transform _ task rfl past
        exact done_before _ (last ▸ finished)
      · simpa only [Function.update_of_ne same] using past

/-- In every history each run past its transform shows its own last extraction. -/
theorem silver_view (separate : SeparateRuns runs) (events : List (Event Id))
    (start state : System Id) (unstarted : ∀ id, start.next id = some .extract)
    (alone : ∀ id, start.lake.Alone (runs id))
    (history : replay (step runs) events start = some state) : SilverView runs state :=
  replay_invariant (step runs) (SilverView runs)
    (fun state event next before taken => silver_view_step runs separate state next event before taken)
    events start state
    ⟨fun id past => absurd (unstarted id) past, alone, fun id past => by
      rw [unstarted id] at past
      contradiction⟩ history

/-- A run takes part in a history when one of its tasks is attempted. -/
def TakesPart (events : List (Event Id)) (id : Id) : Prop := ∃ attempt, .attempt id attempt ∈ events

/-- What no run of the history writes is as it was. -/
theorem history_frame (events : List (Event Id)) (start final : System Id)
    (history : replay (step runs) events start = some final) :
    (∀ day, (∀ id, TakesPart events id → (runs id).ds ≠ day) →
      final.lake.silver[day]? = start.lake.silver[day]?) ∧
    (∀ run, (∀ id, TakesPart events id → runs id ≠ run) →
      final.lake.bronzeFile run = start.lake.bronzeFile run) := by
  induction events generalizing start with
  | nil => exact Option.some.inj history ▸ ⟨fun _ _ => rfl, fun _ _ => rfl⟩
  | cons event rest ih =>
      obtain ⟨next, taken, later⟩ := Option.bind_eq_some_iff.mp history
      obtain ⟨silver, bronze⟩ := ih next later
      have behind (id : Id) (part : TakesPart rest id) : TakesPart (event :: rest) id :=
        part.imp fun attempt member => List.mem_cons_of_mem event member
      cases event with
      | attempt id attempt =>
          have lake := attempt_lake runs start next id attempt taken
          have part : TakesPart (.attempt id attempt :: rest) id := ⟨attempt, List.mem_cons_self⟩
          constructor
          · intro day others
            rw [silver day fun id part => others id (behind id part), lake]
            exact perform_silver (runs id) attempt start.lake day (Or.inl (others id part).symm)
          · intro run others
            rw [bronze run fun id part => others id (behind id part), lake]
            exact perform_file (runs id) run attempt start.lake (Or.inl (others id part).symm)
      | clear id task =>
          have stepped := step_cases runs start next _ taken
          cases stepped with
          | cleared id task finished =>
              exact ⟨fun day others => silver day fun id part => others id (behind id part),
                fun run others => bronze run fun id part => others id (behind id part)⟩

/-- In every history of separate runs, whatever failed, was retried or was cleared
in it, each run past its transform has its own last extraction in its Bronze file
and nothing but the records of that extraction in its Silver partition. -/
theorem silver_shows_extraction (separate : SeparateRuns runs) (events : List (Event Id))
    (start state : System Id) (unstarted : ∀ id, start.next id = some .extract)
    (alone : ∀ id, start.lake.Alone (runs id))
    (history : replay (step runs) events start = some state) (id : Id)
    (transformed : Task.transform.done (state.next id) = true) :
    state.lake.bronzeFile (runs id) = some (writeLines (state.extracted id)) ∧
      state.lake.silver[(runs id).ds]? =
        some [DataFrame.ofRecords ((state.extracted id).flatMap valueRecords)] := by
  have shown := silver_view runs separate events start state unstarted alone history
  exact ⟨shown.own id (done_not_extract _ _ transformed), (shown.view id transformed).rows⟩

/-- Two histories from one state in which the same runs took part, extracted the
same pages and came through their transform end with the same Bronze files and
the same Silver layer. -/
theorem silver_confluent (separate : SeparateRuns runs) (start first second : System Id)
    (left right : List (Event Id)) (unstarted : ∀ id, start.next id = some .extract)
    (alone : ∀ id, start.lake.Alone (runs id))
    (leftHistory : replay (step runs) left start = some first)
    (rightHistory : replay (step runs) right start = some second)
    (transformed : ∀ id, TakesPart left id ∨ TakesPart right id →
      Task.transform.done (first.next id) = true ∧ Task.transform.done (second.next id) = true ∧
        first.extracted id = second.extracted id) :
    first.lake.silver = second.lake.silver ∧
      ∀ run, first.lake.bronzeFile run = second.lake.bronzeFile run := by
  have leftView := silver_view runs separate left start first unstarted alone leftHistory
  have rightView := silver_view runs separate right start second unstarted alone rightHistory
  obtain ⟨leftSilver, leftBronze⟩ := history_frame runs left start first leftHistory
  obtain ⟨rightSilver, rightBronze⟩ := history_frame runs right start second rightHistory
  constructor
  · apply Std.ExtTreeMap.ext_getElem?
    intro day
    by_cases written : ∃ id, (TakesPart left id ∨ TakesPart right id) ∧ (runs id).ds = day
    · obtain ⟨id, part, rfl⟩ := written
      obtain ⟨leftDone, rightDone, same⟩ := transformed id part
      rw [(leftView.view id leftDone).rows, (rightView.view id rightDone).rows, System.records,
        System.records, same]
    · push Not at written
      rw [leftSilver day fun id part => written id (Or.inl part),
        rightSilver day fun id part => written id (Or.inr part)]
  · intro run
    by_cases written : ∃ id, (TakesPart left id ∨ TakesPart right id) ∧ runs id = run
    · obtain ⟨id, part, rfl⟩ := written
      obtain ⟨leftDone, rightDone, same⟩ := transformed id part
      rw [leftView.own id (done_not_extract _ _ leftDone),
        rightView.own id (done_not_extract _ _ rightDone), same]
    · push Not at written
      rw [leftBronze run fun id part => written id (Or.inl part),
        rightBronze run fun id part => written id (Or.inr part)]

end System

/-! Two scheduled runs, of two days, in both orders. -/

def consecutiveRuns : Bool → DagRun
  | false => ⟨1, 2⟩
  | true => ⟨2, 3⟩

theorem consecutive_separate : SeparateRuns consecutiveRuns := by
  constructor <;> intro left right same <;> cases left <;> cases right <;>
    simp_all [consecutiveRuns]

/-- The first two tasks of one run and then those of the other. -/
def inTurn (first : Bool) : List (Event Bool) :=
  [.attempt first (.extract (calmExtract "micro")), .attempt first (.transform calmTransform)] ++
    [.attempt (!first) (.extract (calmExtract "micro")), .attempt (!first) (.transform calmTransform)]

theorem in_turn_history (first : Bool) : ∃ state,
    replay (step consecutiveRuns) (inTurn first) (freshSystem Bool) = some state ∧
      ∀ id, state.next id = some .aggregate ∧ state.extracted id = [samplePage "micro"] := by
  have one := sample_history consecutiveRuns "micro" first (freshSystem Bool) rfl
    (empty_alone (consecutiveRuns first))
  generalize middle : System.mk _ _ _ = state at one
  have ready : state.next (!first) = some .extract := by
    subst middle
    cases first <;> rfl
  have alone := silver_view consecutiveRuns consecutive_separate _ _ state (fun _ => rfl)
    (fun id => empty_alone (consecutiveRuns id)) one |>.alone (!first)
  have other := sample_history consecutiveRuns "micro" (!first) state ready alone
  refine ⟨_, by rw [inTurn, replay_append, one, Option.bind_some, other], fun id => ?_⟩
  subst middle
  cases first <;> cases id <;> simp

theorem in_turn_shows : ∃ state,
    replay (step consecutiveRuns) (inTurn false) (freshSystem Bool) = some state ∧
      state.lake.bronzeFile ⟨2, 3⟩ = some (writeLines (state.extracted true)) ∧
      state.lake.silver[(2 : Day)]? =
        some [DataFrame.ofRecords ((state.extracted true).flatMap valueRecords)] := by
  obtain ⟨state, history, stage⟩ := in_turn_history false
  exact ⟨state, history, silver_shows_extraction consecutiveRuns consecutive_separate (inTurn false)
    (freshSystem Bool) state (fun _ => rfl) (fun id => empty_alone (consecutiveRuns id)) history true
    (by rw [(stage true).1]; rfl)⟩

theorem in_turn_confluent : ∃ first second,
    replay (step consecutiveRuns) (inTurn false) (freshSystem Bool) = some first ∧
      replay (step consecutiveRuns) (inTurn true) (freshSystem Bool) = some second ∧
      first.lake.silver = second.lake.silver ∧
      ∀ run, first.lake.bronzeFile run = second.lake.bronzeFile run := by
  obtain ⟨first, leftHistory, left⟩ := in_turn_history false
  obtain ⟨second, rightHistory, right⟩ := in_turn_history true
  refine ⟨first, second, leftHistory, rightHistory, ?_⟩
  apply silver_confluent consecutiveRuns consecutive_separate (freshSystem Bool) first second
    (inTurn false) (inTurn true) (fun _ => rfl) (fun id => empty_alone (consecutiveRuns id))
    leftHistory rightHistory
  intro id _
  rw [(left id).1, (left id).2, (right id).1, (right id).2]
  exact ⟨rfl, rfl, rfl⟩

end Brewery
