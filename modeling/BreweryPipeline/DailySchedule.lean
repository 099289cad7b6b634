import Mathlib

/-!
When the scheduler creates a run of airflow_pipeline/dags/brewery_dag.py. Each
parse of the file evaluates `start_date` again and stores the next daily interval;
a scheduler tick creates the run of the stored interval once that day has ended.
The interval of a start date that lies in the present begins at the next midnight,
so while the file is being parsed the stored interval is never over. The start
date is the host's local time read as UTC, which no zone moves by a whole day.
-/

namespace Brewery

/-! Times are microseconds since the epoch, in UTC. -/

def dayLength : Int := 86400000000

def minuteLength : Int := 60000000

inductive Tick where
  | parse (now : Int)
  | schedule (now : Int)

def Tick.time : Tick → Int
  | .parse now => now
  | .schedule now => now

def Tick.parsed : Tick → Option Int
  | .parse now => some now
  | .schedule _ => none

def Tick.scheduled : Tick → Option Int
  | .parse _ => none
  | .schedule now => some now

/-- What Airflow keeps of a DAG: the start of the next automated interval, the
end of the last one, and the intervals of the runs created. -/
structure DagModel where
  nextDagrun : Option Int
  lastAutomatedEnd : Option Int
  dagRuns : List Int

def midnightFrom (time : Int) : Int := (time + (dayLength - 1)) / dayLength * dayLength

/-- The first midnight that is not before a time. -/
theorem midnight_from (time : Int) : time ≤ midnightFrom time ∧
    midnightFrom time < time + dayLength ∧ dayLength ∣ midnightFrom time := by
  refine ⟨?_, ?_, Int.dvd_mul_left _ _⟩ <;> simp only [midnightFrom, dayLength] <;> omega

/-- The first day of `@daily` that starts no earlier than the start date and the
end of the last automated interval. -/
def nextInterval (startDate : Int) (lastAutomatedEnd : Option Int) : Int :=
  midnightFrom (max startDate (lastAutomatedEnd.getD startDate))

def createAfter (interval : Int) : Int := interval + dayLength

section Schedule
-- What the DAG file evaluates `start_date` to when it is parsed.
variable (startDate : Int → Int)

def onTick (model : DagModel) : Tick → DagModel
  | .parse now =>
      { model with nextDagrun := some (nextInterval (startDate now) model.lastAutomatedEnd) }
  | .schedule now =>
      match model.nextDagrun with
      | none => model
      | some interval =>
          if createAfter interval ≤ now then
            -- The interval after the one just created is stored until the next parse.
            { nextDagrun := some (createAfter interval)
              lastAutomatedEnd := some (createAfter interval)
              dagRuns := model.dagRuns ++ [interval] }
          else model

def runTrace (trace : List Tick) : DagModel := trace.foldl (onTick startDate) ⟨none, none, []⟩

def lastParse (trace : List Tick) : Option Int := (trace.filterMap Tick.parsed).getLast?

/-- Some scheduler tick comes when the first day that starts no earlier than the
start date of the latest parse is over. -/
def DayElapses (trace : List Tick) : Prop :=
  ∃ before now parsed, before ++ [.schedule now] <+: trace ∧ lastParse before = some parsed ∧
    createAfter (midnightFrom (startDate parsed)) ≤ now

theorem run_snoc (trace : List Tick) (tick : Tick) :
    runTrace startDate (trace ++ [tick]) = onTick startDate (runTrace startDate trace) tick := by
  simp only [runTrace, List.foldl_append, List.foldl_cons, List.foldl_nil]

theorem last_parse_parse (trace : List Tick) (now : Int) :
    lastParse (trace ++ [.parse now]) = some now := by
  simp [lastParse, Tick.parsed]

theorem last_parse_schedule (trace : List Tick) (now : Int) :
    lastParse (trace ++ [.schedule now]) = lastParse trace := by
  simp [lastParse, Tick.parsed]

/-- A scheduler tick creates the run of the stored interval, or changes nothing. -/
theorem schedule_cases (model : DagModel) (now : Int) :
    (∃ interval, model.nextDagrun = some interval ∧ createAfter interval ≤ now ∧
      (onTick startDate model (.schedule now)).dagRuns = model.dagRuns ++ [interval]) ∨
    ((∀ interval, model.nextDagrun = some interval → ¬ createAfter interval ≤ now) ∧
      onTick startDate model (.schedule now) = model) := by
  cases stored : model.nextDagrun with
  | none =>
      refine Or.inr ⟨fun interval found => absurd found (Option.some_ne_none interval).symm, ?_⟩
      simp only [onTick, stored]
  | some interval =>
      by_cases due : createAfter interval ≤ now
      · exact Or.inl ⟨interval, rfl, due, by simp only [onTick, stored, due, if_true]⟩
      · refine Or.inr ⟨fun other found => Option.some.inj found ▸ due, ?_⟩
        simp only [onTick, stored, due, if_false]

/-- Until a run is created the stored interval is that of the latest parse. -/
theorem stored_interval (trace : List Tick) (empty : (runTrace startDate trace).dagRuns = []) :
    (runTrace startDate trace).nextDagrun =
        (lastParse trace).map (fun parsed => midnightFrom (startDate parsed)) ∧
      (runTrace startDate trace).lastAutomatedEnd = none := by
  induction trace using List.reverseRecOn with
  | nil => exact ⟨rfl, rfl⟩
  | append_singleton trace tick ih =>
      rw [run_snoc] at empty ⊢
      cases tick with
      | parse now =>
          obtain ⟨_, last⟩ := ih empty
          simp only [onTick, last, nextInterval, last_parse_parse, Option.getD_none, max_self,
            Option.map_some, and_self]
      | schedule now =>
          rcases schedule_cases startDate (runTrace startDate trace) now with
            ⟨interval, _, _, created⟩ | ⟨_, same⟩
          · simp [created] at empty
          · rw [same] at empty ⊢
            rw [last_parse_schedule]
            exact ih empty

theorem elapses_parse (trace : List Tick) (now : Int) :
    DayElapses startDate (trace ++ [.parse now]) ↔ DayElapses startDate trace := by
  simp [DayElapses, List.prefix_concat_iff]

theorem elapses_schedule (trace : List Tick) (now : Int) :
    DayElapses startDate (trace ++ [.schedule now]) ↔ DayElapses startDate trace ∨
      ∃ parsed, lastParse trace = some parsed ∧
        createAfter (midnightFrom (startDate parsed)) ≤ now := by
  constructor
  · rintro ⟨before, time, parsed, early, last, due⟩
    rcases List.prefix_concat_iff.mp early with whole | inside
    · obtain ⟨same, tick⟩ := List.append_inj' whole rfl
      cases tick
      exact Or.inr ⟨parsed, same ▸ last, due⟩
    · exact Or.inl ⟨before, time, parsed, inside, last, due⟩
  · rintro (⟨before, time, parsed, inside, last, due⟩ | ⟨parsed, last, due⟩)
    · exact ⟨before, time, parsed, inside.trans (List.prefix_append _ _), last, due⟩
    · exact ⟨trace, now, parsed, List.prefix_refl _, last, due⟩

/-- The first run is created exactly when a day elapses without the stored
interval being replaced. -/
theorem first_run_iff (trace : List Tick) :
    (runTrace startDate trace).dagRuns ≠ [] ↔ DayElapses startDate trace := by
  induction trace using List.reverseRecOn with
  | nil => simp [runTrace, DayElapses]
  | append_singleton trace tick ih =>
      rw [run_snoc]
      cases tick with
      | parse now => rw [elapses_parse, ← ih]; rfl
      | schedule now =>
          rw [elapses_schedule, ← ih]
          by_cases empty : (runTrace startDate trace).dagRuns = []
          · obtain ⟨stored, _⟩ := stored_interval startDate trace empty
            rcases schedule_cases startDate (runTrace startDate trace) now with
              ⟨interval, found, due, created⟩ | ⟨early, same⟩
            · obtain ⟨parsed, last, rfl⟩ := Option.map_eq_some_iff.mp (stored ▸ found)
              simp only [created, empty, List.nil_append, ne_eq, List.cons_ne_self, not_false_eq_true,
                true_iff]
              exact Or.inr ⟨parsed, last, due⟩
            · rw [same]
              constructor
              · exact Or.inl
              · rintro (some | ⟨parsed, last, due⟩)
                · exact some
                · exact absurd due (early _ (by rw [stored, last, Option.map_some]))
          · have kept : (onTick startDate (runTrace startDate trace) (.schedule now)).dagRuns ≠ [] := by
              rcases schedule_cases startDate (runTrace startDate trace) now with
                ⟨interval, _, _, created⟩ | ⟨_, same⟩
              · simp [created]
              · rwa [same]
            exact ⟨fun _ => Or.inl empty, fun _ => kept⟩

end Schedule

/-- `start_date=datetime.now()`: the host's clock, which is `offset` ahead of UTC,
gives a time without a zone, and `default_timezone = utc` has it read as UTC. -/
def startDate (offset : Int → Int) (now : Int) : Int := now + offset now

/-- On a host of any zone, BreweryDAG gets an automated run exactly when some
scheduler tick comes behind the first UTC day that begins no earlier than the
host's local time at the latest parse before the tick. -/
theorem automated_run_iff (offset : Int → Int) (trace : List Tick) :
    (runTrace (startDate offset) trace).dagRuns ≠ [] ↔
      ∃ before now parsed, before ++ [.schedule now] <+: trace ∧ lastParse before = some parsed ∧
        midnightFrom (parsed + offset parsed) + dayLength ≤ now :=
  first_run_iff (startDate offset) trace

/-- While every tick comes less than a day after the start date of the latest parse
no automated run is created. -/
theorem attended_never_runs (offset : Int → Int) (trace : List Tick)
    (attended : ∀ before now parsed, before ++ [.schedule now] <+: trace →
      lastParse before = some parsed → now < parsed + offset parsed + dayLength) :
    (runTrace (startDate offset) trace).dagRuns = [] := by
  by_contra created
  obtain ⟨before, now, parsed, early, last, due⟩ :=
    (first_run_iff (startDate offset) trace).mp created
  have recent := attended before now parsed early last
  have ahead := (midnight_from (parsed + offset parsed)).1
  simp only [startDate, createAfter] at due
  omega

/-- A trace of three days or more, in order, that neither parses the file nor runs
the scheduler less than once a minute. -/
structure ThreeDays (trace : List Tick) : Prop where
  ordered : (trace.map Tick.time).Pairwise (· ≤ ·)
  spans : ∃ first ∈ trace, ∃ last ∈ trace, first.time + 3 * dayLength ≤ last.time
  parses : (trace.filterMap Tick.parsed).IsChain fun before after => after ≤ before + minuteLength
  schedules : (trace.filterMap Tick.scheduled).IsChain fun before after =>
    after ≤ before + minuteLength

/-- A parse and a scheduler tick at every full minute. -/
def minutely (count : Nat) : List Tick :=
  (List.range count).flatMap fun minute : Nat =>
    [.parse (minute * minuteLength), .schedule (minute * minuteLength)]

theorem minutely_succ (count : Nat) : minutely (count + 1) = minutely count ++
    [.parse (count * minuteLength)] ++ [.schedule (count * minuteLength)] := by
  simp [minutely, List.range_succ]

/-- Every tick comes at the time of the latest parse. -/
theorem minutely_attended (count : Nat) (before : List Tick) (now parsed : Int)
    (early : before ++ [.schedule now] <+: minutely count) (last : lastParse before = some parsed) :
    now = parsed := by
  induction count with
  | zero => simp [minutely] at early
  | succ count ih =>
      rw [minutely_succ] at early
      rcases List.prefix_concat_iff.mp early with whole | inside
      · obtain ⟨same, tick⟩ := List.append_inj' whole rfl
        rw [same, last_parse_parse, Option.some.injEq] at last
        have time : now = count * minuteLength := by simpa using tick
        exact time.trans last
      · rcases List.prefix_concat_iff.mp inside with whole | earlier
        · have tick := (List.append_inj' whole rfl).2
          simp at tick
        · exact ih earlier

theorem minutely_gaps (count : Nat) :
    ((List.range count).flatMap fun minute : Nat => [(minute : Int) * minuteLength]).IsChain
      fun before after => after ≤ before + minuteLength := by
  rw [← List.map_eq_flatMap, List.isChain_map, List.isChain_range]
  intro minute _
  rw [Nat.succ_eq_add_one, Nat.cast_succ, Int.add_mul, Int.one_mul]

theorem minutely_three_days (count : Nat) (long : 4320 < count) : ThreeDays (minutely count) := by
  constructor
  · rw [minutely, List.map_flatMap, List.pairwise_flatMap]
    refine ⟨fun minute _ => by simp [Tick.time], List.pairwise_lt_range.imp fun order => ?_⟩
    simp only [List.map_cons, List.map_nil, Tick.time, List.mem_cons, List.not_mem_nil, or_false,
      or_self]
    rintro _ rfl _ rfl
    exact Int.mul_le_mul_of_nonneg_right (by omega) (by decide)
  · have ticks (minute : Nat) (inside : minute < count) (tick : Tick)
        (same : tick = .parse (minute * minuteLength)) : tick ∈ minutely count :=
      List.mem_flatMap.mpr ⟨minute, List.mem_range.mpr inside, same ▸ List.mem_cons_self⟩
    exact ⟨_, ticks 0 (by omega) _ rfl, _, ticks 4320 long _ rfl, by decide⟩
  · rw [minutely, List.filterMap_flatMap]
    exact minutely_gaps count
  · rw [minutely, List.filterMap_flatMap]
    exact minutely_gaps count

/-- With a parse and a scheduler tick every minute no day ever elapses, on no host
whose clock is less than a day behind UTC. -/
theorem minutely_creates_nothing :
    ¬ ∃ offset : Int → Int, (∀ now, -dayLength < offset now) ∧
      ∀ trace, ThreeDays trace → (runTrace (startDate offset) trace).dagRuns ≠ [] := by
  rintro ⟨offset, within, daily⟩
  apply daily (minutely 4321) (minutely_three_days 4321 (by decide))
  apply attended_never_runs offset
  intro before now parsed early last
  have same := minutely_attended 4321 before now parsed early last
  have near := within parsed
  omega

end Brewery
