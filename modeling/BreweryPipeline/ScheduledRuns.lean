import BreweryPipeline.DailySchedule
import BreweryPipeline.GoldHistory

/-!
The runs the scheduler creates, and what the pipeline makes of them. Whatever
the file's start date is at each parse, and however parses and ticks alternate,
the intervals created are days apart and ascending, so automated runs never share
a Bronze directory or a partition.
-/

namespace Brewery

open Support.JsonText Support.FileStore Support.Grouping Support.Replay

section Trace
variable (startDate : Int → Int)

/-- The interval was created by a tick behind its end, and the latest parse before
that tick put the start date no later than its beginning. -/
def CreatedInTime (trace : List Tick) (interval : Int) : Prop :=
  ∃ before now parsed, before ++ [.schedule now] <+: trace ∧ lastParse before = some parsed ∧
    startDate parsed ≤ interval ∧ createAfter interval ≤ now

structure Scheduled (trace : List Tick) (model : DagModel) : Prop where
  midnight : ∀ interval, model.nextDagrun = some interval → dayLength ∣ interval
  started : ∀ interval, model.nextDagrun = some interval →
    ∃ parsed, lastParse trace = some parsed ∧ startDate parsed ≤ interval
  behind : ∀ interval ∈ model.dagRuns, ∃ lastEnd, model.lastAutomatedEnd = some lastEnd ∧
    createAfter interval ≤ lastEnd
  ahead : ∀ interval lastEnd, model.nextDagrun = some interval →
    model.lastAutomatedEnd = some lastEnd → lastEnd ≤ interval
  ascending : model.dagRuns.Pairwise fun earlier later => createAfter earlier ≤ later
  created : ∀ interval ∈ model.dagRuns, dayLength ∣ interval ∧ CreatedInTime startDate trace interval

theorem next_interval_bounds (start : Int) (lastEnd : Option Int) :
    dayLength ∣ nextInterval start lastEnd ∧ start ≤ nextInterval start lastEnd ∧
      ∀ last, lastEnd = some last → last ≤ nextInterval start lastEnd := by
  obtain ⟨lower, _, midnight⟩ := midnight_from (max start (lastEnd.getD start))
  refine ⟨midnight, (le_max_left _ _).trans lower, ?_⟩
  rintro last rfl
  exact (le_max_right _ _).trans lower

theorem CreatedInTime.later {trace : List Tick} {interval : Int}
    (created : CreatedInTime startDate trace interval) (tick : Tick) :
    CreatedInTime startDate (trace ++ [tick]) interval := by
  obtain ⟨before, now, parsed, early, last, started, due⟩ := created
  exact ⟨before, now, parsed, early.trans (List.prefix_append _ _), last, started, due⟩

theorem scheduled_parse (trace : List Tick) (model : DagModel) (now : Int)
    (scheduled : Scheduled startDate trace model) :
    Scheduled startDate (trace ++ [.parse now]) (onTick startDate model (.parse now)) := by
  obtain ⟨midnight, start, behindLast⟩ := next_interval_bounds (startDate now) model.lastAutomatedEnd
  constructor
  · rintro interval ⟨⟩
    exact midnight
  · rintro interval ⟨⟩
    exact ⟨now, last_parse_parse trace now, start⟩
  · exact scheduled.behind
  · rintro interval lastEnd ⟨⟩ last
    exact behindLast lastEnd last
  · exact scheduled.ascending
  · exact fun interval member => (scheduled.created interval member).imp_right
      fun created => created.later startDate _

theorem scheduled_tick (trace : List Tick) (model : DagModel) (now : Int)
    (scheduled : Scheduled startDate trace model) :
    Scheduled startDate (trace ++ [.schedule now]) (onTick startDate model (.schedule now)) := by
  have kept : Scheduled startDate (trace ++ [.schedule now]) model := by
    refine ⟨scheduled.midnight, ?_, scheduled.behind, scheduled.ahead, scheduled.ascending, ?_⟩
    · simpa only [last_parse_schedule] using scheduled.started
    · exact fun interval member => (scheduled.created interval member).imp_right
        fun created => created.later startDate _
  cases stored : model.nextDagrun with
  | none => simpa only [onTick, stored] using kept
  | some interval =>
      by_cases due : createAfter interval ≤ now
      · obtain ⟨parsed, last, started⟩ := scheduled.started interval stored
        have midnight := scheduled.midnight interval stored
        have positive : 0 < dayLength := by decide
        simp only [onTick, stored, due, if_true]
        constructor
        · rintro next ⟨⟩
          exact Int.dvd_add midnight (dvd_refl dayLength)
        · rintro next ⟨⟩
          refine ⟨parsed, (last_parse_schedule trace now).trans last, ?_⟩
          simp only [createAfter]
          omega
        · intro created member
          refine ⟨createAfter interval, rfl, ?_⟩
          rcases List.mem_append.mp member with earlier | same
          · obtain ⟨lastEnd, found, bound⟩ := scheduled.behind created earlier
            have order := scheduled.ahead interval lastEnd stored found
            simp only [createAfter] at bound ⊢
            omega
          · rw [List.mem_singleton.mp same]
        · rintro next lastEnd ⟨⟩ ⟨⟩
          exact le_rfl
        · refine List.pairwise_append.mpr ⟨scheduled.ascending, List.pairwise_singleton _ _, ?_⟩
          intro created member other same
          obtain ⟨lastEnd, found, bound⟩ := scheduled.behind created member
          rw [List.mem_singleton.mp same]
          exact bound.trans (scheduled.ahead interval lastEnd stored found)
        · intro created member
          rcases List.mem_append.mp member with earlier | same
          · exact kept.created created earlier
          · obtain rfl := List.mem_singleton.mp same
            exact ⟨midnight, trace, now, parsed, List.prefix_refl _, last, started, due⟩
      · simpa only [onTick, stored, due, if_false] using kept

theorem run_scheduled (trace : List Tick) :
    Scheduled startDate trace (runTrace startDate trace) := by
  induction trace using List.reverseRecOn with
  | nil => constructor <;> simp [runTrace]
  | append_singleton trace tick ih =>
      rw [run_snoc]
      cases tick with
      | parse now => exact scheduled_parse startDate trace _ now ih
      | schedule now => exact scheduled_tick startDate trace _ now ih

/-- Whatever the start date is at each parse, the intervals created are whole days
in ascending order, no two overlap, and each was created by a tick after its end
and on the latest parse's start date or later. -/
theorem created_intervals (trace : List Tick) :
    (runTrace startDate trace).dagRuns.Pairwise (fun earlier later => createAfter earlier ≤ later) ∧
      ∀ interval ∈ (runTrace startDate trace).dagRuns,
        dayLength ∣ interval ∧ CreatedInTime startDate trace interval :=
  ⟨(run_scheduled startDate trace).ascending, (run_scheduled startDate trace).created⟩

/-- The template values of an automated run: `ds` is the date its interval begins on. -/
def automatedRun (interval : Int) : DagRun where
  ds := interval / dayLength
  data_interval_end := createAfter interval / dayLength

/-- The runs a trace creates, in the order of their creation. -/
def automatedRuns (trace : List Tick) (id : Fin (runTrace startDate trace).dagRuns.length) : DagRun :=
  automatedRun ((runTrace startDate trace).dagRuns.get id)

theorem automated_end (interval : Int) :
    (automatedRun interval).data_interval_end = (automatedRun interval).ds + 1 := by
  have next : (interval + dayLength) / dayLength = interval / dayLength + 1 := by
    simp only [dayLength]
    omega
  exact next

theorem automated_later (earlier later : Int) (apart : createAfter earlier ≤ later) :
    (automatedRun earlier).ds < (automatedRun later).ds := by
  have before : earlier / dayLength < later / dayLength := by
    simp only [createAfter, dayLength] at apart ⊢
    omega
  exact before

/-- Dates rise with the order of creation. -/
theorem automated_ascending (trace : List Tick) :
    StrictMono fun id => (automatedRuns startDate trace id).ds := by
  intro first second order
  apply automated_later
  exact List.pairwise_iff_get.mp (run_scheduled startDate trace).ascending first second order

theorem automated_separate (trace : List Tick) : SeparateRuns (automatedRuns startDate trace) := by
  have dates := (automated_ascending startDate trace).injective
  refine ⟨dates, fun first second same => dates ?_⟩
  have ends (id : Fin (runTrace startDate trace).dagRuns.length) :
      (automatedRuns startDate trace id).data_interval_end = (automatedRuns startDate trace id).ds + 1 :=
    automated_end _
  simp only [ends] at same
  exact add_right_cancel same

/-- In every history of the automated runs of any trace, each run past its
transform shows exactly its own extraction in Bronze and Silver, and the newest
run that took part has its own counts in Gold once it is complete. -/
theorem automated_history (trace : List Tick)
    (events : List (Event (Fin (runTrace startDate trace).dagRuns.length)))
    (state : System (Fin (runTrace startDate trace).dagRuns.length))
    (history : replay (step (automatedRuns startDate trace)) events (freshSystem _) = some state) :
    (∀ id, Task.transform.done (state.next id) = true →
      state.lake.bronzeFile (automatedRuns startDate trace id) = some (writeLines (state.extracted id)) ∧
      state.lake.silver[(automatedRuns startDate trace id).ds]? =
        some [DataFrame.ofRecords ((state.extracted id).flatMap valueRecords)]) ∧
    ∀ top, (∀ id, TakesPart events id → id ≤ top) →
      (∀ env, .attempt top (.aggregate env) ∈ events → env.maxFails = false) →
      state.next top = none →
      ∃ rows, state.lake.gold[(automatedRuns startDate trace top).ds]? = some rows ∧
        CountsOf (((state.extracted top).flatMap valueRecords).map recordKey) rows := by
  have separate := automated_separate startDate trace
  have alone (id) : emptyLake.Alone (automatedRuns startDate trace id) := empty_alone _
  have shown := silver_view _ separate events (freshSystem _) state (fun _ => rfl) alone history
  constructor
  · intro id transformed
    exact ⟨shown.own id (done_not_extract _ _ transformed), (shown.view id transformed).rows⟩
  · intro top newest collected
    apply gold_view _ top separate events (freshSystem _) state (fun _ => rfl) alone _
      (fun day _ => by simp [freshSystem, emptyLake]) collected history
    exact fun id part => (automated_ascending startDate trace).monotone (newest id part)

end Trace

/-- On a host that keeps UTC the file is parsed at a midnight and not again; two
days later two runs are there. -/
def unattended : List Tick := [.parse 0, .schedule dayLength, .schedule (2 * dayLength)]

theorem unattended_history : ∃ state,
    replay (step (automatedRuns (startDate fun _ => 0) unattended))
      [.attempt ⟨0, by decide⟩ (.extract (calmExtract "micro")),
        .attempt ⟨0, by decide⟩ (.transform calmTransform)] (freshSystem _) = some state ∧
      state.lake.silver[(0 : Day)]? =
        some [DataFrame.ofRecords ((state.extracted ⟨0, by decide⟩).flatMap valueRecords)] := by
  have history := sample_history (automatedRuns (startDate fun _ => 0) unattended) "micro" ⟨0, by decide⟩
    (freshSystem _) rfl (empty_alone _)
  exact ⟨_, history, ((automated_history (startDate fun _ => 0) unattended _ _ history).1 ⟨0, by decide⟩
    (by simp [Task.done])).2⟩

end Brewery
