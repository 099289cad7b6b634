import BreweryPipeline.Aggregation

/-!
What a call of `aggregated_layer` publishes when one of its jobs fails. The job
that writes the result raises, and so does the schema check. The job that
collects the latest date runs inside the catch-all handler, which goes on with
an empty frame.
-/

namespace Brewery

open Support.FileStore Support.Grouping

section Table
variable {Date Key : Type} [LinearOrder Date] [LinearOrder Key]

/-- The partition holds the counts of the rows of one date. -/
def HoldsCounts (table : SilverTable Date) (day : Date) (gold : Store Key (List GoldRow))
    (processDate : Key) : Prop :=
  ∃ rows, gold[processDate]? = some rows ∧
    CountsOf ((rowsOf table.rows day).map SilverRow.key) rows

theorem no_counts_of_latest (table : SilverTable Date) (top : Date)
    (isLatest : LatestDate table.rows top) :
    ¬ CountsOf ((rowsOf table.rows top).map SilverRow.key)
      (getAggregate ([] : List (SilverRow Date))) := by
  intro counts
  have none : rowsOf table.rows top = [] := by simpa using counts.empty_iff.mp rfl
  obtain ⟨row, member, dated⟩ := List.mem_map.mp isLatest.1
  have chosen : row ∈ rowsOf table.rows top := List.mem_filter.mpr ⟨member, by simp [dated]⟩
  simp [none] at chosen

/-- A call raises or publishes the counts of the latest date, unless the job for
that date fails while the schema is accepted and the result can be written. -/
theorem publishes_or_raises_iff (env : AggregateEnv) (table : SilverTable Date) (processDate : Key)
    (gold : Store Key (List GoldRow)) (top : Date) (isLatest : LatestDate table.rows top) :
    ((aggregatedLayer env (.ok table) processDate gold).1 = .ok () →
        HoldsCounts table top (aggregatedLayer env (.ok table) processDate gold).2 processDate) ↔
      ¬ (env.maxFails = true ∧ validateAggregationSchema table.columns = .ok () ∧
        env.writeFault = none) := by
  constructor
  · rintro publishes ⟨lost, valid, clean⟩
    rw [aggregated_layer_done env table processDate gold clean valid] at publishes
    obtain ⟨rows, written, counts⟩ := publishes rfl
    rw [insert_same, Option.some.injEq] at written
    have empty : filterByLatestExtractDate env.maxFails table.rows = [] := by
      simp [filterByLatestExtractDate, lost]
    rw [← written, empty] at counts
    exact no_counts_of_latest table top isLatest counts
  · intro collected returned
    obtain ⟨valid, clean, written⟩ := aggregated_layer_ok env table processDate gold returned
    have found : env.maxFails = false := by
      by_contra lost
      exact collected ⟨by simpa using lost, valid, clean⟩
    refine ⟨_, by rw [written]; exact insert_same _ _ _, ?_⟩
    rw [found, filter_latest table.rows top isLatest]
    exact get_aggregate_counts _

end Table

/-- One brewery, processed on day 3. -/
def oneRow : SilverTable Int where
  columns := ["brewery_type", "country", "process_date"]
  rows := [⟨[("brewery_type", .str "micro"), ("country", .str "Ireland")], some 3⟩]

theorem one_row_latest : LatestDate oneRow.rows 3 := by simp [LatestDate, oneRow]

/-- Only the job for the maximum date fails. -/
def lostMaximum : AggregateEnv := ⟨0, false, true, none⟩

theorem publishes_or_raises_one_row :
    ((aggregatedLayer lostMaximum (.ok oneRow) (3 : Int) ∅).1 = .ok () →
        HoldsCounts oneRow 3 (aggregatedLayer lostMaximum (.ok oneRow) (3 : Int) ∅).2 3) ↔
      ¬ (lostMaximum.maxFails = true ∧ validateAggregationSchema oneRow.columns = .ok () ∧
        lostMaximum.writeFault = none) :=
  publishes_or_raises_iff lostMaximum oneRow 3 ∅ 3 one_row_latest

/-- The call returns and the partition of day 3 is empty. -/
theorem failed_maximum_publishes_nothing :
    ¬ ∀ (env : AggregateEnv) (table : SilverTable Int) (processDate top : Int)
      (gold : Store Int (List GoldRow)), LatestDate table.rows top →
      (aggregatedLayer env (.ok table) processDate gold).1 = .ok () →
      HoldsCounts table top (aggregatedLayer env (.ok table) processDate gold).2 processDate := by
  intro publishes
  have valid : validateAggregationSchema oneRow.columns = .ok () := by decide
  have done := aggregated_layer_done lostMaximum oneRow (3 : Int) ∅ rfl valid
  obtain ⟨rows, written, counts⟩ :=
    publishes lostMaximum oneRow 3 3 ∅ one_row_latest (congrArg Prod.fst done)
  rw [done, insert_same, Option.some.injEq] at written
  exact no_counts_of_latest oneRow 3 one_row_latest (written ▸ counts)

end Brewery
