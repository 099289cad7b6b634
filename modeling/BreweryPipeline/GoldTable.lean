import BreweryPipeline.Aggregation
import BreweryPipeline.Support.Calendar

/-!
What a Gold partition says about the Silver table, when no job of Spark fails.
Neither the order of the rows nor their partitions show in it. The latest date is
the latest by the calendar, whether the column holds dates or their texts.
-/

namespace Brewery

open Support.JsonText Support.FileStore Support.Grouping Support.Calendar

section Table
variable {Date : Type} [LinearOrder Date] (column : DateColumn Date)

/-- The rows that have a date no other row is dated after. -/
def latestRows (rows : List (SilverRow Date)) : List (SilverRow Date) :=
  rows.filter fun row => row.process_date.any fun date =>
    rows.all fun other => other.process_date.all fun day =>
      decide (column.calendar day ≤ column.calendar date)

theorem latest_rows_perm (left right : List (SilverRow Date)) (order : left.Perm right) :
    (latestRows column left).Perm (latestRows column right) := by
  have same : ∀ test : SilverRow Date → Bool, left.all test = right.all test := fun test => order.all_eq
  simp only [latestRows, same]
  exact order.filter _

theorem latest_rows_of_date (rows : List (SilverRow Date)) (top : Date)
    (isLatest : LatestDate rows top) : latestRows column rows = rowsOf rows top := by
  obtain ⟨⟨latest, present, dated⟩, bound⟩ := And.imp_left List.mem_map.mp isLatest
  apply List.filter_congr
  intro row member
  cases stored : row.process_date with
  | none => simp
  | some date =>
      rw [Option.any_some, Bool.eq_iff_iff, List.all_eq_true, decide_eq_true_eq, Option.some.injEq]
      constructor
      · intro highest
        have above := highest latest present
        rw [dated, Option.all_some, decide_eq_true_eq] at above
        have below := bound date (List.mem_map.mpr ⟨row, member, stored⟩)
        exact le_antisymm below (column.chronological.le_iff_le.mp above)
      · rintro rfl other inside
        cases written : other.process_date with
        | none => rfl
        | some day =>
            have below := bound day (List.mem_map.mpr ⟨other, inside, written⟩)
            rw [Option.all_some, decide_eq_true_eq]
            exact column.chronological.monotone below

theorem latest_rows_undated (rows : List (SilverRow Date))
    (undated : ∀ row ∈ rows, row.process_date = none) : latestRows column rows = [] := by
  rw [latestRows, List.filter_eq_nil_iff]
  intro row member
  simp [undated row member]

/-- Comparing the stored values finds the rows of the chronologically latest date. -/
theorem filter_latest_rows (rows : List (SilverRow Date)) :
    filterByLatestExtractDate false rows = latestRows column rows := by
  by_cases dated : ∃ day, some day ∈ rows.map SilverRow.process_date
  · obtain ⟨day, member⟩ := dated
    obtain ⟨top, isLatest⟩ := latest_date_exists rows day member
    rw [filter_latest rows top isLatest, latest_rows_of_date column rows top isLatest]
  · have undated (row : SilverRow Date) (member : row ∈ rows) : row.process_date = none := by
      cases date : row.process_date with
      | none => rfl
      | some day => exact absurd ⟨day, List.mem_map.mpr ⟨row, member, date⟩⟩ dated
    rw [latest_rows_undated column rows undated]
    exact filter_undated rows fun day member => dated ⟨day, member⟩

/-- The Gold partition counts the pairs of type and country among the rows of the
latest date, one row a pair, countries in descending order and null last. -/
theorem gold_counts_latest_rows {Key : Type} [LinearOrder Key] (env : AggregateEnv)
    (table : SilverTable Date) (partitions : List (List (SilverRow Date))) (processDate : Key)
    (gold : Store Key (List GoldRow)) (collected : env.maxFails = false)
    (published : env.writeFault = none)
    (columns : validateAggregationSchema table.columns = .ok ())
    (spread : table.rows.Perm partitions.flatten) :
    ∃ rows, aggregatedLayer env (.ok table) processDate gold =
        (.ok (), gold.insert processDate rows) ∧
      CountsOf ((latestRows column partitions.flatten).map SilverRow.key) rows ∧
      (rows.Pairwise fun left right => nullsLast left.1.2 right.1.2) ∧
      (rows.map Prod.snd).sum = (latestRows column partitions.flatten).length ∧
      ((∀ row ∈ partitions.flatten, row.process_date = none) → rows = []) := by
  have chosen := latest_rows_perm column _ _ spread
  have counts := (get_aggregate_counts (latestRows column table.rows)).keys_perm
    (chosen.map SilverRow.key).symm
  refine ⟨getAggregate (latestRows column table.rows), ?_, counts, get_aggregate_sorted _, ?_, ?_⟩
  · rw [aggregated_layer_done env table processDate gold published columns, collected,
      filter_latest_rows column]
  · rw [counts.total, List.length_map]
  · intro undated
    rw [counts.empty_iff, latest_rows_undated column _ undated, List.map_nil]

end Table

/-! A table whose dates are texts, in two partitions and without order. -/

def newYear : IsoDate := ⟨_, ⟨2024, 1, 1, by decide, by decide, by decide⟩, rfl⟩

def newYearsEve : IsoDate := ⟨_, ⟨2023, 12, 31, by decide, by decide, by decide⟩, rfl⟩

example : newYear.text = "2024-01-01" := by decide

def breweryRow (kind : String) (country : Json) (date : Option IsoDate) : SilverRow IsoDate :=
  ⟨[("brewery_type", .str kind), ("country", country)], date⟩

def turnOfYear : List (List (SilverRow IsoDate)) :=
  [[breweryRow "micro" .null (some newYear), breweryRow "large" (.str "Ireland") (some newYearsEve)],
    [breweryRow "micro" (.str "France") (some newYear), breweryRow "micro" .null none]]

def noLayer : Store Day (List GoldRow) := ∅

theorem gold_counts_turn_of_year :
    ∃ rows, aggregatedLayer ⟨0, false, false, none⟩
        (.ok ⟨aggregationColumns, turnOfYear.flatten.reverse⟩) 1 noLayer =
        (.ok (), noLayer.insert 1 rows) ∧
      CountsOf ((latestRows textColumn turnOfYear.flatten).map SilverRow.key) rows ∧
      (rows.Pairwise fun left right => nullsLast left.1.2 right.1.2) ∧
      (rows.map Prod.snd).sum = (latestRows textColumn turnOfYear.flatten).length ∧
      ((∀ row ∈ turnOfYear.flatten, row.process_date = none) → rows = []) :=
  gold_counts_latest_rows textColumn ⟨0, false, false, none⟩
    ⟨aggregationColumns, turnOfYear.flatten.reverse⟩ turnOfYear 1 noLayer rfl rfl (by decide)
    (List.reverse_perm _)

end Brewery
