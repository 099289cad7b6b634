import BreweryPipeline.Conservation
import BreweryPipeline.ConcurrentEdits

/-!
From what the hook returns to what Gold counts, when the API is at fault: a page
that does not answer cuts the collection short, an edited source repeats and skips
records, and the counts of the run are those of its pages all the same.
-/

namespace Brewery

open Support.JsonText Support.FileStore Support.Grouping Support.Replay Support.Paging

/-! A collection of which one page does not answer. -/

/-- The pages before `bad` hold the collection; page `bad` fails or is falsy. The
metadata may report another number of records than the collection has. -/
structure ServesBefore (baseUrl : String) (server : Server) (xs : List BreweryRecord) (bad : Nat) :
    Prop where
  counted : ∃ pages, reportedPages totalPages baseUrl server = .ok pages ∧ bad ≤ pages
  page : ∀ page, 1 ≤ page → page < bad → pageReply baseUrl server page = .ok (pageBody xs page)
  stops : ¬ Answers (pageReply baseUrl server) bad

theorem hook_serves_before (xs : List BreweryRecord) (baseUrl : String) (server : Server) (bad : Nat)
    (serves : ServesBefore baseUrl server xs bad) (first : 1 ≤ bad)
    (last : bad ≤ pageCount xs.length) (nonempty : xs ≠ []) :
    runHook (.ok baseUrl) server = .ok ((List.range' 1 (bad - 1)).map (pageBody xs)) := by
  obtain ⟨pages, reported, within⟩ := serves.counted
  have again : bad - 1 + 1 = bad := by omega
  exact (paginate_first_pages totalPages baseUrl server pages reported (pageBody xs) (bad - 1) (by omega)
    (fun page low high => ⟨serves.page page low (by omega),
      page_body_full xs page (by omega) nonempty⟩) (Or.inr (again.symm ▸ serves.stops))).1

/-- A run over a collection whose page `bad` is the first that does not answer
succeeds and publishes the counts of the records before that page, unless it is
the first page: then the run fails and Silver and Gold are as they were. -/
theorem truncated_collection (xs : List BreweryRecord) (nonempty : xs ≠ []) (lake : Lake) (run : DagRun)
    (baseUrl : String) (bad : Nat) (e : ExtractEnv) (t : TransformEnv) (a : AggregateEnv)
    (first : 1 ≤ bad) (last : bad ≤ pageCount xs.length) (connected : e.connection = .ok baseUrl)
    (serves : ServesBefore baseUrl e.server xs bad) (undisturbed : Undisturbed e t a)
    (alone : lake.Alone run) (silver : ValidSilver lake)
    (newest : ∀ day, run.ds < day → lake.silver[day]? = none) :
    let outcome := runTasks ⟨[e], [t], [a]⟩ run lake
    (bad = 1 → outcome.1 = false ∧ outcome.2.silver = lake.silver ∧ outcome.2.gold = lake.gold) ∧
    (1 < bad → outcome.1 = true ∧ ∃ rows, outcome.2.gold[run.ds]? = some rows ∧
      CountsOf ((xs.take (perPage * (bad - 1))).map BreweryRecord.pair) rows ∧
      (rows.map Prod.snd).sum = perPage * (bad - 1)) := by
  intro outcome
  have hook := hook_serves_before xs baseUrl e.server bad serves first last nonempty
  rw [← connected] at hook
  constructor
  · rintro rfl
    exact run_refuses run lake e t a undisturbed alone hook
  · intro later
    have inside : perPage * (bad - 1) < xs.length := by
      simp only [perPage, pageCount] at last ⊢
      omega
    have kept : xs.take (perPage * (bad - 1)) ≠ [] := by
      apply List.ne_nil_of_length_pos
      simp only [List.length_take, perPage] at inside ⊢
      omega
    have records := first_pages_records xs (bad - 1)
    obtain ⟨final, rows, ran, written, counts⟩ := run_publishes run lake e t a _ undisturbed alone
      hook (records ▸ collection_valid _ kept) silver newest
    rw [records, record_keys] at counts
    simp only [outcome, ran, true_and]
    refine ⟨rows, written, counts, ?_⟩
    rw [counts.total, List.length_map, List.length_take]
    omega

/-- Fifty-one records of which the second page fails. -/
def halfServer : Server := fun sent _ =>
  match sent with
  | 0 => .ok (.json (.obj [("total", .int 51)]))
  | 1 => .ok (.json (pageBody (List.replicate 51 sampleRecord) 1))
  | _ => .error .httpError

def halfExtract : ExtractEnv := ⟨.ok (), .ok (), .ok "", halfServer, none⟩

theorem half_serves : ServesBefore "" halfServer (List.replicate 51 sampleRecord) 2 := by
  constructor
  · have exact := total_pages_exact 51 (by decide)
    exact ⟨pageCount 51, reported_exact totalPages "" halfServer 51 exact
      ⟨[("total", .int 51)], rfl, rfl⟩, by decide⟩
  · intro page low high
    obtain rfl : page = 1 := by omega
    simp only [pageReply, halfServer, Except.bind, Response.decode]
  · rintro ⟨body, reply, _⟩
    simp [pageReply, halfServer, Except.bind] at reply

theorem half_undisturbed : Undisturbed halfExtract calmTransform calmAggregate :=
  ⟨⟨rfl, rfl⟩, rfl, rfl, rfl, rfl, rfl, rfl⟩

theorem half_published :
    let outcome := runTasks ⟨[halfExtract], [calmTransform], [calmAggregate]⟩ ⟨1, 2⟩ emptyLake
    outcome.1 = true ∧ ∃ rows, outcome.2.gold[(⟨1, 2⟩ : DagRun).ds]? = some rows ∧
      CountsOf (((List.replicate 51 sampleRecord).take (perPage * (2 - 1))).map BreweryRecord.pair)
        rows ∧ (rows.map Prod.snd).sum = perPage * (2 - 1) := by
  have fits : 2 ≤ pageCount (List.replicate 51 sampleRecord).length := by
    rw [List.length_replicate]
    decide
  exact (truncated_collection (List.replicate 51 sampleRecord) (by simp) emptyLake ⟨1, 2⟩ "" 2
    halfExtract calmTransform calmAggregate (by decide) fits rfl half_serves half_undisturbed
    (empty_alone ⟨1, 2⟩) (empty_valid emptyLake rfl) (fun day _ => by simp [emptyLake])).2 (by decide)

/-! A collection that is edited while it is read. -/
section Edited
variable {Item : Type} [LinearOrder Item] (records : Item → BreweryRecord) (baseUrl : String)
  (server : Server) (items : Nat → Finset Item)

def editedFields (item : Item) : Record := (records item).fields

theorem slices_records (count : Nat) :
    ((slicesOf items count).map fun page => recordsPage (page.map (editedFields records))).flatMap
      valueRecords = ((slicesOf items count).flatten.map records).map BreweryRecord.fields := by
  simp only [List.flatMap_map, recordsPage, value_records_array]
  rw [List.flatMap_def, List.map_flatten, List.map_flatten, List.map_map, List.map_congr_left]
  intro page _
  simp only [Function.comp_apply, List.map_map]
  rfl

theorem run_hook_paginate : runHook (.ok baseUrl) server = (paginate baseUrl ⟨server, []⟩).1 := rfl

theorem first_slice (nonempty : (items 1).Nonempty) :
    slice perPage (ascending (items 1)) (0 + 1) ≠ [] := by
  apply slice_ne_nil perPage _ _ (by decide)
  rw [ascending, Finset.length_sort]
  exact nonempty.card_pos

end Edited

/-- Gold counts an edited collection as it was read: every record that is there
from the first request to the last is counted once for each page that was its own
when it was asked for, so never, once or more often. -/
theorem edited_counts {Item : Type} [LinearOrder Item] (records : Item → BreweryRecord)
    (items : Nat → Finset Item) (lake : Lake) (run : DagRun) (baseUrl : String) (e : ExtractEnv)
    (t : TransformEnv) (a : AggregateEnv) (connected : e.connection = .ok baseUrl)
    (serves : ServesEdited baseUrl e.server (editedFields records) items)
    (size : (items 0).card ≤ exactTotal) (reported : (items 0).Nonempty)
    (nonempty : (items 1).Nonempty) (undisturbed : Undisturbed e t a) (alone : lake.Alone run)
    (silver : ValidSilver lake) (newest : ∀ day, run.ds < day → lake.silver[day]? = none) :
    let outcome := runTasks ⟨[e], [t], [a]⟩ run lake
    let requests := pageRequests totalPages baseUrl e.server
    outcome.1 = true ∧ ∃ (read : List Item) (rows : List GoldRow),
      outcome.2.gold[run.ds]? = some rows ∧
      CountsOf (read.map fun item => (records item).pair) rows ∧
      ∀ item, (∀ request ≤ requests, item ∈ items request) →
        read.count item = timesMet items item requests := by
  intro outcome requests
  obtain ⟨kept, within, returned, asked, stops⟩ :=
    served_slices totalPages (editedFields records) baseUrl e.server items (total_pages_exact _ size)
      serves
  have read := slices_records records items kept
  have some : (slicesOf items kept).flatten.map records ≠ [] := by
    cases kept with
    | zero =>
        refine absurd (stops.resolve_left ?_) (first_slice items nonempty)
        have positive := reported.card_pos
        simp only [pageCount]
        omega
    | succ kept =>
        have first := first_slice items nonempty
        rw [slicesOf, List.range'_succ, List.map_cons, List.flatten_cons, List.map_append]
        simp only [ne_eq, List.append_eq_nil_iff, List.map_eq_nil_iff, not_and]
        exact fun gone => absurd gone first
  rw [← run_hook_paginate, ← connected] at returned
  obtain ⟨final, rows, ran, written, counts⟩ := run_publishes run lake e t a _ undisturbed alone
    returned (read ▸ collection_valid _ some) silver newest
  rw [read, record_keys, List.map_map] at counts
  simp only [outcome, ran, true_and]
  exact ⟨(slicesOf items kept).flatten, rows, written, counts, fun item present =>
    kept_count items item kept requests _ within asked stops present⟩

def shrinkingExtract : ExtractEnv :=
  ⟨.ok (), .ok (), .ok "", editedServer (editedFields fun _ : Nat => sampleRecord) shrinking, none⟩

/-- The first of fifty-one records is deleted between the two page requests. -/
theorem shrinking_counts :
    let outcome := runTasks ⟨[shrinkingExtract], [calmTransform], [calmAggregate]⟩ ⟨1, 2⟩ emptyLake
    let requests := pageRequests totalPages "" shrinkingExtract.server
    outcome.1 = true ∧ ∃ (read : List Nat) (rows : List GoldRow),
      outcome.2.gold[(⟨1, 2⟩ : DagRun).ds]? = some rows ∧
      CountsOf (read.map fun _ => sampleRecord.pair) rows ∧
      ∀ item, (∀ request ≤ requests, item ∈ shrinking request) →
        read.count item = timesMet shrinking item requests :=
  edited_counts (fun _ => sampleRecord) shrinking emptyLake ⟨1, 2⟩ "" shrinkingExtract calmTransform
    calmAggregate rfl (edited_server_serves _ shrinking "") shrinking_size
    ⟨1, shrinking_present 1 0 (by decide) (by decide)⟩
    ⟨1, shrinking_present 1 1 (by decide) (by decide)⟩ ⟨⟨rfl, rfl⟩, rfl, rfl, rfl, rfl, rfl, rfl⟩
    (empty_alone ⟨1, 2⟩) (empty_valid emptyLake rfl) fun day _ => by simp [emptyLake]

end Brewery
