import BreweryPipeline.BreweryOperator
import BreweryPipeline.Pagination

/-!
The text format of a Bronze file, between two programs. Python writes a page of
objects as one JSON array and ends it with a line feed; Spark breaks the file at
LF, CR and CRLF and splices the array of a line into rows. Nothing that a string
holds can open or close a line, because the encoder escapes both terminators and
the reader knows no others.
-/

namespace Brewery

open Support.JsonText

/-- A server whose pages are the given ones. -/
def pagesServer (pages : List (List Record)) : Server := fun sent _ =>
  if sent = 0 then .ok (.json (.obj [("total", .int (perPage * pages.length : Nat))]))
  else .ok (.json (recordsPage (pages.getD (sent - 1) [])))

theorem pages_reply (pages : List (List Record)) (page : Nat) (first : 1 ≤ page) :
    pageReply "" (pagesServer pages) page = .ok (recordsPage (pages.getD (page - 1) [])) := by
  have later : page ≠ 0 := by omega
  simp [pageReply, pagesServer, later, Except.bind, Response.decode]

/-- Every list of non-empty pages, up to 2^48 of them, is one that the hook can return. -/
theorem hook_returns_pages (pages : List (List Record)) (full : ∀ page ∈ pages, page ≠ [])
    (size : pages.length ≤ 2 ^ 48) :
    runHook (.ok "") (pagesServer pages) = .ok (pages.map recordsPage) := by
  have count : pageCount (perPage * pages.length) = pages.length := by
    simp only [pageCount, perPage]
    omega
  have exact := total_pages_exact (perPage * pages.length) (by simp only [perPage, exactTotal]; omega)
  have reported := reported_exact totalPages "" (pagesServer pages) _ exact ⟨_, rfl, rfl⟩
  rw [count] at reported
  have entry (page : Nat) (first : 1 ≤ page) (last : page ≤ pages.length) :
      pages.getD (page - 1) [] ∈ pages := by
    rw [List.getD_eq_getElem pages [] (by omega)]
    exact List.getElem_mem _
  have returned := hook_all_pages "" (pagesServer pages) pages.length reported
    (fun page => recordsPage (pages.getD (page - 1) []))
    (fun page first last => ⟨pages_reply pages page first,
      (records_page_truthy _).mpr (full _ (entry page first last))⟩)
  rw [returned]
  congr 1
  apply List.ext_getElem
  · simp
  · intro index left right
    have inside : index < pages.length := by simpa using right
    simp [List.getElem?_eq_getElem inside]

/-- Whatever the strings of the records hold, a page is one line of the file, the
line parses to the page, and the rows read are the records written, in order. -/
theorem bronze_round_trip (env : ExtractEnv) (run : DagRun) (lake : Lake)
    (pages : List (List Record)) (reached : ReachesHook env) (clean : env.writeFault = none)
    (hook : runHook env.connection env.server = .ok (pages.map recordsPage)) :
    ∃ text, (execute env run lake).1 = .ok () ∧
      (execute env run lake).2.bronzeFile run = some text ∧
      (splitLines text).length = pages.length ∧
      (splitLines text).map parse = pages.map (some ∘ recordsPage) ∧
      (splitLines text).flatMap lineRecords = pages.flatten ∧
      textRecords text = pages.flatten := by
  have done := execute_done env run lake _ reached clean hook
  have lines := split_write_lines (pages.map recordsPage)
  have spliced (page : List Record) : lineRecords (dumps (recordsPage page)) = page :=
    value_records_array page
  refine ⟨writeLines (pages.map recordsPage), ?_, ?_, ?_, ?_, ?_, ?_⟩
  · rw [done]
  · rw [done, write_bronze_file]
  · rw [lines, List.length_map, List.length_map]
  · rw [parse_write_lines, List.map_map]
  · rw [lines, List.flatMap_map, List.flatMap_map]
    simp only [spliced, List.flatMap_id']
  · rw [text_records_written, List.flatMap_map]
    simp only [valueRecords, spliced, List.flatMap_id']

/-- A name with a character of every kind that ends a line somewhere. -/
def awkwardBrewery : Record := [("name", .str "a\n\r\"\\\x00\u0085\u2028\u2029")]

def pagesExtract (pages : List (List Record)) : ExtractEnv :=
  ⟨.ok (), .ok (), .ok "", pagesServer pages, none⟩

theorem bronze_round_trip_awkward :
    let env := pagesExtract [[awkwardBrewery, []], [awkwardBrewery]]
    ∃ text, (execute env ⟨1, 2⟩ emptyLake).1 = .ok () ∧
      (execute env ⟨1, 2⟩ emptyLake).2.bronzeFile ⟨1, 2⟩ = some text ∧
      (splitLines text).length = 2 ∧
      (splitLines text).map parse =
        [some (recordsPage [awkwardBrewery, []]), some (recordsPage [awkwardBrewery])] ∧
      (splitLines text).flatMap lineRecords = [awkwardBrewery, [], awkwardBrewery] ∧
      textRecords text = [awkwardBrewery, [], awkwardBrewery] :=
  bronze_round_trip _ ⟨1, 2⟩ emptyLake [[awkwardBrewery, []], [awkwardBrewery]] ⟨rfl, rfl⟩ rfl
    (hook_returns_pages _ (by simp) (by decide))

end Brewery
