import BreweryPipeline.BreweryDag
import BreweryPipeline.Pagination

/-!
Where the rows of a Silver partition come from. The hook drops falsy bodies and
the transform looks at the columns of the whole directory, so a row is an object
some body carries, whatever its keys, or the reader's corrupt row for a body that
is neither an object nor a list of objects.
-/

namespace Brewery

open Support.JsonText Support.FileStore

/-- What a frame read from files of JSON lines consists of: one row a record. A
line that holds an object or a list of objects gives these, any other line one
corrupt row alone, and every required column is carried by some object. -/
structure RowsFrom (texts : List (List Char)) (frame : DataFrame) : Prop where
  rows : frame.rows = (texts.flatMap textRecords).map (Record.row frame.columns)
  objects : ∀ text ∈ texts, ∀ line ∈ textLines text, ∀ value, parse line = some value →
    value.Tabular → lineRecords line = value.objects
  corrupt : ∀ text ∈ texts, ∀ line ∈ textLines text,
    (∀ value, parse line = some value → ¬ value.Tabular) → lineRecords line = [corruptRecord line]
  carried : ∀ column ∈ expectedColumns,
    ∃ text ∈ texts, ∃ record ∈ textObjects text, column ∈ record.keys

theorem read_json_rows (texts : List (List Char))
    (valid : validateSchema (readJson texts).columns = .ok ()) : RowsFrom texts (readJson texts) where
  rows := rfl
  objects := fun _ _ line _ => line_records_tabular line
  corrupt := fun _ _ line _ => line_records_corrupt line
  carried := fun column required => valid_frame_carries texts valid column required

/-- The pages are the bodies received before the first page that did not answer
with a truthy value, or all that the metadata counts. -/
def Received (env : ExtractEnv) (pages : List Json) : Prop :=
  ∃ baseUrl count, env.connection = .ok baseUrl ∧
    reportedPages totalPages baseUrl env.server = .ok count ∧
    LongestRun (pageReply baseUrl env.server) count pages.length ∧
    pages.map Except.ok = (List.range' 1 pages.length).map (pageReply baseUrl env.server)

theorem received_truthy (env : ExtractEnv) (pages : List Json) (received : Received env pages) :
    ∀ page ∈ pages, page.truthy = true := by
  obtain ⟨baseUrl, count, _, _, longest, replies⟩ := received
  intro page member
  have reply : Except.ok page ∈ pages.map (Except.ok : Json → Except Failure Json) :=
    List.mem_map_of_mem member
  rw [replies] at reply
  obtain ⟨number, inside, same⟩ := List.mem_map.mp reply
  obtain ⟨first, last⟩ := List.mem_range'_1.mp inside
  obtain ⟨body, answer, full⟩ := longest.answers number first (by omega)
  rwa [Except.ok.inj (same.symm.trans answer)]

/-- After an extraction and a transform that succeeded, the partition is read
from the directory as a whole. The lines of the run's own file are the truthy
bodies it received, each of which gives its objects or one corrupt row. -/
theorem silver_rows_source (e : ExtractEnv) (t : TransformEnv) (run : DagRun)
    (lake extracted final : Lake) (extract : execute e run lake = (.ok (), extracted))
    (transform : breweryTransformation t run extracted = (.ok (), final)) :
    ∃ pages frame, runHook e.connection e.server = .ok pages ∧ Received e pages ∧
      extracted.bronzeFile run = some (writeLines pages) ∧
      textRecords (writeLines pages) = pages.flatMap valueRecords ∧
      (∀ page ∈ pages, page.truthy = true ∧ (page.Tabular → valueRecords page = page.objects) ∧
        (¬ page.Tabular → valueRecords page = [corruptRecord (dumps page)])) ∧
      final.silver[run.ds]? = some [frame] ∧
      RowsFrom (extracted.bronzeTexts run.data_interval_end) frame := by
  obtain ⟨pages, hook, written⟩ := execute_succeeds e run lake extracted extract
  obtain ⟨valid, stored⟩ := transform_succeeds t run extracted final transform
  have received := hook_collects e.connection e.server pages hook
  refine ⟨pages, _, hook, received, ?_, text_records_written pages, ?_, ?_, read_json_rows _ valid⟩
  · rw [written, write_bronze_file]
  · exact fun page member => ⟨received_truthy e pages received page member,
      value_records_tabular page, value_records_corrupt page⟩
  · rw [stored, with_silver_silver, insert_same]

/-! One complete brewery, and an object with nothing but an id behind it. -/

def incomplete : Record := [("id", .str "x")]

def mixedPage : Json := .arr ([sampleBrewery "micro", incomplete].map Json.obj)

def mixedExtract : ExtractEnv := ⟨.ok (), .ok (), .ok "", onePageServer mixedPage, none⟩

def mixedFrame : DataFrame := .ofRecords [sampleBrewery "micro", incomplete]

theorem mixed_page_records : [mixedPage].flatMap valueRecords = [sampleBrewery "micro", incomplete] := by
  rw [List.flatMap_singleton, mixedPage, value_records_array]

theorem mixed_steps : ∃ extracted final,
    execute mixedExtract ⟨1, 2⟩ emptyLake = (.ok (), extracted) ∧
      breweryTransformation calmTransform ⟨1, 2⟩ extracted = (.ok (), final) ∧
      extracted.bronzeTexts 2 = [writeLines [mixedPage]] ∧
      final.silver[(1 : Day)]? = some [mixedFrame] := by
  have valid : validateSchema mixedFrame.columns = .ok () := by
    rw [validate_schema_ok_iff]
    intro column required
    exact (mem_columns _ column).mpr
      ⟨sampleBrewery "micro", List.mem_cons_self, (sample_keys "micro").symm ▸ required⟩
  rw [mixedFrame, ← mixed_page_records] at valid
  have transform := transform_alone calmTransform ⟨1, 2⟩ emptyLake [mixedPage]
    (empty_alone ⟨1, 2⟩) rfl rfl valid
  refine ⟨_, _, execute_done mixedExtract ⟨1, 2⟩ emptyLake [mixedPage] ⟨rfl, rfl⟩ rfl
    (one_page_hook mixedPage rfl), transform, bronze_texts_alone _ _ _ (empty_alone ⟨1, 2⟩), ?_⟩
  rw [with_silver_silver, insert_same, mixed_page_records, mixedFrame]

theorem silver_rows_mixed :
    ∃ pages frame, Received mixedExtract pages ∧ (∀ page ∈ pages, page.truthy = true) ∧
      RowsFrom [writeLines [mixedPage]] frame := by
  obtain ⟨extracted, final, extract, transform, texts, _⟩ := mixed_steps
  obtain ⟨pages, frame, _, received, _, _, kept, _, rows⟩ := silver_rows_source mixedExtract
    calmTransform ⟨1, 2⟩ emptyLake extracted final extract transform
  exact ⟨pages, frame, received, fun page member => (kept page member).1, texts ▸ rows⟩

/-- The second object lacks fifteen fields and is a row of Silver. -/
theorem incomplete_object_reaches_silver :
    ¬ ∀ (e : ExtractEnv) (t : TransformEnv) (run : DagRun) (lake extracted final : Lake),
      execute e run lake = (.ok (), extracted) →
      breweryTransformation t run extracted = (.ok (), final) →
      ∃ frame, final.silver[run.ds]? = some [frame] ∧ ∀ row ∈ frame.rows,
        ∃ text ∈ extracted.bronzeTexts run.data_interval_end, ∃ record ∈ textObjects text,
          (∀ column ∈ expectedColumns, column ∈ record.keys) ∧
          row = Record.row frame.columns record := by
  intro only
  obtain ⟨extracted, final, extract, transform, texts, stored⟩ := mixed_steps
  obtain ⟨frame, present, rows⟩ := only mixedExtract calmTransform ⟨1, 2⟩ emptyLake extracted final
    extract transform
  rw [stored, Option.some.injEq, List.singleton_inj] at present
  subst present
  have member : Record.row mixedFrame.columns incomplete ∈ mixedFrame.rows := by
    simp [mixedFrame, DataFrame.ofRecords]
  obtain ⟨text, file, record, object, complete, same⟩ := rows _ member
  rw [texts, List.mem_singleton] at file
  subst file
  have objects : textObjects (writeLines [mixedPage]) = [sampleBrewery "micro", incomplete] := by
    rw [text_objects_written]
    rfl
  rw [objects, List.mem_pair] at object
  rcases object with first | second
  · -- The row shows the id of the second object, and the first has none.
    have column : "id" ∈ mixedFrame.columns :=
      (mem_columns _ "id").mpr ⟨incomplete, by simp, by decide⟩
    have cells := List.map_inj_left.mp same "id" column
    rw [first] at cells
    simp [incomplete, sampleBrewery, Record.cell, expectedColumns, List.lookup] at cells
  · have named := complete "name" (by decide)
    rw [second] at named
    exact absurd named (by decide)

end Brewery
