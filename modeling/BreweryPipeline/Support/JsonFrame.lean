import BreweryPipeline.Support.JsonLines

/-!
A data frame read from files of JSON lines without a given schema. A top-level
array gives one row an element, a single object one row, and the columns are the
union of the keys. In permissive mode a line that is neither gives one row whose
text stands in `_corrupt_record` and whose other cells are null. A missing key
reads as null. Column types are not kept: a cell is the JSON value read.
-/

namespace Support.JsonText

abbrev Record := List (String × Json)

def Record.keys (record : Record) : List String := record.map Prod.fst

def Record.cell (record : Record) (column : String) : Json :=
  (record.lookup column).getD .null

/-- A named column list and rows of exactly that width. -/
structure DataFrame where
  columns : List String
  distinct : columns.Nodup
  rows : List (List Json)
  aligned : ∀ row ∈ rows, row.length = columns.length

def Record.row (columns : List String) (record : Record) : List Json := columns.map record.cell

def DataFrame.ofRecords (records : List Record) : DataFrame where
  columns := (records.flatMap Record.keys).dedup
  distinct := List.nodup_dedup _
  rows := records.map (Record.row (records.flatMap Record.keys).dedup)
  aligned := by
    intro row member
    obtain ⟨record, _, same⟩ := List.mem_map.mp member
    simp [← same, Record.row]

/-- The rows as records over the frame's own columns. -/
def DataFrame.records (frame : DataFrame) : List Record :=
  frame.rows.map fun row => frame.columns.zip row

def DataFrame.take (frame : DataFrame) (count : Nat) : DataFrame where
  columns := frame.columns
  distinct := frame.distinct
  rows := frame.rows.take count
  aligned := fun row member => frame.aligned row (List.mem_of_mem_take member)

@[simp] theorem take_columns (frame : DataFrame) (count : Nat) :
    (frame.take count).columns = frame.columns := rfl

theorem mem_columns (records : List Record) (column : String) :
    column ∈ (DataFrame.ofRecords records).columns ↔ ∃ record ∈ records, column ∈ record.keys := by
  simp [DataFrame.ofRecords]

theorem cell_absent (record : Record) (column : String) (absent : column ∉ record.keys) :
    record.cell column = .null := by
  have none : record.lookup column = none := by
    apply List.lookup_eq_none_iff.mpr
    intro field member
    have differs : column ≠ field.1 := fun same => absent (List.mem_map.mpr ⟨field, member, same.symm⟩)
    simpa using differs
  simp [Record.cell, none]

theorem cell_zip (columns : List String) (value : String → Json) (column : String) :
    Record.cell (columns.zip (columns.map value)) column =
      if column ∈ columns then value column else .null := by
  unfold Record.cell
  induction columns with
  | nil => rfl
  | cons head tail ih =>
      by_cases same : column = head
      · simp [same]
      · have differs : (column == head) = false := by simpa using same
        simp only [List.map_cons, List.zip_cons_cons, List.lookup, differs, List.mem_cons, same,
          false_or]
        exact ih

/-- A record cut to the columns of a frame. -/
def Record.project (columns : List String) (record : Record) : Record :=
  columns.zip (columns.map record.cell)

theorem of_records_records (records : List Record) :
    (DataFrame.ofRecords records).records =
      records.map (Record.project (DataFrame.ofRecords records).columns) := by
  simp [DataFrame.records, DataFrame.ofRecords, List.map_map, Function.comp_def, Record.row,
    Record.project]

/-- Reading a written row back by column name gives the record's own cell,
whichever columns the other records added. -/
theorem project_cell (records : List Record) (record : Record) (member : record ∈ records)
    (column : String) :
    (record.project (DataFrame.ofRecords records).columns).cell column = record.cell column := by
  rw [Record.project, cell_zip]
  split
  · rfl
  · rename_i absent
    refine (cell_absent record column fun key => absent ?_).symm
    exact (mem_columns records column).mpr ⟨record, member, key⟩

def corruptRecord (line : List Char) : Record :=
  [("_corrupt_record", .str (String.ofList line))]

/-- The rows one line gives. -/
def lineRecords (line : List Char) : List Record :=
  match parse line with
  | some (.obj fields) => [fields]
  | some (.arr items) =>
      match items.mapM Json.fields? with
      | some rows => rows
      | none => [corruptRecord line]
  | _ => [corruptRecord line]

/-- Every top-level object of a value, also one inside an array that is not all objects. -/
def Json.objects : Json → List Record
  | .obj fields => [fields]
  | .arr items => items.filterMap Json.fields?
  | _ => []

def lineObjects (line : List Char) : List Record := ((parse line).map Json.objects).getD []

def textLines (text : List Char) : List (List Char) :=
  (splitLines text).filter fun line => !line.all isSpace

def textRecords (text : List Char) : List Record := (textLines text).flatMap lineRecords

def textObjects (text : List Char) : List Record := (textLines text).flatMap lineObjects

def readJson (files : List (List Char)) : DataFrame :=
  .ofRecords (files.flatMap textRecords)

theorem map_fields_objects (rows : List Record) :
    (rows.map Json.obj).mapM Json.fields? = some rows := by
  rw [List.mapM_map]
  induction rows with
  | nil => rfl
  | cons row rest ih => simp [Json.fields?, List.mapM_cons, ih]

/-- An object or a list of objects: what the reader makes rows of. -/
def Json.Tabular : Json → Prop
  | .obj _ => True
  | .arr items => ∀ item ∈ items, ∃ fields, item = .obj fields
  | _ => False

theorem map_fields_tabular (items : List Json) (tabular : (Json.arr items).Tabular) :
    items.mapM Json.fields? = some (items.filterMap Json.fields?) := by
  induction items with
  | nil => rfl
  | cons item rest ih =>
      obtain ⟨head, tail⟩ := List.forall_mem_cons.mp tabular
      obtain ⟨fields, rfl⟩ := head
      simp [List.mapM_cons, Json.fields?, ih tail]

theorem map_fields_odd (items : List Json) (odd : ¬ (Json.arr items).Tabular) :
    items.mapM Json.fields? = none := by
  induction items with
  | nil => exact absurd (fun item member => absurd member List.not_mem_nil) odd
  | cons item rest ih =>
      cases item with
      | obj fields =>
          have later : ¬ (Json.arr rest).Tabular := fun table =>
            odd (List.forall_mem_cons.mpr ⟨⟨fields, rfl⟩, table⟩)
          simp [List.mapM_cons, Json.fields?, ih later]
      | _ => simp [List.mapM_cons, Json.fields?]

/-- A line that holds an object or a list of objects gives these. -/
theorem line_records_tabular (line : List Char) (value : Json) (read : parse line = some value)
    (tabular : value.Tabular) : lineRecords line = value.objects := by
  cases value with
  | obj fields => simp only [lineRecords, read, Json.objects]
  | arr items => simp only [lineRecords, read, map_fields_tabular items tabular, Json.objects]
  | _ => exact absurd tabular id

/-- Any other line gives the permissive mode's corrupt row alone. -/
theorem line_records_corrupt (line : List Char)
    (odd : ∀ value, parse line = some value → ¬ value.Tabular) :
    lineRecords line = [corruptRecord line] := by
  cases read : parse line with
  | none => simp only [lineRecords, read]
  | some value =>
      have refused := odd value read
      cases value with
      | obj fields => exact absurd trivial refused
      | arr items => simp only [lineRecords, read, map_fields_odd items refused]
      | _ => simp only [lineRecords, read]

theorem line_records_cases (line : List Char) :
    lineRecords line = lineObjects line ∨ lineRecords line = [corruptRecord line] := by
  by_cases table : ∃ value, parse line = some value ∧ value.Tabular
  · obtain ⟨value, read, tabular⟩ := table
    left
    rw [line_records_tabular line value read tabular, lineObjects, read]
    rfl
  · exact Or.inr (line_records_corrupt line fun value read tabular => table ⟨value, read, tabular⟩)

theorem line_records_source (line : List Char) (record : Record)
    (member : record ∈ lineRecords line) :
    record ∈ lineObjects line ∨ record = corruptRecord line := by
  rcases line_records_cases line with objects | corrupt
  · exact Or.inl (objects ▸ member)
  · rw [corrupt] at member
    exact Or.inr (List.mem_singleton.mp member)

theorem text_records_source (text : List Char) (record : Record)
    (member : record ∈ textRecords text) :
    record ∈ textObjects text ∨ ∃ line ∈ textLines text, record = corruptRecord line := by
  obtain ⟨line, present, inside⟩ := List.mem_flatMap.mp member
  rcases line_records_source line record inside with object | corrupt
  · exact Or.inl (List.mem_flatMap.mpr ⟨line, present, object⟩)
  · exact Or.inr ⟨line, present, corrupt⟩

/-- No column of the frame has another source than an object of some file or
the permissive mode's own column. -/
theorem read_json_columns (files : List (List Char)) (column : String)
    (member : column ∈ (readJson files).columns) (ordinary : column ≠ "_corrupt_record") :
    ∃ text ∈ files, ∃ record ∈ textObjects text, column ∈ record.keys := by
  obtain ⟨record, present, key⟩ := (mem_columns _ column).mp member
  obtain ⟨text, file, inside⟩ := List.mem_flatMap.mp present
  rcases text_records_source text record inside with object | ⟨line, _, corrupt⟩
  · exact ⟨text, file, record, object, key⟩
  · rw [corrupt] at key
    exact absurd (by simpa [Record.keys, corruptRecord] using key) ordinary

/-! Text written one value a line. -/

/-- The rows the reader makes of one written value. -/
def valueRecords (value : Json) : List Record := lineRecords (dumps value)

theorem dumps_not_blank (value : Json) : (dumps value).all isSpace = false := by
  obtain ⟨char, rest, text, solid, _⟩ := dumps_head value
  simp [text, solid]

theorem text_lines_written (values : List Json) :
    textLines (writeLines values) = values.map dumps := by
  rw [textLines, split_write_lines, List.filter_eq_self]
  intro line member
  obtain ⟨value, _, same⟩ := List.mem_map.mp member
  simp [← same, dumps_not_blank]

theorem text_records_written (values : List Json) :
    textRecords (writeLines values) = values.flatMap valueRecords := by
  rw [textRecords, text_lines_written, List.flatMap_map]
  rfl

theorem text_objects_written (values : List Json) :
    textObjects (writeLines values) = values.flatMap Json.objects := by
  rw [textObjects, text_lines_written, List.flatMap_map]
  simp only [lineObjects, parse_dumps, Option.map_some, Option.getD_some]

theorem value_records_tabular (value : Json) (tabular : value.Tabular) :
    valueRecords value = value.objects :=
  line_records_tabular (dumps value) value (parse_dumps value) tabular

theorem value_records_corrupt (value : Json) (odd : ¬ value.Tabular) :
    valueRecords value = [corruptRecord (dumps value)] := by
  apply line_records_corrupt
  intro read parsed
  rwa [← Option.some.inj ((parse_dumps value).symm.trans parsed)]

theorem value_records_array (rows : List Record) :
    valueRecords (.arr (rows.map Json.obj)) = rows := by
  simp only [valueRecords, lineRecords, parse_dumps, map_fields_objects]

end Support.JsonText
