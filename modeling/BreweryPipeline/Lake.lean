import BreweryPipeline.Support.JsonFrame
import BreweryPipeline.Support.FileStore

/-!
The data lake of airflow_pipeline/dags/brewery_dag.py. A Bronze directory is
named by `extract_date` and holds text files named by `ds`; a Silver or a Gold
partition is named by `process_date`. A Silver partition holds the Parquet files
written into it, a Gold partition the rows of its one file. A day is the number
of a calendar date, so the day after `day` is `day + 1`.
-/

namespace Brewery

open Support.JsonText Support.FileStore

abbrev Day := Int

/-- What makes a task attempt raise. -/
inductive Failure where
  | osError
  | connectionNotFound
  | httpError
  | timeout
  | jsonDecodeError
  | attributeError
  | typeError
  | overflowError
  | valueError (message : String) (missing : List String)
  | analysisException
  | sparkJob
  deriving DecidableEq

/-- A row `(brewery_type, country)` with its `count`. -/
abbrev GoldRow := (Option String × Option String) × Nat

structure Lake where
  bronze : Store Day (Store Day (List Char))
  silver : Store Day (List DataFrame)
  gold : Store Day (List GoldRow)

def emptyLake : Lake := ⟨∅, ∅, ∅⟩

/-- The template values of one DAG run: `{{ ds }}` and `{{ data_interval_end }}`. -/
structure DagRun where
  ds : Day
  data_interval_end : Day
  deriving DecidableEq

/-- `Bronze/brewery_data/extract_date={{ data_interval_end }}`. -/
def Lake.bronzeDirectory (lake : Lake) (extractDate : Day) : Store Day (List Char) :=
  (lake.bronze[extractDate]?).getD ∅

/-- `extract_date={{ data_interval_end }}/brewerydata_{{ ds_nodash }}.json`. -/
def Lake.bronzeFile (lake : Lake) (run : DagRun) : Option (List Char) :=
  (lake.bronzeDirectory run.data_interval_end)[run.ds]?

def Lake.makeDirectory (lake : Lake) (extractDate : Day) : Lake :=
  { lake with bronze := lake.bronze.insert extractDate (lake.bronzeDirectory extractDate) }

def Lake.writeBronze (lake : Lake) (run : DagRun) (text : List Char) : Lake :=
  let directory := (lake.bronzeDirectory run.data_interval_end).insert run.ds text
  { lake with bronze := lake.bronze.insert run.data_interval_end directory }

def Lake.withSilver (lake : Lake) (silver : Store Day (List DataFrame)) : Lake :=
  { lake with silver := silver }

def Lake.withGold (lake : Lake) (gold : Store Day (List GoldRow)) : Lake :=
  { lake with gold := gold }

/-- The files Spark reads when it is given a Bronze directory. -/
def Lake.bronzeTexts (lake : Lake) (extractDate : Day) : List (List Char) :=
  (lake.bronzeDirectory extractDate).toList.map Prod.snd

/-- A Bronze directory that holds no file but the run's own. -/
def Lake.Alone (lake : Lake) (run : DagRun) : Prop :=
  ∀ ds, ds ≠ run.ds → (lake.bronzeDirectory run.data_interval_end)[ds]? = none

/-- Two Bronze layers hold the same file under every name but one. -/
def SameBronzeElsewhere (run : DagRun) (before after : Lake) : Prop :=
  ∀ other : DagRun, other ≠ run → after.bronzeFile other = before.bronzeFile other

section Writes
variable (lake : Lake) (run : DagRun) (text : List Char)

@[simp] theorem write_bronze_silver : (lake.writeBronze run text).silver = lake.silver := rfl

@[simp] theorem write_bronze_gold : (lake.writeBronze run text).gold = lake.gold := rfl

@[simp] theorem make_directory_silver (day : Day) : (lake.makeDirectory day).silver = lake.silver := rfl

@[simp] theorem make_directory_gold (day : Day) : (lake.makeDirectory day).gold = lake.gold := rfl

@[simp] theorem with_silver_silver (silver : Store Day (List DataFrame)) :
    (lake.withSilver silver).silver = silver := rfl

@[simp] theorem with_silver_bronze (silver : Store Day (List DataFrame)) :
    (lake.withSilver silver).bronze = lake.bronze := rfl

@[simp] theorem with_silver_gold (silver : Store Day (List DataFrame)) :
    (lake.withSilver silver).gold = lake.gold := rfl

@[simp] theorem with_gold_gold (gold : Store Day (List GoldRow)) :
    (lake.withGold gold).gold = gold := rfl

@[simp] theorem with_gold_silver (gold : Store Day (List GoldRow)) :
    (lake.withGold gold).silver = lake.silver := rfl

@[simp] theorem with_gold_bronze (gold : Store Day (List GoldRow)) :
    (lake.withGold gold).bronze = lake.bronze := rfl

@[simp] theorem write_bronze_directory :
    (lake.writeBronze run text).bronzeDirectory run.data_interval_end =
      (lake.bronzeDirectory run.data_interval_end).insert run.ds text := by
  simp [Lake.bronzeDirectory, Lake.writeBronze]

theorem write_bronze_directory_other (day : Day) (differs : day ≠ run.data_interval_end) :
    (lake.writeBronze run text).bronzeDirectory day = lake.bronzeDirectory day := by
  simp [Lake.bronzeDirectory, Lake.writeBronze, insert_other _ _ _ _ differs]

@[simp] theorem make_directory_directory (made day : Day) :
    (lake.makeDirectory made).bronzeDirectory day = lake.bronzeDirectory day := by
  by_cases same : day = made
  · subst same
    simp [Lake.bronzeDirectory, Lake.makeDirectory]
  · simp [Lake.bronzeDirectory, Lake.makeDirectory, insert_other _ _ _ _ same]

@[simp] theorem make_directory_file (made : Day) (other : DagRun) :
    (lake.makeDirectory made).bronzeFile other = lake.bronzeFile other := by
  simp [Lake.bronzeFile]

@[simp] theorem write_bronze_file : (lake.writeBronze run text).bronzeFile run = some text := by
  simp [Lake.bronzeFile]

theorem write_bronze_elsewhere : SameBronzeElsewhere run lake (lake.writeBronze run text) := by
  intro other differs
  unfold Lake.bronzeFile
  by_cases day : other.data_interval_end = run.data_interval_end
  · have name : other.ds ≠ run.ds := by
      intro same
      cases other
      cases run
      simp_all
    rw [day, write_bronze_directory, insert_other _ _ _ _ name]
  · rw [write_bronze_directory_other _ _ _ _ day]

theorem write_bronze_again (first : List Char) :
    (lake.writeBronze run first).writeBronze run text = lake.writeBronze run text := by
  have directory := write_bronze_directory lake run first
  simp only [Lake.writeBronze, Lake.mk.injEq, and_self, and_true] at directory ⊢
  rw [directory, insert_insert, insert_insert]

theorem write_bronze_made : (lake.makeDirectory run.data_interval_end).writeBronze run text =
    lake.writeBronze run text := by
  have directory := make_directory_directory lake run.data_interval_end run.data_interval_end
  simp only [Lake.writeBronze, directory]
  simp only [Lake.makeDirectory, insert_insert]

theorem write_bronze_present (present : lake.bronzeFile run = some text) :
    lake.writeBronze run text = lake := by
  have directory : (lake.bronzeDirectory run.data_interval_end).insert run.ds text =
      lake.bronzeDirectory run.data_interval_end := insert_present _ _ _ present
  have found : lake.bronze[run.data_interval_end]? =
      some (lake.bronzeDirectory run.data_interval_end) := by
    cases there : lake.bronze[run.data_interval_end]? with
    | some files => simp [Lake.bronzeDirectory, there]
    | none => simp [Lake.bronzeFile, Lake.bronzeDirectory, there] at present
  simp only [Lake.writeBronze, directory, insert_present _ _ _ found]

theorem with_silver_present (day : Day) (files : List DataFrame)
    (present : lake.silver[day]? = some files) :
    lake.withSilver (lake.silver.insert day files) = lake := by
  simp only [Lake.withSilver, insert_present _ _ _ present]

theorem with_gold_present (day : Day) (rows : List GoldRow) (present : lake.gold[day]? = some rows) :
    lake.withGold (lake.gold.insert day rows) = lake := by
  simp only [Lake.withGold, insert_present _ _ _ present]

theorem empty_alone : emptyLake.Alone run := by
  intro ds _
  simp [emptyLake, Lake.bronzeDirectory]

theorem write_bronze_alone (alone : lake.Alone run) : (lake.writeBronze run text).Alone run := by
  intro ds differs
  rw [write_bronze_directory, insert_other _ _ _ _ differs, alone ds differs]

theorem bronze_texts_alone (alone : lake.Alone run) :
    (lake.writeBronze run text).bronzeTexts run.data_interval_end = [text] := by
  have entries := entries_single _ run.ds text (insert_same (lake.bronzeDirectory
    run.data_interval_end) run.ds text) fun ds differs => by
      rw [insert_other _ _ _ _ differs, alone ds differs]
  rw [Lake.bronzeTexts, write_bronze_directory, entries]
  rfl

end Writes

theorem SameBronzeElsewhere.refl (run : DagRun) (lake : Lake) : SameBronzeElsewhere run lake lake :=
  fun _ _ => rfl

theorem SameBronzeElsewhere.trans {run : DagRun} {a b c : Lake}
    (first : SameBronzeElsewhere run a b) (second : SameBronzeElsewhere run b c) :
    SameBronzeElsewhere run a c :=
  fun other differs => (second other differs).trans (first other differs)

/-! What a task may touch: the file or the partition of its own run, and nothing else. -/

structure OnlyBronze (run : DagRun) (before after : Lake) : Prop where
  bronze : SameBronzeElsewhere run before after
  silver : after.silver = before.silver
  gold : after.gold = before.gold

structure OnlySilver (run : DagRun) (before after : Lake) : Prop where
  bronze : after.bronze = before.bronze
  silver : ∀ day, day ≠ run.ds → after.silver[day]? = before.silver[day]?
  gold : after.gold = before.gold

structure OnlyGold (run : DagRun) (before after : Lake) : Prop where
  bronze : after.bronze = before.bronze
  silver : after.silver = before.silver
  gold : ∀ day, day ≠ run.ds → after.gold[day]? = before.gold[day]?

structure OnlyOwn (run : DagRun) (before after : Lake) : Prop where
  bronze : SameBronzeElsewhere run before after
  silver : ∀ day, day ≠ run.ds → after.silver[day]? = before.silver[day]?
  gold : ∀ day, day ≠ run.ds → after.gold[day]? = before.gold[day]?

section Frames
variable {run : DagRun} {a b c : Lake}

theorem OnlyBronze.refl (run : DagRun) (lake : Lake) : OnlyBronze run lake lake :=
  ⟨.refl run lake, rfl, rfl⟩

theorem OnlyBronze.trans (first : OnlyBronze run a b) (second : OnlyBronze run b c) :
    OnlyBronze run a c :=
  ⟨first.bronze.trans second.bronze, second.silver.trans first.silver,
    second.gold.trans first.gold⟩

theorem OnlySilver.refl (run : DagRun) (lake : Lake) : OnlySilver run lake lake :=
  ⟨rfl, fun _ _ => rfl, rfl⟩

theorem OnlySilver.trans (first : OnlySilver run a b) (second : OnlySilver run b c) :
    OnlySilver run a c where
  bronze := second.bronze.trans first.bronze
  silver := fun day differs => (second.silver day differs).trans (first.silver day differs)
  gold := second.gold.trans first.gold

theorem OnlyGold.refl (run : DagRun) (lake : Lake) : OnlyGold run lake lake :=
  ⟨rfl, rfl, fun _ _ => rfl⟩

theorem OnlyGold.trans (first : OnlyGold run a b) (second : OnlyGold run b c) : OnlyGold run a c where
  bronze := second.bronze.trans first.bronze
  silver := second.silver.trans first.silver
  gold := fun day differs => (second.gold day differs).trans (first.gold day differs)

theorem OnlyOwn.trans (first : OnlyOwn run a b) (second : OnlyOwn run b c) : OnlyOwn run a c where
  bronze := first.bronze.trans second.bronze
  silver := fun day differs => (second.silver day differs).trans (first.silver day differs)
  gold := fun day differs => (second.gold day differs).trans (first.gold day differs)

theorem same_bronze_file (same : b.bronze = a.bronze) (other : DagRun) :
    b.bronzeFile other = a.bronzeFile other := by
  simp only [Lake.bronzeFile, Lake.bronzeDirectory, same]

theorem OnlyBronze.own (only : OnlyBronze run a b) : OnlyOwn run a b :=
  ⟨only.bronze, fun _ _ => by rw [only.silver], fun _ _ => by rw [only.gold]⟩

theorem OnlySilver.own (only : OnlySilver run a b) : OnlyOwn run a b :=
  ⟨fun other _ => same_bronze_file only.bronze other, only.silver, fun _ _ => by rw [only.gold]⟩

theorem OnlyGold.own (only : OnlyGold run a b) : OnlyOwn run a b :=
  ⟨fun other _ => same_bronze_file only.bronze other, fun _ _ => by rw [only.silver], only.gold⟩

end Frames

end Brewery
