import BreweryPipeline.BreweryHook

/-!
airflow_pipeline/operators/brewery_operator.py. The file is opened for writing,
and so emptied, before the hook is called; the pages are written one a line once
the hook has returned them all. A write that fails leaves the characters that
reached the file before it.
-/

namespace Brewery

open Support.JsonText

/-- What one attempt of `task_brewery` meets outside the operator. `writeFault`
is the number of characters that reach the file before a write or the final
flush fails. -/
structure ExtractEnv where
  createParentFolder : Except Failure Unit
  openFile : Except Failure Unit
  connection : Except Failure String
  server : Server
  writeFault : Option Nat

def pageLine (page : Json) : List Char := dumps page ++ ['\n']

/-- `for pg in ...: json.dump(pg, output_file); output_file.write("\n")`. -/
def writePages : Option Nat → List Json → List Char → Except Failure Unit × List Char
  | none, [], written => (.ok (), written)
  | some _, [], written => (.error .osError, written)
  | none, page :: rest, written => writePages none rest (written ++ pageLine page)
  | some room, page :: rest, written =>
      let line := pageLine page
      if room < line.length then (.error .osError, written ++ line.take room)
      else writePages (some (room - line.length)) rest (written ++ line)

def execute (env : ExtractEnv) (run : DagRun) (lake : Lake) : Except Failure Unit × Lake :=
  match env.createParentFolder with
  | .error failure => (.error failure, lake)
  | .ok () =>
      let lake := lake.makeDirectory run.data_interval_end
      match env.openFile with
      | .error failure => (.error failure, lake)
      | .ok () =>
          -- Mode "w" has emptied the file before the `for` statement calls the hook.
          let lake := lake.writeBronze run []
          match runHook env.connection env.server with
          | .error failure => (.error failure, lake)
          | .ok pages =>
              let (result, text) := writePages env.writeFault pages []
              (result, lake.writeBronze run text)

theorem write_pages_clean (pages : List Json) (written : List Char) :
    writePages none pages written = (.ok (), written ++ writeLines pages) := by
  induction pages generalizing written with
  | nil => simp [writePages, writeLines]
  | cons page rest ih => simp [writePages, ih, writeLines, pageLine]

theorem write_pages_fault (room : Nat) (pages : List Json) (written : List Char) :
    writePages (some room) pages written =
      (.error .osError, written ++ (writeLines pages).take room) := by
  induction pages generalizing room written with
  | nil => simp [writePages, writeLines]
  | cons page rest ih =>
      have split : writeLines (page :: rest) = pageLine page ++ writeLines rest := by
        simp [writeLines, pageLine]
      simp only [writePages, split]
      by_cases short : room < (pageLine page).length
      · rw [if_pos short, List.take_append_of_le_length (by omega)]
      · have whole : (pageLine page).take room = pageLine page :=
          List.take_of_length_le (Nat.not_lt.mp short)
        rw [if_neg short, ih, List.take_append, whole, List.append_assoc]

/-- An attempt whose surroundings let it reach the hook. -/
def ReachesHook (env : ExtractEnv) : Prop :=
  env.createParentFolder = .ok () ∧ env.openFile = .ok ()

/-- Everything an attempt can do. -/
inductive Executed (env : ExtractEnv) (run : DagRun) (lake : Lake) :
    Except Failure Unit × Lake → Prop where
  | noFolder (failure : Failure) (folder : env.createParentFolder = .error failure) :
      Executed env run lake (.error failure, lake)
  | notOpened (failure : Failure) (folder : env.createParentFolder = .ok ())
      (opened : env.openFile = .error failure) :
      Executed env run lake (.error failure, lake.makeDirectory run.data_interval_end)
  | hookRaised (failure : Failure) (reached : ReachesHook env)
      (hook : runHook env.connection env.server = .error failure) :
      Executed env run lake (.error failure, lake.writeBronze run [])
  | torn (pages : List Json) (room : Nat) (reached : ReachesHook env)
      (hook : runHook env.connection env.server = .ok pages) (fault : env.writeFault = some room) :
      Executed env run lake (.error .osError, lake.writeBronze run ((writeLines pages).take room))
  | done (pages : List Json) (reached : ReachesHook env)
      (hook : runHook env.connection env.server = .ok pages) (clean : env.writeFault = none) :
      Executed env run lake (.ok (), lake.writeBronze run (writeLines pages))

theorem execute_cases (env : ExtractEnv) (run : DagRun) (lake : Lake) :
    Executed env run lake (execute env run lake) := by
  unfold execute
  rcases folder : env.createParentFolder with failure | ⟨⟩
  · exact .noFolder failure folder
  rcases opened : env.openFile with failure | ⟨⟩
  · exact .notOpened failure folder opened
  rcases hook : runHook env.connection env.server with failure | pages
  · simp only [write_bronze_made]
    exact .hookRaised failure ⟨folder, opened⟩ hook
  cases fault : env.writeFault with
  | none =>
      simp only [write_pages_clean, write_bronze_made, write_bronze_again, List.nil_append]
      exact .done pages ⟨folder, opened⟩ hook fault
  | some room =>
      simp only [write_pages_fault, write_bronze_made, write_bronze_again, List.nil_append]
      exact .torn pages room ⟨folder, opened⟩ hook fault

theorem execute_ok_iff (env : ExtractEnv) (run : DagRun) (lake : Lake) :
    (execute env run lake).1 = .ok () ↔ ReachesHook env ∧ env.writeFault = none ∧
      ∃ pages, runHook env.connection env.server = .ok pages := by
  generalize outcome : execute env run lake = result
  have executed := outcome ▸ execute_cases env run lake
  cases executed with
  | noFolder failure folder => simp [ReachesHook, folder]
  | notOpened failure folder opened => simp [ReachesHook, opened]
  | hookRaised failure reached hook => simp [hook]
  | torn pages room reached hook fault => simp [fault]
  | done pages reached hook clean => simp [reached, hook, clean]

theorem execute_done (env : ExtractEnv) (run : DagRun) (lake : Lake) (pages : List Json)
    (reached : ReachesHook env) (clean : env.writeFault = none)
    (hook : runHook env.connection env.server = .ok pages) :
    execute env run lake = (.ok (), lake.writeBronze run (writeLines pages)) := by
  unfold execute
  simp only [reached.1, reached.2, hook, clean, write_pages_clean, write_bronze_made,
    write_bronze_again, List.nil_append]

/-- A successful attempt has written the pages of its own hook call. -/
theorem execute_succeeds (env : ExtractEnv) (run : DagRun) (lake next : Lake)
    (success : execute env run lake = (.ok (), next)) :
    ∃ pages, runHook env.connection env.server = .ok pages ∧
      next = lake.writeBronze run (writeLines pages) := by
  have executed := success ▸ execute_cases env run lake
  cases executed with
  | done pages _ hook _ => exact ⟨pages, hook, rfl⟩

/-- Whatever happens, only the run's own Bronze file can differ. -/
theorem execute_frame (env : ExtractEnv) (run : DagRun) (lake : Lake) :
    OnlyBronze run lake (execute env run lake).2 := by
  generalize outcome : execute env run lake = result
  have executed := outcome ▸ execute_cases env run lake
  cases executed with
  | noFolder failure folder => exact .refl run lake
  | notOpened failure folder opened =>
      exact ⟨fun other _ => make_directory_file lake _ other, rfl, rfl⟩
  | hookRaised failure reached hook => exact ⟨write_bronze_elsewhere lake run [], rfl, rfl⟩
  | torn pages room reached hook fault => exact ⟨write_bronze_elsewhere lake run _, rfl, rfl⟩
  | done pages reached hook clean => exact ⟨write_bronze_elsewhere lake run _, rfl, rfl⟩

end Brewery
