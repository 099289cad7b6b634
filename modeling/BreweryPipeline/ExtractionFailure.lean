import BreweryPipeline.BreweryOperator
import BreweryPipeline.PageCount

/-!
What an extraction leaves behind when something goes wrong. The operator raises
for the connection, the metadata, its page count and the file, but the page loop
answers every failure of a page by returning the pages before it, and the file is
emptied before the first request is made.
-/

namespace Brewery

open Support.JsonText Support.FileStore Support.Binary64

def Fails (baseUrl : String) (server : Server) (page : Nat) : Prop :=
  ∃ failure, pageReply baseUrl server page = .error failure

/-- `page` was not collected: the loop had ended before it, at a page whose
request failed. -/
def SkippedByError (baseUrl : String) (server : Server) (page : Nat) : Prop :=
  let outcome := paginate baseUrl ⟨server, []⟩
  ∃ pages, outcome.1 = .ok pages ∧ pages.length < page ∧ Fails baseUrl server (pages.length + 1) ∧
    pageUrl baseUrl (pages.length + 1) ∈ outcome.2.sent

/-- A failure the loop gets to: every page before it was kept. -/
def FailureReached (baseUrl : String) (server : Server) (page : Nat) : Prop :=
  Fails baseUrl server page ∧
    ∀ earlier, 1 ≤ earlier → earlier < page → Answers (pageReply baseUrl server) earlier

theorem served_answers (reply : Nat → Except Failure Json) (count earlier : Nat) (first : 1 ≤ earlier)
    (kept : earlier ≤ (servedFrom reply 1 count).length) : Answers reply earlier := by
  have bound : earlier - 1 < (servedFrom reply 1 count).length := by omega
  obtain ⟨answer, full⟩ :=
    served_get reply 1 count (earlier - 1) _ (List.getElem?_eq_getElem bound)
  rw [show 1 + (earlier - 1) = earlier by omega] at answer
  exact ⟨_, answer, full⟩

/-- A failure that is reached is where the kept pages end. -/
theorem served_until_failure (baseUrl : String) (server : Server) (count page : Nat)
    (first : 1 ≤ page) (last : page ≤ count) (reached : FailureReached baseUrl server page) :
    (servedFrom (pageReply baseUrl server) 1 count).length + 1 = page := by
  obtain ⟨⟨failure, failed⟩, before⟩ := reached
  rcases Nat.lt_trichotomy ((servedFrom (pageReply baseUrl server) 1 count).length + 1) page with
    short | same | long
  · obtain ⟨body, answer, full⟩ := before _ (Nat.succ_pos _) short
    have falsy := served_stop (pageReply baseUrl server) 1 count (by omega) body
      (by rwa [Nat.add_comm 1])
    rw [full] at falsy
    contradiction
  · exact same
  · obtain ⟨body, answer, _⟩ := served_answers (pageReply baseUrl server) count page first (by omega)
    rw [failed] at answer
    contradiction

/-- The pages asked for are those of the count. -/
theorem asked_page (baseUrl : String) (page count : Nat)
    (asked : pageUrl baseUrl page ∈ metaUrl baseUrl :: (List.range' 1 count).map (pageUrl baseUrl)) :
    page ≤ count := by
  rcases List.mem_cons.mp asked with same | member
  · exact absurd same.symm (meta_url_not_page baseUrl page)
  · obtain ⟨other, inside, same⟩ := List.mem_map.mp member
    have bounds := List.mem_range'_1.mp inside
    rw [← page_url_injective baseUrl same]
    omega

theorem skipped_iff_reached (baseUrl : String) (server : Server) (pages bound : Nat)
    (reported : reportedPages totalPages baseUrl server = .ok pages) :
    (∃ page, 1 ≤ page ∧ page ≤ bound ∧ SkippedByError baseUrl server page) ↔
      ∃ page, 1 ≤ page ∧ page ≤ bound ∧ page ≤ pages ∧ FailureReached baseUrl server page := by
  have ran := paginate_run totalPages baseUrl server pages reported
  constructor
  · rintro ⟨page, _, last, kept, returned, skipped, failed, asked⟩
    rw [paginate, ran] at returned asked
    obtain rfl := Except.ok.inj returned
    have inside := asked_page baseUrl _ _ asked
    refine ⟨_, Nat.succ_pos _, by omega, by omega, failed, fun earlier first before => ?_⟩
    exact served_answers _ pages earlier first (by omega)
  · rintro ⟨page, first, last, inside, reached⟩
    have ends := served_until_failure baseUrl server pages page first inside reached
    refine ⟨page, first, last, _, congrArg Prod.fst ran, by omega, ends ▸ reached.1, ?_⟩
    rw [paginate, ran, ends, Nat.min_eq_left inside]
    exact List.mem_cons_of_mem _ (List.mem_map_of_mem (List.mem_range'_1.mpr ⟨first, by omega⟩))

theorem execute_ok_reported (env : ExtractEnv) (run : DagRun) (lake : Lake) (baseUrl : String)
    (connected : env.connection = .ok baseUrl) :
    (execute env run lake).1 = .ok () ↔ ReachesHook env ∧ env.writeFault = none ∧
      ∃ pages, reportedPages totalPages baseUrl env.server = .ok pages := by
  rw [execute_ok_iff]
  simp only [runHook, connected, Except.bind, paginate_result]
  cases reportedPages totalPages baseUrl env.server <;> simp [Except.map]

/-- An extraction is complete or failed exactly when the file itself cannot be
opened or written, or the page loop comes to no failing page. It has the pages
to come to that the double nearest to the quotient gives it, none when the
quotient is out of range: then the attempt raises. -/
theorem complete_or_failed_iff (env : ExtractEnv) (run : DagRun) (lake : Lake) (baseUrl : String)
    (total : Nat) (connected : env.connection = .ok baseUrl)
    (reports : Reports baseUrl env.server total) :
    ((execute env run lake).1 = .ok () →
        ∀ page, 1 ≤ page → page ≤ pageCount total → ¬ SkippedByError baseUrl env.server page) ↔
      (¬ ReachesHook env ∨ env.writeFault.isSome) ∨
        ∀ quotient, toDouble ((total : Rat) / perPage) = some quotient →
          ∀ page, 1 ≤ page → page ≤ pageCount total → page ≤ ⌈quotient⌉.toNat →
            ¬ FailureReached baseUrl env.server page := by
  have reported := reported_quotient baseUrl env.server total reports
  rw [execute_ok_reported env run lake baseUrl connected, reported]
  constructor
  · intro complete
    by_cases opens : ReachesHook env ∧ env.writeFault = none
    · right
      intro quotient rounded page first last inside reached
      have counted := (quotient_pages_ok_iff _ _).mpr ⟨quotient, rounded, rfl⟩
      obtain ⟨other, lower, upper, missing⟩ :=
        (skipped_iff_reached baseUrl env.server _ (pageCount total) (reported.trans counted)).mpr
          ⟨page, first, last, inside, reached⟩
      exact complete ⟨opens.1, opens.2, _, counted⟩ other lower upper missing
    · left
      rw [not_and_or] at opens
      simpa [Option.isSome_iff_ne_none] using opens
  · rintro (fault | clean) ⟨opened, written, pages, counted⟩ page first last missing
    · simp [opened, written] at fault
    · obtain ⟨quotient, rounded, same⟩ := (quotient_pages_ok_iff _ pages).mp counted
      obtain ⟨other, lower, upper, inside, reached⟩ :=
        (skipped_iff_reached baseUrl env.server pages (pageCount total) (reported.trans counted)).mp
          ⟨page, first, last, missing⟩
      exact clean quotient rounded other lower upper (same ▸ inside) reached

/-- Two pages are reported; the first is served and the request for the second fails. -/
def flakyServer : Server := fun sent _ =>
  if sent = 0 then .ok (.json (.obj [("total", .int 60)]))
  else if sent = 1 then .ok (.json (.arr [.obj [("id", .str "a")]]))
  else .error .httpError

def flakyEnv : ExtractEnv := ⟨.ok (), .ok (), .ok "", flakyServer, none⟩

theorem flaky_reports : Reports "" flakyServer 60 := ⟨[("total", .int 60)], rfl, rfl⟩

theorem complete_or_failed_flaky :
    ((execute flakyEnv ⟨1, 2⟩ emptyLake).1 = .ok () →
        ∀ page, 1 ≤ page → page ≤ pageCount 60 → ¬ SkippedByError "" flakyServer page) ↔
      (¬ ReachesHook flakyEnv ∨ flakyEnv.writeFault.isSome) ∨
        ∀ quotient, toDouble (((60 : Nat) : Rat) / perPage) = some quotient →
          ∀ page, 1 ≤ page → page ≤ pageCount 60 → page ≤ ⌈quotient⌉.toNat →
            ¬ FailureReached "" flakyServer page :=
  complete_or_failed_iff flakyEnv ⟨1, 2⟩ emptyLake "" 60 rfl flaky_reports

/-- The second page is lost and the task succeeds. -/
theorem incomplete_extraction_succeeds :
    ¬ ∀ (env : ExtractEnv) (run : DagRun) (lake : Lake) (baseUrl : String) (total : Nat),
      env.connection = .ok baseUrl → 0 < total → Reports baseUrl env.server total →
      (execute env run lake).1 = .ok () →
      ∀ page, 1 ≤ page → page ≤ pageCount total → ¬ SkippedByError baseUrl env.server page := by
  intro complete
  have reported := reported_exact totalPages "" flakyServer 60 (total_pages_exact 60 (by decide))
    flaky_reports
  have returns : (execute flakyEnv ⟨1, 2⟩ emptyLake).1 = .ok () :=
    (execute_ok_reported flakyEnv ⟨1, 2⟩ emptyLake "" rfl).mpr ⟨⟨rfl, rfl⟩, rfl, _, reported⟩
  have kept := paginate_run totalPages "" flakyServer (pageCount 60) reported
  have skipped : SkippedByError "" flakyServer 2 := by
    refine ⟨_, congrArg Prod.fst kept, by decide, ⟨.httpError, rfl⟩, ?_⟩
    rw [paginate, kept]
    exact List.mem_cons_of_mem _ (List.mem_map_of_mem (by decide))
  exact complete flakyEnv ⟨1, 2⟩ emptyLake "" 60 rfl (by decide) flaky_reports returns 2 (by decide)
    (by decide) skipped

/-! The run's own file after a call that raised. -/

/-- A call that raises leaves every previous content of the run's file as it was
exactly when it never opened the file: the archive of an earlier attempt is lost
in the connection, the metadata, its page count and every write. -/
theorem bronze_unchanged_iff (env : ExtractEnv) (run : DagRun)
    (raises : ∀ lake, (execute env run lake).1 ≠ .ok ()) :
    (∀ lake, (execute env run lake).2.bronzeFile run = lake.bronzeFile run) ↔ ¬ ReachesHook env := by
  constructor
  · intro unchanged reached
    have none : emptyLake.bronzeFile run = none := by
      simp [Lake.bronzeFile, Lake.bronzeDirectory, emptyLake]
    have same := unchanged emptyLake
    have failed := raises emptyLake
    rw [none] at same
    generalize outcome : execute env run emptyLake = result at same failed
    have executed := outcome ▸ execute_cases env run emptyLake
    cases executed with
    | noFolder failure folder => simp [reached.1] at folder
    | notOpened failure folder opened => simp [reached.2] at opened
    | hookRaised failure _ hook => simp at same
    | torn pages room _ hook fault => simp at same
    | done pages _ hook clean => exact failed rfl
  · intro outside lake
    generalize outcome : execute env run lake = result
    have executed := outcome ▸ execute_cases env run lake
    cases executed with
    | noFolder failure folder => rfl
    | notOpened failure folder opened => exact make_directory_file lake _ run
    | hookRaised failure reached hook => exact absurd reached outside
    | torn pages room reached hook fault => exact absurd reached outside
    | done pages reached hook clean => exact absurd reached outside

/-- The connection is gone when an archived run is cleared and executed again. -/
def disconnectedEnv : ExtractEnv := ⟨.ok (), .ok (), .error .connectionNotFound, flakyServer, none⟩

def archivedLake : Lake := emptyLake.writeBronze ⟨1, 2⟩ ['[', ']', '\n']

theorem bronze_unchanged_disconnected :
    (∀ lake : Lake,
      (execute disconnectedEnv ⟨1, 2⟩ lake).2.bronzeFile ⟨1, 2⟩ = lake.bronzeFile ⟨1, 2⟩) ↔
      ¬ ReachesHook disconnectedEnv :=
  bronze_unchanged_iff disconnectedEnv ⟨1, 2⟩ fun lake => by
    simp [execute, disconnectedEnv, runHook, Except.bind]

/-- The archived pages are gone although the attempt wrote nothing. -/
theorem failed_attempt_empties_archive :
    ¬ ∀ (env : ExtractEnv) (run : DagRun) (lake : Lake) (failure : Failure),
      (execute env run lake).1 = .error failure →
      (execute env run lake).2.bronzeFile run = lake.bronzeFile run := by
  intro atomic
  have kept := atomic disconnectedEnv ⟨1, 2⟩ archivedLake .connectionNotFound rfl
  have before : archivedLake.bronzeFile ⟨1, 2⟩ = some ['[', ']', '\n'] :=
    write_bronze_file emptyLake ⟨1, 2⟩ ['[', ']', '\n']
  have after : (execute disconnectedEnv ⟨1, 2⟩ archivedLake).2.bronzeFile ⟨1, 2⟩ = some [] := by
    simp [execute, disconnectedEnv, runHook, Except.bind]
  rw [before, after] at kept
  simp at kept

end Brewery
