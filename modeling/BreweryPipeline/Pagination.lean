import BreweryPipeline.PageCount
import BreweryPipeline.Support.Paging

/-!
What a call of `paginate` returns and which pages it asks for. The loop has three
ways out: the last page, a page that is falsy, and a page that fails. None of them
depends on what a later page would have answered. How many pages there are is up
to the page count, the interpreter's or another.
-/

namespace Brewery

open Support.JsonText Support.Paging Support.Binary64

section Counted
variable (countPages : Json → Except Failure (Option Nat)) (baseUrl : String) (server : Server)

/-- With the first pages known and a reason to stop behind them, the result and
the requests are known. -/
theorem paginate_first_pages (pages : Nat) (reported : reportedPages countPages baseUrl server = .ok pages)
    (bodies : Nat → Json) (kept : Nat) (within : kept ≤ pages)
    (answers : ∀ page, 1 ≤ page → page ≤ kept →
      pageReply baseUrl server page = .ok (bodies page) ∧ (bodies page).truthy = true)
    (stops : kept = pages ∨ ¬ Answers (pageReply baseUrl server) (kept + 1)) :
    (paginateBy countPages baseUrl ⟨server, []⟩).1 = .ok ((List.range' 1 kept).map bodies) ∧
      (paginateBy countPages baseUrl ⟨server, []⟩).2.sent = metaUrl baseUrl ::
        (List.range' 1 (min (kept + 1) pages)).map (pageUrl baseUrl) := by
  have served : servedFrom (pageReply baseUrl server) 1 pages = (List.range' 1 kept).map bodies := by
    have split := served_prefix (pageReply baseUrl server) bodies 1 kept (pages - kept)
      (fun index bound => answers (1 + index) (by omega) (by omega))
      (by
        rw [Nat.add_comm 1 kept]
        exact stops.imp (fun last => by omega) id)
    rwa [Nat.add_sub_cancel' within] at split
  rw [paginate_run countPages baseUrl server pages reported, served]
  simp only [List.length_map, List.length_range', and_self]

end Counted

/-- No URL is asked for twice. -/
theorem requests_distinct (baseUrl : String) (count : Nat) :
    (metaUrl baseUrl :: (List.range' 1 count).map (pageUrl baseUrl)).Nodup := by
  apply List.nodup_cons.mpr
  constructor
  · intro member
    obtain ⟨page, _, same⟩ := List.mem_map.mp member
    exact meta_url_not_page baseUrl page same.symm
  · exact List.Nodup.map (page_url_injective baseUrl) List.nodup_range'

/-- The pages kept are the longest run of answering pages among the first ones. -/
structure LongestRun (reply : Nat → Except Failure Json) (pages kept : Nat) : Prop where
  within : kept ≤ pages
  answers : ∀ page, 1 ≤ page → page ≤ kept → Answers reply page
  stops : kept = pages ∨ ¬ Answers reply (kept + 1)

theorem longest_run_exists (reply : Nat → Except Failure Json) (pages : Nat) :
    ∃ kept, LongestRun reply pages kept := by
  obtain ⟨kept, within, answers, stops⟩ := pages_until (Answers reply) pages
  exact ⟨kept, within, answers, stops⟩

theorem longest_run_greatest (reply : Nat → Except Failure Json) (pages kept : Nat)
    (largest : IsGreatest {count | count ≤ pages ∧
      ∀ page, 1 ≤ page → page ≤ count → Answers reply page} kept) :
    LongestRun reply pages kept := by
  obtain ⟨⟨within, answers⟩, bound⟩ := largest
  refine ⟨within, answers, ?_⟩
  by_cases last : kept = pages
  · exact Or.inl last
  · refine Or.inr fun next => ?_
    have longer : kept + 1 ≤ kept := bound ⟨by omega, fun page first inside => by
      rcases Nat.le_succ_iff.mp inside with earlier | same
      · exact answers page first earlier
      · exact same ▸ next⟩
    omega

/-- A page that does not answer is behind the run. -/
theorem LongestRun.before {reply : Nat → Except Failure Json} {pages kept : Nat}
    (run : LongestRun reply pages kept) (page : Nat) (first : 1 ≤ page)
    (silent : ¬ Answers reply page) : kept < page := by
  by_contra inside
  exact silent (run.answers page first (Nat.not_lt.mp inside))

/-- Two runs end at the same page unless one is cut off by its number of pages. -/
theorem longest_run_same (reply : Nat → Except Failure Json) (pages others kept cut : Nat)
    (left : LongestRun reply pages kept) (right : LongestRun reply others cut) :
    (kept = cut ∧ min (kept + 1) pages = min (cut + 1) others) ↔
      pages = others ∨
        ∃ page, 1 ≤ page ∧ page ≤ pages ∧ page ≤ others ∧ ¬ Answers reply page := by
  have shorter := left.within
  have shorterCut := right.within
  constructor
  · rintro ⟨rfl, requests⟩
    by_cases same : pages = others
    · exact Or.inl same
    · right
      refine ⟨kept + 1, by omega, by omega, by omega, ?_⟩
      rcases left.stops with all | silent
      · exact right.stops.resolve_left (by omega)
      · exact silent
  · intro meet
    have order (page : Nat) (silent : ¬ Answers reply (page + 1)) : kept ≤ page ∧ cut ≤ page :=
      ⟨Nat.lt_succ_iff.mp (left.before _ (Nat.succ_pos page) silent),
        Nat.lt_succ_iff.mp (right.before _ (Nat.succ_pos page) silent)⟩
    have leftEnd := left.stops.imp id (order kept)
    have rightEnd := right.stops.imp id (order cut)
    rcases meet with rfl | ⟨page, first, inside, within, silent⟩
    · omega
    · have keptBefore := left.before page first silent
      have cutBefore := right.before page first silent
      omega

section Counted
variable (countPages : Json → Except Failure (Option Nat)) (baseUrl : String) (server : Server)

/-- The bodies returned are those of the longest run of pages that answer with a
truthy value, and the page behind that run is the last one asked for. -/
theorem paginate_longest_run (pages kept : Nat)
    (reported : reportedPages countPages baseUrl server = .ok pages)
    (longest : LongestRun (pageReply baseUrl server) pages kept) :
    let outcome := paginateBy countPages baseUrl ⟨server, []⟩
    (∃ bodies, outcome.1 = .ok bodies ∧
      bodies.map Except.ok = (List.range' 1 kept).map (pageReply baseUrl server)) ∧
    outcome.2.sent = metaUrl baseUrl ::
      (List.range' 1 (min (kept + 1) pages)).map (pageUrl baseUrl) := by
  intro outcome
  let bodies : Nat → Json := fun page => (pageReply baseUrl server page).toOption.getD .null
  have answers (page : Nat) (first : 1 ≤ page) (last : page ≤ kept) :
      pageReply baseUrl server page = .ok (bodies page) ∧ (bodies page).truthy = true := by
    obtain ⟨body, reply, full⟩ := longest.answers page first last
    have same : bodies page = body := by simp [bodies, reply, Except.toOption]
    exact same ▸ ⟨reply, full⟩
  obtain ⟨returned, asked⟩ := paginate_first_pages countPages baseUrl server pages reported bodies kept
    longest.within answers longest.stops
  refine ⟨⟨_, returned, ?_⟩, asked⟩
  rw [List.map_map]
  apply List.map_congr_left
  intro page member
  obtain ⟨first, last⟩ := List.mem_range'_1.mp member
  exact (answers page first (by omega)).1.symm

/-- The outcome is that of another number of pages exactly when the two numbers
are equal or a page within both does not answer. -/
theorem paginate_run_same (pages others kept : Nat)
    (reported : reportedPages countPages baseUrl server = .ok pages)
    (longest : LongestRun (pageReply baseUrl server) others kept) :
    let outcome := paginateBy countPages baseUrl ⟨server, []⟩
    ((∃ bodies, outcome.1 = .ok bodies ∧
        bodies.map Except.ok = (List.range' 1 kept).map (pageReply baseUrl server)) ∧
      outcome.2.sent = metaUrl baseUrl ::
        (List.range' 1 (min (kept + 1) others)).map (pageUrl baseUrl) ∧
      outcome.2.sent.Nodup) ↔
    pages = others ∨ ∃ page, 1 ≤ page ∧ page ≤ pages ∧ page ≤ others ∧
      ¬ Answers (pageReply baseUrl server) page := by
  intro outcome
  obtain ⟨cut, run⟩ := longest_run_exists (pageReply baseUrl server) pages
  obtain ⟨⟨bodies, returned, replies⟩, asked⟩ :=
    paginate_longest_run countPages baseUrl server pages cut reported run
  have same := longest_run_same _ _ _ _ _ run longest
  constructor
  · rintro ⟨⟨others, again, kepts⟩, requests, _⟩
    rw [show outcome.1 = _ from returned, Except.ok.injEq] at again
    rw [← again, replies] at kepts
    rw [show outcome.2.sent = _ from asked] at requests
    exact same.mp ⟨by simpa using congrArg List.length kepts,
      by simpa using congrArg List.length requests⟩
  · intro meet
    obtain ⟨rfl, requests⟩ := same.mpr meet
    rw [requests] at asked
    exact ⟨⟨bodies, returned, replies⟩, asked, asked ▸ requests_distinct baseUrl _⟩

end Counted

/-- What a hook returns are the bodies of the longest run of pages that answer with
a truthy value, among those the metadata counts. -/
theorem hook_collects (connection : Except Failure String) (server : Server) (pages : List Json)
    (returned : runHook connection server = .ok pages) :
    ∃ baseUrl count, connection = .ok baseUrl ∧
      reportedPages totalPages baseUrl server = .ok count ∧
      LongestRun (pageReply baseUrl server) count pages.length ∧
      pages.map Except.ok = (List.range' 1 pages.length).map (pageReply baseUrl server) := by
  rcases connection with failure | baseUrl
  · simp [runHook, Except.bind] at returned
  change (paginate baseUrl ⟨server, []⟩).1 = .ok pages at returned
  rcases reported : reportedPages totalPages baseUrl server with failure | count
  · rw [paginate, paginate_raises totalPages baseUrl server failure reported] at returned
    contradiction
  · obtain ⟨kept, longest⟩ := longest_run_exists (pageReply baseUrl server) count
    obtain ⟨⟨bodies, same, replies⟩, _⟩ :=
      paginate_longest_run totalPages baseUrl server count kept reported longest
    obtain rfl := Except.ok.inj (same.symm.trans returned)
    have length : bodies.length = kept := by simpa using congrArg List.length replies
    exact ⟨baseUrl, count, rfl, reported, length ▸ longest, length ▸ replies⟩

/-- The call returns the longest run of the reported pages that answer with a
truthy value and asks for one page more, each page once, exactly when the double
nearest to `total / 50` exists and either rounds up to the reported pages or a
page both counts have does not answer: else it asks for too few or too many. -/
theorem paginate_longest_prefix_iff (baseUrl : String) (server : Server) (total kept : Nat)
    (reports : Reports baseUrl server total)
    (largest : IsGreatest {count | count ≤ pageCount total ∧
      ∀ page, 1 ≤ page → page ≤ count → Answers (pageReply baseUrl server) page} kept) :
    let outcome := paginate baseUrl ⟨server, []⟩
    ((∃ bodies, outcome.1 = .ok bodies ∧
        bodies.map Except.ok = (List.range' 1 kept).map (pageReply baseUrl server)) ∧
      outcome.2.sent = metaUrl baseUrl ::
        (List.range' 1 (min (kept + 1) (pageCount total))).map (pageUrl baseUrl) ∧
      outcome.2.sent.Nodup) ↔
    ∃ quotient, toDouble ((total : Rat) / perPage) = some quotient ∧
      (⌈quotient⌉.toNat = pageCount total ∨ ∃ page, 1 ≤ page ∧ page ≤ ⌈quotient⌉.toNat ∧
        page ≤ pageCount total ∧ ¬ Answers (pageReply baseUrl server) page) := by
  intro outcome
  have longest := longest_run_greatest _ _ kept largest
  have reported := reported_quotient baseUrl server total reports
  rcases counted : quotientPages total with failure | pages
  · have raised := paginate_raises totalPages baseUrl server failure (reported.trans counted)
    constructor
    · rintro ⟨⟨bodies, returned, _⟩, _⟩
      rw [show outcome = _ from raised] at returned
      contradiction
    · rintro ⟨quotient, rounded, _⟩
      rw [(quotient_pages_ok_iff _ _).mpr ⟨quotient, rounded, rfl⟩] at counted
      contradiction
  · obtain ⟨quotient, rounded, rfl⟩ := (quotient_pages_ok_iff _ pages).mp counted
    have same := paginate_run_same totalPages baseUrl server _ (pageCount total) kept
      (reported.trans counted) longest
    constructor
    · exact fun collected => ⟨quotient, rounded, same.mp collected⟩
    · rintro ⟨other, equal, meet⟩
      obtain rfl := Option.some.inj (rounded.symm.trans equal)
      exact same.mpr meet

/-- Three pages are reported; the first and the last answer, the second is not JSON. -/
def unevenServer : Server := fun sent _ =>
  match sent with
  | 0 => .ok (.json (.obj [("total", .int 150)]))
  | 2 => .ok .notJson
  | _ => .ok (.json (.arr [.obj []]))

theorem uneven_longest_prefix :
    let outcome := paginate "" ⟨unevenServer, []⟩
    ((∃ bodies, outcome.1 = .ok bodies ∧
        bodies.map Except.ok = (List.range' 1 1).map (pageReply "" unevenServer)) ∧
      outcome.2.sent = metaUrl "" ::
        (List.range' 1 (min (1 + 1) (pageCount 150))).map (pageUrl "") ∧
      outcome.2.sent.Nodup) ↔
    ∃ quotient, toDouble (((150 : Nat) : Rat) / perPage) = some quotient ∧
      (⌈quotient⌉.toNat = pageCount 150 ∨ ∃ page, 1 ≤ page ∧ page ≤ ⌈quotient⌉.toNat ∧
        page ≤ pageCount 150 ∧ ¬ Answers (pageReply "" unevenServer) page) := by
  apply paginate_longest_prefix_iff "" unevenServer 150 1 ⟨_, rfl, rfl⟩
  constructor
  · refine ⟨by decide, fun page first last => ?_⟩
    have single : page = 1 := by omega
    exact single ▸ ⟨.arr [.obj []], rfl, rfl⟩
  · rintro longer ⟨_, answered⟩
    by_contra beyond
    obtain ⟨body, reply, _⟩ := answered 2 (by decide) (by omega)
    exact absurd reply (by simp [pageReply, unevenServer, Except.bind, Response.decode])

def hugeTotal : Nat := 10 ^ 320

/-- A metadata answer alone makes the division raise. -/
def hugeServer : Server := fun sent _ =>
  if sent = 0 then .ok (.json (.obj [("total", .int hugeTotal)])) else .error .httpError

theorem huge_total_raises :
    ¬ ∀ (baseUrl : String) (server : Server) (total kept : Nat), 0 < total →
      Reports baseUrl server total →
      IsGreatest {count | count ≤ pageCount total ∧
        ∀ page, 1 ≤ page → page ≤ count → Answers (pageReply baseUrl server) page} kept →
      let outcome := paginate baseUrl ⟨server, []⟩
      (∃ bodies, outcome.1 = .ok bodies ∧
        bodies.map Except.ok = (List.range' 1 kept).map (pageReply baseUrl server)) ∧
      outcome.2.sent = metaUrl baseUrl ::
        (List.range' 1 (min (kept + 1) (pageCount total))).map (pageUrl baseUrl) ∧
      outcome.2.sent.Nodup := by
  intro claim
  have reports : Reports "" hugeServer hugeTotal := ⟨[("total", .int hugeTotal)], rfl, rfl⟩
  have none : IsGreatest {count | count ≤ pageCount hugeTotal ∧
      ∀ page, 1 ≤ page → page ≤ count → Answers (pageReply "" hugeServer) page} 0 := by
    constructor
    · exact ⟨Nat.zero_le _, fun page first last => absurd first (by omega)⟩
    · rintro count ⟨_, answered⟩
      by_contra some
      obtain ⟨body, reply, _⟩ := answered 1 le_rfl (by omega)
      simp [pageReply, hugeServer, Except.bind] at reply
  have overflow := quotient_pages_overflow hugeTotal (by decide +kernel)
  have raised := paginate_raises totalPages "" hugeServer _
    ((reported_quotient "" hugeServer hugeTotal reports).trans overflow)
  obtain ⟨⟨bodies, returned, _⟩, _⟩ :=
    claim "" hugeServer hugeTotal 0 (by decide +kernel) reports none
  rw [paginate, raised] at returned
  cases returned

/-! A collection that does not change, under any total the metadata reports. -/

def recordsPage (records : List Record) : Json := .arr (records.map Json.obj)

theorem records_page_truthy (records : List Record) :
    (recordsPage records).truthy = true ↔ records ≠ [] := by
  simp [recordsPage, Json.truthy]

structure ServesStable (baseUrl : String) (server : Server) (total : Nat) (xs : List Record) :
    Prop where
  total : Reports baseUrl server total
  page : ∀ page, 1 ≤ page → pageReply baseUrl server page = .ok (recordsPage (slice perPage xs page))

section Stable
variable (xs : List Record) (countPages : Json → Except Failure (Option Nat))

/-- The pages of a stable collection, cut off at the reported total. -/
theorem paginate_stable_pages (baseUrl : String) (server : Server) (total : Nat)
    (exact : CountsExactly countPages total) (serves : ServesStable baseUrl server total xs) :
    let kept := min (pageCount total) (pageCount xs.length)
    (paginateBy countPages baseUrl ⟨server, []⟩).1 =
        .ok ((List.range' 1 kept).map fun page => recordsPage (slice perPage xs page)) ∧
      (paginateBy countPages baseUrl ⟨server, []⟩).2.sent = metaUrl baseUrl ::
        (List.range' 1 (min (kept + 1) (pageCount total))).map (pageUrl baseUrl) := by
  intro kept
  apply paginate_first_pages countPages baseUrl server (pageCount total)
    (reported_exact countPages baseUrl server total exact serves.total) _ kept (Nat.min_le_left _ _)
  · intro page first last
    have full : slice perPage xs page ≠ [] := by
      apply slice_ne_nil perPage xs page (by decide)
      simp only [kept, pageCount, perPage] at last ⊢
      omega
    exact ⟨serves.page page first, (records_page_truthy _).mpr full⟩
  · by_cases covered : pageCount total ≤ pageCount xs.length
    · exact Or.inl (Nat.min_eq_left covered)
    · have past : slice perPage xs (kept + 1) = [] := by
        apply slice_eq_nil
        simp only [kept, pageCount, perPage] at covered ⊢
        omega
      right
      rintro ⟨body, reply, full⟩
      rw [serves.page (kept + 1) (Nat.le_add_left 1 kept), Except.ok.injEq] at reply
      exact (records_page_truthy _).mp (reply ▸ full) past

/-- Cut off at the reported total, the pages hold the first items of the collection. -/
theorem cut_pages_flatten (total : Nat) :
    ((List.range' 1 (min (pageCount total) (pageCount xs.length))).map (slice perPage xs)).flatten =
      xs.take (perPage * pageCount total) := by
  rw [← List.flatMap_def, slices_flatten]
  rcases Nat.le_total (pageCount total) (pageCount xs.length) with cut | covers
  · rw [Nat.min_eq_left cut]
  · rw [Nat.min_eq_right covers, List.take_of_length_le, List.take_of_length_le]
    all_goals simp only [pageCount, perPage] at covers ⊢; omega

/-- All but the last of the pages are full. -/
theorem cut_pages_full (kept : Nat) (within : kept ≤ pageCount xs.length) (page : List Record)
    (member : page ∈ ((List.range' 1 kept).map (slice perPage xs)).dropLast) :
    page.length = perPage := by
  cases kept with
  | zero => simp at member
  | succ kept =>
      rw [← List.map_dropLast, List.range'_concat, List.dropLast_concat] at member
      obtain ⟨number, inside, rfl⟩ := List.mem_map.mp member
      have bounds := List.mem_range'_1.mp inside
      apply slice_full
      simp only [pageCount, perPage] at within ⊢
      omega

/-- Pagination cuts off whole pages only, returns no empty page, and asks for one
page past the collection when the total overstates it. The pages of the total are
to be counted exactly: the interpreter does so up to `exactTotal`. -/
theorem paginate_stable (baseUrl : String) (server : Server) (total : Nat)
    (exact : CountsExactly countPages total) (serves : ServesStable baseUrl server total xs) :
    ∃ pages : List (List Record),
      (paginateBy countPages baseUrl ⟨server, []⟩).1 = .ok (pages.map recordsPage) ∧
      pages.flatten = xs.take (perPage * pageCount total) ∧
      (pageCount xs.length ≤ pageCount total → pages.flatten = xs) ∧
      (∀ page ∈ pages, page ≠ []) ∧
      (∀ page ∈ pages.dropLast, page.length = perPage) ∧
      (paginateBy countPages baseUrl ⟨server, []⟩).2.sent = metaUrl baseUrl ::
        (List.range' 1 (min (pageCount total) (pageCount xs.length + 1))).map (pageUrl baseUrl) := by
  obtain ⟨returned, asked⟩ :=
    paginate_stable_pages xs countPages baseUrl server total exact serves
  generalize small : min (pageCount total) (pageCount xs.length) = kept at returned asked
  have flat := cut_pages_flatten xs total
  rw [small] at flat
  refine ⟨(List.range' 1 kept).map (slice perPage xs), ?_, flat, ?_, ?_, ?_, ?_⟩
  · rw [returned, List.map_map]
    rfl
  · intro covers
    rw [flat]
    apply List.take_of_length_le
    simp only [pageCount, perPage] at covers ⊢
    omega
  · intro page member
    obtain ⟨number, inside, same⟩ := List.mem_map.mp member
    obtain ⟨first, last⟩ := List.mem_range'_1.mp inside
    refine same ▸ slice_ne_nil perPage xs number (by decide) ?_
    simp only [pageCount, perPage] at small ⊢
    omega
  · exact cut_pages_full xs kept (small ▸ Nat.min_le_right _ _)
  · rw [asked, ← small]
    congr 3
    omega

end Stable

/-- Fifty-one records, of which the metadata reports fifty. -/
def understatedServer : Server := fun sent _ =>
  if sent = 0 then .ok (.json (.obj [("total", .int 50)]))
  else .ok (.json (recordsPage (slice perPage (List.replicate 51 []) sent)))

theorem paginate_stable_understated :
    ∃ pages : List (List Record),
      (paginate "" ⟨understatedServer, []⟩).1 = .ok (pages.map recordsPage) ∧
      pages.flatten = (List.replicate 51 []).take (perPage * pageCount 50) ∧
      (pageCount 51 ≤ pageCount 50 → pages.flatten = List.replicate 51 []) ∧
      (∀ page ∈ pages, page ≠ []) ∧
      (∀ page ∈ pages.dropLast, page.length = perPage) ∧
      (paginate "" ⟨understatedServer, []⟩).2.sent = metaUrl "" ::
        (List.range' 1 (min (pageCount 50) (pageCount 51 + 1))).map (pageUrl "") := by
  apply paginate_stable (List.replicate 51 []) totalPages "" understatedServer 50
    (total_pages_exact 50 (by decide))
  refine ⟨⟨_, rfl, rfl⟩, fun page first => ?_⟩
  have later : page ≠ 0 := by omega
  simp [pageReply, understatedServer, later, Except.bind, Response.decode]

end Brewery
