import BreweryPipeline.PageCount

/-!
src/scripts/api_extraction.py: the extraction without Airflow. It asks the server the
hook asks, for the same pages under the same URLs. A request that fails and a body
that does not decode are `None` for it, and it prints `null` for such a page and
goes on; the hook stops there.
-/

namespace Brewery.ApiExtraction

open Support.JsonText

/-- The base URL both extractions fall back on. -/
def origin : String := "https://api.openbrewerydb.org"

def metaUrl : String := "https://api.openbrewerydb.org/v1/breweries/meta"

def urlPaginated (pageNumber : Nat) : String :=
  "https://api.openbrewerydb.org/v1/breweries?page=" ++ toString pageNumber ++ "&per_page=" ++
    toString perPage

/-- What stops the script: only the requests are inside its `try` block. -/
inductive Crash where
  | nameError
  | typeError
  deriving DecidableEq

/-- Every exception gives `None`, as the body `null` does. -/
def requestApi (url : String) (session : Session) : Json × Session :=
  match requestJson url session with
  | (.ok jsonResponse, session) => (jsonResponse, session)
  | (.error _, session) => (.null, session)

/-- `total_breweries`, unassigned when the metadata is falsy or has no total. -/
def totalBreweries (metaData : Json) : Except Crash (Option Json) :=
  if !metaData.truthy then .ok none
  else match metaData with
    | .obj fields => .ok (fields.lookup "total")
    -- `'total' in` finds an item of a list or a part of a text; neither has `['total']`.
    | .arr items =>
        if items.any (fun item => match item with | .str text => text == "total" | _ => false) then
          .error .typeError
        else .ok none
    | .str text =>
        if "total".toList <:+: text.toList then .error .typeError else .ok none
    | _ => .error .typeError

/-- `(total_breweries + per_page - 1) // per_page`, as `range` takes it: the
quotient of a float is a float. -/
def totalPages : Json → Except Crash Int
  | .int total => .ok ((total + perPage - 1) / perPage)
  | .bool total => .ok (((if total then 1 else 0) + perPage - 1) / perPage)
  | _ => .error .typeError

def fetchPages : List Nat → List Json → Session → List Json × Session
  | [], printed, session => (printed, session)
  | pageNumber :: rest, printed, session =>
      let (dataPage, session) := requestApi (urlPaginated pageNumber) session
      fetchPages rest (printed ++ [dataPage]) session

/-- The script: the documents it prints, one a page. -/
def script (server : Server) : Except Crash (List Json) × Session :=
  let (metaData, session) := requestApi metaUrl ⟨server, []⟩
  match totalBreweries metaData with
  | .error crash => (.error crash, session)
  -- The loop reads `total_pages`, which was not assigned.
  | .ok none => (.error .nameError, session)
  | .ok (some total) =>
      match totalPages total with
      | .error crash => (.error crash, session)
      | .ok pages =>
          let (printed, session) := fetchPages (List.range' 1 pages.toNat) [] session
          (.ok printed, session)

theorem meta_url_same : Brewery.metaUrl origin = metaUrl := by decide +kernel

theorem url_paginated_same (page : Nat) : pageUrl origin page = urlPaginated page := by
  have front : origin ++ "/v1/breweries" ++ "?" ++ "page=" =
      "https://api.openbrewerydb.org/v1/breweries?page=" := by decide +kernel
  unfold urlPaginated
  rw [← front]
  simp only [pageUrl, createUrl, List.isEmpty_cons, Bool.false_eq_true, if_false, List.map_cons,
    List.map_nil, String.intercalate_cons_cons, String.intercalate_singleton, String.append_assoc]
  rfl

/-- What the script prints for a page. -/
def pageDocument (server : Server) (page : Nat) : Json :=
  (pageReply origin server page).toOption.getD .null

/-- No answer of a page ends the loop. -/
theorem fetch_pages_exact (server : Server) (page count : Nat) (printed : List Json)
    (sent : List String) (aligned : sent.length = page) :
    fetchPages (List.range' page count) printed ⟨server, sent⟩ =
      (printed ++ (List.range' page count).map (pageDocument server),
        ⟨server, sent ++ (List.range' page count).map urlPaginated⟩) := by
  induction count generalizing page printed sent with
  | zero => simp [fetchPages]
  | succ count ih =>
      have asked : requestApi (urlPaginated page) ⟨server, sent⟩ =
          (pageDocument server page, ⟨server, sent ++ [urlPaginated page]⟩) := by
        simp only [requestApi, requestJson, connectToEndpoint, aligned, pageDocument, pageReply,
          url_paginated_same]
        cases (server page (urlPaginated page)).bind Response.decode <;> rfl
      have later := ih (page + 1) (printed ++ [pageDocument server page])
        (sent ++ [urlPaginated page]) (by simp [aligned])
      rw [List.range'_succ, fetchPages, asked]
      simp only [later, List.map_cons, List.append_assoc, List.singleton_append]

/-- The totals the script counts pages with. -/
inductive Counts (fields : Record) : Int → Prop where
  | int (total : Int) (reported : fields.lookup "total" = some (.int total)) : Counts fields total
  | bool (total : Bool) (reported : fields.lookup "total" = some (.bool total)) :
      Counts fields (if total then 1 else 0)

/-- The page numbers of `range(1, total_pages + 1)`, none when the total is not positive. -/
def pageNumbers (total : Int) : List Nat := List.range' 1 ((total + perPage - 1) / perPage).toNat

theorem total_breweries_object (metaData total : Json)
    (found : totalBreweries metaData = .ok (some total)) :
    ∃ fields, metaData = .obj fields ∧ fields.lookup "total" = some total := by
  unfold totalBreweries at found
  split at found
  · simp at found
  · split at found
    · exact ⟨_, rfl, Except.ok.inj found⟩
    · split at found <;> cases found
    · split at found <;> cases found
    · cases found

/-- `range` refuses the quotient of every other total. -/
theorem total_pages_counts (fields : Record) (total : Json) (pages : Int)
    (reported : fields.lookup "total" = some total) (counted : totalPages total = .ok pages) :
    ∃ count, Counts fields count ∧ pages = (count + perPage - 1) / perPage := by
  unfold totalPages at counted
  split at counted
  · exact ⟨_, .int _ reported, (Except.ok.inj counted).symm⟩
  · exact ⟨_, .bool _ reported, (Except.ok.inj counted).symm⟩
  · cases counted

theorem counts_total (fields : Record) (count : Int) (counts : Counts fields count) :
    ∃ total, totalBreweries (.obj fields) = .ok (some total) ∧
      totalPages total = .ok ((count + perPage - 1) / perPage) := by
  have full (total : Json) (reported : fields.lookup "total" = some total) :
      totalBreweries (.obj fields) = .ok (some total) := by
    have nonempty : fields.isEmpty = false := by
      cases fields with
      | nil => simp at reported
      | cons field rest => rfl
    simp [totalBreweries, Json.truthy, nonempty, reported]
  cases counts with
  | int _ reported => exact ⟨_, full _ reported, rfl⟩
  | bool total reported => exact ⟨_, full _ reported, rfl⟩

/-- The first request is the metadata's. -/
theorem request_meta (server : Server) : requestApi metaUrl ⟨server, []⟩ =
    ((metaReply origin server).toOption.getD .null, ⟨server, [metaUrl]⟩) := by
  simp only [requestApi, requestJson, connectToEndpoint, metaReply, meta_url_same,
    List.length_nil, List.nil_append]
  cases (server 0 metaUrl).bind Response.decode <;> rfl

section Runs
variable (server : Server)

/-- The metadata is an object whose total the script can count pages with. -/
def Begins (count : Int) : Prop :=
  ∃ fields, metaReply origin server = .ok (.obj fields) ∧ Counts fields count

/-- Once the loop has begun every page is asked for, whatever the pages answer. -/
theorem script_loops (count : Int) (begins : Begins server count) :
    script server = (.ok ((pageNumbers count).map (pageDocument server)),
      ⟨server, metaUrl :: (pageNumbers count).map urlPaginated⟩) := by
  obtain ⟨fields, answered, counts⟩ := begins
  obtain ⟨total, found, counted⟩ := counts_total fields count counts
  have looped := fetch_pages_exact server 1 ((count + perPage - 1) / perPage).toNat [] [metaUrl] rfl
  simp only [script, request_meta, answered, Except.toOption, Option.getD_some, found, counted,
    looped, pageNumbers, List.nil_append, List.singleton_append]

theorem script_crashes (stuck : ¬ ∃ count, Begins server count) :
    ∃ crash, script server = (.error crash, ⟨server, [metaUrl]⟩) := by
  have asked := request_meta server
  generalize metaData : (metaReply origin server).toOption.getD .null = body at asked
  rw [script, asked]
  rcases found : totalBreweries body with crash | total
  · exact ⟨crash, by simp only [found]⟩
  cases total with
  | none => exact ⟨.nameError, by simp only [found]⟩
  | some total =>
      rcases counted : totalPages total with crash | pages
      · exact ⟨crash, by simp only [found, counted]⟩
      obtain ⟨fields, rfl, reported⟩ := total_breweries_object body total found
      obtain ⟨count, counts, _⟩ := total_pages_counts fields total pages reported counted
      refine absurd ⟨count, fields, ?_, counts⟩ stuck
      rcases reply : metaReply origin server with failure | answer
      · simp [reply, Except.toOption] at metaData
      · simp only [reply, Except.toOption, Option.getD_some] at metaData
        rw [metaData]

/-- The script prints one document for every page up to its total, `null` for a
page that fails, or it crashes before it has asked for a page. -/
theorem script_run :
    (∃ count, Begins server count ∧
      script server = (.ok ((pageNumbers count).map (pageDocument server)),
        ⟨server, metaUrl :: (pageNumbers count).map urlPaginated⟩)) ∨
    ((¬ ∃ count, Begins server count) ∧
      ∃ crash, script server = (.error crash, ⟨server, [metaUrl]⟩)) := by
  by_cases begins : ∃ count, Begins server count
  · obtain ⟨count, begins⟩ := begins
    exact Or.inl ⟨count, begins, script_loops server count begins⟩
  · exact Or.inr ⟨begins, script_crashes server begins⟩

end Runs

/-! The hook beside the script. -/

theorem counts_size (fields : Record) (count : Int) (counts : Counts fields count)
    (size : ∀ total, fields.lookup "total" = some (.int total) → |total| ≤ exactTotal) :
    |count| ≤ exactTotal := by
  cases counts with
  | int _ reported => exact size count reported
  | bool total reported => cases total <;> decide

/-- The script's quotient is the hook's ceiling, up to the total for which the
hook's float is good enough. -/
theorem hook_pages (fields : Record) (count : Int) (counts : Counts fields count)
    (size : |count| ≤ exactTotal) :
    (Brewery.totalPages (.obj fields)).map (Option.getD · 0) =
      .ok ((count + perPage - 1) / perPage).toNat := by
  cases counts with
  | int _ reported =>
      rw [total_pages_quotient fields count reported, quotient_pages_exact count size, ceil_quotient]
  | bool total reported =>
      rw [Brewery.totalPages, counted_total _ fields _ reported]
      cases total with
      | false => rfl
      | true => exact (quotient_pages_exact 1 (by decide)).trans (by rw [ceil_quotient]; rfl)

/-- The hook keeps what the script prints, up to the first falsy document. -/
theorem served_documents (server : Server) (page count : Nat) :
    servedFrom (pageReply origin server) page count =
      ((List.range' page count).map (pageDocument server)).takeWhile Json.truthy := by
  induction count generalizing page with
  | zero => rfl
  | succ count ih =>
      rw [servedFrom, ih, List.range'_succ, List.map_cons, List.takeWhile_cons, pageDocument]
      cases pageReply origin server page with
      | error failure => rfl
      | ok body => cases full : body.truthy <;> simp [Except.toOption, full]

/-- A loop that stops at the first falsy item has asked for every item when all
but the last are truthy. -/
theorem take_while_reaches {Item : Type} (keep : Item → Bool) (items : List Item) :
    items.length ≤ (items.takeWhile keep).length + 1 ↔ ∀ item ∈ items.dropLast, keep item = true := by
  induction items with
  | nil => simp
  | cons item rest ih =>
      cases rest with
      | nil => simp
      | cons second rest =>
          rw [List.dropLast_cons_cons, List.forall_mem_cons, List.takeWhile_cons, ← ih]
          cases keep item <;> simp

/-- Where the script comes to its end the hook returns what the script prints
before the first falsy document. Its requests are the script's first ones, and
they are all of them when no document but the last is falsy. -/
theorem hook_refines_script (server : Server) (docs : List Json) (final : Session)
    (ends : script server = (.ok docs, final))
    (size : ∀ fields total, metaReply origin server = .ok (.obj fields) →
      fields.lookup "total" = some (.int total) → |total| ≤ exactTotal) :
    let outcome := paginate origin ⟨server, []⟩
    outcome.1 = .ok (docs.takeWhile Json.truthy) ∧ outcome.2.sent <+: final.sent ∧
      (outcome.2.sent = final.sent ↔ ∀ doc ∈ docs.dropLast, doc.truthy = true) := by
  intro outcome
  by_cases begins : ∃ count, Begins server count
  · obtain ⟨count, begins⟩ := begins
    obtain ⟨documents, rfl⟩ := Prod.mk.inj (ends.symm.trans (script_loops server count begins))
    obtain ⟨fields, answered, counts⟩ := begins
    have number := hook_pages fields count counts (counts_size fields count counts
      fun total reported => size fields total answered reported)
    have reported : reportedPages Brewery.totalPages origin server =
        .ok ((count + perPage - 1) / perPage).toNat := by
      simp only [reportedPages, answered, Except.bind, number]
    have ran := paginate_run Brewery.totalPages origin server _ reported
    have urls : pageUrl origin = urlPaginated := funext url_paginated_same
    rw [served_documents, ← pageNumbers, ← Except.ok.inj documents, meta_url_same, urls] at ran
    have length : docs.length = ((count + perPage - 1) / perPage).toNat := by
      simp [Except.ok.inj documents, pageNumbers]
    have numbers : pageNumbers count = List.range' 1 docs.length := length ▸ rfl
    rw [← length] at ran
    simp only [outcome, ran, numbers, true_and, ← take_while_reaches]
    have first : (List.range' 1 (min ((docs.takeWhile Json.truthy).length + 1) docs.length)).map
        urlPaginated <+: (List.range' 1 docs.length).map urlPaginated := by
      rw [← List.take_range'_of_length_ge (Nat.min_le_right _ docs.length)]
      exact (List.take_prefix _ _).map urlPaginated
    refine ⟨List.cons_prefix_cons.mpr ⟨rfl, first⟩, ?_⟩
    rw [List.cons_inj_right]
    constructor
    · intro same
      have lengths := congrArg List.length same
      simp only [List.length_map, List.length_range'] at lengths
      omega
    · intro reaches
      rw [Nat.min_eq_right reaches]
  · obtain ⟨crash, crashed⟩ := script_crashes server begins
    rw [crashed] at ends
    cases ends

/-- Three pages, of which the second fails: the script prints `null` for it and
fetches the third, the hook does not. -/
def failingServer : Server := fun sent _ =>
  match sent with
  | 0 => .ok (.json (.obj [("total", .int 101)]))
  | 2 => .error .httpError
  | _ => .ok (.json (.arr [.obj []]))

theorem failing_hook_refines :
    let docs : List Json := [.arr [.obj []], .null, .arr [.obj []]]
    let outcome := paginate origin ⟨failingServer, []⟩
    outcome.1 = .ok (docs.takeWhile Json.truthy) ∧
      outcome.2.sent <+: metaUrl :: [1, 2, 3].map urlPaginated ∧
      (outcome.2.sent = metaUrl :: [1, 2, 3].map urlPaginated ↔
        ∀ doc ∈ docs.dropLast, doc.truthy = true) :=
  hook_refines_script failingServer _ ⟨failingServer, metaUrl :: [1, 2, 3].map urlPaginated⟩
    (script_loops failingServer 101 ⟨_, rfl, .int 101 rfl⟩) (by
      intro fields total answered reported
      cases answered
      cases reported
      decide)

end Brewery.ApiExtraction
