import BreweryPipeline.Lake
import BreweryPipeline.Support.Binary64

/-!
airflow_pipeline/hook/brewery_hook.py. A server answers the n-th request of a
session, so one that changes between two requests is a server too. The page loop
keeps what it collected when a page is falsy and when its request or its decoding
raises; the metadata request and the page count are outside the `try` block.
-/

namespace Brewery

open Support.JsonText Support.Binary64

/-- A reply with a success status: its body decodes, or it is empty or not JSON. -/
inductive Response where
  | json (body : Json)
  | notJson

def Response.decode : Response → Except Failure Json
  | .json body => .ok body
  | .notJson => .error .jsonDecodeError

/-- The reply to a URL, given how many requests the session sent before. An
error is what `run_and_check` raises. -/
abbrev Server := Nat → String → Except Failure Response

structure Session where
  server : Server
  sent : List String

def perPage : Nat := 50

def createUrl (baseUrl endpoint : String) (params : List (String × Nat)) : String :=
  let urlRaw := baseUrl ++ endpoint
  if params.isEmpty then urlRaw
  else urlRaw ++ "?" ++ "&".intercalate (params.map fun param => param.1 ++ "=" ++ toString param.2)

def metaUrl (baseUrl : String) : String := createUrl baseUrl "/v1/breweries/meta" []

def pageUrl (baseUrl : String) (page : Nat) : String :=
  createUrl baseUrl "/v1/breweries" [("page", page), ("per_page", perPage)]

def connectToEndpoint (url : String) (session : Session) : Except Failure Response × Session :=
  (session.server session.sent.length url, { session with sent := session.sent ++ [url] })

/-- `connect_to_endpoint(url, session).json()`. -/
def requestJson (url : String) (session : Session) : Except Failure Json × Session :=
  let (reply, session) := connectToEndpoint url session
  (reply.bind Response.decode, session)

/-- A float result; the division raises for one out of range, and `ceil` for a
total that was infinite already. -/
def asFloat (value : Rat) : Except Failure Rat := (toDouble value).elim (.error .overflowError) .ok

/-- The left operand of `/`. A float is the double its literal is read as. -/
def dividend : Json → Except Failure Rat
  | .bool value => .ok (if value then 1 else 0)
  | .int value => .ok value
  | .float literal => asFloat literal.toRat
  | _ => .error .typeError

/-- `ceil(total / per_page)`: `/` gives the double nearest to the quotient. -/
def quotientPages (total : Rat) : Except Failure Nat :=
  (asFloat (total / perPage)).map fun quotient => ⌈quotient⌉.toNat

/-- `total_pages`, absent when the total is falsy, with `ceil(total / per_page)` as a
parameter. -/
def totalPagesBy (ceilQuotient : Json → Except Failure Nat) (metaData : Json) :
    Except Failure (Option Nat) :=
  match metaData with
  | .obj fields =>
      -- `.get('total', 0)`: a body that is not an object has no `get`.
      let total := (fields.lookup "total").getD (.int 0)
      if !total.truthy then .ok none else (ceilQuotient total).map some
  | _ => .error .attributeError

abbrev totalPages (metaData : Json) : Except Failure (Option Nat) :=
  totalPagesBy (fun total => (dividend total).bind quotientPages) metaData

def extractPages (baseUrl : String) : List Nat → List Json → Session → List Json × Session
  | [], listJsonResponse, session => (listJsonResponse, session)
  | page :: rest, listJsonResponse, session =>
      match requestJson (pageUrl baseUrl page) session with
      | (.ok jsonResponse, session) =>
          if jsonResponse.truthy then
            extractPages baseUrl rest (listJsonResponse ++ [jsonResponse]) session
          else (listJsonResponse, session)
      -- `except Exception`: a failed request and a body that does not decode alike.
      | (.error _, session) => (listJsonResponse, session)

/-- `paginate` with its page count as a parameter. -/
def paginateBy (countPages : Json → Except Failure (Option Nat)) (baseUrl : String)
    (session : Session) : Except Failure (List Json) × Session :=
  match requestJson (metaUrl baseUrl) session with
  -- The metadata request stands outside the `try` block, and so does the page count.
  | (.error failure, session) => (.error failure, session)
  | (.ok metaData, session) =>
      match countPages metaData with
      | .error failure => (.error failure, session)
      | .ok none => (.ok [], session)
      | .ok (some pages) =>
          let (listJsonResponse, session) := extractPages baseUrl (List.range' 1 pages) [] session
          (.ok listJsonResponse, session)

abbrev paginate (baseUrl : String) (session : Session) : Except Failure (List Json) × Session :=
  paginateBy totalPages baseUrl session

/-- `run`: the connection gives the base URL, then the pages are collected. -/
def runHook (connection : Except Failure String) (server : Server) : Except Failure (List Json) :=
  connection.bind fun baseUrl => (paginate baseUrl ⟨server, []⟩).1

/-! What the loop computes, apart from how: the bodies of the longest run of
pages that answer with a truthy value. -/

/-- The decoded reply to page `page` of a session that asked for the metadata
and then for the pages in turn. -/
def pageReply (baseUrl : String) (server : Server) (page : Nat) : Except Failure Json :=
  (server page (pageUrl baseUrl page)).bind Response.decode

def metaReply (baseUrl : String) (server : Server) : Except Failure Json :=
  (server 0 (metaUrl baseUrl)).bind Response.decode

def servedFrom (reply : Nat → Except Failure Json) : Nat → Nat → List Json
  | _, 0 => []
  | page, count + 1 =>
      match reply page with
      | .ok body => if body.truthy then body :: servedFrom reply (page + 1) count else []
      | .error _ => []

/-- Every kept body is the truthy reply of its own page. -/
theorem served_get (reply : Nat → Except Failure Json) (page count index : Nat) (body : Json)
    (kept : (servedFrom reply page count)[index]? = some body) :
    reply (page + index) = .ok body ∧ body.truthy = true := by
  induction count generalizing page index with
  | zero => simp [servedFrom] at kept
  | succ count ih =>
      simp only [servedFrom] at kept
      split at kept
      · rename_i first answer
        split at kept
        · rename_i full
          cases index with
          | zero =>
              simp only [List.getElem?_cons_zero, Option.some.injEq] at kept
              exact kept ▸ ⟨answer, full⟩
          | succ index =>
              rw [List.getElem?_cons_succ] at kept
              have later := ih (page + 1) index kept
              rwa [Nat.add_right_comm, Nat.add_assoc] at later
        · simp at kept
      · simp at kept

/-- The page after the kept ones did not answer with a truthy value. -/
theorem served_stop (reply : Nat → Except Failure Json) (page count : Nat)
    (short : (servedFrom reply page count).length < count) (body : Json)
    (answer : reply (page + (servedFrom reply page count).length) = .ok body) :
    body.truthy = false := by
  induction count generalizing page with
  | zero => exact absurd short (Nat.not_lt_zero _)
  | succ count ih =>
      cases first : reply page with
      | error failure => simp [servedFrom, first] at answer
      | ok head =>
          by_cases full : head.truthy = true
          · simp only [servedFrom, first, full, if_true, List.length_cons] at short answer
            rw [Nat.add_comm _ 1, ← Nat.add_assoc] at answer
            exact ih (page + 1) (by omega) answer
          · simp only [servedFrom, first, full, if_false, Bool.false_eq_true, List.length_nil,
              Nat.add_zero, Except.ok.injEq] at answer
            exact answer ▸ Bool.not_eq_true _ ▸ full

/-- The reply to a page decodes, to a truthy value. -/
def Answers (reply : Nat → Except Failure Json) (page : Nat) : Prop :=
  ∃ body, reply page = .ok body ∧ body.truthy = true

/-- The bodies kept are those of the pages before the first that does not answer. -/
theorem served_prefix (reply : Nat → Except Failure Json) (bodies : Nat → Json)
    (page kept rest : Nat)
    (answers : ∀ index < kept, reply (page + index) = .ok (bodies (page + index)) ∧
      (bodies (page + index)).truthy = true)
    (stops : rest = 0 ∨ ¬ Answers reply (page + kept)) :
    servedFrom reply page (kept + rest) = (List.range' page kept).map bodies := by
  induction kept generalizing page with
  | zero =>
      rw [Nat.zero_add]
      cases rest with
      | zero => rfl
      | succ rest =>
          have silent : ¬ Answers reply page := stops.resolve_left (Nat.succ_ne_zero rest)
          cases first : reply page with
          | error failure => simp [servedFrom, first]
          | ok body =>
              have falsy : ¬ body.truthy = true := fun full => silent ⟨body, first, full⟩
              simp [servedFrom, first, falsy]
  | succ kept ih =>
      obtain ⟨first, full⟩ := answers 0 (Nat.succ_pos kept)
      have later := ih (page + 1)
        (fun index bound => by
          have next := answers (index + 1) (by omega)
          rwa [Nat.add_comm index 1, ← Nat.add_assoc] at next)
        (by rwa [Nat.add_right_comm, Nat.add_assoc])
      rw [Nat.add_zero] at first full
      simp only [Nat.succ_add, servedFrom, first, full, if_true, later, List.range'_succ,
        List.map_cons]

/-- The loop keeps exactly the served bodies and asks for one page more than it
keeps, unless it kept them all. -/
theorem extract_pages_exact (baseUrl : String) (server : Server) (page count : Nat)
    (collected : List Json) (sent : List String) (aligned : sent.length = page) :
    extractPages baseUrl (List.range' page count) collected ⟨server, sent⟩ =
      (collected ++ servedFrom (pageReply baseUrl server) page count,
        ⟨server, sent ++ (List.range' page
          (min ((servedFrom (pageReply baseUrl server) page count).length + 1) count)).map
            (pageUrl baseUrl)⟩) := by
  induction count generalizing page collected sent with
  | zero => simp [extractPages, servedFrom]
  | succ count ih =>
      have asked : requestJson (pageUrl baseUrl page) ⟨server, sent⟩ =
          (pageReply baseUrl server page, ⟨server, sent ++ [pageUrl baseUrl page]⟩) := by
        simp [requestJson, connectToEndpoint, pageReply, aligned]
      rw [List.range'_succ, extractPages, asked]
      cases reply : pageReply baseUrl server page with
      | error failure => simp [servedFrom, reply]
      | ok body =>
          by_cases full : body.truthy = true
          · have next := ih (page + 1) (collected ++ [body]) (sent ++ [pageUrl baseUrl page])
              (by simp [aligned])
            simp [servedFrom, reply, full, next, Nat.add_min_add_right, List.range'_succ]
          · simp [servedFrom, reply, full]

section Calls
variable (countPages : Json → Except Failure (Option Nat)) (baseUrl : String) (server : Server)

/-- How many pages the loop asks for at most. -/
def reportedPages : Except Failure Nat :=
  (metaReply baseUrl server).bind fun metaData => (countPages metaData).map (Option.getD · 0)

theorem meta_asked : requestJson (metaUrl baseUrl) ⟨server, []⟩ =
    (metaReply baseUrl server, ⟨server, [metaUrl baseUrl]⟩) := by
  simp [requestJson, connectToEndpoint, metaReply]

/-- Behind its page count a call returns the served bodies. -/
theorem paginate_run (pages : Nat) (reported : reportedPages countPages baseUrl server = .ok pages) :
    paginateBy countPages baseUrl ⟨server, []⟩ =
      (.ok (servedFrom (pageReply baseUrl server) 1 pages),
        ⟨server, metaUrl baseUrl :: (List.range' 1
          (min ((servedFrom (pageReply baseUrl server) 1 pages).length + 1) pages)).map
            (pageUrl baseUrl)⟩) := by
  rw [paginateBy, meta_asked]
  rcases reply : metaReply baseUrl server with failure | metaData
  · simp [reportedPages, reply, Except.bind] at reported
  rcases total : countPages metaData with failure | count
  · simp [reportedPages, reply, total, Except.bind, Except.map] at reported
  simp only [reportedPages, reply, total, Except.bind, Except.map, Except.ok.injEq] at reported
  subst reported
  cases count with
  | none => simp [total, servedFrom]
  | some pages => simp [total, extract_pages_exact baseUrl server 1 pages]

/-- A call raises as the metadata request or the page count does. -/
theorem paginate_raises (failure : Failure)
    (reported : reportedPages countPages baseUrl server = .error failure) :
    paginateBy countPages baseUrl ⟨server, []⟩ = (.error failure, ⟨server, [metaUrl baseUrl]⟩) := by
  rw [paginateBy, meta_asked]
  rcases reply : metaReply baseUrl server with other | metaData
  · simpa [reportedPages, reply, Except.bind] using reported
  rcases total : countPages metaData with other | count
  · simpa [reportedPages, reply, total, Except.bind, Except.map] using reported
  · simp [reportedPages, reply, total, Except.bind, Except.map] at reported

theorem paginate_result : (paginateBy countPages baseUrl ⟨server, []⟩).1 =
    (reportedPages countPages baseUrl server).map (servedFrom (pageReply baseUrl server) 1) := by
  rcases reported : reportedPages countPages baseUrl server with failure | pages
  · rw [paginate_raises countPages baseUrl server failure reported]
    rfl
  · rw [paginate_run countPages baseUrl server pages reported]
    rfl

end Calls

/-- When every page answers, the hook returns them all. -/
theorem hook_all_pages (baseUrl : String) (server : Server) (pages : Nat)
    (reported : reportedPages totalPages baseUrl server = .ok pages) (bodies : Nat → Json)
    (answers : ∀ page, 1 ≤ page → page ≤ pages →
      pageReply baseUrl server page = .ok (bodies page) ∧ (bodies page).truthy = true) :
    runHook (.ok baseUrl) server = .ok ((List.range' 1 pages).map bodies) := by
  have served := served_prefix (pageReply baseUrl server) bodies 1 pages 0
    (fun index bound => answers (1 + index) (by omega) (by omega)) (Or.inl rfl)
  rw [Nat.add_zero] at served
  simp only [runHook, Except.bind, paginate_run totalPages baseUrl server pages reported, served]

/-! Metadata that reports a number of records. -/

/-- `ceil(total / 50)`. -/
def pageCount (total : Nat) : Nat := (total + 49) / 50

/-- The metadata request answers with a number of records. -/
def Reports (baseUrl : String) (server : Server) (total : Nat) : Prop :=
  ∃ fields : Record, metaReply baseUrl server = .ok (.obj fields) ∧
    fields.lookup "total" = some (.int total)

theorem counted_total (ceilQuotient : Json → Except Failure Nat) (fields : Record) (total : Json)
    (reported : fields.lookup "total" = some total) :
    (totalPagesBy ceilQuotient (.obj fields)).map (Option.getD · 0) =
      if total.truthy then ceilQuotient total else .ok 0 := by
  simp only [totalPagesBy, reported, Option.getD_some]
  cases total.truthy with
  | false => rfl
  | true => cases ceilQuotient total <;> rfl

/-- The total is counted as its pages in number, none when it is zero. -/
def CountsExactly (countPages : Json → Except Failure (Option Nat)) (total : Nat) : Prop :=
  ∀ fields : Record, fields.lookup "total" = some (.int total) →
    (countPages (.obj fields)).map (Option.getD · 0) = .ok (pageCount total)

theorem reported_exact (countPages : Json → Except Failure (Option Nat)) (baseUrl : String)
    (server : Server) (total : Nat) (exact : CountsExactly countPages total)
    (reports : Reports baseUrl server total) :
    reportedPages countPages baseUrl server = .ok (pageCount total) := by
  obtain ⟨fields, answered, reported⟩ := reports
  simp only [reportedPages, answered, Except.bind, exact fields reported]

/-! The URL of a page names it: two pages of one session never share a URL. -/

theorem page_url_text (baseUrl : String) (page : Nat) :
    (pageUrl baseUrl page).toList = (baseUrl ++ "/v1/breweries").toList ++
      ("?page=".toList ++ (dumpsNat page ++ '&' :: "per_page=50".toList)) := by
  have perPageText : Nat.toDigits 10 50 = ['5', '0'] := by decide
  simp [pageUrl, createUrl, perPage, dumpsNat, Nat.toList_repr, perPageText]

theorem page_url_injective (baseUrl : String) : Function.Injective (pageUrl baseUrl) := by
  intro left right same
  have texts := congrArg String.toList same
  rw [page_url_text, page_url_text] at texts
  have digits := List.append_cancel_left texts
  have digits := List.append_cancel_left digits
  have behind : DigitEnds ('&' :: "per_page=50".toList) := by unfold DigitEnds; decide
  have spans := congrArg (List.span Char.isDigit) digits
  rw [span_digits _ _ (dumps_nat_digits left) behind, span_digits _ _ (dumps_nat_digits right) behind]
    at spans
  have read := congrArg (fun text => Nat.ofDigitChars 10 text 0) (congrArg Prod.fst spans)
  simpa [dumpsNat, Nat.ofDigitChars_ten_toDigits] using read

theorem meta_url_not_page (baseUrl : String) (page : Nat) : metaUrl baseUrl ≠ pageUrl baseUrl page := by
  intro same
  have texts := congrArg String.toList same
  rw [page_url_text] at texts
  have apart : (metaUrl baseUrl).toList = (baseUrl ++ "/v1/breweries").toList ++ "/meta".toList := by
    simp [metaUrl, createUrl, String.toList_append]
  rw [apart] at texts
  have heads := List.append_cancel_left texts
  simp at heads

end Brewery
