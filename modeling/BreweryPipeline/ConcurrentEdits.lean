import BreweryPipeline.Pagination

/-!
A source that is edited while `paginate` reads it. The server answers each request
from the records it holds at that moment, in one fixed order, and the page numbers
of the hook are offsets into that order: an edit before a record shifts it, and
may carry it across the border between a page that has been read and one that has not.
-/

namespace Brewery

open Support.JsonText Support.Paging

inductive Edit (Item : Type) where
  | insert (item : Item)
  | delete (item : Item)

def Edit.item {Item : Type} : Edit Item → Item
  | .insert item => item
  | .delete item => item

section Edits
variable {Item : Type} [LinearOrder Item]

def applyEdit (items : Finset Item) : Edit Item → Finset Item
  | .insert item => insert item items
  | .delete item => items.erase item

/-- What the server holds at the n-th request of the session, of which the
metadata request is number 0: `edits n` come between requests n and n + 1. -/
def collectionAt (start : Finset Item) (edits : Nat → List (Edit Item)) : Nat → Finset Item
  | 0 => start
  | request + 1 => (edits request).foldl applyEdit (collectionAt start edits request)

structure ServesEdited (baseUrl : String) (server : Server) (fields : Item → Record)
    (items : Nat → Finset Item) : Prop where
  total : Reports baseUrl server (items 0).card
  page : ∀ page, 1 ≤ page → pageReply baseUrl server page =
    .ok (recordsPage ((slice perPage (ascending (items page)) page).map fields))

end Edits

/-- How many pages a call asks for. -/
def pageRequests (countPages : Json → Except Failure (Option Nat)) (baseUrl : String)
    (server : Server) : Nat := (paginateBy countPages baseUrl ⟨server, []⟩).2.sent.length - 1

section Served
variable {Item : Type} [LinearOrder Item] (countPages : Json → Except Failure (Option Nat))
  (fields : Item → Record) (baseUrl : String) (server : Server) (items : Nat → Finset Item)

def slicesOf (count : Nat) : List (List Item) :=
  (List.range' 1 count).map fun page => slice perPage (ascending (items page)) page

/-- The call returns the pages before the first that was empty when it was asked for. -/
theorem served_slices (exact : CountsExactly countPages (items 0).card)
    (serves : ServesEdited baseUrl server fields items) :
    ∃ kept ≤ pageCount (items 0).card,
      (paginateBy countPages baseUrl ⟨server, []⟩).1 =
        .ok ((slicesOf items kept).map fun page => recordsPage (page.map fields)) ∧
      pageRequests countPages baseUrl server = min (kept + 1) (pageCount (items 0).card) ∧
      (kept = pageCount (items 0).card ∨
        slice perPage (ascending (items (kept + 1))) (kept + 1) = []) := by
  obtain ⟨kept, within, full, stops⟩ := pages_until
    (fun page => slice perPage (ascending (items page)) page ≠ []) (pageCount (items 0).card)
  have stops := stops.imp id not_not.mp
  obtain ⟨returned, asked⟩ := paginate_first_pages countPages baseUrl server (pageCount (items 0).card)
    (reported_exact countPages baseUrl server _ exact serves.total)
    (fun page => recordsPage ((slice perPage (ascending (items page)) page).map fields)) kept within
    (fun page first last => ⟨serves.page page first, (records_page_truthy _).mpr fun gone =>
      full page first last (List.map_eq_nil_iff.mp gone)⟩)
    (stops.imp id fun gone answers => by
      obtain ⟨body, reply, truthy⟩ := answers
      rw [serves.page (kept + 1) (Nat.le_add_left 1 kept), Except.ok.injEq] at reply
      exact (records_page_truthy _).mp (reply ▸ truthy) (by rw [gone, List.map_nil]))
  refine ⟨kept, within, ?_, ?_, stops⟩
  · rw [returned, slicesOf, List.map_map]
    rfl
  · simp only [pageRequests, asked, List.length_cons, List.length_map, List.length_range',
      Nat.add_sub_cancel]

variable (record : Item)

/-- How often a record is met: at each page that is its own when it is asked for. -/
def timesMet (requests : Nat) : Nat :=
  (List.range' 1 requests).countP fun page => pageOf perPage (items page) record = page

theorem count_slices (requests : Nat)
    (present : ∀ page, 1 ≤ page → page ≤ requests → record ∈ items page) :
    (slicesOf items requests).flatten.count record = timesMet items record requests := by
  induction requests with
  | zero => rfl
  | succ requests ih =>
      have here := count_slice perPage (items (1 + requests)) record
        (present _ (by omega) (by omega)) (1 + requests) (by decide) (by omega)
      have earlier := ih fun page first last => present page first (by omega)
      simp only [slicesOf, timesMet, List.range'_concat, List.map_append, List.map_singleton,
        List.flatten_append, List.flatten_singleton, List.count_append, List.countP_append,
        List.countP_singleton, decide_eq_true_eq, Nat.one_mul] at earlier ⊢
      rw [earlier, here]

theorem met_pos_iff (requests : Nat) : 1 ≤ timesMet items record requests ↔
    ∃ page, 1 ≤ page ∧ page ≤ requests ∧ pageOf perPage (items page) record = page := by
  rw [timesMet, Nat.succ_le_iff, List.countP_pos_iff]
  constructor
  · rintro ⟨page, member, met⟩
    obtain ⟨first, last⟩ := List.mem_range'_1.mp member
    exact ⟨page, first, by omega, of_decide_eq_true met⟩
  · rintro ⟨page, first, last, met⟩
    exact ⟨page, List.mem_range'_1.mpr ⟨first, by omega⟩, decide_eq_true met⟩

theorem met_once (requests : Nat)
    (unique : ∀ m n, 1 ≤ m → m ≤ n → n ≤ requests → pageOf perPage (items m) record = m →
      pageOf perPage (items n) record = n → m = n) : timesMet items record requests ≤ 1 := by
  rw [timesMet, List.countP_eq_length_filter]
  have ascending : (List.range' 1 requests).Pairwise (· < ·) := List.pairwise_lt_range'
  have increasing := ascending.filter fun page => decide (pageOf perPage (items page) record = page)
  generalize found : (List.range' 1 requests).filter
    (fun page => decide (pageOf perPage (items page) record = page)) = pages at increasing
  match pages with
  | [] => exact Nat.zero_le 1
  | [_] => exact le_rfl
  | m :: n :: rest =>
      have order : m < n := (List.pairwise_cons.mp increasing).1 n List.mem_cons_self
      have member (page : Nat) (inside : page ∈ m :: n :: rest) :
          (1 ≤ page ∧ page ≤ requests) ∧ pageOf perPage (items page) record = page := by
        rw [← found, List.mem_filter, List.mem_range'_1, decide_eq_true_eq] at inside
        exact ⟨by omega, inside.2⟩
      have low := member m List.mem_cons_self
      have high := member n (List.mem_cons_of_mem m List.mem_cons_self)
      exact absurd (unique m n low.1.1 order.le high.1.2 low.2 high.2) order.ne

/-- The pages kept count a record that is there throughout as often as its own
page is asked for: the page behind them was empty, or there was none. -/
theorem kept_count (kept requests total : Nat) (within : kept ≤ total)
    (asked : requests = min (kept + 1) total)
    (stops : kept = total ∨ slice perPage (ascending (items (kept + 1))) (kept + 1) = [])
    (present : ∀ request ≤ requests, record ∈ items request) :
    (slicesOf items kept).flatten.count record = timesMet items record requests := by
  rw [← count_slices items record requests fun page _ last => present page last]
  by_cases last : kept = total
  · rw [asked, last, Nat.min_eq_right (Nat.le_succ total)]
  · have further : requests = kept + 1 := by omega
    rw [further]
    simp only [slicesOf, List.range'_concat, List.map_append, List.map_singleton,
      List.flatten_append, List.flatten_singleton, Nat.one_mul, Nat.add_comm 1 kept,
      stops.resolve_left last, List.append_nil]

theorem returned_count (exact : CountsExactly countPages (items 0).card)
    (serves : ServesEdited baseUrl server fields items)
    (present : ∀ request ≤ pageRequests countPages baseUrl server, record ∈ items request) :
    ∃ pages : List (List Item),
      (paginateBy countPages baseUrl ⟨server, []⟩).1 =
        .ok (pages.map fun page => recordsPage (page.map fields)) ∧
      pages.flatten.count record =
        timesMet items record (pageRequests countPages baseUrl server) := by
  obtain ⟨kept, within, returned, asked, stops⟩ :=
    served_slices countPages fields baseUrl server items exact serves
  exact ⟨slicesOf items kept, returned,
    kept_count items record kept _ _ within asked stops present⟩

/-- A call asks for every page up to the first total, or stops behind the page of
any record that is there. -/
theorem requests_reach (exact : CountsExactly countPages (items 0).card)
    (serves : ServesEdited baseUrl server fields items)
    (present : ∀ request ≤ pageRequests countPages baseUrl server, record ∈ items request) :
    let requests := pageRequests countPages baseUrl server
    1 ≤ requests ∧
      (requests = pageCount (items 0).card ∨ pageOf perPage (items requests) record < requests) := by
  intro requests
  have some := Finset.card_pos.mpr ⟨record, present 0 (Nat.zero_le _)⟩
  obtain ⟨kept, within, _, asked, stops⟩ :=
    served_slices countPages fields baseUrl server items exact serves
  change requests = _ at asked
  have pages : 1 ≤ pageCount (items 0).card := by
    simp only [pageCount]
    omega
  constructor
  · omega
  · by_cases last : requests = pageCount (items 0).card
    · exact Or.inl last
    · have stopped : requests = kept + 1 := by omega
      have gone := stops.resolve_left (by omega)
      right
      by_contra inside
      have there := present requests le_rfl
      rw [stopped] at inside there
      exact slice_upto_page perPage (items (kept + 1)) record there (kept + 1) (by decide)
        (Nat.not_lt.mp inside) gone

end Served

/-! What edits do to the page of a record they leave alone. -/
section Moves
variable {Item : Type} [LinearOrder Item] (record : Item)

theorem page_after_inserts (items : Finset Item) (edits : List (Edit Item))
    (inserts : ∀ edit ∈ edits, ∃ item, edit = .insert item) :
    pageOf perPage items record ≤ pageOf perPage (edits.foldl applyEdit items) record := by
  induction edits generalizing items with
  | nil => exact le_rfl
  | cons edit rest ih =>
      obtain ⟨item, rfl⟩ := inserts edit List.mem_cons_self
      have grown : items.filter (· < record) ⊆ (insert item items).filter (· < record) :=
        Finset.filter_subset_filter _ (Finset.subset_insert item items)
      calc pageOf perPage items record
          ≤ pageOf perPage (insert item items) record :=
            Nat.succ_le_succ (Nat.div_le_div_right (Finset.card_le_card grown))
        _ ≤ _ := ih (insert item items) fun other member =>
            inserts other (List.mem_cons_of_mem _ member)

theorem page_after_deletes (items : Finset Item) (edits : List (Edit Item))
    (deletes : ∀ edit ∈ edits, ∃ item, edit = .delete item) :
    pageOf perPage (edits.foldl applyEdit items) record ≤ pageOf perPage items record := by
  induction edits generalizing items with
  | nil => exact le_rfl
  | cons edit rest ih =>
      obtain ⟨item, rfl⟩ := deletes edit List.mem_cons_self
      have shrunk : (items.erase item).filter (· < record) ⊆ items.filter (· < record) :=
        Finset.filter_subset_filter _ (Finset.erase_subset item items)
      calc pageOf perPage (rest.foldl applyEdit (items.erase item)) record
          ≤ pageOf perPage (items.erase item) record :=
            ih (items.erase item) fun other member => deletes other (List.mem_cons_of_mem _ member)
        _ ≤ pageOf perPage items record :=
            Nat.succ_le_succ (Nat.div_le_div_right (Finset.card_le_card shrunk))

theorem page_falls (start : Finset Item) (edits : Nat → List (Edit Item)) (last : Nat)
    (deletes : ∀ n, 1 ≤ n → n < last → ∀ edit ∈ edits n, ∃ item, edit = .delete item)
    (m n : Nat) (first : 1 ≤ m) (order : m ≤ n) (bound : n ≤ last) :
    pageOf perPage (collectionAt start edits n) record ≤
      pageOf perPage (collectionAt start edits m) record := by
  induction order with
  | refl => exact le_rfl
  | @step n order ih =>
      have shrunk := page_after_deletes record (collectionAt start edits n) (edits n)
        (deletes n (first.trans order) bound)
      exact shrunk.trans (ih (Nat.le_of_succ_le bound))

theorem present_throughout (start : Finset Item) (edits : Nat → List (Edit Item))
    (present : record ∈ start) (others : ∀ n, ∀ edit ∈ edits n, edit.item ≠ record)
    (request : Nat) :
    record ∈ collectionAt start edits request := by
  induction request with
  | zero => exact present
  | succ request ih =>
      have left (items : Finset Item) (rest : List (Edit Item)) (inside : record ∈ items)
          (untouched : ∀ edit ∈ rest, edit.item ≠ record) : record ∈ rest.foldl applyEdit items := by
        induction rest generalizing items with
        | nil => exact inside
        | cons edit rest later =>
            obtain ⟨differs, behind⟩ := List.forall_mem_cons.mp untouched
            apply later _ _ behind
            cases edit with
            | insert item => exact Finset.mem_insert_of_mem inside
            | delete item => exact Finset.mem_erase.mpr ⟨Ne.symm differs, inside⟩
      exact left _ _ ih (others request)

end Moves

/-- A record that is there from the metadata request to the last page request is
returned once for each page that is its own when it is asked for. It is returned
exactly once if it stays on one page, at most once if there are only deletes, and
at least once if there are only inserts and these do not carry it past the last page.
The pages of the first total are to be counted exactly: the interpreter does so up
to `exactTotal`. -/
theorem edited_extraction {Item : Type} [LinearOrder Item]
    (countPages : Json → Except Failure (Option Nat)) (fields : Item → Record)
    (baseUrl : String) (server : Server) (start : Finset Item) (edits : Nat → List (Edit Item))
    (exact : CountsExactly countPages start.card)
    (serves : ServesEdited baseUrl server fields (collectionAt start edits)) (record : Item)
    (present : ∀ request ≤ pageRequests countPages baseUrl server,
      record ∈ collectionAt start edits request) :
    let page := fun request => pageOf perPage (collectionAt start edits request) record
    let requests := pageRequests countPages baseUrl server
    ∃ pages : List (List Item),
      (paginateBy countPages baseUrl ⟨server, []⟩).1 =
        .ok (pages.map fun page => recordsPage (page.map fields)) ∧
      pages.flatten.count record = timesMet (collectionAt start edits) record requests ∧
      ((∀ request ≤ requests, page request = page 0) → pages.flatten.count record = 1) ∧
      ((∀ n, 1 ≤ n → n < requests → ∀ edit ∈ edits n, ∃ item, edit = .delete item) →
        pages.flatten.count record ≤ 1) ∧
      ((∀ n, 1 ≤ n → n < requests → ∀ edit ∈ edits n, ∃ item, edit = .insert item) →
        page requests ≤ requests → 1 ≤ pages.flatten.count record) := by
  intro page requests
  obtain ⟨pages, returned, counted⟩ := returned_count countPages fields baseUrl server
    (collectionAt start edits) record exact serves present
  obtain ⟨positive, reach⟩ := requests_reach countPages fields baseUrl server
    (collectionAt start edits) record exact serves present
  refine ⟨pages, returned, counted, ?_, ?_, ?_⟩ <;> rw [counted]
  · intro still
    have reached : page 0 ≤ requests := by
      rcases reach with all | stopped
      · have inside := rank_lt_card _ record (present 0 (Nat.zero_le _))
        simp only [requests, all, page, pageOf, pageCount, perPage]
        omega
      · exact (still requests le_rfl).symm.trans_le stopped.le
    apply le_antisymm
    · apply met_once
      intro m n first order bound met again
      exact met.symm.trans ((still m (order.trans bound)).trans ((still n bound).symm.trans again))
    · exact (met_pos_iff _ record _).mpr
        ⟨page 0, Nat.succ_pos _, reached, still (page 0) reached⟩
  · intro deletes
    exact met_once _ record requests
      (falling_page_unique page requests (page_falls record start edits requests deletes))
  · intro inserts inside
    exact (met_pos_iff _ record _).mpr (rising_page_met page requests
      (fun n first bound => page_after_inserts record _ _ (inserts n first bound))
      (Nat.succ_pos _) positive inside)

section Server
variable {Item : Type} [LinearOrder Item] (fields : Item → Record) (items : Nat → Finset Item)

def editedServer : Server := fun sent _ =>
  if sent = 0 then .ok (.json (.obj [("total", .int (items 0).card)]))
  else .ok (.json (recordsPage ((slice perPage (ascending (items sent)) sent).map fields)))

theorem edited_server_serves (baseUrl : String) :
    ServesEdited baseUrl (editedServer fields items) fields items := by
  constructor
  · exact ⟨_, rfl, rfl⟩
  · intro page first
    have later : page ≠ 0 := by omega
    simp [pageReply, editedServer, later, Except.bind, Response.decode]

end Server

def numberedRecord (number : Nat) : Record := [("id", .int number)]

/-- Fifty-one records; the first is deleted between the two page requests. -/
def shrinking : Nat → Finset Nat :=
  collectionAt (Finset.range 51) fun n => if n = 1 then [.delete 0] else []

theorem shrinking_edit (n : Nat) (edit : Edit Nat)
    (member : edit ∈ if n = 1 then [Edit.delete 0] else []) : edit = .delete 0 := by
  split at member
  · exact List.mem_singleton.mp member
  · simp at member

theorem shrinking_others (record n : Nat) (kept : record ≠ 0) (edit : Edit Nat)
    (member : edit ∈ if n = 1 then [Edit.delete 0] else []) : edit.item ≠ record :=
  shrinking_edit n edit member ▸ Ne.symm kept

theorem shrinking_present (record request : Nat) (inside : record < 51) (kept : record ≠ 0) :
    record ∈ shrinking request :=
  present_throughout record (Finset.range 51) _ (Finset.mem_range.mpr inside)
    (fun n => shrinking_others record n kept) request

theorem shrinking_size : (shrinking 0).card ≤ exactTotal :=
  le_of_eq_of_le (Finset.card_range 51) (by decide)

/-- The tenth record stays on the first page. -/
theorem edited_extraction_shrinking :
    let server := editedServer numberedRecord shrinking
    let page := fun request => pageOf perPage (shrinking request) 9
    let requests := pageRequests totalPages "" server
    ∃ pages : List (List Nat),
      (paginate "" ⟨server, []⟩).1 =
        .ok (pages.map fun page => recordsPage (page.map numberedRecord)) ∧
      pages.flatten.count 9 = timesMet shrinking 9 requests ∧
      ((∀ request ≤ requests, page request = page 0) → pages.flatten.count 9 = 1) ∧
      ((∀ n, 1 ≤ n → n < requests → ∀ edit ∈ if n = 1 then [Edit.delete 0] else [],
        ∃ item, edit = .delete item) → pages.flatten.count 9 ≤ 1) ∧
      ((∀ n, 1 ≤ n → n < requests → ∀ edit ∈ if n = 1 then [Edit.delete 0] else [],
        ∃ item, edit = .insert item) → page requests ≤ requests → 1 ≤ pages.flatten.count 9) :=
  edited_extraction totalPages numberedRecord "" (editedServer numberedRecord shrinking)
    (Finset.range 51) _ (total_pages_exact _ shrinking_size)
    (edited_server_serves numberedRecord shrinking "") 9
    fun request _ => shrinking_present 9 request (by decide) (by decide)

theorem numbered_pages_injective :
    Function.Injective fun page : List Nat => recordsPage (page.map numberedRecord) := by
  intro left right equal
  have fields := Json.arr.inj equal
  rw [List.map_map, List.map_map] at fields
  refine List.map_injective_iff.mpr (fun a b same => ?_) fields
  simpa [numberedRecord] using same

/-- The last record is on the second page when the first is asked for, and on the
first from then on. -/
theorem shrinking_misses_last (requests : Nat) : ¬ 1 ≤ timesMet shrinking 50 requests := by
  rw [met_pos_iff]
  rintro ⟨page, first, last, met⟩
  rcases Nat.eq_or_lt_of_le first with rfl | later
  · have second : pageOf perPage (shrinking 1) 50 = 2 := by decide
    omega
  · have onFirst : pageOf perPage (shrinking 2) 50 = 1 := by decide
    have fallen := page_falls 50 (Finset.range 51) _ page
      (fun n _ _ edit member => ⟨0, shrinking_edit n edit member⟩) 2 page (by decide) later le_rfl
    change pageOf perPage (shrinking page) 50 ≤ pageOf perPage (shrinking 2) 50 at fallen
    omega

/-- The first record is deleted between two page requests, and the last is never returned. -/
theorem shrinking_loses_last :
    ¬ ∀ (server : Server) (start : Finset Nat) (edits : Nat → List (Edit Nat)) (record : Nat),
      ServesEdited "" server numberedRecord (collectionAt start edits) →
      record ∈ start → (∀ n, ∀ edit ∈ edits n, edit.item ≠ record) →
      ∃ pages : List (List Nat), (paginate "" ⟨server, []⟩).1 =
        .ok (pages.map fun page => recordsPage (page.map numberedRecord)) ∧
        pages.flatten.count record = 1 := by
  intro stable
  have serves := edited_server_serves numberedRecord shrinking ""
  obtain ⟨pages, returned, once⟩ := stable _ _ _ 50 serves (Finset.mem_range.mpr (by decide))
    fun n => shrinking_others 50 n (by decide)
  obtain ⟨others, same, counted⟩ := returned_count totalPages numberedRecord "" _ shrinking 50
    (total_pages_exact _ shrinking_size) serves
    fun request _ => shrinking_present 50 request (by decide) (by decide)
  have pagesSame : pages = others :=
    List.map_injective_iff.mpr numbered_pages_injective (Except.ok.inj (returned.symm.trans same))
  rw [pagesSame, counted] at once
  exact shrinking_misses_last _ once.ge

end Brewery
