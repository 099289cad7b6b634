import Mathlib

/-!
A list served in numbered pages of one size. Page numbers begin at one, the last
page may be short, and a page past the end is empty. An ordered set that changes
between two pages moves its items from page to page: an item is seen by the reader
at those page numbers that are its own page at that moment.
-/

namespace Support.Paging

variable {Item : Type} (size : Nat) (items : List Item)

def slice (page : Nat) : List Item := (items.drop (size * (page - 1))).take size

/-- The first pages in order are the first items. -/
theorem slices_flatten (count : Nat) :
    (List.range' 1 count).flatMap (slice size items) = items.take (size * count) := by
  induction count with
  | zero => simp
  | succ count ih =>
      rw [List.range'_concat, List.flatMap_append, ih, List.flatMap_singleton, Nat.mul_succ,
        List.take_add, slice]
      simp

theorem slice_length (page : Nat) :
    (slice size items page).length = min size (items.length - size * (page - 1)) := by
  simp only [slice, List.length_take, List.length_drop]

theorem slice_ne_nil (page : Nat) (positive : 0 < size) (inside : size * (page - 1) < items.length) :
    slice size items page ≠ [] := by
  intro none
  have length := slice_length size items page
  rw [none, List.length_nil] at length
  omega

theorem slice_eq_nil (page : Nat) (past : items.length ≤ size * (page - 1)) :
    slice size items page = [] := by
  apply List.eq_nil_of_length_eq_zero
  rw [slice_length]
  omega

/-- A page before the last one is full. -/
theorem slice_full (page : Nat) (whole : size * (page - 1) + size ≤ items.length) :
    (slice size items page).length = size := by
  rw [slice_length]
  omega

/-- The pages up to a bound meet a condition until the first that does not. -/
theorem pages_until (holds : Nat → Prop) (bound : Nat) :
    ∃ kept ≤ bound, (∀ page, 1 ≤ page → page ≤ kept → holds page) ∧
      (kept = bound ∨ ¬ holds (kept + 1)) := by
  induction bound with
  | zero => exact ⟨0, le_rfl, fun page first last => absurd first (by omega), Or.inl rfl⟩
  | succ bound ih =>
      obtain ⟨kept, within, met, stops⟩ := ih
      rcases stops with rfl | fails
      · by_cases next : holds (kept + 1)
        · refine ⟨kept + 1, le_rfl, fun page first last => ?_, Or.inl rfl⟩
          rcases Nat.le_succ_iff.mp last with earlier | rfl
          · exact met page first earlier
          · exact next
        · exact ⟨kept, Nat.le_succ kept, met, Or.inr next⟩
      · exact ⟨kept, Nat.le_succ_of_le within, met, Or.inr fails⟩

/-! An ordered set served in pages of its ascending order. -/
section Ordered

theorem count_window {Item : Type} [DecidableEq Item] (before after : List Item) (item : Item)
    (notBefore : item ∉ before) (notAfter : item ∉ after) (start width : Nat) :
    (((before ++ item :: after).drop start).take width).count item =
      if start ≤ before.length ∧ before.length < start + width then 1 else 0 := by
  by_cases reached : start ≤ before.length
  · rw [List.drop_append_of_le_length reached, List.take_append, List.count_append,
      List.count_eq_zero_of_not_mem fun inside =>
        notBefore (List.mem_of_mem_drop (List.mem_of_mem_take inside)), List.length_drop, Nat.zero_add]
    by_cases inside : before.length < start + width
    · obtain ⟨room, same⟩ := Nat.exists_eq_add_of_lt inside
      have spare : width - (before.length - start) = room + 1 := by omega
      have tail : (after.take room).count item = 0 :=
        List.count_eq_zero_of_not_mem fun member => notAfter (List.mem_of_mem_take member)
      rw [if_pos ⟨reached, inside⟩, spare, List.take_succ_cons, List.count_cons_self, tail]
    · have spare : width - (before.length - start) = 0 := by omega
      rw [if_neg fun both => inside both.2, spare, List.take_zero, List.count_nil]
  · obtain ⟨skip, same⟩ := Nat.exists_eq_add_of_lt (Nat.lt_of_not_le reached)
    have past : (before ++ item :: after).drop start = after.drop skip := by
      rw [same, Nat.add_assoc, ← List.drop_drop, List.drop_left, List.drop_succ_cons]
    rw [if_neg fun both => reached both.1, past]
    exact List.count_eq_zero_of_not_mem fun member =>
      notAfter (List.mem_of_mem_drop (List.mem_of_mem_take member))

variable {Item : Type} [LinearOrder Item] (size : Nat)

def ascending (items : Finset Item) : List Item := items.sort

/-- The page an item lies on, counted from one. -/
def pageOf (items : Finset Item) (item : Item) : Nat :=
  (items.filter (· < item)).card / size + 1

theorem sort_around (items : Finset Item) (item : Item) (member : item ∈ items) :
    ∃ before after, ascending items = before ++ item :: after ∧ item ∉ before ∧ item ∉ after ∧
      before.length = (items.filter (· < item)).card := by
  obtain ⟨before, after, split⟩ := List.append_of_mem ((Finset.mem_sort (· ≤ ·)).mpr member)
  have sorted := items.sortedLT_sort.pairwise
  rw [split, List.pairwise_append, List.pairwise_cons] at sorted
  obtain ⟨left, ⟨above, -⟩, across⟩ := sorted
  have below (other : Item) (inside : other ∈ before) : other < item :=
    across other inside item List.mem_cons_self
  refine ⟨before, after, split, fun inside => (below item inside).false,
    fun inside => (above item inside).false, ?_⟩
  have smaller : items.filter (· < item) = before.toFinset := by
    ext other
    rw [Finset.mem_filter, List.mem_toFinset, ← Finset.mem_sort (· ≤ ·), split, List.mem_append,
      List.mem_cons]
    constructor
    · rintro ⟨inside | same | later, less⟩
      · exact inside
      · exact absurd less (same ▸ lt_irrefl item)
      · exact absurd less (above other later).not_gt
    · exact fun inside => ⟨Or.inl inside, below other inside⟩
  rw [smaller, List.toFinset_card_of_nodup (left.imp ne_of_lt)]

/-- At one moment an item is on one page only, and there once. -/
theorem count_slice (items : Finset Item) (item : Item) (member : item ∈ items) (page : Nat)
    (positive : 0 < size) (first : 1 ≤ page) :
    (slice size (ascending items) page).count item = if pageOf size items item = page then 1 else 0 := by
  obtain ⟨before, after, split, notBefore, notAfter, rank⟩ := sort_around items item member
  obtain ⟨offset, rfl⟩ := Nat.exists_eq_add_of_le' first
  have same : pageOf size items item = offset + 1 ↔
      size * offset ≤ before.length ∧ before.length < size * offset + size := by
    rw [pageOf, ← rank, Nat.add_right_cancel_iff, Nat.div_eq_iff positive, Nat.mul_comm offset size]
    omega
  rw [slice, split, count_window before after item notBefore notAfter, Nat.add_sub_cancel]
  simp only [same]

theorem rank_lt_card (items : Finset Item) (item : Item) (member : item ∈ items) :
    (items.filter (· < item)).card < items.card :=
  Finset.card_lt_card (Finset.filter_ssubset.mpr ⟨item, member, lt_irrefl item⟩)

/-- No page before an item's own is empty, nor is its own. -/
theorem slice_upto_page (items : Finset Item) (item : Item) (member : item ∈ items)
    (page : Nat) (positive : 0 < size) (before : page ≤ pageOf size items item) :
    slice size (ascending items) page ≠ [] := by
  apply slice_ne_nil size (ascending items) page positive
  have fewer := rank_lt_card items item member
  calc size * (page - 1)
      ≤ size * ((items.filter (· < item)).card / size) :=
        Nat.mul_le_mul_left size (Nat.sub_le_of_le_add before)
    _ ≤ (items.filter (· < item)).card := Nat.mul_div_le _ size
    _ < (ascending items).length := by rwa [ascending, Finset.length_sort]

end Ordered

/-! An item whose page only rises, or only falls, from one page number to the next. -/
section Moving
variable (page : Nat → Nat) (last : Nat)

/-- A page that rises no further than the last one is met on the way. -/
theorem rising_page_met (rises : ∀ n, 1 ≤ n → n < last → page n ≤ page (n + 1))
    (first : 1 ≤ page 1) (nonempty : 1 ≤ last) (inside : page last ≤ last) :
    ∃ n, 1 ≤ n ∧ n ≤ last ∧ page n = n := by
  have met : ∃ n, 1 ≤ n ∧ page n ≤ n := ⟨last, nonempty, inside⟩
  have least (n : Nat) (early : n < Nat.find met) := Nat.find_min met early
  have bound : Nat.find met ≤ last := Nat.find_le ⟨nonempty, inside⟩
  obtain ⟨positive, under⟩ := Nat.find_spec met
  generalize Nat.find met = n at least bound positive under
  refine ⟨n, positive, bound, le_antisymm under ?_⟩
  rcases Nat.eq_or_lt_of_le positive with same | later
  · exact same ▸ first
  · obtain ⟨before, rfl⟩ := Nat.exists_eq_add_of_lt later
    have above := least (1 + before) (by omega)
    have step := rises (1 + before) (by omega) (by omega)
    omega

/-- A page that never rises is met at most once. -/
theorem falling_page_unique (falls : ∀ m n, 1 ≤ m → m ≤ n → n ≤ last → page n ≤ page m)
    (m n : Nat) (first : 1 ≤ m) (order : m ≤ n) (bound : n ≤ last) (met : page m = m)
    (again : page n = n) : m = n := by
  have fallen := falls m n first order bound
  omega

end Moving

end Support.Paging
