import Mathlib

/-!
Calendar dates and their `YYYY-MM-DD` text. The text has one width and pads its
numbers with zeros, so that comparing two texts character by character compares
the years, then the months, then the days: a column of such texts is ordered like
a column of the dates themselves.
-/

namespace Support.Calendar

def leapYear (year : Nat) : Bool := year % 4 == 0 && (year % 100 != 0 || year % 400 == 0)

def daysInMonth (year month : Nat) : Nat :=
  if month = 2 then (if leapYear year then 29 else 28)
  else if month = 4 ∨ month = 6 ∨ month = 9 ∨ month = 11 then 30 else 31

@[ext]
structure CalendarDate where
  year : Nat
  month : Nat
  day : Nat
  fourDigits : year < 10000
  realMonth : 1 ≤ month ∧ month ≤ 12
  realDay : 1 ≤ day ∧ day ≤ daysInMonth year month

/-- Dates compare by year, then by month, then by day. -/
def CalendarDate.fields (date : CalendarDate) : Lex (Nat × Lex (Nat × Nat)) :=
  toLex (date.year, toLex (date.month, date.day))

theorem fields_injective : Function.Injective CalendarDate.fields := by
  intro left right same
  have year := congrArg (fun fields => (ofLex fields).1) same
  have month := congrArg (fun fields => (ofLex (ofLex fields).2).1) same
  have day := congrArg (fun fields => (ofLex (ofLex fields).2).2) same
  exact CalendarDate.ext year month day

instance : LinearOrder CalendarDate := LinearOrder.lift' CalendarDate.fields fields_injective

theorem date_lt_iff (left right : CalendarDate) : left < right ↔
    left.year < right.year ∨ left.year = right.year ∧
      (left.month < right.month ∨ left.month = right.month ∧ left.day < right.day) := by
  change left.fields < right.fields ↔ _
  simp only [CalendarDate.fields, Prod.Lex.toLex_lt_toLex]

theorem days_small (year month : Nat) : daysInMonth year month < 100 := by
  unfold daysInMonth
  split <;> split <;> omega

/-! The number of a date, counted from the first of January of the year 0. -/

def daysBeforeMonth (year month : Nat) : Nat := ∑ earlier ∈ Finset.Ico 1 month, daysInMonth year earlier

def daysBeforeYear (year : Nat) : Nat := ∑ earlier ∈ Finset.range year, daysBeforeMonth earlier 13

def CalendarDate.number (date : CalendarDate) : Nat :=
  daysBeforeYear date.year + (daysBeforeMonth date.year date.month + date.day)

theorem months_mono (year : Nat) : Monotone (daysBeforeMonth year) := fun _ _ less =>
  Finset.sum_le_sum_of_subset (Finset.Ico_subset_Ico_right less)

theorem years_mono : Monotone daysBeforeYear := fun _ _ less =>
  Finset.sum_le_sum_of_subset (Finset.range_subset_range.mpr less)

theorem within_month (date : CalendarDate) :
    daysBeforeMonth date.year date.month + date.day ≤ daysBeforeMonth date.year (date.month + 1) := by
  rw [daysBeforeMonth, daysBeforeMonth, Finset.sum_Ico_succ_top date.realMonth.1]
  exact Nat.add_le_add_left date.realDay.2 _

theorem number_strict : StrictMono CalendarDate.number := by
  intro left right less
  have started := right.realDay.1
  have month := within_month left
  rcases (date_lt_iff left right).mp less with earlier | ⟨year, earlier | ⟨same, earlier⟩⟩
  · have filled : daysBeforeYear (left.year + 1) =
        daysBeforeYear left.year + daysBeforeMonth left.year 13 :=
      Finset.sum_range_succ _ _
    have whole : daysBeforeMonth left.year (left.month + 1) ≤ daysBeforeMonth left.year 13 :=
      months_mono left.year (Nat.succ_le_succ left.realMonth.2)
    have later : daysBeforeYear (left.year + 1) ≤ daysBeforeYear right.year := years_mono earlier
    unfold CalendarDate.number
    omega
  · have later : daysBeforeMonth left.year (left.month + 1) ≤ daysBeforeMonth left.year right.month :=
      months_mono left.year earlier
    unfold CalendarDate.number
    rw [← year]
    omega
  · unfold CalendarDate.number
    rw [year, same]
    omega

/-- The last digits of a number, as many as the width. -/
def padded : Nat → Nat → List Char
  | 0, _ => []
  | width + 1, number => padded width (number / 10) ++ [Nat.digitChar (number % 10)]

def CalendarDate.isoFormat (date : CalendarDate) : String :=
  String.ofList (padded 4 date.year ++ '-' :: (padded 2 date.month ++ '-' :: padded 2 date.day))

theorem padded_length (width number : Nat) : (padded width number).length = width := by
  induction width generalizing number with
  | zero => rfl
  | succ width ih => simp [padded, ih]

theorem append_lt {a b : List Char} (less : a < b) (same : a.length = b.length) (c d : List Char) :
    a ++ c < b ++ d := by
  induction a generalizing b with
  | nil =>
      have empty : b = [] := List.eq_nil_of_length_eq_zero same.symm
      exact absurd less (by simp [empty])
  | cons first rest ih =>
      cases b with
      | nil => simp at same
      | cons second tail =>
          rw [List.cons_append, List.cons_append, List.cons_lt_cons_iff]
          rcases List.cons_lt_cons_iff.mp less with smaller | ⟨equal, later⟩
          · exact Or.inl smaller
          · exact Or.inr ⟨equal, ih later (by simpa using same)⟩

theorem behind_dash {a b : List Char} (front : List Char) (less : a < b) :
    front ++ '-' :: a < front ++ '-' :: b :=
  List.append_left_lt (List.cons_lt_cons_iff.mpr (Or.inr ⟨rfl, less⟩))

/-- Padded to one width, numbers and texts compare alike. -/
theorem padded_lt (width left right : Nat) (less : left < right) (fits : right < 10 ^ width) :
    padded width left < padded width right := by
  induction width generalizing left right with
  | zero => omega
  | succ width ih =>
      have shorter : right / 10 < 10 ^ width := by
        rw [Nat.div_lt_iff_lt_mul (by decide), ← Nat.pow_succ]
        exact fits
      by_cases lead : left / 10 = right / 10
      · have digits : ∀ small < 10, ∀ large < 10, small < large →
            Nat.digitChar small < Nat.digitChar large := by decide
        have last := digits (left % 10) (by omega) (right % 10) (by omega) (by omega)
        rw [padded, padded, lead]
        exact List.append_left_lt (List.cons_lt_cons_iff.mpr (Or.inl last))
      · exact append_lt (ih (left / 10) (right / 10) (by omega) shorter)
          (by rw [padded_length, padded_length]) _ _

theorem iso_format_strict : StrictMono CalendarDate.isoFormat := by
  intro left right less
  have widths (width a b : Nat) : (padded width a).length = (padded width b).length := by
    rw [padded_length, padded_length]
  rw [String.lt_iff_toList_lt, CalendarDate.isoFormat, CalendarDate.isoFormat,
    String.toList_ofList, String.toList_ofList]
  rcases (date_lt_iff left right).mp less with year | ⟨year, month | ⟨month, day⟩⟩
  · exact append_lt (padded_lt 4 _ _ year right.fourDigits) (widths 4 _ _) _ _
  · rw [year]
    have small : right.month < 10 ^ 2 := right.realMonth.2.trans_lt (by decide)
    exact behind_dash _ (append_lt (padded_lt 2 _ _ month small) (widths 2 _ _) _ _)
  · rw [year, month]
    have small : right.day < 10 ^ 2 := right.realDay.2.trans_lt (days_small _ _)
    exact behind_dash _ (behind_dash _ (padded_lt 2 _ _ day small))

/-- A text of the form `YYYY-MM-DD`, with the date it stands for. -/
structure IsoDate where
  text : String
  date : CalendarDate
  form : text = date.isoFormat

theorem iso_text_injective : Function.Injective IsoDate.text := by
  rintro ⟨text, left, form⟩ ⟨other, right, again⟩ same
  have dates : left = right := iso_format_strict.injective (form.symm.trans (same.trans again))
  cases same
  cases dates
  rfl

-- Texts compare as strings; their dates take no part in it.
instance : LinearOrder IsoDate := LinearOrder.lift' IsoDate.text iso_text_injective

/-- A type of values that stand for dates and are ordered like them. -/
structure DateColumn (Value : Type) [LinearOrder Value] where
  calendar : Value → CalendarDate
  chronological : StrictMono calendar

def dateColumn : DateColumn CalendarDate := ⟨id, strictMono_id⟩

def textColumn : DateColumn IsoDate where
  calendar := IsoDate.date
  chronological := by
    intro left right less
    have texts : left.date.isoFormat < right.date.isoFormat := left.form ▸ right.form ▸ less
    exact iso_format_strict.lt_iff_lt.mp texts

end Support.Calendar
