import BreweryPipeline.BreweryHook

/-!
`ceil(total / per_page)` beside the exact quotient. `/` gives the double nearest
to the quotient. The pages counted are those of the exact quotient for every
total up to fifty times 2^48, the next total is the first that gets too few, and
a total whose quotient is beyond every double gets none.
-/

namespace Brewery

open Support.JsonText Support.Binary64

/-- `ceil` of the exact quotient. -/
def exactQuotient (total : Json) : Except Failure Nat :=
  match total.number with
  | some total => .ok ⌈total / perPage⌉.toNat
  | none => .error .typeError

abbrev exactPages (metaData : Json) : Except Failure (Option Nat) := totalPagesBy exactQuotient metaData

def exactPaginate (baseUrl : String) (session : Session) : Except Failure (List Json) × Session :=
  paginateBy exactPages baseUrl session

theorem ceil_quotient (total : Int) : ⌈(total : Rat) / perPage⌉ = (total + perPage - 1) / perPage := by
  rw [show (perPage : Rat) = ((50 : Nat) : Rat) from rfl, Rat.ceil_intCast_div_natCast]
  simp only [perPage]
  omega

theorem ceil_page_count (total : Nat) : ⌈((total : Int) : Rat) / perPage⌉.toNat = pageCount total := by
  rw [ceil_quotient]
  simp only [perPage, pageCount]
  omega

theorem exact_pages_exact (total : Nat) : CountsExactly exactPages total := by
  intro fields reported
  rw [exactPages, counted_total exactQuotient fields _ reported]
  split
  · exact congrArg Except.ok (ceil_page_count total)
  · rename_i zero
    simp only [Json.truthy, bne_iff_ne, ne_eq, Decidable.not_not] at zero
    obtain rfl : total = 0 := by omega
    rfl

/-- The largest total up to which the quotient is as good as exact. -/
def exactTotal : Nat := 50 * 2 ^ 48

/-- A quotient that is no integer is at least a fiftieth above the integer below it. -/
theorem quotient_gap (total : Int) :
    1 / (perPage : Rat) ≤ (total : Rat) / perPage - (⌈(total : Rat) / perPage⌉ - 1) := by
  have below : ⌈(total : Rat) / perPage⌉ * 50 ≤ total + 49 := by
    rw [ceil_quotient]
    simp only [perPage]
    omega
  have scaled : (⌈(total : Rat) / perPage⌉ : Rat) * 50 ≤ total + 49 := by exact_mod_cast below
  simp only [perPage] at scaled ⊢
  push_cast at scaled ⊢
  linarith

theorem quotient_size (total : Int) (bound : Nat) (within : |total| ≤ 50 * bound) :
    |(total : Rat) / perPage| ≤ bound := by
  have scaled : |(total : Rat)| ≤ 50 * bound := by exact_mod_cast within
  rw [abs_div, div_le_iff₀ (by norm_num [perPage])]
  norm_num [perPage] at scaled ⊢
  linarith

/-- Below the bound half a unit is less than a fiftieth; at the bound the
quotient is an integer. -/
theorem ceil_float_quotient (total : Int) (within : |total| ≤ exactTotal) :
    ⌈nearest ((total : Rat) / perPage)⌉ = ⌈(total : Rat) / perPage⌉ := by
  have size := quotient_size total (2 ^ 48) within
  have gap := quotient_gap total
  generalize quotient : (total : Rat) / perPage = x at size gap ⊢
  rcases size.lt_or_eq with below | atBound
  · have fine := exponent_le x (-5) (by decide) (by norm_num at below ⊢; exact below)
    have unit : ulp x ≤ 1 / 32 :=
      calc ulp x ≤ 2 ^ (-5 : Int) := zpow_le_zpow_right₀ one_le_two fine
        _ = 1 / 32 := by norm_num
    apply ceil_nearest x (by omega)
    norm_num [perPage] at gap
    linarith
  · have fine := exponent_le x (-4) (by decide) (by norm_num at atBound ⊢; linarith)
    have unit : ulp x ≤ 1 :=
      calc ulp x ≤ 2 ^ (0 : Int) := zpow_le_zpow_right₀ one_le_two (by omega)
        _ = 1 := zpow_zero 2
    have whole : ∃ n : Int, x = n := by
      rcases (abs_eq (by positivity)).mp atBound with same | same
      · exact ⟨2 ^ 48, by rw [same]; norm_num⟩
      · exact ⟨-2 ^ 48, by rw [same]; norm_num⟩
    obtain ⟨n, rfl⟩ := whole
    apply ceil_nearest _ (by omega)
    rw [Int.ceil_intCast]
    linarith

theorem quotient_pages_exact (total : Int) (within : |total| ≤ exactTotal) :
    quotientPages total = .ok ⌈(total : Rat) / perPage⌉.toNat := by
  have size := quotient_size total (2 ^ 48) within
  have inRange := to_double_small ((total : Rat) / perPage) (size.trans (by norm_num))
  simp only [quotientPages, asFloat, inRange, Option.elim_some, Except.map,
    ceil_float_quotient total within]

theorem quotient_pages_ok_iff (total : Rat) (pages : Nat) :
    quotientPages total = .ok pages ↔
      ∃ quotient, toDouble (total / perPage) = some quotient ∧ ⌈quotient⌉.toNat = pages := by
  rcases rounded : toDouble (total / perPage) with _ | quotient
  · simp [quotientPages, asFloat, rounded, Except.map]
  · simp [quotientPages, asFloat, rounded, Except.map]

/-- A quotient beyond every double is an error. -/
theorem quotient_pages_overflow (total : Nat) (huge : 2 ^ 1024 * perPage ≤ total) :
    quotientPages total = .error .overflowError := by
  have quotient (places : Nat) (above : 2 ^ places * perPage ≤ total) :
      (2 : Rat) ^ places ≤ total / perPage := by
    rw [le_div_iff₀ (by norm_num [perPage])]
    exact_mod_cast above
  have beyond : limit ≤ (total : Rat) / perPage := by
    rw [limit]
    exact quotient 1024 huge
  simp only [quotientPages, asFloat, to_double_overflow _ beyond, Option.elim_none, Except.map]

/-- The first total behind the bound is rounded down to a whole number of pages. -/
theorem quotient_pages_short : quotientPages ((exactTotal + 1 : Nat) : Rat) = .ok (2 ^ 48) := by
  have quotient : ((exactTotal + 1 : Nat) : Rat) / perPage = 2 ^ 48 + 1 / 50 := by
    norm_num [exactTotal, perPage]
  have step : exponent (2 ^ 48 + 1 / 50) = -4 := by
    apply exponent_exact _ _ (by decide)
    · rw [abs_of_pos (by positivity)]
      norm_num
    · rw [abs_of_pos (by positivity)]
      norm_num
  have unit : ulp (2 ^ 48 + 1 / 50) = 1 / 16 := by
    rw [ulp, step]
    norm_num
  have whole : halfEven ((2 ^ 48 + 1 / 50) / (1 / 16)) = 2 ^ 52 := by
    have floor : ⌊((2 ^ 48 + 1 / 50) / (1 / 16) : Rat)⌋ = 2 ^ 52 := by
      rw [Int.floor_eq_iff]
      norm_num
    unfold halfEven
    rw [floor]
    norm_num
  have rounded : nearest (2 ^ 48 + 1 / 50) = 2 ^ 48 := by
    rw [nearest, unit, whole]
    norm_num
  have inRange := to_double_small (2 ^ 48 + 1 / 50) (by rw [abs_of_pos (by positivity)]; norm_num)
  have ceiling : ⌈(2 ^ 48 : Rat)⌉ = 2 ^ 48 := by
    rw [Int.ceil_eq_iff]
    norm_num
  simp only [quotientPages, asFloat, quotient, inRange, Option.elim_some, Except.map, rounded, ceiling]
  rfl

/-- The hook counts the pages of every total up to the bound as `ceil` of the
exact quotient does, and the total after it is the least it counts too few for. -/
theorem least_short_total :
    IsLeast {total : Nat | quotientPages (total : Rat) ≠ .ok (pageCount total)} (exactTotal + 1) := by
  constructor
  · intro same
    rw [quotient_pages_short] at same
    exact absurd (Except.ok.inj same) (by decide)
  · intro total differs
    by_contra earlier
    apply differs
    have exact := quotient_pages_exact total (by rw [Nat.abs_cast]; omega)
    rw [Int.cast_natCast] at exact
    rw [exact, ← Int.cast_natCast, ceil_page_count]

/-- A total whose pages the exact quotient counts: of a float only the literal
is known here. -/
def Json.Within : Json → Prop
  | .int total => |total| ≤ exactTotal
  | .float _ => False
  | _ => True

/-- A total that is an integer is counted by its quotient. -/
theorem total_pages_quotient (fields : Record) (total : Int)
    (reported : fields.lookup "total" = some (.int total)) :
    (totalPages (.obj fields)).map (Option.getD · 0) = quotientPages total := by
  rw [totalPages, counted_total _ fields _ reported]
  split
  · rfl
  · rename_i zero
    simp only [Json.truthy, bne_iff_ne, ne_eq, Decidable.not_not] at zero
    rw [zero, quotient_pages_exact 0 (by decide), ceil_quotient]
    rfl

theorem total_pages_exact (total : Nat) (size : total ≤ exactTotal) :
    CountsExactly totalPages total := by
  intro fields reported
  rw [total_pages_quotient fields total reported,
    quotient_pages_exact total (by rw [Nat.abs_cast]; omega), ceil_page_count]

theorem reported_quotient (baseUrl : String) (server : Server) (total : Nat)
    (reports : Reports baseUrl server total) :
    reportedPages totalPages baseUrl server = quotientPages total := by
  obtain ⟨fields, answered, reported⟩ := reports
  simp only [reportedPages, answered, Except.bind, total_pages_quotient fields total reported,
    Int.cast_natCast]

/-- Within the bound the division of a total gives what the exact quotient gives. -/
theorem quotient_within (total : Json) (within : Json.Within total) :
    (dividend total).bind quotientPages = exactQuotient total := by
  cases total with
  | int value => exact quotient_pages_exact value within
  | bool value =>
      cases value with
      | false => exact quotient_pages_exact 0 (by decide)
      | true => exact quotient_pages_exact 1 (by decide)
  | float literal => exact absurd within id
  | null => rfl
  | str text => rfl
  | arr items => rfl
  | obj fields => rfl

theorem total_pages_within (metaData : Json)
    (within : ∀ fields total, metaData = .obj fields → fields.lookup "total" = some total →
      Json.Within total) :
    totalPages metaData = exactPages metaData := by
  cases metaData with
  | obj fields =>
      have bounded : Json.Within ((fields.lookup "total").getD (.int 0)) := by
        cases reported : fields.lookup "total" with
        | none => simp [Json.Within]
        | some total => exact within fields total rfl reported
      simp only [totalPages, exactPages, totalPagesBy, quotient_within _ bounded]
  | null => rfl
  | bool value => rfl
  | int value => rfl
  | float literal => rfl
  | str text => rfl
  | arr items => rfl

/-- On every server whose total is within the bound the hook returns, raises and
requests what it would with the exact quotient. -/
theorem float_paginate_exact (baseUrl : String) (session : Session)
    (within : ∀ fields total, (requestJson (metaUrl baseUrl) session).1 = .ok (.obj fields) →
      fields.lookup "total" = some total → Json.Within total) :
    paginate baseUrl session = exactPaginate baseUrl session := by
  rcases asked : requestJson (metaUrl baseUrl) session with ⟨failure | metaData, after⟩
  · simp only [paginate, exactPaginate, paginateBy, asked]
  · have exact := total_pages_within metaData fun fields total same =>
      within fields total (by rw [asked, same])
    simp only [paginate, exactPaginate, paginateBy, asked, exact]

/-- A server with a single page. -/
def onePageServer (body : Json) : Server := fun sent _ =>
  if sent = 0 then .ok (.json (.obj [("total", .int 1)])) else .ok (.json body)

theorem one_page_paginate : paginate "" ⟨onePageServer .null, []⟩ =
    exactPaginate "" ⟨onePageServer .null, []⟩ := by
  apply float_paginate_exact
  intro fields total answered reported
  cases answered
  cases reported
  exact (by decide : |(1 : Int)| ≤ exactTotal)

theorem one_page_hook (body : Json) (full : body.truthy = true) :
    runHook (.ok "") (onePageServer body) = .ok [body] := by
  have reported := reported_exact totalPages "" (onePageServer body) 1
    (total_pages_exact 1 (by decide)) ⟨[("total", .int 1)], rfl, rfl⟩
  apply hook_all_pages "" (onePageServer body) (pageCount 1) reported fun _ => body
  intro page first last
  have later : page ≠ 0 := by omega
  exact ⟨by simp [pageReply, onePageServer, later, Except.bind, Response.decode], full⟩

end Brewery
