import Mathlib

/-!
Rounding to the nearest double, ties to even, over exact rationals: the step of
the grid at a number is its unit in the last place. The range of the exponent is
bounded below; a result past the largest double is an overflow.
-/

namespace Support.Binary64

/-- The nearest integer, of two the even one. -/
def halfEven (x : Rat) : Int :=
  let below := ⌊x⌋
  let past := x - below
  if past < 1 / 2 then below
  else if 1 / 2 < past then below + 1
  else if below % 2 = 0 then below else below + 1

def exponent (x : Rat) : Int := max (Int.log 2 |x| - 52) (-1074)

def ulp (x : Rat) : Rat := 2 ^ exponent x

def nearest (x : Rat) : Rat := halfEven (x / ulp x) * ulp x

/-- The magnitude at which doubles end. -/
@[irreducible] def limit : Rat := 2 ^ (1024 : Nat)

/-- The nearest double, none when it is out of range. -/
def toDouble (x : Rat) : Option Rat :=
  if |nearest x| < limit then some (nearest x) else none

theorem half_even_error (x : Rat) : |halfEven x - x| ≤ 1 / 2 := by
  have lower := Int.floor_le x
  have upper := Int.lt_floor_add_one x
  rw [abs_le]
  unfold halfEven
  dsimp only
  split_ifs <;> push_cast <;> constructor <;> linarith

theorem half_even_int (n : Int) : halfEven n = n := by
  simp [halfEven]

/-- An integer on one side of a number is on that side of its rounding. -/
theorem half_even_le (x : Rat) (bound : Int) (below : x ≤ bound) : halfEven x ≤ bound := by
  have close := (abs_le.mp (half_even_error x)).2
  by_cases same : x = bound
  · rw [same, half_even_int]
  · have room : ⌊x⌋ + 1 ≤ bound := by
      have less : ⌊x⌋ < bound := Int.floor_lt.mpr (lt_of_le_of_ne below same)
      omega
    unfold halfEven
    dsimp only
    split_ifs <;> omega

theorem half_even_ge (x : Rat) (bound : Int) (above : bound ≤ x) : bound ≤ halfEven x := by
  have floor : bound ≤ ⌊x⌋ := Int.le_floor.mpr above
  unfold halfEven
  dsimp only
  split_ifs <;> omega

theorem ulp_pos (x : Rat) : 0 < ulp x := zpow_pos two_pos _

theorem nearest_error (x : Rat) : |nearest x - x| ≤ ulp x / 2 := by
  have positive := ulp_pos x
  have close := half_even_error (x / ulp x)
  have scaled : nearest x - x = (halfEven (x / ulp x) - x / ulp x) * ulp x := by
    rw [sub_mul, div_mul_cancel₀ _ positive.ne', nearest]
  rw [scaled, abs_mul, abs_of_pos positive]
  calc |halfEven (x / ulp x) - x / ulp x| * ulp x
      ≤ 1 / 2 * ulp x := mul_le_mul_of_nonneg_right close positive.le
    _ = ulp x / 2 := by ring

/-- Where the unit is at most one, integers are on the grid. -/
theorem integer_on_grid (x : Rat) (n : Int) (fine : exponent x ≤ 0) :
    ∃ steps : Int, (n : Rat) = steps * ulp x := by
  obtain ⟨places, same⟩ := Int.eq_ofNat_of_zero_le (neg_nonneg.mpr fine)
  refine ⟨n * 2 ^ places, ?_⟩
  have negative : exponent x = -(places : Int) := by omega
  rw [ulp, negative, zpow_neg, zpow_natCast]
  push_cast
  rw [mul_assoc, mul_inv_cancel₀ (by positivity), mul_one]

theorem nearest_le (x : Rat) (bound : Int) (fine : exponent x ≤ 0) (below : x ≤ bound) :
    nearest x ≤ bound := by
  have positive := ulp_pos x
  obtain ⟨steps, same⟩ := integer_on_grid x bound fine
  rw [same] at below ⊢
  have rounded := half_even_le (x / ulp x) steps ((div_le_iff₀ positive).mpr below)
  exact mul_le_mul_of_nonneg_right (by exact_mod_cast rounded) positive.le

/-- Rounding keeps the ceiling of a number that is further than half a unit above
the integer below it. -/
theorem ceil_nearest (x : Rat) (fine : exponent x ≤ 0) (gap : ulp x / 2 < x - (⌈x⌉ - 1)) :
    ⌈nearest x⌉ = ⌈x⌉ := by
  rw [Int.ceil_eq_iff]
  constructor
  · have close := (abs_le.mp (nearest_error x)).1
    linarith
  · exact nearest_le x ⌈x⌉ fine (Int.le_ceil x)

theorem exponent_le (x : Rat) (bound : Int) (normal : -52 ≤ bound) (small : |x| < 2 ^ (bound + 53)) :
    exponent x ≤ bound := by
  refine max_le ?_ (by omega)
  by_cases zero : x = 0
  · simpa [zero, Int.log_zero_right] using normal
  · have log := (Int.lt_zpow_iff_log_lt one_lt_two (abs_pos.mpr zero)).mp small
    omega

theorem exponent_exact (x : Rat) (step : Int) (normal : -1074 ≤ step) (lower : 2 ^ (step + 52) ≤ |x|)
    (upper : |x| < 2 ^ (step + 53)) : exponent x = step := by
  have positive : 0 < |x| := lt_of_lt_of_le (zpow_pos two_pos _) lower
  have above := (Int.lt_zpow_iff_log_lt one_lt_two positive).mp upper
  have below := (Int.zpow_le_iff_le_log one_lt_two positive).mp lower
  unfold exponent
  omega

/-- From the limit on there is no double. -/
theorem to_double_overflow (x : Rat) (huge : limit ≤ x) : toDouble x = none := by
  have power : limit = 2 ^ (1024 : Int) := by
    rw [limit]
    exact (zpow_natCast 2 1024).symm
  have positive : 0 < x := lt_of_lt_of_le (power ▸ zpow_pos two_pos _) huge
  have size : |x| = x := abs_of_pos positive
  have log : 1024 ≤ Int.log 2 |x| := by
    apply (Int.zpow_le_iff_le_log one_lt_two (abs_pos.mpr positive.ne')).mp
    rwa [size, Nat.cast_ofNat, ← power]
  have step : exponent x = Int.log 2 |x| - 52 := by
    unfold exponent
    omega
  have split : (2 : Rat) ^ Int.log 2 |x| = 2 ^ 52 * ulp x := by
    rw [ulp, step, ← zpow_natCast, ← zpow_add₀ two_ne_zero]
    congr 1
    omega
  have lower : 2 ^ 52 * ulp x ≤ x := by
    have below := Int.zpow_log_le_self one_lt_two (abs_pos.mpr positive.ne')
    rw [← split, ← size, abs_abs]
    exact_mod_cast below
  have rounded : 2 ^ 52 ≤ halfEven (x / ulp x) :=
    half_even_ge _ (2 ^ 52) ((le_div_iff₀ (ulp_pos x)).mpr (by exact_mod_cast lower))
  have far : limit ≤ nearest x := by
    calc limit = 2 ^ (1024 : Int) := power
      _ ≤ 2 ^ Int.log 2 |x| := zpow_le_zpow_right₀ one_le_two log
      _ = 2 ^ 52 * ulp x := split
      _ ≤ nearest x := mul_le_mul_of_nonneg_right (by exact_mod_cast rounded) (ulp_pos x).le
  rw [toDouble, if_neg (not_lt.mpr (far.trans (le_abs_self _)))]

/-- A number of a collection's size is in range. -/
theorem to_double_small (x : Rat) (small : |x| ≤ 2 ^ 53) : toDouble x = some (nearest x) := by
  have close := nearest_error x
  have unit : ulp x ≤ 2 := by
    have bound := exponent_le x 1 (by decide) (lt_of_le_of_lt small (by norm_num))
    calc ulp x ≤ 2 ^ (1 : Int) := zpow_le_zpow_right₀ one_le_two bound
      _ = 2 := zpow_one 2
  have size : |nearest x| < limit := by
    calc |nearest x| ≤ |nearest x - x| + |x| := by
          have triangle := abs_add_le (nearest x - x) x
          rwa [sub_add_cancel] at triangle
      _ < 2 ^ 54 := by linarith
      _ ≤ limit := by
          rw [limit]
          exact pow_le_pow_right₀ one_le_two (by decide)
  rw [toDouble, if_pos size]

end Support.Binary64
