/-
VerityBackend.Numeric.Double — rounding to the nearest double.

A nonnegative rational is rounded to a multiple of its `ulp`, halves to even.
The range of the exponents is left out: nothing here overflows or is
subnormal. `ceil_toDouble_mul` says when the ceiling of a rounded product is
the ceiling of the exact one.
-/
import Mathlib.Data.Int.Log
import Mathlib.Data.Rat.Floor
import Mathlib.Tactic.Linarith
import Mathlib.Tactic.NormNum
import Mathlib.Tactic.Positivity
import Mathlib.Tactic.Ring

namespace VerityBackend.Numeric

/-! ## Rounding -/

/-- The nearest integer, halves to the even one. -/
def nearestInt (q : Rat) : Int :=
  let f := ⌊q⌋
  if q - f < 1 / 2 then f
  else if 1 / 2 < q - f then f + 1
  else if f % 2 = 0 then f
  else f + 1

/-- The distance of the doubles around a number. -/
def ulp (x : Rat) : Rat := 2 ^ (Int.log 2 x - 52)

def toDouble (x : Rat) : Rat := nearestInt (x / ulp x) * ulp x

theorem abs_nearestInt_sub_le (q : Rat) : |(nearestInt q : Rat) - q| ≤ 1 / 2 := by
  have hlow := Int.floor_le q
  have hhigh := Int.lt_floor_add_one q
  unfold nearestInt
  dsimp only
  rw [abs_le]
  split
  · constructor <;> linarith
  · split
    · push_cast
      constructor <;> linarith
    · split
      · constructor <;> linarith
      · push_cast
        constructor <;> linarith

theorem nearestInt_intCast (k : Int) : nearestInt k = k := by
  unfold nearestInt
  rw [Int.floor_intCast, if_pos (by norm_num)]

section Ulp

variable {x : Rat}

theorem ulp_pos (x : Rat) : 0 < ulp x := zpow_pos (by norm_num) _

/-- A number has 53 binary digits. -/
theorem ulp_mul_le (hx : 0 < x) : ulp x * 2 ^ 52 ≤ x := by
  have h : ((2 : Nat) : Rat) ^ Int.log 2 x ≤ x := Int.zpow_log_le_self (by norm_num) hx
  have hsplit : ulp x * 2 ^ 52 = 2 ^ Int.log 2 x := by
    unfold ulp
    rw [zpow_sub₀ (by norm_num)]
    norm_num
  rw [hsplit]
  exact_mod_cast h

theorem lt_ulp_mul (x : Rat) : x < ulp x * 2 ^ 53 := by
  have h : x < ((2 : Nat) : Rat) ^ (Int.log 2 x + 1) := Int.lt_zpow_succ_log_self (by norm_num) x
  have hsplit : ulp x * 2 ^ 53 = 2 ^ (Int.log 2 x + 1) := by
    unfold ulp
    rw [zpow_sub₀ (by norm_num), zpow_add₀ (by norm_num)]
    norm_num
    ring
  rw [hsplit]
  exact_mod_cast h

theorem abs_toDouble_sub_le (x : Rat) : |toDouble x - x| ≤ ulp x / 2 := by
  have hpos := ulp_pos x
  have hround := abs_nearestInt_sub_le (x / ulp x)
  have hsplit : toDouble x - x = (nearestInt (x / ulp x) - x / ulp x) * ulp x := by
    unfold toDouble
    rw [sub_mul, div_mul_cancel₀ _ hpos.ne']
  rw [hsplit, abs_mul, abs_of_pos hpos]
  calc |(nearestInt (x / ulp x) : Rat) - x / ulp x| * ulp x ≤ 1 / 2 * ulp x := by gcongr
    _ = ulp x / 2 := by ring

/-- Below 2^53 the integers are doubles. -/
theorem exists_mul_ulp (hx : 0 < x) (hsmall : x < 2 ^ 53) (k : Int) : ∃ m : Int, (k : Rat) = m * ulp x := by
  have hlog : Int.log 2 x < 53 := by
    refine (Int.lt_zpow_iff_log_lt (b := 2) (by norm_num) hx).mp ?_
    exact_mod_cast hsmall
  obtain ⟨j, hj⟩ : ∃ j : Nat, Int.log 2 x - 52 = -(j : Int) :=
    ⟨(52 - Int.log 2 x).toNat, by omega⟩
  refine ⟨k * 2 ^ j, ?_⟩
  unfold ulp
  rw [hj, zpow_neg, zpow_natCast]
  push_cast
  rw [mul_assoc, mul_inv_cancel₀ (by positivity), mul_one]

/-- What is nearest to an integer is rounded to it. -/
theorem toDouble_eq_intCast (hx : 0 < x) (hsmall : x < 2 ^ 53) {k : Int}
    (hnear : |x - k| < ulp x / 2) : toDouble x = k := by
  have hpos := ulp_pos x
  obtain ⟨m, hm⟩ := exists_mul_ulp hx hsmall k
  have hround := abs_toDouble_sub_le x
  have hdist : |((nearestInt (x / ulp x) - m : Int) : Rat)| * ulp x < 1 * ulp x := by
    calc |((nearestInt (x / ulp x) - m : Int) : Rat)| * ulp x
        = |toDouble x - k| := by
          rw [hm, ← abs_of_pos hpos, ← abs_mul, abs_of_pos hpos]
          unfold toDouble
          push_cast
          ring_nf
      _ ≤ |toDouble x - x| + |x - k| := abs_sub_le _ _ _
      _ < 1 * ulp x := by linarith
  have hlt : |((nearestInt (x / ulp x) - m : Int) : Rat)| < 1 := lt_of_mul_lt_mul_right hdist hpos.le
  have hzero : |nearestInt (x / ulp x) - m| < 1 := by exact_mod_cast hlt
  have heq : nearestInt (x / ulp x) = m := by
    have := Int.abs_lt_one_iff.mp hzero
    omega
  unfold toDouble
  rw [heq, hm]

end Ulp

/-! ## Products -/

theorem toDouble_zero : toDouble 0 = 0 := by
  have h : (0 : Rat) / ulp 0 = ((0 : Int) : Rat) := by simp
  unfold toDouble
  rw [h, nearestInt_intCast, Int.cast_zero, zero_mul]

/-- Fractions of one denominator keep a distance. -/
theorem add_one_div_le {x y : Rat} {b : Nat} {p q : Int} (hb : 0 < b) (hx : x * b = p) (hy : y * b = q)
    (h : x < y) : x + 1 / b ≤ y := by
  have hb0 : (0 : Rat) < b := by exact_mod_cast hb
  have hscaled : p < q := by
    have hlt : (p : Rat) < q := by
      rw [← hx, ← hy]
      exact mul_lt_mul_of_pos_right h hb0
    exact_mod_cast hlt
  have hscaled' : (p : Rat) + 1 ≤ q := by exact_mod_cast hscaled
  have hmul : (x + 1 / b) * b ≤ y * b := by
    rw [add_mul, one_div, inv_mul_cancel₀ hb0.ne', hx, hy]
    exact hscaled'
  exact le_of_mul_le_mul_right hmul hb0

/-- **The ceiling of a rounded product.** `r` is a fraction with a small
denominator `b` and `R` its double, which is close enough; then the product
with a length, rounded, has the ceiling of the exact product. -/
theorem ceil_toDouble_mul {r R : Rat} {a : Int} {b n : Nat} (hb : 0 < b) (hb' : b < 2 ^ 19)
    (hr : r * b = a) (hR : 0 < R) (hR' : R ≤ 1) (hnear : |R - r| * 2 ^ 54 < R) (hn : n < 2 ^ 32) :
    ⌈toDouble (R * n)⌉ = ⌈r * n⌉ := by
  rcases Nat.eq_zero_or_pos n with rfl | hpos
  · simp [toDouble_zero]
  have hn0 : (0 : Rat) < n := by exact_mod_cast hpos
  have hnlt : (n : Rat) < 2 ^ 32 := by exact_mod_cast hn
  have hx : 0 < R * n := mul_pos hR hn0
  have hxlt : R * n < 2 ^ 32 := by nlinarith
  have hulp := ulp_mul_le hx
  have hulp' := lt_ulp_mul (R * n)
  have herror : |R * n - r * n| * 2 ^ 54 < R * n := by
    rw [← sub_mul, abs_mul, abs_of_pos hn0]
    nlinarith
  have hclose : |R * n - r * n| < ulp (R * n) / 2 := by linarith
  have hround := abs_toDouble_sub_le (R * n)
  by_cases hint : ∃ k : Int, r * n = k
  · obtain ⟨k, hk⟩ := hint
    rw [toDouble_eq_intCast hx (by linarith) (hk ▸ hclose), hk]
  · -- the exact product keeps a distance of `1 / b` from the integers
    have hb0 : (0 : Rat) < b := by exact_mod_cast hb
    have hbnd : (b : Rat) < 2 ^ 19 := by exact_mod_cast hb'
    have hdist : |toDouble (R * n) - r * n| < 1 / b := by
      have hfine : (1 : Rat) / 2 ^ 19 < 1 / b := one_div_lt_one_div_of_lt hb0 hbnd
      calc |toDouble (R * n) - r * n| ≤ |toDouble (R * n) - R * n| + |R * n - r * n| := abs_sub_le _ _ _
        _ < ulp (R * n) := by linarith
        _ < 1 / 2 ^ 19 := by linarith
        _ < 1 / b := hfine
    have hproduct : r * n * b = ((a * n : Int) : Rat) := by
      push_cast
      rw [← hr]
      ring
    have hinteger (k : Int) : (k : Rat) * b = ((k * b : Int) : Rat) := by push_cast; rfl
    obtain ⟨hlow, hhigh⟩ := abs_lt.mp hdist
    have hceil := Int.le_ceil (r * n)
    have hceil' := Int.ceil_lt_add_one (r * n)
    have hne : r * n ≠ ⌈r * n⌉ := fun h => hint ⟨_, h⟩
    have hup := add_one_div_le hb hproduct (hinteger ⌈r * n⌉) (lt_of_le_of_ne hceil hne)
    have hdown := add_one_div_le hb (hinteger (⌈r * n⌉ - 1)) hproduct (by push_cast; linarith)
    rw [Int.ceil_eq_iff]
    push_cast at hdown
    constructor <;> linarith

end VerityBackend.Numeric
