/-
VerityBackend.Numeric.NearestRank — nearest-rank percentiles.

The percentile of a list is its least value that the given fraction of the
list does not exceed. It is unique, does not depend on the order of the list,
and stands at the rank of the sorted list (`isNearestRank_getElem`).
-/
import Mathlib.Data.Rat.Floor
import Mathlib.Order.Defs.LinearOrder
import Mathlib.Data.List.Sort
import Mathlib.Tactic.Linarith

namespace VerityBackend.Numeric

section NearestRank

variable {α : Type} [LinearOrder α]

/-- A fraction `p` of the values is at most `v`, and of no smaller value. -/
structure IsNearestRank (values : List α) (p : Rat) (v : α) : Prop where
  mem : v ∈ values
  reached : p * values.length ≤ values.countP (· ≤ v)
  least : values.countP (· < v) < p * values.length

variable {values values' : List α} {p : Rat} {v w : α}

theorem IsNearestRank.le (hv : IsNearestRank values p v) (hw : IsNearestRank values p w) : w ≤ v := by
  by_contra hlt
  have hcount : values.countP (· ≤ v) ≤ values.countP (· < w) :=
    List.countP_mono_left fun x _ hx => decide_eq_true (lt_of_le_of_lt (of_decide_eq_true hx) (not_le.mp hlt))
  have hcount' : (values.countP (· ≤ v) : Rat) ≤ values.countP (· < w) := by exact_mod_cast hcount
  have hreached := hv.reached
  have hleast := hw.least
  linarith

theorem IsNearestRank.unique (hv : IsNearestRank values p v) (hw : IsNearestRank values p w) : v = w :=
  le_antisymm (hw.le hv) (hv.le hw)

theorem IsNearestRank.perm (h : values.Perm values') (hv : IsNearestRank values p v) :
    IsNearestRank values' p v where
  mem := h.mem_iff.mp hv.mem
  reached := by
    rw [← h.length_eq, ← h.countP_eq]
    exact hv.reached
  least := by
    rw [← h.length_eq, ← h.countP_eq]
    exact hv.least

/-- In a sorted list the percentile stands at its rank. -/
theorem isNearestRank_getElem (hsorted : values.Pairwise (· ≤ ·)) {k : Nat} (hk : k < values.length)
    (hlow : (k : Rat) < p * values.length) (hhigh : p * values.length ≤ k + 1) :
    IsNearestRank values p values[k] := by
  have hle : ∀ i j, (hi : i < values.length) → (hj : j < values.length) → i ≤ j →
      values[i] ≤ values[j] := by
    intro i j hi hj hij
    rcases Nat.lt_or_eq_of_le hij with hlt | rfl
    · exact List.pairwise_iff_getElem.mp hsorted i j hi hj hlt
    · exact le_rfl
  refine ⟨List.getElem_mem hk, ?_, ?_⟩
  · have hall : (values.take (k + 1)).countP (· ≤ values[k]) = (values.take (k + 1)).length := by
      refine List.countP_eq_length.mpr fun x hx => ?_
      obtain ⟨i, hi, rfl⟩ := List.mem_take_iff_getElem.mp hx
      exact decide_eq_true (hle i k _ hk (by omega))
    have hcount : k + 1 ≤ values.countP (· ≤ values[k]) := by
      have htake := (List.take_sublist (k + 1) values).countP_le (p := fun x => decide (x ≤ values[k]))
      rw [hall, List.length_take] at htake
      omega
    have hcount' : (k : Rat) + 1 ≤ values.countP (· ≤ values[k]) := by exact_mod_cast hcount
    linarith
  · have hnone : (values.drop k).countP (· < values[k]) = 0 := by
      refine List.countP_eq_zero.mpr fun x hx => ?_
      obtain ⟨i, hi, rfl⟩ := List.mem_drop_iff_getElem.mp hx
      simpa using hle k (k + i) hk _ (by omega)
    have hcount : values.countP (· < values[k]) ≤ k := by
      calc values.countP (· < values[k])
          = (values.take k).countP (· < values[k]) + (values.drop k).countP (· < values[k]) := by
            rw [← List.countP_append, List.take_append_drop]
        _ ≤ k := by
            rw [hnone, Nat.add_zero]
            exact List.countP_le_length.trans (by rw [List.length_take]; omega)
    have hcount' : (values.countP (· < values[k]) : Rat) ≤ k := by exact_mod_cast hcount
    linarith

/-- The percentile of a list, where it has one. -/
def IsPercentile (values : List α) (p : Rat) (o : Option α) : Prop :=
  match o with
  | some v => IsNearestRank values p v
  | none => values = []

theorem IsPercentile.unique {o o' : Option α} (h : IsPercentile values p o)
    (h' : IsPercentile values p o') : o = o' := by
  cases o with
  | none =>
      cases o' with
      | none => rfl
      | some w => exact absurd (IsNearestRank.mem h') (by rw [show values = [] from h]; exact List.not_mem_nil)
  | some v =>
      cases o' with
      | none => exact absurd (IsNearestRank.mem h) (by rw [show values = [] from h']; exact List.not_mem_nil)
      | some w => exact congrArg some (IsNearestRank.unique h h')

end NearestRank

end VerityBackend.Numeric
