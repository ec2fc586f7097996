/-
Columns drawn on whole numbers.

Columns of a common width `e` stand side by side from `a` on.  Column `c` is
drawn from `⌊a + c * e⌋` with the width `⌊e⌋`: left edges and widths are rounded
down separately.  The width itself may be a share, rounded down to a multiple of
`1 / n`.

* `mul_floorTo_div_le` — shares rounded down fit what is shared;
* `left_add_floor_le_of_lt` — the drawn columns do not overlap;
* `left_succ_le` — neighbours are at most 1 apart;
* `left_add_floor_le_total` — they end within the undrawn columns.
-/
import Mathlib.Algebra.Order.Field.Basic
import Mathlib.Algebra.Order.Floor.Ring
import Mathlib.Tactic.Linarith

namespace FloorTiling

variable {K : Type*} [Field K] [LinearOrder K] [FloorRing K]

/-- Round down to a multiple of `1 / n`. -/
def floorTo (n : ℕ) (x : K) : K := ⌊x * n⌋ / n

/-- The left edge of column `c`. -/
def left (a e : K) (c : ℕ) : ℤ := ⌊a + c * e⌋

theorem left_zero (a e : K) : left a e 0 = ⌊a⌋ := by
  rw [left, Nat.cast_zero, zero_mul, add_zero]

variable [IsStrictOrderedRing K]

/-! ### Rounding down to a grid -/

section FloorTo

variable {n m : ℕ} {x : K}

theorem floorTo_le (hn : 0 < n) : floorTo n x ≤ x := by
  have hpos : (0 : K) < n := Nat.cast_pos.mpr hn
  rw [floorTo, div_le_iff₀ hpos]
  exact Int.floor_le _

theorem floorTo_nonneg (hx : 0 ≤ x) : 0 ≤ floorTo n x := by
  have hfloor : 0 ≤ ⌊x * n⌋ := Int.floor_nonneg.mpr (mul_nonneg hx (Nat.cast_nonneg n))
  exact div_nonneg (Int.cast_nonneg hfloor) (Nat.cast_nonneg n)

/-- A multiple of `1 / n` below `x` is below what `x` is rounded down to. -/
theorem le_floorTo {z : ℤ} (h : (z / n : K) ≤ x) (hn : 0 < n) : (z / n : K) ≤ floorTo n x := by
  have hpos : (0 : K) < n := Nat.cast_pos.mpr hn
  have hfloor : z ≤ ⌊x * n⌋ := Int.le_floor.mpr ((div_le_iff₀ hpos).mp h)
  rw [floorTo]
  exact div_le_div_of_nonneg_right (Int.cast_le.mpr hfloor) hpos.le

/-- At most `m` shares of an `m`-th, each rounded down, fit the whole. -/
theorem mul_floorTo_div_le {k : ℕ} (hn : 0 < n) (hx : 0 ≤ x) (hkm : k ≤ m) (hm : 0 < m) :
    k * floorTo n (x / m) ≤ x := by
  have hpos : (0 : K) < m := Nat.cast_pos.mpr hm
  have hshare : 0 ≤ x / m := div_nonneg hx hpos.le
  calc k * floorTo n (x / m) ≤ m * (x / m) :=
        mul_le_mul (Nat.cast_le.mpr hkm) (floorTo_le hn) (floorTo_nonneg hshare) hpos.le
    _ = x := mul_div_cancel₀ x hpos.ne'

end FloorTo

/-! ### Columns -/

section Left

variable {a e : K} {c c' n : ℕ}

/-- A column ends before its neighbour starts, -/
theorem left_add_floor_le (c : ℕ) : left a e c + ⌊e⌋ ≤ left a e (c + 1) := by
  rw [left, left, Nat.cast_succ, add_mul, one_mul, ← add_assoc]
  exact Int.le_floor_add _ _

/-- and not more than 1 before. -/
theorem left_succ_le (c : ℕ) : left a e (c + 1) ≤ left a e c + ⌊e⌋ + 1 := by
  rw [left, left, Nat.cast_succ, add_mul, one_mul, ← add_assoc]
  exact sub_le_iff_le_add.mp (Int.le_floor_add_floor _ _)

theorem left_mono (he : 0 ≤ e) (hc : c ≤ c') : left a e c ≤ left a e c' := by
  have hcast : (c : K) ≤ c' := Nat.cast_le.mpr hc
  exact Int.floor_mono (add_le_add le_rfl (mul_le_mul_of_nonneg_right hcast he))

/-- The drawn columns do not overlap. -/
theorem left_add_floor_le_of_lt (he : 0 ≤ e) (hc : c < c') :
    left a e c + ⌊e⌋ ≤ left a e c' :=
  (left_add_floor_le c).trans (left_mono he hc)

/-- The drawn columns end within `n` undrawn ones. -/
theorem left_add_floor_le_total (he : 0 ≤ e) (hc : c < n) :
    (left a e c + ⌊e⌋ : K) ≤ a + n * e := by
  have hend : left a e c + ⌊e⌋ ≤ left a e n := left_add_floor_le_of_lt he hc
  calc (left a e c + ⌊e⌋ : K) = ((left a e c + ⌊e⌋ : ℤ) : K) := (Int.cast_add _ _).symm
    _ ≤ left a e n := Int.cast_le.mpr hend
    _ ≤ a + n * e := Int.floor_le _

end Left

end FloorTiling
