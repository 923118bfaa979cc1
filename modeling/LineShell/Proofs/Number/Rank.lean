import LineShell.Expr.Operator
import Mathlib.Algebra.Order.Group.Int
import Mathlib.Algebra.Order.Group.Synonym
import Mathlib.Algebra.Order.Monoid.Prod
import Mathlib.Order.Compare

/-!
# The order of floats

Floats that are numbers are ordered as a key is, lexicographically: the sign and the kind first, the
exponent then, the significand last. The keys form a linear order, so `==` and `<` between floats
are the equality and the order of their keys (`beq_iff_rank_eq`, `lt_iff_rank_lt`), and the order
that the comparison operators ask for is the comparison of the keys (`floatOrder_eq`).

The two zeros have one key. A NaN has it too, and is excluded wherever keys are compared.
-/

namespace LineShell.Number

open Float.Model UnpackedFloat

/-- The key of a float: below zero the exponents and the significands are counted downward. -/
def rankOf : UnpackedFloat → ℤ ×ₗ ℤ ×ₗ ℤ
  | .infinity .negative => toLex (-2, toLex (0, 0))
  | .finite .negative m e _ => toLex (-1, toLex (-e, -m))
  | .zero _ | .notANumber => toLex (0, toLex (0, 0))
  | .finite .positive m e _ => toLex (1, toLex (e, m))
  | .infinity .positive => toLex (2, toLex (0, 0))

def rank (x : Float) : ℤ ×ₗ ℤ ×ₗ ℤ := rankOf x.toModel.unpack

theorem rankOf_neg (u : UnpackedFloat) : rankOf u.neg = -rankOf u := by
  rcases u with (_ | _) | _ | _ | ⟨_ | _, m, e, hm⟩ <;> try rfl
  show toLex ((1 : ℤ), toLex (e, (m : ℤ))) = toLex (- -(1 : ℤ), toLex (- -e, - -(m : ℤ)))
  rw [Int.neg_neg, Int.neg_neg, Int.neg_neg]

theorem compare_natCast (m n : Nat) : compare (m : Int) n = compare m n := by
  simp only [compare, compareOfLessAndEq, Int.ofNat_lt, Int.ofNat_inj]

theorem compare_neg_neg (a b : Int) : compare (-a) (-b) = compare b a := by
  simp only [compare, compareOfLessAndEq, Int.neg_lt_neg_iff, Int.neg_inj, eq_comm]

theorem compare_swap (a b : Int) : (compare a b).swap = compare b a := by
  rw [← cmp_eq_compare, ← cmp_eq_compare, cmp_swap]

/-- Two floats of one sign are compared by their exponents and then by their significands, the
other way round below zero. All other pairs are told apart by the first part of the key. -/
theorem compare_eq_rankOf {u v : UnpackedFloat} (hu : u ≠ .notANumber) (hv : v ≠ .notANumber) :
    u.compare v = some (compare (rankOf u) (rankOf v)) := by
  rcases u with (_ | _) | _ | _ | ⟨_ | _, m, e, hm⟩ <;>
    rcases v with (_ | _) | _ | _ | ⟨_ | _, n, f, hn⟩ <;>
    first | exact absurd rfl hu | exact absurd rfl hv | rfl | skip
  · show some ((compare e f).then (compare m n)).swap =
      some ((compare (-e) (-f)).then (compare (-m : Int) (-n)))
    rw [compare_neg_neg, compare_neg_neg, compare_natCast, Ordering.swap_then, ← compare_natCast n,
      ← compare_natCast m, compare_swap, compare_swap]
  · show some ((compare e f).then (compare m n)) = some ((compare e f).then (compare (m : Int) n))
    rw [compare_natCast]

variable {x y : Float}

theorem unpack_ne_notANumber (h : x.isNaN = false) : x.toModel.unpack ≠ .notANumber := by
  intro hnan
  have hisNaN : x.isNaN = x.toModel.unpack.isNaN := rfl
  rw [hisNaN, hnan] at h
  cases h

theorem compare_unpack (hx : x.isNaN = false) (hy : y.isNaN = false) :
    x.toModel.unpack.compare y.toModel.unpack = some (compare (rank x) (rank y)) :=
  compare_eq_rankOf (unpack_ne_notANumber hx) (unpack_ne_notANumber hy)

theorem lt_iff_compare : x < y ↔ x.toModel.unpack.compare y.toModel.unpack = some .lt := by
  show decide (x.toModel < y.toModel) = true ↔ _
  rw [decide_eq_true_iff, ← beq_iff_eq]
  rfl

theorem le_iff_compare :
    x ≤ y ↔ (x.toModel.unpack.compare y.toModel.unpack).any (·.isLE) = true := by
  show decide (x.toModel ≤ y.toModel) = true ↔ _
  rw [decide_eq_true_iff]
  rfl

theorem lt_iff_rank_lt (hx : x.isNaN = false) (hy : y.isNaN = false) : x < y ↔ rank x < rank y := by
  rw [lt_iff_compare, compare_unpack hx hy, Option.some_inj, compare_lt_iff_lt]

theorem le_iff_rank_le (hx : x.isNaN = false) (hy : y.isNaN = false) : x ≤ y ↔ rank x ≤ rank y := by
  rw [le_iff_compare, compare_unpack hx hy, Option.any_some, ← compare_le_iff_le,
    Ordering.isLE_iff_ne_gt]

theorem beq_iff_rank_eq (hx : x.isNaN = false) (hy : y.isNaN = false) :
    (x == y) = true ↔ rank x = rank y := by
  have hbeq : (x == y) = (x.toModel.unpack.compare y.toModel.unpack == some .eq) := rfl
  rw [hbeq, compare_unpack hx hy, beq_iff_eq, Option.some_inj, compare_eq_iff_eq]

theorem floatOrder_eq (hx : x.isNaN = false) (hy : y.isNaN = false) :
    Value.floatOrder x y = some (compare (rank x) (rank y)) := by
  unfold Value.floatOrder
  rcases lt_trichotomy (rank x) (rank y) with h | h | h
  · rw [if_pos ((lt_iff_rank_lt hx hy).mpr h), compare_lt_iff_lt.mpr h]
  · rw [if_neg (mt (lt_iff_rank_lt hx hy).mp h.not_lt),
      if_neg (mt (lt_iff_rank_lt hy hx).mp h.not_gt), if_pos ((beq_iff_rank_eq hx hy).mpr h),
      compare_eq_iff_eq.mpr h]
  · rw [if_neg (mt (lt_iff_rank_lt hx hy).mp h.not_gt), if_pos ((lt_iff_rank_lt hy hx).mpr h),
      compare_gt_iff_gt.mpr h]

end LineShell.Number
