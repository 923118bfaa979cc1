import LineShell.Proofs.Value.Comparison

/-!
# Remainders of whole numbers

The remainder of two whole numbers is the one whose sign is that of the dividend
(`Number.isRemainder_tmod`). It always fits into 64 bits, but it is reckoned together with the
quotient, and of all quotients only that of the least number by minus one does not fit
(`Number.fits_tdiv_iff`). There the remainder falls back to floats, so `%` is exact for all whole
operands but these two (`BinaryOp.remainder_isRemainder_iff`).
-/

namespace LineShell

namespace Number

/-- `n` is left over when `a` is divided by `b`: it differs from `a` by a multiple of `b`, is
smaller than `b` in magnitude, and is zero or on the side of `a`. -/
structure IsRemainder (a b n : Int) : Prop where
  dvd_sub : b ∣ a - n
  natAbs_lt : n.natAbs < b.natAbs
  sign_eq : n = 0 ∨ n.sign = a.sign

variable {a b : Int}

theorem tmod_nonpos (b : Int) (ha : a ≤ 0) : a.tmod b ≤ 0 := by
  have hneg := Int.tmod_nonneg (a := -a) b (by omega)
  rw [Int.neg_tmod] at hneg
  omega

theorem sign_tmod (a b : Int) : a.tmod b = 0 ∨ (a.tmod b).sign = a.sign := by
  rcases lt_trichotomy a 0 with ha | rfl | ha
  · rcases (tmod_nonpos b ha.le).lt_or_eq with hlt | heq
    · exact .inr (by rw [Int.sign_eq_neg_one_of_neg hlt, Int.sign_eq_neg_one_of_neg ha])
    · exact .inl heq
  · exact .inl (Int.zero_tmod b)
  · rcases (Int.tmod_nonneg b ha.le).lt_or_eq with hlt | heq
    · exact .inr (by rw [Int.sign_eq_one_of_pos hlt, Int.sign_eq_one_of_pos ha])
    · exact .inl heq.symm

theorem isRemainder_tmod (hb : b ≠ 0) : IsRemainder a b (a.tmod b) where
  dvd_sub := by
    have hsplit := Int.tmod_add_mul_tdiv a b
    exact ⟨a.tdiv b, by omega⟩
  natAbs_lt := by
    rw [Int.natAbs_tmod]
    exact Nat.mod_lt _ (by omega)
  sign_eq := sign_tmod a b

/-- Of all quotients only one is out of range: the greatest magnitude that the dividend can have,
with its sign turned. -/
theorem ofInt?_tdiv_eq_none_iff {a b : Int64} :
    ofInt? (a.toInt.tdiv b.toInt) = none ↔ a = Int64.minValue ∧ b = -1 := by
  have hmin : Int64.minValue.toInt = -9223372036854775808 := rfl
  have hmax : Int64.maxValue.toInt = 9223372036854775807 := rfl
  have hlow := Int64.le_toInt a
  have hhigh := Int64.toInt_lt a
  have hone : (-1 : Int64).toInt = -1 := rfl
  rw [ofInt?_eq_none_iff, ← Int64.toInt_inj, ← Int64.toInt_inj, hmin, hmax, hone]
  by_cases hb : b.toInt = -1
  · rw [hb, Int.tdiv_neg, Int.tdiv_one]
    omega
  · have hquotient : (a.toInt.tdiv b.toInt).natAbs = a.toInt.natAbs / b.toInt.natAbs :=
      Int.natAbs_tdiv ..
    rcases Nat.lt_or_ge b.toInt.natAbs 2 with hsmall | hlarge
    · have hcases : b.toInt = 0 ∨ b.toInt = 1 := by omega
      rcases hcases with h | h
      · simp [h]
      · rw [h, Int.tdiv_one]
        omega
    · have hhalf : a.toInt.natAbs / b.toInt.natAbs ≤ a.toInt.natAbs / 2 :=
        Nat.div_le_div_left hlarge (by decide)
      omega

theorem exists_ofInt?_tmod (a b : Int64) : ∃ n, ofInt? (a.toInt.tmod b.toInt) = some n := by
  refine Option.ne_none_iff_exists'.mp fun hnone => ?_
  have hmin : Int64.minValue.toInt = -9223372036854775808 := rfl
  have hmax : Int64.maxValue.toInt = 9223372036854775807 := rfl
  have hlow := Int64.le_toInt a
  have hhigh := Int64.toInt_lt a
  have hle : (a.toInt.tmod b.toInt).natAbs ≤ a.toInt.natAbs := by
    rw [Int.natAbs_tmod]
    exact Nat.mod_le _ _
  have hout := ofInt?_eq_none_iff.mp hnone
  rcases le_total 0 a.toInt with ha | ha
  · omega
  · have hnonpos := tmod_nonpos b.toInt ha
    omega

theorem remainder?_eq_some_iff {a b n : Int64} :
    remainder? a b = some n ↔
      ¬ (a = Int64.minValue ∧ b = -1) ∧ n.toInt = a.toInt.tmod b.toInt := by
  rw [← ofInt?_tdiv_eq_none_iff, remainder?]
  cases hquotient : ofInt? (a.toInt.tdiv b.toInt) with
  | none => simp
  | some q => simp [ofInt?_eq_some_iff]

/-- Only the float of zero is zero. -/
theorem toFloat_beq_zero {b : Int64} (hb : b ≠ 0) : (toFloat b == 0.0) = false := by
  have hzero : (0.0 : Float) = toFloat 0 := by decide
  rw [hzero, Bool.eq_false_iff, ne_eq, beq_iff_rank_eq (isNaN_toFloat b) (isNaN_toFloat 0)]
  intro hrank
  exact absurd (le_natAbs_of_rank_toFloat_eq hb hrank).2 (by decide)

end Number

namespace BinaryOp

open Number Value

variable {l r : Value} {a b : Int64}

theorem remainder_eq_arithmetic (hr : r.integer? = some b) (hb : b ≠ 0) :
    remainder l r = arithmetic .rem remainder? floatRemainder l r := by
  have hfloat := (views_of_comparand (comparand_of_integer? hr)).2
  rw [remainder, hfloat, Option.any_some, toFloat_beq_zero hb]
  rfl

theorem remainder_eq_integer_iff (hl : l.integer? = some a) (hr : r.integer? = some b)
    (hb : b ≠ 0) {n : Int64} :
    remainder l r = .ok (.integer n) ↔
      ¬ (a = Int64.minValue ∧ b = -1) ∧ n.toInt = a.toInt.tmod b.toInt := by
  have hx := (views_of_comparand (comparand_of_integer? hl)).2
  have hy := (views_of_comparand (comparand_of_integer? hr)).2
  rw [← remainder?_eq_some_iff, remainder_eq_arithmetic hr hb, arithmetic, wholeResult?, hl, hr, hx,
    hy]
  dsimp only
  cases remainder? a b <;> simp

/-- The remainder of whole numbers is exact and follows the dividend, but for the least number by
minus one: their quotient does not fit, and what comes out is the negative zero of the floats. -/
theorem remainder_isRemainder_iff (hl : l.integer? = some a) (hr : r.integer? = some b)
    (hb : b ≠ 0) :
    ((∃ n : Int64, remainder l r = .ok (.integer n) ∧ IsRemainder a.toInt b.toInt n.toInt) ↔
      ¬ (a = Int64.minValue ∧ b = -1)) ∧
      (a = Int64.minValue ∧ b = -1 → remainder l r = .ok (.float (-0.0))) := by
  constructor
  · constructor
    · rintro ⟨n, hn, -⟩
      exact ((remainder_eq_integer_iff hl hr hb).mp hn).1
    · intro hsafe
      obtain ⟨n, hn⟩ := exists_ofInt?_tmod a b
      have hn' := ofInt?_eq_some_iff.mp hn
      have hb' : b.toInt ≠ 0 := fun h => hb (Int64.toInt_inj.mp h)
      refine ⟨n, (remainder_eq_integer_iff hl hr hb).mpr ⟨hsafe, hn'⟩, ?_⟩
      rw [hn']
      exact isRemainder_tmod hb'
  · rintro ⟨rfl, rfl⟩
    have hx := (views_of_comparand (comparand_of_integer? hl)).2
    have hy := (views_of_comparand (comparand_of_integer? hr)).2
    have hnone : remainder? Int64.minValue (-1) = none := by decide
    have hfloat : floatRemainder (toFloat Int64.minValue) (toFloat (-1)) = -0.0 := by
      decide
    rw [remainder_eq_arithmetic hr hb, arithmetic, wholeResult?, hl, hr, hx, hy]
    dsimp only
    rw [hnone, hfloat]

theorem remainder_isRemainder_least :
    ∃ n : Int64, remainder (.integer Int64.minValue) (.boolean true) = .ok (.integer n) ∧
      IsRemainder Int64.minValue.toInt 1 n.toInt :=
  (remainder_isRemainder_iff (l := .integer Int64.minValue) (r := .boolean true) rfl rfl
    (by decide)).1.mpr (by decide)

/-- The least number is a multiple of minus one, so nothing is left over, but the remainder is a
float. -/
theorem remainder_minValue_ne :
    (Value.integer (-1)).integer? = some (-1) ∧
      IsRemainder Int64.minValue.toInt (-1) 0 ∧
      remainder (.integer Int64.minValue) (.integer (-1)) = .ok (.float (-0.0)) ∧
      ¬ ∃ n : Int64, remainder (.integer Int64.minValue) (.integer (-1)) = .ok (.integer n) := by
  have hfloat : remainder (.integer Int64.minValue) (.integer (-1)) = .ok (.float (-0.0)) := by
    decide
  refine ⟨rfl, ⟨⟨Int64.minValue.toInt * -1, by decide⟩, by decide, .inl rfl⟩, hfloat, ?_⟩
  rintro ⟨n, hn⟩
  rw [hfloat] at hn
  cases hn

end BinaryOp

end LineShell
