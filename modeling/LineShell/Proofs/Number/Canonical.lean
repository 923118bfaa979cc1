import LineShell.Proofs.Number.Nearest
import Mathlib

/-!
# The finite floats

Which pairs of a significand and an exponent the finite floats are (`canonical_of_unpack`), and that
each of them is a float (`Canonical.unpack_pack`). So the absolute value of a float changes nothing
but the sign (`unpack_abs`).

The fractions that round to different floats are in the order of the floats (`RoundsTo.lt`): where
the intervals of two neighbours meet, one of the two significands is odd, and its interval is open.
-/

namespace LineShell.Number

open Float.Model UnpackedFloat

variable {s : Sign} {m n : Nat} {e f : Int} {hm : 0 < m}

/-! ## Packing -/

theorem canonical_of_unpack {b : BitVec 64}
    (h : UnpackedFloat.unpack Format.binary64 b = .finite s m e hm) : Canonical m e := by
  have hfraction : (@unpackMantissa Format.binary64 b).toNat < 2 ^ 52 := BitVec.isLt _
  have hbiased : (@unpackExponent Format.binary64 b).toNat < 2 ^ 11 := BitVec.isLt _
  unfold UnpackedFloat.unpack at h
  dsimp only at h
  split_ifs at h with hmax hfull hleast hzero
  · injection h with _ hm he
    have he' : e = -1074 := by
      rw [← he, hleast]
      rfl
    exact ⟨by omega, by omega, by omega, by omega, by omega⟩
  · injection h with _ hm he
    have hpositive : (@unpackExponent Format.binary64 b).toNat ≠ 0 :=
      fun hzero => hleast (BitVec.eq_of_toNat_eq hzero)
    have hfinite : (@unpackExponent Format.binary64 b).toNat ≠ 2047 :=
      fun heq => hmax (BitVec.eq_of_toNat_eq heq)
    have he' : ((@unpackExponent Format.binary64 b).toNat : Int) - 1075 = e := he
    rw [toNat_append_one] at hm
    exact ⟨by omega, by omega, by omega, by omega, by omega⟩

theorem unpack_pack_least (s : Sign) (hm : 0 < m) (hlt : m < 2 ^ 52) :
    UnpackedFloat.unpack Format.binary64
      (UnpackedFloat.pack Format.binary64 (.finite s m (-1074) hm)) = .finite s m (-1074) hm := by
  have hlog : m.log2 < 52 := (Nat.log2_lt hm.ne').mpr hlt
  have hpack : UnpackedFloat.pack Format.binary64 (.finite s m (-1074) hm) =
      packComponents Format.binary64 s 0#11 (BitVec.ofNat 52 m) := by
    show (if m.log2 + 1 = 53 then _
      else packComponents Format.binary64 s 0#11 (BitVec.ofNat 52 m)) = _
    rw [if_neg (by omega)]
  have hfraction : (BitVec.ofNat 52 m).toNat = m := by
    rw [BitVec.toNat_ofNat, Nat.mod_eq_of_lt hlt]
  have hnonzero : BitVec.ofNat 52 m ≠ 0#52 := by
    intro hzero
    rw [hzero] at hfraction
    exact hm.ne hfraction
  rw [hpack]
  unfold UnpackedFloat.unpack
  simp only [unpackMantissa_packComponents, unpackExponent_packComponents,
    unpackSign_packComponents, Sign.ofBitVec_toBitVec]
  rw [if_neg (by decide), if_pos trivial, dif_neg hnonzero]
  congr 1

theorem Canonical.unpack_pack (h : Canonical m e) (s : Sign) (hm : 0 < m) :
    UnpackedFloat.unpack Format.binary64 (UnpackedFloat.pack Format.binary64 (.finite s m e hm)) =
      .finite s m e hm := by
  rcases Nat.lt_or_ge m (2 ^ 52) with hlt | hge
  · obtain rfl : e = -1074 := by
      have hfull := h.full
      have hleast := h.least
      omega
    exact unpack_pack_least s hm hlt
  · exact unpack_pack_finite s hge h.lt h.least h.greatest hm

theorem unpack_abs (x : Float) : x.abs.toModel.unpack = x.toModel.unpack.abs := by
  show UnpackedFloat.unpack Format.binary64
    (UnpackedFloat.pack Format.binary64 x.toModel.unpack.abs) = _
  cases hunpack : x.toModel.unpack with
  | infinity s =>
      show UnpackedFloat.unpack Format.binary64 (packedInfinity Format.binary64 .positive) = _
      rfl
  | notANumber => exact unpack_packedNaN
  | zero s => exact unpack_packedZero
  | finite s m e hm => exact (canonical_of_unpack hunpack).unpack_pack .positive hm

/-! ## The order of what rounds to floats -/

variable {x y : ℚ}

theorem RoundsTo.lt_of_significand_lt (hx : RoundsTo m e x) (hy : RoundsTo n e y) (h : m < n) :
    x < y := by
  have hpos : (0 : ℚ) < 2 ^ e := by positivity
  have hdown := mul_le_mul_of_nonneg_right (reachDown_le n e) hpos.le
  have hlow := hy.low
  have hhigh := hx.high
  rcases Nat.lt_or_ge (m + 1) n with hgap | hnext
  · have hgap' : (m : ℚ) + 2 ≤ n := by exact_mod_cast hgap
    have hscaled := mul_le_mul_of_nonneg_right hgap' hpos.le
    linarith
  · obtain rfl : n = m + 1 := by omega
    push_cast at hlow
    rcases Nat.mod_two_eq_zero_or_one m with heven | hodd
    · have hstrict := (hy.strict (by omega)).1
      push_cast at hstrict
      linarith
    · linarith [(hx.strict hodd).2]

theorem RoundsTo.lt_of_exponent_lt (hx : RoundsTo m e x) (hy : RoundsTo n f y) (hm : m < 2 ^ 53)
    (hn : 2 ^ 52 ≤ n) (he : -1074 ≤ e) (h : e < f) : x < y := by
  have hpos : (0 : ℚ) < 2 ^ e := by positivity
  -- The interval of the upper float begins no lower than that of the least one of its exponent.
  have hbegin : (2 ^ 54 - 1) * (2 : ℚ) ^ f ≤ 4 * y := by
    refine le_trans ?_ hy.low
    refine mul_le_mul_of_nonneg_right ?_ (by positivity)
    rcases hn.eq_or_lt with rfl | hlt
    · have hdown : reachDown (2 ^ 52) f = 1 := if_pos ⟨rfl, by omega⟩
      rw [hdown]
      norm_num
    · have hdown := reachDown_le n f
      have hlt' : (2 : ℚ) ^ 52 + 1 ≤ n := by exact_mod_cast hlt
      linarith
  have hdouble : (2 : ℚ) ^ e * 2 ≤ 2 ^ f := by
    rw [← zpow_add_one₀ (by norm_num)]
    gcongr
    · norm_num
    · omega
  rcases Nat.lt_or_ge (m + 1) (2 ^ 53) with hgap | hlast
  · have hgap' : (m : ℚ) + 2 ≤ 2 ^ 53 := by exact_mod_cast hgap
    have hscaled := mul_le_mul_of_nonneg_right hgap' hpos.le
    linarith [hx.high]
  · obtain rfl : m = 2 ^ 53 - 1 := by omega
    have hstrict := (hx.strict (by norm_num)).2
    norm_num at hstrict
    linarith

/-- The fractions that round to the lesser of two floats are less. -/
theorem RoundsTo.lt (hm : Canonical m e) (hn : Canonical n f) (hx : RoundsTo m e x)
    (hy : RoundsTo n f y) (h : toLex (e, m) < toLex (f, n)) : x < y := by
  rcases Prod.Lex.toLex_lt_toLex.mp h with hexponent | ⟨rfl, hsignificand⟩
  · have hleast := hm.least
    exact hx.lt_of_exponent_lt hy hm.lt (hn.full (by omega)) hleast hexponent
  · exact hx.lt_of_significand_lt hy hsignificand

end LineShell.Number
