import LineShell.Proofs.Number.Canonical
import Mathlib

/-!
# The float that a decimal is read as

A decimal that rounds to a float is read as this float, whether it is a whole number
(`unpack_ofNat_of_roundsTo`) or has a point (`unpack_ofScientific`). A decimal of few digits is read
by one division of two floats that are exact, any other one in exact arithmetic; the result is the
same, because a division is rounded once (`div_of_roundsTo`).
-/

namespace LineShell.Number

open Float.Model UnpackedFloat

/-! ## Exact floats -/

/-- The powers of ten that are floats. -/
theorem unpack_powerOfTen {k : Nat} (hk : k < 23) :
    ∃ p f, ∃ hp : 0 < p, (Float.exactlyRepresentablePowersOfTen[k]).toModel.unpack =
      .finite .positive p f hp ∧ (p : ℚ) * 2 ^ f = 10 ^ k := by
  have htable : ∀ k : Fin 23, ∃ p f, ∃ hp : 0 < p,
      (Float.exactlyRepresentablePowersOfTen[k]).toModel.unpack = .finite .positive p f hp ∧
        -52 ≤ f ∧ p * 2 ^ (f + 52).toNat = 10 ^ (k : Nat) * 2 ^ 52 := by
    intro k
    fin_cases k <;> exact ⟨_, _, _, rfl, by decide, by decide⟩
  obtain ⟨p, f, hp, hunpack, hf, hscaled⟩ := htable ⟨k, hk⟩
  refine ⟨p, f, hp, hunpack, ?_⟩
  have hpower : (2 : ℚ) ^ f * 2 ^ 52 = 2 ^ (f + 52).toNat := by
    rw [← zpow_natCast, ← zpow_natCast, ← zpow_add₀ (by norm_num), Int.toNat_of_nonneg (by omega)]
    rfl
  have hscaled' : (p : ℚ) * 2 ^ (f + 52).toNat = 10 ^ k * 2 ^ 52 := by exact_mod_cast hscaled
  rw [← hpower, ← mul_assoc] at hscaled'
  exact mul_right_cancel₀ (by norm_num) hscaled'

variable {m n k : Nat} {e : Int}

/-- The float of a number of at most 53 bits is the number. -/
theorem unpack_toFloat_finite (hn : n ≠ 0) (hn' : n < 2 ^ 53) :
    ∃ p f, ∃ hp : 0 < p, n.toUInt64.toFloat.toModel.unpack = .finite .positive p f hp ∧
      (p : ℚ) * 2 ^ f = n := by
  have hlog := log2_le hn hn'
  have hbits := (Nat.log2_eq_iff (by positivity)).mp (log2_leading hn hlog)
  have hp : 0 < n * 2 ^ (52 - n.log2) := by positivity
  refine ⟨n * 2 ^ (52 - n.log2), n.log2 - 52, hp, ?_, ?_⟩
  · rw [unpack_toFloat hn hn']
    exact dif_pos ⟨hp, hbits.2⟩
  · push_cast
    rw [mul_assoc, ← zpow_natCast, ← zpow_add₀ (by norm_num), Nat.cast_sub hlog]
    norm_num

/-! ## Decimals -/

theorem ne_zero_of_roundsTo {b : ℚ} (h : RoundsTo m e (n / b)) (hm : 0 < m) : n ≠ 0 := by
  rintro rfl
  have hpos := h.pos hm
  rw [Nat.cast_zero, zero_div] at hpos
  exact absurd hpos (lt_irrefl _)

/-- A whole number is read as the float it rounds to. -/
theorem unpack_ofNat_of_roundsTo (h : RoundsTo m e n) (hc : Canonical m e) (he : -1074 < e)
    (hn : n < 2 ^ 64) : (Float.ofNat n).toModel.unpack = .finite .positive m e hc.pos := by
  have hn' : n ≠ 0 := ne_zero_of_roundsTo (b := 1) (by rwa [div_one]) hc.pos
  have hround := round_of_roundsTo .positive h hc he hn'
  have hlog := log2_mul_two_pow hn' 53
  have hexponent : (-53 : Int) + ((n * 2 ^ 53).log2 - 52 : Nat) = n.log2 - 52 := by omega
  rw [roundWithAccuracy_eq .positive (by omega) (by decide), hexponent] at hround
  rw [unpack_ofNat hn' hn, hround]

theorem div_pow_ten_lt (hn : n ≠ 0) (k : Nat) : (n : ℚ) / 10 ^ k < 2 ^ (n.log2 + 1 - k : Int) := by
  have hpower : (2 : ℚ) ^ k ≤ 10 ^ k := by gcongr; norm_num
  rw [div_lt_iff₀ (by positivity)]
  calc (n : ℚ) < 2 ^ (n.log2 + 1 : Int) := (log2_bounds hn).2
    _ = 2 ^ (n.log2 + 1 - k : Int) * 2 ^ k := by
        rw [← zpow_natCast, ← zpow_add₀ (by norm_num), Int.sub_add_cancel]
    _ ≤ 2 ^ (n.log2 + 1 - k : Int) * 10 ^ k := by gcongr

/-- A decimal that rounds to a float has not too many places to be read. -/
theorem places_lt (h : RoundsTo m e (n / 10 ^ k)) (hc : Canonical m e) (he : -1074 < e) :
    k < 2048 + n.log2 := by
  obtain ⟨q, p, hp, hlow, -⟩ := h.exists_normal hc he
  have hlt : (2 : ℚ) ^ (52 + p) < 2 ^ (n.log2 + 1 - k : Int) := by
    rw [zpow_add₀ (by norm_num)]
    exact lt_of_le_of_lt hlow (div_pow_ten_lt (ne_zero_of_roundsTo h hc.pos) k)
  have hexponents := (zpow_lt_zpow_iff_right₀ (by norm_num)).mp hlt
  omega

/-- A decimal that is read in exact arithmetic. -/
theorem ofScientific_of_roundsTo (h : RoundsTo m e (n / 10 ^ k)) (hc : Canonical m e)
    (he : -1074 < e) :
    UnpackedFloat.ofScientific Format.binary64 n (Int.negOfNat k) =
      .finite .positive m e hc.pos := by
  have hn := ne_zero_of_roundsTo h hc.pos
  cases k with
  | zero =>
      rw [pow_zero, div_one] at h
      show UnpackedFloat.ofScientific Format.binary64 n 0 = _
      rw [ofScientific_eq hn, round_of_roundsTo .positive h hc he hn]
  | succ k =>
      have hplaces : ¬ Int.negSucc k < -(2 ^ Format.binary64.exponentBits + n.log2) := by
        have hlt := places_lt h hc he
        show ¬ Int.negSucc k < -(2048 + n.log2)
        omega
      have hfew : ¬ Int.negSucc k > 2 ^ Format.binary64.exponentBits := by
        show ¬ Int.negSucc k > 2048
        omega
      show UnpackedFloat.ofScientific Format.binary64 n (Int.negSucc k) = _
      unfold UnpackedFloat.ofScientific
      rw [dif_neg hn, if_neg hfew, if_neg hplaces, if_neg (by omega)]
      refine div_of_roundsTo (Nat.pos_of_ne_zero hn) (by positivity) ?_ hc he
      convert h using 1
      simp

/-- A decimal is read as the float it rounds to. -/
theorem unpack_ofScientific (h : RoundsTo m e (n / 10 ^ k)) (hc : Canonical m e) (he : -1074 < e) :
    (Float.ofScientific n true k).toModel.unpack = .finite .positive m e hc.pos := by
  have hn := ne_zero_of_roundsTo h hc.pos
  by_cases hsmall : n < 2 ^ 53 ∧ k ≤ 22
  · have hk : k < 23 := by omega
    obtain ⟨p, f, hp, hwhole, hp'⟩ := unpack_toFloat_finite hn hsmall.1
    obtain ⟨q, g, hq, hpower, hq'⟩ := unpack_powerOfTen hk
    have hfloat : Float.ofScientific n true k =
        n.toUInt64.toFloat / Float.exactlyRepresentablePowersOfTen[k] := by
      unfold Float.ofScientific
      exact dif_pos hsmall
    rw [hfloat]
    show UnpackedFloat.unpack Format.binary64 (UnpackedFloat.pack Format.binary64
      (UnpackedFloat.div Format.binary64 n.toUInt64.toFloat.toModel.unpack
        (Float.exactlyRepresentablePowersOfTen[k]).toModel.unpack)) = _
    rw [hwhole, hpower, div_of_roundsTo hp hq (by rwa [hp', hq']) hc he,
      hc.unpack_pack]
  · have hfloat : Float.ofScientific n true k = ⟨Float.Model.ofScientific n (Int.negOfNat k)⟩ := by
      unfold Float.ofScientific
      exact dif_neg hsmall
    rw [hfloat]
    show UnpackedFloat.unpack Format.binary64 (UnpackedFloat.pack Format.binary64
      (UnpackedFloat.ofScientific Format.binary64 n (Int.negOfNat k))) = _
    rw [ofScientific_of_roundsTo h hc he, hc.unpack_pack]

end LineShell.Number
