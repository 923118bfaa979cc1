import LineShell.Proofs.Number.Rank
import Mathlib

/-!
# Rounding whole numbers to floats

The float nearest to a whole number never decreases where the number grows (`rank_toFloat_mono`).

A whole number of 64 bits has its leading bit at some place, and its float keeps 53 bits from there
on, rounded to nearest, ties to even (`unpack_ofNat`). Whichever way the conversion takes, by an
exact product or by a product that is rounded, this is what comes out. Of two numbers with one
leading place the greater keeps the greater significand, because shifting (`halve_mono`) and
rounding (`nearest_mono`) keep the order; of two numbers with different leading places the exponents
decide, even where rounding carries into the next place.
-/

namespace LineShell.Number

open Float.Model UnpackedFloat

/-! ## Shifting and rounding a significand -/

/-- A significand with the bits behind it in quarters of its last place. What lies between two
quarters counts as the odd one between them. -/
def quarters (em : ExtendedMantissa) : Nat :=
  4 * em.mantissa + 2 * em.roundBit.toNat + em.stickyBit.toNat

/-- A shift by one place, in quarters. -/
def halve (q : Nat) : Nat := 2 * (q / 4) + (q % 4 + 3) / 4

/-- The whole number nearest to so many quarters, the even one if they lie in the middle. -/
def nearest (q : Nat) : Nat :=
  if q % 4 < 2 then q / 4 else if q % 4 = 2 then q / 4 + q / 4 % 2 else q / 4 + 1

theorem halve_mono {p q : Nat} (h : p ≤ q) : halve p ≤ halve q := by
  unfold halve
  omega

theorem nearest_mono {p q : Nat} (h : p ≤ q) : nearest p ≤ nearest q := by
  unfold nearest
  split_ifs <;> omega

theorem shiftRightOne_mk (m : Nat) (r s : Bool) :
    ExtendedMantissa.shiftRightOne ⟨m, r, s⟩ = ⟨m / 2, m % 2 != 0, r || s⟩ := rfl

theorem quarters_shiftRightOne (em : ExtendedMantissa) :
    quarters em.shiftRightOne = halve (quarters em) := by
  obtain ⟨m, r, s⟩ := em
  rw [shiftRightOne_mk]
  rcases Nat.mod_two_eq_zero_or_one m with h | h <;> cases r <;> cases s <;>
    simp [quarters, halve, h] <;> omega

theorem quarters_div_mod (em : ExtendedMantissa) :
    quarters em / 4 = em.mantissa ∧
      quarters em % 4 = 2 * em.roundBit.toNat + em.stickyBit.toNat := by
  have hround := em.roundBit.toNat_le
  have hsticky := em.stickyBit.toNat_le
  unfold quarters
  omega

theorem roundedMantissa_eq (em : ExtendedMantissa) :
    em.roundedMantissa = nearest (quarters em) := by
  obtain ⟨hdiv, hmod⟩ := quarters_div_mod em
  rw [nearest, hdiv, hmod]
  obtain ⟨m, r, s⟩ := em
  cases r <;> cases s <;> rfl

theorem roundedMantissa_bounds (em : ExtendedMantissa) :
    em.mantissa ≤ em.roundedMantissa ∧ em.roundedMantissa ≤ em.mantissa + 1 := by
  rw [roundedMantissa_eq, ← (quarters_div_mod em).1]
  unfold nearest
  split_ifs <;> omega

theorem shiftRight_zero (em : ExtendedMantissa) : em >>> (0 : Nat) = em := rfl

theorem shiftRight_succ (em : ExtendedMantissa) (k : Nat) :
    em >>> (k + 1) = (em >>> k).shiftRightOne := rfl

theorem quarters_shiftRight_mono {em en : ExtendedMantissa} (h : quarters em ≤ quarters en)
    (k : Nat) : quarters (em >>> k) ≤ quarters (en >>> k) := by
  induction k with
  | zero => exact h
  | succ k ih =>
      rw [shiftRight_succ, shiftRight_succ, quarters_shiftRightOne, quarters_shiftRightOne]
      exact halve_mono ih

theorem mantissa_shiftRight (em : ExtendedMantissa) (k : Nat) :
    (em >>> k).mantissa = em.mantissa / 2 ^ k := by
  induction k with
  | zero => rw [shiftRight_zero, pow_zero, Nat.div_one]
  | succ k ih =>
      rw [shiftRight_succ, pow_succ, ← Nat.div_div_eq_div_mul, ← ih]
      rfl

/-- Zeros are shifted out without a trace. -/
theorem shiftRight_exact (m k : Nat) :
    (⟨m * 2 ^ k, false, false⟩ : ExtendedMantissa) >>> k = ⟨m, false, false⟩ := by
  induction k generalizing m with
  | zero => rw [shiftRight_zero, pow_zero, mul_one]
  | succ k ih =>
      have hm : m * 2 ^ (k + 1) = m * 2 * 2 ^ k := by ring
      rw [shiftRight_succ, hm, ih, shiftRightOne_mk]
      simp

/-! ## The significand of a number -/

variable {m n : Nat}

theorem ne_zero_of_log2_pos (h : 0 < m.log2) : m ≠ 0 := by
  rintro rfl
  simp at h

theorem log2_le (hn : n ≠ 0) (hn' : n < 2 ^ 53) : n.log2 ≤ 52 :=
  Nat.lt_succ_iff.mp ((Nat.log2_lt hn).mpr hn')

theorem log2_mul_two_pow (hn : n ≠ 0) (k : Nat) : (n * 2 ^ k).log2 = n.log2 + k := by
  induction k with
  | zero => simp
  | succ k ih =>
      have hmul : n * 2 ^ (k + 1) = 2 * (n * 2 ^ k) := by ring
      rw [hmul, Nat.log2_two_mul (by positivity), ih, Nat.add_assoc]

/-- The first 53 bits of `m`, rounded to nearest. -/
def significand (m : Nat) : Nat :=
  ((⟨m, false, false⟩ : ExtendedMantissa) >>> (m.log2 - 52)).roundedMantissa

/-- The first 53 bits of a number that is `m` up to what the accuracy says of the bits behind it. -/
def significandWith (m : Nat) (acc : Accuracy) : Nat :=
  (ExtendedMantissa.ofMantissaAndAccuracy m acc >>> (m.log2 - 52)).roundedMantissa

theorem significand_mono (h : m ≤ n) (hlog : m.log2 = n.log2) : significand m ≤ significand n := by
  unfold significand
  rw [roundedMantissa_eq, roundedMantissa_eq, hlog]
  refine nearest_mono (quarters_shiftRight_mono ?_ _)
  simpa [quarters] using h

theorem leading_bounds (hm : 52 ≤ m.log2) :
    2 ^ 52 ≤ m / 2 ^ (m.log2 - 52) ∧ m / 2 ^ (m.log2 - 52) < 2 ^ 53 := by
  have hne : m ≠ 0 := ne_zero_of_log2_pos (by omega)
  have hlow := Nat.log2_self_le hne
  have hhigh := Nat.lt_log2_self (n := m)
  have hpos : 0 < 2 ^ (m.log2 - 52) := Nat.two_pow_pos _
  constructor
  · rw [Nat.le_div_iff_mul_le hpos, ← pow_add]
    convert hlow using 2
    omega
  · rw [Nat.div_lt_iff_lt_mul hpos, ← pow_add]
    convert hhigh using 2
    omega

theorem mantissa_ofMantissaAndAccuracy (m : Nat) (acc : Accuracy) :
    (ExtendedMantissa.ofMantissaAndAccuracy m acc).mantissa = m := by
  rcases acc with _ | _ | _ | _ <;> rfl

theorem significandWith_bounds (hm : 52 ≤ m.log2) (acc : Accuracy) :
    2 ^ 52 ≤ significandWith m acc ∧ significandWith m acc ≤ 2 ^ 53 := by
  obtain ⟨hlow, hhigh⟩ := leading_bounds hm
  have hround := roundedMantissa_bounds
    (ExtendedMantissa.ofMantissaAndAccuracy m acc >>> (m.log2 - 52))
  rw [mantissa_shiftRight, mantissa_ofMantissaAndAccuracy] at hround
  unfold significandWith
  omega

theorem significand_bounds (hm : 52 ≤ m.log2) :
    2 ^ 52 ≤ significand m ∧ significand m ≤ 2 ^ 53 :=
  significandWith_bounds hm .exact

theorem significand_exact {q : Nat} (hlog : q.log2 = 52) (k : Nat) :
    significand (q * 2 ^ k) = q := by
  have hne : q ≠ 0 := ne_zero_of_log2_pos (by omega)
  unfold significand
  rw [log2_mul_two_pow hne, hlog, Nat.add_sub_cancel_left, shiftRight_exact]
  rfl

/-! ## Rounding a number to a float -/

/-- The float with the significand `q` over the exponent `e`. A significand of 54 bits, the least of
them, is carried into the next exponent. -/
def normal (s : Sign) (q : Nat) (e : Int) : UnpackedFloat :=
  if h : 0 < q ∧ q < 2 ^ 53 then .finite s q e h.1 else .finite s (2 ^ 52) (e + 1) (by decide)

theorem neg_normal (q : Nat) (e : Int) : (normal .positive q e).neg = normal .negative q e := by
  unfold normal
  split <;> rfl

theorem targetExponent_eq (m : Nat) (e : Int) :
    Format.binary64.targetExponent (totalExponent m e) = max (m.log2 + e - 52) (-1074) := by
  show max ((m.log2 : Int) + 1 + e - 53) (-1074) = _
  congr 1
  omega

theorem shiftToTargetExponent_eq {k : Nat} {e : Int} (acc : Accuracy)
    (hk : (max (m.log2 + e - 52) (-1074) - e).toNat = k) :
    shiftToTargetExponent Format.binary64 m e acc =
      (ExtendedMantissa.ofMantissaAndAccuracy m acc >>> k, e + k) := by
  rw [← hk, ← targetExponent_eq]
  rfl

theorem roundWithAccuracy_of_shift (s : Sign) {e e' e'' : Int} {em em' : ExtendedMantissa}
    {acc : Accuracy} (h : shiftToTargetExponent Format.binary64 m e acc = (em, e'))
    (h' : shiftToTargetExponent Format.binary64 em.roundedMantissa e' .exact = (em', e''))
    (hpos : 0 < em'.mantissa) :
    roundWithAccuracy Format.binary64 s m e acc = .finite s em'.mantissa e'' hpos := by
  unfold roundWithAccuracy
  rw [h]
  dsimp only
  rw [h']
  exact dif_neg hpos.ne'

theorem roundWithAccuracy_eq_normal (s : Sign) {e : Int} (acc : Accuracy) (hm : 52 ≤ m.log2)
    (he : -1074 ≤ e + (m.log2 - 52 : Nat)) :
    roundWithAccuracy Format.binary64 s m e acc =
      normal s (significandWith m acc) (e + (m.log2 - 52 : Nat)) := by
  obtain ⟨hlow, hhigh⟩ := significandWith_bounds hm acc
  have hshift := shiftToTargetExponent_eq (m := m) (e := e) (k := m.log2 - 52) acc (by omega)
  rcases Nat.lt_or_ge (significandWith m acc) (2 ^ 53) with hq | hq
  · have hlog : (significandWith m acc).log2 = 52 := (Nat.log2_eq_iff (by omega)).mpr ⟨hlow, hq⟩
    have hkept := shiftToTargetExponent_eq (m := significandWith m acc)
      (e := e + (m.log2 - 52 : Nat)) (k := 0) .exact (by omega)
    have hpos : 0 < significandWith m acc := by omega
    rw [normal, dif_pos ⟨hpos, hq⟩, roundWithAccuracy_of_shift s hshift hkept hpos]
    simp [shiftRight_zero, mantissa_ofMantissaAndAccuracy]
  · have hcarried : significandWith m acc = 2 ^ 53 := by omega
    have hlog : (significandWith m acc).log2 = 53 := by rw [hcarried, Nat.log2_two_pow]
    have hcarry : shiftToTargetExponent Format.binary64 (significandWith m acc)
        (e + (m.log2 - 52 : Nat)) .exact =
          (⟨2 ^ 52, false, false⟩, e + (m.log2 - 52 : Nat) + 1) := by
      rw [shiftToTargetExponent_eq (k := 1) .exact (by omega), hcarried]
      rfl
    rw [normal, dif_neg (by omega)]
    exact roundWithAccuracy_of_shift s hshift hcarry (by decide)

theorem roundWithAccuracy_eq (s : Sign) {e : Int} (hm : 52 ≤ m.log2) (he : -1074 ≤ e) :
    roundWithAccuracy Format.binary64 s m e .exact =
      normal s (significand m) (e + (m.log2 - 52 : Nat)) :=
  roundWithAccuracy_eq_normal s .exact hm (by omega)

/-! ## Packing -/

theorem pack_finite (s : Sign) {q : Nat} {e : Int} (hlog : q.log2 = 52) (he : e ≤ 971)
    (hq : 0 < q) :
    UnpackedFloat.pack Format.binary64 (.finite s q e hq) =
      packComponents Format.binary64 s (BitVec.ofNat 11 (e + 1075).toNat) (BitVec.ofNat 52 q) := by
  have hbiased : (e + 1023 + 52).toNat = (e + 1075).toNat := by omega
  show (if 2048 ≤ (e + 1023 + 52).toNat + 1 then _ else if q.log2 + 1 = 53 then
    packComponents Format.binary64 s (BitVec.ofNat 11 (e + 1023 + 52).toNat) (BitVec.ofNat 52 q)
    else _) = _
  rw [if_neg (by omega), if_pos (by omega), hbiased]

theorem unpack_packComponents (s : Sign) {b : BitVec 11} (f : BitVec 52)
    (hb : 0 < b.toNat) (hb' : b.toNat < 2047) (hq : 0 < (1#1 ++ f).toNat) :
    UnpackedFloat.unpack Format.binary64 (packComponents Format.binary64 s b f) =
      .finite s (1#1 ++ f).toNat (b.toNat - 1075) hq := by
  have hnonzero : b ≠ 0#11 := by
    rintro rfl
    simp at hb
  have hfinite : b ≠ -1#11 := by
    rintro rfl
    exact absurd hb' (by decide)
  unfold UnpackedFloat.unpack
  simp only [unpackMantissa_packComponents, unpackExponent_packComponents,
    unpackSign_packComponents, Sign.ofBitVec_toBitVec]
  rw [if_neg hfinite, if_neg hnonzero]
  rfl

theorem toNat_append_one (b : BitVec 52) : (1#1 ++ b).toNat = 2 ^ 52 + b.toNat := by
  rw [BitVec.toNat_append, ← Nat.shiftLeft_add_eq_or_of_lt b.isLt]
  rfl

theorem unpack_pack_finite (s : Sign) {q : Nat} {e : Int} (hlow : 2 ^ 52 ≤ q) (hhigh : q < 2 ^ 53)
    (he : -1074 ≤ e) (he' : e ≤ 971) (hq : 0 < q) :
    UnpackedFloat.unpack Format.binary64 (UnpackedFloat.pack Format.binary64 (.finite s q e hq)) =
      .finite s q e hq := by
  have hlog : q.log2 = 52 := (Nat.log2_eq_iff (by omega)).mpr ⟨hlow, hhigh⟩
  have hexponent : (BitVec.ofNat 11 (e + 1075).toNat).toNat = (e + 1075).toNat := by
    rw [BitVec.toNat_ofNat, Nat.mod_eq_of_lt (by omega)]
  have hfraction : (1#1 ++ BitVec.ofNat 52 q).toNat = q := by
    rw [toNat_append_one, BitVec.toNat_ofNat]
    omega
  rw [pack_finite s hlog he', unpack_packComponents s _ (by omega) (by omega) (by omega)]
  congr 1
  omega

theorem unpack_pack_normal (s : Sign) {q : Nat} {e : Int} (hlow : 2 ^ 52 ≤ q)
    (he : -1074 ≤ e) (he' : e ≤ 970) :
    UnpackedFloat.unpack Format.binary64 (UnpackedFloat.pack Format.binary64 (normal s q e)) =
      normal s q e := by
  unfold normal
  split_ifs with h
  · exact unpack_pack_finite s hlow h.2 he (by omega) _
  · exact unpack_pack_finite s (le_refl _) (by decide) (by omega) (by omega) _

theorem unpack_pack_roundWithAccuracy (s : Sign) {e : Int} (hm : 52 ≤ m.log2) (he : -1074 ≤ e)
    (he' : e + m.log2 ≤ 1022) :
    UnpackedFloat.unpack Format.binary64 (UnpackedFloat.pack Format.binary64
      (roundWithAccuracy Format.binary64 s m e .exact)) =
      normal s (significand m) (e + m.log2 - 52) := by
  have hexponent : e + (m.log2 - 52 : Nat) = e + m.log2 - 52 := by omega
  rw [roundWithAccuracy_eq s hm he, hexponent,
    unpack_pack_normal s (significand_bounds hm).1 (by omega) (by omega)]

/-! ## The float of a whole number -/

theorem ofScientific_eq (hn : n ≠ 0) :
    UnpackedFloat.ofScientific Format.binary64 n 0 =
      roundWithAccuracy Format.binary64 .positive (n * 2 ^ 53) (-53) .exact := by
  have hbig : ¬ (0 : Int) < -(2 ^ Format.binary64.exponentBits + n.log2) := by
    show ¬ (0 : Int) < -(2048 + n.log2)
    omega
  unfold UnpackedFloat.ofScientific
  rw [dif_neg hn, if_neg (by decide), if_neg hbig, if_pos (le_refl _)]
  show roundWithAccuracy Format.binary64 .positive (n <<< 53 * 1) (-53) .exact = _
  rw [Nat.shiftLeft_eq, Nat.mul_one]

theorem normalize_eq (hn : n ≠ 0) (hlog : n.log2 ≤ 52) :
    UnpackedFloat.normalize Format.binary64 n 0 .positive =
      roundWithAccuracy Format.binary64 .positive (n * 2 ^ (52 - n.log2)) (n.log2 - 52) .exact := by
  have hpos : compare (n : Int) 0 = .gt := compare_gt_iff_gt.mpr (by omega)
  have htarget : Format.binary64.targetExponent (totalExponent n 0) = n.log2 - 52 := by
    rw [targetExponent_eq]
    omega
  have hamount : (0 - (n.log2 - 52 : Int)).toNat = 52 - n.log2 := by omega
  have hexponent : (0 : Int) - (52 - n.log2 : Nat) = n.log2 - 52 := by omega
  unfold UnpackedFloat.normalize
  rw [hpos]
  show roundWithAccuracy Format.binary64 .positive
    (n <<< (0 - Format.binary64.targetExponent (totalExponent n 0)).toNat)
    (0 - ((0 - Format.binary64.targetExponent (totalExponent n 0)).toNat : Int)) .exact = _
  rw [htarget, hamount, hexponent, Nat.shiftLeft_eq]

/-- From 54 bits on the float is the rounded product of the number and one. -/
theorem unpack_ofNat_of_ge (hn : 2 ^ 53 ≤ n) (hn' : n < 2 ^ 64) :
    (Float.ofNat n).toModel.unpack = normal .positive (significand (n * 2 ^ 53)) (n.log2 - 52) := by
  have hlow : 53 ≤ n.log2 := (Nat.le_log2 (by omega)).mpr hn
  have hhigh : n.log2 < 64 := (Nat.log2_lt (by omega)).mpr hn'
  have hlog : (n * 2 ^ 53).log2 = n.log2 + 53 := log2_mul_two_pow (by omega) 53
  have hexponent : (-53 : Int) + (n * 2 ^ 53).log2 - 52 = n.log2 - 52 := by omega
  have hfloat : Float.ofNat n = ⟨Float.Model.ofScientific n 0⟩ := by
    show Float.ofScientific n false 0 = _
    unfold Float.ofScientific
    exact dif_neg (by omega)
  rw [hfloat]
  show UnpackedFloat.unpack Format.binary64 (UnpackedFloat.pack Format.binary64
    (UnpackedFloat.ofScientific Format.binary64 n 0)) = _
  rw [ofScientific_eq (by omega), unpack_pack_roundWithAccuracy _ (by omega) (by omega) (by omega),
    hexponent]

/-- All the bits of a number of at most 53 bits are kept. -/
theorem log2_leading (hn : n ≠ 0) (hlog : n.log2 ≤ 52) : (n * 2 ^ (52 - n.log2)).log2 = 52 := by
  rw [log2_mul_two_pow hn]
  omega

theorem significand_leading (hn : n ≠ 0) (hlog : n.log2 ≤ 52) :
    significand (n * 2 ^ 53) = n * 2 ^ (52 - n.log2) := by
  have hscaled : n * 2 ^ 53 = n * 2 ^ (52 - n.log2) * 2 ^ (n.log2 + 1) := by
    rw [Nat.mul_assoc, ← pow_add]
    congr 2
    omega
  rw [hscaled, significand_exact (log2_leading hn hlog)]

theorem unpack_toFloat (hn : n ≠ 0) (hn' : n < 2 ^ 53) :
    n.toUInt64.toFloat.toModel.unpack =
      normal .positive (n * 2 ^ (52 - n.log2)) (n.log2 - 52) := by
  have hlog : n.log2 ≤ 52 := log2_le hn hn'
  have hleading := log2_leading hn hlog
  have hexact := significand_exact hleading 0
  have hnat : n.toUInt64.toNat = n := Nat.mod_eq_of_lt (by omega)
  show UnpackedFloat.unpack Format.binary64 (UnpackedFloat.pack Format.binary64
    (UnpackedFloat.normalize Format.binary64 n.toUInt64.toNat 0 .positive)) = _
  rw [pow_zero, Nat.mul_one] at hexact
  rw [hnat, normalize_eq hn hlog, unpack_pack_roundWithAccuracy _ (by omega) (by omega) (by omega),
    hexact, hleading]
  congr 1
  omega

/-- The product of a float and one is the float. -/
theorem unpack_pack_mul_one {q : Nat} (hlog : q.log2 = 52) {e : Int} (he : -970 ≤ e)
    (he' : e ≤ 970) (hone : 0 < 2 ^ 52) :
    UnpackedFloat.unpack Format.binary64 (UnpackedFloat.pack Format.binary64
      (UnpackedFloat.mul Format.binary64 (normal .positive q e)
        (.finite .positive (2 ^ 52) (-52) hone))) = normal .positive q e := by
  have hne : q ≠ 0 := ne_zero_of_log2_pos (by omega)
  have hq := (Nat.log2_eq_iff hne).mp hlog
  have hproduct := log2_mul_two_pow hne 52
  have hfinite : normal .positive q e = .finite .positive q e (by omega) :=
    dif_pos ⟨by omega, hq.2⟩
  have hexponent : e + -52 + (q * 2 ^ 52).log2 - 52 = e := by omega
  conv_lhs => rw [hfinite]
  show UnpackedFloat.unpack Format.binary64 (UnpackedFloat.pack Format.binary64
    (roundWithAccuracy Format.binary64 .positive (q * 2 ^ 52) (e + -52) .exact)) = _
  rw [unpack_pack_roundWithAccuracy _ (by omega) (by omega) (by omega), significand_exact hlog,
    hexponent]

/-- Up to 53 bits the float is the product of the number and one, and the product is exact. -/
theorem unpack_ofNat_of_lt (hn : n ≠ 0) (hn' : n < 2 ^ 53) :
    (Float.ofNat n).toModel.unpack = normal .positive (significand (n * 2 ^ 53)) (n.log2 - 52) := by
  have hlog : n.log2 ≤ 52 := log2_le hn hn'
  have hfloat : Float.ofNat n = n.toUInt64.toFloat * Float.exactlyRepresentablePowersOfTen[0] := by
    show Float.ofScientific n false 0 = _
    unfold Float.ofScientific
    exact dif_pos ⟨hn', by decide⟩
  have hone : (Float.exactlyRepresentablePowersOfTen[0]).toModel.unpack =
      .finite .positive (2 ^ 52) (-52) (by decide) := by rfl
  rw [hfloat]
  show UnpackedFloat.unpack Format.binary64 (UnpackedFloat.pack Format.binary64
    (UnpackedFloat.mul Format.binary64 n.toUInt64.toFloat.toModel.unpack
      (Float.exactlyRepresentablePowersOfTen[0]).toModel.unpack)) = _
  rw [unpack_toFloat hn hn', hone, significand_leading hn hlog,
    unpack_pack_mul_one (log2_leading hn hlog) (by omega) (by omega)]

theorem unpack_ofNat (hn : n ≠ 0) (hn' : n < 2 ^ 64) :
    (Float.ofNat n).toModel.unpack = normal .positive (significand (n * 2 ^ 53)) (n.log2 - 52) := by
  rcases Nat.lt_or_ge n (2 ^ 53) with h | h
  · exact unpack_ofNat_of_lt hn h
  · exact unpack_ofNat_of_ge h hn'

theorem unpack_neg_ofNat (hn : n ≠ 0) (hn' : n < 2 ^ 64) :
    (Float.ofNat n).neg.toModel.unpack =
      normal .negative (significand (n * 2 ^ 53)) (n.log2 - 52) := by
  have hlog := log2_mul_two_pow hn 53
  have hhigh : n.log2 < 64 := (Nat.log2_lt hn).mpr hn'
  show UnpackedFloat.unpack Format.binary64 (UnpackedFloat.pack Format.binary64
    (Float.ofNat n).toModel.unpack.neg) = _
  rw [unpack_ofNat hn hn', neg_normal,
    unpack_pack_normal _ (significand_bounds (by omega)).1 (by omega) (by omega)]

/-! ## The order of the floats of whole numbers -/

theorem isNaN_normal (s : Sign) (q : Nat) (e : Int) : (normal s q e).isNaN = false := by
  unfold normal
  split <;> rfl

theorem rankOf_normal_mono {p q : Nat} (hp : 2 ^ 52 ≤ p) (hpq : p ≤ q) (hq : q ≤ 2 ^ 53)
    (e : Int) : rankOf (normal .positive p e) ≤ rankOf (normal .positive q e) := by
  unfold normal
  split_ifs <;> simp [rankOf, Prod.Lex.toLex_le_toLex] <;> omega

theorem rankOf_normal_le_of_lt (p : Nat) {q : Nat} (hq : 2 ^ 52 ≤ q) {e f : Int} (hef : e < f) :
    rankOf (normal .positive p e) ≤ rankOf (normal .positive q f) := by
  unfold normal
  split_ifs <;> simp [rankOf, Prod.Lex.toLex_le_toLex] <;> omega

theorem rankOf_normal_strictMono {p q : Nat} (hp : 2 ^ 52 ≤ p) (hpq : p < q) (hq : q ≤ 2 ^ 53)
    (e : Int) : rankOf (normal .positive p e) < rankOf (normal .positive q e) := by
  unfold normal
  split_ifs <;> simp [rankOf, Prod.Lex.toLex_lt_toLex] <;> omega

theorem rankOf_normal_lt_of_lt {p : Nat} (hp : 0 < p) (hp' : p < 2 ^ 53) (q : Nat) {e f : Int}
    (hef : e < f) : rankOf (normal .positive p e) < rankOf (normal .positive q f) := by
  unfold normal
  split_ifs <;> simp [rankOf, Prod.Lex.toLex_lt_toLex] <;> omega

theorem rankOf_normal_pos (q : Nat) (e : Int) : 0 < rankOf (normal .positive q e) := by
  show toLex ((0 : ℤ), toLex ((0 : ℤ), (0 : ℤ))) < _
  unfold normal
  split <;> simp [rankOf, Prod.Lex.toLex_lt_toLex]

theorem rank_ofNat_pos (hn : n ≠ 0) (hn' : n < 2 ^ 64) : 0 < rank (Float.ofNat n) := by
  rw [rank, unpack_ofNat hn hn']
  exact rankOf_normal_pos _ _

theorem rank_ofNat_zero : rank (Float.ofNat 0) = 0 := rfl

theorem rank_ofNat_nonneg (hn : n < 2 ^ 64) : 0 ≤ rank (Float.ofNat n) := by
  rcases eq_or_ne n 0 with rfl | hn'
  · exact le_of_eq rank_ofNat_zero.symm
  · exact (rank_ofNat_pos hn' hn).le

/-- The greater number has the greater exponent, or the same one and no lesser significand. -/
theorem rank_ofNat_le (h : m < n) (hn : n < 2 ^ 64) :
    rank (Float.ofNat m) ≤ rank (Float.ofNat n) := by
  rcases eq_or_ne m 0 with rfl | hm
  · rw [rank_ofNat_zero]
    exact (rank_ofNat_pos h.ne' hn).le
  have hn' : n ≠ 0 := h.ne_bot
  have hm53 := log2_mul_two_pow hm 53
  have hn53 := log2_mul_two_pow hn' 53
  have hlow := (significand_bounds (m := m * 2 ^ 53) (by omega)).1
  have hhigh := significand_bounds (m := n * 2 ^ 53) (by omega)
  have hlog : m.log2 ≤ n.log2 := (Nat.le_log2 hn').mpr ((Nat.log2_self_le hm).trans h.le)
  rw [rank, rank, unpack_ofNat hm (h.trans hn), unpack_ofNat hn' hn]
  rcases hlog.eq_or_lt with hlog | hlog
  · have hmono : significand (m * 2 ^ 53) ≤ significand (n * 2 ^ 53) :=
      significand_mono (Nat.mul_le_mul_right _ h.le) (by rw [hm53, hn53, hlog])
    rw [hlog]
    exact rankOf_normal_mono hlow hmono hhigh.2 _
  · exact rankOf_normal_le_of_lt _ hhigh.1 (by omega)

/-- A number of at most 53 bits is not rounded, and its float is below that of any greater one. -/
theorem rank_ofNat_lt (h : m < n) (hm' : m < 2 ^ 53) (hn : n < 2 ^ 64) :
    rank (Float.ofNat m) < rank (Float.ofNat n) := by
  rcases eq_or_ne m 0 with rfl | hm
  · rw [rank_ofNat_zero]
    exact rank_ofNat_pos h.ne' hn
  have hn' : n ≠ 0 := h.ne_bot
  have hlogm : m.log2 ≤ 52 := log2_le hm hm'
  have hm53 := significand_leading hm hlogm
  have hleading := (Nat.log2_eq_iff (by positivity)).mp (log2_leading hm hlogm)
  have hlog : m.log2 ≤ n.log2 := (Nat.le_log2 hn').mpr ((Nat.log2_self_le hm).trans h.le)
  rw [rank, rank, unpack_ofNat hm (h.trans hn), unpack_ofNat hn' hn, hm53]
  rcases hlog.eq_or_lt with hlog | hlog
  · have hbound := significand_bounds (m := n * 2 ^ 53) (by rw [log2_mul_two_pow hn']; omega)
    have hn53 := significand_leading hn' (hlog ▸ hlogm)
    rw [hn53] at hbound ⊢
    rw [← hlog] at hbound ⊢
    exact rankOf_normal_strictMono hleading.1
      (Nat.mul_lt_mul_of_pos_right h (Nat.two_pow_pos _)) hbound.2 _
  · exact rankOf_normal_lt_of_lt (by positivity) hleading.2 _ (by omega)

theorem rank_neg_ofNat (hn : n ≠ 0) (hn' : n < 2 ^ 64) :
    rank (Float.ofNat n).neg = -rank (Float.ofNat n) := by
  rw [rank, rank, unpack_neg_ofNat hn hn', unpack_ofNat hn hn', ← rankOf_neg, neg_normal]

/-- The float of the greater of two whole numbers is no lesser, and it is greater if one of them
has no more than 53 bits. -/
theorem rank_ofInt {a b : Int} (h : a < b) (ha : a.natAbs < 2 ^ 64) (hb : b.natAbs < 2 ^ 64) :
    rank (Float.ofInt a) ≤ rank (Float.ofInt b) ∧
      (a.natAbs < 2 ^ 53 ∨ b.natAbs < 2 ^ 53 → rank (Float.ofInt a) < rank (Float.ofInt b)) := by
  cases a with
  | ofNat m =>
      cases b with
      | ofNat n =>
          have hmn : m < n := Int.ofNat_lt.mp h
          refine ⟨rank_ofNat_le hmn hb, fun hsmall => rank_ofNat_lt hmn ?_ hb⟩
          exact hsmall.elim id hmn.trans
      | negSucc l => exact absurd ((Int.natCast_nonneg m).trans h.le) (by omega)
  | negSucc k =>
      have hk : k + 1 < 2 ^ 64 := ha
      show rank (Float.ofNat (k + 1)).neg ≤ _ ∧ (_ → rank (Float.ofNat (k + 1)).neg < _)
      rw [rank_neg_ofNat k.succ_ne_zero hk]
      cases b with
      | ofNat n =>
          have hneg := neg_neg_of_pos (rank_ofNat_pos k.succ_ne_zero hk)
          have hlt := hneg.trans_le (rank_ofNat_nonneg hb)
          exact ⟨hlt.le, fun _ => hlt⟩
      | negSucc l =>
          have hlk : l + 1 < k + 1 := by omega
          show _ ≤ rank (Float.ofNat (l + 1)).neg ∧ (_ → _ < rank (Float.ofNat (l + 1)).neg)
          rw [rank_neg_ofNat l.succ_ne_zero hb]
          refine ⟨neg_le_neg (rank_ofNat_le hlk hk), fun hsmall => ?_⟩
          exact neg_lt_neg (rank_ofNat_lt hlk (hsmall.elim hlk.trans id) hk)

theorem isNaN_ofInt {a : Int} (ha : a.natAbs < 2 ^ 64) : (Float.ofInt a).isNaN = false := by
  show (Float.ofInt a).toModel.unpack.isNaN = false
  cases a with
  | ofNat m =>
      rcases eq_or_ne m 0 with rfl | hm
      · rfl
      · show (Float.ofNat m).toModel.unpack.isNaN = false
        rw [unpack_ofNat hm ha, isNaN_normal]
  | negSucc k =>
      show (Float.ofNat (k + 1)).neg.toModel.unpack.isNaN = false
      rw [unpack_neg_ofNat k.succ_ne_zero ha, isNaN_normal]

theorem natAbs_toInt_lt (n : Int64) : n.toInt.natAbs < 2 ^ 64 := by
  have hlow := Int64.le_toInt n
  have hhigh := Int64.toInt_lt n
  omega

theorem isNaN_toFloat (n : Int64) : (toFloat n).isNaN = false :=
  isNaN_ofInt (natAbs_toInt_lt n)

/-- Rounding keeps the order of whole numbers, if not their differences. -/
theorem rank_toFloat_mono {m n : Int64} (h : m.toInt ≤ n.toInt) :
    rank (toFloat m) ≤ rank (toFloat n) := by
  rcases h.eq_or_lt with h | h
  · rw [Int64.toInt_inj.mp h]
  · exact (rank_ofInt h (natAbs_toInt_lt m) (natAbs_toInt_lt n)).1

/-- Only from `2 ^ 53` on are different whole numbers rounded to one float. -/
theorem le_natAbs_of_rank_toFloat_eq {m n : Int64} (hne : m ≠ n)
    (h : rank (toFloat m) = rank (toFloat n)) :
    2 ^ 53 ≤ m.toInt.natAbs ∧ 2 ^ 53 ≤ n.toInt.natAbs := by
  by_contra hsmall
  rw [not_and_or, not_le, not_le] at hsmall
  rcases lt_or_gt_of_ne (mt Int64.toInt_inj.mp hne) with hlt | hlt
  · exact ((rank_ofInt hlt (natAbs_toInt_lt m) (natAbs_toInt_lt n)).2 hsmall).ne h
  · exact ((rank_ofInt hlt (natAbs_toInt_lt n) (natAbs_toInt_lt m)).2 hsmall.symm).ne' h

end LineShell.Number
