import LineShell.Proofs.Number.Rounding
import Mathlib

/-!
# The float nearest to a fraction

Which fractions a float is nearest to (`RoundsTo`), and that reading such a fraction gives the
float, whether it is rounded from a product (`roundWithAccuracy_of_roundsTo`) or a quotient
(`div_of_roundsTo`).

Rounding keeps a fraction in quarters of the last place, where all that lies between two quarters
counts as the odd one between them. That is enough to find the nearest whole number
(`nearest_quartersOf`), and it is kept by a shift (`halve_quartersOf`), so it does not matter how
many more places a quotient was begun with.
-/

namespace LineShell.Number

open Float.Model UnpackedFloat

/-! ## Fractions in quarters -/

variable {a b n : Nat}

/-- The fraction `a / b` in quarters. What lies between two quarters counts as the odd one between
them. -/
def quartersOf (a b : Nat) : Nat := 2 * (2 * a / b) + if 2 * a % b = 0 then 0 else 1

theorem quartersOf_eq {q r : Nat} (h : 2 * a = b * q + r) (hr : r < b) :
    quartersOf a b = 2 * q + if r = 0 then 0 else 1 := by
  have hdiv : (b * q + r) / b = q := by
    rw [Nat.mul_add_div (by omega), Nat.div_eq_of_lt hr, Nat.add_zero]
  have hmod : (b * q + r) % b = r := by rw [Nat.mul_add_mod, Nat.mod_eq_of_lt hr]
  rw [quartersOf, h, hdiv, hmod]

theorem exists_halves (a : Nat) (hb : 0 < b) : ∃ q r, 2 * a = b * q + r ∧ r < b :=
  ⟨2 * a / b, 2 * a % b, (Nat.div_add_mod _ _).symm, Nat.mod_lt _ hb⟩

theorem halve_quartersOf (hb : 0 < b) : halve (quartersOf a b) = quartersOf a (b * 2) := by
  obtain ⟨q, r, h, hr⟩ := exists_halves a hb
  rw [quartersOf_eq h hr, halve]
  rcases Nat.even_or_odd' q with ⟨k, rfl | rfl⟩
  · rw [quartersOf_eq (q := k) (r := r) (by rw [h]; ring) (by omega)]
    split_ifs <;> omega
  · have hne : b + r ≠ 0 := by omega
    rw [quartersOf_eq (q := k) (r := b + r) (by rw [h]; ring) (by omega), if_neg hne]
    split_ifs <;> omega

theorem quarters_shiftRight {em : ExtendedMantissa} (hb : 0 < b)
    (h : quarters em = quartersOf a b) (k : Nat) :
    quarters (em >>> k) = quartersOf a (b * 2 ^ k) := by
  induction k with
  | zero => rwa [pow_zero, mul_one]
  | succ k ih =>
      rw [shiftRight_succ, quarters_shiftRightOne, ih, halve_quartersOf (by positivity), mul_assoc,
        pow_succ]

theorem quarters_exact (m : Nat) :
    quarters (ExtendedMantissa.ofMantissaAndAccuracy m .exact) = quartersOf m 1 := by
  rw [quartersOf_eq (q := 2 * m) (r := 0) (by omega) (by decide)]
  show 4 * m + 2 * 0 + 0 = 2 * (2 * m) + 0
  omega

/-- The bits behind a whole quotient tell the rest. -/
theorem quarters_quotient (a : Nat) (hb : 0 < b) :
    quarters (ExtendedMantissa.ofMantissaAndAccuracy (a / b) (accuracyOfFraction (a % b) b)) =
      quartersOf a b := by
  have hsplit := Nat.div_add_mod a b
  have hlt := Nat.mod_lt a hb
  generalize a / b = k at hsplit ⊢
  generalize a % b = r at hsplit hlt ⊢
  unfold accuracyOfFraction
  rcases Nat.lt_trichotomy (2 * r) b with hr | hr | hr
  · have hquarters := quartersOf_eq (a := a) (b := b) (q := 2 * k) (r := 2 * r)
      (by rw [← hsplit]; ring) hr
    rw [hquarters]
    split_ifs with h₁ h₂ h₃
    · show 4 * k + 2 * 0 + 0 = 2 * (2 * k) + 0
      omega
    · omega
    · omega
    · rw [compare_lt_iff_lt.mpr hr]
      show 4 * k + 2 * 0 + 1 = 2 * (2 * k) + 1
      omega
  · have hquarters := quartersOf_eq (a := a) (b := b) (q := 2 * k + 1) (r := 0)
      (by rw [← hsplit, ← hr]; ring) hb
    rw [hquarters, if_neg (by omega), if_pos rfl, compare_eq_iff_eq.mpr hr]
    show 4 * k + 2 * 1 + 0 = 2 * (2 * k + 1) + 0
    omega
  · have hquarters := quartersOf_eq (a := a) (b := b) (q := 2 * k + 1) (r := 2 * r - b)
      (by rw [← hsplit, Nat.mul_add b, Nat.mul_one, Nat.add_assoc, Nat.add_sub_cancel' hr.le]; ring)
      (by omega)
    rw [hquarters, if_neg (by omega), if_neg (by omega), compare_gt_iff_gt.mpr hr]
    show 4 * k + 2 * 1 + 1 = 2 * (2 * k + 1) + 1
    omega

/-! ## The nearest whole number -/

/-- `n` is the whole number nearest to `x`, the even one if `x` lies in the middle between two. -/
structure IsNearest (n : Nat) (x : ℚ) : Prop where
  low : 2 * (n : ℚ) - 1 ≤ 2 * x
  high : 2 * x ≤ 2 * n + 1
  strict : n % 2 = 1 → 2 * (n : ℚ) - 1 < 2 * x ∧ 2 * x < 2 * n + 1

theorem IsNearest.bounds (hb : 0 < b) (h : IsNearest n (a / b)) :
    2 * n * b ≤ 2 * a + b ∧ 2 * a ≤ (2 * n + 1) * b ∧
      (n % 2 = 1 → 2 * n * b < 2 * a + b ∧ 2 * a < (2 * n + 1) * b) := by
  have hb' : (0 : ℚ) < b := by exact_mod_cast hb
  obtain ⟨hlow, hhigh, hstrict⟩ := h
  rw [← mul_div_assoc] at hlow hhigh hstrict
  rw [le_div_iff₀ hb'] at hlow
  rw [div_le_iff₀ hb'] at hhigh
  rw [lt_div_iff₀ hb', div_lt_iff₀ hb'] at hstrict
  have hlow' : 2 * (n : ℚ) * b ≤ 2 * a + b := by linarith
  refine ⟨by exact_mod_cast hlow', by exact_mod_cast hhigh, fun hodd => ?_⟩
  have hlow'' : 2 * (n : ℚ) * b < 2 * a + b := by linarith [(hstrict hodd).1]
  exact ⟨by exact_mod_cast hlow'', by exact_mod_cast (hstrict hodd).2⟩

theorem nearest_quartersOf (hb : 0 < b) (h : IsNearest n (a / b)) :
    nearest (quartersOf a b) = n := by
  obtain ⟨q, r, hqr, hr⟩ := exists_halves a hb
  obtain ⟨hlow, hhigh, hstrict⟩ := h.bounds hb
  -- Twice the fraction has a whole part `q` that is within one of twice the nearest number.
  have hq : 2 * n < q + 2 := by
    refine Nat.lt_of_mul_lt_mul_right (a := b) ?_
    linarith
  have hq' : q ≤ 2 * n + 1 := by
    refine Nat.le_of_mul_le_mul_right (c := b) ?_ hb
    linarith
  rw [quartersOf_eq hqr hr, nearest]
  have hcases : q = 2 * n ∨ q + 1 = 2 * n ∨ q = 2 * n + 1 := by omega
  rcases hcases with rfl | hq | rfl
  · split_ifs <;> omega
  · -- Half a unit below `n` exactly, or less.
    have heven : r = 0 → n % 2 = 0 := by
      rintro rfl
      by_contra hodd
      have hlt := (hstrict (by omega)).1
      rw [hqr, ← hq] at hlt
      linarith
    split_ifs <;> omega
  · -- Half a unit above `n` exactly.
    have hzero : r = 0 := by
      have hle : b * (2 * n + 1) + r ≤ (2 * n + 1) * b := hqr ▸ hhigh
      linarith
    have heven : n % 2 = 0 := by
      by_contra hodd
      have hlt := (hstrict (by omega)).2
      rw [hqr] at hlt
      linarith
    split_ifs <;> omega

/-! ## Rounding a fraction -/

theorem log2_div {k : Nat} (hb : 0 < b) (hlow : 2 ^ 52 * (b * 2 ^ k) ≤ a)
    (hhigh : a < 2 ^ 53 * (b * 2 ^ k)) : (a / b).log2 = 52 + k := by
  have hlow' : 2 ^ (52 + k) ≤ a / b := by
    rw [Nat.le_div_iff_mul_le hb]
    convert hlow using 1
    ring
  have hhigh' : a / b < 2 ^ (52 + k + 1) := by
    rw [Nat.div_lt_iff_lt_mul hb]
    convert hhigh using 1
    ring
  exact (Nat.log2_eq_iff (by have := Nat.two_pow_pos (52 + k); omega)).mpr ⟨hlow', hhigh'⟩

/-- A quotient of at least 53 bits is rounded to the whole number nearest to it, in units of the
last place that is kept. -/
theorem roundWithAccuracy_fraction (s : Sign) {e : Int} {k : Nat} {acc : Accuracy} (hb : 0 < b)
    (hacc : quarters (ExtendedMantissa.ofMantissaAndAccuracy (a / b) acc) = quartersOf a b)
    (he : -1074 ≤ e + k) (hlow : 2 ^ 52 * (b * 2 ^ k) ≤ a) (hhigh : a < 2 ^ 53 * (b * 2 ^ k))
    (hn : IsNearest n ((a : ℚ) / (b * 2 ^ k : Nat))) :
    roundWithAccuracy Format.binary64 s (a / b) e acc = normal s n (e + k) := by
  have hlog := log2_div hb hlow hhigh
  have hbits : (a / b).log2 - 52 = k := by omega
  have hsignificand : significandWith (a / b) acc = n := by
    rw [significandWith, hbits, roundedMantissa_eq, quarters_shiftRight hb hacc]
    exact nearest_quartersOf (by positivity) hn
  rw [roundWithAccuracy_eq_normal s acc (by omega) (by omega), hsignificand, hbits]

/-! ## The fractions that round to a float -/

variable {m : Nat} {e : Int} {x : ℚ}

/-- A float `m · 2^e`: all 53 places are taken, unless the exponent is the least. -/
structure Canonical (m : Nat) (e : Int) : Prop where
  pos : 0 < m
  lt : m < 2 ^ 53
  least : -1074 ≤ e
  greatest : e ≤ 971
  full : -1074 < e → 2 ^ 52 ≤ m

/-- How far the fractions that round to `m · 2^e` go down, in quarters of the last place: only half
as far as they go up if the next float below has a smaller exponent. -/
def reachDown (m : Nat) (e : Int) : Nat := if m = 2 ^ 52 ∧ -1074 < e then 1 else 2

/-- The fraction `x` lies no further from `m · 2^e` than from any other float, and as far as from
another one only if `m` is even. -/
structure RoundsTo (m : Nat) (e : Int) (x : ℚ) : Prop where
  low : (4 * (m : ℚ) - reachDown m e) * 2 ^ e ≤ 4 * x
  high : 4 * x ≤ (4 * m + 2) * 2 ^ e
  strict : m % 2 = 1 → (4 * (m : ℚ) - reachDown m e) * 2 ^ e < 4 * x ∧ 4 * x < (4 * m + 2) * 2 ^ e

theorem reachDown_le (m : Nat) (e : Int) : (reachDown m e : ℚ) ≤ 2 := by
  unfold reachDown
  split_ifs <;> norm_num

theorem RoundsTo.pos (h : RoundsTo m e x) (hm : 0 < m) : 0 < x := by
  have hm1 : (1 : ℚ) ≤ m := by exact_mod_cast hm
  have hdown := reachDown_le m e
  have hbegin : 0 < 4 * (m : ℚ) - reachDown m e := by linarith
  have hpos : 0 < (4 * (m : ℚ) - reachDown m e) * 2 ^ e := by positivity
  linarith [h.low]

theorem RoundsTo.isNearest (h : RoundsTo m e x) : IsNearest m (x / 2 ^ e) := by
  have hpos : (0 : ℚ) < 2 ^ e := by positivity
  have hdown := mul_le_mul_of_nonneg_right (reachDown_le m e) hpos.le
  obtain ⟨hlow, hhigh, hstrict⟩ := h
  constructor
  · rw [← mul_div_assoc, le_div_iff₀ hpos]
    linarith
  · rw [← mul_div_assoc, div_le_iff₀ hpos]
    linarith
  · intro hodd
    obtain ⟨hlow', hhigh'⟩ := hstrict hodd
    rw [← mul_div_assoc, lt_div_iff₀ hpos, div_lt_iff₀ hpos]
    exact ⟨by linarith, by linarith⟩

theorem RoundsTo.lt_two_pow (h : RoundsTo m e x) (hm : m < 2 ^ 53) : x < 2 ^ 53 * 2 ^ e := by
  have hpos : (0 : ℚ) < 2 ^ e := by positivity
  have hm' : (m : ℚ) + 1 ≤ 2 ^ 53 := by exact_mod_cast hm
  have hscaled := mul_le_mul_of_nonneg_right hm' hpos.le
  linarith [h.high]

/-- Only what rounds up to a power of two lies below the float, and no further below than half of
the place before it. -/
theorem RoundsTo.of_lt (h : RoundsTo m e x) (hc : Canonical m e) (he : -1074 < e)
    (hx : x < 2 ^ 52 * 2 ^ e) :
    m = 2 ^ 52 ∧ 2 ^ 52 * 2 ^ (e - 1) ≤ x ∧ IsNearest (2 ^ 53) (x / 2 ^ (e - 1)) := by
  have hm := hc.full he
  have hpos : (0 : ℚ) < 2 ^ (e - 1) := by positivity
  have hhalf : (2 : ℚ) ^ (e - 1) * 2 = 2 ^ e := by
    rw [← zpow_add_one₀ (by norm_num), sub_add_cancel]
  have hlow := h.low
  rw [← hhalf] at hlow hx
  have hmeq : m = 2 ^ 52 := by
    by_contra hne
    have hge : (2 : ℚ) ^ 52 + 1 ≤ m := by
      have hlt : 2 ^ 52 + 1 ≤ m := by omega
      exact_mod_cast hlt
    have hbegin : (2 : ℚ) ^ 54 ≤ 4 * m - reachDown m e := by linarith [reachDown_le m e]
    have hscaled := mul_le_mul_of_nonneg_right hbegin hpos.le
    linarith
  subst hmeq
  have hdown : reachDown (2 ^ 52) e = 1 := if_pos ⟨rfl, he⟩
  rw [hdown] at hlow
  push_cast at hlow
  refine ⟨rfl, by linarith, ⟨?_, ?_, by norm_num⟩⟩
  · rw [← mul_div_assoc, le_div_iff₀ hpos]
    push_cast
    linarith
  · rw [← mul_div_assoc, div_le_iff₀ hpos]
    push_cast
    linarith

/-- Just below a power of two the last place is half as large, and rounding carries into the next
exponent. -/
theorem RoundsTo.exists_normal (h : RoundsTo m e x) (hc : Canonical m e) (he : -1074 < e) :
    ∃ n p, -1074 ≤ p ∧ 2 ^ 52 * (2 : ℚ) ^ p ≤ x ∧ x < 2 ^ 53 * (2 : ℚ) ^ p ∧
      IsNearest n (x / (2 : ℚ) ^ p) ∧ ∀ s, normal s n p = .finite s m e hc.pos := by
  rcases le_or_gt (2 ^ 52 * (2 : ℚ) ^ e) x with hx | hx
  · exact ⟨m, e, he.le, hx, h.lt_two_pow hc.lt, h.isNearest, fun s => dif_pos ⟨hc.pos, hc.lt⟩⟩
  · obtain ⟨rfl, hlow, hnearest⟩ := h.of_lt hc he hx
    have hhalf : (2 : ℚ) ^ (e - 1) * 2 = 2 ^ e := by
      rw [← zpow_add_one₀ (by norm_num), sub_add_cancel]
    refine ⟨2 ^ 53, e - 1, by omega, hlow, by rw [← hhalf] at hx; linarith, hnearest, fun s => ?_⟩
    rw [normal, dif_neg (by omega)]
    congr 1
    omega

/-- A fraction that was brought to at least 53 bits, over the exponent `t`, is rounded to the float
nearest to it. -/
theorem roundWithAccuracy_of_roundsTo (s : Sign) {t : Int} {acc : Accuracy} (hb : 0 < b)
    (hacc : quarters (ExtendedMantissa.ofMantissaAndAccuracy (a / b) acc) = quartersOf a b)
    (hx : x = a / b * 2 ^ t) (hbits : 2 ^ 52 * (2 : ℚ) ^ t ≤ x) (h : RoundsTo m e x)
    (hc : Canonical m e) (he : -1074 < e) :
    roundWithAccuracy Format.binary64 s (a / b) t acc = .finite s m e hc.pos := by
  obtain ⟨n, p, hp, hlow, hhigh, hn, hnormal⟩ := h.exists_normal hc he
  have htp : t ≤ p := by
    have hlt : (2 : ℚ) ^ t < 2 ^ (p + 1) := by
      rw [zpow_add_one₀ (by norm_num)]
      linarith
    have := (zpow_lt_zpow_iff_right₀ (by norm_num)).mp hlt
    omega
  obtain ⟨k, rfl⟩ : ∃ k : Nat, p = t + k := ⟨(p - t).toNat, by omega⟩
  have hb' : (0 : ℚ) < (b : ℚ) * 2 ^ k := by
    have : (0 : ℚ) < b := by exact_mod_cast hb
    positivity
  have hpower : (2 : ℚ) ^ (t + k) = 2 ^ t * 2 ^ k := by
    rw [zpow_add₀ (by norm_num), zpow_natCast]
  have hquotient : x / (2 : ℚ) ^ (t + k) = a / (b * 2 ^ k) := by
    rw [hx, hpower]
    field_simp
  rw [← le_div_iff₀ (by positivity), hquotient, le_div_iff₀ hb'] at hlow
  rw [← div_lt_iff₀ (by positivity), hquotient, div_lt_iff₀ hb'] at hhigh
  rw [hquotient] at hn
  rw [roundWithAccuracy_fraction s hb hacc hp (by exact_mod_cast hlow) (by exact_mod_cast hhigh)
    (by exact_mod_cast hn), hnormal]

/-! ## Products and quotients -/

/-- A whole number, with 53 zeros behind its places. -/
theorem round_of_roundsTo (s : Sign) (h : RoundsTo m e n) (hc : Canonical m e) (he : -1074 < e)
    (hn : n ≠ 0) :
    roundWithAccuracy Format.binary64 s (n * 2 ^ 53) (-53) .exact = .finite s m e hc.pos := by
  have hn' : (1 : ℚ) ≤ n := by exact_mod_cast Nat.pos_of_ne_zero hn
  have hquarters : quarters (ExtendedMantissa.ofMantissaAndAccuracy (n * 2 ^ 53 / 1) .exact) =
      quartersOf (n * 2 ^ 53) 1 := by
    rw [Nat.div_one, quarters_exact]
  have hround := roundWithAccuracy_of_roundsTo (t := -53) (x := n) s (by decide) hquarters
    (by push_cast; norm_num [mul_assoc]) (by norm_num; linarith) h hc he
  rwa [Nat.div_one] at hround

theorem log2_bounds (hn : n ≠ 0) :
    (2 : ℚ) ^ (n.log2 : Int) ≤ n ∧ (n : ℚ) < 2 ^ (n.log2 + 1 : Int) := by
  constructor
  · rw [zpow_natCast]
    exact_mod_cast Nat.log2_self_le hn
  · have hlt := Nat.lt_log2_self (n := n)
    exact_mod_cast hlt

theorem targetExponent_sub (m₁ m₂ : Nat) (e₁ e₂ : Int) :
    Format.binary64.targetExponent (totalExponent m₁ e₁ - totalExponent m₂ e₂) =
      max (m₁.log2 + e₁ - (m₂.log2 + e₂) - 53) (-1074) := by
  show max ((m₁.log2 : Int) + 1 + e₁ - ((m₂.log2 : Int) + 1 + e₂) - 53) (-1074) = _
  congr 1
  omega

/-- A quotient is no less than half of the quotient of the leading places. -/
theorem le_quotient {m₁ m₂ : Nat} (h₁ : m₁ ≠ 0) (h₂ : m₂ ≠ 0) (e₁ e₂ : Int) :
    (2 : ℚ) ^ (m₁.log2 + e₁ - (m₂.log2 + e₂) - 53 + 52) ≤ m₁ * 2 ^ e₁ / (m₂ * 2 ^ e₂) := by
  have hm₂ : (0 : ℚ) < m₂ := by exact_mod_cast Nat.pos_of_ne_zero h₂
  have hexponent : (m₁.log2 : Int) + e₁ - (m₂.log2 + e₂) - 53 + 52 =
      m₁.log2 + e₁ - (m₂.log2 + e₂) - 1 := by omega
  have hsplit : (2 : ℚ) ^ (m₁.log2 + e₁ - (m₂.log2 + e₂) - 1) * (2 ^ (m₂.log2 + 1 : Int) * 2 ^ e₂) =
      2 ^ (m₁.log2 : Int) * 2 ^ e₁ := by
    rw [← zpow_add₀ (by norm_num), ← zpow_add₀ (by norm_num), ← zpow_add₀ (by norm_num)]
    congr 1
    omega
  rw [hexponent, le_div_iff₀ (by positivity)]
  calc (2 : ℚ) ^ (m₁.log2 + e₁ - (m₂.log2 + e₂) - 1) * (m₂ * 2 ^ e₂)
      ≤ 2 ^ (m₁.log2 + e₁ - (m₂.log2 + e₂) - 1) * (2 ^ (m₂.log2 + 1 : Int) * 2 ^ e₂) := by
        gcongr
        exact (log2_bounds h₂).2.le
    _ = 2 ^ (m₁.log2 : Int) * 2 ^ e₁ := hsplit
    _ ≤ m₁ * 2 ^ e₁ := by
        gcongr
        exact (log2_bounds h₁).1

/-- A fraction that rounds to a float has at least 53 bits over each exponent that it is brought
to. -/
theorem RoundsTo.le_of_le_target {t k : Int} (h : RoundsTo m e x) (hc : Canonical m e)
    (he : -1074 < e) (hk : 2 ^ (k + 52) ≤ x) (ht : t ≤ max k (-1074)) : 2 ^ 52 * 2 ^ t ≤ x := by
  rcases le_or_gt t k with hle | hlt
  · calc (2 : ℚ) ^ 52 * 2 ^ t ≤ 2 ^ 52 * 2 ^ k := by
          gcongr
          norm_num
      _ = 2 ^ (k + 52) := by
          rw [zpow_add₀ (by norm_num), mul_comm]
          rfl
      _ ≤ x := hk
  · obtain ⟨n, p, hp, hlow, -⟩ := h.exists_normal hc he
    calc (2 : ℚ) ^ 52 * 2 ^ t ≤ 2 ^ 52 * 2 ^ p := by
          gcongr
          · norm_num
          · omega
      _ ≤ x := hlow

/-- The quotient of two floats is the float nearest to their exact quotient. -/
theorem div_of_roundsTo {m₁ m₂ : Nat} {e₁ e₂ : Int} (h₁ : 0 < m₁) (h₂ : 0 < m₂)
    (h : RoundsTo m e (m₁ * 2 ^ e₁ / (m₂ * 2 ^ e₂))) (hc : Canonical m e) (he : -1074 < e) :
    UnpackedFloat.div Format.binary64 (.finite .positive m₁ e₁ h₁) (.finite .positive m₂ e₂ h₂) =
      .finite .positive m e hc.pos := by
  have htarget := targetExponent_sub m₁ m₂ e₁ e₂
  have hquotient := le_quotient h₁.ne' h₂.ne' e₁ e₂
  generalize hx : (m₁ : ℚ) * 2 ^ e₁ / (m₂ * 2 ^ e₂) = x at h hquotient
  show roundWithAccuracy Format.binary64 .positive
    ((m₁ <<< (e₁ - e₂ - min (e₁ - e₂) _).toNat) / m₂) (min (e₁ - e₂) _) _ = _
  rw [htarget]
  generalize m₁.log2 + e₁ - (m₂.log2 + e₂) - 53 = k at *
  obtain ⟨t, ht⟩ : ∃ t, t = min (e₁ - e₂) (max k (-1074)) := ⟨_, rfl⟩
  rw [← ht]
  refine roundWithAccuracy_of_roundsTo _ h₂ (quarters_quotient _ h₂) ?_ ?_ h hc he
  · have hshift : (2 : ℚ) ^ (e₁ - e₂ - t).toNat * 2 ^ t = 2 ^ e₁ / 2 ^ e₂ := by
      rw [← zpow_natCast, ← zpow_add₀ (by norm_num), ← zpow_sub₀ (by norm_num)]
      congr 1
      omega
    rw [← hx, Nat.shiftLeft_eq]
    push_cast
    rw [div_mul_eq_mul_div, mul_assoc, hshift]
    field_simp
  · exact h.le_of_le_target hc he hquotient (by omega)

end LineShell.Number
