import LineShell.Proofs.Decimal.Written
import LineShell.Proofs.Number.Canonical
import Mathlib

/-!
# The shortest decimal rounds to its float

The decimal that a float is written as rounds to the float (`roundsTo_shortest`). Each candidate is
checked against the interval of what rounds to the float, so all that is to be shown is that some
candidate is found: seventeen digits are finer than the intervals of all floats
(`exists_withDigits?`), for which the exponent must not be too great (`pow_exponent_le`).

So the decimals of floats are in the order of the floats (`toRat_shortest_le_iff`).
-/

namespace LineShell.Decimal

open Number

theorem pow_toNat {b : ℚ} (hb : b ≠ 0) (z : Int) : b ^ z.toNat = b ^ z * b ^ (-z).toNat := by
  rw [← zpow_natCast, ← zpow_natCast, ← zpow_add₀ hb]
  congr 1
  omega

namespace Interval

variable {m u d c n : Nat} {narrow : Bool} {q p : Int} {tie : Tie} {i : Interval}

/-! ## The interval of a float -/

/-- The interval around `4 * m` in units of `u / d`. -/
def around (m u d : Nat) (narrow : Bool) : Interval :=
  { below := (4 * m - if narrow then 1 else 2) * u
    value := 4 * m * u
    above := (4 * m + 2) * u
    denominator := d
    closed := m % 2 == 0 }

theorem inUnits_ofBinary (m : Nat) (q : Int) (narrow : Bool) (p : Int) :
    (ofBinary m q narrow).inUnits p =
      around m (2 ^ (q - 2).toNat * 10 ^ (-p).toNat) (2 ^ (2 - q).toNat * 10 ^ p.toNat) narrow := by
  simp [ofBinary, inUnits, around, Nat.shiftLeft_eq, Nat.mul_assoc]

theorem holds_around_iff :
    (around m u d narrow).holds c = true ↔
      ((4 * m - if narrow then 1 else 2) * u ≤ c * d ∧ c * d ≤ (4 * m + 2) * u) ∧
        (m % 2 = 1 → (4 * m - if narrow then 1 else 2) * u < c * d ∧ c * d < (4 * m + 2) * u) := by
  rcases Nat.mod_two_eq_zero_or_one m with heven | hodd
  · simp [holds, around, heven]
  · simp only [holds, around, hodd]
    simp
    omega

/-- The units of the interval, as powers. -/
theorem exists_units (q p : Int) :
    ∃ k : ℚ, 0 < k ∧ 2 ^ q = k * (2 ^ (q - 2).toNat * 10 ^ (-p).toNat : Nat) ∧
      4 * 10 ^ p = k * (2 ^ (2 - q).toNat * 10 ^ p.toNat : Nat) := by
  have hbinary := pow_toNat (b := 2) (by norm_num) (q - 2)
  have hdecimal := pow_toNat (b := 10) (by norm_num) p
  have hquarter : (2 : ℚ) ^ (q - 2) * 4 = 2 ^ q := by
    rw [zpow_sub₀ (by norm_num)]
    norm_num
  rw [neg_sub] at hbinary
  refine ⟨4 * 10 ^ p / (2 ^ (2 - q).toNat * 10 ^ p.toNat), by positivity, ?_, ?_⟩
  · push_cast
    rw [hbinary, hdecimal, ← hquarter]
    field_simp
  · push_cast
    field_simp

/-- A whole number in the interval of a float rounds to the float, in the units of the interval. -/
theorem roundsTo_of_holds (hm : 0 < m) (hnarrow : narrow = decide (m = 2 ^ 52 ∧ -1074 < q))
    (h : ((ofBinary m q narrow).inUnits p).holds c = true) : RoundsTo m q (c * 10 ^ p) := by
  have hdown : (if narrow then 1 else 2) = reachDown m q := by
    simp only [hnarrow, decide_eq_true_eq, reachDown]
  have hle : reachDown m q ≤ 4 * m := by
    unfold reachDown
    split_ifs <;> omega
  obtain ⟨k, hk, hunit, hunit'⟩ := exists_units q p
  rw [inUnits_ofBinary, holds_around_iff, hdown] at h
  generalize 2 ^ (q - 2).toNat * 10 ^ (-p).toNat = u at h hunit
  generalize 2 ^ (2 - q).toNat * 10 ^ p.toNat = d at h hunit'
  have hvalue : 4 * ((c : ℚ) * 10 ^ p) = k * ((c * d : Nat) : ℚ) := by
    push_cast
    linear_combination (c : ℚ) * hunit'
  have hbelow : (4 * (m : ℚ) - reachDown m q) * 2 ^ q =
      k * (((4 * m - reachDown m q) * u : Nat) : ℚ) := by
    rw [hunit]
    push_cast [hle]
    ring
  have habove : (4 * (m : ℚ) + 2) * 2 ^ q = k * (((4 * m + 2) * u : Nat) : ℚ) := by
    rw [hunit]
    push_cast
    ring
  constructor
  · rw [hbelow, hvalue]
    exact mul_le_mul_of_nonneg_left (by exact_mod_cast h.1.1) hk.le
  · rw [habove, hvalue]
    exact mul_le_mul_of_nonneg_left (by exact_mod_cast h.1.2) hk.le
  · intro hodd
    rw [hbelow, habove, hvalue]
    exact ⟨mul_lt_mul_of_pos_left (by exact_mod_cast (h.2 hodd).1) hk,
      mul_lt_mul_of_pos_left (by exact_mod_cast (h.2 hodd).2) hk⟩

/-! ## The candidates -/

/-- A neighbour of the value is taken if and only if one is in the interval, and then one that
is. -/
theorem nearest?_cases (tie : Tie) (i : Interval) :
    (∃ c, i.nearest? tie = some c ∧ i.holds c = true) ∨
      i.nearest? tie = none ∧ i.holds (i.value / i.denominator) = false ∧
        i.holds (i.value / i.denominator + 1) = false := by
  unfold nearest?
  dsimp only
  cases hlower : i.holds (i.value / i.denominator) <;>
    cases hupper : i.holds (i.value / i.denominator + 1)
  · exact .inr ⟨rfl, rfl, rfl⟩
  · exact .inl ⟨_, rfl, hupper⟩
  · exact .inl ⟨_, rfl, hlower⟩
  · left
    dsimp only
    cases tie <;> split_ifs <;> first | exact ⟨_, rfl, hlower⟩ | exact ⟨_, rfl, hupper⟩

/-- Where the value has seventeen digits before the point, a neighbour of it is in the interval. -/
theorem holds_neighbour (hm : m < 2 ^ 53) (hd : 0 < d) (hnarrow : narrow = true → m = 2 ^ 52)
    (hfine : 10 ^ 16 * d ≤ 4 * m * u) :
    (around m u d narrow).holds (4 * m * u / d) = true ∨
      (around m u d narrow).holds (4 * m * u / d + 1) = true := by
  have hsplit := Nat.div_add_mod' (4 * m * u) d
  have hrest := Nat.mod_lt (4 * m * u) hd
  have habove : (4 * m + 2) * u = 4 * m * u + 2 * u := Nat.add_mul _ _ _
  have hnext : (4 * m * u / d + 1) * d = 4 * m * u / d * d + d := Nat.succ_mul _ _
  rw [holds_around_iff, holds_around_iff, habove, hnext]
  generalize 4 * m * u / d = k at *
  generalize 4 * m * u % d = r at *
  cases narrow with
  | true =>
      -- The value is only a little above the end below, but the end above is a whole unit away.
      obtain rfl := hnarrow rfl
      have hbelow : (4 * 2 ^ 52 - 1) * u ≤ 4 * 2 ^ 52 * u := Nat.mul_le_mul_right u (by decide)
      right
      rw [if_pos rfl]
      omega
  | false =>
      have hpos : 0 < m := by
        rcases Nat.eq_zero_or_pos m with rfl | hpos
        · omega
        · exact hpos
      have hbelow : (4 * m - 2) * u + 2 * u = 4 * m * u := by
        rw [← Nat.add_mul, Nat.sub_add_cancel (by omega)]
      have hvalue : 4 * m * u ≤ 4 * (2 ^ 53 - 1) * u := Nat.mul_le_mul_right u (by omega)
      have hwidth : d < 4 * u := by omega
      rw [if_neg Bool.false_ne_true]
      rcases Nat.lt_or_ge d (2 * r) with hupper | hlower
      · right
        omega
      · left
        omega

/-! ## The search -/

theorem pow_exponent_le (hd : 0 < i.denominator) (hv : 0 < i.value) :
    (10 : ℚ) ^ i.exponent * i.denominator ≤ i.value := by
  unfold exponent
  split_ifs with hle
  · have hquotient := pow_length_digits_le (Nat.div_pos hle hd)
    rw [Nat.le_div_iff_mul_le hd] at hquotient
    have hlength := length_digits_pos (i.value / i.denominator)
    have hexponent : ((digits (i.value / i.denominator)).length : Int) - 1 =
        ((digits (i.value / i.denominator)).length - 1 : Nat) := by
      omega
    rw [hexponent, zpow_natCast]
    exact_mod_cast hquotient
  · have hquotient := lt_pow_length_digits ((i.denominator - 1) / i.value)
    rw [Nat.div_lt_iff_lt_mul hv] at hquotient
    rw [zpow_neg, zpow_natCast, inv_mul_le_iff₀ (by positivity)]
    have hle' : i.denominator ≤ 10 ^ (digits ((i.denominator - 1) / i.value)).length * i.value := by
      omega
    exact_mod_cast hle'

theorem pow_exponent_ofBinary_le (hm : 0 < m) (q : Int) (narrow : Bool) :
    (10 : ℚ) ^ (ofBinary m q narrow).exponent ≤ m * 2 ^ q := by
  obtain ⟨k, hk, hunit, hunit'⟩ := exists_units q 0
  have hvalue : (ofBinary m q narrow).value =
      4 * m * (2 ^ (q - 2).toNat * 10 ^ (-0 : Int).toNat) := by
    simp [ofBinary, Nat.shiftLeft_eq]
  have hdenominator : (ofBinary m q narrow).denominator =
      2 ^ (2 - q).toNat * 10 ^ (0 : Int).toNat := by
    simp [ofBinary, Nat.shiftLeft_eq]
  have hexponent := pow_exponent_le (i := ofBinary m q narrow) (by rw [hdenominator]; positivity)
    (by rw [hvalue]; positivity)
  rw [hvalue, hdenominator] at hexponent
  have hscaled := mul_le_mul_of_nonneg_left hexponent hk.le
  push_cast at hunit hunit' hscaled
  rw [hunit]
  linear_combination hscaled / 4 + 10 ^ (ofBinary m q narrow).exponent / 4 * hunit'

/-- Seventeen digits are enough. -/
theorem exists_withDigits? (tie : Tie) (q : Int) (hm : 0 < m) (hm' : m < 2 ^ 53)
    (hnarrow : narrow = true → m = 2 ^ 52) :
    ∃ x, (ofBinary m q narrow).withDigits? tie 16 = some x := by
  have hexponent := pow_exponent_ofBinary_le hm q narrow
  obtain ⟨k, hk, hunit, hunit'⟩ := exists_units q ((ofBinary m q narrow).exponent - 16)
  unfold withDigits?
  dsimp only
  rcases nearest?_cases tie ((ofBinary m q narrow).inUnits ((ofBinary m q narrow).exponent - 16))
    with ⟨c, hc, -⟩ | ⟨-, hlower, hupper⟩
  · exact ⟨_, by rw [Nat.cast_ofNat, hc]; rfl⟩
  · exfalso
    rw [inUnits_ofBinary] at hlower hupper
    generalize 2 ^ (q - 2).toNat * 10 ^ (-((ofBinary m q narrow).exponent - 16)).toNat = u at *
    have hd : 0 < 2 ^ (2 - q).toNat * 10 ^ ((ofBinary m q narrow).exponent - 16).toNat := by
      positivity
    generalize 2 ^ (2 - q).toNat * 10 ^ ((ofBinary m q narrow).exponent - 16).toNat = d at *
    have hfine : 10 ^ 16 * d ≤ 4 * m * u := by
      have hscaled : k * ((10 ^ 16 * d : Nat) : ℚ) ≤ k * ((4 * m * u : Nat) : ℚ) := by
        rw [zpow_sub₀ (by norm_num)] at hunit'
        push_cast
        linear_combination 4 * hexponent - 10 ^ 16 * hunit' + 4 * m * hunit
      exact_mod_cast le_of_mul_le_mul_left hscaled hk
    rcases holds_neighbour hm' hd hnarrow hfine with hholds | hholds
    · exact Bool.false_ne_true (hlower.symm.trans hholds)
    · exact Bool.false_ne_true (hupper.symm.trans hholds)

end Interval

/-! ## The shortest decimal -/

namespace Scientific

/-- The number that a decimal stands for. -/
def toRat (x : Scientific) : ℚ := x.coefficient * 10 ^ x.scale

variable {x : Scientific}

theorem toRat_normalize (x : Scientific) : x.normalize.toRat = x.toRat := by
  induction x using normalize.induct with
  | case1 x h ih =>
      have hten : x.coefficient / 10 * 10 = x.coefficient :=
        Nat.div_mul_cancel (Nat.dvd_of_mod_eq_zero h.2)
      rw [normalize, dif_pos h, ih, toRat, toRat, zpow_add_one₀ (by norm_num), ← hten]
      push_cast
      rw [Nat.mul_div_cancel _ (by decide)]
      ring
  | case2 x h => rw [normalize, dif_neg h]

theorem coefficient_pos (h : 0 < x.toRat) : 0 < x.coefficient := by
  rcases Nat.eq_zero_or_pos x.coefficient with hzero | hpos
  · rw [toRat, hzero, Nat.cast_zero, zero_mul] at h
    exact absurd h (lt_irrefl _)
  · exact hpos

/-- The exponent of the first digit is that of the greatest power of ten not above the number. -/
theorem le_exponent_iff (h : 0 < x.toRat) (k : Int) : k ≤ x.exponent ↔ (10 : ℚ) ^ k ≤ x.toRat := by
  have hpos := coefficient_pos h
  have hlow := pow_length_digits_le hpos
  have hhigh := lt_pow_length_digits x.coefficient
  have hlength := length_digits_pos x.coefficient
  unfold exponent toRat
  generalize (digits x.coefficient).length = n at *
  have hlow' : (10 : ℚ) ^ (n - 1 : Int) ≤ x.coefficient := by
    rw [← Nat.cast_pred hlength, zpow_natCast]
    exact_mod_cast hlow
  have hhigh' : (x.coefficient : ℚ) < 10 ^ (n : Int) := by
    rw [zpow_natCast]
    exact_mod_cast hhigh
  constructor
  · intro hk
    calc (10 : ℚ) ^ k ≤ 10 ^ (n - 1 + x.scale) := by
          gcongr
          · norm_num
          · omega
      _ = 10 ^ (n - 1 : Int) * 10 ^ x.scale := zpow_add₀ (by norm_num) _ _
      _ ≤ x.coefficient * 10 ^ x.scale := by gcongr
  · intro hk
    have hlt : (10 : ℚ) ^ k < 10 ^ (n + x.scale : Int) := by
      rw [zpow_add₀ (by norm_num)]
      refine lt_of_le_of_lt hk ?_
      gcongr
    have := (zpow_lt_zpow_iff_right₀ (by norm_num)).mp hlt
    omega

end Scientific

variable {m n : Nat} {e f q : Int} {tie : Tie} {x : ℚ}

/-- The decimal of a float rounds to the float. -/
theorem roundsTo_shortest (tie : Tie) (q : Int) (hm : 0 < m) (hm' : m < 2 ^ 53) :
    RoundsTo m q (shortest tie m q).toRat := by
  obtain ⟨narrow, hnarrow⟩ : ∃ b, b = (m == 1 <<< 52 && -1074 < q) := ⟨_, rfl⟩
  have hbool : narrow = decide (m = 2 ^ 52 ∧ -1074 < q) := by
    rw [hnarrow, Bool.decide_and]
    rfl
  have hleast : narrow = true → m = 2 ^ 52 := by
    rw [hbool]
    exact fun h => (of_decide_eq_true h).1
  obtain ⟨y, hy⟩ := Interval.exists_withDigits? tie q hm hm' hleast
  unfold shortest Interval.shortest
  rw [← hnarrow]
  cases hfind : (List.range 17).findSome? ((Interval.ofBinary m q narrow).withDigits? tie) with
  | none =>
      have hnone := List.findSome?_eq_none_iff.mp hfind 16 (by decide)
      cases hy.symm.trans hnone
  | some z =>
      obtain ⟨k, -, hk⟩ := List.exists_of_findSome?_eq_some hfind
      obtain ⟨c, hc, rfl⟩ := Option.map_eq_some_iff.mp hk
      dsimp only
      rw [Scientific.toRat_normalize]
      refine Interval.roundsTo_of_holds hm hbool ?_
      rcases Interval.nearest?_cases tie ((Interval.ofBinary m q narrow).inUnits
          ((Interval.ofBinary m q narrow).exponent - k)) with ⟨c', hc', hholds⟩ | ⟨hnone, -⟩
      · obtain rfl : c' = c := Option.some.inj (hc'.symm.trans hc)
        exact hholds
      · cases hnone.symm.trans hc

/-- The decimals of floats are in the order of the floats. -/
theorem toRat_shortest_le_iff (tie : Tie) (hm : Canonical m e) (hn : Canonical n f) :
    (shortest tie m e).toRat ≤ (shortest tie n f).toRat ↔ toLex (e, m) ≤ toLex (f, n) := by
  have hx := roundsTo_shortest tie e hm.pos hm.lt
  have hy := roundsTo_shortest tie f hn.pos hn.lt
  constructor
  · intro hle
    by_contra hlt
    exact absurd (hy.lt hn hm hx (not_le.mp hlt)) hle.not_gt
  · intro hle
    rcases hle.eq_or_lt with heq | hlt
    · cases toLex_inj.mp heq
      exact le_refl _
    · exact (hx.lt hm hn hy hlt).le

/-- A power of ten that is the decimal of a float tells the exponents of the floats above it and
below it. -/
theorem le_exponent_shortest_iff (tie : Tie) {k : Int} (hm : Canonical m e) (hn : Canonical n f)
    (hpower : shortest tie n f = ⟨1, k⟩) :
    k ≤ (shortest tie m e).exponent ↔ toLex (f, n) ≤ toLex (e, m) := by
  have hpos := (roundsTo_shortest tie e hm.pos hm.lt).pos hm.pos
  rw [Scientific.le_exponent_iff hpos, ← toRat_shortest_le_iff tie hn hm, hpower]
  simp [Scientific.toRat]

end LineShell.Decimal
