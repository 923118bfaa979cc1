import LineShell.Decimal.Style
import Mathlib.Data.List.Induction
import Mathlib.Tactic.Ring

/-!
# The text of a decimal

A decimal without an exponent is a numeral (`plain_whole`) or two runs of digits with a point
between them (`plain_pointed`), and its digits stand for the coefficient. The numeral of a number is
as long as the number has decimal places.
-/

namespace LineShell.Decimal

variable {c : Char} {as bs cs : List Char} {k n : Nat}

/-! ## Digits -/

theorem ofDigits_append (as bs : List Char) :
    ofDigits (as ++ bs) = ofDigits as * 10 ^ bs.length + ofDigits bs := by
  induction bs using List.reverseRecOn with
  | nil => simp [ofDigits]
  | append_singleton bs b ih =>
      rw [← List.append_assoc, ofDigits_concat, ih, ofDigits_concat, List.length_append,
        List.length_singleton]
      ring

theorem ofDigits_zeros (k : Nat) : ofDigits (List.replicate k '0') = 0 := by
  induction k with
  | zero => rfl
  | succ k ih =>
      rw [List.replicate_succ', ofDigits_concat, ih]
      rfl

theorem length_digits_pos (n : Nat) : 0 < (digits n).length := Nat.length_toDigits_pos

theorem lt_pow_length_digits (n : Nat) : n < 10 ^ (digits n).length :=
  (Nat.length_toDigits_le_iff (by decide) Nat.length_toDigits_pos).mp (Nat.le_refl _)

theorem pow_length_digits_le (hn : 0 < n) : 10 ^ ((digits n).length - 1) ≤ n := by
  rcases Nat.eq_zero_or_pos ((digits n).length - 1) with hone | hmore
  · rw [hone, Nat.pow_zero]
    exact hn
  · by_contra hlt
    have hle := (Nat.length_toDigits_le_iff (b := 10) (by decide) hmore).mpr (Nat.not_le.mp hlt)
    rw [← digits] at hle
    omega

theorem isDigit_of_mem_zeros (h : c ∈ List.replicate k '0') : c.isDigit = true := by
  rw [List.eq_of_mem_replicate h]
  rfl

/-! ## Decimals without an exponent -/

namespace Style

variable {st : Style} {x : Scientific}

theorem placePoint_whole (h : cs.length ≤ n) :
    placePoint false cs n = cs ++ List.replicate (n - cs.length) '0' := by
  unfold placePoint
  dsimp only
  rw [List.drop_of_length_le h, List.take_of_length_le h]
  rfl

theorem placePoint_pointed (pointed : Bool) (h : n < cs.length) :
    placePoint pointed cs n = cs.take n ++ '.' :: cs.drop n := by
  have hfraction : (cs.drop n).isEmpty = false := by
    rw [List.isEmpty_eq_false_iff, ne_eq, List.drop_eq_nil_iff]
    omega
  unfold placePoint
  dsimp only
  rw [hfraction, Nat.sub_eq_zero_of_le (Nat.le_of_lt h), List.replicate_zero, List.append_nil]
  rfl

/-- A decimal without digits behind the point. -/
theorem plain_whole (hst : st.pointed = false) (hscale : 0 ≤ x.scale) :
    st.plain x = digits x.coefficient ++ List.replicate x.scale.toNat '0' := by
  have hlength := length_digits_pos x.coefficient
  have hexponent : x.exponent = x.scale + (digits x.coefficient).length - 1 := rfl
  have hzeros : (x.exponent + 1).toNat - (digits x.coefficient).length = x.scale.toNat := by omega
  unfold plain
  dsimp only
  rw [if_neg (by omega), hst, placePoint_whole (by omega), hzeros]

/-- A decimal with digits behind the point: there are as many as the scale says. -/
theorem plain_pointed (st : Style) (hscale : x.scale < 0) :
    ∃ whole fraction, st.plain x = whole ++ '.' :: fraction ∧
      (∀ c ∈ whole ++ fraction, c.isDigit = true) ∧ fraction.length = (-x.scale).toNat ∧
        ofDigits (whole ++ fraction) = x.coefficient := by
  have hlength := length_digits_pos x.coefficient
  have hdigits : ∀ c ∈ digits x.coefficient, c.isDigit = true :=
    fun c hc => isDigit_of_mem_digits hc
  have hexponent : x.exponent = x.scale + (digits x.coefficient).length - 1 := rfl
  unfold plain
  dsimp only
  split_ifs with hneg
  · refine ⟨['0'], List.replicate (-x.exponent - 1).toNat '0' ++ digits x.coefficient, rfl, ?_,
      ?_, ?_⟩
    · intro c hc
      rcases List.mem_append.mp hc with hzero | hfraction
      · exact isDigit_of_mem_zeros (k := 1) hzero
      · rcases List.mem_append.mp hfraction with hzero | hdigit
        · exact isDigit_of_mem_zeros hzero
        · exact hdigits c hdigit
    · rw [List.length_append, List.length_replicate]
      omega
    · rw [ofDigits_append, ofDigits_append, ofDigits_zeros, ofDigits_digits]
      have hzero : ofDigits ['0'] = 0 := rfl
      rw [hzero, Nat.zero_mul, Nat.zero_mul, Nat.zero_add, Nat.zero_add]
  · have hplace : (x.exponent + 1).toNat < (digits x.coefficient).length := by omega
    refine ⟨(digits x.coefficient).take (x.exponent + 1).toNat,
      (digits x.coefficient).drop (x.exponent + 1).toNat, placePoint_pointed _ hplace, ?_, ?_, ?_⟩
    · rwa [List.take_append_drop]
    · rw [List.length_drop]
      omega
    · rw [List.take_append_drop, ofDigits_digits]

/-! ## Characters -/

theorem mem_placePoint (h : c ∈ placePoint false (digits k) n) : c.isDigit = true ∨ c = '.' := by
  rcases Nat.lt_or_ge n (digits k).length with hlt | hge
  · rw [placePoint_pointed _ hlt, List.mem_append, List.mem_cons] at h
    rcases h with hwhole | rfl | hfraction
    · exact .inl (isDigit_of_mem_digits (List.mem_of_mem_take hwhole))
    · exact .inr rfl
    · exact .inl (isDigit_of_mem_digits (List.mem_of_mem_drop hfraction))
  · rw [placePoint_whole hge, List.mem_append] at h
    rcases h with hwhole | hzero
    · exact .inl (isDigit_of_mem_digits hwhole)
    · exact .inl (isDigit_of_mem_zeros hzero)

theorem mem_plain (hst : st.pointed = false) (h : c ∈ st.plain x) : c.isDigit = true ∨ c = '.' := by
  unfold plain at h
  dsimp only at h
  split_ifs at h
  · rw [List.mem_cons, List.mem_cons, List.mem_append] at h
    rcases h with rfl | rfl | hzero | hdigit
    · exact .inl rfl
    · exact .inr rfl
    · exact .inl (isDigit_of_mem_zeros hzero)
    · exact .inl (isDigit_of_mem_digits hdigit)
  · rw [hst] at h
    exact mem_placePoint h

theorem mem_scientific (h : c ∈ st.scientific x) :
    c.isDigit = true ∨ c = '.' ∨ c = 'e' ∨ c = '+' ∨ c ∈ signedDigits x.exponent := by
  unfold scientific at h
  dsimp only at h
  rw [List.mem_append, List.mem_cons, List.mem_append] at h
  rcases h with hplace | rfl | hsign | hexponent
  · exact (mem_placePoint hplace).imp_right .inl
  · exact .inr (.inr (.inl rfl))
  · split_ifs at hsign
    · exact .inr (.inr (.inr (.inl (List.mem_singleton.mp hsign))))
    · cases hsign
  · exact .inr (.inr (.inr (.inr hexponent)))

end Style

end LineShell.Decimal
