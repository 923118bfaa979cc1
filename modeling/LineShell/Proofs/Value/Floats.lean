import LineShell.Proofs.Decimal.Shortest
import LineShell.Proofs.Number.OfDecimal
import LineShell.Proofs.Text.Runs
import LineShell.Proofs.Value.Comparison
import LineShell.Proofs.Value.Literal
import Mathlib

/-!
# Floats read back

Which values are read back from their literal form as equal values (`ofText_literal_equals_iff`):
all that are not floats, and the floats that are shown without an exponent. These are read as
numbers that round to them, a whole number as an integer if it fits (`ofUnsigned?_plain`), because
the shortest decimal rounds to its float. A float with an exponent, or that is not finite, is read
as the text that it is shown as, because only digits and a point make a number
(`ofSigned?_eq_none`).
-/

namespace LineShell.Value

open Decimal Number Float.Model UnpackedFloat

variable {c : Char} {cs whole fraction : List Char} {negative : Bool}

/-! ## Numerals -/

theorem ofUnsigned?_pointed (negative : Bool) (hne : fraction ≠ [])
    (h : ∀ c ∈ whole ++ fraction, c.isDigit = true) :
    ofUnsigned? negative (whole ++ '.' :: fraction) = some (ofPointed negative whole fraction) := by
  rw [List.forall_mem_append] at h
  have hpoint : Char.isDigit '.' = false := rfl
  have hfraction : IsNumeral fraction = true := by simpa [IsNumeral, hne] using h.2
  rw [ofUnsigned?, Text.takeWhile_run_cons h.1 hpoint, Text.dropWhile_run_cons h.1 hpoint]
  exact if_pos ⟨rfl, hfraction⟩

theorem ofUnsigned?_eq_none (negative : Bool) (hc : c ∈ cs) (hdigit : c.isDigit = false)
    (hpoint : c ≠ '.') : ofUnsigned? negative cs = none := by
  unfold ofUnsigned?
  dsimp only
  cases hdrop : cs.dropWhile Char.isDigit with
  | nil =>
      rw [List.dropWhile_eq_nil_iff.mp hdrop c hc] at hdigit
      cases hdigit
  | cons d fraction =>
      dsimp only
      rw [if_neg]
      rintro ⟨rfl, hnumeral⟩
      rw [← List.takeWhile_append_dropWhile (p := Char.isDigit) (l := cs), hdrop, List.mem_append,
        List.mem_cons] at hc
      rcases hc with hwhole | rfl | hfraction
      · rw [List.mem_takeWhile_imp hwhole] at hdigit
        cases hdigit
      · exact hpoint rfl
      · rw [List.all_eq_true.mp ((Bool.and_eq_true _ _).mp hnumeral).2 c hfraction] at hdigit
        cases hdigit

/-- A text with another character than digits, a point and a sign is no number. -/
theorem ofSigned?_eq_none (hc : c ∈ cs) (hdigit : c.isDigit = false) (hpoint : c ≠ '.')
    (hminus : c ≠ '-') : ofSigned? cs = none := by
  unfold ofSigned?
  split
  · exact ofUnsigned?_eq_none true ((List.mem_cons.mp hc).resolve_left hminus) hdigit hpoint
  · exact ofUnsigned?_eq_none false hc hdigit hpoint

/-! ## Decimals read back -/

variable {m n : Nat} {e : Int} {hm : 0 < m} {x : Scientific} {y z : Float}

def signOf (negative : Bool) : Sign := if negative then .negative else .positive

theorem exists_signOf (s : Sign) : ∃ negative, s = signOf negative := by
  cases s with
  | positive => exact ⟨false, rfl⟩
  | negative => exact ⟨true, rfl⟩

theorem unpack_signed (negative : Bool) (h : y.toModel.unpack = .finite .positive m e hm) :
    (if negative then -y else y).toModel.unpack = .finite (signOf negative) m e hm := by
  cases negative with
  | false => exact h
  | true =>
      show UnpackedFloat.unpack Format.binary64
        (UnpackedFloat.pack Format.binary64 y.toModel.unpack.neg) = _
      rw [h]
      exact (canonical_of_unpack h).unpack_pack .negative hm

theorem unpack_ofInt (negative : Bool) (hn : n ≠ 0)
    (h : (Float.ofNat n).toModel.unpack = .finite .positive m e hm) :
    (Float.ofInt (if negative then -(n : Int) else n)).toModel.unpack =
      .finite (signOf negative) m e hm := by
  obtain ⟨k, rfl⟩ := Nat.exists_eq_succ_of_ne_zero hn
  cases negative with
  | false => exact h
  | true => exact unpack_signed true h

/-- The number that a numeral is read as rounds to the float that the numeral rounds to. -/
theorem ofNumeral_roundsTo (negative : Bool) (h : RoundsTo m e (ofDigits whole))
    (hc : Canonical m e) (he : -1074 < e) :
    ∃ y, (ofNumeral negative whole).float? = some y ∧
      y.toModel.unpack = .finite (signOf negative) m e hc.pos := by
  have hn : ofDigits whole ≠ 0 := ne_zero_of_roundsTo (b := 1) (by rwa [div_one]) hc.pos
  unfold ofNumeral
  dsimp only
  cases hi : ofInt? (if negative then -(ofDigits whole : Int) else ofDigits whole) with
  | some i =>
      have hi' := ofInt?_eq_some_iff.mp hi
      have hsmall : ofDigits whole < 2 ^ 64 := by
        have habs := natAbs_toInt_lt i
        rw [hi'] at habs
        split_ifs at habs <;> omega
      refine ⟨toFloat i, rfl, ?_⟩
      show (Float.ofInt i.toInt).toModel.unpack = _
      rw [hi', unpack_ofInt negative hn (unpack_ofNat_of_roundsTo h hc he hsmall)]
  | none =>
      refine ⟨_, rfl, unpack_signed negative ?_⟩
      unfold Decimal.toFloat
      rw [List.append_nil]
      exact unpack_ofScientific (k := 0) (by rwa [pow_zero, div_one]) hc he

/-- A decimal without an exponent is read as a number that rounds to the float it is written for. -/
theorem ofUnsigned?_plain (negative : Bool) (h : RoundsTo m e x.toRat) (hc : Canonical m e)
    (he : -1074 < e) :
    ∃ w y, ofUnsigned? negative (displayed.plain x) = some w ∧ w.float? = some y ∧
      y.toModel.unpack = .finite (signOf negative) m e hc.pos := by
  unfold Scientific.toRat at h
  rcases lt_or_ge x.scale 0 with hscale | hscale
  · obtain ⟨whole, fraction, hplain, hdigits, hlength, hvalue⟩ :=
      Style.plain_pointed displayed hscale
    have hne : fraction ≠ [] := by
      rintro rfl
      rw [List.length_nil] at hlength
      omega
    refine ⟨_, _, hplain ▸ ofUnsigned?_pointed negative hne hdigits, rfl, unpack_signed negative ?_⟩
    unfold Decimal.toFloat
    rw [hvalue, hlength]
    refine unpack_ofScientific ?_ hc he
    rwa [div_eq_mul_inv, ← zpow_natCast, ← zpow_neg, Int.toNat_of_nonneg (by omega), neg_neg]
  · have hplain : displayed.plain x = digits x.coefficient ++ List.replicate x.scale.toNat '0' :=
      Style.plain_whole rfl hscale
    have hdigits : ∀ c ∈ displayed.plain x, c.isDigit = true := by
      rw [hplain, List.forall_mem_append]
      exact ⟨fun c hc => isDigit_of_mem_digits hc, fun c hc => isDigit_of_mem_zeros hc⟩
    have hne : displayed.plain x ≠ [] := by
      rw [hplain]
      exact List.append_ne_nil_of_left_ne_nil (digits_ne_nil _) _
    have hvalue : (ofDigits (displayed.plain x) : ℚ) = x.coefficient * 10 ^ x.scale := by
      rw [hplain, ofDigits_append, ofDigits_digits, ofDigits_zeros, List.length_replicate,
        Nat.add_zero, Nat.cast_mul, Nat.cast_pow, ← zpow_natCast, Int.toNat_of_nonneg hscale]
      rfl
    obtain ⟨y, hy, hunpack⟩ := ofNumeral_roundsTo negative (hvalue ▸ h) hc he
    exact ⟨_, y, ofUnsigned?_numeral negative hne hdigits, hy, hunpack⟩

/-! ## What a float is shown as -/

theorem toList_literal_float (y : Float) : (Value.float y).literal.toList = displayed.chars y := by
  show (String.ofList (displayed.chars y)).toList = _
  rw [String.toList_ofList]

/-- A character that is not blank and begins no other literal form. -/
def opensNumber (c : Char) : Bool :=
  !Text.isBlank c && c != '\x27' && c != '\x22' && c != 'T' && c != 'F'

theorem opensNumber_iff : opensNumber c = true ↔
    Text.isBlank c = false ∧ c ≠ '\x27' ∧ c ≠ '\x22' ∧ c ≠ 'T' ∧ c ≠ 'F' := by
  simp [opensNumber, and_assoc]

theorem opensNumber_of_isDigit (h : c.isDigit = true) : opensNumber c = true := by
  rw [opensNumber_iff]
  refine ⟨isBlank_of_isWordChar (isWordChar_of_isDigit h), ?_, ?_, ?_, ?_⟩ <;>
    exact Text.ne_of_class h rfl

theorem opensNumber_of_mem_positive (h : c ∈ displayed.positive x) : opensNumber c = true := by
  unfold Style.positive at h
  split_ifs at h
  · rcases Style.mem_plain rfl h with hdigit | rfl
    · exact opensNumber_of_isDigit hdigit
    · decide
  · rcases Style.mem_scientific h with hdigit | rfl | rfl | rfl | hexponent
    · exact opensNumber_of_isDigit hdigit
    · decide
    · decide
    · decide
    · rcases mem_signedDigits hexponent with rfl | hdigit
      · decide
      · exact opensNumber_of_isDigit hdigit

theorem opensNumber_of_mem_chars (h : c ∈ displayed.chars y) : opensNumber c = true := by
  have hnan : "NaN".toList.all opensNumber = true := by decide
  have hinfinity : "Infinity".toList.all opensNumber = true := by decide
  have hnegative : "-Infinity".toList.all opensNumber = true := by decide
  unfold Style.chars at h
  split at h
  · exact List.all_eq_true.mp hnan c h
  · exact List.all_eq_true.mp hinfinity c h
  · exact List.all_eq_true.mp hnegative c h
  · obtain rfl := List.mem_singleton.mp h
    decide
  · obtain rfl := List.mem_singleton.mp h
    decide
  · exact opensNumber_of_mem_positive h
  · rcases List.mem_cons.mp h with rfl | hpositive
    · decide
    · exact opensNumber_of_mem_positive hpositive

/-- What a float is shown as is read as a number, or as it stands. -/
theorem ofText_literal_float (y : Float) :
    ofText (float y).literal =
      (ofSigned? (displayed.chars y)).getD (.text (float y).literal) := by
  have hopens {c : Char} (h : c ∈ displayed.chars y) :=
    opensNumber_iff.mp (opensNumber_of_mem_chars h)
  have htrimmed : Text.Trimmed (displayed.chars y) :=
    ⟨fun c hc => (hopens (List.mem_of_mem_head? hc)).1,
      fun c hc => (hopens (List.mem_of_getLast? hc)).1⟩
  have hunquote : unquote? (displayed.chars y) = none := by
    refine unquote?_eq_none fun c hc => ?_
    obtain ⟨-, hsingle, hdouble, -⟩ := hopens (List.mem_of_mem_head? hc)
    exact ⟨hsingle, hdouble⟩
  have htrue : displayed.chars y ≠ "True".toList := by
    intro heq
    have hmem : 'T' ∈ displayed.chars y := by
      rw [heq]
      exact List.mem_cons_self
    exact (hopens hmem).2.2.2.1 rfl
  have hfalse : displayed.chars y ≠ "False".toList := by
    intro heq
    have hmem : 'F' ∈ displayed.chars y := by
      rw [heq]
      exact List.mem_cons_self
    exact (hopens hmem).2.2.2.2 rfl
  rw [ofText, toList_literal_float, Text.trimChars_eq_self htrimmed, ofTrimmed, hunquote]
  dsimp only
  rw [if_neg htrue, if_neg hfalse, ← toList_literal_float, String.ofList_toList]

/-! ## Magnitudes -/

variable {s : Sign}

theorem isNaN_of_finite (h : y.toModel.unpack = .finite s m e hm) : y.isNaN = false := by
  show y.toModel.unpack.isNaN = false
  rw [h]
  rfl

theorem unpack_abs_of_finite (h : y.toModel.unpack = .finite s m e hm) :
    y.abs.toModel.unpack = .finite .positive m e hm := by
  rw [unpack_abs, h]
  rfl

theorem rank_of_positive (h : y.toModel.unpack = .finite .positive m e hm) :
    rank y = toLex (1, toLex (e, (m : ℤ))) := by
  rw [rank, h]
  rfl

theorem le_iff_of_positive {k : Nat} {f : Int} {hk : 0 < k}
    (hy : y.toModel.unpack = .finite .positive m e hm)
    (hz : z.toModel.unpack = .finite .positive k f hk) : y ≤ z ↔ toLex (e, m) ≤ toLex (f, k) := by
  rw [le_iff_rank_le (isNaN_of_finite hy) (isNaN_of_finite hz), rank_of_positive hy,
    rank_of_positive hz]
  simp [Prod.Lex.toLex_le_toLex]

theorem lt_iff_of_positive {k : Nat} {f : Int} {hk : 0 < k}
    (hy : y.toModel.unpack = .finite .positive m e hm)
    (hz : z.toModel.unpack = .finite .positive k f hk) : y < z ↔ ¬ toLex (f, k) ≤ toLex (e, m) := by
  rw [← le_iff_of_positive hz hy, lt_iff_rank_lt (isNaN_of_finite hy) (isNaN_of_finite hz),
    le_iff_rank_le (isNaN_of_finite hz) (isNaN_of_finite hy), not_le]

theorem unpack_least : (1e-6 : Float).toModel.unpack =
    .finite .positive 4722366482869645 (-72) (by decide) := rfl

theorem unpack_greatest : (1e21 : Float).toModel.unpack =
    .finite .positive 7629394531250000 17 (by decide) := rfl

/-- Without an exponent are written the magnitudes from `1e-6` on and below `1e21`. -/
theorem plain_iff (h : y.toModel.unpack = .finite s m e hm) :
    (displayed.leastPlain ≤ (shortest displayed.tie m e).exponent ∧
        (shortest displayed.tie m e).exponent ≤ displayed.greatestPlain) ↔
      1e-6 ≤ y.abs ∧ y.abs < 1e21 := by
  have hcanonical := canonical_of_unpack h
  have habs := unpack_abs_of_finite h
  have hlow := le_exponent_shortest_iff .up (k := -6) hcanonical
    (canonical_of_unpack unpack_least) (by decide +kernel)
  have hhigh := le_exponent_shortest_iff .up (k := 21) hcanonical
    (canonical_of_unpack unpack_greatest) (by decide +kernel)
  rw [le_iff_of_positive unpack_least habs, lt_iff_of_positive habs unpack_greatest, ← hlow,
    ← hhigh]
  show -6 ≤ (shortest .up m e).exponent ∧ (shortest .up m e).exponent ≤ 20 ↔ _
  omega

/-! ## Floats -/

theorem chars_of_finite (h : y.toModel.unpack = .finite (signOf negative) m e hm) :
    displayed.chars y =
      (if negative then ['-'] else []) ++ displayed.positive (shortest displayed.tie m e) := by
  unfold Style.chars
  rw [h]
  cases negative <;> rfl

theorem ofSigned?_signed (negative : Bool) (h : '-' ∉ cs) :
    ofSigned? ((if negative then ['-'] else []) ++ cs) = ofUnsigned? negative cs := by
  cases negative with
  | true => rfl
  | false =>
      refine ofSigned?_of_head fun c hc => ?_
      rintro rfl
      exact h (List.mem_of_mem_head? hc)

/-- A float is shown as a number that equals it. -/
def ReadsBack (y : Float) : Prop :=
  ∃ w x, ofSigned? (displayed.chars y) = some w ∧ w.float? = some x ∧ (x == y) = true

/-- A float is zero, or its magnitude is written without an exponent. -/
def InPlainRange (y : Float) : Prop := (y == 0.0) = true ∨ 1e-6 ≤ y.abs ∧ y.abs < 1e21

theorem beq_zero_iff : (y == 0.0) = true ↔ ∃ s, y.toModel.unpack = .zero s := by
  show (y.toModel.unpack.compare (.zero .positive) == some .eq) = true ↔ _
  rcases y.toModel.unpack with (_ | _) | _ | _ | ⟨_ | _, m, e, hm⟩ <;>
    simp [UnpackedFloat.compare]

theorem readsBack_of_zero (h : y.toModel.unpack = .zero s) : ReadsBack y := by
  have hchars : displayed.chars y = ['0'] := by
    unfold Style.chars
    rw [h]
    cases s <;> rfl
  have hequal : (toFloat 0 == y) = true := by
    show ((toFloat 0).toModel.unpack.compare y.toModel.unpack == some .eq) = true
    rw [h]
    rfl
  refine ⟨.integer 0, toFloat 0, ?_, rfl, hequal⟩
  rw [hchars]
  rfl

theorem readsBack_of_plain (h : y.toModel.unpack = .finite s m e hm)
    (hplain : 1e-6 ≤ y.abs ∧ y.abs < 1e21) : ReadsBack y := by
  have hcanonical := canonical_of_unpack h
  have hexponent : -72 ≤ e := by
    have hle := (le_iff_of_positive unpack_least (unpack_abs_of_finite h)).mp hplain.1
    rw [Prod.Lex.toLex_le_toLex] at hle
    omega
  have hshown : displayed.positive (shortest displayed.tie m e) =
      displayed.plain (shortest displayed.tie m e) := if_pos ((plain_iff h).mpr hplain)
  have hminus : '-' ∉ displayed.plain (shortest displayed.tie m e) := by
    intro hmem
    exact absurd (Style.mem_plain rfl hmem) (by decide)
  obtain ⟨negative, rfl⟩ := exists_signOf s
  obtain ⟨w, x, hw, hx, hunpack⟩ := ofUnsigned?_plain negative
    (roundsTo_shortest displayed.tie e hcanonical.pos hcanonical.lt) hcanonical (by omega)
  refine ⟨w, x, ?_, hx, ?_⟩
  · rw [chars_of_finite h, hshown, ofSigned?_signed negative hminus, hw]
  · rw [beq_iff_rank_eq (isNaN_of_finite hunpack) (isNaN_of_finite h), rank, rank, hunpack, h]

theorem ofSigned?_of_scientific (h : y.toModel.unpack = .finite s m e hm)
    (hplain : ¬ (1e-6 ≤ y.abs ∧ y.abs < 1e21)) : ofSigned? (displayed.chars y) = none := by
  have hshown : displayed.positive (shortest displayed.tie m e) =
      displayed.scientific (shortest displayed.tie m e) := if_neg (mt (plain_iff h).mp hplain)
  have hmark : 'e' ∈ displayed.scientific (shortest displayed.tie m e) :=
    List.mem_append_right _ List.mem_cons_self
  obtain ⟨negative, rfl⟩ := exists_signOf s
  refine ofSigned?_eq_none (c := 'e') ?_ rfl (by decide) (by decide)
  rw [chars_of_finite h, hshown]
  exact List.mem_append_right _ hmark

theorem readsBack_or_none (y : Float) :
    ReadsBack y ∧ InPlainRange y ∨ ofSigned? (displayed.chars y) = none ∧ ¬ InPlainRange y := by
  cases h : y.toModel.unpack with
  | zero s => exact .inl ⟨readsBack_of_zero h, .inl (beq_zero_iff.mpr ⟨s, h⟩)⟩
  | finite s m e hm =>
      by_cases hplain : 1e-6 ≤ y.abs ∧ y.abs < 1e21
      · exact .inl ⟨readsBack_of_plain h hplain, .inr hplain⟩
      · refine .inr ⟨ofSigned?_of_scientific h hplain, ?_⟩
        rintro (hzero | hrange)
        · obtain ⟨t, ht⟩ := beq_zero_iff.mp hzero
          cases h.symm.trans ht
        · exact hplain hrange
  | infinity s =>
      refine .inr ⟨ofSigned?_eq_none (c := 'y') ?_ rfl (by decide) (by decide), ?_⟩
      · unfold Style.chars
        rw [h]
        cases s <;> decide
      · rintro (hzero | ⟨-, hlt⟩)
        · obtain ⟨t, ht⟩ := beq_zero_iff.mp hzero
          cases h.symm.trans ht
        · rw [lt_iff_compare, unpack_abs, h] at hlt
          cases hlt
  | notANumber =>
      refine .inr ⟨ofSigned?_eq_none (c := 'N') ?_ rfl (by decide) (by decide), ?_⟩
      · unfold Style.chars
        rw [h]
        decide
      · rintro (hzero | ⟨-, hlt⟩)
        · obtain ⟨t, ht⟩ := beq_zero_iff.mp hzero
          cases h.symm.trans ht
        · rw [lt_iff_compare, unpack_abs, h] at hlt
          cases hlt

theorem equals_self {v : Value} (hfloat : v.kind ≠ .float) : v.equals v = true := by
  cases v with
  | text s => exact beq_self_eq_true s
  | integer n => exact (compare_wholes rfl rfl).2.trans (beq_self_eq_true n)
  | float y => exact absurd rfl hfloat
  | boolean b => cases b <;> rfl

/-- The literal form of a value is read as an equal value, unless the value is a float that is shown
with an exponent or is not finite: this is read as the text that it is shown as. -/
theorem ofText_literal_equals_iff (v : Value) :
    ((ofText v.literal).equals v = true ↔ ∀ x, v = .float x → InPlainRange x) ∧
      ((ofText v.literal).equals v = true ∨ ofText v.literal = .text v.literal) := by
  by_cases hkind : v.kind = .float
  · obtain ⟨y, rfl⟩ : ∃ y, v = .float y := by
      cases v with
      | float y => exact ⟨y, rfl⟩
      | _ => cases hkind
    rw [ofText_literal_float]
    rcases readsBack_or_none y with ⟨⟨w, x, hw, hx, hequal⟩, hrange⟩ | ⟨hnone, hrange⟩
    · have hequals : w.equals (.float y) = true := (compare_float_right hx).2.trans hequal
      rw [hw, Option.getD_some, hequals]
      exact ⟨iff_of_true rfl fun x hx => Value.float.inj hx ▸ hrange, .inl rfl⟩
    · rw [hnone, Option.getD_none]
      exact ⟨iff_of_false Bool.false_ne_true fun h => hrange (h y rfl), .inr rfl⟩
  · rw [ofText_literal hkind, equals_self hkind]
    refine ⟨iff_of_true rfl ?_, .inl rfl⟩
    rintro x rfl
    exact absurd rfl hkind

/-- A magnitude below `1e-6`. -/
theorem ofText_literal_small_ne :
    ofText (ofText "0.0000001").literal = .text "1e-7" ∧
      (ofText (ofText "0.0000001").literal).equals (ofText "0.0000001") = false := by
  decide +kernel

end LineShell.Value
