import LineShell.Expr.Lexer

/-!
# Words

The characters of words, none of which is blank.
-/

namespace LineShell

variable {c d : Char} {cs : List Char}

/-! ## Characters of words -/

theorem isWordChar_of_isWordStart (h : isWordStart c = true) : isWordChar c = true := by
  rw [isWordStart, Bool.or_eq_true] at h
  rw [isWordChar, Char.isAlphanum, Bool.or_eq_true, Bool.or_eq_true]
  exact h.imp_left Or.inl

theorem isWordChar_of_isDigit (h : c.isDigit = true) : isWordChar c = true := by
  rw [isWordChar, Char.isAlphanum, h, Bool.or_true, Bool.true_or]

theorem toNat_of_isWordChar (h : isWordChar c = true) :
    48 ≤ c.toNat ∧ c.toNat ≤ 57 ∨ 65 ≤ c.toNat ∧ c.toNat ≤ 90 ∨ c.toNat = 95 ∨
      97 ≤ c.toNat ∧ c.toNat ≤ 122 := by
  unfold isWordChar Char.isAlphanum Char.isAlpha Char.isUpper Char.isLower Char.isDigit at h
  simp only [Bool.or_eq_true, Bool.and_eq_true, decide_eq_true_eq, beq_iff_eq, ge_iff_le,
    UInt32.le_iff_toNat_le] at h
  rcases h with ((h | h) | h) | rfl
  · exact Or.inr (Or.inl h)
  · exact Or.inr (Or.inr (Or.inr h))
  · exact Or.inl h
  · exact Or.inr (Or.inr (Or.inl rfl))

theorem isDigit_of_isWordStart (h : isWordStart c = true) : c.isDigit = false := by
  rw [← Bool.not_eq_true]
  intro hd
  unfold isWordStart Char.isAlpha Char.isUpper Char.isLower at h
  unfold Char.isDigit at hd
  simp only [Bool.or_eq_true, Bool.and_eq_true, decide_eq_true_eq, beq_iff_eq, ge_iff_le,
    UInt32.le_iff_toNat_le] at h hd
  rcases h with (⟨h, -⟩ | ⟨h, -⟩) | rfl
  · exact absurd (Nat.le_trans h hd.2) (by decide)
  · exact absurd (Nat.le_trans h hd.2) (by decide)
  · exact absurd hd.2 (by decide)

theorem isBlank_of_isWordChar (h : isWordChar c = true) : Text.isBlank c = false := by
  have hn := toNat_of_isWordChar h
  simp only [Text.isBlank, Bool.or_eq_false_iff, Bool.and_eq_false_iff, decide_eq_false_iff_not,
    beq_eq_false_iff_ne]
  omega

theorem exists_cons_of_isWord (h : isWord cs = true) :
    ∃ c ds, cs = c :: ds ∧ isWordStart c = true ∧ ∀ d ∈ ds, isWordChar d = true := by
  cases cs with
  | nil => cases h
  | cons c ds =>
      obtain ⟨hc, hds⟩ := (Bool.and_eq_true _ _).mp h
      exact ⟨c, ds, rfl, hc, List.all_eq_true.mp hds⟩

theorem isWordChar_of_mem (h : isWord cs = true) : ∀ c ∈ cs, isWordChar c = true := by
  obtain ⟨c, ds, rfl, hc, hds⟩ := exists_cons_of_isWord h
  exact List.forall_mem_cons.mpr ⟨isWordChar_of_isWordStart hc, hds⟩

theorem trimmed_of_isWord (h : isWord cs = true) : Text.Trimmed cs :=
  ⟨fun c hc => isBlank_of_isWordChar (isWordChar_of_mem h c (List.mem_of_mem_head? hc)),
    fun c hc => isBlank_of_isWordChar (isWordChar_of_mem h c (List.mem_of_getLast? hc))⟩

end LineShell
