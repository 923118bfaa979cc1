import LineShell.Proofs.Expr.Words
import LineShell.Proofs.Text.Trimming
import LineShell.Value.OfText

/-!
# Literals read back

The literal form of a value is a text that reads as this value again (`Value.ofText_literal`). A
text is read back whatever it holds, quotes included, because only the outermost quotes are taken
off; an integer is read back from its digits. Floats are left out here: their digits are a matter of
their own.

No value has a line feed in its literal form if it was read from a text without one.
-/

namespace LineShell.Value

/-! ## Text in quotes -/

variable {c q : Char} {cs inner : List Char}

theorem unquote?_quoted (hq : q = '\x27' ∨ q = '\x22') (cs : List Char) :
    unquote? (q :: (cs ++ [q])) = some cs := by
  have hlast : (cs ++ [q]).getLast? = some q := List.getLast?_concat
  rw [unquote?, if_pos ⟨hq, hlast⟩, List.dropLast_concat]

theorem unquote?_eq_none (h : ∀ c ∈ cs.head?, c ≠ '\x27' ∧ c ≠ '\x22') : unquote? cs = none := by
  cases cs with
  | nil => rfl
  | cons c cs =>
      obtain ⟨hsingle, hdouble⟩ := h c rfl
      rw [unquote?, if_neg]
      exact fun hq => hq.1.elim hsingle hdouble

theorem mem_of_unquote? (h : unquote? cs = some inner) (hc : c ∈ inner) : c ∈ cs := by
  cases cs with
  | nil => cases h
  | cons q cs =>
      rw [unquote?] at h
      split at h
      · obtain rfl := Option.some.inj h
        exact List.mem_cons_of_mem _ ((List.dropLast_subset cs) hc)
      · cases h

/-! ## Digits -/

theorem signedDigits_ne_nil (n : Int) : Decimal.signedDigits n ≠ [] := by
  rw [Decimal.signedDigits]
  split
  · exact List.cons_ne_nil _ _
  · exact Decimal.digits_ne_nil _

theorem mem_signedDigits {n : Int} (h : c ∈ Decimal.signedDigits n) :
    c = '-' ∨ c.isDigit = true := by
  rw [Decimal.signedDigits] at h
  split at h
  · exact (List.mem_cons.mp h).imp_right Decimal.isDigit_of_mem_digits
  · exact Or.inr (Decimal.isDigit_of_mem_digits h)

theorem ofUnsigned?_numeral (negative : Bool) (hne : cs ≠ []) (h : ∀ c ∈ cs, c.isDigit = true) :
    ofUnsigned? negative cs = some (ofNumeral negative cs) := by
  rw [ofUnsigned?, List.takeWhile_eq_self_iff.mpr h, List.dropWhile_eq_nil_iff.mpr h]
  exact if_neg (mt List.isEmpty_iff.mp hne)

theorem ofUnsigned?_digits (negative : Bool) (n : Nat) :
    ofUnsigned? negative (Decimal.digits n) = some (ofNumeral negative (Decimal.digits n)) :=
  ofUnsigned?_numeral negative (Decimal.digits_ne_nil n)
    fun _ hc => Decimal.isDigit_of_mem_digits hc

theorem ofNumeral_digits {negative : Bool} {m : Nat} {n : Int64}
    (h : (if negative then -(m : Int) else m) = n.toInt) :
    ofNumeral negative (Decimal.digits m) = .integer n := by
  rw [ofNumeral]
  dsimp only
  rw [Decimal.ofDigits_digits, h, Number.ofInt?_toInt]

theorem ofSigned?_of_head (h : ∀ c ∈ cs.head?, c ≠ '-') : ofSigned? cs = ofUnsigned? false cs := by
  unfold ofSigned?
  split
  · exact absurd rfl (h '-' rfl)
  · rfl

theorem ofSigned?_signedDigits (n : Int64) :
    ofSigned? (Decimal.signedDigits n.toInt) = some (.integer n) := by
  rw [Decimal.signedDigits]
  by_cases hn : n.toInt < 0
  · have habs : (if true then -(n.toInt.natAbs : Int) else n.toInt.natAbs) = n.toInt := by
      rw [if_pos rfl]
      omega
    rw [if_pos hn, ofSigned?, ofUnsigned?_digits, ofNumeral_digits habs]
  · have habs : (if false then -(n.toInt.natAbs : Int) else n.toInt.natAbs) = n.toInt := by
      rw [if_neg nofun]
      omega
    have hhead : ∀ c ∈ (Decimal.digits n.toInt.natAbs).head?, c ≠ '-' := by
      rintro c hc rfl
      have hdigit := Decimal.isDigit_of_mem_digits (List.mem_of_mem_head? hc)
      cases hdigit
    rw [if_neg hn, ofSigned?_of_head hhead, ofUnsigned?_digits, ofNumeral_digits habs]

theorem ofTrimmed_signedDigits (n : Int64) :
    ofTrimmed (Decimal.signedDigits n.toInt) = .integer n := by
  have hsign : ∀ c ∈ (Decimal.signedDigits n.toInt), c = '-' ∨ c.isDigit = true :=
    fun c hc => mem_signedDigits hc
  have hunquote : unquote? (Decimal.signedDigits n.toInt) = none := by
    refine unquote?_eq_none fun c hc => ?_
    have hc' := hsign c (List.mem_of_mem_head? hc)
    constructor
    · rintro rfl
      exact absurd hc' (by decide)
    · rintro rfl
      exact absurd hc' (by decide)
  have htrue : Decimal.signedDigits n.toInt ≠ "True".toList := by
    intro heq
    exact absurd (hsign 'T' (heq ▸ by decide)) (by decide)
  have hfalse : Decimal.signedDigits n.toInt ≠ "False".toList := by
    intro heq
    exact absurd (hsign 'F' (heq ▸ by decide)) (by decide)
  rw [ofTrimmed, hunquote]
  dsimp only
  rw [if_neg htrue, if_neg hfalse, ofSigned?_signedDigits, Option.getD_some]

/-! ## Literals -/

variable {v : Value} {s : String}

theorem toList_literal_text (s : String) :
    (Value.text s).literal.toList = '\x27' :: (s.toList ++ ['\x27']) := by
  rw [literal, String.toList_append, String.toList_append]
  rfl

theorem toList_literal_integer (n : Int64) :
    (Value.integer n).literal.toList = Decimal.signedDigits n.toInt := by
  rw [literal, display, String.toList_ofList]
  nofun

/-- A literal form is not empty, and no blank stands at its ends. -/
theorem trimmed_literal (hfloat : v.kind ≠ .float) :
    v.literal.toList ≠ [] ∧ Text.Trimmed v.literal.toList := by
  cases v with
  | text s =>
      rw [toList_literal_text]
      exact ⟨List.cons_ne_nil _ _, Text.trimmed_between (by decide) (by decide) s.toList⟩
  | integer n =>
      have hblank : ∀ c ∈ Decimal.signedDigits n.toInt, Text.isBlank c = false := by
        intro c hc
        rcases mem_signedDigits hc with rfl | hdigit
        · decide
        · exact isBlank_of_isWordChar (isWordChar_of_isDigit hdigit)
      rw [toList_literal_integer]
      exact ⟨signedDigits_ne_nil _, fun c hc => hblank c (List.mem_of_mem_head? hc),
        fun c hc => hblank c (List.mem_of_getLast? hc)⟩
  | float x => exact absurd rfl hfloat
  | boolean b => cases b <;> exact ⟨by decide, trimmed_of_isWord (by decide)⟩

/-- What is shown of a value is read as the value. -/
theorem ofText_literal (hfloat : v.kind ≠ .float) : ofText v.literal = v := by
  rw [ofText, Text.trimChars_eq_self (trimmed_literal hfloat).2]
  cases v with
  | text s =>
      rw [toList_literal_text, ofTrimmed, unquote?_quoted (Or.inl rfl)]
      dsimp only
      rw [String.ofList_toList]
  | integer n => rw [toList_literal_integer, ofTrimmed_signedDigits]
  | float x => exact absurd rfl hfloat
  | boolean b => cases b <;> decide

/-! ## Line feeds -/

/-- A value that is shown on one line. -/
def OneLine : Value → Prop
  | .text s => '\n' ∉ s.toList
  | _ => True

theorem oneLine_ofUnsigned? {negative : Bool} (h : ofUnsigned? negative cs = some v) :
    v.OneLine := by
  unfold ofUnsigned? at h
  dsimp only at h
  split at h
  · split at h
    · cases h
    · obtain rfl := Option.some.inj h
      unfold ofNumeral
      dsimp only
      split <;> trivial
  · split at h
    · obtain rfl := Option.some.inj h
      trivial
    · cases h

theorem oneLine_ofText (h : '\n' ∉ s.toList) : (ofText s).OneLine := by
  have hcs : '\n' ∉ Text.trimChars s.toList := mt Text.mem_of_mem_trimChars h
  rw [ofText]
  generalize Text.trimChars s.toList = cs at hcs
  unfold ofTrimmed
  split
  · rename_i inner hinner
    rw [OneLine, String.toList_ofList]
    exact fun hmem => hcs (mem_of_unquote? hinner hmem)
  · split
    · trivial
    · split
      · trivial
      · rcases hsigned : ofSigned? cs with _ | v
        · rw [Option.getD_none, OneLine, String.toList_ofList]
          exact hcs
        · rw [Option.getD_some]
          unfold ofSigned? at hsigned
          split at hsigned <;> exact oneLine_ofUnsigned? hsigned

theorem feed_notMem_literal (hfloat : v.kind ≠ .float) (h : v.OneLine) :
    '\n' ∉ v.literal.toList := by
  cases v with
  | text s =>
      have hs : '\n' ∉ s.toList := h
      rw [toList_literal_text]
      simpa using hs
  | integer n =>
      rw [toList_literal_integer]
      intro hmem
      exact absurd (mem_signedDigits hmem) (by decide)
  | float x => exact absurd rfl hfloat
  | boolean b => cases b <;> decide

end LineShell.Value
