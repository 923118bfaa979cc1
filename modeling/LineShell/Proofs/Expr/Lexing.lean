import LineShell.Proofs.Expr.Words
import LineShell.Proofs.Text.Runs

/-!
# Texts that spell tokens

How a text is cut into tokens, one step at a time, and texts that spell given tokens: where each
token has a spelling that ends in front of a blank (`Token.SpelledBy`), the spellings with blanks
between them are cut into just those tokens (`Token.exists_ofChars`).
-/

namespace LineShell

namespace Token

theorem ofChars_nil : ofChars [] = .ok [] := by
  unfold ofChars
  rfl

theorem ofChars_blank {c : Char} (hb : Text.isBlank c = true) (cs : List Char) :
    ofChars (c :: cs) = ofChars cs := by
  conv => lhs; unfold ofChars
  exact if_pos hb

theorem ofChars_lexeme {c : Char} {cs rest : List Char} {t : Token}
    (hb : Text.isBlank c = false) (h : lexeme c cs = .ok (t, rest)) :
    ofChars (c :: cs) = (ofChars rest).map (t :: ·) := by
  conv => lhs; unfold ofChars
  simp only [hb, Bool.false_eq_true, if_false]
  split
  · rename_i e he
    cases he.symm.trans h
  · rename_i t' rest' hok
    obtain ⟨rfl, rfl⟩ := Prod.mk.inj (Except.ok.inj (hok.symm.trans h))
    cases ofChars rest' <;> rfl

theorem lexeme_word {c : Char} (h : isWordStart c = true) (cs : List Char) :
    lexeme c cs = .ok (lexWord c cs) := by
  have hdigit : (c.isDigit || c == '.') = false := by
    rw [Bool.or_eq_false_iff, isDigit_of_isWordStart h, beq_eq_false_iff_ne]
    exact ⟨rfl, (by rintro rfl; cases h)⟩
  have hquote : (c == '\x27' || c == '\x22') = false := by
    rw [Bool.or_eq_false_iff, beq_eq_false_iff_ne, beq_eq_false_iff_ne]
    exact ⟨(by rintro rfl; cases h), (by rintro rfl; cases h)⟩
  rw [lexeme, hdigit, hquote, h]
  rfl

theorem ofChars_word_append {cs : List Char} {d : Char} (h : isWord cs = true)
    (hd : isWordChar d = false) (rest : List Char) :
    ofChars (cs ++ d :: rest) = (ofChars (d :: rest)).map (.word (String.ofList cs) :: ·) := by
  obtain ⟨c, ds, rfl, hc, hds⟩ := exists_cons_of_isWord h
  have hblank := isBlank_of_isWordChar (isWordChar_of_isWordStart hc)
  have hlex : lexeme c (ds ++ d :: rest) = .ok (.word (String.ofList (c :: ds)), d :: rest) := by
    rw [lexeme_word hc, lexWord, Text.takeWhile_run_cons hds hd, Text.dropWhile_run_cons hds hd]
  exact ofChars_lexeme hblank hlex

/-- The characters are cut off as the token where a blank stands behind them. -/
def SpelledBy (t : Token) (cs : List Char) : Prop :=
  ∃ c cs', cs = c :: cs' ∧ Text.isBlank c = false ∧
    ∀ rest, lexeme c (cs' ++ ' ' :: rest) = .ok (t, ' ' :: rest)

theorem ofChars_spelledBy {t : Token} {cs : List Char} (h : SpelledBy t cs) (rest : List Char) :
    ofChars (cs ++ ' ' :: rest) = (ofChars rest).map (t :: ·) := by
  obtain ⟨c, cs', rfl, hb, hlex⟩ := h
  rw [List.cons_append, ofChars_lexeme hb (hlex rest), ofChars_blank (by decide)]

/-- Tokens that have spellings are the tokens of a text. -/
theorem exists_ofChars {ts : List Token} (h : ∀ t ∈ ts, ∃ cs, SpelledBy t cs) :
    ∃ cs, ofChars cs = .ok ts := by
  induction ts with
  | nil => exact ⟨[], ofChars_nil⟩
  | cons t ts ih =>
      obtain ⟨⟨cs, hcs⟩, h⟩ := List.forall_mem_cons.mp h
      obtain ⟨rest, hrest⟩ := ih h
      exact ⟨cs ++ ' ' :: rest, by rw [ofChars_spelledBy hcs, hrest]; rfl⟩

/-- Some tokens and how they are spelled. -/
theorem exists_spelledBy {t : Token}
    (h : t ∈ [.integer 1, .plus, .minus, .star, .openParen, .closeParen, .equal, .word "and",
      .word "or"]) :
    ∃ cs, SpelledBy t cs := by
  simp only [List.mem_cons, List.not_mem_nil, or_false] at h
  rcases h with rfl | rfl | rfl | rfl | rfl | rfl | rfl | rfl | rfl
  · exact ⟨['1'], '1', [], rfl, by decide, fun _ => rfl⟩
  · exact ⟨['+'], '+', [], rfl, by decide, fun _ => rfl⟩
  · exact ⟨['-'], '-', [], rfl, by decide, fun _ => rfl⟩
  · exact ⟨['*'], '*', [], rfl, by decide, fun _ => rfl⟩
  · exact ⟨['('], '(', [], rfl, by decide, fun _ => rfl⟩
  · exact ⟨[')'], ')', [], rfl, by decide, fun _ => rfl⟩
  · exact ⟨['=', '='], '=', ['='], rfl, by decide, fun _ => rfl⟩
  · exact ⟨['a', 'n', 'd'], 'a', ['n', 'd'], rfl, by decide, fun _ => rfl⟩
  · exact ⟨['o', 'r'], 'o', ['r'], rfl, by decide, fun _ => rfl⟩

end Token

end LineShell
