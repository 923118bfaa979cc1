import LineShell.Proofs.Expr.Lexemes

/-!
# The character set of expressions

A line is only read as an expression if each of its characters may stand in one. The reader of
tokens knows nothing of that set and sorts characters by itself, inside and outside of quotes. The
two agree (`Token.ofChars_characters`). The characters of a lexeme are in the set, but for what
stands between quotes (`Token.Lexeme.permits_iff`), so a text that is made of lexemes is as good as
its literals. And a text that is not made of lexemes breaks off for one of three reasons, or at a
character outside the set (`Token.breaks_ofChars`).
-/

namespace LineShell

/-! ## Permitted characters -/

variable {c : Char} {cs : List Char}

/-- All characters may stand in an expression. -/
def Permitted (cs : List Char) : Prop := ∀ c ∈ cs, isExpressionChar c = true

theorem permitted_cons : Permitted (c :: cs) ↔ isExpressionChar c = true ∧ Permitted cs :=
  List.forall_mem_cons

theorem permitted_append {ds : List Char} :
    Permitted (cs ++ ds) ↔ Permitted cs ∧ Permitted ds := List.forall_mem_append

theorem looksLikeExpression_iff (hne : cs ≠ []) :
    looksLikeExpression cs = true ↔ Permitted cs := by
  simp [looksLikeExpression, Permitted, hne]

theorem isExpressionChar_of_isWordChar (h : isWordChar c = true) : isExpressionChar c = true := by
  simp [isExpressionChar, h]

theorem isExpressionChar_of_isBlank (h : Text.isBlank c = true) : isExpressionChar c = true := by
  simp [isExpressionChar, h]

theorem permitted_of_isWord (h : isWord cs = true) : Permitted cs :=
  fun c hc => isExpressionChar_of_isWordChar (isWordChar_of_mem h c hc)

theorem permitted_of_isDigit (h : ∀ c ∈ cs, c.isDigit = true) : Permitted cs :=
  fun c hc => isExpressionChar_of_isWordChar (isWordChar_of_isDigit (h c hc))

theorem permitted_of_isBlank (h : ∀ c ∈ cs, Text.isBlank c = true) : Permitted cs :=
  fun c hc => isExpressionChar_of_isBlank (h c hc)

/-- What begins no lexeme is outside the set. -/
theorem isExpressionChar_eq_false (hblank : Text.isBlank c = false) (hdigit : c.isDigit = false)
    (hstart : isWordStart c = false)
    (hsign : ".+-*/%()\x27\x22!=<>".toList.contains c = false) : isExpressionChar c = false := by
  have hword : isWordChar c = false := by
    rw [isWordStart, Bool.or_eq_false_iff] at hstart
    rw [isWordChar, Char.isAlphanum, hstart.1, hstart.2, hdigit]
    rfl
  rw [isExpressionChar, hword, hblank, hsign]
  rfl

namespace Token

variable {rest : List Char} {t : Token} {e : ParseError}

/-! ## Lexemes -/

theorem permitted_symbol (h : t.symbol? = some cs) : Permitted cs := by
  cases t <;> cases h <;> simp [Permitted] <;> decide

/-- Of all lexemes only a literal can hold characters that are not permitted. -/
theorem Lexeme.permits_iff (h : Lexeme t cs) :
    Permitted cs ↔ ∀ s, t = .text s → Permitted s.toList := by
  have hother : Permitted cs → (∀ s, t ≠ .text s) →
      (Permitted cs ↔ ∀ s, t = .text s → Permitted s.toList) :=
    fun hcs ht => ⟨fun _ s hs => absurd hs (ht s), fun _ => hcs⟩
  cases h with
  | word hw => exact hother (permitted_of_isWord hw) nofun
  | integer hwhole | large hwhole =>
      exact hother (permitted_of_isDigit (isDigit_of_isNumeral hwhole).2) nofun
  | pointed hwhole hfraction =>
      refine hother ?_ nofun
      rw [permitted_append, permitted_cons]
      exact ⟨permitted_of_isDigit hwhole, by decide, permitted_of_isDigit hfraction⟩
  | text hq =>
      have hquote : ∀ q : Char, q = '\x27' ∨ q = '\x22' → isExpressionChar q = true := by
        rintro q (rfl | rfl) <;> decide
      rw [List.cons_append, permitted_cons, permitted_append, permitted_cons]
      constructor
      · rintro ⟨-, hs, -⟩ s' hs'
        rwa [← Token.text.inj hs']
      · intro hs
        exact ⟨hquote _ hq, hs _ rfl, hquote _ hq, nofun⟩
  | symbol ht =>
      refine hother (permitted_symbol ht) ?_
      rintro s rfl
      cases ht

theorem Piece.permits_iff (p : Piece) :
    Permitted p.chars ↔ ∀ s, p.token = .text s → Permitted s.toList := by
  rw [Piece.chars, permitted_append, and_iff_left (permitted_of_isBlank p.isBlank)]
  exact p.isLexeme.permits_iff

theorem permitted_layOut {blanks : List Char} {pieces : List Piece}
    (hblanks : ∀ c ∈ blanks, Text.isBlank c = true) :
    Permitted (layOut blanks pieces) ↔
      ∀ s, .text s ∈ pieces.map Piece.token → Permitted s.toList := by
  rw [layOut, permitted_append, and_iff_right (permitted_of_isBlank hblanks)]
  have hpieces : Permitted (pieces.flatMap Piece.chars) ↔ ∀ p ∈ pieces, Permitted p.chars :=
    List.forall_mem_flatMap
  rw [hpieces]
  simp only [Piece.permits_iff, List.mem_map]
  constructor
  · rintro h s ⟨p, hp, hs⟩
    exact h p hp s hs
  · intro h p hp s hs
    exact h s ⟨p, hp, hs⟩

/-! ## Texts that are no tokens -/

/-- Why no lexeme can be cut off a text, though each of its characters may begin one. -/
def malformations : List ParseError := [.lonePoint, .unterminatedText, .assignment]

theorem lexNumber_error (h : lexNumber cs = .error e) : e = .lonePoint := by
  unfold lexNumber at h
  dsimp only at h
  split at h
  · split at h
    · exact (Except.error.inj h).symm
    · cases h
  · cases h

theorem lexText_error {q : Char} (h : lexText q cs = .error e) : e = .unterminatedText := by
  unfold lexText at h
  split at h
  · exact (Except.error.inj h).symm
  · cases h

/-- An operator breaks off at an equals sign that stands alone, or there is none. -/
theorem lexOperator_error (h : lexOperator c cs = .error e) :
    e = .assignment ∨
      e = .unexpectedCharacter c ∧ c ∉ ['+', '-', '*', '/', '%', '(', ')', '!', '=', '<', '>'] := by
  unfold lexOperator at h
  split at h <;> cases h
  · exact .inl rfl
  · refine .inr ⟨rfl, ?_⟩
    simp_all

/-- The classes of characters that begin a lexeme, with the blanks, are the whole set. -/
theorem lexeme_error (hblank : Text.isBlank c = false) (h : lexeme c cs = .error e) :
    e ∈ malformations ∨ e = .unexpectedCharacter c ∧ isExpressionChar c = false := by
  unfold lexeme at h
  split at h
  · exact .inl (by simp [malformations, lexNumber_error h])
  rename_i hnumber
  split at h
  · exact .inl (by simp [malformations, lexText_error h])
  rename_i hquote
  split at h
  · cases h
  rename_i hstart
  rcases lexOperator_error h with rfl | ⟨rfl, hsign⟩
  · exact .inl (by simp [malformations])
  · refine .inr ⟨rfl, ?_⟩
    simp only [Bool.not_eq_true, Bool.or_eq_false_iff, beq_eq_false_iff_ne] at hnumber hquote hstart
    refine isExpressionChar_eq_false hblank hnumber.1 hstart ?_
    simp_all

theorem breaks_ofChars (h : ofChars cs = .error e) :
    e ∈ malformations ∨ ∃ c ∈ cs, e = .unexpectedCharacter c ∧ isExpressionChar c = false := by
  fun_induction ofChars cs with
  | case1 => cases h
  | case2 c cs hc ih =>
      refine (ih h).imp_right ?_
      rintro ⟨d, hd, hbad⟩
      exact ⟨d, List.mem_cons_of_mem c hd, hbad⟩
  | case3 c cs hblank e' hlex =>
      cases h
      refine (lexeme_error (Bool.eq_false_iff.mpr hblank) hlex).imp_right ?_
      exact fun hbad => ⟨c, List.mem_cons_self, hbad⟩
  | case4 c cs hblank t rest hlex hlt e' hrest ih =>
      cases h
      refine (ih hrest).imp_right ?_
      rintro ⟨d, hd, hbad⟩
      exact ⟨d, List.mem_cons_of_mem c ((lexeme_suffix hlex).subset hd), hbad⟩
  | case5 => cases h

/-- The set of characters and the reader of tokens agree. A text of permitted characters is cut into
tokens or breaks off for one of three reasons, and never at a character. And a text that is cut into
tokens has permitted characters only just if its literals have. -/
theorem ofChars_characters (cs : List Char) :
    (looksLikeExpression cs = true →
      (∃ ts, ofChars cs = .ok ts) ∨
        ∃ e, ofChars cs = .error e ∧ (∀ c, e ≠ .unexpectedCharacter c) ∧
          e.detail ∈ ["unexpected '.'", "unterminated string literal",
            "assignment is not an expression"]) ∧
      ∀ ts, cs ≠ [] → ofChars cs = .ok ts →
        (looksLikeExpression cs = true ↔
          ∀ s, .text s ∈ ts → ∀ c ∈ s.toList, isExpressionChar c = true) := by
  constructor
  · intro hlooks
    have hne : cs ≠ [] := by
      rintro rfl
      cases hlooks
    have hcs : Permitted cs := (looksLikeExpression_iff hne).mp hlooks
    cases h : ofChars cs with
    | ok ts => exact .inl ⟨ts, rfl⟩
    | error e =>
        refine .inr ⟨e, rfl, ?_⟩
        rcases breaks_ofChars h with he | ⟨c, hc, -, hbad⟩
        · simp only [malformations, List.mem_cons, List.not_mem_nil, or_false] at he
          rcases he with rfl | rfl | rfl
          · exact ⟨nofun, .head _⟩
          · exact ⟨nofun, .tail _ (.head _)⟩
          · exact ⟨nofun, .tail _ (.tail _ (.head _))⟩
        · rw [hcs c hc] at hbad
          cases hbad
  · intro ts hne h
    obtain ⟨blanks, pieces, hblanks, rfl, rfl⟩ := exists_pieces h
    rw [looksLikeExpression_iff hne]
    exact permitted_layOut hblanks

/-- A no-break space is permitted, a literal with one character outside the set is not, and a lone
equals sign breaks off. -/
theorem ofChars_characters_samples :
    looksLikeExpression "1\u00a0< x".toList = true ∧
      looksLikeExpression "x == 'a;b'".toList = false ∧
      ((∃ ts, ofChars "x = 1".toList = .ok ts) ∨
        ∃ e, ofChars "x = 1".toList = .error e ∧ (∀ c, e ≠ .unexpectedCharacter c) ∧
          e.detail ∈ ["unexpected '.'", "unterminated string literal",
            "assignment is not an expression"]) ∧
      (looksLikeExpression "x == 'a;b'".toList = true ↔
        ∀ s : String, Token.text s ∈ [Token.word "x", .equal, .text "a;b"] →
          ∀ c ∈ s.toList, isExpressionChar c = true) := by
  refine ⟨by decide +kernel, by decide +kernel, (ofChars_characters _).1 (by decide +kernel), ?_⟩
  exact (ofChars_characters _).2 _ (by decide) (by decide +kernel)

end Token

end LineShell
