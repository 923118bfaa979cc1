import LineShell.Proofs.Expr.Lexing

/-!
# Texts made of lexemes

Which characters are a lexeme of which token (`Token.Lexeme`), and that tokens are cut off a text
just where it is made of their lexemes. Two facts about a single lexeme carry this. A lexeme in
front of a blank, or at the end, is cut off as its token (`Token.lexeme_append`): each kind of
lexeme ends where a character comes that cannot go on with it, and a blank goes on with none. And
what is cut off as a token is a lexeme of it (`Token.exists_lexeme`). A text is then laid out as
pieces, each a lexeme and the blanks behind it (`Token.Piece`).
-/

namespace LineShell.Token

/-! ## Lexemes -/

/-- How an operator or a bracket is written. -/
def symbol? : Token → Option (List Char)
  | .plus => some ['+']
  | .minus => some ['-']
  | .star => some ['*']
  | .slash => some ['/']
  | .percent => some ['%']
  | .bang => some ['!']
  | .openParen => some ['(']
  | .closeParen => some [')']
  | .equal => some ['=', '=']
  | .notEqual => some ['!', '=']
  | .less => some ['<']
  | .lessEqual => some ['<', '=']
  | .greater => some ['>']
  | .greaterEqual => some ['>', '=']
  | .integer _ | .float _ | .text _ | .word _ => none

/-- The characters are a lexeme of the token. -/
inductive Lexeme : Token → List Char → Prop
  | word {w : String} : isWord w.toList = true → Lexeme (.word w) w.toList
  /-- A numeral that fits. -/
  | integer {n : Int64} {whole : List Char} :
      Decimal.IsNumeral whole = true → n.toInt = Decimal.ofDigits whole → Lexeme (.integer n) whole
  /-- A numeral that is too large for an integer. -/
  | large {whole : List Char} :
      Decimal.IsNumeral whole = true → Int64.maxValue.toInt < Decimal.ofDigits whole →
        Lexeme (.float (Decimal.toFloat whole [])) whole
  /-- A numeral with a point, on one side of which there may be no digits. -/
  | pointed {whole fraction : List Char} :
      (∀ c ∈ whole, c.isDigit = true) → (∀ c ∈ fraction, c.isDigit = true) →
        whole ++ fraction ≠ [] →
        Lexeme (.float (Decimal.toFloat whole fraction)) (whole ++ '.' :: fraction)
  /-- A text in quotes that it does not hold itself. -/
  | text {s : String} {q : Char} :
      q = '\x27' ∨ q = '\x22' → q ∉ s.toList → Lexeme (.text s) (q :: s.toList ++ [q])
  | symbol {t : Token} {cs : List Char} : t.symbol? = some cs → Lexeme t cs

variable {c : Char} {cs rest whole fraction : List Char} {t : Token}

/-! ## A lexeme is cut off as its token -/

theorem ofNumeral_eq_integer {n : Int64} (h : n.toInt = Decimal.ofDigits whole) :
    ofNumeral whole = .integer n := by
  rw [ofNumeral, ← h, Number.ofInt?_toInt]

theorem ofNumeral_eq_float (h : Int64.maxValue.toInt < Decimal.ofDigits whole) :
    ofNumeral whole = .float (Decimal.toFloat whole []) := by
  rw [ofNumeral, Number.ofInt?_eq_none_iff.mpr (Or.inr h)]

theorem lexNumber_numeral (hwhole : ∀ c ∈ whole, c.isDigit = true)
    (hrest : ∀ c ∈ rest.head?, c.isDigit = false ∧ c ≠ '.') :
    lexNumber (whole ++ rest) = .ok (ofNumeral whole, rest) := by
  have hstop : ∀ c ∈ rest.head?, c.isDigit = false := fun c hc => (hrest c hc).1
  rw [lexNumber, Text.takeWhile_run hwhole hstop, Text.dropWhile_run hwhole hstop]
  dsimp only
  split
  · exact absurd rfl (hrest '.' rfl).2
  · rfl

theorem lexNumber_pointed (hwhole : ∀ c ∈ whole, c.isDigit = true)
    (hfraction : ∀ c ∈ fraction, c.isDigit = true) (hne : whole ++ fraction ≠ [])
    (hrest : ∀ c ∈ rest.head?, c.isDigit = false) :
    lexNumber (whole ++ '.' :: (fraction ++ rest)) =
      .ok (.float (Decimal.toFloat whole fraction), rest) := by
  have hpoint : Char.isDigit '.' = false := rfl
  have hdigits : (whole.isEmpty && fraction.isEmpty) = false := by
    rw [Bool.eq_false_iff]
    simpa using hne
  rw [lexNumber, Text.takeWhile_run_cons hwhole hpoint, Text.dropWhile_run_cons hwhole hpoint]
  show (if whole.isEmpty && ((fraction ++ rest).takeWhile Char.isDigit).isEmpty then _ else _) = _
  rw [Text.takeWhile_run hfraction hrest, Text.dropWhile_run hfraction hrest, hdigits]
  rfl

theorem lexeme_number (h : (c.isDigit || c == '.') = true) (cs : List Char) :
    lexeme c cs = lexNumber (c :: cs) := if_pos h

theorem lexeme_quote (h : c = '\x27' ∨ c = '\x22') (cs : List Char) :
    lexeme c cs = lexText c cs := by
  rcases h with rfl | rfl <;> rfl

theorem isDigit_of_isNumeral (h : Decimal.IsNumeral whole = true) :
    whole ≠ [] ∧ ∀ c ∈ whole, c.isDigit = true := by
  simpa [Decimal.IsNumeral] using h

/-- A numeral without a point is cut off where neither a digit nor a point follows. -/
theorem lexeme_numeral (hwhole : Decimal.IsNumeral whole = true)
    (hrest : ∀ c ∈ rest.head?, c.isDigit = false ∧ c ≠ '.') :
    ∃ c cs, whole = c :: cs ∧ Text.isBlank c = false ∧
      lexeme c (cs ++ rest) = .ok (ofNumeral whole, rest) := by
  obtain ⟨hne, hdigits⟩ := isDigit_of_isNumeral hwhole
  obtain ⟨c, cs, rfl⟩ := List.exists_cons_of_ne_nil hne
  have hc : c.isDigit = true := hdigits c List.mem_cons_self
  refine ⟨c, cs, rfl, isBlank_of_isWordChar (isWordChar_of_isDigit hc), ?_⟩
  rw [lexeme_number (by rw [hc, Bool.true_or]), ← List.cons_append]
  exact lexNumber_numeral hdigits hrest

/-- A blank goes on with no lexeme. -/
theorem not_goesOn_of_isBlank (h : Text.isBlank c = true) :
    isWordChar c = false ∧ c.isDigit = false ∧ c ≠ '.' ∧ c ≠ '=' := by
  have hword : isWordChar c = false := by
    rw [Bool.eq_false_iff]
    intro hword
    rw [isBlank_of_isWordChar hword] at h
    cases h
  have hdigit : c.isDigit = false := by
    rw [Bool.eq_false_iff]
    intro hdigit
    rw [isWordChar_of_isDigit hdigit] at hword
    cases hword
  refine ⟨hword, hdigit, ?_, ?_⟩ <;> rintro rfl <;> cases h

theorem lexOperator_of_ne_equals (h : ∀ d ∈ rest.head?, d ≠ '=') :
    lexOperator '!' rest = .ok (.bang, rest) ∧ lexOperator '<' rest = .ok (.less, rest) ∧
      lexOperator '>' rest = .ok (.greater, rest) := by
  cases rest with
  | nil => exact ⟨rfl, rfl, rfl⟩
  | cons d rest =>
      have hd : d ≠ '=' := h d rfl
      simp [lexOperator, hd]

/-- A lexeme is cut off as its token where a blank or nothing follows. -/
theorem lexeme_append (h : Lexeme t cs) (hrest : ∀ c ∈ rest.head?, Text.isBlank c = true) :
    ∃ c cs', cs = c :: cs' ∧ Text.isBlank c = false ∧ lexeme c (cs' ++ rest) = .ok (t, rest) := by
  have hstop : ∀ c ∈ rest.head?, isWordChar c = false ∧ c.isDigit = false ∧ c ≠ '.' ∧ c ≠ '=' :=
    fun c hc => not_goesOn_of_isBlank (hrest c hc)
  have hnumeral : ∀ c ∈ rest.head?, c.isDigit = false ∧ c ≠ '.' :=
    fun c hc => ⟨(hstop c hc).2.1, (hstop c hc).2.2.1⟩
  cases h with
  | @word w hw =>
      obtain ⟨c, cs', hcs, hc, hcs'⟩ := exists_cons_of_isWord hw
      have hend : ∀ c ∈ rest.head?, isWordChar c = false := fun c hc => (hstop c hc).1
      refine ⟨c, cs', hcs, isBlank_of_isWordChar (isWordChar_of_isWordStart hc), ?_⟩
      rw [lexeme_word hc, lexWord, Text.takeWhile_run hcs' hend, Text.dropWhile_run hcs' hend,
        ← hcs, String.ofList_toList]
  | integer hwhole hn =>
      rw [← ofNumeral_eq_integer hn]
      exact lexeme_numeral hwhole hnumeral
  | large hwhole hlarge =>
      rw [← ofNumeral_eq_float hlarge]
      exact lexeme_numeral hwhole hnumeral
  | @pointed whole fraction hwhole hfraction hne =>
      have hlex := lexNumber_pointed hwhole hfraction hne fun c hc => (hstop c hc).2.1
      cases whole with
      | nil =>
          refine ⟨'.', fraction, rfl, rfl, ?_⟩
          rw [lexeme_number rfl]
          exact hlex
      | cons c whole =>
          have hc : c.isDigit = true := hwhole c List.mem_cons_self
          refine ⟨c, whole ++ '.' :: fraction, rfl,
            isBlank_of_isWordChar (isWordChar_of_isDigit hc), ?_⟩
          rw [lexeme_number (by rw [hc, Bool.true_or]), List.append_assoc]
          exact hlex
  | @text s q hq hs =>
      have hrun : ∀ c ∈ s.toList, (c != q) = true := by
        intro c hc
        rw [bne_iff_ne]
        rintro rfl
        exact hs hc
      have hend : (q != q) = false := bne_self_eq_false q
      refine ⟨q, s.toList ++ [q], rfl, (by rcases hq with rfl | rfl <;> rfl), ?_⟩
      rw [lexeme_quote hq, List.append_assoc, List.singleton_append, lexText,
        Text.takeWhile_run_cons hrun hend, Text.dropWhile_run_cons hrun hend, String.ofList_toList]
  | symbol ht =>
      obtain ⟨hbang, hless, hgreater⟩ :=
        lexOperator_of_ne_equals fun c hc => (hstop c hc).2.2.2
      cases t with
      | integer | float | text | word => cases ht
      | bang => cases ht; exact ⟨_, _, rfl, rfl, hbang⟩
      | less => cases ht; exact ⟨_, _, rfl, rfl, hless⟩
      | greater => cases ht; exact ⟨_, _, rfl, rfl, hgreater⟩
      | _ => cases ht; exact ⟨_, _, rfl, rfl, rfl⟩

/-! ## What is cut off is a lexeme -/

theorem Lexeme.ofNumeral (h : Decimal.IsNumeral whole = true) :
    Lexeme (ofNumeral whole) whole := by
  cases hn : Number.ofInt? (Decimal.ofDigits whole) with
  | some n =>
      have hn' := Number.ofInt?_eq_some_iff.mp hn
      rw [ofNumeral_eq_integer hn']
      exact .integer h hn'
  | none =>
      have hlow : Int64.minValue.toInt = -9223372036854775808 := rfl
      have hlarge : Int64.maxValue.toInt < Decimal.ofDigits whole := by
        have hout := Number.ofInt?_eq_none_iff.mp hn
        omega
      rw [ofNumeral_eq_float hlarge]
      exact .large h hlarge

theorem exists_lexeme_of_lexNumber (hc : (c.isDigit || c == '.') = true)
    (h : lexNumber (c :: cs) = .ok (t, rest)) : ∃ l, Lexeme t l ∧ c :: cs = l ++ rest := by
  have hsplit := List.takeWhile_append_dropWhile (p := Char.isDigit) (l := c :: cs)
  have hwhole : ∀ d ∈ (c :: cs).takeWhile Char.isDigit, d.isDigit = true :=
    fun d hd => List.mem_takeWhile_imp hd
  unfold lexNumber at h
  dsimp only at h
  split at h
  · rename_i behind hbehind
    rw [hbehind] at hsplit
    split at h
    · cases h
    · rename_i hdigits
      obtain ⟨rfl, rfl⟩ := Prod.mk.inj (Except.ok.inj h)
      refine ⟨_, .pointed hwhole (fun d hd => List.mem_takeWhile_imp hd)
        (by simpa using hdigits), ?_⟩
      rw [List.append_assoc, List.cons_append, List.takeWhile_append_dropWhile, hsplit]
  · rename_i hnopoint
    obtain ⟨rfl, rfl⟩ := Prod.mk.inj (Except.ok.inj h)
    have hdigit : c.isDigit = true := by
      by_contra hdigit
      have hpoint : c = '.' := by simpa [hdigit] using hc
      exact hnopoint cs (by rw [List.dropWhile_cons_of_neg hdigit, hpoint])
    have hnumeral : Decimal.IsNumeral ((c :: cs).takeWhile Char.isDigit) = true := by
      rw [Decimal.IsNumeral, Bool.and_eq_true]
      exact ⟨by rw [List.takeWhile_cons_of_pos hdigit]; rfl, List.all_eq_true.mpr hwhole⟩
    exact ⟨_, .ofNumeral hnumeral, hsplit.symm⟩

theorem exists_lexeme_of_lexText {q : Char} (hq : q = '\x27' ∨ q = '\x22')
    (h : lexText q cs = .ok (t, rest)) : ∃ l, Lexeme t l ∧ q :: cs = l ++ rest := by
  have hsplit := List.takeWhile_append_dropWhile (p := (· != q)) (l := cs)
  unfold lexText at h
  split at h
  · cases h
  · rename_i q' behind hbehind
    obtain ⟨rfl, rfl⟩ := Prod.mk.inj (Except.ok.inj h)
    have hq' : q' = q := by
      have hstop := List.head?_dropWhile_not (· != q) cs
      simpa [hbehind] using hstop
    have hmem : q ∉ (String.ofList (cs.takeWhile (· != q))).toList := by
      rw [String.toList_ofList]
      intro hmem
      simpa using List.mem_takeWhile_imp hmem
    refine ⟨_, .text hq hmem, ?_⟩
    rw [hbehind, hq'] at hsplit
    rw [String.toList_ofList, List.append_assoc, List.cons_append, List.singleton_append, hsplit]

theorem exists_lexeme_of_lexOperator (h : lexOperator c cs = .ok (t, rest)) :
    ∃ l, Lexeme t l ∧ c :: cs = l ++ rest := by
  unfold lexOperator at h
  split at h <;> simp only [Except.ok.injEq, Prod.mk.injEq, reduceCtorEq] at h <;>
    obtain ⟨rfl, rfl⟩ := h <;> exact ⟨_, .symbol rfl, rfl⟩

/-- What is cut off as a token is a lexeme of it. -/
theorem exists_lexeme (h : lexeme c cs = .ok (t, rest)) :
    ∃ l, Lexeme t l ∧ c :: cs = l ++ rest := by
  unfold lexeme at h
  split at h
  · rename_i hc
    exact exists_lexeme_of_lexNumber hc h
  split at h
  · rename_i hq
    exact exists_lexeme_of_lexText (by simpa using hq) h
  split at h
  · rename_i hc
    obtain ⟨rfl, rfl⟩ := Prod.mk.inj (Except.ok.inj h)
    have hword : isWord (String.ofList (c :: cs.takeWhile isWordChar)).toList = true := by
      rw [String.toList_ofList, isWord, hc, Bool.true_and, List.all_eq_true]
      exact fun d hd => List.mem_takeWhile_imp hd
    refine ⟨_, .word hword, ?_⟩
    rw [String.toList_ofList, List.cons_append, List.takeWhile_append_dropWhile]
  · exact exists_lexeme_of_lexOperator h

/-! ## Texts -/

/-- A lexeme in a text, the token that it is, and the blanks behind it. -/
structure Piece where
  token : Token
  lexeme : List Char
  blanks : List Char
  isLexeme : Lexeme token lexeme
  isBlank : ∀ c ∈ blanks, Text.isBlank c = true

def Piece.chars (p : Piece) : List Char := p.lexeme ++ p.blanks

/-- The text of the pieces, with blanks in front of them. -/
def layOut (blanks : List Char) (pieces : List Piece) : List Char :=
  blanks ++ pieces.flatMap Piece.chars

theorem ofChars_blanks {bs : List Char} (h : ∀ b ∈ bs, Text.isBlank b = true) (cs : List Char) :
    ofChars (bs ++ cs) = ofChars cs := by
  induction bs with
  | nil => rfl
  | cons b bs ih =>
      obtain ⟨hb, hbs⟩ := List.forall_mem_cons.mp h
      rw [List.cons_append, ofChars_blank hb, ih hbs]

theorem ofChars_lexeme_append {l : List Char} (h : Lexeme t l)
    (hrest : ∀ c ∈ rest.head?, Text.isBlank c = true) :
    ofChars (l ++ rest) = (ofChars rest).map (t :: ·) := by
  obtain ⟨c, cs, rfl, hc, hlex⟩ := lexeme_append h hrest
  rw [List.cons_append, ofChars_lexeme hc hlex]

/-- Pieces with blanks between them are cut into their tokens. -/
theorem ofChars_pieces {pieces : List Piece} (h : ∀ p ∈ pieces.dropLast, p.blanks ≠ []) :
    ofChars (pieces.flatMap Piece.chars) = .ok (pieces.map Piece.token) := by
  induction pieces with
  | nil => exact ofChars_nil
  | cons p pieces ih =>
      have hrest : ∀ c ∈ (p.blanks ++ pieces.flatMap Piece.chars).head?, Text.isBlank c = true := by
        intro c hc
        cases hblanks : p.blanks with
        | cons b bs =>
            rw [hblanks] at hc
            obtain rfl := Option.some.inj hc
            exact p.isBlank b (hblanks ▸ List.mem_cons_self)
        | nil =>
            -- Only the last piece may have no blanks behind it, and nothing follows that one.
            cases pieces with
            | nil =>
                rw [hblanks] at hc
                cases hc
            | cons q pieces => exact absurd hblanks (h p List.mem_cons_self)
      have htail : ∀ q ∈ pieces.dropLast, q.blanks ≠ [] := by
        intro q hq
        cases pieces with
        | nil => cases hq
        | cons r pieces => exact h q (List.mem_cons_of_mem p hq)
      rw [List.flatMap_cons, Piece.chars, List.append_assoc, ofChars_lexeme_append p.isLexeme hrest,
        ofChars_blanks p.isBlank, ih htail]
      rfl

/-- A text that is cut into tokens is made of pieces, one for each token. -/
theorem exists_pieces {ts : List Token} (h : ofChars cs = .ok ts) :
    ∃ blanks pieces, (∀ c ∈ blanks, Text.isBlank c = true) ∧ pieces.map Piece.token = ts ∧
      cs = layOut blanks pieces := by
  fun_induction ofChars cs generalizing ts with
  | case1 => exact ⟨[], [], by simp, Except.ok.inj h, rfl⟩
  | case2 c cs hc ih =>
      obtain ⟨blanks, pieces, hblanks, htokens, rfl⟩ := ih h
      exact ⟨c :: blanks, pieces, List.forall_mem_cons.mpr ⟨hc, hblanks⟩, htokens, rfl⟩
  | case3 | case4 => cases h
  | case5 c cs _ t rest hlex _ us hrest ih =>
      obtain ⟨blanks, pieces, hblanks, htokens, rfl⟩ := ih hrest
      obtain ⟨l, hl, hcs⟩ := exists_lexeme hlex
      refine ⟨[], ⟨t, l, blanks, hl, hblanks⟩ :: pieces, by simp, ?_, ?_⟩
      · rw [List.map_cons, htokens]
        exact Except.ok.inj h
      · rw [hcs, layOut, layOut, List.flatMap_cons, Piece.chars, List.append_assoc]
        rfl

theorem lexeme_digits {n : Int64} (h : 0 ≤ n.toInt) :
    Lexeme (.integer n) (Decimal.digits n.toInt.toNat) := by
  refine .integer (Decimal.isNumeral_digits _) ?_
  rw [Decimal.ofDigits_digits, Int.toNat_of_nonneg h]

/-- Cutting into tokens undoes spelling and drops nothing. If tokens are spelled one after the other
with blanks between them, and with any blanks before and after, the text is cut into just these
tokens; an integer that is not negative is spelled by its numeral, among others. And a text that is
cut into tokens consists of blanks and of one lexeme for each token, in this order. -/
theorem ofChars_layOut :
    (∀ blanks pieces, (∀ c ∈ blanks, Text.isBlank c = true) →
      (∀ p ∈ pieces.dropLast, p.blanks ≠ []) →
        ofChars (layOut blanks pieces) = .ok (pieces.map Piece.token)) ∧
    (∀ n : Int64, 0 ≤ n.toInt → Lexeme (.integer n) (Decimal.digits n.toInt.toNat)) ∧
    ∀ cs ts, ofChars cs = .ok ts →
      ∃ blanks pieces, (∀ c ∈ blanks, Text.isBlank c = true) ∧ pieces.map Piece.token = ts ∧
        cs = layOut blanks pieces := by
  refine ⟨fun blanks pieces hblanks hpieces => ?_, fun n => lexeme_digits,
    fun cs ts => exists_pieces⟩
  rw [layOut, ofChars_blanks hblanks, ofChars_pieces hpieces]

/-- A text in quotes that holds an operator and the other quote, between blanks of several kinds;
and lexemes with no blanks between them. -/
theorem ofChars_layOut_quoted :
    let held : String := "a <= \x27b"
    let pieces : List Piece := [
      ⟨.text held, '\x22' :: held.toList ++ ['\x22'], ['\t', ' '], .text (Or.inr rfl) (by decide),
        by simp; decide⟩,
      ⟨.lessEqual, ['<', '='], ['\n'], .symbol rfl, by simp; decide⟩,
      ⟨.integer 70, Decimal.digits 70, [], lexeme_digits (n := 70) (by decide), by simp⟩]
    (∀ p ∈ pieces.dropLast, p.blanks ≠ []) ∧
      layOut [' '] pieces = " \x22a <= \x27b\x22\t <=\n70".toList ∧
      ofChars (layOut [' '] pieces) = .ok [.text held, .lessEqual, .integer 70] ∧
      ∃ blanks pieces, (∀ c ∈ blanks, Text.isBlank c = true) ∧
        pieces.map Piece.token = [.word "x", .less, .integer 1] ∧
        "x<1".toList = layOut blanks pieces := by
  intro held pieces
  have hgaps : ∀ p ∈ pieces.dropLast, p.blanks ≠ [] := by simp [pieces]
  have hblank : ∀ c ∈ [' '], Text.isBlank c = true := by simp; decide
  have htokens : ofChars "x<1".toList = .ok [.word "x", .less, .integer 1] := by decide +kernel
  exact ⟨hgaps, by decide +kernel, ofChars_layOut.1 [' '] pieces hblank hgaps,
    ofChars_layOut.2.2 _ _ htokens⟩

end LineShell.Token
