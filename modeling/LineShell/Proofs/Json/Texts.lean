import LineShell.Json
import LineShell.Json.Reader

/-!
# Written texts are read back as JSON

A text that is written between quotes is read from there as it was, whatever is behind it. Every
character is written in one of three ways (`escape_cases`), and each way is read as one piece that
stands for the character (`lexText_escape`, `chars?_pieceOf`). An object whose values are texts is
the sequence of its lexemes (`lexemes_compact`), and the reader comes from them to the members
(`ofChars?_compact`). Nothing that is written holds a control character
(`not_control_of_mem_compact`).
-/

namespace LineShell.Json

variable {c : Char} {cs rest : List Char} {ms : List (String × String)}

/-! ## Characters -/

/-- A character is written behind a backslash, as its code point, or as it stands. -/
theorem escape_cases (c : Char) :
    (∃ e, escape c = ['\\', e] ∧ e ≠ 'u' ∧ 0x20 ≤ e.toNat ∧ unescape? e = some c) ∨
      (escape c = codePoint c ∧ c.toNat < 0x20) ∨
      (escape c = [c] ∧ c ≠ '\x22' ∧ c ≠ '\\' ∧ 0x20 ≤ c.toNat) := by
  unfold escape
  split
  case h_8 c hquote hslash _ _ _ _ _ =>
    right
    split
    · rename_i hlow
      exact Or.inl ⟨rfl, hlow⟩
    · rename_i hlow
      exact Or.inr ⟨rfl, fun h => hquote h, fun h => hslash h, Nat.le_of_not_lt hlow⟩
  all_goals exact Or.inl ⟨_, rfl, by decide, by decide, rfl⟩

/-- The piece that a written character is read as. -/
def pieceOf (c : Char) : Piece :=
  if escape c = codePoint c then .unit c.toNat else .char c

theorem hexDigit?_digitChar {d : Nat} (h : d < 16) :
    Text.hexDigit? (Nat.digitChar d) = some d := by
  have hall : ∀ d : Fin 16, Text.hexDigit? (Nat.digitChar d.val) = some d.val := by decide
  exact hall ⟨d, h⟩

theorem hexNumber?_codePoint (h : c.toNat < 0x20) :
    Text.hexNumber? ['0', '0', Nat.digitChar (c.toNat / 16), Nat.digitChar (c.toNat % 16)] =
      some c.toNat := by
  have hzero : Text.hexDigit? '0' = some 0 := rfl
  have hhigh := hexDigit?_digitChar (d := c.toNat / 16) (by omega)
  have hlow := hexDigit?_digitChar (d := c.toNat % 16) (by omega)
  have hback : (((0 * 16 + 0) * 16 + 0) * 16 + c.toNat / 16) * 16 + c.toNat % 16 = c.toNat := by
    omega
  simp only [Text.hexNumber?, Text.hexNumberFrom?, hzero, hhigh, hlow, Option.bind_eq_bind,
    Option.bind_some, hback]

theorem lexText_escape (c : Char) (cs : List Char) :
    lexText (escape c ++ cs) = (lexText cs).map fun r => (pieceOf c :: r.1, r.2) := by
  rcases escape_cases c with ⟨e, he, hu, -, hc⟩ | ⟨he, hlow⟩ | ⟨he, hquote, hslash, hlow⟩
  · have hpiece : pieceOf c = .char c := if_neg (by rw [he]; simp [codePoint])
    rw [he, hpiece]
    show lexText ('\\' :: e :: cs) = _
    rw [lexText, if_neg (by decide), if_pos rfl, hc]
    · cases lexText cs <;> rfl
    · intro _ _ _ _ _ h
      exact absurd h hu
  · have hpiece : pieceOf c = .unit c.toNat := if_pos he
    rw [he, hpiece]
    show lexText ('\\' :: 'u' :: '0' :: '0' :: _ :: _ :: cs) = _
    rw [lexText, if_neg (by decide), if_pos rfl]
    dsimp only
    rw [hexNumber?_codePoint hlow]
    cases lexText cs <;> rfl
  · have hpiece : pieceOf c = .char c := if_neg (by rw [he]; simp [codePoint])
    rw [he, hpiece, List.singleton_append, lexText.eq_def]
    dsimp only
    rw [if_neg hquote, if_neg hslash, if_neg (Nat.not_lt.mpr hlow)]
    cases lexText cs <;> rfl

theorem chars?_pieceOf (c : Char) (ps : List Piece) :
    Piece.chars? (pieceOf c :: ps) = (Piece.chars? ps).map (c :: ·) := by
  rcases escape_cases c with ⟨e, he, -⟩ | ⟨he, hlow⟩ | ⟨he, -⟩
  · rw [pieceOf, if_neg (by rw [he]; simp [codePoint]), Piece.chars?]
  · rw [pieceOf, if_pos he, Piece.chars?.eq_def]
    dsimp only
    rw [if_pos (Or.inl (by omega)), Char.ofNat_toNat]
  · rw [pieceOf, if_neg (by rw [he]; simp [codePoint]), Piece.chars?]

/-! ## Texts -/

/-- The pieces that a written text is read as. -/
def piecesOf (s : String) : List Piece := s.toList.map pieceOf

theorem text?_piecesOf (s : String) : Piece.text? (piecesOf s) = some s := by
  have hchars (cs : List Char) : Piece.chars? (cs.map pieceOf) = some cs := by
    induction cs with
    | nil => rfl
    | cons c cs ih => rw [List.map_cons, chars?_pieceOf, ih, Option.map_some]
  rw [Piece.text?, piecesOf, hchars, Option.map_some, String.ofList_toList]

theorem lexText_flatMap_escape (cs rest : List Char) :
    lexText (cs.flatMap escape ++ '\x22' :: rest) = some (cs.map pieceOf, rest) := by
  induction cs with
  | nil =>
      rw [List.flatMap_nil, List.nil_append, lexText.eq_def]
      rfl
  | cons c cs ih =>
      rw [List.flatMap_cons, List.append_assoc, lexText_escape, ih]
      rfl

/-! ## Lexemes -/

/-- A lexeme in front of a text that does not begin with a blank comes first. -/
theorem lexemes_cons {l : Lexeme} (hc : isBlank c = false)
    (h : lexeme (c :: cs) = some (l, rest)) :
    lexemes (c :: cs) = (lexemes rest).map (l :: ·) := by
  rw [lexemes, if_neg (by rw [hc]; decide)]
  split
  · rename_i hnone
    rw [h] at hnone
    cases hnone
  · rename_i hsome
    rw [h] at hsome
    obtain ⟨rfl, rfl⟩ := Prod.mk.inj (Option.some.inj hsome)
    rfl

theorem lexemes_quoted (s : String) (rest : List Char) :
    lexemes (quoted s ++ rest) = (lexemes rest).map (.text (piecesOf s) :: ·) := by
  have hlex : lexeme ('\x22' :: (s.toList.flatMap escape ++ '\x22' :: rest)) =
      some (.text (piecesOf s), rest) := by
    show (lexText _).map _ = _
    rw [lexText_flatMap_escape]
    rfl
  have happend : quoted s ++ rest = '\x22' :: (s.toList.flatMap escape ++ '\x22' :: rest) := by
    simp [quoted]
  rw [happend, lexemes_cons rfl hlex]

/-- The object of the given texts. -/
def ofTexts (ms : List (String × String)) : Json := .object (ms.map fun m => (m.1, .text m.2))

/-- The lexemes of a member that is a text. -/
def memberLexemes (m : String × String) : List Lexeme :=
  [.text (piecesOf m.1), .colon, .text (piecesOf m.2)]

/-- The lexemes of the members behind the first, and of the end of the object. -/
def tailLexemes (ms : List (String × String)) : List Lexeme :=
  ms.flatMap (fun m => .comma :: memberLexemes m) ++ [.closeObject]

theorem lexemes_compactMember (m : String × String) (rest : List Char) :
    lexemes (compactMember (m.1, .text m.2) ++ rest) =
      (lexemes rest).map (memberLexemes m ++ ·) := by
  rw [compactMember, compact, List.append_assoc, lexemes_quoted, List.cons_append,
    lexemes_cons rfl rfl, lexemes_quoted]
  cases lexemes rest <;> rfl

theorem lexemes_compactTail (ms : List (String × String)) :
    lexemes (compactTail (ms.map fun m => (m.1, .text m.2))) = some (tailLexemes ms) := by
  induction ms with
  | nil =>
      show lexemes ['\x7d'] = _
      rw [lexemes_cons rfl rfl, lexemes]
      rfl
  | cons m ms ih =>
      rw [List.map_cons, compactTail, List.cons_append, lexemes_cons rfl rfl,
        lexemes_compactMember, ih]
      rfl

theorem lexemes_compact (m : String × String) (ms : List (String × String)) :
    lexemes (ofTexts (m :: ms)).compact =
      some (.openObject :: memberLexemes m ++ tailLexemes ms) := by
  rw [ofTexts, List.map_cons, compact, List.cons_append, lexemes_cons rfl rfl,
    lexemes_compactMember, lexemes_compactTail]
  rfl

/-! ## Members -/

/-- The member that a written one is read as. -/
def rawMember (m : String × String) : List Piece × Raw := (piecesOf m.1, .text (piecesOf m.2))

/-- The members behind the first are read one behind the other, up to the end of the object. -/
theorem foldlM_tailLexemes (read : List (List Piece × Raw)) (ms : List (String × String)) :
    (tailLexemes ms).foldlM Reading.step (.moreMembers read []) =
      some (.done (.object (read.reverse ++ ms.map rawMember))) := by
  induction ms generalizing read with
  | nil => rw [List.map_nil, List.append_nil]; rfl
  | cons m ms ih =>
      show (tailLexemes ms).foldlM Reading.step (.moreMembers (rawMember m :: read) []) = _
      rw [ih, List.reverse_cons, List.append_assoc, List.singleton_append, List.map_cons]

theorem ofChars?_compact (m : String × String) (ms : List (String × String)) :
    Raw.ofChars? (ofTexts (m :: ms)).compact = some (.object ((m :: ms).map rawMember)) := by
  have hfold : (.openObject :: memberLexemes m ++ tailLexemes ms).foldlM Reading.step (.value []) =
      some (.done (.object ((m :: ms).map rawMember))) :=
    foldlM_tailLexemes [rawMember m] ms
  rw [Raw.ofChars?, lexemes_compact, Option.bind_eq_bind, Option.bind_some, hfold]
  rfl

/-! ## Control characters -/

theorem not_control_of_mem_escape {d : Char} (h : d ∈ escape c) : 0x20 ≤ d.toNat := by
  rcases escape_cases c with ⟨e, he, -, hlow, -⟩ | ⟨he, hlow⟩ | ⟨he, -, -, hlow⟩
  · rw [he] at h
    rcases List.mem_cons.mp h with rfl | h
    · decide
    · rwa [List.mem_singleton.mp h]
  · have hdigit : ∀ n : Fin 16, 0x20 ≤ (Nat.digitChar n.val).toNat := by decide
    rw [he, codePoint] at h
    have hhigh := hdigit ⟨c.toNat / 16, by omega⟩
    have hrest := hdigit ⟨c.toNat % 16, by omega⟩
    simp only [List.mem_cons, List.not_mem_nil, or_false] at h
    rcases h with rfl | rfl | rfl | rfl | rfl | rfl
    · decide
    · decide
    · decide
    · decide
    · exact hhigh
    · exact hrest
  · rw [he] at h
    rwa [List.mem_singleton.mp h]

theorem not_control_of_mem_quoted {s : String} (h : c ∈ quoted s) : 0x20 ≤ c.toNat := by
  simp only [quoted, List.cons_append, List.mem_cons, List.mem_append, List.not_mem_nil, or_false,
    List.mem_flatMap] at h
  rcases h with rfl | ⟨d, -, h⟩ | rfl
  · decide
  · exact not_control_of_mem_escape h
  · decide

theorem not_control_of_mem_compactMember {m : String × String}
    (h : c ∈ compactMember (m.1, .text m.2)) : 0x20 ≤ c.toNat := by
  rw [compactMember, compact, List.mem_append, List.mem_cons] at h
  rcases h with h | rfl | h
  · exact not_control_of_mem_quoted h
  · decide
  · exact not_control_of_mem_quoted h

theorem not_control_of_mem_compactTail (ms : List (String × String))
    (h : c ∈ compactTail (ms.map fun m => (m.1, .text m.2))) : 0x20 ≤ c.toNat := by
  induction ms with
  | nil =>
      obtain rfl := List.mem_singleton.mp h
      decide
  | cons m ms ih =>
      rw [List.map_cons, compactTail, List.cons_append, List.mem_cons, List.mem_append] at h
      rcases h with rfl | h | h
      · decide
      · exact not_control_of_mem_compactMember h
      · exact ih h

theorem not_control_of_mem_compact (h : c ∈ (ofTexts ms).compact) : 0x20 ≤ c.toNat := by
  cases ms with
  | nil =>
      rw [ofTexts, List.map_nil, compact] at h
      rcases List.mem_cons.mp h with rfl | h
      · decide
      · obtain rfl := List.mem_singleton.mp h
        decide
  | cons m ms =>
      rw [ofTexts, List.map_cons, compact, List.cons_append, List.mem_cons, List.mem_append] at h
      rcases h with rfl | h | h
      · decide
      · exact not_control_of_mem_compactMember h
      · exact not_control_of_mem_compactTail ms h

end LineShell.Json
