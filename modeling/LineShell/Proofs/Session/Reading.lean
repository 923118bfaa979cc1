import LineShell.Proofs.Assignment
import LineShell.Proofs.Expr.Completeness
import LineShell.Proofs.Expr.Lexing
import LineShell.Proofs.OrderedMap
import LineShell.Proofs.Session.Submit

/-!
# Reading what was written

What a session shows of a variable, by its name and by its name in brackets, is determined by the
last of its lines that wrote to the variable (`submitAll_start_reads`). The parts of this:

- a word in brackets is read as a variable if it is bound, whatever else it could mean
  (`Expr.ofText_bracketed`);
- a word in brackets is neither an assignment nor a command, so it comes to the value of the
  variable (`Outcome.ofTrimmed_bracketed`), and a word alone comes to its contents unless it is a
  command (`Outcome.ofTrimmed_word`);
- a variable holds the value of the text that was written to it last
  (`Session.get?_submitAll_start`).
-/

namespace LineShell

/-! ## Names in brackets -/

section Brackets

variable {bound : String → Bool} {w : String}

theorem Grammar.DerivesIn.or_of_primary {k d : Nat} {ts : List Token} {e : Expr}
    (h : DerivesIn bound .primary k d ts e) : DerivesIn bound .or 0 d ts e :=
  .operand .or (.operand .and (.comparison (.sum (.operand .sum (.operand .product
    (.primary h))))))

theorem Expr.ofTokens_bracketed (hb : bound w = true) :
    ofTokens bound [.openParen, .word w, .closeParen] = .ok (.variable w) := by
  have hname : Grammar.DerivesIn bound .primary 0 0 [.word w] (.variable w) :=
    .atom (.name (Or.inl hb))
  have hall := (Grammar.DerivesIn.brackets hname.or_of_primary).or_of_primary
  exact (ofTokens_of_derivesIn hall).trans (if_pos (by decide))

theorem toList_bracketed (w : String) :
    ("(" ++ w ++ ")").toList = '(' :: (w.toList ++ [')']) := by
  rw [String.toList_append, String.toList_append]
  rfl

theorem Token.ofChars_bracketed (hw : isWord w.toList = true) :
    ofChars ("(" ++ w ++ ")").toList = .ok [.openParen, .word w, .closeParen] := by
  have hclose : ofChars [')'] = .ok [.closeParen] := by
    have hlex : lexeme ')' [] = .ok (.closeParen, []) := rfl
    rw [ofChars_lexeme (by decide) hlex, ofChars_nil]
    rfl
  have hword : ofChars (w.toList ++ [')']) = .ok [.word w, .closeParen] := by
    rw [ofChars_word_append hw (by decide), hclose, String.ofList_toList]
    rfl
  have hlex : lexeme '(' (w.toList ++ [')']) = .ok (.openParen, w.toList ++ [')']) := rfl
  rw [toList_bracketed, ofChars_lexeme (by decide) hlex, hword]
  rfl

/-- A bound word in brackets is a variable, even where the word has another use. -/
theorem Expr.ofText_bracketed (hw : isWord w.toList = true) (hb : bound w = true) :
    ofText bound ("(" ++ w ++ ")") = .ok (.variable w) := by
  rw [ofText, Token.ofChars_bracketed hw]
  exact ofTokens_bracketed hb

theorem trimmed_bracketed (w : String) : Text.Trimmed ("(" ++ w ++ ")").toList := by
  rw [toList_bracketed]
  exact Text.trimmed_between (by decide) (by decide) w.toList

theorem looksLikeExpression_bracketed (hw : isWord w.toList = true) :
    looksLikeExpression ("(" ++ w ++ ")").toList = true := by
  have hall : (w.toList ++ [')']).all isExpressionChar = true := by
    rw [List.all_append, Bool.and_eq_true, List.all_eq_true]
    refine ⟨fun c hc => ?_, by decide⟩
    rw [isExpressionChar, isWordChar_of_mem hw c hc, Bool.true_or, Bool.true_or]
  have hopen : isExpressionChar '(' = true := by decide
  rw [toList_bracketed, looksLikeExpression, List.all_cons, hall, hopen]
  rfl

end Brackets

/-! ## Names and commands -/

namespace Commands

theorem find?_eq_none_iff {commands : Commands} {name : String} :
    commands.find? name = none ↔ Text.lowercase name ∉ commands.keys := by
  rw [← commands.contains_iff_mem_keys, OrderedMap.contains, ← find?, Option.isSome_iff_ne_none,
    not_not]

/-- No command of every shell begins with a character that begins no word. -/
theorem find?_builtin_of_head {name : String} {c : Char} {cs : List Char}
    (hname : name.toList = c :: cs) (hstart : isWordStart c = false) (hascii : c.toNat < 128) :
    builtin.find? name = none := by
  have hsigma : c ≠ 'Σ' := by
    rintro rfl
    exact absurd hascii (by decide)
  have hupper : ¬ (c.val ≥ 'A'.val ∧ c.val ≤ 'Z'.val) := by
    intro hupper
    unfold isWordStart Char.isAlpha Char.isUpper at hstart
    rw [decide_eq_true hupper] at hstart
    cases hstart
  have hlower : Text.lowerChar c = [c] := by
    rw [Text.lowerChar, if_pos hascii]
    unfold Char.toLower
    rw [dif_neg hupper]
  have hhead : (Text.lowercase name).toList.head? = some c := by
    rw [Text.lowercase, String.toList_ofList, hname, Text.lowerAfter, if_neg hsigma, hlower]
    rfl
  have hkeys : ∀ key ∈ builtin.keys, key.toList.head?.any isWordStart = true := by decide
  refine find?_eq_none_iff.mpr fun hmem => ?_
  have hword := hkeys _ hmem
  rw [hhead, Option.any_some, hstart] at hword
  cases hword

theorem find?_builtin_bracketed (w : String) : builtin.find? ("(" ++ w ++ ")") = none :=
  find?_builtin_of_head (toList_bracketed w) (by decide) (by decide)

end Commands

namespace Outcome

variable {vars : Variables} {w : String}

theorem ofTrimmed_word {commands : Commands} (hw : isWord w.toList = true)
    (hcommand : Text.lowercase w ∉ commands.keys) :
    ofTrimmed commands vars w = ofName vars w := by
  have hne : w ≠ "" := by
    rintro rfl
    cases hw
  have hfind : commands.find? w = none := Commands.find?_eq_none_iff.mpr hcommand
  rw [ofTrimmed_of_unclaimed hne (assignment?_of_isWord hw) hfind, if_pos hw]

theorem ofTrimmed_bracketed {v : Value} (hw : isWord w.toList = true) (hv : vars.get? w = some v) :
    ofTrimmed .builtin vars ("(" ++ w ++ ")") = .output v.display := by
  have hne : "(" ++ w ++ ")" ≠ "" := by
    intro heq
    have hlist := toList_bracketed w
    rw [heq] at hlist
    cases hlist
  have hassign : assignment? ("(" ++ w ++ ")") = none := by
    rw [assignment?, toList_bracketed, splitAssignment?_cons_of_not (by decide)]
    rfl
  have hword : isWord ("(" ++ w ++ ")").toList = false := by
    rw [toList_bracketed]
    rfl
  have hbound : vars.contains w = true := by
    rw [OrderedMap.contains, hv]
    rfl
  have hvalue : Expr.evalText vars ("(" ++ w ++ ")") = .ok v := by
    rw [Expr.evalText, Expr.ofText_bracketed hw hbound]
    dsimp only
    rw [Expr.eval, hv]
  rw [ofTrimmed_of_unclaimed hne hassign (Commands.find?_builtin_bracketed w), hword,
    if_neg (by decide), ofExpression, looksLikeExpression_bracketed hw, if_pos rfl, hvalue]

end Outcome

namespace Session

/-! ## The last write -/

/-- The text that a line writes to the variable `n`. -/
def writtenTo? (n line : String) : Option String :=
  match splitAssignment? (Text.trim line).toList with
  | some (name, rest) => if String.ofList name = n then some (String.ofList rest) else none
  | none => none

theorem filter_assigned? (n line : String) :
    ((assigned? line).filter fun b => b.1 = n).map Prod.snd =
      (writtenTo? n line).map Value.ofText := by
  rw [assigned?, assignment?, writtenTo?]
  rcases splitAssignment? (Text.trim line).toList with _ | ⟨name, rest⟩
  · rfl
  · by_cases h : String.ofList name = n <;> simp [h]

/-- A variable holds the value of the text that was written to it last. -/
theorem get?_submitAll_start (h : History) (lines : List String) (n : String) :
    ((start h).submitAll lines).vars.get? n =
      ((lines.filterMap (writtenTo? n)).getLast?).map Value.ofText := by
  rw [vars_submitAll_start, OrderedMap.get?_ofList, List.filter_filterMap, List.map_filterMap,
    ← List.getLast?_map, List.map_filterMap]
  simp only [filter_assigned?]

/-! ## What a session shows of a variable -/

section Reads

variable (s : Session) {n : String} {v : Value}

theorem snd_submit_bracketed (hn : isWord n.toList = true) (hv : s.vars.get? n = some v) :
    (s.submit ("(" ++ n ++ ")")).2 = .output v.display := by
  rw [snd_submit, outcome, Outcome.ofLine, Text.trim_of_trimmed (trimmed_bracketed n),
    Outcome.ofTrimmed_bracketed hn hv]

theorem snd_submit_word (hn : isWord n.toList = true)
    (hcommand : Text.lowercase n ∉ Commands.builtin.keys) :
    (s.submit n).2 = .ofName s.vars n := by
  rw [snd_submit, outcome, Outcome.ofLine, Text.trim_of_trimmed (trimmed_of_isWord hn),
    Outcome.ofTrimmed_word hn hcommand]

end Reads

/-- A session that was just started reads what it has written. After any lines, a name in brackets
shows the value of the text that the last assignment to it wrote, and so does the name alone, as a
literal, unless it is a command in lower case. A name that was never written to, and that is no
command, is reported as not found. -/
theorem submitAll_start_reads (h : History) (lines : List String) {n : String}
    (hn : isWord n.toList = true) :
    let s := (start h).submitAll lines
    match (lines.filterMap (writtenTo? n)).getLast? with
    | some rest =>
        (s.submit ("(" ++ n ++ ")")).2 = .output (Value.ofText rest).display ∧
          (Text.lowercase n ∉ Commands.builtin.keys →
            (s.submit n).2 = .output (Value.ofText rest).literal)
    | none =>
        Text.lowercase n ∉ Commands.builtin.keys →
          ∃ e, (s.submit n).2 = .failed e ∧ e.message = "Variable \"" ++ n ++ "\" not found" := by
  intro s
  have hget : s.vars.get? n = ((lines.filterMap (writtenTo? n)).getLast?).map Value.ofText :=
    get?_submitAll_start h lines n
  cases hlast : (lines.filterMap (writtenTo? n)).getLast? with
  | some rest =>
      rw [hlast, Option.map_some] at hget
      refine ⟨s.snd_submit_bracketed hn hget, fun hcommand => ?_⟩
      rw [s.snd_submit_word hn hcommand, Outcome.ofName, hget]
  | none =>
      rw [hlast, Option.map_none] at hget
      intro hcommand
      refine ⟨.eval (.unbound n), ?_, rfl⟩
      rw [s.snd_submit_word hn hcommand, Outcome.ofName, hget]

theorem submitAll_start_reads_and :
    let s := (start (History.empty 5)).submitAll ["and = 1", "and = ' x y'", "clear", "b = and"]
    isWord "and".toList = true ∧ (s.submit "(and)").2 = .output " x y" ∧
      (s.submit "and").2 = .output "' x y'" := by
  intro s
  have hn : isWord "and".toList = true := by decide
  have hlast : (["and = 1", "and = ' x y'", "clear", "b = and"].filterMap
      (writtenTo? "and")).getLast? = some "' x y'" := by decide
  have hcommand : Text.lowercase "and" ∉ Commands.builtin.keys := by decide
  have hvalue : Value.ofText "' x y'" = .text " x y" := by decide
  have hreads := submitAll_start_reads (History.empty 5)
    ["and = 1", "and = ' x y'", "clear", "b = and"] hn
  dsimp only at hreads
  rw [hlast] at hreads
  dsimp only at hreads
  obtain ⟨hbracketed, hword⟩ := hreads
  rw [hvalue] at hbracketed hword
  exact ⟨hn, hbracketed, hword hcommand⟩

end Session

end LineShell
