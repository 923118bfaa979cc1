import LineShell.Proofs.Expr.Renaming

/-!
# Variables that are mentioned

A text is read and evaluated the same way among all variables that agree on its words. The reader
asks only of words of the tokens whether they are bound, and the names that are evaluated are among
these words. Both facts are those of `Renaming`, for the renaming that changes nothing: where the
variables agree on the words (`AgreeOn`), it `Fits` the tokens, so `ofTokens_rename` says that the
same expression is read, and `eval_rename` that it has the same value.
-/

namespace LineShell

/-! ## The renaming that changes nothing -/

theorem Token.rename_id : Token.rename id = id := by
  funext t
  cases t <;> rfl

theorem ParseError.rename_id : ParseError.rename id = id := by
  funext e
  cases e with
  | unexpectedToken t => rw [ParseError.rename, Token.rename_id, id, id]
  | _ => rfl

namespace Expr

theorem renameLinks_id {links : List (CompareOp × Expr)} (h : ∀ l ∈ links, l.2.rename id = l.2) :
    rename.renameLinks id links = links := by
  induction links with
  | nil => rfl
  | cons l links ih =>
      obtain ⟨he, hlinks⟩ := List.forall_mem_cons.mp h
      rw [rename.renameLinks, he, ih hlinks]

theorem rename_id (e : Expr) : e.rename id = e := by
  induction e using Expr.induction with
  | literal v => rfl
  | name w => rfl
  | unary op e ih => rw [rename, ih]
  | binary op l r ihl ihr => rw [rename, ihl, ihr]
  | compare e links ih ihs => rw [rename, ih, renameLinks_id ihs]
  | and l r ihl ihr | or l r ihl ihr => rw [rename, ihl, ihr]

end Expr

/-! ## Variables that agree -/

/-- The variables have the same values under the words of the tokens, or none. -/
def Variables.AgreeOn (ts : List Token) (vars vars' : Variables) : Prop :=
  ∀ w, .word w ∈ ts → vars'.get? w = vars.get? w

theorem Variables.agreeOn_insert {ts : List Token} {n : String} (h : .word n ∉ ts)
    (vars : Variables) (v : Value) : AgreeOn ts vars (vars.insert n v) := by
  intro w hw
  have hne : w ≠ n := by
    rintro rfl
    exact h hw
  rw [OrderedMap.get?_insert, if_neg hne]

namespace Expr

variable {ts : List Token} {vars vars' : Variables}

theorem ofTokens_congr (h : Variables.AgreeOn ts vars vars') :
    ofTokens vars'.contains ts = ofTokens vars.contains ts := by
  have hfits : Parser.Fits vars.contains vars'.contains id ts := by
    intro w hw
    refine ⟨?_, fun _ => rfl⟩
    rw [id, OrderedMap.contains, OrderedMap.contains, h w hw]
  have hread := ofTokens_rename hfits
  rw [Token.rename_id, List.map_id, ParseError.rename_id] at hread
  rw [hread]
  cases ofTokens vars.contains ts with
  | error e => rfl
  | ok e => simp only [Except.map, Except.mapError, rename_id]

/-- An expression that was read from tokens has the same value among variables that agree on
them. -/
theorem eval_congr {e : Expr} (hread : ofTokens vars.contains ts = .ok e)
    (h : Variables.AgreeOn ts vars vars') : e.eval vars' = e.eval vars := by
  have heval : (e.rename id).eval vars' = e.eval vars := by
    refine eval_rename e fun w hw => ⟨?_, fun _ => rfl⟩
    exact h w (word_mem_of_derives (derives_of_ofTokens hread) w hw)
  rwa [rename_id] at heval

theorem evalTokens_congr (h : Variables.AgreeOn ts vars vars') :
    evalTokens vars' ts = evalTokens vars ts := by
  rw [evalTokens, evalTokens, ofTokens_congr h]
  cases hread : ofTokens vars.contains ts with
  | error e => rfl
  | ok e =>
      dsimp only
      rw [eval_congr hread h]

/-- A variable that is not mentioned does not matter. Whatever is bound to a name that is not one of
the words of a text, newly or in place of another value, the text is read as the same expression or
is none for the same reason, and comes to the same value or fails for the same reason. The name may
be that of an operator or of a constant. -/
theorem evalText_insert (vars : Variables) (s n : String) (v : Value)
    (h : ∀ ts, Token.ofChars s.toList = .ok ts → .word n ∉ ts) :
    ofText (vars.insert n v).contains s = ofText vars.contains s ∧
      evalText (vars.insert n v) s = evalText vars s := by
  rw [evalText_eq, evalText_eq, ofText, ofText]
  cases hts : Token.ofChars s.toList with
  | error e => exact ⟨rfl, rfl⟩
  | ok ts =>
      have hagree := Variables.agreeOn_insert (h ts hts) vars v
      exact ⟨ofTokens_congr hagree, evalTokens_congr hagree⟩

/-- The word `is` stays an operator where `not` gets bound. -/
theorem evalText_insert_not :
    let vars : Variables := OrderedMap.insert ∅ "knot" (.integer 2)
    (∀ ts, Token.ofChars "knot is 2".toList = .ok ts → .word "not" ∉ ts) ∧
      evalText (vars.insert "not" (.text "x")) "knot is 2" = .ok (.boolean true) := by
  intro vars
  have htokens : Token.ofChars "knot is 2".toList =
      .ok [.word "knot", .word "is", .integer 2] := by decide +kernel
  have hunmentioned : ∀ ts, Token.ofChars "knot is 2".toList = .ok ts → .word "not" ∉ ts := by
    intro ts hts
    rw [← Except.ok.inj (htokens.symm.trans hts)]
    decide
  have hvalue : evalText vars "knot is 2" = .ok (.boolean true) := by decide +kernel
  exact ⟨hunmentioned, (evalText_insert vars _ _ _ hunmentioned).2.trans hvalue⟩

end Expr

end LineShell
