import LineShell.Outcome.OfLine
import LineShell.Proofs.Expr.Agreement
import LineShell.Proofs.Expr.Paths
import LineShell.Proofs.OrderedMap

/-!
# Renaming variables

A bound name denotes its variable whatever it is called, also if it is called like an operator. Let
the bound names be renamed, in the tokens and in the variables, so that the new names are told apart
and none of them is a word of the tokens that is not bound. Then nothing changes but the names
(`evalTokens_rename`). The renamed tokens are read as the renamed expression (`ofTokens_rename`);
the names in an expression are words of its tokens (`word_mem_of_derives`), so each of them finds
under its new name what it found before (`eval_rename`).
-/

namespace LineShell

/-! ## Names -/

/-- What becomes of a word where the bound names are renamed. -/
def renameBound (bound : String → Bool) (r : String → String) (w : String) : String :=
  if bound w then r w else w

/-- What is evaluated was read, so it is only in the reasons for not reading that names change. -/
def ShellError.rename (ρ : String → String) : ShellError → ShellError
  | .parse e => .parse (e.rename ρ)
  | e => e

/-- The variables under new names, in the same order. -/
def Variables.rename (r : String → String) (vars : Variables) : Variables :=
  .ofList (vars.toList.map fun b => (r b.1, b.2))

namespace Expr

open Grammar

variable {bound : String → Bool} {ρ : String → String}

/-- The names of the variables in an expression. -/
def names : Expr → List String
  | .literal _ => []
  | .variable w => [w]
  | .unary _ e => e.names
  | .binary _ l r | .and l r | .or l r => l.names ++ r.names
  | .compare e links => e.names ++ namesOfLinks links
where
  /-- The names in the operands of the links. -/
  namesOfLinks : List (CompareOp × Expr) → List String
    | [] => []
    | (_, e) :: links => e.names ++ namesOfLinks links

theorem namesOfLinks_eq (links : List (CompareOp × Expr)) :
    names.namesOfLinks links = links.flatMap fun l => l.2.names := by
  induction links with
  | nil => rfl
  | cons l links ih => rw [names.namesOfLinks, ih, List.flatMap_cons]

theorem names_of_joins {level : Level} {t : Token} {join : Expr → Expr → Expr}
    (h : Joins bound level t join) (l r : Expr) : (join l r).names = l.names ++ r.names := by
  cases h <;> rfl

/-- A name in an expression that is read is a word of the tokens. -/
theorem word_mem_of_derives {level : Level} {ts : List Token} {e : Expr}
    (h : Derives bound level ts e) : ∀ w ∈ e.names, Token.word w ∈ ts := by
  induction h with
  | operand _ _ ih | comparison _ ih | sum _ ih | primary _ ih => exact ih
  | chain _ hj _ _ ihl ihr =>
      intro w hw
      rw [names_of_joins hj] at hw
      rcases List.mem_append.mp hw with hw | hw
      · exact List.mem_append_left _ (ihl w hw)
      · exact List.mem_append_right _ (List.mem_cons_of_mem _ (ihr w hw))
  | not _ _ ih | sign _ _ ih => exact fun w hw => List.mem_cons_of_mem _ (ih w hw)
  | compare links _ _ _ _ ih ihs =>
      intro w hw
      rcases List.mem_append.mp hw with hw | hw
      · exact List.mem_append_left _ (ih w hw)
      · rw [namesOfLinks_eq, List.mem_flatMap] at hw
        obtain ⟨entry, hentry, hw⟩ := hw
        obtain ⟨l, hl, rfl⟩ := List.mem_map.mp hentry
        refine List.mem_append_right _ (List.mem_flatMap.mpr ⟨l, hl, ?_⟩)
        exact List.mem_append_right _ (ihs l hl w hw)
  | brackets _ ih =>
      intro w hw
      exact List.mem_cons_of_mem _ (List.mem_append_left _ (ih w hw))
  | integer | float | text | trueWord | falseWord => exact fun w hw => absurd hw List.not_mem_nil
  | name _ =>
      intro w hw
      rw [List.mem_singleton.mp hw]
      exact List.mem_cons_self

/-! ## Evaluating renamed expressions -/

variable {vars vars' : Variables}

theorem evalLinks_rename {links : List (CompareOp × Expr)}
    (h : ∀ l ∈ links, (l.2.rename ρ).eval vars' = l.2.eval vars) (left : Value) :
    evalLinks vars' left (rename.renameLinks ρ links) = evalLinks vars left links := by
  induction links generalizing left with
  | nil => rfl
  | cons l links ih =>
      obtain ⟨op, e⟩ := l
      obtain ⟨he, hlinks⟩ := List.forall_mem_cons.mp h
      rw [rename.renameLinks, evalLinks, evalLinks, he]
      simp only [ih hlinks]

/-- An expression has the same value where its variables have new names. -/
theorem eval_rename (e : Expr)
    (h : ∀ w ∈ e.names, vars'.get? (ρ w) = vars.get? w ∧ (vars.get? w = none → ρ w = w)) :
    (e.rename ρ).eval vars' = e.eval vars := by
  induction e using Expr.induction with
  | literal v => rfl
  | name w =>
      obtain ⟨hget, hfixed⟩ := h w List.mem_cons_self
      rw [rename, eval, eval, hget]
      cases hw : vars.get? w with
      | none => rw [hfixed hw]
      | some v => rfl
  | unary op e ih =>
      rw [rename, eval, eval, ih h]
  | binary op l r ihl ihr =>
      rw [rename, eval, eval, ihl fun w hw => h w (List.mem_append_left _ hw),
        ihr fun w hw => h w (List.mem_append_right _ hw)]
  | compare e links ih ihs =>
      have hlinks : ∀ l ∈ links, (l.2.rename ρ).eval vars' = l.2.eval vars := by
        intro l hl
        refine ihs l hl fun w hw => h w (List.mem_append_right _ ?_)
        rw [namesOfLinks_eq]
        exact List.mem_flatMap.mpr ⟨l, hl, hw⟩
      rw [rename, eval, eval, ih fun w hw => h w (List.mem_append_left _ hw)]
      simp only [evalLinks_rename hlinks]
  | and l r ihl ihr | or l r ihl ihr =>
      rw [rename, eval, eval, ihl fun w hw => h w (List.mem_append_left _ hw),
        ihr fun w hw => h w (List.mem_append_right _ hw)]

/-! ## Values of tokens -/

/-- The value of tokens as an expression. -/
def evalTokens (vars : Variables) (ts : List Token) : Except ShellError Value :=
  match ofTokens vars.contains ts with
  | .error e => .error (.parse e)
  | .ok e =>
    match e.eval vars with
    | .error e => .error (.eval e)
    | .ok v => .ok v

theorem evalText_eq (vars : Variables) (s : String) :
    evalText vars s =
      match Token.ofChars s.toList with
      | .error e => .error (.parse e)
      | .ok ts => evalTokens vars ts := by
  unfold evalText ofText evalTokens
  cases Token.ofChars s.toList <;> rfl

end Expr

section

variable {vars : Variables} {r : String → String}
  (hinj : ∀ m n, vars.contains m → vars.contains n → r m = r n → m = n)

include hinj in
theorem Variables.get?_rename {w : String} (hw : vars.contains w) :
    (vars.rename r).get? (r w) = vars.get? w := by
  have hsame : ∀ b ∈ vars.toList, decide (r b.1 = r w) = decide (b.1 = w) := by
    intro b hb
    have hkey : vars.contains b.1 := (vars.contains_iff_mem_keys b.1).mpr (List.mem_map_of_mem hb)
    exact decide_eq_decide.mpr ⟨hinj b.1 w hkey hw, congrArg r⟩
  conv => rhs; rw [← vars.ofList_toList]
  rw [rename, OrderedMap.get?_ofList, OrderedMap.get?_ofList, List.filter_map, List.map_map]
  show (((vars.toList.filter fun b => decide (r b.1 = r w)).map Prod.snd).getLast?) = _
  rw [List.filter_congr hsame]

theorem Variables.exists_of_contains_rename {w : String} (h : (vars.rename r).contains w) :
    ∃ n, vars.contains n ∧ r n = w := by
  rw [OrderedMap.contains_iff_mem_keys, rename, OrderedMap.keys_ofList, List.mem_eraseDups,
    List.map_map] at h
  obtain ⟨b, hb, rfl⟩ := List.mem_map.mp h
  exact ⟨b.1, (vars.contains_iff_mem_keys b.1).mpr (List.mem_map_of_mem hb), rfl⟩

include hinj in
theorem Parser.fits_renameBound {ts : List Token}
    (hfresh : ∀ n, vars.contains n → .word (r n) ∈ ts → vars.contains (r n)) :
    Fits vars.contains (vars.rename r).contains (renameBound vars.contains r) ts := by
  intro w hw
  unfold renameBound
  cases hbound : vars.contains w with
  | true =>
      refine ⟨?_, fun h => (nomatch h)⟩
      rw [if_pos rfl, OrderedMap.contains, Variables.get?_rename hinj hbound]
      exact hbound
  | false =>
      refine ⟨?_, fun _ => rfl⟩
      rw [if_neg Bool.false_ne_true, Bool.eq_false_iff]
      intro hnew
      obtain ⟨n, hn, rfl⟩ := Variables.exists_of_contains_rename hnew
      rw [hfresh n hn hw] at hbound
      cases hbound

namespace Expr

/-- A bound name denotes its variable whatever it is called. Let the bound names be renamed in the
tokens and in the variables, so that they are still told apart and no new name is a word of the
tokens, unless that is itself a bound name and so renamed as well. Then the tokens have the same
value as before, or they have none for the same reason up to the names in it. The old names and the
new ones may be those of operators and constants. -/
theorem evalTokens_rename (vars : Variables) (r : String → String) (ts : List Token)
    (hinj : ∀ m n, vars.contains m → vars.contains n → r m = r n → m = n)
    (hfresh : ∀ n, vars.contains n → .word (r n) ∈ ts → vars.contains (r n)) :
    let ρ := renameBound vars.contains r
    evalTokens (vars.rename r) (ts.map (Token.rename ρ)) =
      (evalTokens vars ts).mapError (ShellError.rename ρ) := by
  intro ρ
  have hfits : Parser.Fits vars.contains (vars.rename r).contains ρ ts :=
    Parser.fits_renameBound hinj hfresh
  unfold evalTokens
  rw [ofTokens_rename hfits]
  cases hread : ofTokens vars.contains ts with
  | error e => rfl
  | ok e =>
      have hvalue : (e.rename ρ).eval (vars.rename r) = e.eval vars := by
        refine eval_rename e fun w hw => ?_
        obtain ⟨hbound, hfixed⟩ := hfits w (word_mem_of_derives (derives_of_ofTokens hread) w hw)
        cases hw : vars.contains w with
        | true =>
            have hρ : ρ w = r w := if_pos hw
            have hne : vars.get? w ≠ none := Option.isSome_iff_ne_none.mp hw
            rw [hρ]
            exact ⟨Variables.get?_rename hinj hw, fun h => absurd h hne⟩
        | false =>
            rw [hw] at hbound
            have hnone := Option.isSome_eq_false_iff.mp hw
            have hnone' := Option.isSome_eq_false_iff.mp hbound
            rw [Option.isNone_iff_eq_none] at hnone hnone'
            exact ⟨hnone'.trans hnone.symm, fun _ => hfixed hw⟩
      simp only [Except.map, Except.mapError, hvalue]
      cases e.eval vars <;> rfl

theorem evalTokens_rename_keywords :
    let vars : Variables := .ofList [("and", .integer 5), ("not", .integer 1)]
    let r : String → String := fun n => "new_" ++ n
    let ts : List Token := [.word "and", .word "is", .word "not", .plus, .integer 4]
    (∀ m n, vars.contains m → vars.contains n → r m = r n → m = n) ∧
      (∀ n, vars.contains n → .word (r n) ∈ ts → vars.contains (r n)) ∧
      evalTokens vars ts = .ok (.boolean true) ∧
      evalTokens (.ofList [("new_and", .integer 5), ("new_not", .integer 1)])
        [.word "new_and", .word "is", .word "new_not", .plus, .integer 4] =
          .ok (.boolean true) := by
  intro vars r ts
  have hinj : ∀ m n, vars.contains m → vars.contains n → r m = r n → m = n := by
    intro m n _ _ h
    exact String.append_right_inj _ |>.mp h
  have hfresh : ∀ n, vars.contains n → .word (r n) ∈ ts → vars.contains (r n) := by
    intro n hn hmem
    have hn' : n ∈ ["and", "not"] := (vars.contains_iff_mem_keys n).mp hn
    have hnew : ∀ n ∈ ["and", "not"], .word (r n) ∉ ts := by decide
    exact absurd hmem (hnew n hn')
  have hvalue : evalTokens vars ts = .ok (.boolean true) := by decide
  have hrenamed := evalTokens_rename vars r ts hinj hfresh
  rw [hvalue] at hrenamed
  exact ⟨hinj, hfresh, hvalue, hrenamed⟩

end Expr

end

end LineShell
