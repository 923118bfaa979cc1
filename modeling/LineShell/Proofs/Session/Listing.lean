import LineShell.Proofs.Assignment
import LineShell.Proofs.OrderedMap
import LineShell.Proofs.Session.Submit
import LineShell.Proofs.Text.Pieces
import LineShell.Proofs.Value.Literal
import Mathlib.Data.List.Basic

/-!
# The listing of the variables

The listing that `vars` shows can be submitted again (`submitAll_listing`). It has one row for each
variable, because the variables of a session are such that no row holds a line feed
(`listable_submitAll`), and a row is an assignment of the variable's value (`assigned?_row`) unless
the value is a float.
-/

namespace LineShell

namespace Variables

/-! ## Rows -/

variable {b : String × Value}

/-- What a line can have assigned: the name is a word, and the value fits on one line. -/
def Listable (b : String × Value) : Prop := isWord b.1.toList = true ∧ b.2.OneLine

theorem toList_row (b : String × Value) :
    (row b).toList = b.1.toList ++ ' ' :: '=' :: ' ' :: b.2.literal.toList := by
  rw [row, String.toList_append, String.toList_append, List.append_assoc]
  rfl

theorem trimmed_row (hb : Listable b) (hfloat : b.2.kind ≠ .float) :
    Text.Trimmed (row b).toList := by
  obtain ⟨hne, -, hlast⟩ := Value.trimmed_literal hfloat
  obtain ⟨c, cs, hname, hc, -⟩ := exists_cons_of_isWord hb.1
  have hblank : Text.isBlank c = false := isBlank_of_isWordChar (isWordChar_of_isWordStart hc)
  have hsplit : (row b).toList = c :: ((cs ++ [' ', '=', ' ']) ++ b.2.literal.toList) := by
    rw [toList_row, hname, List.cons_append, List.append_assoc]
    rfl
  rw [hsplit]
  exact Text.trimmed_cons_append hblank hne hlast _

theorem feed_notMem_row (hb : Listable b) (hfloat : b.2.kind ≠ .float) :
    '\n' ∉ (row b).toList := by
  have hname : '\n' ∉ b.1.toList := by
    intro hmem
    exact absurd (isWordChar_of_mem hb.1 _ hmem) (by decide)
  have hliteral := Value.feed_notMem_literal hfloat hb.2
  rw [toList_row]
  simp [hname, hliteral]

end Variables

namespace Session

open Variables

/-- The row of a variable assigns the variable's value to it. -/
theorem assigned?_row {b : String × Value} (hb : Listable b) (hfloat : b.2.kind ≠ .float) :
    assigned? (row b) = some b := by
  obtain ⟨hne, htrimmed⟩ := Value.trimmed_literal hfloat
  have hfeed := Value.feed_notMem_literal hfloat hb.2
  rw [assigned?, Text.trim_of_trimmed (trimmed_row hb hfloat), assignment?, toList_row,
    splitAssignment?_spelled hb.1 htrimmed hne hfeed, Option.map_some]
  dsimp only
  rw [String.ofList_toList, String.ofList_toList, Value.ofText_literal hfloat]

/-! ## What lines assign -/

theorem listable_of_assigned? {line : String} {b : String × Value}
    (h : assigned? line = some b) : Listable b := by
  rw [assigned?, assignment?, Option.map_eq_some_iff] at h
  obtain ⟨⟨name, rest⟩, hsplit, rfl⟩ := h
  have hfeed : '\n' ∉ (String.ofList rest).toList := by
    rw [String.toList_ofList]
    exact feed_notMem_of_splitAssignment? hsplit
  have hname : isWord (String.ofList name).toList = true := by
    rw [String.toList_ofList]
    exact (splitAssignment?_eq_some hsplit).1
  exact ⟨hname, Value.oneLine_ofText hfeed⟩

theorem listable_start (h : History) : ∀ b ∈ (start h).vars.toList, Listable b :=
  fun _ hb => absurd hb List.not_mem_nil

/-- One line leaves only variables that can be listed. -/
theorem listable_submit {s : Session} (hs : ∀ b ∈ s.vars.toList, Listable b) (line : String) :
    ∀ b ∈ (s.submit line).1.vars.toList, Listable b := by
  intro b hb
  cases hline : assigned? line with
  | none =>
      rw [s.vars_submit_of_eq_none hline] at hb
      exact hs b hb
  | some c =>
      rw [s.vars_submit_of_eq_some hline] at hb
      rcases OrderedMap.mem_insertBinding hb with rfl | hb
      · exact listable_of_assigned? hline
      · exact hs b hb

theorem listable_submitAll {s : Session} (hs : ∀ b ∈ s.vars.toList, Listable b)
    (lines : List String) : ∀ b ∈ (s.submitAll lines).vars.toList, Listable b := by
  induction lines generalizing s with
  | nil => exact hs
  | cons line lines ih =>
      rw [submitAll]
      exact ih (listable_submit hs line)

/-! ## The listing -/

theorem outcome_vars (s : Session) (hne : s.vars.toList ≠ []) :
    s.outcome "vars" = .output (Text.joinLines (s.vars.toList.map row)) := by
  have hassign : assignment? "vars" = none := assignment?_of_isWord (by decide)
  have hfind : Commands.builtin.find? "vars" = some Commands.vars := rfl
  have hempty : s.vars.isEmpty = false := by
    rw [OrderedMap.isEmpty, List.isEmpty_eq_false_iff]
    exact hne
  rw [outcome, Outcome.ofLine, Text.trim_of_trimmed (trimmed_of_isWord (by decide)),
    Outcome.ofTrimmed, if_neg (by decide), hassign, Commands.run?, hfind, Option.map_some]
  show Outcome.ofResponse _ (if s.vars.isEmpty then _ else _) = _
  rw [hempty]
  rfl

theorem listing_of_listable {s : Session} (hs : ∀ b ∈ s.vars.toList, Listable b)
    (hne : s.vars.toList ≠ []) (hfloat : ∀ b ∈ s.vars.toList, b.2.kind ≠ .float) (h : History) :
    ∃ text, (s.submit "vars").2 = .output text ∧
      Text.splitLines text = s.vars.toList.map row ∧
      ((start h).submitAll (Text.splitLines text)).vars = s.vars := by
  have hfeed : ∀ r ∈ s.vars.toList.map row, '\n' ∉ r.toList := by
    intro r hr
    obtain ⟨b, hb, rfl⟩ := List.mem_map.mp hr
    exact feed_notMem_row (hs b hb) (hfloat b hb)
  have hsplit := Text.splitLines_joinLines (mt List.map_eq_nil_iff.mp hne) hfeed
  have hassigned : (s.vars.toList.map row).filterMap assigned? = s.vars.toList := by
    have heach : ∀ b ∈ s.vars.toList, (assigned? ∘ row) b = some b := by
      intro b hb
      rw [Function.comp_apply, assigned?_row (hs b hb) (hfloat b hb)]
    rw [List.filterMap_map, List.filterMap_congr heach, List.filterMap_some]
  refine ⟨Text.joinLines (s.vars.toList.map row), ?_, hsplit, ?_⟩
  · rw [snd_submit, s.outcome_vars hne]
  · rw [hsplit, vars_submitAll_start, hassigned, OrderedMap.ofList_toList]

/-- The listing can be submitted again. After any lines, if there is a variable and no float among
the values, `vars` shows one row for each variable, in the order in which they were first assigned,
and a session that is started anew and given the rows as its lines has the same variables: the same
names in the same order, with the same values. -/
theorem submitAll_listing (h h' : History) (lines : List String) :
    let s := (start h).submitAll lines
    s.vars.toList ≠ [] → (∀ b ∈ s.vars.toList, b.2.kind ≠ .float) →
      ∃ text, (s.submit "vars").2 = .output text ∧
        Text.splitLines text = s.vars.toList.map row ∧
        s.vars.keys = ((lines.filterMap assigned?).map Prod.fst).eraseDups ∧
        ((start h').submitAll (Text.splitLines text)).vars = s.vars := by
  intro s hne hfloat
  have hlistable : ∀ b ∈ s.vars.toList, Listable b := listable_submitAll (listable_start h) lines
  have hkeys : s.vars.keys = ((lines.filterMap assigned?).map Prod.fst).eraseDups := by
    rw [vars_submitAll_start, OrderedMap.keys_ofList]
  obtain ⟨text, hout, hsplit, hvars⟩ := listing_of_listable hlistable hne hfloat h'
  exact ⟨text, hout, hsplit, hkeys, hvars⟩

theorem submitAll_listing_quoted :
    let s := (start (History.empty 5)).submitAll
      ["x = 'it's'", "vars = -9223372036854775808", "x = \" 'a\"", "vars", "y = True"]
    s.vars.toList ≠ [] ∧ (∀ b ∈ s.vars.toList, b.2.kind ≠ .float) ∧
      ∃ text, (s.submit "vars").2 = .output text ∧
        Text.splitLines text = ["x = ' 'a'", "vars = -9223372036854775808", "y = True"] ∧
        ((start (History.empty 0)).submitAll (Text.splitLines text)).vars = s.vars := by
  intro s
  have hlist : s.vars.toList =
      [("x", .text " 'a"), ("vars", .integer (-9223372036854775808)), ("y", .boolean true)] := by
    decide
  have hne : s.vars.toList ≠ [] := by
    rw [hlist]
    exact List.cons_ne_nil _ _
  have hfloat : ∀ b ∈ s.vars.toList, b.2.kind ≠ .float := by
    rw [hlist]
    decide
  obtain ⟨text, hout, hsplit, -, hvars⟩ :=
    submitAll_listing (History.empty 5) (History.empty 0) _ hne hfloat
  have hrows : s.vars.toList.map row =
      ["x = ' 'a'", "vars = -9223372036854775808", "y = True"] := by
    rw [hlist]
    decide
  exact ⟨hne, hfloat, text, hout, hsplit.trans hrows, hvars⟩

end Session

end LineShell
