import LineShell.Session

/-!
# Submitting a line

What one line does to a session. A trimmed line comes to one of four things (`ofTrimmed_cases`), and
each part of the session is then a function of the line and its outcome:

- the history takes the line (`history_submit`);
- the transcript takes the line and the text of the outcome, or is cleared (`entries_submit`);
- the variables take an assignment (`vars_submit`).

Of a blank line nothing is left (`submit_of_blank`).
-/

namespace LineShell

namespace Outcome

/-! ## What a line can come to -/

variable {commands : Commands} {vars : Variables} {line name : String} {v : Value}

/-- What an outcome makes of the variables. -/
def assign (o : Outcome) (vars : Variables) : Variables :=
  match o with
  | .assigned name v => vars.insert name v
  | _ => vars

/-- The empty line comes to nothing, an assignment is one whatever else the line could be, and any
other line is answered: it shows something or clears the transcript. -/
theorem ofTrimmed_cases (commands : Commands) (vars : Variables) (line : String) :
    (line = "" ∧ ofTrimmed commands vars line = .empty) ∨
      (∃ name v, assignment? line = some (name, v) ∧
        ofTrimmed commands vars line = .assigned name v) ∨
      (assignment? line = none ∧ ∃ text, ofTrimmed commands vars line = .output text) ∨
      (assignment? line = none ∧ ∃ e, ofTrimmed commands vars line = .failed e) ∨
      (assignment? line = none ∧ ofTrimmed commands vars line = .cleared) := by
  by_cases hline : line = ""
  · exact Or.inl ⟨hline, by rw [hline]; rfl⟩
  · refine Or.inr ?_
    rw [ofTrimmed, if_neg (mt String.isEmpty_iff.mp hline)]
    rcases hassign : assignment? line with _ | ⟨name, v⟩
    · refine Or.inr ?_
      rcases hrun : commands.run? line vars with _ | r
      · unfold ofName ofExpression
        dsimp only
        split
        · cases vars.get? line with
          | some v => exact Or.inl ⟨rfl, _, rfl⟩
          | none => exact Or.inr (Or.inl ⟨rfl, _, rfl⟩)
        · split
          · cases Expr.evalText vars line with
            | ok v => exact Or.inl ⟨rfl, _, rfl⟩
            | error e => exact Or.inr (Or.inl ⟨rfl, _, rfl⟩)
          · exact Or.inr (Or.inl ⟨rfl, _, rfl⟩)
      · cases r with
        | text s => exact Or.inl ⟨rfl, _, rfl⟩
        | clear => exact Or.inr (Or.inr ⟨rfl, rfl⟩)
        | help => exact Or.inl ⟨rfl, _, rfl⟩
    · exact Or.inl ⟨name, v, rfl, rfl⟩

theorem ofTrimmed_eq_empty_iff : ofTrimmed commands vars line = .empty ↔ line = "" := by
  constructor
  · intro h
    rcases ofTrimmed_cases commands vars line with ⟨hline, -⟩ | ⟨_, _, -, ho⟩ | ⟨-, _, ho⟩ |
      ⟨-, _, ho⟩ | ⟨-, ho⟩
    · exact hline
    all_goals cases ho.symm.trans h
  · rintro rfl
    rfl

theorem ofTrimmed_eq_assigned_iff :
    ofTrimmed commands vars line = .assigned name v ↔ assignment? line = some (name, v) := by
  rcases ofTrimmed_cases commands vars line with ⟨rfl, ho⟩ | ⟨_, _, ha, ho⟩ | ⟨ha, _, ho⟩ |
    ⟨ha, _, ho⟩ | ⟨ha, ho⟩
  · have hnone : assignment? "" = none := rfl
    simp [ho, hnone]
  all_goals simp [ho, ha]

/-- What is neither an assignment nor a command is a name or an expression. -/
theorem ofTrimmed_of_unclaimed (hline : line ≠ "") (hassign : assignment? line = none)
    (hfind : commands.find? line = none) :
    ofTrimmed commands vars line =
      if isWord line.toList then ofName vars line else ofExpression vars line := by
  rw [ofTrimmed, if_neg (mt String.isEmpty_iff.mp hline), hassign, Commands.run?, hfind]
  rfl

end Outcome

namespace Session

/-! ## What a line does to each part of a session -/

/-- What a line and its outcome add to the transcript. -/
def block (line : String) (o : Outcome) : List Entry :=
  { kind := .input, text := line } :: (Entry.ofOutcome? o).toList

theorem outcome_eq_empty_iff (s : Session) (line : String) :
    s.outcome line = .empty ↔ Text.trim line = "" := by
  rw [outcome, Outcome.ofLine, Outcome.ofTrimmed_eq_empty_iff]

theorem history_carryOut (s : Session) (o : Outcome) : (s.carryOut o).history = s.history := by
  cases o <;> rfl

theorem vars_carryOut (s : Session) (o : Outcome) : (s.carryOut o).vars = o.assign s.vars := by
  cases o <;> rfl

theorem entries_carryOut (s : Session) (o : Outcome) :
    (s.carryOut o).entries =
      if o = .cleared then [] else s.entries ++ (Entry.ofOutcome? o).toList := by
  cases o <;> rfl

theorem submit_of_blank (s : Session) {line : String} (h : Text.trim line = "") :
    s.submit line = (s, .empty) := by
  rw [submit, (s.outcome_eq_empty_iff line).mpr h]

theorem submit_of_ne_blank (s : Session) {line : String} (h : Text.trim line ≠ "") :
    s.submit line = ((s.record (Text.trim line)).carryOut (s.outcome line), s.outcome line) := by
  have hne := mt (s.outcome_eq_empty_iff line).mp h
  unfold submit
  cases hout : s.outcome line
  case empty => exact absurd hout hne
  all_goals rfl

theorem snd_submit (s : Session) (line : String) : (s.submit line).2 = s.outcome line := by
  by_cases h : Text.trim line = ""
  · rw [s.submit_of_blank h, (s.outcome_eq_empty_iff line).mpr h]
  · rw [s.submit_of_ne_blank h]

/-- A line that is not blank goes to the end of the history. -/
theorem history_submit (s : Session) {line : String} (h : Text.trim line ≠ "") :
    (s.submit line).1.history = s.history.push (Text.trim line) ∧ (s.submit line).2 ≠ .empty := by
  constructor
  · rw [s.submit_of_ne_blank h, history_carryOut]
    rfl
  · rw [snd_submit]
    exact mt (s.outcome_eq_empty_iff line).mp h

theorem vars_submit (s : Session) (line : String) :
    (s.submit line).1.vars = (s.outcome line).assign s.vars := by
  by_cases h : Text.trim line = ""
  · rw [s.submit_of_blank h, (s.outcome_eq_empty_iff line).mpr h]
    rfl
  · rw [s.submit_of_ne_blank h, vars_carryOut]
    rfl

theorem entries_submit (s : Session) {line : String} (h : Text.trim line ≠ "") :
    (s.submit line).1.entries =
      if s.outcome line = .cleared then []
      else s.entries ++ block (Text.trim line) (s.outcome line) := by
  rw [s.submit_of_ne_blank h, entries_carryOut, record, List.append_assoc]
  rfl

/-- What a line assigns, if it is an assignment. -/
def assigned? (line : String) : Option (String × Value) := assignment? (Text.trim line)

theorem outcome_eq_assigned_iff (s : Session) {line name : String} {v : Value} :
    s.outcome line = .assigned name v ↔ assigned? line = some (name, v) := by
  rw [outcome, Outcome.ofLine, Outcome.ofTrimmed_eq_assigned_iff, assigned?]

theorem vars_submit_of_eq_some (s : Session) {line name : String} {v : Value}
    (h : assigned? line = some (name, v)) : (s.submit line).1.vars = s.vars.insert name v := by
  rw [vars_submit, s.outcome_eq_assigned_iff.mpr h]
  rfl

theorem vars_submit_of_eq_none (s : Session) {line : String} (h : assigned? line = none) :
    (s.submit line).1.vars = s.vars := by
  rw [vars_submit]
  cases hout : s.outcome line with
  | assigned name v =>
      rw [s.outcome_eq_assigned_iff.mp hout] at h
      cases h
  | empty | output text | failed e | cleared => rfl

/-! ## Lines one after the other -/

/-- Submits lines one after the other. -/
def submitAll (s : Session) : List String → Session
  | [] => s
  | line :: lines => (s.submit line).1.submitAll lines

theorem submitAll_append (s : Session) (lines lines' : List String) :
    s.submitAll (lines ++ lines') = (s.submitAll lines).submitAll lines' := by
  induction lines generalizing s with
  | nil => rfl
  | cons line lines ih => rw [List.cons_append, submitAll, ih, submitAll]

theorem vars_submitAll (s : Session) (lines : List String) :
    (s.submitAll lines).vars =
      (lines.filterMap assigned?).foldl (fun vars b => vars.insert b.1 b.2) s.vars := by
  induction lines generalizing s with
  | nil => rfl
  | cons line lines ih =>
      rw [submitAll, ih]
      cases h : assigned? line with
      | none => rw [s.vars_submit_of_eq_none h, List.filterMap_cons_none h]
      | some b => rw [s.vars_submit_of_eq_some h, List.filterMap_cons_some h, List.foldl_cons]

/-- The variables of a session that was just started are those that its lines assign. -/
theorem vars_submitAll_start (h : History) (lines : List String) :
    ((start h).submitAll lines).vars = OrderedMap.ofList (lines.filterMap assigned?) :=
  vars_submitAll (start h) lines

end Session

end LineShell
