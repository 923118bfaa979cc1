import LineShell.Proofs.Session.Run

/-!
# What later lines depend on

Of all that happens in a session, only assignments have a say in what later lines come to. Two runs
are compared: one through all submissions and recalls, and one, with a history of its own, through
nothing but the lines that assign. They end with the same variables (`vars_run`), because whether a
line assigns is a matter of its text (`assigns`) and every other step leaves the variables alone;
and what a line comes to is a matter of the variables (`snd_submit_congr`).
-/

namespace LineShell.Session

/-- The line is an assignment, whatever was submitted before it. -/
def assigns (line : String) : Bool := (splitAssignment? (Text.trim line).toList).isSome

theorem isSome_assigned? (line : String) : (assigned? line).isSome = assigns line := by
  rw [assigned?, assignment?, Option.isSome_map, assigns]

variable {s s' : Session}

theorem snd_submit_congr (h : s.vars = s'.vars) (line : String) :
    (s.submit line).2 = (s'.submit line).2 := by
  rw [snd_submit, snd_submit, outcome, outcome, h]

theorem vars_submit_congr (h : s.vars = s'.vars) (line : String) :
    (s.submit line).1.vars = (s'.submit line).1.vars := by
  cases hline : assigned? line with
  | none => rw [vars_submit_of_eq_none s hline, vars_submit_of_eq_none s' hline, h]
  | some b => rw [vars_submit_of_eq_some s hline, vars_submit_of_eq_some s' hline, h]

/-- A step that submits no assignment leaves the variables as they are. -/
theorem vars_step_of_not_assigns (s : Session) {a : Step} (h : ∀ line ∈ a.line?, ¬ assigns line) :
    (s.step a).vars = s.vars := by
  cases a with
  | submit line =>
      have hnone : assigned? line = none := by
        rw [← Option.not_isSome_iff_eq_none, isSome_assigned?]
        exact h line rfl
      rw [step, s.vars_submit_of_eq_none hnone]
  | older => rfl
  | newer => rfl

theorem run_cons (s : Session) (a : Step) (steps : List Step) :
    s.run (a :: steps) = (s.step a).run steps := rfl

/-- A run has the variables of one through its assigning lines alone. -/
theorem vars_run (h : s.vars = s'.vars) (steps : List Step) :
    (s.run steps).vars = (s'.submitAll ((steps.filterMap Step.line?).filter assigns)).vars := by
  induction steps generalizing s s' with
  | nil => exact h
  | cons a steps ih =>
      rw [run_cons]
      by_cases hline : ∃ line ∈ a.line?, assigns line
      · obtain ⟨line, ha, hassigns⟩ := hline
        obtain rfl : a = .submit line := by
          cases a <;> cases ha
          rfl
        rw [List.filterMap_cons_some ha, List.filter_cons_of_pos hassigns, submitAll, step]
        exact ih (vars_submit_congr h line)
      · have hnot : ∀ line ∈ a.line?, ¬ assigns line := fun line ha hl => hline ⟨line, ha, hl⟩
        have hskip : ((a :: steps).filterMap Step.line?).filter assigns =
            (steps.filterMap Step.line?).filter assigns := by
          cases ha : a.line? with
          | none => rw [List.filterMap_cons_none ha]
          | some line => rw [List.filterMap_cons_some ha, List.filter_cons_of_neg (hnot line ha)]
        rw [hskip]
        exact ih ((s.vars_step_of_not_assigns hnot).trans h)

/-- Only assignments influence later lines. Whatever was submitted and recalled in a session, and
whatever its history was to begin with, the next line comes to the same as in a session with any
other history to which only those of the lines were submitted that are assignments. -/
theorem snd_submit_run_start (h h' : History) (steps : List Step) (line : String) :
    (((start h).run steps).submit line).2 =
      (((start h').submitAll ((steps.filterMap Step.line?).filter assigns)).submit line).2 := by
  have hvars : (start h).vars = (start h').vars := rfl
  exact snd_submit_congr (vars_run hvars steps) line

end LineShell.Session
