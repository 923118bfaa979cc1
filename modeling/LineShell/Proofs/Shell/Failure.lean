import LineShell.Proofs.Shell.Restart

/-!
# Lines that cannot be kept

A shell submits a line before it keeps it, and does not take back what the line did if that fails
(`executeOn_error_cases`). So a line that is answered with an error has changed the session as if it
had been kept. Whether a line can be kept is a matter of the history file
(`exists_executeOn_error_iff`), and a line that cannot be kept changes no file
(`file_iff_of_executeOn_error`).
-/

namespace LineShell.Shell

open FileSystem
open Session (block)

variable {sh sh' : Shell} {mc mc' : Machine} {line : String} {e : ShellError}

/-- Only keeping a line can fail, and the line was submitted before. -/
theorem executeOn_error_cases (h : sh.executeOn line mc = ((sh', .error e), mc')) :
    Text.trim line ≠ "" ∧ sh' = { sh with session := (sh.session.submit line).1 } ∧
      mc.run (sh.config.appendHistory (Text.trim line)) = (.error e, mc') := by
  by_cases hline : Text.trim line = ""
  · rw [sh.executeOn_of_blank mc hline] at h
    cases (Prod.ext_iff.mp (Prod.ext_iff.mp h).1).2
  · obtain ⟨o, heq⟩ := sh.executeOn_of_ne_blank mc hline
    rw [heq] at h
    rcases hkeep : mc.run (sh.config.appendHistory (Text.trim line)) with ⟨e' | u, mc₁⟩ <;>
      rw [hkeep] at h
    · obtain ⟨hres, rfl⟩ := Prod.ext_iff.mp h
      obtain ⟨rfl, he⟩ := Prod.ext_iff.mp hres
      rw [Except.error.inj he]
      exact ⟨hline, rfl, rfl⟩
    · cases (Prod.ext_iff.mp (Prod.ext_iff.mp h).1).2

/-- An error comes back for lines that are not blank and are to be kept, if the history file cannot
be written: no directory can be made on its way, or no file at its place. -/
theorem exists_executeOn_error_iff (sh : Shell) (line : String) (mc : Machine) :
    (∃ sh' e mc', sh.executeOn line mc = ((sh', .error e), mc')) ↔
      Text.trim line ≠ "" ∧ sh.config.persistHistory = true ∧
        ¬ mc.files.CanWrite mc.directory sh.config.historyFile := by
  have hiff := Config.exists_appendHistory_iff sh.config mc (Text.trim line)
  constructor
  · rintro ⟨sh', e, mc', h⟩
    obtain ⟨hline, -, hkeep⟩ := executeOn_error_cases h
    have hfails : ¬ ∃ mc', mc.run (sh.config.appendHistory (Text.trim line)) = (.ok (), mc') := by
      rintro ⟨mc₁, hok⟩
      rw [hkeep] at hok
      cases hok
    rw [hiff, not_or] at hfails
    exact ⟨hline, eq_true_of_ne_false hfails.1, hfails.2⟩
  · rintro ⟨hline, hp, hcan⟩
    obtain ⟨o, heq⟩ := sh.executeOn_of_ne_blank mc hline
    rcases hkeep : mc.run (sh.config.appendHistory (Text.trim line)) with ⟨e | u, mc₁⟩ <;>
      rw [hkeep] at heq
    · exact ⟨_, e, mc₁, heq⟩
    · rcases hiff.mp ⟨mc₁, hkeep⟩ with hp' | hcan'
      · rw [hp] at hp'
        cases hp'
      · exact absurd hcan' hcan

/-- A line that cannot be kept changes no file, the history file included. -/
theorem file_iff_of_executeOn_error (h : sh.executeOn line mc = ((sh', .error e), mc'))
    (pl : Place) (b : ByteArray) :
    mc'.files.node? pl = some (.file b) ↔ mc.files.node? pl = some (.file b) :=
  (Config.file_iff_of_appendHistory_error (executeOn_error_cases h).2.2).2.2 pl b

/-! ## A history file that cannot be written -/

/-- A configuration whose history file would be in a directory, where a file stands instead. -/
def keepingBehindFile : Config := { keeping with historyFile := ⟨"h.txt/lines"⟩ }

theorem run_start_behindFile :
    (machineWith "").run (Shell.start keepingBehindFile .text) =
      (.ok { config := keepingBehindFile, session := .start (.empty 1000), format := .text },
        machineWith "") := by
  have hmissing : (machineWith "").files.pathExists (machineWith "").directory
      keepingBehindFile.historyFile = false := by decide
  rw [run_start, Config.run_loadHistory_of_unfound rfl hmissing]
  rfl

theorem exists_executeOn_behindFile (s : Session) {line : String} (h : Text.trim line ≠ "") :
    ∃ mc', Shell.executeOn ⟨keepingBehindFile, s, .text⟩ line (machineWith "") =
      ((⟨keepingBehindFile, (s.submit line).1, .text⟩, .error (.file .alreadyExists)), mc') := by
  have hfails : ∀ l, ((machineWith "").run (keepingBehindFile.appendHistory l)).1 =
      .error (.file .alreadyExists) := fun l => by rfl
  obtain ⟨o, heq⟩ := executeOn_of_ne_blank ⟨keepingBehindFile, s, .text⟩ (machineWith "") h
  rw [hfails] at heq
  exact ⟨_, heq⟩

/-! ## What is left of such a line -/

/-- A line that cannot be kept has been submitted. If an error comes back, the session is the one
that submitting the line leaves: the variables with what the line assigns, and else as they were,
the transcript cleared or with the line and its answer at the end, and the line pushed on the
history, which ends the recall. -/
theorem executeOn_error_leaves (h : sh.executeOn line mc = ((sh', .error e), mc')) :
    sh' = { sh with session := (sh.session.submit line).1 } ∧
      sh'.session.vars = (sh.session.outcome line).assign sh.session.vars ∧
      sh'.session.entries = (if sh.session.outcome line = .cleared then []
        else sh.session.entries ++ block (Text.trim line) (sh.session.outcome line)) ∧
      sh'.session.history = sh.session.history.push (Text.trim line) := by
  obtain ⟨hline, rfl, -⟩ := executeOn_error_cases h
  refine ⟨rfl, ?_, ?_, ?_⟩
  · rw [Session.vars_submit]
  · rw [sh.session.entries_submit hline]
  · rw [(sh.session.history_submit hline).1]

/-- The transcript is cleared although the line is not kept. -/
theorem executeOn_error_leaves_cleared :
    let s := { Session.start (.empty 1000) with entries := [{ kind := .output, text := "1" }] }
    let sh : Shell := { config := keepingBehindFile, session := s, format := .text }
    ∃ sh' mc', sh.executeOn " clear" (machineWith "") =
        ((sh', .error (.file .alreadyExists)), mc') ∧
      sh'.session.vars = s.vars ∧ sh'.session.entries = [] ∧
      sh'.session.history = s.history.push "clear" := by
  intro s sh
  have htrim : Text.trim " clear" = "clear" := by decide
  have hline : Text.trim " clear" ≠ "" := by
    rw [htrim]
    decide
  have hcleared : s.outcome " clear" = .cleared := by decide
  obtain ⟨mc', hrun⟩ := exists_executeOn_behindFile s hline
  obtain ⟨-, hvars, hentries, hhistory⟩ := executeOn_error_leaves hrun
  rw [hcleared] at hvars hentries
  rw [htrim] at hhistory
  exact ⟨_, mc', hrun, hvars, hentries, hhistory⟩

/-- A line that cannot be kept changes the variables, the transcript and the lines of the
history. -/
theorem executeOn_error_changes :
    let mc := machineWith ""
    ∃ sh sh' mc', mc.run (Shell.start keepingBehindFile .text) = (.ok sh, mc) ∧
      sh.executeOn "x = 1" mc = ((sh', .error (.file .alreadyExists)), mc') ∧
      sh'.session.vars ≠ sh.session.vars ∧ sh'.session.entries ≠ sh.session.entries ∧
      sh'.session.history.lines ≠ sh.session.history.lines := by
  intro mc
  have hline : Text.trim "x = 1" ≠ "" := by decide
  let s := Session.start (.empty 1000)
  obtain ⟨mc', hrun⟩ := exists_executeOn_behindFile s hline
  have hassigned : Session.assigned? "x = 1" = some ("x", .integer 1) := by decide
  refine ⟨_, _, mc', run_start_behindFile, hrun, ?_, ?_, ?_⟩
  · show (s.submit "x = 1").1.vars ≠ s.vars
    rw [s.vars_submit_of_eq_some hassigned]
    exact fun h => List.cons_ne_nil _ _ (congrArg OrderedMap.toList h)
  · show (s.submit "x = 1").1.entries ≠ s.entries
    rw [s.entries_submit hline, s.outcome_eq_assigned_iff.mpr hassigned, if_neg (by decide)]
    exact List.cons_ne_nil _ _
  · show (s.submit "x = 1").1.history.lines ≠ s.history.lines
    rw [(s.history_submit hline).1]
    decide

end LineShell.Shell
