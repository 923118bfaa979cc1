import LineShell.Proofs.Config.HistoryFile
import LineShell.Proofs.Session.Submit
import LineShell.Shell

/-!
# Runs of a shell

A shell that runs a line pushes it on its history and writes it to the end of the history file. What
many lines leave behind follows by induction on the run, and so does that a run goes well as long as
the history file can be written.
-/

namespace LineShell

open FileSystem

namespace Shell

/-! ## Running lines -/

/-- Runs a line on a machine. -/
def executeOn (sh : Shell) (line : String) (mc : Machine) :
    (Shell × Except ShellError (Outcome × List String)) × Machine :=
  StateT.run (m := Id) (sh.execute line) mc

variable {sh sh' : Shell} {mc mc' : Machine}

/-- Runs lines one after the other. All are kept. -/
inductive Executes : Shell → Machine → List String → Shell → Machine → Prop
  | nil (sh : Shell) (mc : Machine) : Executes sh mc [] sh mc
  | cons {sh sh' sh'' : Shell} {mc mc' mc'' : Machine} {line : String} {lines : List String}
      {o : Outcome × List String} (h : sh.executeOn line mc = ((sh', .ok o), mc'))
      (hrest : Executes sh' mc' lines sh'' mc'') : Executes sh mc (line :: lines) sh'' mc''

/-- A result that was decided on is given back unless the line cannot be kept. -/
theorem run_keep (mc : Machine) (act : ExceptT ShellError (StateM Machine) Unit) (sh₁ : Shell)
    (o : Outcome × List String) :
    StateT.run (m := Id) (act.run >>= fun r =>
      match r with
      | .ok () => pure (sh₁, Except.ok o)
      | .error e => pure (sh₁, Except.error e)) mc =
      ((sh₁, (mc.run act).1.map fun _ => o), (mc.run act).2) := by
  have hrun : StateT.run (m := Id) act.run mc = mc.run act := rfl
  rw [StateT.run_bind, hrun]
  rcases mc.run act with ⟨e | u, mc₁⟩ <;> rfl

theorem executeOn_of_blank (sh : Shell) (mc : Machine) {line : String} (h : Text.trim line = "") :
    sh.executeOn line mc = ((sh, .ok (.empty, [])), mc) := by
  unfold executeOn execute submit
  rw [sh.session.submit_of_blank h]
  rfl

/-- The line is submitted in any case, and what comes of it is given back if it could be kept. -/
theorem executeOn_of_ne_blank (sh : Shell) (mc : Machine) {line : String}
    (h : Text.trim line ≠ "") :
    ∃ o, sh.executeOn line mc =
      (({ sh with session := (sh.session.submit line).1 },
          (mc.run (sh.config.appendHistory (Text.trim line))).1.map fun _ => o),
        (mc.run (sh.config.appendHistory (Text.trim line))).2) := by
  have hne := (sh.session.history_submit h).2
  unfold executeOn execute submit
  generalize sh.session.submit line = r at hne ⊢
  obtain ⟨session, out⟩ := r
  cases out
  case empty => exact absurd rfl hne
  all_goals exact ⟨_, run_keep mc _ _ _⟩

/-- A blank line changes nothing. Any other goes to the history and to the history file. -/
theorem execute_cases {line : String} {o : Outcome × List String}
    (h : sh.executeOn line mc = ((sh', .ok o), mc')) :
    sh'.config = sh.config ∧
      (Text.trim line = "" ∧ sh'.session.history = sh.session.history ∧ mc' = mc ∨
        Text.trim line ≠ "" ∧
          sh'.session.history = sh.session.history.push (Text.trim line) ∧
          mc.run (sh.config.appendHistory (Text.trim line)) = (.ok (), mc')) := by
  by_cases hline : Text.trim line = ""
  · rw [sh.executeOn_of_blank mc hline] at h
    obtain ⟨hres, rfl⟩ := Prod.ext_iff.mp h
    obtain ⟨rfl, -⟩ := Prod.ext_iff.mp hres
    exact ⟨rfl, Or.inl ⟨hline, rfl, rfl⟩⟩
  · obtain ⟨o', heq⟩ := sh.executeOn_of_ne_blank mc hline
    rw [heq] at h
    rcases hkeep : mc.run (sh.config.appendHistory (Text.trim line)) with ⟨e | u, mc₁⟩ <;>
      rw [hkeep] at h
    · cases (Prod.ext_iff.mp (Prod.ext_iff.mp h).1).2
    · obtain ⟨hres, rfl⟩ := Prod.ext_iff.mp h
      obtain ⟨rfl, -⟩ := Prod.ext_iff.mp hres
      refine ⟨rfl, Or.inr ⟨hline, ?_, rfl⟩⟩
      rw [(sh.session.history_submit hline).1]

/-- The lines among them that are kept: trimmed, and not blank. -/
def submitted (lines : List String) : List String := (lines.map Text.trim).filter (· ≠ "")

theorem submitted_cons (line : String) (lines : List String) :
    submitted (line :: lines) =
      if Text.trim line = "" then submitted lines else Text.trim line :: submitted lines := by
  rw [submitted, List.map_cons, List.filter_cons]
  by_cases h : Text.trim line = ""
  · rw [if_neg (by simpa using h), if_pos h]
    rfl
  · rw [if_pos (by simpa using h), if_neg h]
    rfl

/-- The text that keeping lines writes. -/
def writtenText (lines : List String) : String :=
  String.ofList (Text.feedLines (lines.map String.toList))

theorem writtenText_cons (line : String) (lines : List String) :
    writtenText (line :: lines) = (line ++ "\n") ++ writtenText lines := by
  rw [← String.toList_inj]
  simp [writtenText, Text.feedLines]

/-- What keeping lines one after the other leaves behind: all of them at the end of the history
file. -/
theorem forM_appendHistory_leaves {c : Config} {lines : List String} (hp : c.persistHistory = true)
    (h : mc.run (forM lines c.appendHistory) = (.ok (), mc')) :
    lines = [] ∧ mc' = mc ∨
      lines ≠ [] ∧ mc'.directory = mc.directory ∧
        mc'.files.read mc.directory c.historyFile =
          .ok (c.historyBytes mc ++ (writtenText lines).toUTF8) := by
  induction lines generalizing mc with
  | nil => exact Or.inl ⟨rfl, (Prod.ext_iff.mp h).2.symm⟩
  | cons line lines ih =>
      rw [List.forM_cons] at h
      obtain ⟨u, mc₁, hkeep, hrest⟩ := Machine.exists_of_run_bind_eq_ok h
      obtain ⟨hdir, hread⟩ := Config.read_of_appendHistory hp hkeep
      refine Or.inr ⟨List.cons_ne_nil _ _, ?_⟩
      -- The lines that follow are written behind what this one has left.
      have hheld : c.historyBytes mc₁ = c.historyBytes mc ++ (line ++ "\n").toUTF8 :=
        Config.historyBytes_of_read (hdir ▸ hread)
      rw [writtenText_cons, String.toUTF8_eq_toByteArray, String.toByteArray_append,
        ← ByteArray.append_assoc, ← String.toUTF8_eq_toByteArray, ← hheld]
      rcases ih hrest with ⟨rfl, rfl⟩ | ⟨-, hdir', hread'⟩
      · have hempty : (writtenText []).toByteArray = ByteArray.empty := rfl
        rw [hempty, ByteArray.append_empty, hheld]
        exact ⟨hdir, hread⟩
      · rw [hdir] at hdir' hread'
        exact ⟨hdir', hread'⟩

/-- A run pushes its lines on the history and keeps them. -/
theorem Executes.keeps {lines : List String} (h : Executes sh mc lines sh' mc') :
    sh'.session.history = sh.session.history.pushAll (submitted lines) ∧
      mc.run (forM (submitted lines) sh.config.appendHistory) = (.ok (), mc') := by
  induction h with
  | nil sh mc => exact ⟨rfl, rfl⟩
  | @cons sh sh₁ sh' mc mc₁ mc' line lines o hline hrest ih =>
      obtain ⟨hconfig, hcases⟩ := execute_cases hline
      obtain ⟨hhistory, hkept⟩ := ih
      rw [hconfig] at hkept
      rw [submitted_cons]
      rcases hcases with ⟨hblank, hsame, rfl⟩ | ⟨hblank, hpush, hkeep⟩
      · rw [if_pos hblank, ← hsame]
        exact ⟨hhistory, hkept⟩
      · rw [if_neg hblank, List.forM_cons, Machine.run_bind_of_eq_ok _ hkeep]
        exact ⟨by rw [hhistory, hpush]; rfl, hkept⟩

theorem Executes.leaves {lines : List String} (hp : sh.config.persistHistory = true)
    (h : Executes sh mc lines sh' mc') :
    sh'.session.history = sh.session.history.pushAll (submitted lines) ∧
      (submitted lines = [] ∧ mc' = mc ∨
        submitted lines ≠ [] ∧ mc'.directory = mc.directory ∧
          mc'.files.read mc.directory sh.config.historyFile =
            .ok (sh.config.historyBytes mc ++ (writtenText (submitted lines)).toUTF8)) :=
  ⟨h.keeps.1, forM_appendHistory_leaves hp h.keeps.2⟩

/-! ## Runs in which all lines are kept -/

/-- A line is kept whenever the history file can be written, and then the next one can be, too. -/
theorem exists_executeOn (hp : sh.config.persistHistory = true)
    (hcan : mc.files.CanWrite mc.directory sh.config.historyFile) (line : String) :
    ∃ sh' o mc', sh.executeOn line mc = ((sh', .ok o), mc') ∧ sh'.config = sh.config ∧
      mc'.files.CanWrite mc'.directory sh.config.historyFile := by
  by_cases hline : Text.trim line = ""
  · exact ⟨_, _, mc, sh.executeOn_of_blank mc hline, rfl, hcan⟩
  · obtain ⟨mc', hkeep, hcan'⟩ := Config.exists_appendHistory hp hcan (Text.trim line)
    obtain ⟨o, heq⟩ := sh.executeOn_of_ne_blank mc hline
    rw [hkeep, Except.map] at heq
    exact ⟨_, o, mc', heq, rfl, hcan'⟩

/-- If the history file can be written, every run goes well. -/
theorem exists_executes (hp : sh.config.persistHistory = true)
    (hcan : mc.files.CanWrite mc.directory sh.config.historyFile) (lines : List String) :
    ∃ sh' mc', Executes sh mc lines sh' mc' := by
  induction lines generalizing sh mc with
  | nil => exact ⟨sh, mc, .nil sh mc⟩
  | cons line lines ih =>
      obtain ⟨sh₁, o, mc₁, hline, hconfig, hcan'⟩ := exists_executeOn hp hcan line
      rw [← hconfig] at hp hcan'
      obtain ⟨sh', mc', hrest⟩ := ih hp hcan'
      exact ⟨sh', mc', .cons hline hrest⟩

end Shell

end LineShell
