import LineShell.Proofs.Session.Run
import LineShell.Proofs.Shell.Restart

/-!
# What a shell reports

A shell answers a line with its outcome and the entries that are new in the transcript. These are
found by their number: what stands behind as many entries as there were before. That is right
because a line that clears the transcript is answered with no entries, and any other line leaves the
entries that were there in their places (`entries_submit`). So all that was reported since the
transcript was last cleared is the transcript (`entries_submitAll`), and running lines prints all
that submitting them one by one reports, also what is cleared later (`runLines_eq`).
-/

namespace LineShell.Shell

open Session (block)

variable {sh : Shell} {mc : Machine} {p : Path} {text : String}

/-! ## One line -/

/-- A blank line leaves the session as it is, a line that clears leaves no entries, and any other
line is put behind the entries that were there, with what answers it. Only of that the shell
reports. -/
theorem submit_cases (sh : Shell) (line : String) :
    ∃ session o added, sh.submit line = ({ sh with session }, o, added) ∧
      (o = .empty ∧ session = sh.session ∧ added = [] ∨
        o = .cleared ∧ session.entries = [] ∧ added = [] ∨
        o ≠ .empty ∧ o ≠ .cleared ∧ added = block (Text.trim line) o ∧
          session.entries = sh.session.entries ++ added) := by
  unfold submit
  by_cases hline : Text.trim line = ""
  · rw [sh.session.submit_of_blank hline]
    exact ⟨_, _, _, rfl, Or.inl ⟨rfl, rfl, rfl⟩⟩
  · have hentries := sh.session.entries_submit hline
    have hne := (sh.session.history_submit hline).2
    rw [← sh.session.snd_submit] at hentries
    rcases hsub : sh.session.submit line with ⟨session, o⟩
    rw [hsub] at hentries hne
    dsimp only at hentries hne ⊢
    cases o with
    | empty => exact absurd rfl hne
    | cleared => exact ⟨_, _, _, rfl, Or.inr (Or.inl ⟨rfl, hentries, rfl⟩)⟩
    | assigned name v | output text | failed e =>
        rw [if_neg nofun] at hentries
        dsimp only
        rw [hentries, List.drop_left]
        exact ⟨_, _, _, rfl, Or.inr (Or.inr ⟨nofun, nofun, rfl, hentries⟩)⟩

theorem renderEntries_submit (sh : Shell) (line : String) :
    (sh.submit line).1.renderEntries = sh.renderEntries := by
  obtain ⟨session, o, added, hsub, -⟩ := sh.submit_cases line
  rw [hsub]
  rfl

theorem entries_submit (sh : Shell) (line : String) :
    (sh.submit line).1.session.entries =
      if (sh.submit line).2.1 = .cleared then []
      else sh.session.entries ++ (sh.submit line).2.2 := by
  obtain ⟨session, o, added, hsub, hcases⟩ := sh.submit_cases line
  rw [hsub]
  rcases hcases with ⟨rfl, rfl, rfl⟩ | ⟨rfl, hentries, rfl⟩ | ⟨-, hshown, -, hentries⟩
  · exact (List.append_nil _).symm
  · exact hentries
  · rw [if_neg hshown]
    exact hentries

/-! ## Lines one after the other -/

/-- Submits lines one after the other. -/
def submitAll (sh : Shell) : List String → Shell
  | [] => sh
  | line :: lines => (sh.submit line).1.submitAll lines

/-- What the lines are answered with: each with its outcome and the entries that are new. -/
def replies (sh : Shell) : List String → List (Outcome × List Entry)
  | [] => []
  | line :: lines => (sh.submit line).2 :: (sh.submit line).1.replies lines

theorem submitAll_concat (sh : Shell) (lines : List String) (line : String) :
    sh.submitAll (lines ++ [line]) = ((sh.submitAll lines).submit line).1 := by
  induction lines generalizing sh with
  | nil => rw [List.nil_append, submitAll, submitAll, submitAll]
  | cons first lines ih => rw [List.cons_append, submitAll, ih, submitAll]

theorem replies_concat (sh : Shell) (lines : List String) (line : String) :
    sh.replies (lines ++ [line]) = sh.replies lines ++ [((sh.submitAll lines).submit line).2] := by
  induction lines generalizing sh with
  | nil => rw [List.nil_append, replies, replies, replies, submitAll, List.nil_append]
  | cons first lines ih =>
      rw [List.cons_append, replies, ih, replies, submitAll, List.cons_append]

theorem entries_of_start {mc' : Machine} {c : Config} {f : OutputFormat}
    (h : mc.run (Shell.start c f) = (.ok sh, mc')) : sh.session.entries = [] := by
  rw [run_start] at h
  rcases hload : mc.run c.loadHistory with ⟨e | loaded, mc₁⟩ <;> rw [hload] at h
  · cases h
  · obtain ⟨hsh, -⟩ := Prod.ext_iff.mp h
    obtain rfl := Except.ok.inj hsh
    rfl

/-- The transcript of a shell that started without one is what was reported since it was last
cleared. -/
theorem entries_submitAll (h : sh.session.entries = []) (lines : List String) :
    (sh.submitAll lines).session.entries =
      ((sh.replies lines).rtakeWhile fun r => r.1 ≠ .cleared).flatMap fun r => r.2 := by
  induction lines using List.reverseRecOn with
  | nil => exact h
  | append_singleton lines line ih =>
      rw [submitAll_concat, replies_concat, List.rtakeWhile_concat, entries_submit, ih]
      by_cases hcleared : ((sh.submitAll lines).submit line).2.1 = .cleared
      · simp [hcleared]
      · simp [hcleared]

/-! ## Running lines -/

theorem runLines_eq (sh : Shell) (lines : List String) :
    sh.runLines lines =
      (sh.submitAll lines,
        { errors := (sh.replies lines).countP fun r => r.1.isError
          printed := sh.renderEntries ((sh.replies lines).flatMap fun r => r.2) }) := by
  induction lines generalizing sh with
  | nil => rfl
  | cons line lines ih =>
      have hrender := sh.renderEntries_submit line
      rw [runLines, submitAll, replies, List.countP_cons, List.flatMap_cons, renderEntries,
        List.map_append]
      rcases hsub : sh.submit line with ⟨sh', o, added⟩
      rw [hsub] at hrender
      dsimp only at hrender ⊢
      rw [ih sh', hrender, renderEntries, renderEntries]

/-! ## Scripts -/

/-- Runs a script on a machine. -/
def runScriptOn (sh : Shell) (p : Path) (mc : Machine) :
    (Shell × Except ShellError Report) × Machine :=
  StateT.run (m := Id) (sh.runScript p) mc

theorem scriptLines_eq (text : String) :
    scriptLines text =
      ((Text.lines text).map Text.trim).filter fun l => l ≠ "" ∧ l.toList.head? ≠ some '#' := by
  unfold scriptLines
  refine List.filter_congr fun l _ => ?_
  rw [decide_eq_decide, Ne, List.head?_eq_none_iff, String.toList_eq_nil_iff]

theorem runScriptOn_eq
    (h : mc.files.read mc.directory (p.expand mc.environment) = .ok text.toUTF8) :
    sh.runScriptOn p mc =
      (((sh.runLines (scriptLines text)).1, .ok (sh.runLines (scriptLines text)).2), mc) := by
  have hread : StateT.run (m := Id) (Host.readText (p.expand mc.environment) :
      ExceptT ShellError (StateM Machine) String).run mc = (.ok text, mc) := by
    refine (mc.run_readText _).trans ?_
    rw [h]
    dsimp only
    rw [Config.fromUTF8?_eq_some_iff.mpr rfl]
  have henv : StateT.run (m := Id) (Host.environment : StateM Machine Environment) mc =
      (mc.environment, mc) := rfl
  unfold runScriptOn runScript
  rw [StateT.run_bind]
  refine (StateT.run_bind _ _ _).trans ?_
  rw [henv, hread]
  rfl

/-! ## Every entry is reported once -/

/-- Every entry is reported once. A line never drops entries unless it clears the transcript, so
what is new can be cut off from it; nothing is new for a blank line and one that clears, and
otherwise the trimmed line and one answer to it. In a shell that was just started, what was reported
since the transcript was last cleared is the transcript. A script leaves what submitting its lines
leaves that are neither blank nor comments, counts those that fail, and prints all that was
reported, also what was cleared later. -/
theorem reports_once (sh : Shell) :
    (∀ line : String,
      let (sh', o, added) := sh.submit line
      (o = .cleared ∨ sh.session.entries.length ≤ sh'.session.entries.length) ∧
        if o = .empty ∨ o = .cleared then added = []
        else ∃ answer, o.text? = some answer ∧
          added = [{ kind := .input, text := Text.trim line },
            { kind := if o.isError then .error else .output, text := answer }]) ∧
    (∀ (mc mc' : Machine) (c : Config) (f : OutputFormat),
      mc.run (Shell.start c f) = (.ok sh, mc') → ∀ lines,
        (sh.submitAll lines).session.entries =
          ((sh.replies lines).rtakeWhile fun r => r.1 ≠ .cleared).flatMap fun r => r.2) ∧
    ∀ (mc : Machine) (p : Path) (text : String),
      mc.files.read mc.directory (p.expand mc.environment) = .ok text.toUTF8 →
        let lines := ((Text.lines text).map Text.trim).filter fun l =>
          l ≠ "" ∧ l.toList.head? ≠ some '#'
        sh.runScriptOn p mc =
          ((sh.submitAll lines, .ok
            { errors := (sh.replies lines).countP fun r => r.1.isError
              printed := ((sh.replies lines).flatMap fun r => r.2).map sh.renderEntry }), mc) := by
  refine ⟨fun line => ?_, fun mc mc' c f hstart lines => ?_, fun mc p text hread => ?_⟩
  · have hcases := sh.submit_cases line
    generalize sh.submit line = r at hcases ⊢
    obtain ⟨session, o, added, rfl, hcases⟩ := hcases
    rcases hcases with ⟨rfl, rfl, rfl⟩ | ⟨rfl, -, rfl⟩ | ⟨hne, hshown, rfl, hentries⟩
    · exact ⟨Or.inr (Nat.le_refl _), rfl⟩
    · exact ⟨Or.inl rfl, rfl⟩
    · refine ⟨Or.inr ?_, ?_⟩
      · show _ ≤ session.entries.length
        rw [hentries, List.length_append]
        exact Nat.le_add_right _ _
      · rw [if_neg (not_or.mpr ⟨hne, hshown⟩)]
        exact Session.exists_block_eq _ hne hshown
  · exact entries_submitAll (entries_of_start hstart) lines
  · intro lines
    rw [runScriptOn_eq hread, scriptLines_eq, runLines_eq, renderEntries]

/-- The lines of a history file, run as a script. -/
theorem reports_once_of_cleared :
    let text := "# setup\nx = 1\n\nx +\n clear\nx + 1\n"
    ∃ sh, (machineWith text).run (Shell.start keeping .json) = (.ok sh, machineWith text) ∧
      (sh.submitAll ["x = 1", "x +", "clear", "x + 1"]).session.entries =
        [{ kind := .input, text := "x + 1" }, { kind := .output, text := "2" }] ∧
      ∃ report, sh.runScriptOn ⟨"h.txt"⟩ (machineWith text) =
          ((sh.submitAll ["x = 1", "x +", "clear", "x + 1"], .ok report), machineWith text) ∧
        report.errors = 1 ∧
        report.printed =
          ["\x7b\"kind\":\"input\",\"text\":\"x = 1\"\x7d",
            "\x7b\"kind\":\"output\",\"text\":\"x = 1\"\x7d",
            "\x7b\"kind\":\"input\",\"text\":\"x +\"\x7d",
            "\x7b\"kind\":\"error\",\"text\":\"Command not found: x +\"\x7d",
            "\x7b\"kind\":\"input\",\"text\":\"x + 1\"\x7d",
            "\x7b\"kind\":\"output\",\"text\":\"2\"\x7d"] := by
  intro text
  have hread := read_machineWith text
  let sh : Shell :=
    { config := keeping
      session := .start ((History.empty keeping.maxHistorySize).pushAll
        (History.lastN keeping.maxHistorySize (Config.historyLines text)))
      format := .json }
  have hstart : (machineWith text).run (Shell.start keeping .json) =
      (.ok sh, machineWith text) := by
    rw [run_start, Config.run_loadHistory_of_read rfl hread]
  have hexpand : Path.expand (machineWith text).environment ⟨"h.txt"⟩ = keeping.historyFile := by
    decide +kernel
  have hlines : ((Text.lines text).map Text.trim).filter (fun l =>
      l ≠ "" ∧ l.toList.head? ≠ some '#') = ["x = 1", "x +", "clear", "x + 1"] := by
    decide +kernel
  have hentries := (reports_once sh).2.1 _ _ _ _ hstart ["x = 1", "x +", "clear", "x + 1"]
  have hrun := (reports_once sh).2.2 (machineWith text) ⟨"h.txt"⟩ text (hexpand ▸ hread)
  rw [hlines] at hrun
  refine ⟨sh, hstart, hentries.trans ?_, _, hrun, ?_, ?_⟩
  · decide +kernel
  · decide +kernel
  · decide +kernel

end LineShell.Shell
