import LineShell.Proofs.Shell.Run

/-!
# The history after a restart

A shell that is started later remembers the lines in the history file. The main statement says
exactly when these are the lines that the first shell remembers.
-/

namespace LineShell.Shell

open FileSystem History

variable {sh sh' : Shell} {mc mc' : Machine}

/-! ## Starting again -/

theorem run_start (mc : Machine) (c : Config) (f : OutputFormat) :
    mc.run (Shell.start c f) =
      match mc.run c.loadHistory with
      | (.ok lines, mc') =>
        (.ok { config := c
               session := .start ((History.empty c.maxHistorySize).pushAll lines)
               format := f }, mc')
      | (.error e, mc') => (.error e, mc') := by
  unfold Shell.start
  rw [Machine.run_bind]
  rcases mc.run c.loadHistory with ⟨e | lines, mc'⟩ <;> rfl

variable {c : Config} {f : OutputFormat} {lines : List String} {text : String}

/-- A shell starts with the newest lines of the history file, if it finds one. -/
theorem start_cases (hp : c.persistHistory = true) (htext : c.historyBytes mc = text.toUTF8)
    (h : mc.run (Shell.start c f) = (.ok sh, mc')) :
    mc' = mc ∧ sh.config = c ∧ ∃ loaded, mc.run c.loadHistory = (.ok loaded, mc) ∧
      sh.session.history = (History.empty c.maxHistorySize).pushAll loaded ∧
      loaded = if mc.files.pathExists mc.directory c.historyFile then
        lastN c.maxHistorySize (Config.historyLines text) else [] := by
  rw [run_start] at h
  rcases hload : mc.run c.loadHistory with ⟨e | loaded, mc₁⟩ <;> rw [hload] at h
  · cases h
  · obtain ⟨hsh, rfl⟩ := Prod.ext_iff.mp h
    obtain rfl := Except.ok.inj hsh
    obtain ⟨rfl, hcases⟩ := Config.loadHistory_cases hp hload
    refine ⟨rfl, rfl, loaded, rfl, rfl, ?_⟩
    rcases hcases with ⟨hmissing, rfl⟩ | ⟨s, hread, rfl⟩
    · rw [hmissing]
      rfl
    · rw [Config.historyBytes_of_read hread] at htext
      rw [String.toByteArray_inj.mp htext, if_pos (pathExists_iff.mpr ⟨_, read_eq_ok_iff.mp hread⟩)]

/-- What a second shell remembers after a run in which lines were kept. -/
theorem exists_start_of_read (hp : c.persistHistory = true)
    (hread : mc.files.read mc.directory c.historyFile = .ok text.toUTF8) (f : OutputFormat) :
    ∃ sh, mc.run (Shell.start c f) = (.ok sh, mc) ∧
      sh.session.history.cap = max 1 c.maxHistorySize ∧
      sh.session.history.lines = lastN c.maxHistorySize (Config.historyLines text) := by
  rw [run_start, Config.run_loadHistory_of_read hp hread]
  refine ⟨_, rfl, cap_pushAll _ _, lines_pushAll_empty ?_⟩
  rw [length_lastN]
  omega

theorem trimmed_of_mem_submitted {l : List Char}
    (h : l ∈ (submitted lines).map String.toList) : Text.trimChars l = l ∧ l ≠ [] := by
  obtain ⟨s, hs, rfl⟩ := List.mem_map.mp h
  obtain ⟨hmem, hne⟩ := List.mem_filter.mp hs
  obtain ⟨line, -, rfl⟩ := List.mem_map.mp hmem
  refine ⟨by simp [Text.trim], fun hnil => ?_⟩
  exact of_decide_eq_true hne (String.toList_inj.mp hnil)

/-- When the lines that are read back are those that were remembered. -/
theorem lastN_historyLines_eq_iff (hne : submitted lines ≠ []) (text : String) (m : Nat)
    (seen : Bool) :
    lastN m (Config.historyLines (text ++ writtenText (submitted lines))) =
        lastN m ((if seen then lastN m (Config.historyLines text) else []) ++ submitted lines) ↔
      (∀ l ∈ lastN m (submitted lines), '\n' ∉ l.toList) ∧
        ((∀ ch ∈ Text.unfinished text.toList, Text.isBlank ch = true) ∨
          m < (submitted lines).length) ∧
        (seen = true ∨ m ≤ (submitted lines).length ∨ Config.historyLines text = []) := by
  have hne' : (submitted lines).map String.toList ≠ [] := mt List.map_eq_nil_iff.mp hne
  have hchars := Text.lastN_keptLines_eq_iff hne' (fun l hl => trimmed_of_mem_submitted hl) m
    text.toList seen
  have hback : ((submitted lines).map String.toList).map String.ofList = submitted lines := by
    simp [Function.comp_def]
  have hread : Config.historyLines (text ++ writtenText (submitted lines)) =
      (Text.keptLines (text.toList ++
        Text.feedLines ((submitted lines).map String.toList))).map String.ofList := by
    rw [Config.historyLines_eq, String.toList_append, writtenText, String.toList_ofList]
  have hheld : (if seen then lastN m (Config.historyLines text) else []) ++ submitted lines =
      ((if seen then lastN m (Text.keptLines text.toList) else []) ++
        (submitted lines).map String.toList).map String.ofList := by
    rw [List.map_append, hback, Config.historyLines_eq, ← map_lastN]
    cases seen <;> rfl
  have hfeed : (∀ l ∈ lastN m ((submitted lines).map String.toList), '\n' ∉ l) ↔
      ∀ l ∈ lastN m (submitted lines), '\n' ∉ l.toList := by
    rw [← map_lastN, List.forall_mem_map]
  rw [hread, hheld, ← map_lastN, ← map_lastN,
    List.map_inj_right fun _ _ h => String.ofList_injective h, hchars, hfeed, List.length_map,
    Config.historyLines_eq, List.map_eq_nil_iff]

/-- What a shell remembers after a run, and what a second one remembers that is started then. The
first has the lines that it was started with and those that were kept, the second what it reads. -/
theorem exists_restart (hp : c.persistHistory = true) (htext : c.historyBytes mc = text.toUTF8)
    {mc₁ : Machine} (hstart : mc.run (Shell.start c f) = (.ok sh, mc₁))
    (hrun : Executes sh mc₁ lines sh' mc') (f' : OutputFormat) :
    ∃ sh'' loaded, mc'.run (Shell.start c f') = (.ok sh'', mc') ∧
      loaded = (if mc.files.pathExists mc.directory c.historyFile then
        lastN c.maxHistorySize (Config.historyLines text) else []) ∧
      sh'.session.history.cap = max 1 c.maxHistorySize ∧
      sh''.session.history.cap = max 1 c.maxHistorySize ∧
      sh'.session.history.lines =
        lastN (max 1 c.maxHistorySize) (loaded ++ submitted lines) ∧
      sh''.session.history.lines =
        if submitted lines = [] then lastN (max 1 c.maxHistorySize) loaded
        else lastN c.maxHistorySize
          (Config.historyLines (text ++ writtenText (submitted lines))) := by
  obtain ⟨rfl, hconfig, loaded, hload, hhistory, hloaded⟩ := start_cases hp htext hstart
  have hfit : loaded.length ≤ max 1 c.maxHistorySize := by
    rw [hloaded]
    split
    · rw [length_lastN]
      omega
    · exact Nat.zero_le _
  obtain ⟨hpushed, hfile⟩ := hrun.leaves (hconfig ▸ hp)
  rw [hhistory] at hpushed
  have hcap : sh'.session.history.cap = max 1 c.maxHistorySize := by
    rw [hpushed, cap_pushAll, cap_pushAll]
    rfl
  have hlines : sh'.session.history.lines =
      lastN (max 1 c.maxHistorySize) (loaded ++ submitted lines) := by
    rw [hpushed, lines_pushAll_pushAll hfit]
  rcases hfile with ⟨hnone, rfl⟩ | ⟨hsome, hdir, hread⟩
  · -- Nothing was kept, so the second shell starts as the first one did.
    rw [run_start, hload]
    refine ⟨_, loaded, rfl, hloaded, hcap, cap_pushAll _ _, hlines, ?_⟩
    rw [if_pos hnone, lastN_of_length_le hfit]
    exact lines_pushAll_empty hfit
  · have hkept : mc'.files.read mc'.directory c.historyFile =
        .ok (text ++ writtenText (submitted lines)).toUTF8 := by
      rw [hdir, ← hconfig, hread, hconfig, htext, String.toUTF8_eq_toByteArray,
        String.toUTF8_eq_toByteArray, String.toUTF8_eq_toByteArray, String.toByteArray_append]
    obtain ⟨sh'', hrestart, hcap', hlines'⟩ := exists_start_of_read hp hkept f'
    exact ⟨sh'', loaded, hrestart, hloaded, hcap, hcap', hlines, by rw [hlines', if_neg hsome]⟩

/-! ## When a restart restores the history -/

/-- When a restart restores the history. A second shell starts after every run in which all lines
were kept, with the same cap. It has the same lines exactly if no line was kept or all of these
hold: the history is not configured to be empty; none of the newest lines holds a line feed; the
history file ended with a line feed and blanks, or more lines were kept than are remembered; and the
first shell found the file, or there was nothing in it that the second one remembers. -/
theorem restart_eq_iff (hp : c.persistHistory = true) (htext : c.historyBytes mc = text.toUTF8)
    {mc₁ : Machine} (hstart : mc.run (Shell.start c f) = (.ok sh, mc₁))
    (hrun : Executes sh mc₁ lines sh' mc') (f' : OutputFormat) :
    ∃ sh'', mc'.run (Shell.start c f') = (.ok sh'', mc') ∧
      sh''.session.history.cap = sh'.session.history.cap ∧
      (sh''.session.history.lines = sh'.session.history.lines ↔
        submitted lines = [] ∨
        0 < c.maxHistorySize ∧
          (∀ l ∈ lastN c.maxHistorySize (submitted lines), '\n' ∉ l.toList) ∧
          ((∀ ch ∈ Text.unfinished text.toList, Text.isBlank ch = true) ∨
            c.maxHistorySize < (submitted lines).length) ∧
          (mc.files.pathExists mc.directory c.historyFile = true ∨
            c.maxHistorySize ≤ (submitted lines).length ∨ Config.historyLines text = [])) := by
  obtain ⟨sh'', loaded, hrestart, hloaded, hcap, hcap', hlines, hlines'⟩ :=
    exists_restart hp htext hstart hrun f'
  refine ⟨sh'', hrestart, hcap'.trans hcap.symm, ?_⟩
  rw [hlines, hlines']
  by_cases hnone : submitted lines = []
  · rw [if_pos hnone, hnone, List.append_nil]
    exact ⟨fun _ => Or.inl rfl, fun _ => rfl⟩
  · rw [if_neg hnone, or_iff_right hnone]
    rcases Nat.eq_zero_or_pos c.maxHistorySize with hzero | hpos
    · -- One line is remembered, but none is read back.
      rw [hzero, lastN_zero]
      refine ⟨fun h => ?_, fun h => absurd h.1 (Nat.lt_irrefl 0)⟩
      have hlen := congrArg List.length h
      have hlt := List.length_pos_iff.mpr hnone
      rw [length_lastN, List.length_append, List.length_nil] at hlen
      omega
    · rw [Nat.max_eq_right hpos, hloaded, lastN_historyLines_eq_iff hnone, and_iff_right hpos]

/-- A machine with a history file. -/
def machineWith (history : String) : Machine where
  files := FileSystem.empty.put ["h.txt"] (.file history.toUTF8)
  directory := []
  environment := .ofList [("HOME", "/home/user")]

/-- The default configuration, but with lines kept in that file. -/
def keeping : Config :=
  { Config.default (machineWith "").environment with
    persistHistory := true
    historyFile := ⟨"h.txt"⟩ }

theorem file_machineWith (history : String) :
    (machineWith history).files.node? ["h.txt"] = some (.file history.toUTF8) := by
  rw [machineWith, node?_put _ (List.cons_ne_nil _ _), if_pos rfl]

theorem canWrite_machineWith (history : String) :
    (machineWith history).files.CanWrite (machineWith history).directory keeping.historyFile := by
  refine canWrite_name _ ⟨by decide, by decide, by decide, by decide⟩
    ⟨by decide, by decide⟩ (by decide) (by decide) ?_
  rw [file_machineWith]
  exact fun heq => nomatch heq

theorem read_machineWith (history : String) :
    (machineWith history).files.read (machineWith history).directory keeping.historyFile =
      .ok history.toUTF8 := by
  have hcan := canWrite_machineWith history
  have hway : onTheWay [] keeping.historyFile = [[]] := by decide
  have hdest : destination [] keeping.historyFile = ["h.txt"] := by decide
  rw [read_eq_ok_iff, find_eq_ok_iff]
  refine ⟨hcan.isValid, fun d hd => ?_, ?_, fun hslash => ?_⟩
  · show (machineWith history).files.node? d = _
    have hd' : d ∈ onTheWay [] keeping.historyFile := hd
    rw [hway, List.mem_singleton] at hd'
    rw [hd']
    rfl
  · show (machineWith history).files.node? (destination [] keeping.historyFile) = _
    rw [hdest, file_machineWith]
  · rw [hcan.noSlash] at hslash
    cases hslash

theorem historyBytes_machineWith (history : String) :
    keeping.historyBytes (machineWith history) = history.toUTF8 :=
  Config.historyBytes_of_read (read_machineWith history)

/-- A run of one line on such a machine. -/
theorem exists_run_machineWith (history : String) :
    ∃ sh sh' mc', (machineWith history).run (Shell.start keeping .text) =
        (.ok sh, machineWith history) ∧
      Executes sh (machineWith history) ["x = 1"] sh' mc' := by
  obtain ⟨sh, hstart, -, -⟩ := exists_start_of_read rfl (read_machineWith history) .text
  have hconfig : sh.config = keeping :=
    (start_cases rfl (historyBytes_machineWith history) hstart).2.1
  obtain ⟨sh', mc', hrun⟩ := exists_executes (hconfig ▸ rfl)
    (hconfig ▸ canWrite_machineWith history) ["x = 1"]
  exact ⟨sh, sh', mc', hstart, hrun⟩

/-- A history file that ends in a line feed is restored. -/
theorem restart_eq_of_ended : ∃ sh sh' mc' sh'',
    (machineWith "old\n").run (Shell.start keeping .text) = (.ok sh, machineWith "old\n") ∧
      Executes sh (machineWith "old\n") ["x = 1"] sh' mc' ∧
      mc'.run (Shell.start keeping .text) = (.ok sh'', mc') ∧
      sh''.session.history.lines = sh'.session.history.lines := by
  obtain ⟨sh, sh', mc', hstart, hrun⟩ := exists_run_machineWith "old\n"
  obtain ⟨sh'', hrestart, -, hiff⟩ :=
    restart_eq_iff rfl (historyBytes_machineWith "old\n") hstart hrun .text
  have hended : Text.unfinished "old\n".toList = [] := by decide
  refine ⟨sh, sh', mc', sh'', hstart, hrun, hrestart, hiff.mpr (Or.inr ⟨?_, ?_, ?_, ?_⟩)⟩
  · decide
  · decide
  · exact Or.inl fun ch hch => nomatch hended ▸ hch
  · exact Or.inl (pathExists_iff.mpr ⟨_, read_eq_ok_iff.mp (read_machineWith "old\n")⟩)

/-- If the history file does not end in a line feed, its last line and the first one that is kept
come back as one. -/
theorem restart_ne_of_unended : ∃ sh sh' mc' sh'',
    (machineWith "old").run (Shell.start keeping .text) = (.ok sh, machineWith "old") ∧
      Executes sh (machineWith "old") ["x = 1"] sh' mc' ∧
      mc'.run (Shell.start keeping .text) = (.ok sh'', mc') ∧
      sh'.session.history.lines = ["old", "x = 1"] ∧
      sh''.session.history.lines = ["oldx = 1"] := by
  obtain ⟨sh, sh', mc', hstart, hrun⟩ := exists_run_machineWith "old"
  obtain ⟨sh'', loaded, hrestart, hloaded, -, -, hlines, hlines'⟩ :=
    exists_restart rfl (historyBytes_machineWith "old") hstart hrun .text
  have hseen : (machineWith "old").files.pathExists (machineWith "old").directory
      keeping.historyFile = true :=
    pathExists_iff.mpr ⟨_, read_eq_ok_iff.mp (read_machineWith "old")⟩
  rw [hseen] at hloaded
  rw [hloaded] at hlines hlines'
  refine ⟨sh, sh', mc', sh'', hstart, hrun, hrestart, ?_, ?_⟩
  · rw [hlines]
    decide
  · rw [hlines']
    decide

end LineShell.Shell
