import LineShell.Proofs.Shell.Restart

/-!
# Lines that are kept and loaded

Keeping lines writes them behind the history file, so what is loaded then are the lines that were
there and the new ones. On texts this is `historyLines_append_writtenText`: the file has to end
where a line ends, and the new lines are trimmed and hold no line feed. A file may stand where the
path leads, and yet not be found, as long as a directory on the way is missing; keeping a line makes
it (`run_loadHistory_of_kept_ne_nil`), and loading without that passes the file over
(`run_loadHistory_ne_of_unfound`).
-/

namespace LineShell.Config

open FileSystem History Shell

variable {mc mc' : Machine} {c : Config} {text : String} {lines : List String}

theorem historyLines_eq_filter (s : String) :
    historyLines s = ((Text.lines s).map Text.trim).filter (· ≠ "") := by
  unfold historyLines
  refine List.filter_congr fun l _ => ?_
  cases h : l.isEmpty with
  | true => simp [String.isEmpty_iff.mp h]
  | false =>
      have hne : l ≠ "" := by
        rintro rfl
        cases h
      simp [hne]

/-- Lines that are kept are loaded behind those that were there. -/
theorem historyLines_append_writtenText (hended : text = "" ∨ ∃ s, text = s ++ "\n")
    (hlines : ∀ l ∈ lines, l ≠ "" ∧ Text.trim l = l ∧ '\n' ∉ l.toList) :
    historyLines (text ++ writtenText lines) = historyLines text ++ lines := by
  have hnone : Text.unfinished text.toList = [] := by
    refine Text.unfinished_of_ended (hended.imp (fun h => by rw [h]; rfl) ?_)
    rintro ⟨s, rfl⟩
    exact ⟨s.toList, String.toList_append⟩
  have hblank : ∀ ch ∈ Text.unfinished text.toList, Text.isBlank ch = true := by
    rw [hnone]
    exact fun ch hch => absurd hch List.not_mem_nil
  have htrim : ∀ l ∈ lines.map String.toList, Text.trimChars l = l ∧ l ≠ [] := by
    rw [List.forall_mem_map]
    intro l hl
    obtain ⟨hne, htrim, -⟩ := hlines l hl
    refine ⟨?_, mt String.toList_eq_nil_iff.mp hne⟩
    rw [Text.trim] at htrim
    rw [← String.toList_inj, String.toList_ofList] at htrim
    exact htrim
  have hfeed : ∀ l ∈ lines.map String.toList, '\n' ∉ l := by
    rw [List.forall_mem_map]
    exact fun l hl => (hlines l hl).2.2
  rw [historyLines_eq, historyLines_eq, String.toList_append, writtenText, String.toList_ofList,
    Text.keptLines_append_feedLines_of_blank hblank htrim hfeed, List.map_append]
  simp [Function.comp_def]

/-- If the history file can be written, any lines can be kept. -/
theorem exists_forM_appendHistory (hp : c.persistHistory = true)
    (hcan : mc.files.CanWrite mc.directory c.historyFile) (lines : List String) :
    ∃ mc', mc.run (forM lines c.appendHistory) = (.ok (), mc') := by
  induction lines generalizing mc with
  | nil => exact ⟨mc, rfl⟩
  | cons line lines ih =>
      obtain ⟨mc₁, hkeep, hcan'⟩ := exists_appendHistory hp hcan line
      obtain ⟨mc', hrest⟩ := ih hcan'
      exact ⟨mc', by rw [List.forM_cons, Machine.run_bind_of_eq_ok _ hkeep, hrest]⟩

/-- What is loaded from a history file that is found. -/
theorem run_loadHistory_of_found (hp : c.persistHistory = true)
    (htext : c.historyBytes mc = text.toUTF8)
    (hdir : mc.files.isDirectory mc.directory c.historyFile = false)
    (hfound : mc.files.pathExists mc.directory c.historyFile = true) :
    mc.run c.loadHistory = (.ok (lastN c.maxHistorySize (historyLines text)), mc) := by
  obtain ⟨n, hn⟩ := pathExists_iff.mp hfound
  cases n with
  | directory =>
      rw [isDirectory_iff.mpr hn] at hdir
      cases hdir
  | file b =>
      have hread := read_eq_ok_iff.mpr hn
      rw [historyBytes_of_read hread] at htext
      rw [htext] at hread
      exact run_loadHistory_of_read hp hread

/-- What is loaded once a line was kept. Keeping it makes the directories on the way, so the file is
found, whether it was before or not. -/
theorem run_loadHistory_of_kept_ne_nil (hp : c.persistHistory = true)
    (htext : c.historyBytes mc = text.toUTF8)
    (hended : text = "" ∨ ∃ s, text = s ++ "\n")
    (hlines : ∀ l ∈ lines, l ≠ "" ∧ Text.trim l = l ∧ '\n' ∉ l.toList) (hne : lines ≠ [])
    (hkeep : mc.run (forM lines c.appendHistory) = (.ok (), mc')) :
    mc'.run c.loadHistory =
      (.ok (lastN c.maxHistorySize (historyLines text ++ lines)), mc') := by
  rcases forM_appendHistory_leaves hp hkeep with ⟨hnil, -⟩ | ⟨-, hsame, hread⟩
  · exact absurd hnil hne
  · rw [htext, String.toUTF8_eq_toByteArray, String.toUTF8_eq_toByteArray,
      ← String.toByteArray_append, ← String.toUTF8_eq_toByteArray, ← hsame] at hread
    rw [run_loadHistory_of_read hp hread, historyLines_append_writtenText hended hlines]

/-- Lines that are kept are loaded again. If the history file is missing, empty or ends with a line
feed, and lines that are trimmed, not empty and without line feeds are kept one after the other, the
newest of these lines are loaded: those that were in the file, trimmed and without the blank ones,
and then those that were kept. For that the file has to be found where the path leads, unless a line
is kept or there is nothing in the file to load. -/
theorem run_loadHistory_of_kept (hp : c.persistHistory = true)
    (htext : c.historyBytes mc = text.toUTF8)
    (hdir : mc.files.isDirectory mc.directory c.historyFile = false)
    (hended : text = "" ∨ ∃ s, text = s ++ "\n")
    (hlines : ∀ l ∈ lines, l ≠ "" ∧ Text.trim l = l ∧ '\n' ∉ l.toList)
    (hkeep : mc.run (forM lines c.appendHistory) = (.ok (), mc')) :
    let before := ((Text.lines text).map Text.trim).filter (· ≠ "")
    mc.files.pathExists mc.directory c.historyFile = true ∨ lines ≠ [] ∨
        lastN c.maxHistorySize before = [] →
      mc'.run c.loadHistory = (.ok (lastN c.maxHistorySize (before ++ lines)), mc') := by
  intro before hfound
  have hbefore : before = historyLines text := (historyLines_eq_filter text).symm
  rw [hbefore] at hfound ⊢
  by_cases hne : lines ≠ []
  · exact run_loadHistory_of_kept_ne_nil hp htext hended hlines hne hkeep
  · obtain rfl := not_not.mp hne
    obtain rfl : mc = mc' := (Prod.ext_iff.mp hkeep).2
    rw [List.append_nil]
    cases hseen : mc.files.pathExists mc.directory c.historyFile with
    | true => exact run_loadHistory_of_found hp htext hdir hseen
    | false =>
        rw [hseen] at hfound
        have hnone := (hfound.resolve_left Bool.false_ne_true).resolve_left hne
        rw [run_loadHistory_of_unfound hp hseen, hnone]

/-- There is room for three lines, and one of those that are kept holds a carriage return. -/
theorem run_loadHistory_of_kept_three :
    let c : Config := { keeping with maxHistorySize := 3 }
    let mc := machineWith "first\n\n old \n"
    let lines := ["x = 1", "y\rz"]
    c.persistHistory = true ∧ c.historyBytes mc = "first\n\n old \n".toUTF8 ∧
      mc.files.isDirectory mc.directory c.historyFile = false ∧
      "first\n\n old \n" = "first\n\n old " ++ "\n" ∧
      (∀ l ∈ lines, l ≠ "" ∧ Text.trim l = l ∧ '\n' ∉ l.toList) ∧ lines ≠ [] ∧
      ∃ mc', mc.run (forM lines c.appendHistory) = (.ok (), mc') ∧
        mc'.run c.loadHistory = (.ok ["old", "x = 1", "y\rz"], mc') := by
  intro c mc lines
  have htext : c.historyBytes mc = "first\n\n old \n".toUTF8 := historyBytes_machineWith _
  have hdir : mc.files.isDirectory mc.directory c.historyFile = false := by
    have hread : mc.files.read mc.directory c.historyFile = _ := read_machineWith _
    rw [read_eq_ok_iff] at hread
    rw [isDirectory, hread]
  have hended : "first\n\n old \n" = "first\n\n old " ++ "\n" := by decide
  have hlines : ∀ l ∈ lines, l ≠ "" ∧ Text.trim l = l ∧ '\n' ∉ l.toList := by decide
  have hne : lines ≠ [] := List.cons_ne_nil _ _
  have hcan : mc.files.CanWrite mc.directory c.historyFile := canWrite_machineWith _
  obtain ⟨mc', hkeep⟩ := exists_forM_appendHistory rfl hcan lines
  have hload := run_loadHistory_of_kept rfl htext hdir (Or.inr ⟨_, hended⟩) hlines hkeep
    (Or.inr (Or.inl hne))
  refine ⟨rfl, htext, hdir, hended, hlines, hne, mc', hkeep, hload.trans ?_⟩
  exact congrArg (fun ls => (Except.ok ls, mc')) (by decide)

/-! ## A history file that is not found -/

/-- A configuration whose history file is there, but on a way by a directory that is missing. -/
def keepingPastMissing : Config := { keeping with historyFile := ⟨"nope/../h.txt"⟩ }

theorem destination_pastMissing : destination [] keepingPastMissing.historyFile = ["h.txt"] := by
  decide

theorem historyBytes_pastMissing (history : String) :
    keepingPastMissing.historyBytes (machineWith history) = history.toUTF8 := by
  show ((machineWith history).files.contents? (destination [] keepingPastMissing.historyFile)).getD
    ByteArray.empty = _
  rw [destination_pastMissing, contents?, file_machineWith, Option.getD_some]

theorem canWrite_pastMissing (history : String) :
    (machineWith history).files.CanWrite (machineWith history).directory
      keepingPastMissing.historyFile := by
  have hempty : empty.CanWrite [] keepingPastMissing.historyFile :=
    canWrite_empty ⟨by decide, by decide, by decide, by decide⟩ (by decide) (by decide)
  have hcan := hempty.put_file history.toUTF8
  rw [destination_pastMissing] at hcan
  exact hcan

/-- A file that ends with a line feed is passed over as long as a directory on the way is missing,
although the line that is kept first brings back what it held. -/
theorem run_loadHistory_ne_of_unfound :
    let c := keepingPastMissing
    let mc := machineWith "old\n"
    c.persistHistory = true ∧ c.historyBytes mc = "old\n".toUTF8 ∧
      mc.files.isDirectory mc.directory c.historyFile = false ∧ "old\n" = "old" ++ "\n" ∧
      mc.run (forM [] c.appendHistory) = (.ok (), mc) ∧
      mc.run c.loadHistory = (.ok [], mc) ∧
      lastN c.maxHistorySize
        (((Text.lines "old\n").map Text.trim).filter (· ≠ "") ++ []) = ["old"] ∧
      ∃ mc', mc.run (forM ["x = 1"] c.appendHistory) = (.ok (), mc') ∧
        mc'.run c.loadHistory = (.ok ["old", "x = 1"], mc') := by
  intro c mc
  have htext : c.historyBytes mc = "old\n".toUTF8 := historyBytes_pastMissing _
  have hmissing : mc.files.pathExists mc.directory c.historyFile = false := by decide
  have hdir : mc.files.isDirectory mc.directory c.historyFile = false := by decide
  have hended : "old\n" = "old" ++ "\n" := by decide
  have hlines : ∀ l ∈ ["x = 1"], l ≠ "" ∧ Text.trim l = l ∧ '\n' ∉ l.toList := by decide
  obtain ⟨mc', hkeep⟩ := @exists_forM_appendHistory mc c rfl (canWrite_pastMissing _) ["x = 1"]
  have hload := run_loadHistory_of_kept_ne_nil rfl htext (Or.inr ⟨_, hended⟩) hlines
    (List.cons_ne_nil _ _) hkeep
  refine ⟨rfl, htext, hdir, hended, rfl, run_loadHistory_of_unfound rfl hmissing, by decide, mc',
    hkeep, hload.trans ?_⟩
  exact congrArg (fun ls => (Except.ok ls, mc')) (by decide)

end LineShell.Config
