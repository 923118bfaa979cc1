import LineShell.Config.Store
import LineShell.Proofs.Machine
import LineShell.Proofs.Text.KeptLines

/-!
# The history file

What loading the history file gives, and what keeping a line leaves in it.
-/

namespace LineShell.Config

open FileSystem History

variable {mc mc' : Machine} {c : Config}

theorem fromUTF8?_eq_some_iff {b : ByteArray} {s : String} :
    String.fromUTF8? b = some s ↔ b = s.toUTF8 := by
  unfold String.fromUTF8?
  constructor
  · intro h
    split at h
    · obtain rfl := Option.some.inj h
      rfl
    · cases h
  · rintro rfl
    exact dif_pos s.isValidUTF8

/-- The lines of a history file are those that are kept in its text. -/
theorem historyLines_eq (s : String) :
    historyLines s = (Text.keptLines s.toList).map String.ofList := by
  have htrim : Text.trim ∘ String.ofList = String.ofList ∘ Text.trimChars := by
    funext cs
    simp [Text.trim]
  rw [historyLines, Text.lines, List.map_map, htrim, ← List.map_map, List.filter_map,
    Text.keptLines, ← Text.map_trimChars_linesOfPieces]
  congr 2
  funext cs
  cases cs with
  | nil => rfl
  | cons c cs => simp

/-! ## Loading -/

theorem run_loadHistory (hp : c.persistHistory = true) (mc : Machine) :
    mc.run c.loadHistory =
      if mc.files.pathExists mc.directory c.historyFile then
        match mc.run (Host.readText c.historyFile) with
        | (.ok s, mc') => (.ok (lastN c.maxHistorySize (historyLines s)), mc')
        | (.error e, mc') => (.error e, mc')
      else (.ok [], mc) := by
  unfold loadHistory
  simp only [hp, Bool.not_true, Bool.false_eq_true, if_false]
  rw [Machine.run_bind_of_eq_ok _ (mc.run_pathExists _)]
  cases mc.files.pathExists mc.directory c.historyFile with
  | false => rfl
  | true =>
      simp only [Bool.not_true, Bool.false_eq_true, if_false, if_true]
      rw [Machine.run_bind]
      rcases mc.run (Host.readText c.historyFile) with ⟨e | s, mc'⟩ <;> rfl

/-- Nothing is loaded if nothing is found; otherwise what is found is a text, and its newest lines
are loaded. -/
theorem loadHistory_cases (hp : c.persistHistory = true) {ls : List String}
    (h : mc.run c.loadHistory = (.ok ls, mc')) : mc' = mc ∧
      (mc.files.pathExists mc.directory c.historyFile = false ∧ ls = [] ∨
        ∃ s : String, mc.files.read mc.directory c.historyFile = .ok s.toUTF8 ∧
          ls = lastN c.maxHistorySize (historyLines s)) := by
  rw [run_loadHistory hp] at h
  split at h
  · rw [Machine.run_readText] at h
    cases hread : mc.files.read mc.directory c.historyFile with
    | error e =>
        rw [hread] at h
        cases h
    | ok b =>
        rw [hread] at h
        simp only at h
        cases hs : String.fromUTF8? b with
        | none =>
            rw [hs] at h
            cases h
        | some s =>
            rw [hs] at h
            obtain ⟨hls, rfl⟩ := Prod.ext_iff.mp h
            obtain rfl := fromUTF8?_eq_some_iff.mp hs
            exact ⟨rfl, Or.inr ⟨s, rfl, (Except.ok.inj hls).symm⟩⟩
  · rename_i hmissing
    obtain ⟨hls, rfl⟩ := Prod.ext_iff.mp h
    exact ⟨rfl, Or.inl ⟨Bool.eq_false_iff.mpr hmissing, (Except.ok.inj hls).symm⟩⟩

theorem run_loadHistory_of_read (hp : c.persistHistory = true) {s : String}
    (h : mc.files.read mc.directory c.historyFile = .ok s.toUTF8) :
    mc.run c.loadHistory = (.ok (lastN c.maxHistorySize (historyLines s)), mc) := by
  have hexists : mc.files.pathExists mc.directory c.historyFile = true :=
    pathExists_iff.mpr ⟨_, read_eq_ok_iff.mp h⟩
  rw [run_loadHistory hp, if_pos hexists, Machine.run_readText, h]
  simp only [fromUTF8?_eq_some_iff.mpr rfl]

/-- A path that leads nowhere stands for a history without lines. -/
theorem run_loadHistory_of_unfound (hp : c.persistHistory = true)
    (h : mc.files.pathExists mc.directory c.historyFile = false) :
    mc.run c.loadHistory = (.ok [], mc) := by
  rw [run_loadHistory hp, h, if_neg Bool.false_ne_true]

/-! ## Keeping a line -/

/-- The contents of the history file, nothing if there is none. -/
def historyBytes (c : Config) (mc : Machine) : ByteArray :=
  (mc.files.contents? (destination mc.directory c.historyFile)).getD ByteArray.empty

theorem historyBytes_of_read {b : ByteArray}
    (h : mc.files.read mc.directory c.historyFile = .ok b) : c.historyBytes mc = b := by
  rw [historyBytes, contents?_of_read h, Option.getD_some]

theorem run_appendHistory_eq_ok_iff (hp : c.persistHistory = true) {line : String} :
    mc.run (c.appendHistory line) = (.ok (), mc') ↔
      ∃ fs₁ fs₂, mc.files.makeParent mc.directory c.historyFile = (.ok (), fs₁) ∧
        fs₁.append mc.directory c.historyFile (line ++ "\n").toUTF8 = .ok fs₂ ∧
        mc' = { mc with files := fs₂ } := by
  unfold appendHistory
  simp only [hp, Bool.not_true, Bool.false_eq_true, if_false]
  constructor
  · intro h
    obtain ⟨u, mc₁, hmake, h⟩ := Machine.exists_of_run_bind_eq_ok h
    rw [Machine.run_makeParent, Machine.outcome_eq_ok_iff] at hmake
    obtain ⟨fs₁, hmake, rfl⟩ := hmake
    rw [Machine.run_append, Machine.outcome_eq_ok_iff] at h
    obtain ⟨fs₂, happend, rfl⟩ := h
    exact ⟨fs₁, fs₂, hmake, after_eq_ok_iff.mp happend, rfl⟩
  · rintro ⟨fs₁, fs₂, hmake, happend, rfl⟩
    have hmade : mc.run (Host.makeParent c.historyFile) = (.ok (), { mc with files := fs₁ }) := by
      rw [Machine.run_makeParent, hmake]
      rfl
    rw [Machine.run_bind_of_eq_ok _ hmade, Machine.run_append]
    exact Machine.outcome_eq_ok_iff.mpr ⟨fs₂, after_eq_ok_iff.mpr happend, rfl⟩

/-- A line that was kept is at the end of the file, which is found from then on. -/
theorem read_of_appendHistory (hp : c.persistHistory = true) {line : String}
    (h : mc.run (c.appendHistory line) = (.ok (), mc')) :
    mc'.directory = mc.directory ∧ mc'.files.read mc.directory c.historyFile =
      .ok (c.historyBytes mc ++ (line ++ "\n").toUTF8) := by
  obtain ⟨fs₁, fs₂, hmake, happend, rfl⟩ := (run_appendHistory_eq_ok_iff hp).mp h
  exact ⟨rfl, read_of_modifyFile hmake happend⟩

/-- If the history file can be written, a line can be kept, and after it the next one. -/
theorem exists_appendHistory (hp : c.persistHistory = true)
    (hcan : mc.files.CanWrite mc.directory c.historyFile) (line : String) :
    ∃ mc', mc.run (c.appendHistory line) = (.ok (), mc') ∧
      mc'.files.CanWrite mc'.directory c.historyFile := by
  obtain ⟨fs₁, fs₂, hmake, happend⟩ := exists_of_canWrite hcan
    fun old? => old?.getD ByteArray.empty ++ (line ++ "\n").toUTF8
  exact ⟨{ mc with files := fs₂ },
    (run_appendHistory_eq_ok_iff hp).mpr ⟨fs₁, fs₂, hmake, happend, rfl⟩,
    canWrite_of_modifyFile hmake happend⟩

/-- A line can be kept if none are to be kept at all, or if the history file can be written. -/
theorem exists_appendHistory_iff (c : Config) (mc : Machine) (line : String) :
    (∃ mc', mc.run (c.appendHistory line) = (.ok (), mc')) ↔
      c.persistHistory = false ∨ mc.files.CanWrite mc.directory c.historyFile := by
  cases hp : c.persistHistory with
  | false =>
      have hrun : mc.run (c.appendHistory line) = (.ok (), mc) := by
        unfold appendHistory
        simp only [hp, Bool.not_false, if_true]
        rfl
      exact ⟨fun _ => Or.inl rfl, fun _ => ⟨mc, hrun⟩⟩
  | true =>
      rw [or_iff_right (by decide)]
      constructor
      · rintro ⟨mc', h⟩
        obtain ⟨fs₁, fs₂, hmake, happend, -⟩ := (run_appendHistory_eq_ok_iff hp).mp h
        exact (canWrite_of_eq_ok hmake happend).1
      · intro hcan
        obtain ⟨mc', h, -⟩ := exists_appendHistory hp hcan line
        exact ⟨mc', h⟩

/-- A line that cannot be kept changes no file. -/
theorem file_iff_of_appendHistory_error {line : String} {e : ShellError}
    (h : mc.run (c.appendHistory line) = (.error e, mc')) :
    mc'.directory = mc.directory ∧ mc'.environment = mc.environment ∧
      ∀ pl b, mc'.files.node? pl = some (.file b) ↔ mc.files.node? pl = some (.file b) := by
  unfold appendHistory at h
  cases hp : c.persistHistory with
  | false =>
      simp only [hp, Bool.not_false, if_true] at h
      cases h
  | true =>
      simp only [hp, Bool.not_true, Bool.false_eq_true, if_false] at h
      have hfile := file_iff_of_makeParent mc.files mc.directory c.historyFile
      rcases Machine.error_of_run_bind_eq_error h with h | ⟨u, mc₁, hmake, h⟩
      · rw [Machine.run_makeParent] at h
        obtain rfl := (mc.snd_outcome _).symm.trans (Prod.ext_iff.mp h).2
        exact ⟨rfl, rfl, hfile⟩
      · rw [Machine.run_makeParent] at hmake
        obtain rfl := (mc.snd_outcome _).symm.trans (Prod.ext_iff.mp hmake).2
        -- The directory was made, and appending is what failed.
        rw [Machine.run_append] at h
        generalize FileSystem.append _ _ c.historyFile _ = r at h
        cases r with
        | ok fs₂ => cases h
        | error e' =>
            obtain ⟨-, rfl⟩ := Prod.ext_iff.mp h
            exact ⟨rfl, rfl, hfile⟩

end LineShell.Config
