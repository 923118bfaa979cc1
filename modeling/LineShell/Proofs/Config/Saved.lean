import LineShell.Proofs.Config.HistoryFile
import LineShell.Proofs.Config.Init
import LineShell.Proofs.Config.Written

/-!
# A saved configuration is loaded back

Saving and loading expand the same path, and what saving writes there is what loading reads. So the
configuration that is loaded is the one that was saved; where a file has only some of its settings,
it is the default configuration with these.
-/

namespace LineShell.Config

open FileSystem

variable {mc mc' : Machine} {c : Config} {p? : Option Path}

/-- The file that is loaded: the one that is asked for, or the one in the default directory. -/
def source (env : Environment) (p? : Option Path) : Path :=
  match p? with
  | some p => p.expand env
  | none => env.configDirectory.join ⟨configFileName⟩

theorem run_load_of_read (p? : Option Path) {s : String}
    (hread : mc.files.read mc.directory (source mc.environment p?) = .ok s.toUTF8)
    (htext : ofText? s (Config.default mc.environment) = some c) :
    mc.run (load p?) = (.ok c, mc) := by
  have hexists : mc.files.pathExists mc.directory (source mc.environment p?) = true :=
    pathExists_iff.mpr ⟨_, read_eq_ok_iff.mp hread⟩
  have htake : mc.run (Host.readText (source mc.environment p?)) = (.ok s, mc) := by
    rw [Machine.run_readText, hread]
    simp only [fromUTF8?_eq_some_iff.mpr rfl]
  unfold load
  rw [Machine.run_bind_of_eq_ok _ mc.run_environment]
  refine (Machine.run_bind_of_eq_ok _ (mc.run_pathExists (source mc.environment p?))).trans ?_
  rw [hexists, if_pos rfl]
  refine (Machine.run_bind_of_eq_ok _ htake).trans ?_
  rw [htext]
  rfl

/-- What a save that went well leaves for those who read the file. -/
theorem read_of_save (h : mc.run (c.save p?) = (.ok (), mc')) :
    mc'.environment = mc.environment ∧ ∃ s, c.toToml? = some s ∧
      mc'.files.read mc'.directory (c.target mc'.environment p?) = .ok s.toUTF8 := by
  rcases save_cases h with ⟨e, he, -⟩ | ⟨s, fs₁, fs₂, -, hs, hmake, hwrite, rfl⟩
  · cases he
  · exact ⟨rfl, s, hs, read_of_modifyFile hmake hwrite⟩

/-- The text of a configuration file is read as that configuration. -/
theorem ofText?_toToml? {s : String} (hs : c.toToml? = some s) (d : Config) :
    ofText? s d = some c := by
  rw [toToml?, Option.map_eq_some_iff] at hs
  obtain ⟨cs, hcs, rfl⟩ := hs
  -- The file that is saved has all settings.
  rw [← keptSections_true fun _ => true] at hcs
  rw [ofText?_textOf? hcs d, overlay_true]

/-- Saved configurations are loaded back. After a save that went well, loading the same path gives
the configuration that was saved, all of it. And any of its settings can be written to a file, with
further headers or without; loading such a file gives these settings, and those of the default
configuration for the others. -/
theorem run_load_saved (c : Config) (p : Path) :
    (∀ mc mc' : Machine, mc.run (c.save (some p)) = (.ok (), mc') →
      mc'.environment = mc.environment ∧ mc'.run (load (some p)) = (.ok c, mc')) ∧
    (c.maxHistorySize ≤ Int64.maxValue.toNatClampNeg → ∀ kept shown : String → Bool,
      ∃ cs, c.textOf? (keptSections kept shown) = some cs ∧ ∀ mc : Machine,
        mc.files.read mc.directory (p.expand mc.environment) = .ok (String.ofList cs).toUTF8 →
          mc.run (load (some p)) =
            (.ok (c.overlay kept (Config.default mc.environment)), mc)) := by
  constructor
  · intro mc mc' hsave
    obtain ⟨henv, s, hs, hread⟩ := read_of_save hsave
    exact ⟨henv, run_load_of_read _ hread (ofText?_toToml? hs _)⟩
  · intro hsize kept shown
    obtain ⟨cs, hcs⟩ := exists_textOf? hsize kept shown
    exact ⟨cs, hcs, fun mc hread => run_load_of_read _ hread (ofText?_textOf? hcs _)⟩

/-- A configuration whose texts no single form of quotes can hold. -/
def awkward : Config where
  prompt := "\"\"\"'''\\\n\t\r\x07\x7f é"
  header := "'\"\"\"\n\"\""
  historyFile := ⟨"~/it's \"here\""⟩
  maxHistorySize := 9223372036854775807
  persistHistory := true
  skin := .plain
  showHeader := false
  configDirectory := ⟨""⟩
  dataDirectory := ⟨"a\\b"⟩

/-- A machine without files. -/
def emptyMachine : Machine where
  files := .empty
  directory := []
  environment := .ofList [("HOME", "/home/user")]

theorem run_load_saved_awkward :
    (∃ mc', emptyMachine.run (awkward.save (some ⟨"c.toml"⟩)) = (.ok (), mc') ∧
      mc'.run (load (some ⟨"c.toml"⟩)) = (.ok awkward, mc')) ∧
    awkward.maxHistorySize ≤ Int64.maxValue.toNatClampNeg ∧
    ∃ cs, ∃ mc : Machine, awkward.textOf? (keptSections (· == "prompt") fun _ => false) = some cs ∧
      mc.files.read mc.directory ((⟨"c.toml"⟩ : Path).expand mc.environment) =
        .ok (String.ofList cs).toUTF8 ∧
      mc.run (load (some ⟨"c.toml"⟩)) =
        (.ok (awkward.overlay (· == "prompt") (Config.default mc.environment)), mc) := by
  have hexpand : (⟨"c.toml"⟩ : Path).expand emptyMachine.environment = ⟨"c.toml"⟩ := by
    decide +kernel
  have hcan : emptyMachine.files.CanWrite emptyMachine.directory ⟨"c.toml"⟩ :=
    canWrite_name _ ⟨by decide +kernel, by decide, by decide +kernel, by decide +kernel⟩
      ⟨by decide, by decide +kernel⟩ (by decide) (by decide) nofun
  have hsize : awkward.maxHistorySize ≤ Int64.maxValue.toNatClampNeg := by decide
  obtain ⟨hsaved, hpartial⟩ := run_load_saved awkward ⟨"c.toml"⟩
  refine ⟨?_, hsize, ?_⟩
  · obtain ⟨cs, hcs⟩ := exists_textOf? hsize (fun _ => true) fun _ => true
    have htext : awkward.toToml? = some (String.ofList cs) := by
      rw [toToml?, ← keptSections_true fun _ => true, hcs]
      rfl
    have hcan' : emptyMachine.files.CanWrite emptyMachine.directory
        (target emptyMachine.environment awkward (some ⟨"c.toml"⟩)) := by
      rw [target, hexpand]
      exact hcan
    obtain ⟨mc', hsave⟩ := exists_save (some ⟨"c.toml"⟩) htext hcan'
    exact ⟨mc', hsave, (hsaved _ _ hsave).2⟩
  · obtain ⟨cs, hcs, hload⟩ := hpartial hsize (· == "prompt") fun _ => false
    obtain ⟨fs₁, fs₂, hmake, hwrite⟩ := exists_of_canWrite hcan fun _ => (String.ofList cs).toUTF8
    have hread : fs₂.read emptyMachine.directory
        ((⟨"c.toml"⟩ : Path).expand emptyMachine.environment) = .ok (String.ofList cs).toUTF8 := by
      rw [hexpand]
      exact read_of_modifyFile hmake hwrite
    exact ⟨cs, { emptyMachine with files := fs₂ }, hcs, hread, hload _ hread⟩

end LineShell.Config
