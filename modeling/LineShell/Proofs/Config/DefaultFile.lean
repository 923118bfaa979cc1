import LineShell.Proofs.Config.Saved

/-!
# The file without a path

Where no path is given, a configuration is written to the directory that it names itself, but loaded
from the default directory of the environment; and if it is initialized, the path is expanded on its
way to the file. So there are two ways to miss what was written (`loads_default_of_stray`). The main
statement says when both writers are met (`loadsWhatItWrites_iff`): exactly if the default path
leads where they write. Everything else about the two paths is free: they need not be spelled alike,
and the directories on the way of the default one may be those that the writer makes.
-/

namespace LineShell.Config

open FileSystem

variable {mc mc' : Machine} {c : Config} {p? : Option Path}

/-! ## Loading after a write -/

theorem endsInSlash_source_none (env : Environment) : (source env none).endsInSlash = false :=
  (Path.endsInSlash_join _ (by decide)).trans (by decide)

/-- On the machine that a write has left, loading without a path reads the file that was written
through `w`, and gives the configuration. -/
structure LoadsFrom (mc mc' : Machine) (w : Path) (c : Config) : Prop where
  environment : mc'.environment = mc.environment
  place : mc'.files.place? mc.directory (source mc.environment none) =
    .ok (destination mc.directory w)
  loads : mc'.run (load none) = (.ok c, mc')

theorem loadsFrom_iff (h : mc.run (c.save p?) = (.ok (), mc')) :
    LoadsFrom mc mc' (c.target mc.environment p?) c ↔
      LeadsLike mc.files mc.directory (source mc.environment none)
        (c.target mc.environment p?) := by
  obtain ⟨hcan, hdir, s, hs, hfs⟩ := written_of_save h
  obtain ⟨henv, -⟩ := read_of_save h
  have hfound := find_eq_file_iff (q := source mc.environment none) hcan hfs
  constructor
  · rintro ⟨-, hplace, -⟩
    obtain ⟨hvalid, hway, hdest⟩ := place?_eq_ok_iff.mp hplace
    refine hfound.mp ⟨find_eq_ok_iff.mpr ⟨hvalid, hway, ?_, fun hslash => ?_⟩, hplace⟩
    · rw [hfs, if_pos hdest.symm]
    · rw [endsInSlash_source_none] at hslash
      cases hslash
  · intro hlike
    obtain ⟨hfile, hplace⟩ := hfound.mpr hlike
    refine ⟨henv, hplace, run_load_of_read none (s := s) ?_ (ofText?_toToml? hs _)⟩
    rw [henv, hdir]
    exact read_eq_ok_iff.mpr hfile

theorem run_load_of_missing
    (h : mc.files.pathExists mc.directory (source mc.environment p?) = false) :
    mc.run (load p?) = (.ok (Config.default mc.environment), mc) := by
  unfold load
  rw [Machine.run_bind_of_eq_ok _ mc.run_environment]
  refine (Machine.run_bind_of_eq_ok _ (mc.run_pathExists (source mc.environment p?))).trans ?_
  rw [h, if_neg Bool.false_ne_true]
  rfl

/-- A write passes the default file by, if some directory on the way of that is missing and the
write does not make it. The default configuration is what is loaded then. -/
theorem loads_default_of_stray (h : mc.run (c.save p?) = (.ok (), mc')) {d : Place}
    (hd : d ∈ onTheWay mc.directory (source mc.environment none))
    (hnone : mc.files.node? d = none)
    (hway : d ∉ onTheWay mc.directory (c.target mc.environment p?))
    (hdest : d ≠ destination mc.directory (c.target mc.environment p?)) :
    mc'.run (load none) = (.ok (Config.default mc.environment), mc') := by
  obtain ⟨-, hdir, s, -, hfs⟩ := written_of_save h
  obtain ⟨henv, -⟩ := read_of_save h
  rw [← henv]
  refine run_load_of_missing (Bool.eq_false_iff.mpr fun hexists => ?_)
  rw [henv, hdir] at hexists
  obtain ⟨n, hn⟩ := pathExists_iff.mp hexists
  obtain ⟨-, hdirs, -⟩ := find_eq_ok_iff.mp hn
  have hmade := hdirs d hd
  rw [hfs, if_neg hdest, hnone, if_neg hway] at hmade
  cases hmade

/-! ## Writing and loading without a path -/

/-- What is written without a path is what is loaded without one, whether it was saved or
initialized by force. -/
structure LoadsWhatItWrites (mc : Machine) (c : Config) : Prop where
  saved : ∀ mc', mc.run (c.save none) = (.ok (), mc') →
    LoadsFrom mc mc' (c.target mc.environment none) c
  initialized : ∀ q mc', mc.run (c.init none true) = (.ok q, mc') →
    LoadsFrom mc mc' (c.written mc.environment none) c

/-- What is written without a path is loaded without one exactly if the default path leads where it
is written, as far as there is a text to write and that place can be written to. The place is that
of the path in the configuration's own directory, and for initializing that of this path
expanded. -/
theorem loadsWhatItWrites_iff (mc : Machine) (c : Config) :
    LoadsWhatItWrites mc c ↔
      ∀ s, c.toToml? = some s →
        ∀ w, w = c.target mc.environment none ∨ w = c.written mc.environment none →
          mc.files.CanWrite mc.directory w →
            LeadsLike mc.files mc.directory (source mc.environment none) w := by
  constructor
  · rintro ⟨hsaved, hinitialized⟩ s hs w (rfl | rfl) hcan
    · obtain ⟨mc', hsave⟩ := exists_save none hs hcan
      exact (loadsFrom_iff hsave).mp (hsaved mc' hsave)
    · obtain ⟨mc', hsave⟩ := exists_save (some (c.target mc.environment none)) hs hcan
      have hinit : mc.run (c.init none true) = (.ok (c.target mc.environment none), mc') :=
        init_eq_ok_iff.mpr ⟨rfl, fun _ => rfl, hsave⟩
      exact (loadsFrom_iff hsave).mp (hinitialized _ mc' hinit)
  · intro h
    refine ⟨fun mc' hsave => ?_, fun q mc' hinit => ?_⟩
    · obtain ⟨hcan, -, s, hs, -⟩ := written_of_save hsave
      exact (loadsFrom_iff hsave).mpr (h s hs _ (Or.inl rfl) hcan)
    · obtain ⟨rfl, -, hsave⟩ := init_eq_ok_iff.mp hinit
      obtain ⟨hcan, -, s, hs, -⟩ := written_of_save hsave
      exact (loadsFrom_iff hsave).mpr (h s hs _ (Or.inr rfl) hcan)

/-- It is enough that the configuration names the default directory and that the path in it stands
for itself. -/
theorem loadsWhatItWrites_of_directory_eq
    (hdir : c.configDirectory = mc.environment.configDirectory)
    (hself : (source mc.environment none).expand mc.environment = source mc.environment none) :
    LoadsWhatItWrites mc c := by
  have htarget : c.target mc.environment none = source mc.environment none := by
    rw [target, hdir]
    rfl
  refine (loadsWhatItWrites_iff mc c).mpr fun s _ w hw hcan => ?_
  rw [written, htarget, hself, or_self] at hw
  subst hw
  exact LeadsLike.refl hcan

/-! ## Two ways to miss the file -/

/-- Without any files, a write passes the default file by if that is not in a directory that is
made. -/
theorem exists_stray (mc : Machine) (c : Config) (p? : Option Path) (hfiles : mc.files = .empty)
    (hhere : mc.directory = []) (htext : c.toToml?.isSome) {w : Path}
    (hw : c.target mc.environment p? = w) (hcan : FileSystem.empty.CanWrite [] w) {d : Place}
    (hne : d ≠ []) (hd : d ∈ onTheWay [] (source mc.environment none))
    (hway : d ∉ onTheWay [] w) (hdest : d ≠ destination [] w) :
    ∃ mc', mc.run (c.save p?) = (.ok (), mc') ∧
      mc'.run (load none) = (.ok (Config.default mc.environment), mc') := by
  obtain ⟨s, hs⟩ := Option.isSome_iff_exists.mp htext
  have hnone : mc.files.node? d = none := by
    rw [hfiles]
    exact if_neg hne
  rw [← hfiles, ← hhere, ← hw] at hcan
  rw [← hhere, ← hw] at hway hdest
  rw [← hhere] at hd
  obtain ⟨mc', hsave⟩ := exists_save p? hs hcan
  exact ⟨mc', hsave, loads_default_of_stray hsave hd hnone hway hdest⟩

/-- A configuration that names another directory than the default one. -/
def elsewhere : Config :=
  { Config.default emptyMachine.environment with
    prompt := "> "
    configDirectory := ⟨"elsewhere"⟩ }

/-- A machine whose default directory is spelled with a variable. -/
def veiledMachine : Machine :=
  { emptyMachine with environment := .ofList [("XDG_CONFIG_HOME", "/$X"), ("X", "y")] }

/-- A configuration that names that directory. -/
def veiled : Config := { Config.default veiledMachine.environment with prompt := "> " }

/-- What is written may be missed, so that the default configuration is loaded in its place: by
saving if the configuration names another directory, and by initializing even if it names the
default one, where the path in it leads elsewhere once it is expanded. -/
theorem not_loadsWhatItWrites :
    (¬ LoadsWhatItWrites emptyMachine elsewhere ∧
      ∃ mc', emptyMachine.run (elsewhere.save none) = (.ok (), mc') ∧
        mc'.run (load none) = (.ok (Config.default emptyMachine.environment), mc')) ∧
    ¬ LoadsWhatItWrites veiledMachine veiled ∧
      veiled.configDirectory = veiledMachine.environment.configDirectory ∧
      ∃ q mc', veiledMachine.run (veiled.init none true) = (.ok q, mc') ∧
        mc'.run (load none) = (.ok (Config.default veiledMachine.environment), mc') := by
  constructor
  · have hne : Config.default emptyMachine.environment ≠ elsewhere := by decide +kernel
    obtain ⟨mc', hsave, hload⟩ := exists_stray emptyMachine elsewhere none
      (w := ⟨"elsewhere/config.toml"⟩) (d := ["home"]) rfl rfl (by decide +kernel)
      (by decide +kernel) (canWrite_empty (by decide +kernel) (by decide) (by decide +kernel))
      (by decide) (by decide +kernel) (by decide +kernel) (by decide +kernel)
    refine ⟨fun h => hne ?_, mc', hsave, hload⟩
    exact Except.ok.inj (Prod.mk.inj (hload.symm.trans (h.saved mc' hsave).loads)).1
  · have hne : Config.default veiledMachine.environment ≠ veiled := by decide +kernel
    obtain ⟨mc', hsave, hload⟩ := exists_stray veiledMachine veiled
      (some (veiled.target veiledMachine.environment none)) (w := ⟨"/y/voidshell/config.toml"⟩)
      (d := ["$X"]) rfl rfl (by decide +kernel) (by decide +kernel)
      (canWrite_empty (by decide +kernel) (by decide) (by decide +kernel))
      (by decide) (by decide +kernel) (by decide +kernel) (by decide +kernel)
    have hinit : veiledMachine.run (veiled.init none true) =
        (.ok (veiled.target veiledMachine.environment none), mc') :=
      init_eq_ok_iff.mpr ⟨rfl, fun _ => rfl, hsave⟩
    refine ⟨fun h => hne ?_, rfl, _, mc', hinit, hload⟩
    exact Except.ok.inj (Prod.mk.inj (hload.symm.trans (h.initialized _ mc' hinit).loads)).1

end LineShell.Config
