import LineShell.Config.Store
import LineShell.Proofs.Machine

/-!
# Initializing the configuration file

Initializing looks for a file at the path that it is asked for, which it has expanded. Saving then
expands that path a second time, and makes the directories on its way before it writes. So what is
written may be another file than the one that was looked for, and may have been there before. The
main statement says exactly when neither happens.
-/

namespace LineShell.Config

open FileSystem

variable {mc mc' : Machine} {c : Config} {p? : Option Path} {force : Bool} {q : Path}

/-! ## Saving -/

theorem run_save (mc : Machine) (c : Config) (p? : Option Path) :
    mc.run (c.save p?) =
      match mc.outcome (mc.files.makeParent mc.directory (c.target mc.environment p?)) with
      | (.error e, mc₁) => (.error e, mc₁)
      | (.ok (), mc₁) =>
        match c.toToml? with
        | none => (.error (.config .tooLarge), mc₁)
        | some s => mc₁.outcome (mc₁.files.after
            (mc₁.files.write mc₁.directory (c.target mc.environment p?) s.toUTF8)) := by
  unfold save
  rw [Machine.run_bind_of_eq_ok _ mc.run_environment, Machine.run_bind, Machine.run_makeParent]
  rcases mc.outcome (mc.files.makeParent mc.directory (c.target mc.environment p?)) with
    ⟨e | u, mc₁⟩
  · rfl
  · cases c.toToml? with
    | none => rfl
    | some s => exact mc₁.run_write _ _

/-- Saving fails and changes no file, or there is a text and it has been written. -/
theorem save_cases {r : Except ShellError Unit} (h : mc.run (c.save p?) = (r, mc')) :
    (∃ e, r = .error e ∧ ∀ pl b,
      mc'.files.node? pl = some (.file b) ↔ mc.files.node? pl = some (.file b)) ∨
    ∃ s fs₁ fs₂, r = .ok () ∧ c.toToml? = some s ∧
      mc.files.makeParent mc.directory (c.target mc.environment p?) = (.ok (), fs₁) ∧
      fs₁.write mc.directory (c.target mc.environment p?) s.toUTF8 = .ok fs₂ ∧
      mc' = { mc with files := fs₂ } := by
  rw [run_save] at h
  generalize c.target mc.environment p? = w at h
  have hmade := file_iff_of_makeParent mc.files mc.directory w
  rcases hmake : mc.files.makeParent mc.directory w with ⟨e | u, fs₁⟩ <;> rw [hmake] at hmade h
  · obtain ⟨rfl, rfl⟩ := Prod.ext_iff.mp h
    exact Or.inl ⟨_, rfl, hmade⟩
  · simp only [Machine.outcome] at h
    split at h
    · obtain ⟨rfl, rfl⟩ := Prod.ext_iff.mp h
      exact Or.inl ⟨_, rfl, hmade⟩
    · rename_i s hs
      cases hwrite : fs₁.write mc.directory w s.toUTF8 with
      | error e =>
          rw [hwrite] at h
          obtain ⟨rfl, rfl⟩ := Prod.ext_iff.mp h
          exact Or.inl ⟨_, rfl, hmade⟩
      | ok fs₂ =>
          rw [hwrite] at h
          obtain ⟨rfl, rfl⟩ := Prod.ext_iff.mp h
          exact Or.inr ⟨s, fs₁, fs₂, rfl, hs, rfl, hwrite, rfl⟩

/-- What a save that went well leaves behind: the file with the text, and the directories on the
way to it. -/
theorem written_of_save (h : mc.run (c.save p?) = (.ok (), mc')) :
    mc.files.CanWrite mc.directory (c.target mc.environment p?) ∧
      mc'.directory = mc.directory ∧ ∃ s, c.toToml? = some s ∧ ∀ pl, mc'.files.node? pl =
        if pl = destination mc.directory (c.target mc.environment p?) then some (.file s.toUTF8)
        else (mc.files.node? pl).or
          (if pl ∈ onTheWay mc.directory (c.target mc.environment p?) then some .directory
          else none) := by
  rcases save_cases h with ⟨e, he, -⟩ | ⟨s, fs₁, fs₂, -, hs, hmake, hwrite, rfl⟩
  · cases he
  · obtain ⟨hcan, hadds⟩ := canWrite_of_eq_ok hmake hwrite
    refine ⟨hcan, rfl, s, hs, fun pl => ?_⟩
    show fs₂.node? pl = _
    rw [node?_of_modifyFile hwrite, hadds]

theorem exists_save (p? : Option Path) {s : String} (hs : c.toToml? = some s)
    (h : mc.files.CanWrite mc.directory (c.target mc.environment p?)) :
    ∃ mc', mc.run (c.save p?) = (.ok (), mc') := by
  obtain ⟨fs₁, fs₂, hmake, hwrite⟩ := exists_of_canWrite h fun _ => s.toUTF8
  refine ⟨{ mc with files := fs₂ }, ?_⟩
  have hwrite' : fs₁.write mc.directory (c.target mc.environment p?) s.toUTF8 = .ok fs₂ := hwrite
  rw [run_save, hmake, hs]
  simp only [Machine.outcome, hwrite', FileSystem.after]

/-- Only the file that is written changes. -/
theorem file_iff_of_save {r : Except ShellError Unit} (h : mc.run (c.save p?) = (r, mc'))
    {pl : Place} (hpl : pl ≠ destination mc.directory (c.target mc.environment p?))
    (b : ByteArray) :
    mc'.files.node? pl = some (.file b) ↔ mc.files.node? pl = some (.file b) := by
  rcases save_cases h with ⟨e, -, hfile⟩ | ⟨s, fs₁, fs₂, -, hs, hmake, hwrite, rfl⟩
  · exact hfile pl b
  · show fs₂.node? pl = some (.file b) ↔ _
    rw [node?_of_modifyFile hwrite, if_neg hpl]
    have hmade := file_iff_of_makeParent mc.files mc.directory (c.target mc.environment p?) pl b
    rwa [hmake] at hmade

/-! ## Initializing -/

/-- The path that initializing writes to. It is expanded once more than the one it looks for. -/
def written (env : Environment) (c : Config) (p? : Option Path) : Path :=
  (c.target env p?).expand env

theorem run_init (mc : Machine) (c : Config) (p? : Option Path) (force : Bool) :
    mc.run (c.init p? force) =
      if mc.files.pathExists mc.directory (c.target mc.environment p?) && !force then
        (.error (.config .alreadyExists), mc)
      else
        match mc.run (c.save (some (c.target mc.environment p?))) with
        | (.ok _, mc') => (.ok (c.target mc.environment p?), mc')
        | (.error e, mc') => (.error e, mc') := by
  unfold init
  rw [Machine.run_bind_of_eq_ok _ mc.run_environment,
    Machine.run_bind_of_eq_ok _ (mc.run_pathExists _)]
  split
  · rfl
  · rw [Machine.run_bind]
    rcases mc.run (c.save (some (c.target mc.environment p?))) with ⟨e | u, mc'⟩ <;> rfl

/-- Initializing fails and changes no file, or it has saved. -/
theorem init_cases {r : Except ShellError Path} (h : mc.run (c.init p? force) = (r, mc')) :
    (∃ e, r = .error e ∧ ∀ pl b,
      mc'.files.node? pl = some (.file b) ↔ mc.files.node? pl = some (.file b)) ∨
    r = .ok (c.target mc.environment p?) ∧
      mc.run (c.save (some (c.target mc.environment p?))) = (.ok (), mc') := by
  rw [run_init] at h
  split at h
  · obtain ⟨rfl, rfl⟩ := Prod.ext_iff.mp h
    exact Or.inl ⟨_, rfl, fun pl b => Iff.rfl⟩
  · rcases hsave : mc.run (c.save (some (c.target mc.environment p?))) with ⟨e | u, mc₁⟩ <;>
      rw [hsave] at h <;> obtain ⟨rfl, rfl⟩ := Prod.ext_iff.mp h
    · rcases save_cases hsave with ⟨-, -, hfile⟩ | ⟨-, -, -, he, -⟩
      · exact Or.inl ⟨e, rfl, hfile⟩
      · cases he
    · exact Or.inr ⟨rfl, rfl⟩

theorem init_eq_ok_iff : mc.run (c.init p? force) = (.ok q, mc') ↔
    q = c.target mc.environment p? ∧
      (mc.files.pathExists mc.directory q = true → force = true) ∧
      mc.run (c.save (some q)) = (.ok (), mc') := by
  rw [run_init]
  constructor
  · intro h
    split at h
    · cases h
    · rename_i hfree
      split at h
      · rename_i u mc₁ hsave
        obtain ⟨hq, rfl⟩ := Prod.ext_iff.mp h
        obtain rfl := Except.ok.inj hq
        refine ⟨rfl, fun hex => ?_, hsave⟩
        rwa [hex, Bool.true_and, Bool.not_eq_true, Bool.not_eq_false'] at hfree
      · cases h
  · rintro ⟨rfl, hforce, hsave⟩
    have hfree : ¬ (mc.files.pathExists mc.directory (c.target mc.environment p?) && !force) := by
      cases hex : mc.files.pathExists mc.directory (c.target mc.environment p?) with
      | false => exact Bool.false_ne_true
      | true =>
          rw [hforce hex]
          exact Bool.false_ne_true
    rw [if_neg hfree, hsave]

/-- In every file system the only file that initializing may change is the one that it writes. -/
theorem file_iff_of_init (mc : Machine) (c : Config) (p? : Option Path) (force : Bool) {pl : Place}
    (hpl : pl ≠ destination mc.directory (c.written mc.environment p?)) (b : ByteArray) :
    (mc.run (c.init p? force)).2.files.node? pl = some (.file b) ↔
      mc.files.node? pl = some (.file b) := by
  rcases hrun : mc.run (c.init p? force) with ⟨r, mc'⟩
  rcases init_cases hrun with ⟨e, -, hfile⟩ | ⟨-, hsave⟩
  · exact hfile pl b
  · exact file_iff_of_save hsave hpl b

/-! ## What initializing promises -/

/-- The promise of initializing: without force every file that was there keeps its contents, and
the path that is given back leads to the file that was written, which holds the text. -/
structure InitKeepsPromise (mc : Machine) (c : Config) (p? : Option Path) : Prop where
  keeps : ∀ pl b, mc.files.node? pl = some (.file b) →
    (mc.run (c.init p? false)).2.files.node? pl = some (.file b)
  writes : ∀ force q mc', mc.run (c.init p? force) = (.ok q, mc') →
    ∃ s, c.toToml? = some s ∧ mc'.files.read mc.directory q = .ok s.toUTF8 ∧
      mc'.files.place? mc.directory q =
        .ok (destination mc.directory (c.written mc.environment p?))

/-- Without force a file is lost exactly if it stands where the text is written, holds another
text, and is not found at the path that is looked for. -/
theorem keeps_init_iff (mc : Machine) (c : Config) (p? : Option Path) :
    (∀ pl b, mc.files.node? pl = some (.file b) →
      (mc.run (c.init p? false)).2.files.node? pl = some (.file b)) ↔
    ∀ s, c.toToml? = some s → mc.files.CanWrite mc.directory (c.written mc.environment p?) →
      mc.files.pathExists mc.directory (c.target mc.environment p?) = true ∨
        ∀ b, mc.files.node? (destination mc.directory (c.written mc.environment p?)) =
          some (.file b) → b = s.toUTF8 := by
  constructor
  · intro hkeeps s hs hcan
    cases hex : mc.files.pathExists mc.directory (c.target mc.environment p?) with
    | true => exact Or.inl rfl
    | false =>
        refine Or.inr fun b hb => ?_
        obtain ⟨mc', hsave⟩ := exists_save (some (c.target mc.environment p?)) hs hcan
        have hinit : mc.run (c.init p? false) = (.ok (c.target mc.environment p?), mc') := by
          refine init_eq_ok_iff.mpr ⟨rfl, fun h => ?_, hsave⟩
          rw [hex] at h
          cases h
        obtain ⟨-, -, s', hs', hfs⟩ := written_of_save hsave
        obtain rfl := Option.some.inj (hs'.symm.trans hs)
        have hb' := hkeeps _ b hb
        rw [hinit] at hb'
        simp only at hb'
        rw [hfs, written, target, if_pos rfl] at hb'
        exact (Node.file.inj (Option.some.inj hb')).symm
  · intro h pl b hb
    -- All other files are safe whatever happens.
    by_cases hpl : pl = destination mc.directory (c.written mc.environment p?)
    · subst hpl
      rcases hrun : mc.run (c.init p? false) with ⟨e | q, mc'⟩
      · rcases init_cases hrun with ⟨-, -, hfile⟩ | ⟨hr, -⟩
        · exact (hfile _ b).mpr hb
        · cases hr
      · obtain ⟨rfl, hforce, hsave⟩ := init_eq_ok_iff.mp hrun
        obtain ⟨hcan, -, s, hs, hfs⟩ := written_of_save hsave
        have hb' := (h s hs hcan).resolve_left (fun hex => nomatch hforce hex) b hb
        show mc'.files.node? _ = _
        rw [hfs, written, target, if_pos rfl, hb']
    · exact (file_iff_of_init mc c p? false hpl b).mpr hb

/-- The path that is given back leads to the file that was written exactly if it leads to the same
place as that path which was expanded once more. -/
theorem writes_init_iff (mc : Machine) (c : Config) (p? : Option Path) :
    (∀ force q mc', mc.run (c.init p? force) = (.ok q, mc') →
      ∃ s, c.toToml? = some s ∧ mc'.files.read mc.directory q = .ok s.toUTF8 ∧
        mc'.files.place? mc.directory q =
          .ok (destination mc.directory (c.written mc.environment p?))) ↔
    ∀ s, c.toToml? = some s → mc.files.CanWrite mc.directory (c.written mc.environment p?) →
      LeadsLike mc.files mc.directory (c.target mc.environment p?)
        (c.written mc.environment p?) := by
  constructor
  · intro hwrites s hs hcan
    -- With force nothing stands in the way of the write, so the path that is given back must do.
    obtain ⟨mc', hsave⟩ := exists_save (some (c.target mc.environment p?)) hs hcan
    have hinit : mc.run (c.init p? true) = (.ok (c.target mc.environment p?), mc') :=
      init_eq_ok_iff.mpr ⟨rfl, fun _ => rfl, hsave⟩
    obtain ⟨-, -, s', hs', hfs⟩ := written_of_save hsave
    obtain ⟨s'', hs'', hread, hplace⟩ := hwrites true _ mc' hinit
    obtain rfl := Option.some.inj (hs''.symm.trans hs')
    exact (find_eq_file_iff hcan hfs).mp ⟨read_eq_ok_iff.mp hread, hplace⟩
  · intro h force q mc' hrun
    obtain ⟨rfl, -, hsave⟩ := init_eq_ok_iff.mp hrun
    obtain ⟨hcan, -, s, hs, hfs⟩ := written_of_save hsave
    obtain ⟨hfind, hplace⟩ := (find_eq_file_iff hcan hfs).mpr (h s hs hcan)
    exact ⟨s, hs, read_eq_ok_iff.mpr hfind, hplace⟩

/-- When initializing keeps its promise. The only file that may change is the one at the path
that was expanded twice. The promise is kept exactly if, whenever that file can be written, the
path that was expanded once leads to the same place, and a file with another text stands there only
if it is found at that path. -/
theorem initKeepsPromise_iff (mc : Machine) (c : Config) (p? : Option Path) :
    (∀ force pl b, pl ≠ destination mc.directory (c.written mc.environment p?) →
      ((mc.run (c.init p? force)).2.files.node? pl = some (.file b) ↔
        mc.files.node? pl = some (.file b))) ∧
    (InitKeepsPromise mc c p? ↔
      ∀ s, c.toToml? = some s → mc.files.CanWrite mc.directory (c.written mc.environment p?) →
        LeadsLike mc.files mc.directory (c.target mc.environment p?)
          (c.written mc.environment p?) ∧
        (mc.files.pathExists mc.directory (c.target mc.environment p?) = true ∨
          ∀ b, mc.files.node? (destination mc.directory (c.written mc.environment p?)) =
            some (.file b) → b = s.toUTF8)) := by
  refine ⟨fun force pl b hpl => file_iff_of_init mc c p? force hpl b, ?_, ?_⟩
  · rintro ⟨hkeeps, hwrites⟩ s hs hcan
    have hlike := (writes_init_iff mc c p?).mp hwrites s hs hcan
    exact ⟨hlike, (keeps_init_iff mc c p?).mp hkeeps s hs hcan⟩
  · intro h
    have hkeeps := (keeps_init_iff mc c p?).mpr fun s hs hcan => (h s hs hcan).2
    have hwrites := (writes_init_iff mc c p?).mpr fun s hs hcan => (h s hs hcan).1
    exact ⟨hkeeps, hwrites⟩

/-! ## When it is kept -/

/-- The promise is kept at a path that stands for itself and does not lead back, if all that is in
the file system stands in directories. -/
theorem initKeepsPromise_of_expand_eq (htree : mc.files.IsTree)
    (hself : (c.target mc.environment p?).expand mc.environment = c.target mc.environment p?)
    (hback : ".." ∉ (c.target mc.environment p?).steps) : InitKeepsPromise mc c p? := by
  refine ⟨(keeps_init_iff mc c p?).mpr fun s _ hcan => ?_,
    (writes_init_iff mc c p?).mpr fun s _ hcan => ?_⟩ <;> rw [written, hself] at hcan ⊢
  · generalize c.target mc.environment p? = q at hback hcan
    cases hn : mc.files.node? (destination mc.directory q) with
    | none => exact Or.inr fun b hb => nomatch hb
    | some n =>
        refine Or.inl (pathExists_iff.mpr ⟨n, find_eq_ok_iff.mpr ⟨hcan.isValid, ?_, hn, ?_⟩⟩)
        · -- What is on the way stands above the destination, so it is a directory already.
          intro d hd
          obtain ⟨rest, hrest⟩ := prefix_of_mem_passed hback hd
          have hn' : mc.files.node? (d ++ rest) = some n := by
            rw [hrest]
            exact hn
          refine htree.directory_of_append ?_ hn'
          rintro rfl
          rw [List.append_nil] at hrest
          subst hrest
          exact hcan.notOnTheWay hd
        · rw [hcan.noSlash]
          exact fun hs => nomatch hs
  · exact LeadsLike.refl hcan

/-- A machine on which the path `$A` stands for the path `$B`, and that for the only file. -/
def chained : Machine where
  files := FileSystem.empty.put ["real.toml"] (.file "keep".toUTF8)
  directory := []
  environment := .ofList [("HOME", "/home/user"), ("A", "$B"), ("B", "real.toml")]

/-- Initializing at a path whose expansion can be expanded again overwrites a file. -/
theorem not_initKeepsPromise :
    ¬ InitKeepsPromise chained (Config.default chained.environment) (some ⟨"$A"⟩) := by
  intro h
  have hasked : target chained.environment (Config.default chained.environment) (some ⟨"$A"⟩) =
      ⟨"$B"⟩ := by decide +kernel
  have hwritten : written chained.environment (Config.default chained.environment)
      (some ⟨"$A"⟩) = ⟨"real.toml"⟩ := by decide +kernel
  have hdest : destination [] ⟨"real.toml"⟩ = ["real.toml"] := by decide +kernel
  have hfile : chained.files.node? ["real.toml"] = some (.file "keep".toUTF8) := by
    rw [chained, node?_put _ (List.cons_ne_nil _ _), if_pos rfl]
  have hcan : chained.files.CanWrite [] ⟨"real.toml"⟩ := by
    refine canWrite_name _ ⟨by decide +kernel, by decide, by decide +kernel, by decide +kernel⟩
      ⟨by decide, by decide +kernel⟩ (by decide) (by decide) ?_
    rw [hfile]
    exact fun heq => nomatch heq
  obtain ⟨s, hs⟩ : ∃ s, (Config.default chained.environment).toToml? = some s :=
    Option.isSome_iff_exists.mp (by decide +kernel)
  have hkeeps := (keeps_init_iff _ _ _).mp h.keeps s hs (hwritten ▸ hcan)
  rw [hwritten, hasked] at hkeeps
  rcases hkeeps with hex | hsame
  · revert hex
    decide +kernel
  · have hne : (Config.default chained.environment).toToml? ≠ some "keep" := by decide +kernel
    have heq := hsame "keep".toUTF8 (by rw [← hfile, ← hdest]; rfl)
    rw [hs, String.toByteArray_inj.mp heq] at hne
    exact hne rfl

end LineShell.Config
