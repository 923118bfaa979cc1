import LineShell.Host
import LineShell.Proofs.FileSystem.Writing

/-!
# Running on a machine

What steps on a machine give and what they leave behind, one equation for each way to put steps
together and for each operation.
-/

namespace LineShell.Machine

variable {α β : Type} (mc : Machine)

/-- What steps give, and the machine after them. -/
def run (act : ExceptT ShellError (StateM Machine) α) : Except ShellError α × Machine :=
  act.run.run mc

theorem run_bind (act : ExceptT ShellError (StateM Machine) α)
    (f : α → ExceptT ShellError (StateM Machine) β) :
    mc.run (act >>= f) =
      match mc.run act with
      | (.ok a, mc') => mc'.run (f a)
      | (.error e, mc') => (.error e, mc') := by
  show StateT.bind act (ExceptT.bindCont f) mc = _
  unfold StateT.bind
  cases h : (act : StateT Machine Id _) mc with
  | mk r mc' =>
      have hrun : mc.run act = (r, mc') := h
      rw [hrun]
      cases r <;> rfl

theorem run_bind_of_eq_ok {act : ExceptT ShellError (StateM Machine) α}
    (f : α → ExceptT ShellError (StateM Machine) β) {mc mc' : Machine} {a : α}
    (h : mc.run act = (.ok a, mc')) : mc.run (act >>= f) = mc'.run (f a) := by
  rw [run_bind, h]

theorem exists_of_run_bind_eq_ok {act : ExceptT ShellError (StateM Machine) α}
    {f : α → ExceptT ShellError (StateM Machine) β} {mc mc' : Machine} {b : β}
    (h : mc.run (act >>= f) = (.ok b, mc')) :
    ∃ a mc₁, mc.run act = (.ok a, mc₁) ∧ mc₁.run (f a) = (.ok b, mc') := by
  rw [run_bind] at h
  rcases hact : mc.run act with ⟨e | a, mc₁⟩ <;> rw [hact] at h
  · cases h
  · exact ⟨a, mc₁, rfl, h⟩

theorem error_of_run_bind_eq_error {act : ExceptT ShellError (StateM Machine) α}
    {f : α → ExceptT ShellError (StateM Machine) β} {mc mc' : Machine} {e : ShellError}
    (h : mc.run (act >>= f) = (.error e, mc')) :
    mc.run act = (.error e, mc') ∨
      ∃ a mc₁, mc.run act = (.ok a, mc₁) ∧ mc₁.run (f a) = (.error e, mc') := by
  rw [run_bind] at h
  rcases hact : mc.run act with ⟨e' | a, mc₁⟩ <;> rw [hact] at h
  · obtain ⟨he, rfl⟩ := Prod.ext_iff.mp h
    exact Or.inl (congrArg (fun r => (Except.error r, mc₁)) (Except.error.inj he))
  · exact Or.inr ⟨a, mc₁, rfl, h⟩

theorem run_environment :
    mc.run (liftM (Host.environment : StateM Machine Environment)) = (.ok mc.environment, mc) := rfl

theorem run_pathExists (p : Path) :
    mc.run (liftM (Host.pathExists p : StateM Machine Bool)) =
      (.ok (mc.files.pathExists mc.directory p), mc) := rfl

/-- What an operation on files gives among steps that may fail. -/
def outcome (mc : Machine) : Except FileError Unit × FileSystem → Except ShellError Unit × Machine
  | (.ok (), files) => (.ok (), { mc with files })
  | (.error e, files) => (.error (.file e), { mc with files })

theorem snd_outcome (mc : Machine) (r : Except FileError Unit × FileSystem) :
    (mc.outcome r).2 = { mc with files := r.2 } := by
  rcases r with ⟨e | u, files⟩ <;> rfl

theorem outcome_eq_ok_iff {mc mc' : Machine} {r : Except FileError Unit × FileSystem} {u : Unit} :
    mc.outcome r = (.ok u, mc') ↔ ∃ files, r = (.ok (), files) ∧ mc' = { mc with files } := by
  rcases r with ⟨e | u, files⟩
  · exact ⟨fun h => (nomatch h), fun ⟨_, h, _⟩ => (nomatch h)⟩
  · constructor
    · intro h
      exact ⟨files, rfl, (Prod.ext_iff.mp h).2.symm⟩
    · rintro ⟨_, h, rfl⟩
      obtain rfl := (Prod.ext_iff.mp h).2
      rfl

theorem run_orFail_change (f : FileSystem → Place → Except FileError Unit × FileSystem) :
    mc.run (Host.orFail (change f)) = mc.outcome (f mc.files mc.directory) := by
  unfold Host.orFail
  rw [run_bind]
  cases h : f mc.files mc.directory with
  | mk r files =>
      have hrun : mc.run (liftM (change f)) = (.ok r, { mc with files }) := by
        show (Except.ok (change f mc).1, (change f mc).2) = _
        simp only [change, h]
      rw [hrun]
      cases r <;> rfl

theorem run_makeParent (p : Path) :
    mc.run (Host.makeParent p) = mc.outcome (mc.files.makeParent mc.directory p) := by
  unfold Host.makeParent FileSystem.makeParent
  cases p.parent? with
  | none => rfl
  | some parent => exact mc.run_orFail_change fun fs here => fs.makeDirectories here parent

theorem run_write (p : Path) (b : ByteArray) :
    mc.run (Host.orFail (Host.write p b)) =
      mc.outcome (mc.files.after (mc.files.write mc.directory p b)) :=
  mc.run_orFail_change fun fs here => fs.after (fs.write here p b)

theorem run_append (p : Path) (b : ByteArray) :
    mc.run (Host.orFail (Host.append p b)) =
      mc.outcome (mc.files.after (mc.files.append mc.directory p b)) :=
  mc.run_orFail_change fun fs here => fs.after (fs.append here p b)

theorem run_readText (p : Path) :
    mc.run (Host.readText p) =
      match mc.files.read mc.directory p with
      | .error e => (.error (.file e), mc)
      | .ok b =>
        match String.fromUTF8? b with
        | some s => (.ok s, mc)
        | none => (.error (.file .invalidText), mc) := by
  unfold Host.readText Host.orFail
  rw [run_bind, run_bind]
  have hread : mc.run (liftM (Host.read p : StateM Machine (Except FileError ByteArray))) =
      (.ok (mc.files.read mc.directory p), mc) := rfl
  rw [hread]
  cases mc.files.read mc.directory p with
  | error e => rfl
  | ok b =>
      have hgiven : mc.run (pure b) = (.ok b, mc) := rfl
      simp only [hgiven]
      cases String.fromUTF8? b <;> rfl

end LineShell.Machine
