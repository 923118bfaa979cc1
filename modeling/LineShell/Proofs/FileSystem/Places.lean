import LineShell.Proofs.Path.Steps
import LineShell.Proofs.Sequence

/-!
# The places that paths lead to

The steps of a path lead to a place, and past other places on the way, whatever stands there. A file
system finds a path exactly if there is a directory at every place on the way.
-/

namespace LineShell.FileSystem

/-! ## Following steps -/

/-- The place that steps lead to. -/
def follow (pl : Place) (ns : List String) : Place := ns.foldl step pl

/-- The places in which the steps are looked up. -/
def passed (pl : Place) : List String → List Place
  | [] => []
  | n :: ns => pl :: passed (step pl n) ns

/-- The places that the steps lead to one after the other. -/
def reached (pl : Place) : List String → List Place
  | [] => []
  | n :: ns => step pl n :: reached (step pl n) ns

theorem follow_concat (pl : Place) (ns : List String) (n : String) :
    follow pl (ns ++ [n]) = step (follow pl ns) n := by
  rw [follow, follow, List.foldl_append, List.foldl_cons, List.foldl_nil]

theorem passed_concat (pl : Place) (ns : List String) (n : String) :
    passed pl (ns ++ [n]) = pl :: reached pl ns := by
  induction ns generalizing pl with
  | nil => rfl
  | cons m ns ih => rw [List.cons_append, passed, ih, reached]

theorem reached_concat (pl : Place) (ns : List String) (n : String) :
    reached pl (ns ++ [n]) = reached pl ns ++ [follow pl (ns ++ [n])] := by
  induction ns generalizing pl with
  | nil => rfl
  | cons m ns ih =>
      rw [List.cons_append, reached, ih, reached, List.cons_append]
      rfl

theorem step_point (pl : Place) : step pl "." = pl := if_pos rfl

/-- Points lead to no other places. -/
theorem mem_reached_filter (pl d : Place) (ns : List String) :
    d = pl ∨ d ∈ reached pl (ns.filter (· ≠ ".")) ↔ d = pl ∨ d ∈ reached pl ns := by
  induction ns generalizing pl with
  | nil => exact Iff.rfl
  | cons n ns ih =>
      by_cases h : n = "."
      · rw [h, List.filter_cons_of_neg (by simp), ih, reached, step_point, List.mem_cons,
          or_self_left]
      · rw [List.filter_cons_of_pos (by simpa using h), reached, reached, List.mem_cons,
          List.mem_cons, ih]

theorem prefix_follow {ns : List String} (hback : ".." ∉ ns) (pl : Place) :
    pl <+: follow pl ns := by
  induction ns generalizing pl with
  | nil => exact List.prefix_rfl
  | cons n ns ih =>
      rw [List.mem_cons, not_or] at hback
      have hstep : pl <+: step pl n := by
        rw [step, if_neg (Ne.symm hback.1)]
        split
        · exact List.prefix_rfl
        · exact List.prefix_append pl [n]
      exact hstep.trans (ih hback.2 (step pl n))

/-- Steps that do not lead back only pass places above the one that they lead to. -/
theorem prefix_of_mem_passed {pl d : Place} {ns : List String} (hback : ".." ∉ ns)
    (h : d ∈ passed pl ns) : d <+: follow pl ns := by
  induction ns generalizing pl with
  | nil => cases h
  | cons n ns ih =>
      rcases List.mem_cons.mp h with rfl | h
      · exact prefix_follow hback d
      · exact ih (fun hmem => hback (List.mem_cons_of_mem n hmem)) h

/-- What is in the file system stands in a directory. -/
def IsTree (fs : FileSystem) : Prop :=
  ∀ pl n node, fs.node? (pl ++ [n]) = some node → fs.node? pl = some .directory

theorem IsTree.directory_of_append {fs : FileSystem} (h : fs.IsTree) {pl rest : Place}
    (hne : rest ≠ []) {node : Node} (hn : fs.node? (pl ++ rest) = some node) :
    fs.node? pl = some .directory := by
  induction rest generalizing pl with
  | nil => exact absurd rfl hne
  | cons n rest ih =>
      cases rest with
      | nil => exact h pl n node hn
      | cons m rest =>
          refine h pl n _ (ih (List.cons_ne_nil m rest) ?_)
          rwa [List.append_assoc]

/-! ## Looking steps up -/

variable {fs : FileSystem} {pl pl' : Place} {ns : List String}

theorem walk_eq_ok_iff : fs.walk pl ns = .ok pl' ↔
    (∀ n ∈ ns, n.utf8ByteSize ≤ maxNameLength) ∧
      (∀ d ∈ passed pl ns, fs.node? d = some .directory) ∧ pl' = follow pl ns := by
  induction ns generalizing pl with
  | nil => simp [walk, passed, follow, eq_comm]
  | cons n ns ih =>
      rw [List.forall_mem_cons, passed, List.forall_mem_cons, walk]
      cases hd : fs.node? pl with
      | none => simp
      | some node =>
          cases node with
          | file b => simp
          | directory =>
              by_cases hn : maxNameLength < n.utf8ByteSize
              · simp [hn, Nat.not_le.mpr hn]
              · simp only [hn, if_false, Nat.le_of_not_lt hn, true_and]
                exact ih

/-- Names that are short enough are not found, unless a file stands in the way. -/
theorem notFound_of_walk_eq_error {e : FileError} (h : fs.walk pl ns = .error e)
    (hshort : ∀ n ∈ ns, n.utf8ByteSize ≤ maxNameLength)
    (hfile : ∀ d ∈ passed pl ns, ∀ b, fs.node? d ≠ some (.file b)) : e = .notFound := by
  induction ns generalizing pl with
  | nil => cases h
  | cons n ns ih =>
      rw [List.forall_mem_cons] at hshort
      rw [passed, List.forall_mem_cons] at hfile
      rw [walk] at h
      cases hd : fs.node? pl with
      | none =>
          rw [hd] at h
          exact (Except.error.inj h).symm
      | some node =>
          rw [hd] at h
          cases node with
          | file b => exact absurd hd (hfile.1 b)
          | directory =>
              simp only [Nat.not_lt.mpr hshort.1, if_false] at h
              exact ih h hshort.2 hfile.2

/-! ## Looking paths up -/

/-- The place that a path leads to. -/
def destination (here : Place) (p : Path) : Place := follow (origin here p) p.steps

/-- The places that a path passes. -/
def onTheWay (here : Place) (p : Path) : List Place := passed (origin here p) p.steps

variable {here : Place} {p : Path}

theorem place?_of_isValid (h : p.IsValid) : fs.place? here p = fs.walk (origin here p) p.steps := by
  have hnull : p.text.toList.contains '\x00' = false := by
    rw [List.contains_eq_mem]
    exact decide_eq_false h.noNull
  have hempty : p.text.isEmpty = false := by
    rw [← Bool.not_eq_true, String.isEmpty_iff]
    exact h.nonempty
  rw [place?, hnull, hempty, if_neg Bool.false_ne_true, if_neg Bool.false_ne_true,
    if_neg (Nat.not_lt.mpr h.short)]

theorem isValid_of_place?_eq_ok (h : fs.place? here p = .ok pl) : p.IsValid := by
  unfold place? at h
  split at h
  · cases h
  · rename_i hnull
    split at h
    · cases h
    · rename_i hempty
      split at h
      · cases h
      · rename_i hlong
        refine ⟨?_, ?_, Nat.le_of_not_lt hlong, (walk_eq_ok_iff.mp h).1⟩
        · rwa [List.contains_eq_mem, decide_eq_true_iff] at hnull
        · rwa [String.isEmpty_iff] at hempty

theorem place?_eq_ok_iff : fs.place? here p = .ok pl ↔
    p.IsValid ∧ (∀ d ∈ onTheWay here p, fs.node? d = some .directory) ∧
      pl = destination here p := by
  constructor
  · intro h
    have hvalid := isValid_of_place?_eq_ok h
    rw [place?_of_isValid hvalid, walk_eq_ok_iff] at h
    exact ⟨hvalid, h.2⟩
  · rintro ⟨hvalid, h⟩
    rw [place?_of_isValid hvalid, walk_eq_ok_iff]
    exact ⟨hvalid.shortSteps, h⟩

theorem find_eq_ok_iff {n : Node} : fs.find here p = .ok n ↔
    p.IsValid ∧ (∀ d ∈ onTheWay here p, fs.node? d = some .directory) ∧
      fs.node? (destination here p) = some n ∧ (p.endsInSlash = true → n = .directory) := by
  constructor
  · intro h
    obtain ⟨pl, hpl, h⟩ := exists_of_bind_eq_ok h
    obtain ⟨hvalid, hway, rfl⟩ := place?_eq_ok_iff.mp hpl
    refine ⟨hvalid, hway, ?_⟩
    split at h
    · cases h
    · rename_i b hb
      split at h
      · cases h
      · rename_i hslash
        obtain rfl := Except.ok.inj h
        exact ⟨hb, fun hs => absurd hs hslash⟩
    · rename_i hd
      obtain rfl := Except.ok.inj h
      exact ⟨hd, fun _ => rfl⟩
  · rintro ⟨hvalid, hway, hn, hslash⟩
    rw [find, place?_eq_ok_iff.mpr ⟨hvalid, hway, rfl⟩]
    simp only [bind, Except.bind, hn]
    cases n with
    | directory => rfl
    | file b =>
        have hs : p.endsInSlash ≠ true := fun hs => nomatch hslash hs
        simp [hs]

theorem pathExists_iff : fs.pathExists here p = true ↔ ∃ n, fs.find here p = .ok n := by
  unfold pathExists
  cases hf : fs.find here p with
  | ok n => exact ⟨fun _ => ⟨n, rfl⟩, fun _ => rfl⟩
  | error e => exact ⟨fun h => (nomatch h), fun ⟨_, h⟩ => (nomatch h)⟩

theorem isDirectory_iff : fs.isDirectory here p = true ↔ fs.find here p = .ok .directory := by
  unfold isDirectory
  split
  · rename_i h
    exact ⟨fun _ => h, fun _ => rfl⟩
  · rename_i h
    exact ⟨fun hf => (nomatch hf), fun hd => absurd hd h⟩

theorem read_eq_ok_iff {b : ByteArray} :
    fs.read here p = .ok b ↔ fs.find here p = .ok (.file b) := by
  unfold read
  cases hf : fs.find here p with
  | error e => exact ⟨fun h => (nomatch h), fun h => (nomatch h)⟩
  | ok n =>
      cases n with
      | file b' =>
          simp only [bind, Except.bind, Except.ok.injEq, Node.file.injEq]
      | directory => exact ⟨fun h => (nomatch h), fun h => (nomatch h)⟩

end LineShell.FileSystem
