import LineShell.Proofs.FileSystem.Places

/-!
# Writing a file in a directory that may be missing

What the files are after the directories on the way to a file were made and the file was written,
and exactly when that goes well.
-/

namespace LineShell.FileSystem

variable {fs fs' : FileSystem} {here : Place} {p : Path}

/-! ## Making one directory -/

theorem makeDirectory_eq_ok_iff : fs.makeDirectory here p = .ok fs' ↔
    p.IsValid ∧ (∀ d ∈ onTheWay here p, fs.node? d = some .directory) ∧
      fs.node? (destination here p) = none ∧ fs' = fs.put (destination here p) .directory := by
  constructor
  · intro h
    obtain ⟨pl, hpl, h⟩ := exists_of_bind_eq_ok h
    obtain ⟨hvalid, hway, rfl⟩ := place?_eq_ok_iff.mp hpl
    split at h
    · rename_i hn
      exact ⟨hvalid, hway, hn, (Except.ok.inj h).symm⟩
    · cases h
  · rintro ⟨hvalid, hway, hn, rfl⟩
    rw [makeDirectory, place?_eq_ok_iff.mpr ⟨hvalid, hway, rfl⟩]
    simp only [bind, Except.bind, hn]

/-- A place where nothing stands is not the root. -/
theorem ne_nil_of_node?_eq_none {pl : Place} (h : fs.node? pl = none) : pl ≠ [] :=
  place_ne_nil (by rw [h]; exact fun heq => nomatch heq)

/-- Directories stand at those of the places where nothing stood, and nothing else is new. -/
def Adds (fs fs' : FileSystem) (ds : List Place) : Prop :=
  ∀ pl, fs'.node? pl = (fs.node? pl).or (if pl ∈ ds then some .directory else none)

namespace Adds

variable {ds es : List Place} {fs'' : FileSystem}

theorem refl (fs : FileSystem) : Adds fs fs [] := fun pl => by
  rw [if_neg List.not_mem_nil, Option.or_none]

theorem trans (h : Adds fs fs' ds) (h' : Adds fs' fs'' es) (hsub : ds ⊆ es) :
    Adds fs fs'' es := by
  intro pl
  rw [h', h]
  by_cases hd : pl ∈ ds
  · rw [if_pos hd, if_pos (hsub hd), Option.or_assoc, Option.or_some]
    rfl
  · rw [if_neg hd, Option.or_none]

theorem directory (h : Adds fs fs' ds) {pl : Place} (hd : fs.node? pl = some .directory) :
    fs'.node? pl = some .directory := by
  rw [h, hd, Option.some_or]

theorem directory_of_mem (h : Adds fs fs' ds) {pl : Place} (hmem : pl ∈ ds)
    (hfile : ∀ b, fs.node? pl ≠ some (.file b)) : fs'.node? pl = some .directory := by
  rw [h, if_pos hmem]
  cases hn : fs.node? pl with
  | none => rfl
  | some n =>
      cases n with
      | file b => exact absurd hn (hfile b)
      | directory => rfl

theorem file_iff (h : Adds fs fs' ds) {pl : Place} {b : ByteArray} :
    fs'.node? pl = some (.file b) ↔ fs.node? pl = some (.file b) := by
  rw [h]
  cases hn : fs.node? pl with
  | some n => rfl
  | none => split <;> simp

end Adds

/-- If nothing but directories is on the way, the only thing that is new is at the destination. -/
theorem adds_of_ensureDirectory (h : fs.ensureDirectory here p = .ok fs') (ds : List Place)
    (hds : ∀ d ∈ ds, d ∈ onTheWay here p ∨ d = destination here p)
    (hmem : destination here p ∈ ds) :
    Adds fs fs' ds ∧ p.IsValid ∧ (∀ d ∈ onTheWay here p, fs.node? d = some .directory) ∧
      ∀ b, fs.node? (destination here p) ≠ some (.file b) := by
  unfold ensureDirectory at h
  split at h
  · rename_i fs₁ hmake
    obtain rfl := Except.ok.inj h
    obtain ⟨hvalid, hway, hnone, rfl⟩ := makeDirectory_eq_ok_iff.mp hmake
    refine ⟨?_, hvalid, hway, fun b hb => by rw [hnone] at hb; nomatch hb⟩
    intro pl
    rw [node?_put fs (ne_nil_of_node?_eq_none hnone)]
    by_cases hpl : pl = destination here p
    · rw [if_pos hpl, hpl, hnone, if_pos hmem]
      rfl
    · rw [if_neg hpl]
      by_cases hd : pl ∈ ds
      · rw [hway pl ((hds pl hd).resolve_right hpl)]
        rfl
      · rw [if_neg hd, Option.or_none]
  · split at h
    · rename_i hdir
      obtain rfl := Except.ok.inj h
      obtain ⟨hvalid, hway, hd, -⟩ := find_eq_ok_iff.mp (isDirectory_iff.mp hdir)
      refine ⟨?_, hvalid, hway, fun b hb => by rw [hd] at hb; nomatch hb⟩
      intro pl
      by_cases hpl : pl ∈ ds
      · have hdir' : fs.node? pl = some .directory := by
          rcases hds pl hpl with hmem | rfl
          · exact hway pl hmem
          · exact hd
        rw [hdir']
        rfl
      · rw [if_neg hpl, Option.or_none]
    · cases h

theorem exists_ensureDirectory (hvalid : p.IsValid)
    (hway : ∀ d ∈ onTheWay here p, fs.node? d = some .directory)
    (hfile : ∀ b, fs.node? (destination here p) ≠ some (.file b)) :
    ∃ fs', fs.ensureDirectory here p = .ok fs' := by
  unfold ensureDirectory
  cases hn : fs.node? (destination here p) with
  | none => rw [makeDirectory_eq_ok_iff.mpr ⟨hvalid, hway, hn, rfl⟩]; exact ⟨_, rfl⟩
  | some n =>
      cases n with
      | file b => exact absurd hn (hfile b)
      | directory =>
          have hdir : fs.isDirectory here p = true :=
            isDirectory_iff.mpr (find_eq_ok_iff.mpr ⟨hvalid, hway, hn, fun _ => rfl⟩)
          split
          · exact ⟨_, rfl⟩
          · rw [if_pos hdir]; exact ⟨_, rfl⟩

/-- What is on the way is either missing or a directory, so only a missing place can be the reason
why there is no directory yet. -/
theorem notFound_of_ensureDirectory {e : FileError} (h : fs.ensureDirectory here p = .error e)
    (hvalid : p.IsValid) (hway : ∀ d ∈ onTheWay here p, ∀ b, fs.node? d ≠ some (.file b))
    (hfile : ∀ b, fs.node? (destination here p) ≠ some (.file b)) : e = .notFound := by
  cases hpl : fs.place? here p with
  | ok pl =>
      obtain ⟨-, hdirs, -⟩ := place?_eq_ok_iff.mp hpl
      obtain ⟨fs₁, hok⟩ := exists_ensureDirectory hvalid hdirs hfile
      rw [hok] at h
      cases h
  | error e' =>
      have he : e' = .notFound := by
        rw [place?_of_isValid hvalid] at hpl
        exact notFound_of_walk_eq_error hpl hvalid.shortSteps hway
      have hmake : fs.makeDirectory here p = .error e' := by
        rw [makeDirectory, hpl]
        rfl
      unfold ensureDirectory at h
      rw [hmake] at h
      simp only at h
      split at h
      · cases h
      · exact (Except.error.inj h).symm.trans he

/-! ## Making all that are missing -/

variable {absolute : Bool} {ns : List String}

/-- The place where names begin. -/
def start (here : Place) (absolute : Bool) : Place := if absolute then [] else here

theorem destination_ofNames (here : Place) (absolute : Bool) (h : ∀ n ∈ ns, Path.IsStep n) :
    destination here (.ofNames absolute ns) = follow (start here absolute) ns := by
  rw [destination, origin, Path.isAbsolute_ofNames h, Path.steps_ofNames h]
  rfl

theorem onTheWay_ofNames (here : Place) (absolute : Bool) (h : ∀ n ∈ ns, Path.IsStep n) :
    onTheWay here (.ofNames absolute ns) = passed (start here absolute) ns := by
  rw [onTheWay, origin, Path.isAbsolute_ofNames h, Path.steps_ofNames h]
  rfl

/-- Making the last directory on the way of names, when those before it are there. -/
theorem adds_of_ensureDirectory_ofNames {n : String} (h : ∀ m ∈ ns ++ [n], Path.IsStep m)
    (hok : fs.ensureDirectory here (.ofNames absolute (ns ++ [n])) = .ok fs') :
    Adds fs fs' (reached (start here absolute) (ns ++ [n])) ∧
      fs.node? (start here absolute) = some .directory := by
  have hway := onTheWay_ofNames here absolute h
  rw [passed_concat] at hway
  have hdest := destination_ofNames here absolute h
  have hreached := reached_concat (start here absolute) ns n
  obtain ⟨hadds, -, hdirs, -⟩ := adds_of_ensureDirectory hok
    (reached (start here absolute) (ns ++ [n]))
    (fun d hd => by
      rw [hreached, List.mem_append, List.mem_singleton] at hd
      rw [hway, hdest]
      exact hd.imp_left (List.mem_cons_of_mem _))
    (by rw [hreached, hdest]; exact List.mem_append_right _ (List.mem_singleton_self _))
  exact ⟨hadds, hdirs _ (hway ▸ List.mem_cons_self)⟩

/-- What has been made when all went well: directories wherever the names lead. If there is a name
at all, there was a directory where the names begin. -/
theorem adds_of_makeAll {up : List String} (h : ∀ n ∈ up.reverse, Path.IsStep n)
    (hmake : fs.makeAll here absolute up = (.ok (), fs')) :
    Adds fs fs' (reached (start here absolute) up.reverse) ∧
      (up ≠ [] → fs.node? (start here absolute) = some .directory) := by
  induction up generalizing fs' with
  | nil =>
      obtain rfl := (Prod.ext_iff.mp hmake).2
      exact ⟨Adds.refl fs, fun hne => absurd rfl hne⟩
  | cons n up ih =>
      rw [List.reverse_cons] at h ⊢
      have hup : ∀ m ∈ up.reverse, Path.IsStep m := fun m hm => h m (List.mem_append_left [n] hm)
      rw [makeAll, List.reverse_cons] at hmake
      cases hens : fs.ensureDirectory here (.ofNames absolute (up.reverse ++ [n])) with
      | ok fs₁ =>
          rw [hens] at hmake
          obtain rfl := (Prod.ext_iff.mp hmake).2
          obtain ⟨hadds, hstart⟩ := adds_of_ensureDirectory_ofNames h hens
          exact ⟨hadds, fun _ => hstart⟩
      | error e =>
          rw [hens] at hmake
          cases e
          -- Only a directory that is missing lets those before it be made and this one tried again.
          case notFound =>
            simp only at hmake
            split at hmake
            · rename_i fs₁ hmade
              obtain ⟨hadds, hfirst⟩ := ih hup hmade
              cases hens' : fs₁.ensureDirectory here (.ofNames absolute (up.reverse ++ [n])) with
              | error e => rw [hens'] at hmake; cases hmake
              | ok fs₂ =>
                  rw [hens'] at hmake
                  obtain rfl := (Prod.ext_iff.mp hmake).2
                  obtain ⟨hadds', hstart⟩ := adds_of_ensureDirectory_ofNames h hens'
                  refine ⟨hadds.trans hadds' ?_, fun _ => ?_⟩
                  · rw [reached_concat]
                    exact List.subset_append_left _ _
                  · cases up with
                    | nil =>
                        obtain rfl := (Prod.ext_iff.mp hmade).2
                        exact hstart
                    | cons m up => exact hfirst (List.cons_ne_nil m up)
            · rename_i hfail
              exact absurd hmake (hfail fs')
          all_goals cases hmake

/-- All goes well if no name leads to a file. -/
theorem exists_makeAll {up : List String}
    (hstart : fs.node? (start here absolute) = some .directory)
    (h : ∀ n ∈ up.reverse, Path.IsStep n)
    (hvalid : ∀ ns, ns.Sublist up.reverse → ns ≠ [] → (Path.ofNames absolute ns).IsValid)
    (hfile : ∀ d ∈ reached (start here absolute) up.reverse, ∀ b, fs.node? d ≠ some (.file b)) :
    ∃ fs', fs.makeAll here absolute up = (.ok (), fs') := by
  induction up with
  | nil => exact ⟨fs, rfl⟩
  | cons n up ih =>
      rw [List.reverse_cons] at h hvalid hfile
      have hup : ∀ m ∈ up.reverse, Path.IsStep m := fun m hm => h m (List.mem_append_left [n] hm)
      have hreached := reached_concat (start here absolute) up.reverse n
      have hvalid' := hvalid _ (List.Sublist.refl _) (by simp)
      have hway := onTheWay_ofNames here absolute h
      rw [passed_concat] at hway
      have hdest := destination_ofNames here absolute h
      have hlast : ∀ b, fs.node? (destination here (.ofNames absolute (up.reverse ++ [n]))) ≠
          some (.file b) := by
        rw [hdest]
        exact hfile _ (hreached ▸ List.mem_append_right _ (List.mem_singleton_self _))
      have hbefore : ∀ d ∈ reached (start here absolute) up.reverse, ∀ b,
          fs.node? d ≠ some (.file b) :=
        fun d hd => hfile d (hreached ▸ List.mem_append_left _ hd)
      rw [makeAll, List.reverse_cons]
      cases hens : fs.ensureDirectory here (.ofNames absolute (up.reverse ++ [n])) with
      | ok fs₁ => exact ⟨fs₁, rfl⟩
      | error e =>
          -- There is no file on the way, so those before it are made and it is tried again.
          have he : e = .notFound := by
            refine notFound_of_ensureDirectory hens hvalid' ?_ hlast
            rw [hway, List.forall_mem_cons]
            refine ⟨fun b hb => ?_, hbefore⟩
            rw [hstart] at hb
            cases hb
          subst he
          obtain ⟨fs₁, hmade⟩ := ih hup
            (fun ns hns => hvalid ns (hns.trans (List.sublist_append_left _ _))) hbefore
          obtain ⟨hadds, -⟩ := adds_of_makeAll hup hmade
          have hdirs : ∀ d ∈ onTheWay here (.ofNames absolute (up.reverse ++ [n])),
              fs₁.node? d = some .directory := by
            rw [hway, List.forall_mem_cons]
            exact ⟨hadds.directory hstart, fun d hd => hadds.directory_of_mem hd (hbefore d hd)⟩
          obtain ⟨fs₂, hens'⟩ := exists_ensureDirectory hvalid' hdirs
            fun b hb => hlast b (hadds.file_iff.mp hb)
          simp only [hmade, hens']
          exact ⟨fs₂, rfl⟩

/-! ## Making the directory that a path is in -/

/-- Makes the directory that a path is in. -/
def makeParent (fs : FileSystem) (here : Place) (p : Path) : Except FileError Unit × FileSystem :=
  match p.parent? with
  | some parent => fs.makeDirectories here parent
  | none => (.ok (), fs)

theorem isStep_of_mem_dropLast_names {n : String} (h : n ∈ p.names.dropLast) : Path.IsStep n :=
  Path.isStep_of_mem_steps (p.names_sublist_steps.subset (List.dropLast_subset _ h))

theorem makeParent_eq : fs.makeParent here p =
    fs.makeAll here p.isAbsolute p.names.dropLast.reverse := by
  unfold makeParent Path.parent?
  cases hnames : p.names with
  | nil => rfl
  | cons n ns =>
      have hsteps : ∀ m ∈ (n :: ns).dropLast, Path.IsStep m := fun m hm => by
        rw [← hnames] at hm
        exact isStep_of_mem_dropLast_names hm
      have hnames' : (Path.ofNames p.isAbsolute (n :: ns).dropLast).names = (n :: ns).dropLast := by
        rw [Path.names, Path.steps_ofNames hsteps, List.filter_eq_self]
        intro m hm
        have hmem : m ∈ p.names := hnames ▸ List.dropLast_subset _ hm
        exact (List.mem_filter.mp hmem).2
      simp only [makeDirectories, hnames', Path.isAbsolute_ofNames hsteps]

theorem file_iff_of_makeParent (fs : FileSystem) (here : Place) (p : Path) (pl : Place)
    (b : ByteArray) : (fs.makeParent here p).2.node? pl = some (.file b) ↔
      fs.node? pl = some (.file b) := by
  rw [makeParent_eq]
  exact file_iff_of_makeAll _

theorem follow_mem (pl : Place) (ns : List String) : follow pl ns ∈ pl :: reached pl ns := by
  induction ns generalizing pl with
  | nil => exact List.mem_cons_self
  | cons n ns ih => exact List.mem_cons_of_mem pl (ih (step pl n))

/-- Of a path that does not end in a point, the directories on the way are those that its names
lead to. -/
theorem mem_onTheWay_iff (here : Place) {ns : List String} {n : String}
    (hsteps : p.steps = ns ++ [n]) (hn : n ≠ ".") (d : Place) : d ∈ onTheWay here p ↔
      d = origin here p ∨ d ∈ reached (origin here p) p.names.dropLast := by
  have hnames : p.names = ns.filter (· ≠ ".") ++ [n] := by
    rw [Path.names, hsteps, List.filter_append, List.filter_cons_of_pos (by simpa using hn),
      List.filter_nil]
  rw [onTheWay, hsteps, passed_concat, List.mem_cons, hnames, List.dropLast_concat,
    mem_reached_filter]

/-! ## Writing a file -/

/-- The contents of the file at a place, if there is one. -/
def contents? (fs : FileSystem) (pl : Place) : Option ByteArray :=
  match fs.node? pl with
  | some (.file b) => some b
  | _ => none

theorem after_eq_ok_iff {r : Except FileError FileSystem} :
    fs.after r = (.ok (), fs') ↔ r = .ok fs' := by
  cases r <;> simp [after]

theorem modifyFile_eq_ok_iff {f : Option ByteArray → ByteArray} :
    fs.modifyFile here p f = .ok fs' ↔
      p.IsValid ∧ p.endsInSlash = false ∧
        (∀ d ∈ onTheWay here p, fs.node? d = some .directory) ∧
        fs.node? (destination here p) ≠ some .directory ∧
        fs' = fs.put (destination here p) (.file (f (fs.contents? (destination here p)))) := by
  constructor
  · intro h
    obtain ⟨pl, hpl, h⟩ := exists_of_bind_eq_ok h
    obtain ⟨hvalid, hway, rfl⟩ := place?_eq_ok_iff.mp hpl
    split at h
    · cases h
    · rename_i hslash
      refine ⟨hvalid, Bool.eq_false_iff.mpr hslash, hway, ?_⟩
      split at h
      · cases h
      · rename_i b hb
        rw [contents?, hb]
        exact ⟨fun heq => (nomatch heq), (Except.ok.inj h).symm⟩
      · rename_i hb
        rw [contents?, hb]
        exact ⟨fun heq => (nomatch heq), (Except.ok.inj h).symm⟩
  · rintro ⟨hvalid, hslash, hway, hdir, rfl⟩
    rw [modifyFile, place?_eq_ok_iff.mpr ⟨hvalid, hway, rfl⟩]
    simp only [bind, Except.bind, hslash, Bool.false_eq_true, if_false]
    rw [contents?]
    cases hn : fs.node? (destination here p) with
    | none => rfl
    | some n =>
        cases n with
        | file b => rfl
        | directory => exact absurd hn hdir

/-- A path leads to a place where a file is or can be made, by way of directories that are there or
can be made. -/
structure CanWrite (fs : FileSystem) (here : Place) (p : Path) : Prop where
  isValid : p.IsValid
  noSlash : p.endsInSlash = false
  start : fs.node? (origin here p) = some .directory
  noFile : ∀ d ∈ onTheWay here p, ∀ b, fs.node? d ≠ some (.file b)
  notOnTheWay : destination here p ∉ onTheWay here p
  noDirectory : fs.node? (destination here p) ≠ some .directory

/-- In the root, a name alone can be written to unless it is the name of a directory. -/
theorem canWrite_name (fs : FileSystem) {n : String} (hvalid : Path.IsValid ⟨n⟩)
    (hstep : Path.IsStep n) (hpoint : n ≠ ".") (hback : n ≠ "..")
    (hdir : fs.node? [n] ≠ some .directory) : fs.CanWrite [] ⟨n⟩ := by
  have horigin : origin [] ⟨n⟩ = [] := by
    rw [origin]
    split <;> rfl
  have hcs : n.toList ≠ [] := fun hnil => hstep.1 (String.toList_inj.mp hnil)
  have hsteps : Path.steps ⟨n⟩ = [n] := by
    rw [Path.steps, Text.pieces_of_notMem hstep.2, List.filter_cons_of_pos (by simpa using hcs),
      List.filter_nil, List.map_singleton, String.ofList_toList]
  have hway : onTheWay [] ⟨n⟩ = [[]] := by
    rw [onTheWay, hsteps, horigin]
    rfl
  have hdest : destination [] ⟨n⟩ = [n] := by
    rw [destination, hsteps, horigin, follow, List.foldl_cons, step, if_neg hpoint, if_neg hback]
    rfl
  refine ⟨hvalid, ?_, ?_, fun d hd b hb => ?_, ?_, ?_⟩
  · exact decide_eq_false fun hlast => hstep.2 (List.mem_of_getLast? hlast)
  · rw [horigin]
    rfl
  · rw [hway, List.mem_singleton] at hd
    rw [hd] at hb
    cases hb
  · rw [hway, hdest]
    intro hmem
    cases List.mem_singleton.mp hmem
  · rwa [hdest]

/-- The steps of a path that can be written to end in a name. -/
theorem exists_steps_concat (hvalid : p.IsValid) (hslash : p.endsInSlash = false)
    (hdest : destination here p ∉ onTheWay here p) :
    ∃ ns n, p.steps = ns ++ [n] ∧ n ≠ "." := by
  have hne := Path.steps_ne_nil hvalid.nonempty hslash
  refine ⟨p.steps.dropLast, p.steps.getLast hne, (List.dropLast_concat_getLast hne).symm, ?_⟩
  intro hpoint
  apply hdest
  have hsteps : p.steps = p.steps.dropLast ++ ["."] := by
    rw [← hpoint, List.dropLast_concat_getLast hne]
  rw [destination, onTheWay, hsteps, passed_concat, follow_concat, step_point]
  exact follow_mem _ _

/-- Where nothing is, any path can be written to that does not lead back to a directory on its
way. -/
theorem canWrite_empty (hvalid : p.IsValid) (hslash : p.endsInSlash = false)
    (hdest : destination [] p ∉ onTheWay [] p) : empty.CanWrite [] p := by
  have hnode : ∀ d, empty.node? d = if d = [] then some .directory else none := fun _ => rfl
  have horigin : origin [] p = [] := by
    rw [origin]
    split <;> rfl
  obtain ⟨ns, n, hsteps, -⟩ := exists_steps_concat hvalid hslash hdest
  have hroot : [] ∈ onTheWay [] p := by
    rw [onTheWay, hsteps, passed_concat, horigin]
    exact List.mem_cons_self
  refine ⟨hvalid, hslash, by rw [horigin]; rfl, fun d _ b hb => ?_, hdest, ?_⟩
  · rw [hnode] at hb
    split at hb <;> cases hb
  · have hne : destination [] p ≠ [] := fun hnil => hdest (by rw [hnil]; exact hroot)
    rw [hnode, if_neg hne]
    exact nofun

theorem CanWrite.ne_destination (h : fs.CanWrite here p) {d : Place} (hd : d ∈ onTheWay here p) :
    d ≠ destination here p := by
  rintro rfl
  exact h.notOnTheWay hd

theorem CanWrite.origin_mem (h : fs.CanWrite here p) : origin here p ∈ onTheWay here p := by
  obtain ⟨ns, n, hsteps, -⟩ := exists_steps_concat h.isValid h.noSlash h.notOnTheWay
  rw [onTheWay, hsteps, passed_concat]
  exact List.mem_cons_self

/-- Where a file can be written, one may be there already. -/
theorem CanWrite.put_file (h : fs.CanWrite here p) (b : ByteArray) :
    (fs.put (destination here p) (.file b)).CanWrite here p := by
  have hput := node?_put fs (place_ne_nil h.noDirectory) (.file b)
  refine ⟨h.isValid, h.noSlash, ?_, fun d hd => ?_, h.notOnTheWay, ?_⟩
  · rw [hput, if_neg (h.ne_destination h.origin_mem)]
    exact h.start
  · rw [hput, if_neg (h.ne_destination hd)]
    exact h.noFile d hd
  · rw [hput, if_pos rfl]
    exact fun heq => nomatch heq

theorem Adds.congr {ds es : List Place} (h : Adds fs fs' ds)
    (hmem : ∀ pl, fs.node? pl = none → (pl ∈ ds ↔ pl ∈ es)) : Adds fs fs' es := by
  intro pl
  rw [h]
  cases hn : fs.node? pl with
  | some n => rfl
  | none =>
      by_cases hd : pl ∈ ds
      · rw [if_pos hd, if_pos ((hmem pl hn).mp hd)]
      · rw [if_neg hd, if_neg fun he => hd ((hmem pl hn).mpr he)]

variable {fs₁ fs₂ : FileSystem} {f : Option ByteArray → ByteArray}

theorem Adds.contents? {ds : List Place} (h : Adds fs fs' ds) (pl : Place) :
    fs'.contents? pl = fs.contents? pl := by
  unfold FileSystem.contents?
  rw [h]
  cases hn : fs.node? pl with
  | some n => rfl
  | none => split <;> simp_all

theorem node?_of_modifyFile (h : fs.modifyFile here p f = .ok fs') (pl : Place) :
    fs'.node? pl =
      if pl = destination here p then some (.file (f (fs.contents? (destination here p))))
      else fs.node? pl := by
  obtain ⟨-, -, -, hdir, rfl⟩ := modifyFile_eq_ok_iff.mp h
  exact node?_put fs (place_ne_nil hdir) _ pl

theorem adds_of_makeParent (hmake : fs.makeParent here p = (.ok (), fs₁)) :
    Adds fs fs₁ (reached (origin here p) p.names.dropLast) ∧
      (p.names.dropLast ≠ [] → fs.node? (origin here p) = some .directory) := by
  rw [makeParent_eq] at hmake
  have hmade := adds_of_makeAll
    (fun m hm => isStep_of_mem_dropLast_names (List.reverse_reverse _ ▸ hm)) hmake
  rw [List.reverse_reverse, List.reverse_ne_nil_iff] at hmade
  exact hmade

/-- The directory of a file was made and the file was written: so it could be written, and the only
directories that were made are those on the way. -/
theorem canWrite_of_eq_ok (hmake : fs.makeParent here p = (.ok (), fs₁))
    (hwrite : fs₁.modifyFile here p f = .ok fs₂) :
    fs.CanWrite here p ∧ Adds fs fs₁ (onTheWay here p) := by
  obtain ⟨hvalid, hslash, hway, hdir, -⟩ := modifyFile_eq_ok_iff.mp hwrite
  have hdest : destination here p ∉ onTheWay here p := fun hmem => hdir (hway _ hmem)
  obtain ⟨ns, n, hsteps, hn⟩ := exists_steps_concat hvalid hslash hdest
  have hmem := mem_onTheWay_iff here hsteps hn
  obtain ⟨hadds, hfirst⟩ := adds_of_makeParent hmake
  have hstart : fs.node? (origin here p) = some .directory := by
    by_cases hnil : p.names.dropLast = []
    · rw [makeParent_eq, hnil] at hmake
      obtain rfl := (Prod.ext_iff.mp hmake).2
      exact hway _ ((hmem _).mpr (Or.inl rfl))
    · exact hfirst hnil
  -- Only the place where the path begins is on the way without being led to, and it was there.
  have hadds' : Adds fs fs₁ (onTheWay here p) := by
    refine hadds.congr fun pl hnone => ?_
    rw [hmem]
    refine ⟨Or.inr, fun h => h.resolve_left ?_⟩
    rintro rfl
    rw [hstart] at hnone
    cases hnone
  refine ⟨⟨hvalid, hslash, hstart, fun d hd b hb => ?_, hdest, fun h => ?_⟩, hadds'⟩
  · have hfile := hadds'.file_iff.mpr hb
    rw [hway d hd] at hfile
    cases hfile
  · exact hdir (hadds'.directory h)

theorem exists_of_canWrite (h : fs.CanWrite here p) (f : Option ByteArray → ByteArray) :
    ∃ fs₁ fs₂, fs.makeParent here p = (.ok (), fs₁) ∧ fs₁.modifyFile here p f = .ok fs₂ := by
  obtain ⟨ns, n, hsteps, hn⟩ := exists_steps_concat h.isValid h.noSlash h.notOnTheWay
  have hmem := mem_onTheWay_iff here hsteps hn
  have hsub : p.names.dropLast.Sublist p.steps :=
    (List.dropLast_sublist p.names).trans p.names_sublist_steps
  obtain ⟨fs₁, hmake⟩ : ∃ fs₁, fs.makeParent here p = (.ok (), fs₁) := by
    rw [makeParent_eq]
    refine exists_makeAll h.start ?_ ?_ ?_ <;> rw [List.reverse_reverse]
    · exact fun m hm => isStep_of_mem_dropLast_names hm
    · exact fun ns hns hne => h.isValid.ofNames (hns.trans hsub) hne
    · exact fun d hd => h.noFile d ((hmem d).mpr (Or.inr hd))
  obtain ⟨hadds, -⟩ := adds_of_makeParent hmake
  refine ⟨fs₁, _, hmake, modifyFile_eq_ok_iff.mpr
    ⟨h.isValid, h.noSlash, fun d hd => ?_, fun hdir => ?_, rfl⟩⟩
  · rcases (hmem d).mp hd with rfl | hreached
    · exact hadds.directory h.start
    · exact hadds.directory_of_mem hreached (h.noFile d hd)
  · -- A directory at the destination would have been made on the way.
    have hmade := hadds (destination here p)
    rw [hdir, if_neg fun hd => h.notOnTheWay ((hmem _).mpr (Or.inr hd)), Option.or_none] at hmade
    exact h.noDirectory hmade.symm

/-! ## What is found after writing -/

/-- A path leads to the same place as a second one does, once the directories on the way of the
second are made. -/
structure LeadsLike (fs : FileSystem) (here : Place) (q w : Path) : Prop where
  isValid : q.IsValid
  noSlash : q.endsInSlash = false
  way : ∀ d ∈ onTheWay here q, fs.node? d = some .directory ∨ d ∈ onTheWay here w
  same : destination here q = destination here w

/-- What a path leads to after a file was written by another one. -/
theorem find_eq_file_iff {fs fs' : FileSystem} {here : Place} {w : Path} {b : ByteArray}
    (hw : fs.CanWrite here w)
    (hfs : ∀ pl, fs'.node? pl = if pl = destination here w then some (.file b)
      else (fs.node? pl).or (if pl ∈ onTheWay here w then some .directory else none)) :
    fs'.find here q = .ok (.file b) ∧ fs'.place? here q = .ok (destination here w) ↔
      LeadsLike fs here q w := by
  have hdir : ∀ d, fs'.node? d = some .directory ↔
      fs.node? d = some .directory ∨ d ∈ onTheWay here w := by
    intro d
    rw [hfs]
    by_cases hd : d = destination here w
    · rw [if_pos hd, hd]
      exact ⟨fun h => (nomatch h), fun h => (h.elim hw.noDirectory hw.notOnTheWay).elim⟩
    · rw [if_neg hd]
      by_cases hmem : d ∈ onTheWay here w
      · rw [if_pos hmem]
        have hfile := hw.noFile d hmem
        cases hn : fs.node? d with
        | none => exact ⟨fun _ => Or.inr hmem, fun _ => rfl⟩
        | some n =>
            cases n with
            | file b' => exact absurd hn (hfile b')
            | directory => exact ⟨fun _ => Or.inr hmem, fun _ => rfl⟩
      · rw [if_neg hmem, Option.or_none, or_iff_left hmem]
  rw [find_eq_ok_iff, place?_eq_ok_iff]
  constructor
  · rintro ⟨⟨hvalid, hway, -, hslash⟩, -, -, hdest⟩
    refine ⟨hvalid, ?_, fun d hd => (hdir d).mp (hway d hd), hdest.symm⟩
    rw [Bool.eq_false_iff]
    exact fun hs => nomatch hslash hs
  · rintro ⟨hvalid, hslash, hway, hsame⟩
    have hway' := fun d hd => (hdir d).mpr (hway d hd)
    refine ⟨⟨hvalid, hway', ?_, fun hs => ?_⟩, hvalid, hway', hsame.symm⟩
    · rw [hfs, if_pos hsame]
    · rw [hslash] at hs
      cases hs

theorem LeadsLike.refl {fs : FileSystem} {here : Place} {w : Path} (h : fs.CanWrite here w) :
    LeadsLike fs here w w :=
  ⟨h.isValid, h.noSlash, fun _ hd => Or.inr hd, rfl⟩

/-- What was written is read back. -/
theorem read_of_modifyFile (hmake : fs.makeParent here p = (.ok (), fs₁))
    (hwrite : fs₁.modifyFile here p f = .ok fs₂) :
    fs₂.read here p = .ok (f (fs.contents? (destination here p))) := by
  obtain ⟨hcan, hadds⟩ := canWrite_of_eq_ok hmake hwrite
  have hfs := node?_of_modifyFile hwrite
  rw [hadds.contents?] at hfs
  rw [read_eq_ok_iff]
  refine ((find_eq_file_iff hcan fun pl => ?_).mpr (LeadsLike.refl hcan)).1
  rw [hfs, hadds]

/-- A file that was written can be written again. -/
theorem canWrite_of_modifyFile (hmake : fs.makeParent here p = (.ok (), fs₁))
    (hwrite : fs₁.modifyFile here p f = .ok fs₂) : fs₂.CanWrite here p := by
  obtain ⟨hcan, hadds⟩ := canWrite_of_eq_ok hmake hwrite
  obtain ⟨-, -, hway, -, -⟩ := modifyFile_eq_ok_iff.mp hwrite
  have hfs := node?_of_modifyFile hwrite
  refine ⟨hcan.isValid, hcan.noSlash, ?_, fun d hd b hb => ?_, hcan.notOnTheWay, ?_⟩
  · rw [hfs, if_neg (hcan.ne_destination hcan.origin_mem)]
    exact hadds.directory hcan.start
  · rw [hfs, if_neg (hcan.ne_destination hd), hway d hd] at hb
    cases hb
  · rw [hfs, if_pos rfl]
    exact fun heq => nomatch heq

theorem contents?_of_read {b : ByteArray} (h : fs.read here p = .ok b) :
    fs.contents? (destination here p) = some b := by
  obtain ⟨-, -, hn, -⟩ := find_eq_ok_iff.mp (read_eq_ok_iff.mp h)
  rw [contents?, hn]

end LineShell.FileSystem
