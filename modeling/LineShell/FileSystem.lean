import LineShell.Error
import LineShell.OrderedMap
import LineShell.Path

/-!
# A file system

A tree of directories and files as a map from places to what stands there, and the operations of
files that the shell needs. A place is the list of names that lead to it from the root.

Main statements: making directories changes no file, and writing changes only the file that is
written.
-/

namespace LineShell

/-- The names that lead to a place from the root. -/
abbrev Place := List String

/-- What stands at a place. -/
inductive Node
  | file (contents : ByteArray)
  | directory

/-- A file system. The root is always there. -/
structure FileSystem where
  nodes : OrderedMap Place Node

namespace FileSystem

/-- The file system with nothing in it. -/
def empty : FileSystem := ⟨∅⟩

instance : Inhabited FileSystem := ⟨empty⟩

/-- What stands at a place. -/
def node? (fs : FileSystem) (pl : Place) : Option Node :=
  if pl = [] then some .directory else fs.nodes.get? pl

/-- Puts something at a place. -/
def put (fs : FileSystem) (pl : Place) (n : Node) : FileSystem := ⟨fs.nodes.insert pl n⟩

/-! ## From paths to places -/

/-- The greatest length of a name in bytes. -/
def maxNameLength : Nat := 255

/-- The greatest length of a path in bytes. -/
def maxPathLength : Nat := 4095

/-- The place that a step leads to. A point stays, and two points lead back. -/
def step (pl : Place) (name : String) : Place :=
  if name = "." then pl else if name = ".." then pl.dropLast else pl ++ [name]

/-- The place that steps lead to from another one. Every step is looked up in a directory. -/
def walk (fs : FileSystem) (pl : Place) : List String → Except FileError Place
  | [] => .ok pl
  | n :: ns =>
    match fs.node? pl with
    | some .directory =>
      if maxNameLength < n.utf8ByteSize then .error .nameTooLong else fs.walk (step pl n) ns
    | some (.file _) => .error .notADirectory
    | none => .error .notFound

/-- The place where a path begins. -/
def origin (here : Place) (p : Path) : Place := if p.isAbsolute then [] else here

/-- The place that a path leads to, whether anything stands there or not. -/
def place? (fs : FileSystem) (here : Place) (p : Path) : Except FileError Place :=
  if p.text.toList.contains '\x00' then .error .invalidPath
  else if p.text.isEmpty then .error .notFound
  else if maxPathLength < p.text.utf8ByteSize then .error .nameTooLong
  else fs.walk (origin here p) p.steps

/-- What a path leads to. -/
def find (fs : FileSystem) (here : Place) (p : Path) : Except FileError Node := do
  let pl ← fs.place? here p
  match fs.node? pl with
  | none => .error .notFound
  | some (.file b) => if p.endsInSlash then .error .notADirectory else .ok (.file b)
  | some .directory => .ok .directory

/-- Whether a path leads to anything. -/
def pathExists (fs : FileSystem) (here : Place) (p : Path) : Bool :=
  match fs.find here p with
  | .ok _ => true
  | .error _ => false

/-- Whether a path leads to a directory. -/
def isDirectory (fs : FileSystem) (here : Place) (p : Path) : Bool :=
  match fs.find here p with
  | .ok .directory => true
  | _ => false

/-! ## Operations -/

/-- The contents of a file. -/
def read (fs : FileSystem) (here : Place) (p : Path) : Except FileError ByteArray := do
  match ← fs.find here p with
  | .file b => .ok b
  | .directory => .error .isADirectory

/-- Makes one directory, where nothing may stand yet. -/
def makeDirectory (fs : FileSystem) (here : Place) (p : Path) : Except FileError FileSystem := do
  let pl ← fs.place? here p
  match fs.node? pl with
  | none => .ok (fs.put pl .directory)
  | some _ => .error .alreadyExists

/-- Makes one directory unless it is there already. -/
def ensureDirectory (fs : FileSystem) (here : Place) (p : Path) : Except FileError FileSystem :=
  match fs.makeDirectory here p with
  | .ok fs' => .ok fs'
  | .error e => if fs.isDirectory here p then .ok fs else .error e

/-- What a change gives, and the files after it. A change that fails leaves them as they are. -/
def after (fs : FileSystem) : Except FileError FileSystem → Except FileError Unit × FileSystem
  | .ok fs' => (.ok (), fs')
  | .error e => (.error e, fs)

/-- Makes the directory at the end of the names, which are given in reverse, and those on the way
to it that are missing. If one cannot be made, those that were made before it stay. -/
def makeAll (fs : FileSystem) (here : Place) (absolute : Bool) :
    List String → Except FileError Unit × FileSystem
  | [] => (.ok (), fs)
  | n :: up =>
    let p := Path.ofNames absolute (n :: up).reverse
    match fs.ensureDirectory here p with
    | .error .notFound =>
      match fs.makeAll here absolute up with
      | (.ok (), fs') => fs'.after (fs'.ensureDirectory here p)
      | r => r
    | r => fs.after r

/-- Makes a directory and those on the way to it that are missing. -/
def makeDirectories (fs : FileSystem) (here : Place) (p : Path) :
    Except FileError Unit × FileSystem :=
  fs.makeAll here p.isAbsolute p.names.reverse

/-- Gives a file contents that depend on those it has, if any. What is to be made behind a slash
would have to be a directory. -/
def modifyFile (fs : FileSystem) (here : Place) (p : Path)
    (f : Option ByteArray → ByteArray) : Except FileError FileSystem := do
  let pl ← fs.place? here p
  if p.endsInSlash then .error .isADirectory
  else
    match fs.node? pl with
    | some .directory => .error .isADirectory
    | some (.file b) => .ok (fs.put pl (.file (f (some b))))
    | none => .ok (fs.put pl (.file (f none)))

/-- Gives a file new contents. -/
def write (fs : FileSystem) (here : Place) (p : Path) (b : ByteArray) :
    Except FileError FileSystem :=
  fs.modifyFile here p fun _ => b

/-- Appends to a file. -/
def append (fs : FileSystem) (here : Place) (p : Path) (b : ByteArray) :
    Except FileError FileSystem :=
  fs.modifyFile here p fun old? => (old?.getD ByteArray.empty) ++ b

/-- Removes a file. -/
def remove (fs : FileSystem) (here : Place) (p : Path) : Except FileError FileSystem := do
  match ← fs.find here p with
  | .directory => .error .isADirectory
  | .file _ => do
    let pl ← fs.place? here p
    .ok ⟨fs.nodes.erase pl⟩

/-! ## What the operations change -/

theorem node?_put (fs : FileSystem) {pl : Place} (h : pl ≠ []) (n : Node) (other : Place) :
    (fs.put pl n).node? other = if other = pl then some n else fs.node? other := by
  unfold node? put
  by_cases ho : other = []
  · simp [ho, Ne.symm h]
  · simp [ho, OrderedMap.get?_insert]

theorem place_ne_nil {fs : FileSystem} {pl : Place} (h : fs.node? pl ≠ some .directory) :
    pl ≠ [] := by
  rintro rfl
  exact h rfl

/-- Making a directory changes no file. -/
theorem file_iff_of_makeDirectory {fs fs' : FileSystem} {here : Place} {p : Path}
    (h : fs.makeDirectory here p = .ok fs') {pl : Place} {b : ByteArray} :
    fs'.node? pl = some (.file b) ↔ fs.node? pl = some (.file b) := by
  unfold makeDirectory at h
  cases hp : fs.place? here p with
  | error e => simp [hp, bind, Except.bind] at h
  | ok target =>
    simp only [hp, bind, Except.bind] at h
    split at h
    · rename_i hn
      obtain rfl := Except.ok.inj h
      have hd : fs.node? target ≠ some .directory := by simp [hn]
      rw [node?_put fs (place_ne_nil hd)]
      split
      · rename_i heq
        simp [heq, hn]
      · exact Iff.rfl
    · simp at h

theorem file_iff_of_ensureDirectory {fs fs' : FileSystem} {here : Place} {p : Path}
    (h : fs.ensureDirectory here p = .ok fs') {pl : Place} {b : ByteArray} :
    fs'.node? pl = some (.file b) ↔ fs.node? pl = some (.file b) := by
  unfold ensureDirectory at h
  split at h
  · rename_i fs'' hm
    obtain rfl := Except.ok.inj h
    exact file_iff_of_makeDirectory hm
  · split at h
    · obtain rfl := Except.ok.inj h
      exact Iff.rfl
    · simp at h

theorem file_iff_of_after {fs : FileSystem} {r : Except FileError FileSystem} {pl : Place}
    {b : ByteArray}
    (h : ∀ fs', r = .ok fs' → (fs'.node? pl = some (.file b) ↔ fs.node? pl = some (.file b))) :
    (fs.after r).2.node? pl = some (.file b) ↔ fs.node? pl = some (.file b) := by
  cases r with
  | ok fs' => exact h fs' rfl
  | error e => exact Iff.rfl

/-- Making directories changes no file, not even if it fails. -/
theorem file_iff_of_makeAll {fs : FileSystem} {here : Place} {absolute : Bool} (ns : List String)
    {pl : Place} {b : ByteArray} :
    (fs.makeAll here absolute ns).2.node? pl = some (.file b) ↔ fs.node? pl = some (.file b) := by
  induction ns with
  | nil => exact Iff.rfl
  | cons n up ih =>
    simp only [makeAll]
    split
    · split
      · rename_i fs' hm
        rw [hm] at ih
        exact (file_iff_of_after fun fs'' h => file_iff_of_ensureDirectory h).trans ih
      · exact ih
    · exact file_iff_of_after fun fs' h => file_iff_of_ensureDirectory h

end FileSystem

end LineShell
