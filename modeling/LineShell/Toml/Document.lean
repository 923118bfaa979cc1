import LineShell.Toml.Line

/-!
# TOML documents

The lines of a document are put together to one table. A table is opened by its header, is implied
by the header of a table in it, or is made by keys of several parts; the rules about which of these
may be mixed are about how a table came to be. What was given as a value is closed.
-/

namespace LineShell.Toml

/-- How a table came to be. -/
inductive Origin
  /-- It has a header. -/
  | header
  /-- A table in it has a header. -/
  | implied
  /-- It is named by a key of several parts. -/
  | dotted
deriving DecidableEq, Repr

/-- What is bound to a key while a document is put together. -/
inductive Slot
  | closed (v : Toml)
  | table (origin : Origin) (members : List (String × Slot))
  /-- The elements of an array of tables, the newest first and on its own. -/
  | tables (newest : List (String × Slot)) (older : List (List (String × Slot)))

/-- The members of a table while a document is put together. -/
abbrev Slots := List (String × Slot)

namespace Slots

/-- Binds a key that is bound already to something else. -/
def replace (ms : Slots) (k : String) (s : Slot) : Slots :=
  ms.map fun m => if m.1 = k then (k, s) else m

/-! ## Assignments -/

/-- Binds a key of several parts to a value. Only tables that such keys have made, or that have no
header yet, are opened again on the way, and the last of them must be one that such keys have
made. -/
def assign : KeyPath → Toml → Slots → Option Slots
  | [], _, _ => none
  | [k], v, ms => if (ms.lookup k).isSome then none else some (ms ++ [(k, .closed v)])
  | k :: k' :: ks, v, ms =>
    match ms.lookup k with
    | none => (assign (k' :: ks) v []).map fun t => ms ++ [(k, .table .dotted t)]
    | some (.table .dotted t) =>
      (assign (k' :: ks) v t).map fun t => ms.replace k (.table .dotted t)
    | some (.table .implied t) =>
      if ks.isEmpty then none
      else (assign (k' :: ks) v t).map fun t => ms.replace k (.table .implied t)
    | some (.tables t ts) =>
      if ks.isEmpty then none
      else (assign (k' :: ks) v t).map fun t => ms.replace k (.tables t ts)
    | some (.table .header _) | some (.closed _) => none

/-! ## Headers -/

/-- Changes the table that a path leads to. Tables that are missing on the way are implied. -/
def enter (f : Slots → Option Slots) : KeyPath → Slots → Option Slots
  | [], ms => f ms
  | k :: ks, ms =>
    match ms.lookup k with
    | none => (enter f ks []).map fun t => ms ++ [(k, .table .implied t)]
    | some (.table o t) => (enter f ks t).map fun t => ms.replace k (.table o t)
    | some (.tables t ts) => (enter f ks t).map fun t => ms.replace k (.tables t ts)
    | some (.closed _) => none

/-- Opens the table of a key, which must not have a header yet, and changes it. -/
def openTable (f : Slots → Option Slots) (k : String) (ms : Slots) : Option Slots :=
  match ms.lookup k with
  | none => (f []).map fun t => ms ++ [(k, .table .header t)]
  | some (.table .implied t) => (f t).map fun t => ms.replace k (.table .header t)
  | _ => none

/-- Adds an element to the array of tables of a key, and changes it. -/
def openElement (f : Slots → Option Slots) (k : String) (ms : Slots) : Option Slots :=
  match ms.lookup k with
  | none => (f []).map fun t => ms ++ [(k, .tables t [])]
  | some (.tables newest older) => (f []).map fun t => ms.replace k (.tables t (newest :: older))
  | _ => none

end Slots

/-! ## Values -/

mutual

/-- The value of what is bound to a key. -/
def Slot.value : Slot → Toml
  | .closed v => v
  | .table _ ms => .table (Slots.values ms)
  | .tables newest older =>
    .array ((Slots.elements older).reverse ++ [.table (Slots.values newest)])

/-- The members of a table as values. -/
def Slots.values : List (String × Slot) → List (String × Toml)
  | [] => []
  | (k, s) :: ms => (k, s.value) :: Slots.values ms

/-- The elements of an array of tables as values. -/
def Slots.elements : List (List (String × Slot)) → List Toml
  | [] => []
  | ms :: mss => .table (Slots.values ms) :: Slots.elements mss

end

mutual

/-- The value of an item, unless its inline tables bind a key twice. -/
def Item.value? : Item → Option Toml
  | .scalar v => some v
  | .array vs => (Item.values? vs).map .array
  | .inline ms => (Item.slots? [] ms).map fun ms => .table (Slots.values ms)

/-- The values of items. -/
def Item.values? : List Item → Option (List Toml)
  | [] => some []
  | v :: vs => do
    let v ← v.value?
    let vs ← Item.values? vs
    return v :: vs

/-- The members of an inline table, added to those that are there already. -/
def Item.slots? (slots : Slots) : List (KeyPath × Item) → Option Slots
  | [] => some slots
  | (path, v) :: ms => do
    let v ← v.value?
    let slots ← slots.assign path v
    Item.slots? slots ms

end

/-! ## Documents -/

/-- Carries out the assignments of a table. -/
def assignAll (assignments : List (KeyPath × Item)) (ms : Slots) : Option Slots :=
  Item.slots? ms assignments

/-- A header and the assignments below it. -/
structure Block where
  header : Line
  assignments : List (KeyPath × Item)

/-- The blocks of a document, from its last line up: the assignments in front of the first header,
and the blocks. -/
def blocks : List Line → List (KeyPath × Item) × List Block
  | [] => ([], [])
  | l :: ls =>
    let (assignments, bs) := blocks ls
    match l with
    | .blank => (assignments, bs)
    | .assignment path v => ((path, v) :: assignments, bs)
    | .table _ | .element _ => ([], ⟨l, assignments⟩ :: bs)

/-- Opens what a header names and carries out the assignments below it. -/
def Block.apply (b : Block) (ms : Slots) : Option Slots :=
  match b.header with
  | .table path => at? path (Slots.openTable (assignAll b.assignments)) ms
  | .element path => at? path (Slots.openElement (assignAll b.assignments)) ms
  | .blank | .assignment _ _ => none
where
  /-- Opens the last part of a path in the table that the other parts lead to. -/
  at? (path : KeyPath) (f : String → Slots → Option Slots) (ms : Slots) : Option Slots := do
    let k ← path.getLast?
    Slots.enter (f k) path.dropLast ms

/-- The table of a document, without the mark that may stand at its head. -/
def ofChars? (cs : List Char) : Option (List (String × Toml)) := do
  let ls ← lines? (if cs.head? = some '\uFEFF' then cs.tail else cs)
  let (assignments, bs) := blocks ls
  let ms ← assignAll assignments []
  let ms ← bs.foldlM (fun ms b => b.apply ms) ms
  return Slots.values ms

end LineShell.Toml
