import LineShell.OrderedMap
import Std.Data.ExtHashMap

/-!
# Maps in insertion order, kept as a table and a list

The values of the map stand in a hash table, and beside it is a list of the keys in the order in
which they were first inserted. Nothing but the operations keeps the two in step: to go through the
map is to go through the list, and a key that the table does not hold would be passed over.
-/

namespace LineShell

/-- A table of values, and the keys in insertion order. -/
structure IndexedMap (κ α : Type) [BEq κ] [Hashable κ] where
  table : Std.ExtHashMap κ α
  order : List κ

namespace IndexedMap

variable {κ α : Type} [DecidableEq κ] [Hashable κ]

/-- The map without keys. -/
def empty : IndexedMap κ α := ⟨∅, []⟩

instance : EmptyCollection (IndexedMap κ α) := ⟨empty⟩

/-- Whether the table holds a key. -/
def contains (m : IndexedMap κ α) (k : κ) : Bool := m.table.contains k

/-- Puts a value into the table, and its key at the end of the list if the table has not held it. -/
def insert (m : IndexedMap κ α) (k : κ) (a : α) : IndexedMap κ α where
  table := m.table.insert k a
  order := if m.contains k then m.order else m.order ++ [k]

/-- Inserts the bindings of a list one after the other. -/
def ofList (bs : List (κ × α)) : IndexedMap κ α :=
  bs.foldl (fun m b => m.insert b.1 b.2) ∅

/-- The value that the table holds under a key. -/
def get? (m : IndexedMap κ α) (k : κ) : Option α := m.table[k]?

/-- How many keys are listed. -/
def size (m : IndexedMap κ α) : Nat := m.order.length

def isEmpty (m : IndexedMap κ α) : Bool := m.order.isEmpty

/-- The bindings of the listed keys that the table holds. -/
def toList (m : IndexedMap κ α) : List (κ × α) :=
  m.order.filterMap fun k => (m.get? k).map fun a => (k, a)

end IndexedMap

end LineShell
