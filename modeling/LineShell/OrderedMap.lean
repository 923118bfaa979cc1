/-!
# Maps in insertion order

A map from keys to values that remembers the order in which the keys were first inserted. The view
is the list of its bindings. Main statements: inserting a key that is present keeps the order of
keys, inserting a new one puts it last, and a look-up finds the value inserted last.
-/

namespace LineShell

section Bindings

variable {κ α : Type} [DecidableEq κ]

/-- Puts the value in place of the one of the same key, or at the end. -/
def insertBinding (k : κ) (a : α) : List (κ × α) → List (κ × α)
  | [] => [(k, a)]
  | (k', a') :: bs => if k' = k then (k, a) :: bs else (k', a') :: insertBinding k a bs

theorem map_fst_insertBinding (k : κ) (a : α) (bs : List (κ × α)) :
    (insertBinding k a bs).map Prod.fst =
      if k ∈ bs.map Prod.fst then bs.map Prod.fst else bs.map Prod.fst ++ [k] := by
  induction bs with
  | nil => simp [insertBinding]
  | cons b bs ih =>
    obtain ⟨k', a'⟩ := b
    by_cases h : k' = k
    · simp [insertBinding, h]
    · simp only [insertBinding, if_neg h, List.map_cons, ih, List.mem_cons, Ne.symm h, false_or]
      split <;> simp

theorem lookup_binding (k j : κ) (a : α) (bs : List (κ × α)) :
    List.lookup k ((j, a) :: bs) = if k = j then some a else List.lookup k bs := by
  by_cases h : k = j
  · simp [h]
  · simp [List.lookup_cons, beq_eq_false_iff_ne.2 h, h]

end Bindings

/-- A map from keys to values in insertion order. -/
structure OrderedMap (κ α : Type) where
  toList : List (κ × α)
  nodup_keys : (toList.map Prod.fst).Nodup

namespace OrderedMap

variable {κ α : Type}

/-- The map without keys. -/
def empty : OrderedMap κ α := ⟨[], by simp⟩

instance : EmptyCollection (OrderedMap κ α) := ⟨empty⟩

instance : Inhabited (OrderedMap κ α) := ⟨∅⟩

/-- The keys in insertion order. -/
def keys (m : OrderedMap κ α) : List κ := m.toList.map Prod.fst

@[simp] theorem keys_empty : (∅ : OrderedMap κ α).keys = [] := rfl

variable [DecidableEq κ]

/-- Binds a key, keeping its place if it has one. -/
def insert (m : OrderedMap κ α) (k : κ) (a : α) : OrderedMap κ α where
  toList := insertBinding k a m.toList
  nodup_keys := by
    rw [map_fst_insertBinding]
    split
    · exact m.nodup_keys
    · rename_i h
      exact List.nodup_append.2 ⟨m.nodup_keys, by simp, by
        rintro x hx y hy rfl
        exact h (List.mem_singleton.1 hy ▸ hx)⟩

/-- Inserts the bindings of a list one after the other. -/
def ofList (bs : List (κ × α)) : OrderedMap κ α :=
  bs.foldl (fun m b => m.insert b.1 b.2) ∅

/-- Forgets a key. -/
def erase (m : OrderedMap κ α) (k : κ) : OrderedMap κ α where
  toList := m.toList.filter (·.1 ≠ k)
  nodup_keys := m.nodup_keys.sublist (List.filter_sublist.map Prod.fst)

/-- The value bound to a key. -/
def get? (m : OrderedMap κ α) (k : κ) : Option α := m.toList.lookup k

/-- Whether a key is bound. -/
def contains (m : OrderedMap κ α) (k : κ) : Bool := (m.get? k).isSome

/-- How many keys are bound. -/
def size (m : OrderedMap κ α) : Nat := m.toList.length

def isEmpty (m : OrderedMap κ α) : Bool := m.toList.isEmpty

theorem keys_insert (m : OrderedMap κ α) (k : κ) (a : α) :
    (m.insert k a).keys = if k ∈ m.keys then m.keys else m.keys ++ [k] :=
  map_fst_insertBinding k a m.toList

theorem get?_insert (m : OrderedMap κ α) (k k' : κ) (a : α) :
    (m.insert k a).get? k' = if k' = k then some a else m.get? k' := by
  simp only [get?, insert]
  induction m.toList with
  | nil => simp [insertBinding, lookup_binding]
  | cons b bs ih =>
    obtain ⟨j, c⟩ := b
    by_cases hj : j = k
    · subst hj
      by_cases h : k' = j <;> simp [insertBinding, lookup_binding, h]
    · by_cases h : k' = j
      · subst h
        simp [insertBinding, hj]
      · simp [insertBinding, lookup_binding, hj, h, ih]

theorem get?_erase (m : OrderedMap κ α) (k k' : κ) :
    (m.erase k).get? k' = if k' = k then none else m.get? k' := by
  simp only [get?, erase]
  induction m.toList with
  | nil => simp
  | cons b bs ih =>
    obtain ⟨j, c⟩ := b
    rw [List.filter_cons, lookup_binding]
    by_cases hj : j = k
    · rw [if_neg (by simp [hj]), ih]
      by_cases h : k' = k
      · simp [h]
      · simp [h, show k' ≠ j from fun e => h (e.trans hj)]
    · rw [if_pos (by simp [hj]), lookup_binding, ih]
      by_cases h : k' = j
      · simp [h, hj]
      · simp [h]

@[simp] theorem get?_empty (k : κ) : (∅ : OrderedMap κ α).get? k = none := rfl

theorem contains_insert (m : OrderedMap κ α) (k k' : κ) (a : α) :
    (m.insert k a).contains k' = (k' == k || m.contains k') := by
  by_cases h : k' = k <;> simp [contains, get?_insert, h]

theorem contains_iff_mem_keys (m : OrderedMap κ α) (k : κ) :
    m.contains k ↔ k ∈ m.keys := by
  simp only [contains, get?, keys]
  induction m.toList with
  | nil => simp
  | cons b bs ih =>
    obtain ⟨j, c⟩ := b
    by_cases h : k = j
    · simp [h]
    · simp [lookup_binding, h, ih]

end OrderedMap

end LineShell
