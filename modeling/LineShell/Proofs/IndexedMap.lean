import LineShell.IndexedMap
import LineShell.Proofs.OrderedMap
import LineShell.Variables
import Mathlib.Data.List.Basic

/-!
# The table and the list stay in step

A map that is kept as a table and a list shows what a map in insertion order shows (`Shows`): the
list is its keys, and the table holds its values. Every insertion keeps the two alike
(`Shows.insert`), so they are alike after any insertions (`shows_ofList`), and nothing that is asked
of the table or of the list tells them apart: no listed key is missing in the table and none is
listed twice.
-/

namespace LineShell.IndexedMap

variable {κ α : Type} [DecidableEq κ] [Hashable κ]

/-! ## One insertion -/

theorem contains_eq_isSome_get? (m : IndexedMap κ α) (k : κ) : m.contains k = (m.get? k).isSome :=
  Std.ExtHashMap.contains_eq_isSome_getElem?

theorem get?_insert (m : IndexedMap κ α) (k k' : κ) (a : α) :
    (m.insert k a).get? k' = if k' = k then some a else m.get? k' := by
  rw [get?, insert, Std.ExtHashMap.getElem?_insert]
  by_cases h : k' = k
  · rw [if_pos h, if_pos (beq_iff_eq.mpr h.symm)]
  · rw [if_neg h, if_neg (mt beq_iff_eq.mp (Ne.symm h))]
    rfl

theorem contains_insert {m : IndexedMap κ α} {k : κ} (h : m.contains k = true) (k' : κ) (a : α) :
    (m.insert k' a).contains k = true := by
  rw [contains_eq_isSome_get?] at h ⊢
  rw [get?_insert]
  split
  · rfl
  · exact h

theorem order_insert {m : IndexedMap κ α} {k : κ} (h : m.contains k = true) (a : α) :
    (m.insert k a).order = m.order := if_pos h

theorem eq_of_get?_eq {m m' : IndexedMap κ α} (horder : m.order = m'.order)
    (hget : ∀ k, m.get? k = m'.get? k) : m = m' := by
  obtain ⟨t, ks⟩ := m
  obtain ⟨t', ks'⟩ := m'
  obtain rfl : ks = ks' := horder
  obtain rfl : t = t' := Std.ExtHashMap.ext_getElem? hget
  rfl

/-- Values of two keys that are there already can be put in in either order. -/
theorem insert_comm {m : IndexedMap κ α} {k k' : κ} (hne : k ≠ k') (h : m.contains k = true)
    (h' : m.contains k' = true) (a a' : α) :
    (m.insert k a).insert k' a' = (m.insert k' a').insert k a := by
  refine eq_of_get?_eq ?_ fun j => ?_
  · rw [order_insert (contains_insert h' k a), order_insert h,
      order_insert (contains_insert h k' a'), order_insert h']
  · rw [get?_insert, get?_insert, get?_insert, get?_insert]
    by_cases hj : j = k
    · rw [if_neg fun hj' => hne (hj.symm.trans hj'), if_pos hj, if_pos hj]
    · rw [if_neg hj, if_neg hj]

/-! ## In step with a map in insertion order -/

/-- The list is the keys of the map, and the table holds its values. -/
structure Shows (m : IndexedMap κ α) (o : OrderedMap κ α) : Prop where
  order : m.order = o.keys
  get? : ∀ k, m.get? k = o.get? k

theorem shows_empty : (∅ : IndexedMap κ α).Shows ∅ :=
  ⟨rfl, fun _ => Std.ExtHashMap.getElem?_empty⟩

namespace Shows

variable {m : IndexedMap κ α} {o : OrderedMap κ α}

theorem contains (h : m.Shows o) (k : κ) : m.contains k = o.contains k := by
  rw [contains_eq_isSome_get?, h.get?, OrderedMap.contains]

theorem insert (h : m.Shows o) (k : κ) (a : α) : (m.insert k a).Shows (o.insert k a) where
  order := by
    rw [IndexedMap.insert, OrderedMap.keys_insert, h.contains, h.order]
    exact if_congr (o.contains_iff_mem_keys k) rfl rfl
  get? k' := by rw [get?_insert, OrderedMap.get?_insert, h.get?]

/-- The keys are listed once each, and they are the keys of the table. -/
theorem inStep (h : m.Shows o) : m.order.Nodup ∧ ∀ k, k ∈ m.order ↔ m.contains k = true := by
  refine ⟨h.order ▸ o.nodup_keys, fun k => ?_⟩
  rw [h.order, h.contains, o.contains_iff_mem_keys]

/-- Going through the list nothing is passed over. -/
theorem toList (h : m.Shows o) : m.toList = o.toList := by
  have hfound : ∀ b ∈ o.toList, ((m.get? b.1).map fun a => (b.1, a)) = some b := by
    intro b hb
    rw [h.get?, OrderedMap.get?, lookup_eq_some o.nodup_keys hb]
    rfl
  rw [IndexedMap.toList, h.order, OrderedMap.keys, List.filterMap_map]
  exact (List.filterMap_congr hfound).trans List.filterMap_some

end Shows

theorem shows_foldl {m : IndexedMap κ α} {o : OrderedMap κ α} (h : m.Shows o)
    (bs : List (κ × α)) :
    (bs.foldl (fun m b => m.insert b.1 b.2) m).Shows
      (bs.foldl (fun o b => o.insert b.1 b.2) o) := by
  induction bs generalizing m o with
  | nil => exact h
  | cons b bs ih => exact ih (h.insert b.1 b.2)

theorem shows_ofList (bs : List (κ × α)) : (ofList bs).Shows (OrderedMap.ofList bs) :=
  shows_foldl shows_empty bs

/-! ## Variables -/

/-- Variables that are kept as a table and a list are a map in insertion order. After any
assignments the list names every variable of the table once, in the order of the first assignments,
and going through it gives each name with the value of its last assignment. What is found under a
name, whether it is there, and how many names there are follow from that, and two variables that are
there can be assigned in either order. The variables of a session after these assignments are the
same. -/
theorem ofList_in_order (sets : List (String × Value)) :
    let m : IndexedMap String Value := ofList sets
    (m.order.Nodup ∧ ∀ n, n ∈ m.order ↔ m.contains n = true) ∧
      m.toList.map Prod.fst = (sets.map Prod.fst).eraseDups ∧
      (∀ n v, (n, v) ∈ m.toList ↔
        ((sets.filter fun b => b.1 = n).map Prod.snd).getLast? = some v) ∧
      (∀ n, m.get? n = m.toList.lookup n ∧ m.contains n = (m.toList.lookup n).isSome) ∧
      m.size = m.toList.length ∧ m.isEmpty = m.toList.isEmpty ∧
      (∀ n n' v v', n ≠ n' → m.contains n = true → m.contains n' = true →
        (m.insert n v).insert n' v' = (m.insert n' v').insert n v) ∧
      m.toList = (OrderedMap.ofList sets : Variables).toList := by
  intro m
  have hm : m.Shows (OrderedMap.ofList sets) := shows_ofList sets
  have hlist : m.toList = (OrderedMap.ofList sets).toList := hm.toList
  refine ⟨hm.inStep, ?_, fun n v => ?_, fun n => ?_, ?_, ?_, fun n n' v v' hne h h' => ?_, hlist⟩
  · rw [hlist]
    exact OrderedMap.keys_ofList sets
  · rw [hlist, OrderedMap.mem_toList_iff, OrderedMap.get?_ofList]
  · rw [contains_eq_isSome_get?, hm.get?, hlist]
    exact ⟨rfl, rfl⟩
  · rw [hlist, size, hm.order, OrderedMap.keys, List.length_map]
  · rw [hlist, isEmpty, hm.order, OrderedMap.keys, List.isEmpty_map]
  · exact insert_comm hne h h' v v'

end LineShell.IndexedMap
