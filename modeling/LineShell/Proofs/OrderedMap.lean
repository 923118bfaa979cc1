import LineShell.OrderedMap
import Mathlib.Data.List.Induction

/-!
# Maps built one binding at a time

A map in insertion order is determined by the list of its bindings. Built from any list, it has the
keys of the list in the order of their first occurrence (`keys_ofList`), and under each of them the
value that the list gives last (`get?_ofList`). Built from its own bindings, it is the same map
again (`ofList_toList`).
-/

namespace LineShell

section Bindings

variable {κ α : Type} [DecidableEq κ] {k : κ} {a : α} {bs : List (κ × α)}

theorem lookup_eq_none (h : k ∉ bs.map Prod.fst) : bs.lookup k = none := by
  rw [List.lookup_eq_none_iff]
  intro b hb
  rw [bne_iff_ne]
  rintro rfl
  exact h (List.mem_map_of_mem hb)

theorem lookup_eq_some (h : (bs.map Prod.fst).Nodup) (hmem : (k, a) ∈ bs) :
    bs.lookup k = some a := by
  induction bs with
  | nil => cases hmem
  | cons b bs ih =>
      obtain ⟨j, b⟩ := b
      obtain ⟨hj, hbs⟩ := List.nodup_cons.mp h
      rw [lookup_binding]
      rcases List.mem_cons.mp hmem with heq | htail
      · obtain ⟨rfl, rfl⟩ := Prod.mk.inj heq
        exact if_pos rfl
      · rw [if_neg, ih hbs htail]
        rintro rfl
        exact hj (List.mem_map.mpr ⟨(k, a), htail, rfl⟩)

end Bindings

namespace OrderedMap

variable {κ α : Type}

theorem eq_of_toList_eq {m m' : OrderedMap κ α} (h : m.toList = m'.toList) : m = m' := by
  obtain ⟨bs, _⟩ := m
  obtain rfl : bs = m'.toList := h
  rfl

variable [DecidableEq κ]

theorem mem_toList_iff (m : OrderedMap κ α) (k : κ) (a : α) :
    (k, a) ∈ m.toList ↔ m.get? k = some a := by
  refine ⟨lookup_eq_some m.nodup_keys, fun h => ?_⟩
  obtain ⟨before, behind, heq, -⟩ := List.lookup_eq_some_iff.mp h
  rw [heq]
  exact List.mem_append_right _ List.mem_cons_self

theorem ofList_concat (bs : List (κ × α)) (b : κ × α) :
    ofList (bs ++ [b]) = (ofList bs).insert b.1 b.2 := by
  rw [ofList, List.foldl_append]
  rfl

theorem keys_ofList (bs : List (κ × α)) :
    (ofList bs).keys = (bs.map Prod.fst).eraseDups := by
  induction bs using List.reverseRecOn with
  | nil => rfl
  | append_singleton bs b ih =>
      rw [ofList_concat, keys_insert, ih, List.map_append, List.eraseDups_append,
        List.map_singleton]
      by_cases h : b.1 ∈ bs.map Prod.fst
      · have hnone : [b.1].removeAll (bs.map Prod.fst) = [] := by
          simpa [List.removeAll] using h
        rw [if_pos (List.mem_eraseDups.mpr h), hnone, List.eraseDups_nil, List.append_nil]
      · have hnew : [b.1].removeAll (bs.map Prod.fst) = [b.1] := by
          simpa [List.removeAll] using h
        rw [if_neg (mt List.mem_eraseDups.mp h), hnew]
        rfl

theorem get?_ofList (bs : List (κ × α)) (k : κ) :
    (ofList bs).get? k = ((bs.filter fun b => b.1 = k).map Prod.snd).getLast? := by
  induction bs using List.reverseRecOn with
  | nil => rfl
  | append_singleton bs b ih =>
      rw [ofList_concat, get?_insert, List.filter_append, List.map_append]
      by_cases h : k = b.1
      · rw [if_pos h, List.filter_cons_of_pos (by simpa using h.symm)]
        exact List.getLast?_concat.symm
      · rw [if_neg h, List.filter_cons_of_neg (by simpa using Ne.symm h), List.filter_nil,
          List.map_nil, List.append_nil, ih]

theorem insertBinding_of_notMem {k : κ} {bs : List (κ × α)} (h : k ∉ bs.map Prod.fst) (a : α) :
    insertBinding k a bs = bs ++ [(k, a)] := by
  induction bs with
  | nil => rfl
  | cons b bs ih =>
      obtain ⟨hb, hbs⟩ := not_or.mp (mt List.mem_cons.mpr h)
      obtain ⟨j, c⟩ := b
      rw [insertBinding, if_neg (Ne.symm hb), ih hbs, List.cons_append]

theorem mem_insertBinding {k : κ} {a : α} {b : κ × α} {bs : List (κ × α)}
    (h : b ∈ insertBinding k a bs) : b = (k, a) ∨ b ∈ bs := by
  induction bs with
  | nil => exact Or.inl (List.mem_singleton.mp h)
  | cons c bs ih =>
      obtain ⟨j, d⟩ := c
      rw [insertBinding] at h
      split at h
      · exact (List.mem_cons.mp h).imp_right (List.mem_cons_of_mem _)
      · rcases List.mem_cons.mp h with rfl | h
        · exact Or.inr List.mem_cons_self
        · exact (ih h).imp_right (List.mem_cons_of_mem _)

/-- Bindings with different keys are all kept, in their order. -/
theorem toList_ofList {bs : List (κ × α)} (h : (bs.map Prod.fst).Nodup) :
    (ofList bs).toList = bs := by
  induction bs using List.reverseRecOn with
  | nil => rfl
  | append_singleton bs b ih =>
      rw [List.map_append, List.nodup_append] at h
      obtain ⟨hbs, -, hne⟩ := h
      have hnew : b.1 ∉ bs.map Prod.fst :=
        fun hmem => hne b.1 hmem b.1 (List.mem_singleton.mpr rfl) rfl
      rw [ofList_concat]
      show insertBinding b.1 b.2 (ofList bs).toList = _
      rw [ih hbs]
      exact insertBinding_of_notMem hnew b.2

theorem ofList_toList (m : OrderedMap κ α) : ofList m.toList = m :=
  eq_of_toList_eq (toList_ofList m.nodup_keys)

end OrderedMap

end LineShell
