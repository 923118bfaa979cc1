import LineShell.Command.Registry
import LineShell.Proofs.IndexedMap

/-!
# What a registry lists

A registry is a map in insertion order under the names in lowercase (`Registry.holds_registerAll`),
so what was registered last under a name is what is found there, and it stands where the name was
registered first. Every command is listed under its own name (`Registry.Holds.exists_of_mem`); that
is why a command that is registered again, in whatever spelling, takes the place of the one before
(`Registry.Holds.list_register`).
-/

namespace LineShell

/-- The name that a command is registered under. -/
def Command.key (c : Command) : String := Text.lowercase c.name

namespace Registry

variable {r : Registry} {cs : List Command}

/-- The commands under the names that they are registered under. -/
def bindings (cs : List Command) : List (String × Command) := cs.map fun c => (c.key, c)

/-- The command of the list that was registered last under a name. -/
def latest? (cs : List Command) (key : String) : Option Command :=
  (cs.filter fun c => c.key = key).getLast?

theorem latest?_eq (cs : List Command) (key : String) :
    (((bindings cs).filter fun b => b.1 = key).map Prod.snd).getLast? = latest? cs key := by
  rw [bindings, List.filter_map, List.map_map, latest?]
  exact congrArg List.getLast? (List.map_id _)

theorem key_of_latest? {key : String} {c : Command} (h : latest? cs key = some c) :
    c.key = key := by
  have hmem := List.mem_of_getLast? h
  exact of_decide_eq_true (List.mem_filter.mp hmem).2

/-! ## Registries that were built -/

/-- The registry holds what was registered, one command after the other. -/
def Holds (r : Registry) (cs : List Command) : Prop :=
  r.Shows (OrderedMap.ofList (bindings cs))

theorem holds_registerAll (cs : List Command) : Holds (registerAll ∅ cs) cs := by
  have hfold : registerAll ∅ cs = IndexedMap.ofList (bindings cs) := by
    rw [IndexedMap.ofList, bindings, List.foldl_map]
    rfl
  rw [Holds, hfold]
  exact IndexedMap.shows_ofList _

theorem holds_start (cs : List Command) :
    Holds (start.registerAll cs) (builtin ++ cs) := by
  have happend : start.registerAll cs =
      registerAll ∅ (builtin ++ cs) := by
    rw [registerAll, registerAll, List.foldl_append]
    rfl
  rw [happend]
  exact holds_registerAll _

namespace Holds

theorem order (h : Holds r cs) : r.order = (cs.map Command.key).eraseDups := by
  rw [IndexedMap.Shows.order h, OrderedMap.keys_ofList, bindings, List.map_map]
  rfl

theorem get? (h : Holds r cs) (key : String) : r.get? key = latest? cs key := by
  rw [IndexedMap.Shows.get? h, OrderedMap.get?_ofList, latest?_eq]

/-- Every listed name has a command, whose name it is. -/
theorem exists_of_mem (h : Holds r cs) {key : String} (hkey : key ∈ r.order) :
    ∃ c, r.get? key = some c ∧ c.key = key := by
  have hcontains := ((IndexedMap.Shows.inStep h).2 key).mp hkey
  rw [IndexedMap.contains_eq_isSome_get?] at hcontains
  obtain ⟨c, hc⟩ := Option.isSome_iff_exists.mp hcontains
  exact ⟨c, hc, key_of_latest? ((h.get? key).symm.trans hc)⟩

/-- No listed name is passed over. -/
theorem map_some_list (h : Holds r cs) :
    r.list.map some = (cs.map Command.key).eraseDups.map (latest? cs) := by
  have hfound : ∀ key ∈ r.order, (r.get? key).map some = some (latest? cs key) := by
    intro key hkey
    obtain ⟨c, hc, -⟩ := h.exists_of_mem hkey
    rw [← h.get?, hc]
    rfl
  rw [Registry.list, List.map_filterMap, List.filterMap_congr hfound, ← h.order]
  exact congrFun List.filterMap_eq_map' _

theorem map_key_list (h : Holds r cs) : r.list.map Command.key = r.order := by
  have hkey : ∀ key ∈ r.order, (r.get? key).map Command.key = some key := by
    intro key hkey
    obtain ⟨c, hc, rfl⟩ := h.exists_of_mem hkey
    rw [hc]
    rfl
  rw [Registry.list, List.map_filterMap, List.filterMap_congr hkey]
  exact List.filterMap_some

theorem has_iff (h : Holds r cs) (name : String) :
    r.has name = true ↔ Text.lowercase name ∈ r.list.map Command.key := by
  rw [h.map_key_list]
  exact ((IndexedMap.Shows.inStep h).2 _).symm

theorem run?_eq (h : Holds r cs) (name : String) (vars : Variables) :
    r.run? name vars = (latest? cs (Text.lowercase name)).map fun c => c.run vars := by
  rw [run?, h.get?]

/-- A command that is registered again takes the place of the one of its name, and a new one comes
last. -/
theorem list_register (h : Holds r cs) (c : Command) :
    (r.register c).list =
      if c.key ∈ r.list.map Command.key then r.list.map fun d => if d.key = c.key then c else d
      else r.list ++ [c] := by
  have hget : ∀ key, (r.register c).get? key = if key = c.key then some c else r.get? key :=
    fun key => IndexedMap.get?_insert r c.key key c
  have hmem := (IndexedMap.Shows.inStep h).2 c.key
  rw [h.map_key_list, Registry.list, Registry.list]
  split
  · rename_i hin
    have horder : (r.register c).order = r.order := IndexedMap.order_insert (hmem.mp hin) c
    rw [horder, List.map_filterMap]
    refine List.filterMap_congr fun key hkey => ?_
    obtain ⟨d, hd, rfl⟩ := h.exists_of_mem hkey
    rw [hget, hd, Option.map_some, apply_ite some]
  · rename_i hnew
    have horder : (r.register c).order = r.order ++ [c.key] :=
      if_neg (mt hmem.mpr hnew)
    rw [horder, List.filterMap_append]
    congr 1
    · refine List.filterMap_congr fun key hkey => ?_
      rw [hget, if_neg]
      rintro rfl
      exact hnew hkey
    · rw [List.filterMap_cons, hget, if_pos rfl, List.filterMap_nil]

end Holds

/-! ## All together -/

/-- What an interpreter looks commands up in, with the same commands in it, is a map in insertion
order with the same bindings. -/
theorem toList_registerAll (cs : List Command) :
    (start.registerAll cs).toList = (cs.foldl Commands.register Commands.builtin).toList := by
  have hfold : OrderedMap.ofList (bindings (builtin ++ cs)) =
      cs.foldl Commands.register Commands.builtin := by
    rw [OrderedMap.ofList, bindings, List.foldl_map, List.foldl_append]
    rfl
  rw [← hfold]
  exact IndexedMap.Shows.toList (holds_start cs)

theorem list_eq_map_toList (r : Registry) : r.list = r.toList.map Prod.snd := by
  rw [IndexedMap.toList, List.map_filterMap, list]
  congr 1
  funext key
  cases r.get? key <;> rfl

/-- A registry is a map in insertion order under the names in lowercase. After any registrations it
lists one command for each of these names, those of the built-in commands among them, in the order
in which they were registered first, and what it lists is what was registered last. A name in any
spelling is there if it is listed in lowercase, and what is run then is the command that was
registered last. The listing of all commands is a heading, the three things that can be entered
besides, and a row for each command that is listed. To register a command again replaces the one of
its name and moves nothing. The commands of an interpreter list the same. -/
theorem registerAll_in_order (cs : List Command) :
    let r := start.registerAll cs
    let all := builtin ++ cs
    r.list.map some = (all.map Command.key).eraseDups.map (latest? all) ∧
      (∀ name, r.has name = true ↔ Text.lowercase name ∈ r.list.map Command.key) ∧
      (∀ name vars, (r.run? name vars).isSome = r.has name ∧
        r.run? name vars = (latest? all (Text.lowercase name)).map fun c => c.run vars) ∧
      r.helpText = Text.joinLines
        (["Available commands:",
            "<var> = <value>    - Declare variable (e.g., name = 'John', age = 25, active = True)",
            "<var>              - Display variable value",
            "<expression>       - Evaluate math expression (e.g., 2 + 3 * 4)"] ++
          r.list.map fun c => Commands.helpRow c.name c.description) ∧
      (∀ c, (r.register c).list =
        if c.key ∈ r.list.map Command.key then r.list.map fun d => if d.key = c.key then c else d
        else r.list ++ [c]) ∧
      r.list = (cs.foldl Commands.register Commands.builtin).list ∧
      r.helpText = (cs.foldl Commands.register Commands.builtin).helpText := by
  intro r all
  have h : Holds r all := holds_start cs
  have hlist : r.list = (cs.foldl Commands.register Commands.builtin).list := by
    rw [list_eq_map_toList, toList_registerAll]
    rfl
  refine ⟨h.map_some_list, h.has_iff, fun name vars => ⟨?_, h.run?_eq name vars⟩, rfl,
    h.list_register, hlist, ?_⟩
  · rw [run?, Option.isSome_map, has, IndexedMap.contains_eq_isSome_get?]
  · rw [helpText, helpLines, hlist]
    rfl

end Registry

end LineShell
