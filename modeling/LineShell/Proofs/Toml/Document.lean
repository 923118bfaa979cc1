import LineShell.Proofs.OrderedMap
import LineShell.Proofs.Toml.Lines

/-!
# Documents of plain tables

The lines of tables whose members are scalars, each table with its header, are put together to these
tables again, as long as no table and no member of a table is named twice. The argument follows the
reader: the lines are gathered into blocks (`blocks_documentLines`), the members of a block are
assigned one by one to a table that has none of them yet (`slots?_scalars`), and each block opens a
table that is not there yet (`apply_tableBlock`).
-/

namespace LineShell.Toml

/-- Members of a table, or tables by their names. -/
abbrev Bindings (α : Type) := List (String × α)

/-- The lines of a table. -/
def tableLines (name : String) (members : Bindings Toml) : List Line :=
  .table [name] :: members.map fun (k, v) => .assignment [k] (.scalar v)

/-- The lines of tables, with an empty one between them. -/
def documentLines (tables : Bindings (Bindings Toml)) : List Line :=
  [Line.blank].intercalate (tables.map fun (name, members) => tableLines name members)

variable {name : String} {members : Bindings Toml} {tables : Bindings (Bindings Toml)}
  {slots : Slots}

theorem documentLines_singleton (name : String) (members : Bindings Toml) :
    documentLines [(name, members)] = tableLines name members :=
  List.intercalate_singleton

theorem documentLines_cons_cons (name : String) (members : Bindings Toml)
    (t : String × Bindings Toml) (tables : Bindings (Bindings Toml)) :
    documentLines ((name, members) :: t :: tables) =
      tableLines name members ++ .blank :: documentLines (t :: tables) := by
  rw [documentLines, List.map_cons, List.map_cons, List.intercalate_cons_cons, List.append_assoc]
  rfl

/-! ## Blocks -/

/-- The members of a table as they are assigned. -/
def assignments (members : Bindings Toml) : List (KeyPath × Item) :=
  members.map fun (k, v) => ([k], .scalar v)

/-- The block of a table. -/
def tableBlock (name : String) (members : Bindings Toml) : Block :=
  ⟨.table [name], assignments members⟩

theorem blocks_tableLines (name : String) (members : Bindings Toml) (ls : List Line) :
    blocks (tableLines name members ++ ls) =
      ([], ⟨.table [name], assignments members ++ (blocks ls).1⟩ :: (blocks ls).2) := by
  have hmembers : ∀ members : Bindings Toml,
      blocks (members.map (fun (k, v) => Line.assignment [k] (.scalar v)) ++ ls) =
        (assignments members ++ (blocks ls).1, (blocks ls).2) := by
    intro members
    induction members with
    | nil => rfl
    | cons m members ih =>
        rw [List.map_cons, List.cons_append, blocks, ih]
        rfl
  rw [tableLines, List.cons_append, blocks, hmembers]

theorem blocks_documentLines (tables : Bindings (Bindings Toml)) :
    blocks (documentLines tables) =
      ([], tables.map fun (name, members) => tableBlock name members) := by
  induction tables with
  | nil => rfl
  | cons t tables ih =>
      obtain ⟨name, members⟩ := t
      cases tables with
      | nil =>
          have hblock := blocks_tableLines name members []
          rw [List.append_nil] at hblock
          rw [documentLines_singleton, hblock, blocks, List.append_nil]
          rfl
      | cons t tables =>
          rw [documentLines_cons_cons, blocks_tableLines, blocks, ih, List.append_nil]
          rfl

/-! ## Members -/

/-- The members of a table as they are bound while a document is put together. -/
def closedSlots (members : Bindings Toml) : Slots := members.map fun (k, v) => (k, .closed v)

theorem values_closedSlots (members : Bindings Toml) :
    Slots.values (closedSlots members) = members := by
  induction members with
  | nil => rw [closedSlots, List.map_nil, Slots.values]
  | cons m members ih =>
      rw [closedSlots, List.map_cons, Slots.values, Slot.value]
      exact congrArg (m :: ·) ih

/-- New members are bound behind those that are there. -/
theorem slots?_scalars (h : (slots.map Prod.fst ++ members.map Prod.fst).Nodup) :
    Item.slots? slots (assignments members) = some (slots ++ closedSlots members) := by
  induction members generalizing slots with
  | nil =>
      rw [assignments, List.map_nil, Item.slots?, closedSlots, List.map_nil, List.append_nil]
  | cons m members ih =>
      obtain ⟨k, v⟩ := m
      have hkeys : (slots.map Prod.fst ++ k :: members.map Prod.fst).Nodup := h
      have hnew : k ∉ slots.map Prod.fst := by
        intro hk
        exact (List.nodup_append.mp hkeys).2.2 k hk k List.mem_cons_self rfl
      have hassign : Slots.assign [k] v slots = some (slots ++ [(k, .closed v)]) := by
        rw [Slots.assign, lookup_eq_none hnew]
        rfl
      have hkeys' :
          ((slots ++ [(k, Slot.closed v)]).map Prod.fst ++ members.map Prod.fst).Nodup := by
        rw [List.map_append, List.append_assoc]
        exact hkeys
      have hrest := ih hkeys'
      rw [assignments, List.map_cons, Item.slots?, Item.value?]
      simp only [Option.bind_eq_bind, Option.bind_some, hassign]
      rw [assignments] at hrest
      rw [hrest, List.append_assoc]
      rfl

/-! ## Tables -/

/-- Tables as they are bound while a document is put together. -/
def openSlots (tables : Bindings (Bindings Toml)) : Slots :=
  tables.map fun (name, members) => (name, .table .header (closedSlots members))

/-- Tables as values. -/
def ofTables (tables : Bindings (Bindings Toml)) : Bindings Toml :=
  tables.map fun (name, members) => (name, .table members)

theorem values_openSlots (tables : Bindings (Bindings Toml)) :
    Slots.values (openSlots tables) = ofTables tables := by
  induction tables with
  | nil => rw [openSlots, List.map_nil, Slots.values, ofTables, List.map_nil]
  | cons t tables ih =>
      rw [openSlots, List.map_cons, Slots.values, Slot.value, values_closedSlots]
      exact congrArg ((t.1, Toml.table t.2) :: ·) ih

theorem apply_tableBlock (hname : name ∉ slots.map Prod.fst)
    (hkeys : (members.map Prod.fst).Nodup) :
    (tableBlock name members).apply slots =
      some (slots ++ [(name, .table .header (closedSlots members))]) := by
  have hmembers : assignAll (assignments members) [] = some (closedSlots members) :=
    slots?_scalars hkeys
  show Slots.openTable (assignAll (assignments members)) name slots = _
  rw [Slots.openTable, lookup_eq_none hname]
  simp only [hmembers]
  rfl

theorem foldlM_tableBlock (hkeys : ∀ t ∈ tables, (t.2.map Prod.fst).Nodup) :
    ∀ slots : Slots, (slots.map Prod.fst ++ tables.map Prod.fst).Nodup →
      (tables.map fun (name, members) => tableBlock name members).foldlM
        (fun ms b => b.apply ms) slots = some (slots ++ openSlots tables) := by
  induction tables with
  | nil =>
      intro slots _
      exact congrArg some (List.append_nil slots).symm
  | cons t tables ih =>
      intro slots hnames
      obtain ⟨name, members⟩ := t
      have hnames' : (slots.map Prod.fst ++ name :: tables.map Prod.fst).Nodup := hnames
      have hnew : name ∉ slots.map Prod.fst := by
        intro hname
        exact (List.nodup_append.mp hnames').2.2 name hname name List.mem_cons_self rfl
      have hrest := ih (fun t ht => hkeys t (List.mem_cons_of_mem _ ht))
        (slots ++ [(name, .table .header (closedSlots members))]) (by
          rw [List.map_append, List.append_assoc]
          exact hnames')
      rw [List.map_cons, List.foldlM_cons,
        apply_tableBlock hnew (hkeys (name, members) List.mem_cons_self)]
      simp only [Option.bind_eq_bind, Option.bind_some]
      rw [hrest, List.append_assoc]
      rfl

/-- A document whose lines are those of tables is these tables. -/
theorem ofChars?_of_lines? {cs : List Char} (h : lines? cs = some (documentLines tables))
    (hmark : cs.head? ≠ some '\uFEFF') (hnames : (tables.map Prod.fst).Nodup)
    (hkeys : ∀ t ∈ tables, (t.2.map Prod.fst).Nodup) :
    ofChars? cs = some (ofTables tables) := by
  have hnone : assignAll [] [] = some [] := by
    rw [assignAll, Item.slots?]
  have hblocks := foldlM_tableBlock hkeys [] hnames
  rw [ofChars?, if_neg hmark, h]
  simp only [Option.bind_eq_bind, Option.bind_some, blocks_documentLines, hnone, hblocks,
    List.nil_append, values_openSlots]
  rfl

end LineShell.Toml
