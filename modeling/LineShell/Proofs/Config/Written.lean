import LineShell.Config.Store
import LineShell.Proofs.Sequence
import LineShell.Proofs.Toml.Document

/-!
# The written configuration is read back

What a file says that has some of the settings of a configuration. A file has the settings that are
kept, in the order in which they are always written, under the headers of their sections; a header
may also stand over no setting. Its text is a document of plain tables (`ofChars?_textOf?`). Reading
it takes the settings that it has from the configuration that was written and leaves all others as
they were. That is an overlay of one configuration on another, and such overlays add up
(`overlay_overlay`), setting by setting and section by section.
-/

namespace LineShell

/-! ## Written settings -/

/-- The value of a setting as it is read. -/
def Setting.Value.toToml : Setting.Value → Toml
  | .text s => .text s
  | .count n => .integer n
  | .boolean b => .boolean b

theorem Setting.Value.spells_toToml {v : Setting.Value} {cs : List Char}
    (h : v.toToml? = some cs) : Toml.Spells v.toToml cs := by
  cases v with
  | text s =>
      obtain rfl := Option.some.inj h
      exact Toml.spells_text s
  | count n =>
      rw [toToml?] at h
      split at h
      · rename_i hn
        obtain rfl := Option.some.inj h
        exact Toml.spells_digits hn
      · cases h
  | boolean b =>
      cases b <;> obtain rfl := Option.some.inj h
      · exact Toml.spells_boolean false
      · exact Toml.spells_boolean true

namespace Config

open Toml (Bindings IsBare)

variable {c d : Config} {cs rest : List Char} {s : Setting} {settings : List Setting}
  {name : String}

/-- The members of a section as they are read. -/
def members (c : Config) (settings : List Setting) : Bindings Toml :=
  settings.map fun s => (s.key, (s.get c).toToml)

theorem map_fst_members (c : Config) (settings : List Setting) :
    (c.members settings).map Prod.fst = settings.map Setting.key := by
  rw [members, List.map_map]
  rfl

/-- The sections of a file as they are read. -/
def tables (c : Config) (sections : List (String × List Setting)) : Bindings (Bindings Toml) :=
  sections.map fun (name, settings) => (name, c.members settings)

theorem tables_cons (c : Config) (name : String) (settings : List Setting)
    (sections : List (String × List Setting)) :
    c.tables ((name, settings) :: sections) = (name, c.members settings) :: c.tables sections := rfl

/-- Sections whose names and keys need no quotes, none of them given twice. -/
structure IsPlain (sections : List (String × List Setting)) : Prop where
  name : ∀ sec ∈ sections, IsBare sec.1
  key : ∀ sec ∈ sections, ∀ s ∈ sec.2, IsBare s.key
  nodup_names : (sections.map Prod.fst).Nodup
  nodup_keys : ∀ sec ∈ sections, (sec.2.map Setting.key).Nodup

theorem lines?_settingLine? (hkey : IsBare s.key) (h : c.settingLine? s = some cs)
    (rest : List Char) : Toml.lines? (cs ++ rest) =
      (Toml.lines? rest).map (.assignment [s.key] (.scalar (s.get c).toToml) :: ·) := by
  rw [settingLine?, Option.map_eq_some_iff] at h
  obtain ⟨v, hv, rfl⟩ := h
  have hline := Toml.lines?_assignment hkey (Setting.Value.spells_toToml hv) rest
  simp only [List.append_assoc, List.singleton_append]
  exact hline

theorem lines?_settingLines {ls : List (List Char)} (hkeys : ∀ s ∈ settings, IsBare s.key)
    (h : settings.mapM c.settingLine? = some ls) (rest : List Char) :
    Toml.lines? (ls.flatten ++ rest) = (Toml.lines? rest).map
      ((c.members settings).map (fun (k, v) => .assignment [k] (.scalar v)) ++ ·) := by
  induction settings generalizing ls with
  | nil =>
      obtain rfl := Option.some.inj h
      exact Option.map_id'.symm
  | cons s settings ih =>
      obtain ⟨l, ls, hl, hls, rfl⟩ := mapM_cons_eq_some h
      rw [List.flatten_cons, List.append_assoc,
        lines?_settingLine? (hkeys s List.mem_cons_self) hl,
        ih (fun t ht => hkeys t (List.mem_cons_of_mem s ht)) hls, Option.map_map]
      rfl

theorem lines?_sectionText? (hname : IsBare name) (hkeys : ∀ s ∈ settings, IsBare s.key)
    (h : c.sectionText? name settings = some cs) (rest : List Char) :
    Toml.lines? (cs ++ rest) =
      (Toml.lines? rest).map (Toml.tableLines name (c.members settings) ++ ·) := by
  rw [sectionText?, Option.map_eq_some_iff] at h
  obtain ⟨ls, hls, rfl⟩ := h
  have hheader := Toml.lines?_header hname (ls.flatten ++ rest)
  simp only [List.append_assoc, List.cons_append]
  refine hheader.trans ?_
  rw [lines?_settingLines hkeys hls, Option.map_map]
  rfl

theorem lines?_sectionTexts {sections : List (String × List Setting)} {ts : List (List Char)}
    (hname : ∀ sec ∈ sections, IsBare sec.1) (hkey : ∀ sec ∈ sections, ∀ s ∈ sec.2, IsBare s.key)
    (h : sections.mapM (fun (name, settings) => c.sectionText? name settings) = some ts) :
    Toml.lines? (List.intercalate ['\n'] ts) = some (Toml.documentLines (c.tables sections)) := by
  have hnil : Toml.lines? [] = some [] := by rw [Toml.lines?]
  induction sections generalizing ts with
  | nil =>
      obtain rfl := Option.some.inj h
      exact hnil
  | cons sec sections ih =>
      obtain ⟨name, settings⟩ := sec
      obtain ⟨t, ts, ht, hts, rfl⟩ := mapM_cons_eq_some h
      have hfirst := lines?_sectionText? (hname _ List.mem_cons_self) (hkey _ List.mem_cons_self) ht
      have hrest := ih (fun sec hsec => hname sec (List.mem_cons_of_mem _ hsec))
        (fun sec hsec => hkey sec (List.mem_cons_of_mem _ hsec)) hts
      cases sections with
      | nil =>
          obtain rfl : [] = ts := Option.some.inj hts
          have hlines := hfirst []
          rw [List.append_nil, hnil] at hlines
          have htable := Toml.documentLines_singleton name (c.members settings)
          rw [List.intercalate_singleton, hlines, tables_cons]
          exact congrArg some ((List.append_nil _).trans htable.symm)
      | cons sec sections =>
          obtain ⟨name', settings'⟩ := sec
          obtain ⟨t', ts, -, -, rfl⟩ := mapM_cons_eq_some hts
          rw [List.intercalate_cons_cons, List.append_assoc, hfirst, List.singleton_append,
            Toml.lines?_break, hrest]
          simp only [tables_cons, Toml.documentLines_cons_cons]
          rfl

/-- The text of sections begins with a bracket. -/
theorem head?_textOf? {sections : List (String × List Setting)} (h : c.textOf? sections = some cs) :
    cs.head? ≠ some '\uFEFF' := by
  rw [textOf?, Option.map_eq_some_iff] at h
  obtain ⟨ts, hts, rfl⟩ := h
  cases sections with
  | nil =>
      obtain rfl := Option.some.inj hts
      exact nofun
  | cons sec sections =>
      obtain ⟨name, settings⟩ := sec
      obtain ⟨t, ts, ht, hts, rfl⟩ := mapM_cons_eq_some hts
      have ht' : c.sectionText? name settings = some t := ht
      rw [sectionText?, Option.map_eq_some_iff] at ht'
      obtain ⟨ls, -, rfl⟩ := ht'
      cases ts with
      | nil =>
          rw [List.intercalate_singleton]
          exact fun heq => absurd (Option.some.inj heq) (by decide)
      | cons t' ts =>
          rw [List.intercalate_cons_cons]
          exact fun heq => absurd (Option.some.inj heq) (by decide)

theorem ofChars?_textOf? {sections : List (String × List Setting)} (hplain : IsPlain sections)
    (h : c.textOf? sections = some cs) :
    Toml.ofChars? cs = some (Toml.ofTables (c.tables sections)) := by
  have hmark := head?_textOf? h
  rw [textOf?, Option.map_eq_some_iff] at h
  obtain ⟨ts, hts, rfl⟩ := h
  refine Toml.ofChars?_of_lines? (lines?_sectionTexts hplain.name hplain.key hts) hmark ?_ ?_
  · have hnames : (c.tables sections).map Prod.fst = sections.map Prod.fst := by
      rw [tables, List.map_map]
      rfl
    rw [hnames]
    exact hplain.nodup_names
  · intro t ht
    obtain ⟨sec, hsec, rfl⟩ := List.mem_map.mp ht
    show ((c.members sec.2).map Prod.fst).Nodup
    rw [map_fst_members]
    exact hplain.nodup_keys sec hsec

/-! ## Some settings of one configuration and the others of another -/

/-- The settings of `c` that are kept, and the other ones of `d`. -/
def overlay (kept : String → Bool) (c d : Config) : Config where
  prompt := if kept "prompt" then c.prompt else d.prompt
  header := if kept "header" then c.header else d.header
  historyFile := if kept "history_file" then c.historyFile else d.historyFile
  maxHistorySize := if kept "max_history_size" then c.maxHistorySize else d.maxHistorySize
  persistHistory := if kept "persist_history" then c.persistHistory else d.persistHistory
  skin := if kept "skin" then c.skin else d.skin
  showHeader := if kept "show_header" then c.showHeader else d.showHeader
  configDirectory := if kept "config_dir" then c.configDirectory else d.configDirectory
  dataDirectory := if kept "data_dir" then c.dataDirectory else d.dataDirectory

@[simp] theorem overlay_true (c d : Config) : c.overlay (fun _ => true) d = c := rfl

@[simp] theorem overlay_false (c d : Config) : c.overlay (fun _ => false) d = d := rfl

theorem overlay_overlay (p q : String → Bool) (c d : Config) :
    c.overlay p (c.overlay q d) = c.overlay (fun k => p k || q k) d := by
  have hfield : ∀ {α : Type} (b b' : Bool) (x y : α),
      (if b then x else if b' then x else y) = if b || b' then x else y := by
    intro α b b' x y
    cases b <;> rfl
  simp only [overlay, hfield]

/-- Taking the settings of a list one by one lays the first configuration over the second. -/
theorem foldlM_overlay {α : Type} (f : Config → α → Option Config) (p : α → String → Bool)
    (as : List α) (h : ∀ a ∈ as, ∀ d, f d a = some (c.overlay (p a) d)) (d : Config) :
    as.foldlM f d = some (c.overlay (fun k => as.any fun a => p a k) d) := by
  induction as generalizing d with
  | nil => rfl
  | cons a as ih =>
      rw [List.foldlM_cons, h a List.mem_cons_self]
      simp only [Option.bind_eq_bind, Option.bind_some]
      rw [ih (fun b hb => h b (List.mem_cons_of_mem a hb)), overlay_overlay]
      simp only [List.any_cons, Bool.or_comm]

theorem forall_settings {p : Setting → Prop} : (∀ sec ∈ sections, ∀ s ∈ sec.2, p s) ↔
    (p .prompt ∧ p .header ∧ p .historyFile ∧ p .maxHistorySize ∧ p .persistHistory) ∧
      (p .skin ∧ p .showHeader) ∧ p .configDirectory ∧ p .dataDirectory := by
  simp only [sections, List.forall_mem_cons, List.not_mem_nil, false_imp_iff, implies_true,
    and_true]

/-- The value that is written for a setting puts that setting in. -/
theorem set?_get (c d : Config) : ∀ sec ∈ sections, ∀ s ∈ sec.2,
    s.set? (s.get c).toToml d = some (c.overlay (fun k => k == s.key) d) := by
  have hskin : Setting.skin.set? (Setting.skin.get c).toToml d =
      some { d with skin := c.skin } := by
    show (Skin.ofName? c.skin.name).map _ = _
    rw [Skin.ofName?_name]
    rfl
  exact forall_settings.mpr ⟨⟨rfl, rfl, rfl, rfl, rfl⟩, ⟨hskin, rfl⟩, rfl, rfl⟩

/-! ## Files with some of the settings -/

theorem nodup_names : (sections.map Prod.fst).Nodup := by decide

theorem nodup_keys : ∀ sec ∈ sections, (sec.2.map Setting.key).Nodup := by decide

/-- The sections of a file with the settings that are kept. A header without a setting stands there
if it is shown. -/
def keptSections (kept shown : String → Bool) : List (String × List Setting) :=
  (sections.map fun (name, settings) => (name, settings.filter fun s => kept s.key)).filter
    fun (name, settings) => !settings.isEmpty || shown name

theorem keptSections_true (shown : String → Bool) :
    keptSections (fun _ => true) shown = sections := rfl

theorem mem_keptSections {kept shown : String → Bool} {name : String} {settings : List Setting} :
    (name, settings) ∈ keptSections kept shown ↔
      (∃ all, (name, all) ∈ sections ∧ settings = all.filter fun s => kept s.key) ∧
        (settings = [] → shown name = true) := by
  rw [keptSections, List.mem_filter, List.mem_map]
  refine and_congr ⟨?_, ?_⟩ ?_
  · rintro ⟨sec, hsec, heq⟩
    obtain ⟨rfl, rfl⟩ := Prod.mk.inj heq
    exact ⟨sec.2, hsec, rfl⟩
  · rintro ⟨all, hall, rfl⟩
    exact ⟨(name, all), hall, rfl⟩
  · cases settings <;> simp

theorem nodup_keptSections (kept shown : String → Bool) :
    ((keptSections kept shown).map Prod.fst).Nodup := by
  have hsub : (keptSections kept shown).Sublist
      (sections.map fun (name, settings) => (name, settings.filter fun s => kept s.key)) :=
    List.filter_sublist
  refine (hsub.map Prod.fst).nodup ?_
  rw [List.map_map]
  exact nodup_names

/-- A section that is not in the file has nothing that is kept. -/
theorem notMem_keptSections {kept shown : String → Bool} {name : String} {all : List Setting}
    (hall : (name, all) ∈ sections)
    (h : (name, all.filter fun s => kept s.key) ∉ keptSections kept shown) :
    name ∉ (keptSections kept shown).map Prod.fst ∧ ∀ s ∈ all, kept s.key = false := by
  constructor
  · intro hmem
    obtain ⟨⟨name', settings⟩, hsettings, rfl⟩ := List.mem_map.mp hmem
    obtain ⟨⟨all', hall', rfl⟩, -⟩ := mem_keptSections.mp hsettings
    have hsame :=
      (lookup_eq_some nodup_names hall').symm.trans (lookup_eq_some nodup_names hall)
    obtain rfl := Option.some.inj hsame
    exact h hsettings
  · intro s hs
    by_contra hkept
    refine h (mem_keptSections.mpr ⟨⟨all, hall, rfl⟩, fun hnil => ?_⟩)
    rw [List.filter_eq_nil_iff] at hnil
    exact (hnil s hs (eq_true_of_ne_false hkept)).elim

theorem isPlain_keptSections (kept shown : String → Bool) : IsPlain (keptSections kept shown) := by
  have hname : ∀ sec ∈ sections, IsBare sec.1 := by decide
  have hkey : ∀ sec ∈ sections, ∀ s ∈ sec.2, IsBare s.key := by decide
  refine ⟨?_, ?_, nodup_keptSections kept shown, ?_⟩ <;> rintro ⟨name, settings⟩ hsec <;>
    obtain ⟨⟨all, hall, rfl⟩, -⟩ := mem_keptSections.mp hsec
  · exact hname (name, all) hall
  · intro s hs
    exact hkey (name, all) hall s (List.mem_filter.mp hs).1
  · exact (List.filter_sublist.map Setting.key).nodup (nodup_keys (name, all) hall)

/-! ## Reading -/

variable {all : List Setting}

theorem lookup?_members (kept : String → Bool) (hkeys : (all.map Setting.key).Nodup)
    (hs : s ∈ all) :
    Toml.lookup? s.key (c.members (all.filter fun s => kept s.key)) =
      if kept s.key then some (s.get c).toToml else none := by
  by_cases hkept : kept s.key = true
  · rw [if_pos hkept]
    refine lookup_eq_some ?_ (List.mem_map.mpr ⟨s, List.mem_filter.mpr ⟨hs, hkept⟩, rfl⟩)
    rw [map_fst_members]
    exact (List.filter_sublist.map Setting.key).nodup hkeys
  · rw [if_neg hkept]
    refine lookup_eq_none fun hmem => ?_
    rw [map_fst_members] at hmem
    obtain ⟨t, ht, hkey⟩ := List.mem_map.mp hmem
    exact hkept (hkey ▸ (List.mem_filter.mp ht).2)

/-- A section takes its settings from the configuration that was written. -/
theorem setMembers?_members (kept : String → Bool) (hall : (name, all) ∈ sections) (c d : Config) :
    setMembers? (c.members (all.filter fun s => kept s.key)) all d =
      some (c.overlay (fun k => all.any fun s => k == s.key && kept s.key) d) := by
  refine foldlM_overlay _ _ all (fun s hs d => ?_) d
  rw [lookup?_members kept (nodup_keys _ hall) hs]
  cases hkept : kept s.key with
  | true =>
      simp only [if_true, Bool.and_true]
      exact set?_get c d _ hall s hs
  | false =>
      simp only [Bool.false_eq_true, if_false, Bool.and_false, overlay_false]

theorem lookup?_ofTables_of_mem {sections : List (String × List Setting)}
    (hnames : (sections.map Prod.fst).Nodup) (h : (name, settings) ∈ sections) :
    Toml.lookup? name (Toml.ofTables (c.tables sections)) = some (.table (c.members settings)) := by
  refine lookup_eq_some ?_ ?_
  · rw [Toml.ofTables, tables, List.map_map, List.map_map]
    exact hnames
  · rw [Toml.ofTables, tables, List.map_map]
    exact List.mem_map.mpr ⟨(name, settings), h, rfl⟩

theorem lookup?_ofTables_of_notMem {sections : List (String × List Setting)}
    (h : name ∉ sections.map Prod.fst) :
    Toml.lookup? name (Toml.ofTables (c.tables sections)) = none := by
  refine lookup_eq_none ?_
  rw [Toml.ofTables, tables, List.map_map, List.map_map]
  exact h

/-- What a file says that has the settings that are kept. -/
theorem ofDocument?_tables (kept shown : String → Bool) (c d : Config) :
    ofDocument? (Toml.ofTables (c.tables (keptSections kept shown))) d =
      some (c.overlay kept d) := by
  have hkept : c.overlay kept d =
      c.overlay (fun k => sections.any fun sec => sec.2.any fun s => k == s.key && kept s.key)
        d := by
    simp [overlay, sections, Setting.prompt, Setting.header, Setting.historyFile,
      Setting.maxHistorySize, Setting.persistHistory, Setting.skin, Setting.showHeader,
      Setting.configDirectory, Setting.dataDirectory]
  rw [hkept]
  refine foldlM_overlay _ (fun sec k => sec.2.any fun s => k == s.key && kept s.key) sections
    (fun sec hsec d => ?_) d
  obtain ⟨name, all⟩ := sec
  dsimp only
  by_cases hshown : (name, all.filter fun s => kept s.key) ∈ keptSections kept shown
  · rw [lookup?_ofTables_of_mem (nodup_keptSections kept shown) hshown]
    exact setMembers?_members kept hsec c d
  · obtain ⟨hnone, hempty⟩ := notMem_keptSections hsec hshown
    have hoff : (fun k => all.any fun s => k == s.key && kept s.key) = fun _ => false := by
      funext k
      rw [List.any_eq_false]
      intro s hs
      rw [hempty s hs, Bool.and_false]
      exact Bool.false_ne_true
    rw [lookup?_ofTables_of_notMem hnone, hoff, overlay_false]

/-- Reading the text of a file with the settings that are kept. -/
theorem ofText?_textOf? {kept shown : String → Bool}
    (h : c.textOf? (keptSections kept shown) = some cs) (d : Config) :
    ofText? (String.ofList cs) d = some (c.overlay kept d) := by
  rw [ofText?, String.toList_ofList, ofChars?_textOf? (isPlain_keptSections kept shown) h]
  exact ofDocument?_tables kept shown c d

/-! ## What can be written -/

theorem exists_toToml? (h : c.maxHistorySize ≤ Int64.maxValue.toNatClampNeg) :
    ∀ sec ∈ sections, ∀ s ∈ sec.2, ∃ v, (s.get c).toToml? = some v := by
  have htext : ∀ t, ∃ v, (Setting.Value.text t).toToml? = some v := fun _ => ⟨_, rfl⟩
  have hboolean : ∀ b, ∃ v, (Setting.Value.boolean b).toToml? = some v := by
    intro b
    cases b <;> exact ⟨_, rfl⟩
  have hcount : ∃ v, (Setting.Value.count c.maxHistorySize).toToml? = some v := ⟨_, if_pos h⟩
  exact forall_settings.mpr ⟨⟨htext _, htext _, htext _, hcount, hboolean _⟩,
    ⟨htext _, hboolean _⟩, htext _, htext _⟩

/-- A file can be written with any of the settings, as long as the size of the history has 64
bits. -/
theorem exists_textOf? (h : c.maxHistorySize ≤ Int64.maxValue.toNatClampNeg)
    (kept shown : String → Bool) : ∃ cs, c.textOf? (keptSections kept shown) = some cs := by
  have hsection : ∀ sec ∈ keptSections kept shown, ∃ t, c.sectionText? sec.1 sec.2 = some t := by
    rintro ⟨name, settings⟩ hsec
    obtain ⟨⟨all, hall, rfl⟩, -⟩ := mem_keptSections.mp hsec
    have hline : ∀ s ∈ all.filter fun s => kept s.key, ∃ l, c.settingLine? s = some l := by
      intro s hs
      obtain ⟨v, hv⟩ := exists_toToml? h _ hall s (List.mem_filter.mp hs).1
      exact ⟨_, by rw [settingLine?, hv]; rfl⟩
    obtain ⟨ls, hls⟩ := exists_mapM hline
    exact ⟨_, by rw [sectionText?, hls]; rfl⟩
  obtain ⟨ts, hts⟩ := exists_mapM hsection
  exact ⟨_, by rw [textOf?, hts]; rfl⟩

end Config

end LineShell
