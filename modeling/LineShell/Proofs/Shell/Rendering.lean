import LineShell.Entry.OfJson
import LineShell.Proofs.Json.Texts
import LineShell.Proofs.Text.Pieces
import LineShell.Shell

/-!
# Entries printed as JSON

An entry is written as an object of two texts, so it is read back as it was
(`ofJson?_render_toJson`), and what is printed holds no control character. In particular it holds no
line feed, and whoever cuts the output at its line feeds has the entries one by one.
-/

namespace LineShell

namespace Entry

open Json

/-- The members of an entry that is written. -/
def texts (e : Entry) : List (String × String) := [("kind", e.kind.name), ("text", e.text)]

theorem toJson_eq_ofTexts (e : Entry) : e.toJson = ofTexts e.texts := rfl

theorem members?_rawMember (ms : List (String × String)) :
    members? (ms.map rawMember) = some (ms.map fun m => (m.1, .text (piecesOf m.2))) := by
  induction ms with
  | nil => rfl
  | cons m ms ih => rw [List.map_cons, rawMember, members?, text?_piecesOf, ih]; rfl

theorem ofRaw?_texts (e : Entry) : ofRaw? (.object (e.texts.map rawMember)) = some e := by
  have hkind : EntryKind.ofRaw? (.text (piecesOf e.kind.name)) = some e.kind := by
    rw [EntryKind.ofRaw?, text?_piecesOf, Option.bind_some, EntryKind.ofName?_name]
  have htext : Raw.text? (.text (piecesOf e.text)) = some e.text := text?_piecesOf e.text
  have hfields : ofFields? (.text (piecesOf e.kind.name)) (.text (piecesOf e.text)) = some e := by
    rw [ofFields?, hkind, htext]
    rfl
  rw [ofRaw?, members?_rawMember]
  exact hfields

theorem ofJson?_render_toJson (e : Entry) : ofJson? e.toJson.render = some e := by
  rw [ofJson?, Json.render, String.toList_ofList, toJson_eq_ofTexts, texts, ofChars?_compact,
    Option.bind_some]
  exact ofRaw?_texts e

theorem not_control_of_mem_render (e : Entry) {c : Char} (h : c ∈ e.toJson.render.toList) :
    0x20 ≤ c.toNat := by
  rw [Json.render, String.toList_ofList, toJson_eq_ofTexts] at h
  exact not_control_of_mem_compact h

end Entry

namespace Shell

/-- Entries are printed as JSON one a line. Each line is read back as the entry that it was made of,
and holds no control character. So no line is broken, and the lines are found again between the line
feeds of the output. -/
theorem renderEntries_json_decodes (sh : Shell) (es : List Entry) :
    let lines := { sh with format := .json }.renderEntries es
    lines.length = es.length ∧ lines.map Entry.ofJson? = es.map some ∧
      (∀ line ∈ lines, ∀ c ∈ line.toList, 0x20 ≤ c.toNat) ∧
      (es ≠ [] → Text.splitLines (Text.joinLines lines) = lines) := by
  intro lines
  have hlines : lines = es.map fun e => e.toJson.render :=
    List.map_congr_left fun e _ => renderEntry_of_json rfl e
  have hcontrol : ∀ line ∈ lines, ∀ c ∈ line.toList, 0x20 ≤ c.toNat := by
    intro line hline c hc
    obtain ⟨e, -, rfl⟩ := List.mem_map.mp (hlines ▸ hline)
    exact e.not_control_of_mem_render hc
  refine ⟨?_, ?_, hcontrol, fun hne => Text.splitLines_joinLines ?_ fun line hline hfeed => ?_⟩
  · rw [hlines, List.length_map]
  · rw [hlines, List.map_map]
    exact List.map_congr_left fun e _ => e.ofJson?_render_toJson
  · rw [hlines]
    exact mt List.map_eq_nil_iff.mp hne
  · exact absurd (hcontrol line hline '\n' hfeed) (by decide)

/-- Line feeds, quotes, backslashes and other control characters. -/
theorem renderEntries_json_decodes_awkward :
    let es : List Entry := [⟨.input, "a\nb"⟩, ⟨.error, "\"\\\x1f"⟩]
    let sh : Shell := ⟨.default (.ofList []), .start (.empty 5), .json⟩
    sh.renderEntries es =
        ["\x7b\"kind\":\"input\",\"text\":\"a\\nb\"\x7d",
          "\x7b\"kind\":\"error\",\"text\":\"\\\"\\\\\\u001f\"\x7d"] ∧
      (sh.renderEntries es).map Entry.ofJson? = es.map some ∧ es ≠ [] ∧
      Text.splitLines (Text.joinLines (sh.renderEntries es)) = sh.renderEntries es := by
  intro es sh
  obtain ⟨-, hback, -, hsplit⟩ := renderEntries_json_decodes sh es
  have hne : es ≠ [] := List.cons_ne_nil _ _
  exact ⟨by decide +kernel, hback, hne, hsplit hne⟩

end Shell

end LineShell
