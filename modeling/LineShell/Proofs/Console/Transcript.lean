import LineShell.Console
import LineShell.Proofs.History
import LineShell.Proofs.Skin
import LineShell.Proofs.Text.Pieces
import Mathlib.Algebra.GroupWithZero.Nat
import Mathlib.Data.List.Basic

/-!
# The window on the transcript

A console draws every entry line by line, so an entry has one line more than its text has line feeds
(`length_entryLines`), and the window shows the end of all these lines. Without colours the lines of
an entry are those of its text, an input's behind the prompt (`entryLines_plain`,
`entryLines_plain_input`); in any other skin they are the same but for the codes
(`strip_entryLines`).
-/

namespace LineShell

namespace Console

open History

variable {c : Console} {e : Entry}

/-- The console without colours. -/
def plain (c : Console) : Console := { c with skin := .plain }

/-! ## The lines of an entry -/

theorem length_entryLines (c : Console) (e : Entry) :
    (c.entryLines e).length = 1 + e.text.toList.count '\n' := by
  rw [entryLines, List.length_map, Text.splitLines, List.length_map, Text.length_pieces,
    Nat.add_comm]

theorem entryLines_plain_input (c : Console) (he : e.kind = .input) :
    c.plain.entryLines e = (Text.splitLines e.text).map (c.prompt ++ ·) := by
  obtain ⟨kind, text⟩ := e
  obtain rfl : kind = .input := he
  rfl

theorem entryLines_plain (c : Console) (he : e.kind ≠ .input) :
    c.plain.entryLines e = Text.splitLines e.text := by
  obtain ⟨kind, text⟩ := e
  cases kind with
  | input => exact absurd rfl he
  | output | error => exact List.map_id _

theorem strip_entryLines (hprompt : '\x1b' ∉ c.prompt.toList) (htext : '\x1b' ∉ e.text.toList) :
    (c.entryLines e).map Style.strip = c.plain.entryLines e := by
  rw [entryLines, entryLines, List.map_map]
  refine List.map_congr_left fun line hline => ?_
  exact c.skin.strip_renderEntry hprompt fun hesc => htext (Text.mem_of_mem_splitLines hline hesc)

/-! ## All lines and the window -/

theorem length_allLines (c : Console) :
    c.allLines.length = (c.session.entries.map fun e => 1 + e.text.toList.count '\n').sum := by
  rw [allLines, List.length_flatMap]
  congr 1
  exact List.map_congr_left fun e _ => c.length_entryLines e

theorem strip_allLines (hprompt : '\x1b' ∉ c.prompt.toList)
    (htext : ∀ e ∈ c.session.entries, '\x1b' ∉ e.text.toList) :
    c.allLines.map Style.strip = c.plain.allLines := by
  rw [allLines, allLines, List.map_flatMap]
  exact List.flatMap_congr fun e he => strip_entryLines hprompt (htext e he)

/-- The window on the transcript loses nothing. All entries are drawn one behind the other, each in
one line more than its text has line feeds, and the window shows as many of the last lines as it has
room for. Without colours the lines of an answer, joined again, are its text, and each line of an
input stands behind the prompt, where the lines, joined again, are its text. In any skin the window
shows the same but for the codes, if no text and not the prompt holds an escape character. -/
theorem transcriptLines_window (c : Console) (n : Nat) :
    let total := (c.session.entries.map fun e => 1 + e.text.toList.count '\n').sum
    let full := c.session.entries.flatMap c.entryLines
    full.length = total ∧ c.transcriptLines n <:+ full ∧
      (c.transcriptLines n).length = min n total ∧
      (∀ e ∈ c.session.entries, e.kind ≠ .input →
        Text.joinLines (c.plain.entryLines e) = e.text) ∧
      (∀ e ∈ c.session.entries, e.kind = .input →
        (∀ line ∈ c.plain.entryLines e, c.prompt.toList <+: line.toList) ∧
          ∃ lines, c.plain.entryLines e = lines.map (c.prompt ++ ·) ∧
            Text.joinLines lines = e.text) ∧
      ('\x1b' ∉ c.prompt.toList → (∀ e ∈ c.session.entries, '\x1b' ∉ e.text.toList) →
        (c.transcriptLines n).map Style.strip = c.plain.transcriptLines n) := by
  intro total full
  refine ⟨c.length_allLines, lastN_suffix n _, ?_, fun e _ he => ?_, fun e _ he => ⟨?_, ?_⟩,
    fun hprompt htext => ?_⟩
  · rw [transcriptLines, length_lastN, length_allLines]
  · rw [c.entryLines_plain he, Text.joinLines_splitLines]
  · intro line hline
    rw [c.entryLines_plain_input he] at hline
    obtain ⟨l, -, rfl⟩ := List.mem_map.mp hline
    rw [String.toList_append]
    exact List.prefix_append _ _
  · exact ⟨_, c.entryLines_plain_input he, Text.joinLines_splitLines e.text⟩
  · rw [transcriptLines, transcriptLines, map_lastN, strip_allLines hprompt htext]

/-- A window that begins within an entry. -/
theorem transcriptLines_window_classic :
    let input : Entry := { kind := .input, text := "a b" }
    let answer : Entry := { kind := .error, text := "1\n\n2" }
    let c : Console :=
      .start "$ " .classic { Session.start default with entries := [input, answer] }
    '\x1b' ∉ c.prompt.toList ∧ (∀ e ∈ c.session.entries, '\x1b' ∉ e.text.toList) ∧
      (c.transcriptLines 2).map Style.strip = c.plain.transcriptLines 2 ∧
      c.transcriptLines 2 = ["\x1b[31m\x1b[0m", "\x1b[31m2\x1b[0m"] ∧
      input ∈ c.session.entries ∧ input.kind = .input ∧
      (∀ line ∈ c.plain.entryLines input, c.prompt.toList <+: line.toList) ∧
      answer ∈ c.session.entries ∧ answer.kind ≠ .input ∧
      Text.joinLines (c.plain.entryLines answer) = answer.text := by
  intro input answer c
  have hprompt : '\x1b' ∉ c.prompt.toList := by decide
  have htext : ∀ e ∈ c.session.entries, '\x1b' ∉ e.text.toList := by decide
  obtain ⟨-, -, -, hanswer, hinput, hstrip⟩ := c.transcriptLines_window 2
  have hmem : input ∈ c.session.entries := List.mem_cons_self
  have hmem' : answer ∈ c.session.entries := List.mem_cons_of_mem _ List.mem_cons_self
  have hkind : answer.kind ≠ .input := by decide
  exact ⟨hprompt, htext, hstrip hprompt htext, by decide, hmem, rfl, (hinput _ hmem rfl).1,
    hmem', hkind, hanswer _ hmem' hkind⟩

end Console

end LineShell
