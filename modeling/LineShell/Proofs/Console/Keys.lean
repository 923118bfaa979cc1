import LineShell.Console
import LineShell.Proofs.History
import LineShell.Proofs.Session.Submit

/-!
# Keys as submissions

A console that is worked with key by key does to its session what submitting lines does. A key sends
a line or sends none (`Console.sends?`): Enter sends the input line as it stands, and the control
key with `l` sends `clear`. All that a key can do is in `Console.press_cases`. The simulation
relation is `Session.SameRecord`, which leaves out the cursor of the history: recalls move it, and
nothing that a line comes to depends on it.
-/

namespace LineShell

/-! ## Sessions with the same record -/

namespace Session

/-- The sessions differ at most in the line that was recalled last. -/
structure SameRecord (s t : Session) : Prop where
  vars : s.vars = t.vars
  entries : s.entries = t.entries
  lines : s.history.lines = t.history.lines
  cap : s.history.cap = t.history.cap

variable {s t u : Session}

theorem SameRecord.refl (s : Session) : SameRecord s s := ⟨rfl, rfl, rfl, rfl⟩

theorem SameRecord.trans (h : SameRecord s t) (h' : SameRecord t u) : SameRecord s u :=
  ⟨h.vars.trans h'.vars, h.entries.trans h'.entries, h.lines.trans h'.lines, h.cap.trans h'.cap⟩

theorem SameRecord.submit (h : SameRecord s t) (line : String) :
    SameRecord (s.submit line).1 (t.submit line).1 := by
  have hout : s.outcome line = t.outcome line := by rw [outcome, outcome, h.vars]
  by_cases hline : Text.trim line = ""
  · rw [s.submit_of_blank hline, t.submit_of_blank hline]
    exact h
  · have hs := (s.history_submit hline).1
    have ht := (t.history_submit hline).1
    constructor
    · rw [vars_submit, vars_submit, hout, h.vars]
    · rw [s.entries_submit hline, t.entries_submit hline, hout, h.entries]
    · rw [hs, ht, History.push, History.push, h.lines, h.cap]
    · rw [hs, ht]
      exact h.cap

theorem SameRecord.submitAll (h : SameRecord s t) (lines : List String) :
    SameRecord (s.submitAll lines) (t.submitAll lines) := by
  induction lines generalizing s t with
  | nil => exact h
  | cons line lines ih =>
      rw [Session.submitAll, Session.submitAll]
      exact ih (h.submit line)

theorem sameRecord_older (s : Session) : SameRecord s.older.1 s := ⟨rfl, rfl, rfl, rfl⟩

theorem sameRecord_newer (s : Session) : SameRecord s.newer.1 s := ⟨rfl, rfl, rfl, rfl⟩

theorem older_of_eq_none (hnone : s.older.2 = none) : s.older.1 = s := by
  have hsame : s.history.older.1 = s.history := History.older_of_eq_none hnone
  show { s with history := s.history.older.1 } = s
  rw [hsame]

theorem newer_of_eq_none (hnone : s.newer.2 = none) : s.newer.1 = s := by
  have hsame : s.history.newer.1 = s.history := History.newer_of_eq_none hnone
  show { s with history := s.history.newer.1 } = s
  rw [hsame]

end Session

namespace Console

open Session

/-! ## What a key does -/

/-- The line that a key submits, if it submits one. -/
def sends? (c : Console) (k : Key) : Option String :=
  match k.code with
  | .enter => some c.input.text
  | .char ch => if k.ctrl ∧ ch = 'l' then some "clear" else none
  | _ => none

variable {c : Console} {k : Key}

theorem submit_eq (c : Console) (line : String) :
    c.submit line = ({ c with session := (c.session.submit line).1 },
      .submitted (c.session.submit line).2) := by
  unfold submit
  rcases c.session.submit line with ⟨session, o⟩
  rfl

theorem showRecalled_cases {step : Session → Session × Option String}
    (hsame : SameRecord (step c.session).1 c.session)
    (hnone : (step c.session).2 = none → (step c.session).1 = c.session) :
    (∃ session input, SameRecord session c.session ∧
      c.showRecalled step = ({ c with session, input }, .edited)) ∨
      c.showRecalled step = (c, .ignored) := by
  unfold showRecalled
  rcases hstep : step c.session with ⟨session, _ | text⟩ <;> rw [hstep] at hsame hnone
  · obtain rfl := hnone rfl
    exact Or.inr rfl
  · exact Or.inl ⟨session, c.input.set text, hsame, rfl⟩

theorem exitOr_cases (c : Console) (other : Console × KeyAction) :
    (c.input.isEmpty = true ∧ c.exitOr other = (c, .exit)) ∨ c.exitOr other = other := by
  by_cases h : c.input.isEmpty = true
  · exact Or.inl ⟨h, if_pos h⟩
  · exact Or.inr (if_neg h)

/-- A key that sends a line submits it and touches nothing else but the input. A key that sends none
edits the input, perhaps by a recall, or does nothing, or leaves an empty line. -/
theorem press_cases (c : Console) (k : Key) :
    (∃ line input, c.sends? k = some line ∧
      c.press k = ({ c with session := (c.session.submit line).1, input },
        .submitted (c.session.submit line).2)) ∨
      (c.sends? k = none ∧ ∃ session input, SameRecord session c.session ∧
        c.press k = ({ c with session, input }, .edited)) ∨
      (c.sends? k = none ∧ c.press k = (c, .ignored)) ∨
      (c.sends? k = none ∧ c.input.isEmpty = true ∧ c.press k = (c, .exit)) := by
  obtain ⟨code, ctrl, alt⟩ := k
  have hedit : ∀ f : LineBuffer → LineBuffer, ∃ session input, SameRecord session c.session ∧
      c.edit f = ({ c with session, input }, .edited) :=
    fun f => ⟨c.session, f c.input, .refl _, rfl⟩
  cases code with
  | enter => exact Or.inl ⟨_, .empty, rfl, submit_eq { c with input := .empty } c.input.text⟩
  | up =>
      rcases showRecalled_cases (sameRecord_older c.session) older_of_eq_none with h | h
      · exact Or.inr (Or.inl ⟨rfl, h⟩)
      · exact Or.inr (Or.inr (Or.inl ⟨rfl, h⟩))
  | down =>
      rcases showRecalled_cases (sameRecord_newer c.session) newer_of_eq_none with h | h
      · exact Or.inr (Or.inl ⟨rfl, h⟩)
      · exact Or.inr (Or.inr (Or.inl ⟨rfl, h⟩))
  | left | right | home | «end» | backspace | delete => exact Or.inr (Or.inl ⟨rfl, hedit _⟩)
  | other => exact Or.inr (Or.inr (Or.inl ⟨rfl, rfl⟩))
  | char ch =>
      cases ctrl with
      | false =>
          refine Or.inr ?_
          cases alt with
          | false => exact Or.inl ⟨rfl, hedit fun b => b.insert ch⟩
          | true => exact Or.inr (Or.inl ⟨rfl, rfl⟩)
      | true =>
          by_cases hl : ch = 'l'
          · subst hl
            exact Or.inl ⟨_, c.input, rfl, submit_eq c "clear"⟩
          · have hsends : c.sends? ⟨.char ch, true, alt⟩ = none := if_neg fun h => hl h.2
            refine Or.inr ?_
            show (_ ∧ ∃ session input, _ ∧ c.control ch = _) ∨ (_ ∧ c.control ch = _) ∨
              (_ ∧ _ ∧ c.control ch = _)
            unfold control
            rw [if_neg hl]
            by_cases hc : ch = 'c'
            · rw [if_pos hc]
              rcases c.exitOr_cases (c.edit fun _ => .empty) with ⟨hempty, h⟩ | h <;> rw [h]
              · exact Or.inr (Or.inr ⟨hsends, hempty, rfl⟩)
              · exact Or.inl ⟨hsends, hedit _⟩
            · rw [if_neg hc]
              by_cases hd : ch = 'd'
              · rw [if_pos hd]
                rcases c.exitOr_cases (c, .ignored) with ⟨hempty, h⟩ | h <;> rw [h]
                · exact Or.inr (Or.inr ⟨hsends, hempty, rfl⟩)
                · exact Or.inr (Or.inl ⟨hsends, rfl⟩)
              · rw [if_neg hd]
                exact Or.inr (Or.inl ⟨hsends, rfl⟩)

/-! ## Runs of keys -/

/-- Presses keys one after the other. -/
def pressAll (c : Console) (ks : List Key) : Console := ks.foldl (fun c k => (c.press k).1) c

/-- The lines that keys submit, each read off the console as it is when the key is pressed. -/
def sent (c : Console) : List Key → List String
  | [] => []
  | k :: ks => (c.sends? k).toList ++ (c.press k).1.sent ks

/-- One key does to the session what submitting the line that it sends does. -/
theorem sameRecord_press (c : Console) (k : Key) :
    SameRecord (c.press k).1.session (c.session.submitAll (c.sends? k).toList) := by
  rcases c.press_cases k with ⟨line, input, hs, hp⟩ | ⟨hs, session, input, hsame, hp⟩ | ⟨hs, hp⟩ |
    ⟨hs, -, hp⟩ <;> rw [hs, hp]
  · simp only [Option.toList, Session.submitAll]
    exact .refl _
  · exact hsame
  · exact .refl _
  · exact .refl _

theorem sameRecord_pressAll (c : Console) (ks : List Key) :
    SameRecord (c.pressAll ks).session (c.session.submitAll (c.sent ks)) := by
  induction ks generalizing c with
  | nil => exact .refl _
  | cons k ks ih =>
      have hrest := (c.sameRecord_press k).submitAll ((c.press k).1.sent ks)
      rw [sent, submitAll_append]
      exact (ih (c.press k).1).trans hrest

/-- A console refines the session below it. After any keys the session has the variables, the
transcript and the lines that it has after submitting what the keys sent, in order and nothing else.
In every state that is reached, a key that is ignored or that leaves the console changes nothing at
all, it leaves only an empty line, a key that edits changes neither variables nor transcript nor
lines, and a key that submits gives the outcome of the line that it sends. -/
theorem press_refines_submit (c : Console) (ks : List Key) :
    let c' := c.pressAll ks
    SameRecord c'.session (c.session.submitAll (c.sent ks)) ∧
      ∀ k, ((c'.press k).2 = .ignored ∨ (c'.press k).2 = .exit → (c'.press k).1 = c') ∧
        ((c'.press k).2 = .exit → c'.input.isEmpty = true) ∧
        ((c'.press k).2 = .edited → SameRecord (c'.press k).1.session c'.session) ∧
        ∀ o, (c'.press k).2 = .submitted o →
          ∃ line, c'.sends? k = some line ∧ o = (c'.session.submit line).2 := by
  intro c'
  refine ⟨sameRecord_pressAll c ks, fun k => ?_⟩
  rcases c'.press_cases k with ⟨line, input, hs, hp⟩ | ⟨-, session, input, hsame, hp⟩ | ⟨-, hp⟩ |
    ⟨-, hempty, hp⟩ <;> rw [hp]
  · exact ⟨nofun, nofun, nofun, fun o ho => ⟨line, hs, (KeyAction.submitted.inj ho).symm⟩⟩
  · exact ⟨nofun, nofun, fun _ => hsame, nofun⟩
  · exact ⟨fun _ => rfl, nofun, nofun, nofun⟩
  · exact ⟨fun _ => rfl, fun _ => hempty, nofun, nofun⟩

end Console

end LineShell
