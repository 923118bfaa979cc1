import LineShell.Proofs.History
import LineShell.Proofs.Session.Submit
import Mathlib.Data.List.DropRight

/-!
# Sessions as replays of their lines

While a session runs, lines are submitted to it and older or newer lines are recalled. The *log* of
a run is what is recorded in it: every line that is not blank, trimmed, with the outcome that it
had. The log determines the session (`Replays`): the history is the end of the log's lines, the
transcript shows what was logged after the transcript was last cleared, and the variables are the
log's assignments carried out in order. Each step keeps this up, and so does a run, by induction
from its end. Recalls move the cursor of the history and nothing else, so the invariant does not
speak of them.
-/

namespace LineShell.Session

open History

/-! ## Runs and their logs -/

inductive Step
  | submit (line : String)
  | older
  | newer

/-- The line that is submitted, if one is. -/
def Step.line? : Step → Option String
  | .submit line => some line
  | .older | .newer => none

def step (s : Session) : Step → Session
  | .submit line => (s.submit line).1
  | .older => s.older.1
  | .newer => s.newer.1

def run (s : Session) (steps : List Step) : Session := steps.foldl step s

/-- What a step adds to the log: a line that is not blank, and what it came to. -/
def logged (s : Session) : Step → List (String × Outcome)
  | .submit line => if Text.trim line = "" then [] else [(Text.trim line, (s.submit line).2)]
  | .older | .newer => []

def log (s : Session) : List Step → List (String × Outcome)
  | [] => []
  | a :: steps => s.logged a ++ (s.step a).log steps

theorem run_concat (s : Session) (steps : List Step) (a : Step) :
    s.run (steps ++ [a]) = (s.run steps).step a := by
  rw [run, List.foldl_append]
  rfl

theorem log_concat (s : Session) (steps : List Step) (a : Step) :
    s.log (steps ++ [a]) = s.log steps ++ (s.run steps).logged a := by
  induction steps generalizing s with
  | nil => exact List.append_nil _
  | cons b steps ih =>
      show s.logged b ++ (s.step b).log (steps ++ [a]) = _
      rw [ih, ← List.append_assoc]
      rfl

/-- The logged lines are the submitted ones, trimmed, without those that are blank. -/
theorem map_fst_log (s : Session) (steps : List Step) :
    (s.log steps).map Prod.fst =
      ((steps.filterMap Step.line?).map Text.trim).filter (· ≠ "") := by
  induction steps generalizing s with
  | nil => rfl
  | cons a steps ih =>
      rw [log, List.map_append, ih]
      cases a with
      | submit line =>
          by_cases h : Text.trim line = "" <;> simp [logged, Step.line?, h]
      | older => rfl
      | newer => rfl

theorem ne_empty_of_mem_log {s : Session} {steps : List Step} {line : String} {o : Outcome}
    (h : (line, o) ∈ s.log steps) : o ≠ .empty := by
  induction steps generalizing s with
  | nil => cases h
  | cons a steps ih =>
      rcases List.mem_append.mp h with hr | hr
      · cases a with
        | submit entered =>
            rw [logged] at hr
            split at hr
            · cases hr
            · rename_i hne
              rw [(Prod.mk.inj (List.mem_singleton.mp hr)).2]
              exact (s.history_submit hne).2
        | older => cases hr
        | newer => cases hr
      · exact ih hr

/-! ## What the log determines -/

/-- What was logged since the transcript was last cleared. -/
def sinceCleared (log : List (String × Outcome)) : List (String × Outcome) :=
  log.rtakeWhile fun r => r.2 ≠ .cleared

/-- The transcript of what was logged. -/
def transcript (log : List (String × Outcome)) : List Entry :=
  (sinceCleared log).flatMap fun r => block r.1 r.2

/-- The assignments among the outcomes, carried out in order. -/
def assignments (log : List (String × Outcome)) : Variables :=
  log.foldl (fun vars r => r.2.assign vars) ∅

/-- The session is what the log makes of one that starts with the history `h`. -/
structure Replays (h : History) (log : List (String × Outcome)) (s : Session) : Prop where
  cap : s.history.cap = h.cap
  lines : s.history.lines = lastN h.cap (h.lines ++ log.map Prod.fst)
  entries : s.entries = transcript log
  vars : s.vars = assignments log

theorem transcript_concat (log : List (String × Outcome)) (r : String × Outcome) :
    transcript (log ++ [r]) =
      if r.2 = .cleared then [] else transcript log ++ block r.1 r.2 := by
  rw [transcript, sinceCleared, List.rtakeWhile_concat]
  by_cases h : r.2 = .cleared
  · simp [h]
  · simp [h, transcript, sinceCleared]

theorem assignments_concat (log : List (String × Outcome)) (r : String × Outcome) :
    assignments (log ++ [r]) = r.2.assign (assignments log) := by
  rw [assignments, List.foldl_append]
  rfl

variable {h : History} {log : List (String × Outcome)} {s : Session}

theorem replays_start (hfit : h.lines.length ≤ h.cap) : Replays h [] (start h) where
  cap := rfl
  lines := by rw [List.map_nil, List.append_nil, lastN_of_length_le hfit]; rfl
  entries := rfl
  vars := rfl

theorem Replays.submit (hr : Replays h log s) {line : String} (hline : Text.trim line ≠ "") :
    Replays h (log ++ [(Text.trim line, (s.submit line).2)]) (s.submit line).1 where
  cap := by
    rw [(s.history_submit hline).1]
    exact hr.cap
  lines := by
    rw [(s.history_submit hline).1, push, hr.cap, hr.lines, lastN_lastN_append, List.map_append,
      List.append_assoc]
    rfl
  entries := by
    rw [s.entries_submit hline, transcript_concat, s.snd_submit, hr.entries]
  vars := by
    rw [vars_submit, assignments_concat, s.snd_submit, hr.vars]

theorem Replays.step (hr : Replays h log s) (a : Step) :
    Replays h (log ++ s.logged a) (s.step a) := by
  cases a with
  | submit line =>
      rw [logged]
      by_cases hline : Text.trim line = ""
      · rw [if_pos hline, List.append_nil, Session.step, s.submit_of_blank hline]
        exact hr
      · rw [if_neg hline]
        exact hr.submit hline
  | older =>
      rw [logged, List.append_nil]
      exact ⟨hr.cap, hr.lines, hr.entries, hr.vars⟩
  | newer =>
      rw [logged, List.append_nil]
      exact ⟨hr.cap, hr.lines, hr.entries, hr.vars⟩

theorem replays_run (hfit : h.lines.length ≤ h.cap) (steps : List Step) :
    Replays h ((start h).log steps) ((start h).run steps) := by
  induction steps using List.reverseRecOn with
  | nil => exact replays_start hfit
  | append_singleton steps a ih =>
      rw [run_concat, log_concat]
      exact ih.step a

/-! ## The shape of transcripts -/

/-- What shows a line is the line as it was entered and one text that answers it. -/
theorem exists_block_eq (line : String) {o : Outcome} (hne : o ≠ .empty) (hshown : o ≠ .cleared) :
    ∃ text, o.text? = some text ∧
      block line o =
        [{ kind := .input, text := line },
          { kind := if o.isError then .error else .output, text }] := by
  have hsome := mt Outcome.text?_eq_none_iff.mp (not_or.mpr ⟨hne, hshown⟩)
  obtain ⟨text, htext⟩ := Option.ne_none_iff_exists'.mp hsome
  refine ⟨text, htext, ?_⟩
  rw [block, Entry.ofOutcome?, htext]
  rfl

theorem exists_block_of_mem {steps : List Step} {r : String × Outcome}
    (h : r ∈ sinceCleared (s.log steps)) :
    ∃ text, r.2.text? = some text ∧
      block r.1 r.2 =
        [{ kind := .input, text := r.1 },
          { kind := if r.2.isError then .error else .output, text }] := by
  unfold sinceCleared at h
  have hshown := List.mem_rtakeWhile_imp h
  have hlogged : r ∈ s.log steps := (List.rtakeWhile_suffix _ _).subset h
  exact exists_block_eq r.1 (ne_empty_of_mem_log hlogged) (of_decide_eq_true hshown)

theorem alternates_of_blocks {rs : List (String × Outcome)}
    (hblock : ∀ r ∈ rs, ∃ e e', block r.1 r.2 = [e, e'] ∧ e.kind = .input ∧ e'.kind ≠ .input)
    (i : Nat) (e : Entry) (he : (rs.flatMap fun r => block r.1 r.2)[i]? = some e) :
    e.kind = .input ↔ i % 2 = 0 := by
  induction rs generalizing i with
  | nil => cases he
  | cons r rs ih =>
      obtain ⟨⟨a, b, hab, ha, hb⟩, hrest⟩ := List.forall_mem_cons.mp hblock
      rw [List.flatMap_cons, hab] at he
      match i with
      | 0 =>
          obtain rfl := Option.some.inj he
          exact ⟨fun _ => rfl, fun _ => ha⟩
      | 1 =>
          obtain rfl := Option.some.inj he
          exact ⟨fun h => absurd h hb, fun h => nomatch h⟩
      | i + 2 =>
          have hi := ih hrest i he
          rw [hi]
          omega

/-! ## Sessions are replays -/

/-- A session is a replay of its lines. After any use of a history with room for `m` lines, and any
submissions and recalls from there on: the history holds the newest of its first lines and those
that were logged, which are the submitted lines, trimmed and without the blank ones; the transcript
shows each line that was logged since it was last cleared, and the one text that answers it, so that
inputs and answers take turns; the variables are what the assignments make of none; and submitting a
blank line leaves everything as it is. -/
theorem run_start_replays (m : Nat) (moves : List Move) (steps : List Step) :
    let h := (History.empty m).moveAll moves
    let log := (start h).log steps
    let s := (start h).run steps
    s.history.lines = lastN (max 1 m) (h.lines ++ log.map Prod.fst) ∧
      log.map Prod.fst = ((steps.filterMap Step.line?).map Text.trim).filter (· ≠ "") ∧
      s.entries = (log.rtakeWhile fun r => r.2 ≠ .cleared).flatMap (fun r => block r.1 r.2) ∧
      (∀ r ∈ log.rtakeWhile fun r => r.2 ≠ .cleared, ∃ text, r.2.text? = some text ∧
        block r.1 r.2 =
          [{ kind := .input, text := r.1 },
            { kind := if r.2.isError then .error else .output, text }]) ∧
      (∀ i e, s.entries[i]? = some e → (e.kind = .input ↔ i % 2 = 0)) ∧
      s.vars = log.foldl (fun vars r => r.2.assign vars) ∅ ∧
      ∀ line, Text.trim line = "" → s.submit line = (s, .empty) := by
  intro h log s
  obtain ⟨hcap, hfit⟩ := length_lines_moveAll_empty m moves
  have hr : Replays h log s := replays_run hfit steps
  refine ⟨?_, map_fst_log _ _, hr.entries, fun r hmem => exists_block_of_mem hmem, ?_, hr.vars,
    fun line => s.submit_of_blank⟩
  · rw [hr.lines, hcap]
  · intro i e he
    rw [hr.entries] at he
    refine alternates_of_blocks (fun r hmem => ?_) i e he
    obtain ⟨text, -, heq⟩ := exists_block_of_mem hmem
    refine ⟨_, _, heq, rfl, ?_⟩
    cases r.2.isError <;> nofun

end LineShell.Session
