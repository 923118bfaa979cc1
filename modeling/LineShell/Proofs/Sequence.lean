/-!
# Steps that may fail

What is known when steps that may fail were taken one after the other: if all went well, each did,
and if not, there is a first that failed. So it is for the elements of a list.
-/

namespace LineShell

variable {ε α β : Type}

theorem exists_of_bind_eq_ok {x : Except ε α} {f : α → Except ε β} {b : β}
    (h : x >>= f = .ok b) : ∃ a, x = .ok a ∧ f a = .ok b := by
  cases x with
  | error e => cases h
  | ok a => exact ⟨a, rfl, h⟩

theorem error_of_bind_eq_error {x : Except ε α} {f : α → Except ε β} {e : ε}
    (h : x >>= f = .error e) : x = .error e ∨ ∃ a, x = .ok a ∧ f a = .error e := by
  cases x with
  | error e' => exact Or.inl (congrArg Except.error (Except.error.inj h))
  | ok a => exact Or.inr ⟨a, rfl, h⟩

/-! ## Lists -/

variable {f : α → Option β} {a : α} {as : List α}

theorem mapM_cons_eq_some {bs : List β} (h : (a :: as).mapM f = some bs) :
    ∃ b bs', f a = some b ∧ as.mapM f = some bs' ∧ bs = b :: bs' := by
  rw [List.mapM_cons] at h
  cases hb : f a with
  | none =>
      rw [hb] at h
      cases h
  | some b =>
      cases hbs : as.mapM f with
      | none =>
          rw [hb, hbs] at h
          cases h
      | some bs' =>
          rw [hb, hbs] at h
          exact ⟨b, bs', rfl, rfl, (Option.some.inj h).symm⟩

theorem exists_mapM (h : ∀ a ∈ as, ∃ b, f a = some b) : ∃ bs, as.mapM f = some bs := by
  induction as with
  | nil => exact ⟨[], rfl⟩
  | cons a as ih =>
      obtain ⟨b, hb⟩ := h a List.mem_cons_self
      obtain ⟨bs, hbs⟩ := ih fun a' ha' => h a' (List.mem_cons_of_mem a ha')
      exact ⟨b :: bs, by rw [List.mapM_cons, hb, hbs]; rfl⟩

end LineShell
