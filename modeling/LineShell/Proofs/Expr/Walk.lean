import LineShell.Expr.Walk
import LineShell.Proofs.Expr.Agreement

/-!
# The walk along the tokens keeps to its bounds

A walk follows a reader (`Follows`) if it ends, if what it comes to is what the reader gives for the
rest of the tokens from its place on, and if all levels on the way were called at depths from a
given one up to the limit. The levels follow the readers with the budget that is left at their depth
(`followed_readers`), by induction on the budget: a step that goes one deeper is a step to the
readers with one less of it, and within a depth each level calls only tighter ones, so they are
taken tightest first (`followed_ascend`). A level that returns is at the depth at which it began
(`Returns`), which a chain behind it is not (`GoesOn`); that is why chains go back to a depth that
was kept, and all else goes up by one.

That the walk keeps to its bounds (`read_restores_depth`) and gives what the readers give
(`run_readAll`) are two readings of this.
-/

namespace LineShell.Walk

-- The equations of the walk are made once, here: proofs that are checked side by side would all
-- wait for the first of them to make them.
attribute [local simp] Level.read Level.readChain Level.goOn Level.readLinks

variable {α β γ : Type} {ts : List Token} {floor : Nat} {s s' : State}

/-! ## Runs -/

theorem run_bind_of_eq_ok {walk : Walk α} {f : α → Walk β} {a : α}
    (h : run walk s = some (.ok a, s')) : run (walk >>= f) s = run (f a) s' := by
  show (run walk s).bind (fun r => _) = _
  rw [h]
  rfl

theorem run_bind_of_eq_error {walk : Walk α} {f : α → Walk β} {e : Stop}
    (h : run walk s = some (.error e, s')) : run (walk >>= f) s = some (.error e, s') := by
  show (run walk s).bind (fun r => _) = _
  rw [h]
  rfl

/-! ## Calls -/

/-- The calls since a state were made at depths from `floor` up to the limit. -/
def CallsWithin (floor : Nat) (s s' : State) : Prop :=
  ∃ calls, s'.calls = calls ++ s.calls ∧ ∀ c ∈ calls, floor ≤ c.2 ∧ c.2 ≤ maxDepth

theorem callsWithin_of_eq (h : s'.calls = s.calls) : CallsWithin floor s s' :=
  ⟨[], h, by simp⟩

theorem CallsWithin.trans {s'' : State} (h : CallsWithin floor s s')
    (h' : CallsWithin floor s' s'') : CallsWithin floor s s'' := by
  obtain ⟨calls, heq, hcalls⟩ := h
  obtain ⟨calls', heq', hcalls'⟩ := h'
  refine ⟨calls' ++ calls, by rw [heq', heq, List.append_assoc], fun c hc => ?_⟩
  rcases List.mem_append.mp hc with hc | hc
  · exact hcalls' c hc
  · exact hcalls c hc

theorem CallsWithin.mono {floor' : Nat} (hle : floor' ≤ floor) (h : CallsWithin floor s s') :
    CallsWithin floor' s s' := by
  obtain ⟨calls, heq, hcalls⟩ := h
  exact ⟨calls, heq, fun c hc => ⟨Nat.le_trans hle (hcalls c hc).1, (hcalls c hc).2⟩⟩

/-! ## Walks that follow readers -/

/-- The walk from the state `s` ends as the reader does that gives `x`: with the same thing in front
of the same rest of the tokens, in a state of the given kind, or for the same reason. -/
inductive Follows (ts : List Token) (floor : Nat) (walk : Walk α) (s : State)
    (after : State → Prop) : Except ParseError (α × List Token) → Prop
  | ok {a : α} {s' : State} : run walk s = some (.ok a, s') → CallsWithin floor s s' → after s' →
      Follows ts floor walk s after (.ok (a, ts.drop s'.place))
  | error {e : ParseError} {s' : State} : run walk s = some (.error (.refused e), s') →
      CallsWithin floor s s' → Follows ts floor walk s after (.error e)

variable {after mid : State → Prop} {x : Except ParseError (α × List Token)}

theorem follows_pure {a : α} {rest : List Token} (hrest : ts.drop s.place = rest)
    (h : after s) : Follows ts floor (pure a) s after (.ok (a, rest)) := by
  subst hrest
  exact .ok rfl (callsWithin_of_eq rfl) h

theorem follows_refuse (e : ParseError) :
    Follows ts floor (refuse e : Walk α) s after (.error e) :=
  .error rfl (callsWithin_of_eq rfl)

/-- A step that makes no call. -/
theorem Follows.step {walk : Walk γ} {f : γ → Walk α} {c : γ}
    (h : Follows ts floor (f c) s' after x) (hrun : run walk s = some (.ok c, s'))
    (hcalls : s'.calls = s.calls) : Follows ts floor (walk >>= f) s after x := by
  cases h with
  | ok h hwithin hafter =>
      exact .ok ((run_bind_of_eq_ok hrun).trans h) ((callsWithin_of_eq hcalls).trans hwithin) hafter
  | error h hwithin =>
      exact .error ((run_bind_of_eq_ok hrun).trans h) ((callsWithin_of_eq hcalls).trans hwithin)

theorem Follows.bind {walk : Walk α} {f : α → Walk β}
    {g : α × List Token → Except ParseError (β × List Token)}
    (h : Follows ts floor walk s mid x)
    (hf : ∀ a s', mid s' → Follows ts floor (f a) s' after (g (a, ts.drop s'.place))) :
    Follows ts floor (walk >>= f) s after (x >>= g) := by
  cases h with
  | @ok a s' h hwithin hmid =>
      show Follows ts floor (walk >>= f) s after (g (a, ts.drop s'.place))
      have hrest := hf a s' hmid
      generalize g (a, ts.drop s'.place) = y at hrest
      cases hrest with
      | ok h' hwithin' hafter =>
          exact .ok ((run_bind_of_eq_ok h).trans h') (hwithin.trans hwithin') hafter
      | error h' hwithin' =>
          exact .error ((run_bind_of_eq_ok h).trans h') (hwithin.trans hwithin')
  | error h hwithin => exact .error (run_bind_of_eq_error h) hwithin

/-- What is read is given as it is, in a state that was set right. -/
theorem Follows.finish {walk : Walk α} {f : α → Walk α} (h : Follows ts floor walk s mid x)
    (hf : ∀ a s', mid s' → Follows ts floor (f a) s' after (.ok (a, ts.drop s'.place))) :
    Follows ts floor (walk >>= f) s after x := by
  have hbind : (x >>= fun r => .ok r) = x := by cases x <;> rfl
  exact hbind ▸ h.bind hf

/-- What is known of the calls and of the state behind the walk may be weakened. -/
theorem Follows.mono {walk : Walk α} {floor' : Nat} {after' : State → Prop}
    (h : Follows ts floor walk s after x) (hle : floor' ≤ floor)
    (himp : ∀ s', after s' → after' s') : Follows ts floor' walk s after' x := by
  cases h with
  | ok h hwithin hafter => exact .ok h (hwithin.mono hle) (himp _ hafter)
  | error h hwithin => exact .error h (hwithin.mono hle)

theorem Follows.run_eq {walk : Walk α} (h : Follows ts floor walk s after x) :
    ∃ s', run walk s = some ((x.map Prod.fst).mapError .refused, s') := by
  cases h with
  | @ok a s' hrun => exact ⟨s', hrun⟩
  | @error e s' hrun => exact ⟨s', hrun⟩

/-! ## Readers that are followed -/

/-- A level that returns has passed some token, and left the depth as it was. -/
structure Returns (ts : List Token) (s s' : State) : Prop where
  depth : s'.depth = s.depth
  advances : s.place < s'.place
  inside : s'.place ≤ ts.length

theorem Returns.of_le {s'' : State} (h : Returns ts s' s'') (hdepth : s'.depth = s.depth)
    (hplace : s.place ≤ s'.place) : Returns ts s s'' :=
  ⟨h.depth.trans hdepth, Nat.lt_of_le_of_lt hplace h.advances, h.inside⟩

/-- A chain may have gone on, and deeper. -/
structure GoesOn (ts : List Token) (s s' : State) : Prop where
  depth : s.depth ≤ s'.depth
  advances : s.place ≤ s'.place
  inside : s'.place ≤ ts.length

theorem GoesOn.of_le {s'' : State} (h : GoesOn ts s' s'') (hdepth : s.depth ≤ s'.depth)
    (hplace : s.place ≤ s'.place) : GoesOn ts s s'' :=
  ⟨Nat.le_trans hdepth h.depth, Nat.le_trans hplace h.advances, h.inside⟩

variable {bound : String → Bool}

/-- Walks from the given depth follow the readers. -/
structure Followed (bound : String → Bool) (ts : List Token) (depth : Nat)
    (readers : Parser.Readers) : Prop where
  expr (level : Level) {s : State} : s.depth = depth →
    Follows ts depth (level.read bound ts) s (Returns ts s)
      (readers.expr level (ts.drop s.place))
  chain (level operand : Level) (left : Expr) {s : State} : s.depth = depth →
    s.place ≤ ts.length →
      Follows ts depth (level.goOn bound ts operand left) s (GoesOn ts s)
        (readers.chain level operand left (ts.drop s.place))
  links {s : State} : s.depth = depth → s.place ≤ ts.length →
    Follows ts depth (Level.sum.readLinks bound ts) s (GoesOn ts s)
      (readers.links (ts.drop s.place))

/-- Walks one deeper follow the readers further down. There are none from the limit on. -/
def FollowedBelow (bound : String → Bool) (ts : List Token) (depth : Nat) :
    Option Parser.Readers → Prop
  | none => depth = maxDepth
  | some readers => depth < maxDepth ∧ Followed bound ts (depth + 1) readers

theorem FollowedBelow.le {depth : Nat} {deeper : Option Parser.Readers}
    (h : FollowedBelow bound ts depth deeper) : depth ≤ maxDepth := by
  cases deeper with
  | none => exact Nat.le_of_eq h
  | some readers => exact Nat.le_of_lt h.1

theorem run_get (s : State) : run get s = some (.ok s, s) := rfl

theorem run_restore (depth : Nat) (s : State) :
    run (restore depth) s = some (.ok (), { s with depth }) := rfl

theorem run_descend (s : State) : run descend s =
    run (if maxDepth < s.depth + 1 then refuse .tooDeep else pure ())
      { s with depth := s.depth + 1 } := rfl

theorem run_ascend {s : State} (h : s.depth ≠ 0) :
    run ascend s = some (.ok (), { s with depth := s.depth - 1 }) := by
  have hrun : run ascend s =
      run (if s.depth = 0 then throw .underflow else set { s with depth := s.depth - 1 }) s := rfl
  rw [hrun, if_neg h]
  rfl

theorem run_peek (ts : List Token) (s : State) :
    run (peek ts) s = some (.ok (ts.drop s.place).head?, s) := by
  rw [List.head?_drop]
  rfl

theorem run_skip (s : State) : run skip s = some (.ok (), { s with place := s.place + 1 }) := rfl

theorem run_advance (ts : List Token) (s : State) :
    run (advance ts) s = some (.ok (ts.drop s.place).head?, { s with place := s.place + 1 }) := by
  rw [List.head?_drop]
  rfl

/-- What is behind a token is read from the next place on. -/
theorem drop_succ {place : Nat} {t : Token} {rest : List Token}
    (h : ts.drop place = t :: rest) : ts.drop (place + 1) = rest ∧ place < ts.length := by
  have hlt : place < ts.length := by
    refine Nat.lt_of_not_le fun hle => ?_
    rw [List.drop_eq_nil_of_le hle] at h
    cases h
  rw [List.drop_eq_getElem_cons hlt] at h
  exact ⟨(List.cons.inj h).2, hlt⟩

theorem run_eatKeyword (bound : String → Bool) (ts : List Token) (keyword : String) (s : State) :
    run (eatKeyword bound ts keyword) s =
    if isKeywordAt bound ts s.place keyword then some (.ok true, { s with place := s.place + 1 })
    else some (.ok false, s) := by
  have hrun : run (eatKeyword bound ts keyword) s =
      run (if isKeywordAt bound ts s.place keyword then do skip; return true else return false) s :=
    rfl
  rw [hrun]
  split <;> rfl

theorem isKeywordAt_eq (place : Nat) (keyword : String) : isKeywordAt bound ts place keyword =
    (ts.drop place).head?.any (Parser.isKeyword bound keyword) := by
  rw [List.head?_drop]
  rfl

theorem run_comparisonAt (s : State) : run (comparisonAt bound ts) s =
    if isKeywordAt bound ts s.place "is" then
      if isKeywordAt bound ts (s.place + 1) "not" then
        some (.ok (some .isNot), { s with place := s.place + 1 })
      else some (.ok (some .is), s)
    else some (.ok ((ts.drop s.place).head?.bind Parser.comparison?), s) := by
  have hrun : run (comparisonAt bound ts) s =
      run (if isKeywordAt bound ts s.place "is" then
        if isKeywordAt bound ts (s.place + 1) "not" then do skip; return some .isNot
        else return some .is
      else return ts[s.place]?.bind Parser.comparison?) s := rfl
  rw [hrun, List.head?_drop]
  split
  · split <;> rfl
  · rfl

theorem run_comparisonAt_of_eq_none (h : Parser.compare? bound (ts.drop s.place) = none) :
    run (comparisonAt bound ts) s = some (.ok none, s) := by
  rw [run_comparisonAt, isKeywordAt_eq]
  generalize ts.drop s.place = rest at h
  cases rest with
  | nil => rfl
  | cons t rest =>
      rw [Parser.compare?_cons] at h
      by_cases his : Parser.isKeyword bound "is" t = true
      · rw [if_pos his] at h
        cases rest with
        | nil => cases h
        | cons u rest =>
            dsimp only at h
            split at h <;> cases h
      · rw [if_neg his, Option.map_eq_none_iff] at h
        rw [List.head?_cons, Option.any_some, if_neg his, Option.bind_some, h]

theorem run_comparisonAt_of_eq_some {op : CompareOp} {rest : List Token}
    (h : Parser.compare? bound (ts.drop s.place) = some (op, rest)) :
    ∃ place, run (comparisonAt bound ts) s = some (.ok (some op), { s with place }) ∧
      s.place ≤ place ∧ place < ts.length ∧ ts.drop (place + 1) = rest := by
  rw [run_comparisonAt, isKeywordAt_eq, isKeywordAt_eq]
  generalize hrest : ts.drop s.place = us at h
  cases us with
  | nil => cases h
  | cons t us =>
      obtain ⟨rfl, hlt⟩ := drop_succ hrest
      rw [List.head?_cons, Option.any_some]
      rw [Parser.compare?_cons] at h
      by_cases his : Parser.isKeyword bound "is" t = true
      · rw [if_pos his] at h
        rw [if_pos his]
        generalize hrest' : ts.drop (s.place + 1) = vs at h
        cases vs with
        | nil =>
            obtain ⟨rfl, rfl⟩ := Prod.mk.inj (Option.some.inj h)
            exact ⟨s.place, rfl, Nat.le_refl _, hlt, hrest'⟩
        | cons u vs =>
            obtain ⟨hvs, hlt'⟩ := drop_succ hrest'
            rw [List.head?_cons, Option.any_some]
            dsimp only at h
            split at h
            · rename_i hnot
              obtain ⟨rfl, rfl⟩ := Prod.mk.inj (Option.some.inj h)
              exact ⟨s.place + 1, if_pos hnot, Nat.le_succ _, hlt', hvs⟩
            · rename_i hnot
              obtain ⟨rfl, rfl⟩ := Prod.mk.inj (Option.some.inj h)
              exact ⟨s.place, if_neg hnot, Nat.le_refl _, hlt, hrest'⟩
      · rw [if_neg his] at h
        rw [if_neg his, Option.bind_some]
        obtain ⟨op', hop, heq⟩ := Option.map_eq_some_iff.mp h
        obtain ⟨rfl, rfl⟩ := Prod.mk.inj heq
        exact ⟨s.place, by rw [hop], Nat.le_refl _, hlt, rfl⟩

section

variable {depth : Nat} {deeper : Option Parser.Readers}
  (hd : FollowedBelow bound ts depth deeper)
include hd

theorem follows_descend (hs : s.depth = depth) {f : Unit → Walk α}
    {g : Parser.Readers → Except ParseError (α × List Token)}
    (h : ∀ readers, Followed bound ts (depth + 1) readers →
      Follows ts depth (f ()) { s with depth := depth + 1 } after (g readers)) :
    Follows ts depth (descend >>= f) s after (Parser.descend deeper >>= g) := by
  subst hs
  cases deeper with
  | none =>
      have hlimit : s.depth = maxDepth := hd
      have hrun : run descend s =
          some (.error (.refused .tooDeep), { s with depth := s.depth + 1 }) := by
        rw [run_descend, if_pos (by omega)]
        rfl
      exact .error (run_bind_of_eq_error hrun) (callsWithin_of_eq rfl)
  | some readers =>
      obtain ⟨hlt, hreaders⟩ := hd
      have hrun : run descend s = some (.ok (), { s with depth := s.depth + 1 }) := by
        rw [run_descend, if_neg (by omega)]
        rfl
      exact (h readers hreaders).step hrun rfl

/-- An operand that is one deeper. -/
theorem follows_operand {operand : Level} {f : Expr → Walk α}
    {g : Parser.Readers → Expr × List Token → Except ParseError (α × List Token)}
    (hs : s.depth = depth)
    (h : ∀ readers, Followed bound ts (depth + 1) readers → ∀ e s', s'.depth = depth + 1 →
      s.place < s'.place → s'.place ≤ ts.length →
        Follows ts depth (f e) s' after (g readers (e, ts.drop s'.place))) :
    Follows ts depth (do descend; let e ← operand.read bound ts; f e) s after (do
      let readers ← Parser.descend deeper
      let r ← readers.expr operand (ts.drop s.place)
      g readers r) := by
  refine follows_descend hd hs fun readers hreaders => ?_
  have hoperand := hreaders.expr operand (s := ⟨s.place, depth + 1, s.calls⟩) rfl
  exact (hoperand.mono (Nat.le_succ depth) fun _ h => h).bind fun e s' hs' =>
    h readers hreaders e s' hs'.depth hs'.advances hs'.inside

/-! ## Chains -/

theorem follows_goOn {level operand : Level} {left : Expr} (hs : s.depth = depth)
    (hplace : s.place ≤ ts.length) :
    Follows ts depth (level.goOn bound ts operand left) s (GoesOn ts s)
      (Parser.chain bound deeper level operand left (ts.drop s.place)) := by
  have hstay : GoesOn ts s s := ⟨Nat.le_refl _, Nat.le_refl _, hplace⟩
  rw [Level.goOn]
  refine Follows.step ?_ (run_peek ts s) rfl
  generalize hrest : ts.drop s.place = rest
  cases rest with
  | nil => exact follows_pure hrest hstay
  | cons t rest =>
      obtain ⟨rfl, hlt⟩ := drop_succ hrest
      rw [Parser.chain, List.head?_cons, Option.bind_some]
      cases Parser.joint? bound level t with
      | none => exact follows_pure hrest hstay
      | some join =>
          refine Follows.step ?_ (run_skip s) rfl
          refine follows_operand hd (s := ⟨s.place + 1, s.depth, s.calls⟩) hs
            fun readers hreaders right s' hdepth hplace' hinside => ?_
          have hchain := hreaders.chain level operand (join left right) hdepth hinside
          refine hchain.mono (Nat.le_succ depth) fun s'' hs'' => hs''.of_le ?_ ?_
          · omega
          · dsimp only at hplace'
            omega

theorem follows_readLinks (hs : s.depth = depth) (hplace : s.place ≤ ts.length) :
    Follows ts depth (Level.sum.readLinks bound ts) s (GoesOn ts s)
      (Parser.links bound deeper (ts.drop s.place)) := by
  rw [Level.readLinks, Parser.links]
  cases hop : Parser.compare? bound (ts.drop s.place) with
  | none =>
      refine Follows.step ?_ (run_comparisonAt_of_eq_none hop) rfl
      exact follows_pure rfl ⟨Nat.le_refl _, Nat.le_refl _, hplace⟩
  | some found =>
      obtain ⟨op, rest⟩ := found
      obtain ⟨place, hrun, hle, hlt, rfl⟩ := run_comparisonAt_of_eq_some hop
      refine Follows.step ?_ hrun rfl
      refine Follows.step ?_ (run_skip _) rfl
      refine follows_operand hd (s := ⟨place + 1, s.depth, s.calls⟩) hs
        fun readers hreaders operand s' hdepth hplace' hinside => ?_
      have hlinks := hreaders.links hdepth hinside
      refine (hlinks.mono (Nat.le_succ depth) fun s'' hs'' => hs''.of_le ?_ ?_).bind
        fun links s'' hs'' => follows_pure rfl hs''
      · omega
      · dsimp only at hplace'
        omega

theorem follows_readChain {level operand : Level} {left : Parser.Reader Expr}
    (hs : s.depth = depth)
    (hleft : Follows ts depth (operand.read bound ts) s (Returns ts s)
      (left (ts.drop s.place))) :
    Follows ts depth (level.readChain bound ts operand) s (Returns ts s) (do
      let (l, rest) ← left (ts.drop s.place)
      Parser.chain bound deeper level operand l rest) := by
  rw [Level.readChain]
  refine Follows.step ?_ (run_get s) rfl
  refine hleft.bind fun l s' hs' => ?_
  refine (follows_goOn hd (hs'.depth.trans hs) hs'.inside).finish fun e s'' hs'' => ?_
  refine Follows.step ?_ (run_restore s.depth s'') rfl
  exact follows_pure rfl
    ⟨rfl, Nat.lt_of_lt_of_le hs'.advances hs''.advances, hs''.inside⟩

/-! ## Levels -/

theorem follows_enter {level : Level} {f : Unit → Walk α} {reader : Parser.Reader α}
    (h : ∀ s', s'.depth = depth →
      Follows ts depth (f ()) s' (Returns ts s') (reader (ts.drop s'.place)))
    (hs : s.depth = depth) :
    Follows ts depth (enter level >>= f) s (Returns ts s) (reader (ts.drop s.place)) := by
  subst hs
  have hcall : CallsWithin s.depth s { s with calls := (level, s.depth) :: s.calls } :=
    ⟨[(level, s.depth)], rfl, fun c hc => by
      rw [List.mem_singleton.mp hc]
      exact ⟨Nat.le_refl _, hd.le⟩⟩
  have hbody := h { s with calls := (level, s.depth) :: s.calls } rfl
  dsimp only at hbody
  generalize reader (ts.drop s.place) = x at hbody ⊢
  cases hbody with
  | ok hrun hwithin hafter =>
      exact .ok ((run_bind_of_eq_ok rfl).trans hrun) (hcall.trans hwithin)
        (hafter.of_le rfl (Nat.le_refl _))
  | error hrun hwithin => exact .error ((run_bind_of_eq_ok rfl).trans hrun) (hcall.trans hwithin)

/-- A chain level follows its reader if the level of its operands does. -/
theorem follows_chained {level operand : Level} {left reader : Parser.Reader Expr}
    (hread : level.read bound ts = do enter level; level.readChain bound ts operand)
    (hreader : reader = fun us => do
      let (l, rest) ← left us
      Parser.chain bound deeper level operand l rest)
    (hleft : ∀ s, s.depth = depth → Follows ts depth (operand.read bound ts) s (Returns ts s)
      (left (ts.drop s.place)))
    (hs : s.depth = depth) :
    Follows ts depth (level.read bound ts) s (Returns ts s) (reader (ts.drop s.place)) := by
  rw [hread]
  refine follows_enter hd (fun s₁ hs₁ => ?_) hs
  rw [hreader]
  exact follows_readChain hd hs₁ (hleft s₁ hs₁)

/-- The operand of an operator in front of it, once the operator was passed. -/
theorem follows_prefixed {level : Level} (op : UnaryOp) (hs : s.depth = depth) :
    Follows ts depth (do
      descend
      let operand ← level.read bound ts
      ascend
      return Expr.unary op operand) { s with place := s.place + 1 } (Returns ts s) (do
      let readers ← Parser.descend deeper
      let (operand, rest) ← readers.expr level (ts.drop (s.place + 1))
      return (Expr.unary op operand, rest)) := by
  refine follows_operand hd (s := { s with place := s.place + 1 }) hs
    fun readers _ operand s' hdepth hplace hinside => ?_
  refine Follows.step ?_ (run_ascend (s := s') (by omega)) rfl
  refine follows_pure rfl ⟨?_, Nat.lt_of_succ_lt hplace, hinside⟩
  show s'.depth - 1 = s.depth
  omega

theorem follows_primary (hs : s.depth = depth) :
    Follows ts depth (Level.primary.read bound ts) s (Returns ts s)
      (Parser.primary bound deeper (ts.drop s.place)) := by
  rw [Level.read]
  refine follows_enter hd (fun s₁ hs₁ => ?_) hs
  refine Follows.step ?_ (run_advance ts s₁) rfl
  generalize hrest : ts.drop s₁.place = rest
  cases rest with
  | nil => exact follows_refuse .unexpectedEnd
  | cons t rest =>
      obtain ⟨rfl, hlt⟩ := drop_succ hrest
      have hreturns : Returns ts s₁ { s₁ with place := s₁.place + 1 } :=
        ⟨rfl, Nat.lt_succ_self _, hlt⟩
      cases t with
      | integer n => exact follows_pure rfl hreturns
      | float x => exact follows_pure rfl hreturns
      | text w => exact follows_pure rfl hreturns
      | word w =>
          rw [Parser.primary_word, List.head?_cons]
          unfold leaf
          dsimp only
          cases Parser.ofWord bound w with
          | ok e => exact follows_pure rfl hreturns
          | error e => exact follows_refuse e
      | openParen =>
          rw [Parser.primary_openParen]
          refine follows_operand hd (s := { s₁ with place := s₁.place + 1 }) hs₁
            fun readers _ inner s₂ hdepth hplace' hinside => ?_
          refine Follows.step ?_ (run_ascend (s := s₂) (by omega)) rfl
          refine Follows.step ?_ (run_advance ts _) rfl
          dsimp only at hplace' ⊢
          generalize hrest' : ts.drop s₂.place = rest'
          cases rest' with
          | nil => exact follows_refuse .unclosedParen
          | cons u rest' =>
              obtain ⟨rfl, hlt'⟩ := drop_succ hrest'
              cases u with
              | closeParen =>
                  refine follows_pure rfl ⟨?_, ?_, hlt'⟩
                  · show s₂.depth - 1 = s₁.depth
                    omega
                  · show s₁.place < s₂.place + 1
                    omega
              | _ => exact follows_refuse .unclosedParen
      | _ => exact follows_refuse (.unexpectedToken _)

theorem follows_sign (hs : s.depth = depth) :
    Follows ts depth (Level.sign.read bound ts) s (Returns ts s)
      (Parser.signed bound deeper (ts.drop s.place)) := by
  rw [Level.read]
  refine follows_enter hd (fun s₁ hs₁ => ?_) hs
  have hprimary := follows_primary hd hs₁
  refine Follows.step ?_ (run_peek ts s₁) rfl
  generalize hrest : ts.drop s₁.place = rest at hprimary ⊢
  cases rest with
  | nil => exact hprimary
  | cons t rest =>
      obtain ⟨rfl, hlt⟩ := drop_succ hrest
      rw [Parser.signed, List.head?_cons, Option.bind_some]
      cases Parser.sign? t with
      | none => exact hprimary
      | some op =>
          refine Follows.step ?_ (run_skip s₁) rfl
          exact follows_prefixed hd op hs₁

theorem follows_product (hs : s.depth = depth) :
    Follows ts depth (Level.product.read bound ts) s (Returns ts s)
      (Parser.product bound deeper (ts.drop s.place)) :=
  follows_chained hd (by rw [Level.read]) rfl (fun _ => follows_sign hd) hs

theorem follows_sum (hs : s.depth = depth) :
    Follows ts depth (Level.sum.read bound ts) s (Returns ts s)
      (Parser.sum bound deeper (ts.drop s.place)) :=
  follows_chained hd (by rw [Level.read]) rfl (fun _ => follows_product hd) hs

theorem follows_comparison (hs : s.depth = depth) :
    Follows ts depth (Level.comparison.read bound ts) s (Returns ts s)
      (Parser.comparison bound deeper (ts.drop s.place)) := by
  rw [Level.read]
  refine follows_enter hd (fun s₁ hs₁ => ?_) hs
  refine Follows.step ?_ (run_get s₁) rfl
  refine (follows_sum hd hs₁).bind fun first s₂ hs₂ => ?_
  refine (follows_readLinks hd (hs₂.depth.trans hs₁) hs₂.inside).bind fun links s₃ hs₃ => ?_
  refine Follows.step ?_ (run_restore s₁.depth s₃) rfl
  exact follows_pure rfl ⟨rfl, Nat.lt_of_lt_of_le hs₂.advances hs₃.advances, hs₃.inside⟩

theorem follows_not (hs : s.depth = depth) :
    Follows ts depth (Level.not.read bound ts) s (Returns ts s)
      (Parser.negated bound deeper (ts.drop s.place)) := by
  rw [Level.read]
  refine follows_enter hd (fun s₁ hs₁ => ?_) hs
  have hcomparison := follows_comparison hd hs₁
  have hrun := run_eatKeyword bound ts "not" s₁
  rw [isKeywordAt_eq] at hrun
  generalize hrest : ts.drop s₁.place = rest at hcomparison hrun ⊢
  cases rest with
  | nil =>
      refine Follows.step ?_ hrun rfl
      exact hcomparison
  | cons t rest =>
      obtain ⟨rfl, hlt⟩ := drop_succ hrest
      rw [List.head?_cons, Option.any_some] at hrun
      rw [Parser.negated]
      by_cases hnot : Parser.isKeyword bound "not" t = true
      · rw [if_pos hnot] at hrun ⊢
        refine Follows.step ?_ hrun rfl
        exact follows_prefixed hd .not hs₁
      · rw [if_neg hnot] at hrun ⊢
        refine Follows.step ?_ hrun rfl
        exact hcomparison

theorem follows_and (hs : s.depth = depth) :
    Follows ts depth (Level.and.read bound ts) s (Returns ts s)
      (Parser.conjunction bound deeper (ts.drop s.place)) :=
  follows_chained hd (by rw [Level.read]) rfl (fun _ => follows_not hd) hs

theorem follows_or (hs : s.depth = depth) :
    Follows ts depth (Level.or.read bound ts) s (Returns ts s)
      (Parser.disjunction bound deeper (ts.drop s.place)) :=
  follows_chained hd (by rw [Level.read]) rfl (fun _ => follows_and hd) hs

/-- Walks that follow the readers one deeper follow those above them. -/
theorem followed_ascend : Followed bound ts depth (Parser.ascend bound deeper) where
  expr level _ hs :=
    match level with
    | .or => follows_or hd hs
    | .and => follows_and hd hs
    | .not => follows_not hd hs
    | .comparison => follows_comparison hd hs
    | .sum => follows_sum hd hs
    | .product => follows_product hd hs
    | .sign => follows_sign hd hs
    | .primary => follows_primary hd hs
  chain _ _ _ _ hs hplace := follows_goOn hd hs hplace
  links hs hplace := follows_readLinks hd hs hplace

end

/-- The budget of the readers is what is left of the depth, and one deeper there is one less of
it. -/
theorem followed_readers {depth budget : Nat} (h : depth + budget = maxDepth) :
    Followed bound ts depth (Parser.readers bound budget) := by
  induction budget generalizing depth with
  | zero =>
      have hlimit : FollowedBelow bound ts depth none := h
      exact followed_ascend hlimit
  | succ budget ih => exact followed_ascend ⟨by omega, ih (by omega)⟩

theorem follows_read (bound : String → Bool) (ts : List Token) (level : Level) {s : State}
    (h : s.depth ≤ maxDepth) :
    Follows ts s.depth (level.read bound ts) s (Returns ts s)
      ((Parser.readers bound (maxDepth - s.depth)).expr level (ts.drop s.place)) :=
  (followed_readers (Nat.add_sub_cancel' h)).expr level rfl

/-- From every place and from every depth up to the limit the walk of a level ends, and never goes
up from depth zero. Every level on the way is called at a depth from that of the beginning up to the
limit. If the walk gives an expression, then it passed at least one token and none behind the last
one, and it is at the depth at which it began. -/
theorem read_restores_depth (bound : String → Bool) (ts : List Token) (level : Level) (s : State)
    (h : s.depth ≤ maxDepth) :
    ∃ outcome s', run (level.read bound ts) s = some (outcome, s') ∧
      outcome ≠ .error .underflow ∧ CallsWithin s.depth s s' ∧
        ∀ e, outcome = .ok e →
          s.place < s'.place ∧ s'.place ≤ ts.length ∧ s'.depth = s.depth := by
  have hfollows := follows_read bound ts level h
  generalize (Parser.readers bound (maxDepth - s.depth)).expr level (ts.drop s.place) = x
    at hfollows
  cases hfollows with
  | @ok e s' hrun hwithin hs' =>
      exact ⟨.ok e, s', hrun, nofun, hwithin, fun _ _ => ⟨hs'.advances, hs'.inside, hs'.depth⟩⟩
  | @error e s' hrun hwithin => exact ⟨.error (.refused e), s', hrun, nofun, hwithin, nofun⟩

theorem read_restores_depth_behind_bracket : ∃ e s',
    (State.mk 1 199 []).depth ≤ maxDepth ∧
      run (Level.sign.read (fun _ => false) [.minus, .openParen, .integer 7, .closeParen, .star])
        ⟨1, 199, []⟩ = some (.ok e, s') ∧
      1 < s'.place ∧ s'.place ≤ 5 ∧ s'.depth = 199 := by
  have hdepth : (State.mk 1 199 []).depth ≤ maxDepth := by decide
  obtain ⟨outcome, s', hrun, -, -, hok⟩ := read_restores_depth (fun _ => false)
    [.minus, .openParen, .integer 7, .closeParen, .star] .sign ⟨1, 199, []⟩ hdepth
  obtain ⟨s'', hrun'⟩ := (follows_read _ _ _ hdepth).run_eq
  have hresult := Option.some.inj (hrun.symm.trans hrun')
  have houtcome : outcome = .ok (.literal (.integer 7)) := congrArg Prod.fst hresult
  subst houtcome
  exact ⟨_, s', hdepth, hrun, hok _ rfl⟩

/-! ## Whole walks -/

theorem ofTokens_cons (bound : String → Bool) (t : Token) (ts : List Token) :
    (Expr.ofTokens bound (t :: ts)).map (fun e => (e, ([] : List Token))) = (do
      let (e, rest) ← (Parser.readers bound maxDepth).expr .or (t :: ts)
      match rest with
      | [] => .ok (e, [])
      | u :: _ => .error (.unexpectedToken u)) := by
  unfold Expr.ofTokens
  dsimp only
  generalize (Parser.readers bound maxDepth).expr .or (t :: ts) = x
  cases x with
  | error e => rfl
  | ok r =>
      obtain ⟨e, rest⟩ := r
      cases rest <;> rfl

theorem follows_readAll (bound : String → Bool) (ts : List Token) :
    Follows ts 0 (readAll bound ts) State.start (fun _ => True)
      ((Expr.ofTokens bound ts).map fun e => (e, [])) := by
  cases ts with
  | nil => exact .error rfl (callsWithin_of_eq rfl)
  | cons t ts =>
      have hfollows := follows_read bound (t :: ts) .or (s := .start) (Nat.zero_le maxDepth)
      rw [ofTokens_cons]
      refine hfollows.bind fun e s' _ => ?_
      refine Follows.step ?_ (run_peek (t :: ts) s') rfl
      generalize hrest : (t :: ts).drop s'.place = rest
      cases rest with
      | nil => exact follows_pure hrest trivial
      | cons u rest => exact follows_refuse (.unexpectedToken u)

/-- The walk along all tokens gives what the readers give. -/
theorem run_readAll (bound : String → Bool) (ts : List Token) :
    ∃ s', run (readAll bound ts) State.start =
      some ((Expr.ofTokens bound ts).mapError .refused, s') := by
  obtain ⟨s', hrun⟩ := (follows_readAll bound ts).run_eq
  refine ⟨s', hrun.trans ?_⟩
  cases Expr.ofTokens bound ts <;> rfl

end LineShell.Walk
