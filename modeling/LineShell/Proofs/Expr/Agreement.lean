import LineShell.Proofs.Expr.Completeness

/-!
# Reading renamed tokens

Let the words of the tokens be renamed, so that those that are bound stay bound and all others stay
as they are (`Fits`). Two runs of the readers are compared, one on the tokens and one on the renamed
tokens. They *agree* (`Agrees`) if they read the same up to the names and leave the same up to the
names, or fail for the same reason. Every question that a reader asks about a token has the same
answer on both sides (`isKeyword_rename`, `joint?_rename`, `compare?_rename`, `agrees_ofWord`),
because a token is a keyword only while its name is not bound, and such names stay. So the readers
of every budget agree (`renames_readers`), by induction on the budget.
-/

namespace LineShell

/-! ## Renaming -/

def Token.rename (ρ : String → String) : Token → Token
  | .word w => .word (ρ w)
  | t => t

def ParseError.rename (ρ : String → String) : ParseError → ParseError
  | .unexpectedToken t => .unexpectedToken (t.rename ρ)
  | e => e

namespace Expr

def rename (ρ : String → String) : Expr → Expr
  | .literal v => .literal v
  | .variable w => .variable (ρ w)
  | .unary op e => .unary op (e.rename ρ)
  | .binary op l r => .binary op (l.rename ρ) (r.rename ρ)
  | .compare e links => .compare (e.rename ρ) (renameLinks links)
  | .and l r => .and (l.rename ρ) (r.rename ρ)
  | .or l r => .or (l.rename ρ) (r.rename ρ)
where
  /-- The links with their operands renamed. -/
  renameLinks : List (CompareOp × Expr) → List (CompareOp × Expr)
    | [] => []
    | (op, e) :: links => (op, e.rename ρ) :: renameLinks links

end Expr

namespace Parser

open Grammar

variable {bound bound' : String → Bool} {ρ : String → String} {t : Token} {ts : List Token}

/-! ## Questions about tokens -/

variable (bound bound' ρ) in
/-- The words of the tokens are bound after the renaming if they were before, and those that are not
bound stay. -/
def Fits (ts : List Token) : Prop :=
  ∀ w, .word w ∈ ts → bound' (ρ w) = bound w ∧ (bound w = false → ρ w = w)

theorem Fits.tail (h : Fits bound bound' ρ (t :: ts)) : Fits bound bound' ρ ts :=
  fun w hw => h w (List.mem_cons_of_mem t hw)

theorem isKeyword_rename (h : Fits bound bound' ρ (t :: ts)) (keyword : String) :
    isKeyword bound' keyword (t.rename ρ) = isKeyword bound keyword t := by
  cases t with
  | word w =>
      obtain ⟨hbound, hfixed⟩ := h w List.mem_cons_self
      show (ρ w == keyword && !bound' (ρ w)) = (w == keyword && !bound w)
      rw [hbound]
      cases hw : bound w with
      | true => rw [Bool.not_true, Bool.and_false, Bool.and_false]
      | false => rw [hfixed hw]
  | _ => rfl

theorem sign?_rename (ρ : String → String) (t : Token) : sign? (t.rename ρ) = sign? t := by
  cases t <;> rfl

theorem comparison?_rename (ρ : String → String) (t : Token) :
    comparison? (t.rename ρ) = comparison? t := by
  cases t <;> rfl

theorem joint?_rename (h : Fits bound bound' ρ (t :: ts)) (level : Level) :
    joint? bound' level (t.rename ρ) = joint? bound level t := by
  have hor := isKeyword_rename h "or"
  have hand := isKeyword_rename h "and"
  cases level with
  | or => rw [joint?, joint?, hor]
  | and => rw [joint?, joint?, hand]
  | sum | product => cases t <;> rfl
  | not | comparison | sign | primary => rfl

theorem compare?_cons (bound : String → Bool) (t : Token) (ts : List Token) :
    compare? bound (t :: ts) =
      if isKeyword bound "is" t then
        match ts with
        | u :: us => if isKeyword bound "not" u then some (.isNot, us) else some (.is, ts)
        | [] => some (.is, [])
      else (comparison? t).map fun op => (op, ts) := rfl

/-- The words `is` and `not` are looked at one after the other, and each of them stays or does
not. -/
theorem compare?_rename (h : Fits bound bound' ρ ts) :
    compare? bound' (ts.map (Token.rename ρ)) =
      (compare? bound ts).map fun c => (c.1, c.2.map (Token.rename ρ)) := by
  cases ts with
  | nil => rfl
  | cons t us =>
      rw [List.map_cons, compare?_cons, compare?_cons, isKeyword_rename h]
      split
      · cases us with
        | nil => rfl
        | cons u vs =>
            rw [List.map_cons]
            dsimp only
            rw [isKeyword_rename h.tail]
            split <;> rfl
      · rw [comparison?_rename, Option.map_map]
        rfl

theorem rename_joint {level : Level} {join : Expr → Expr → Expr}
    (h : joint? bound level t = some join) (l r : Expr) :
    (join l r).rename ρ = join (l.rename ρ) (r.rename ρ) := by
  cases joint?_eq_some.mp h <;> rfl

/-! ## Agreement -/

variable (bound bound' ρ) in
/-- Two results of reading are the same up to the names; `f` renames what was read. -/
inductive Agrees {α : Type} (f : α → α) :
    Except ParseError (α × List Token) → Except ParseError (α × List Token) → Prop
  | ok (a : α) {ts : List Token} :
      Fits bound bound' ρ ts → Agrees f (.ok (a, ts)) (.ok (f a, ts.map (Token.rename ρ)))
  | error (e : ParseError) : Agrees f (.error e) (.error (e.rename ρ))

theorem Agrees.bind {α β : Type} {f : α → α} {g : β → β}
    {x x' : Except ParseError (α × List Token)}
    {k k' : α × List Token → Except ParseError (β × List Token)}
    (h : Agrees bound bound' ρ f x x')
    (hk : ∀ a ts, Fits bound bound' ρ ts →
      Agrees bound bound' ρ g (k (a, ts)) (k' (f a, ts.map (Token.rename ρ)))) :
    Agrees bound bound' ρ g (x >>= k) (x' >>= k') := by
  cases h with
  | ok a hts => exact hk a _ hts
  | error e => exact .error e

variable (bound bound' ρ) in
/-- Readers that agree on tokens that fit. -/
structure Renames (readers readers' : Readers) : Prop where
  expr (level : Level) {ts : List Token} : Fits bound bound' ρ ts →
    Agrees bound bound' ρ (Expr.rename ρ) (readers.expr level ts)
      (readers'.expr level (ts.map (Token.rename ρ)))
  chain (level operand : Level) (left : Expr) {ts : List Token} : Fits bound bound' ρ ts →
    Agrees bound bound' ρ (Expr.rename ρ) (readers.chain level operand left ts)
      (readers'.chain level operand (left.rename ρ) (ts.map (Token.rename ρ)))
  links {ts : List Token} : Fits bound bound' ρ ts →
    Agrees bound bound' ρ (Expr.rename.renameLinks ρ) (readers.links ts)
      (readers'.links (ts.map (Token.rename ρ)))

section

variable {deeper deeper' : Option Readers}
  (hd : Option.Rel (Renames bound bound' ρ) deeper deeper')
include hd

theorem Agrees.descend {α : Type} {f : α → α}
    {k k' : Readers → Except ParseError (α × List Token)}
    (hk : ∀ r r', Renames bound bound' ρ r r' → Agrees bound bound' ρ f (k r) (k' r')) :
    Agrees bound bound' ρ f (descend deeper >>= k) (descend deeper' >>= k') := by
  cases hd with
  | none => exact .error .tooDeep
  | some hr => exact hk _ _ hr

theorem agrees_chain (level operand : Level) (left : Expr) (hts : Fits bound bound' ρ ts) :
    Agrees bound bound' ρ (Expr.rename ρ) (chain bound deeper level operand left ts)
      (chain bound' deeper' level operand (left.rename ρ) (ts.map (Token.rename ρ))) := by
  cases ts with
  | nil => exact .ok left hts
  | cons t ts =>
      rw [List.map_cons, chain, chain, joint?_rename hts]
      cases hj : joint? bound level t with
      | none => exact .ok left hts
      | some join =>
          refine .descend hd fun r r' hr => ?_
          refine (hr.expr operand hts.tail).bind fun right mid hmid => ?_
          have hjoin := rename_joint (ρ := ρ) hj left right
          dsimp only
          rw [← hjoin]
          exact hr.chain level operand (join left right) hmid

theorem agrees_links (hts : Fits bound bound' ρ ts) :
    Agrees bound bound' ρ (Expr.rename.renameLinks ρ) (links bound deeper ts)
      (links bound' deeper' (ts.map (Token.rename ρ))) := by
  rw [links, links, compare?_rename hts]
  cases hc : compare? bound ts with
  | none => exact .ok [] hts
  | some c =>
      obtain ⟨op, rest⟩ := c
      obtain ⟨sign, rfl, -⟩ := exists_of_compare?_eq_some hc
      have hrest : Fits bound bound' ρ rest := fun w hw => hts w (List.mem_append_right sign hw)
      refine .descend hd fun r r' hr => ?_
      refine (hr.expr .sum hrest).bind fun operand mid hmid => ?_
      exact (hr.links hmid).bind fun more mid' hmid' => .ok ((op, operand) :: more) hmid'

omit hd in
theorem agrees_ofWord {w : String} (hts : Fits bound bound' ρ (.word w :: ts)) :
    Agrees bound bound' ρ (Expr.rename ρ) (ofWord bound w >>= fun e => .ok (e, ts))
      (ofWord bound' (ρ w) >>= fun e => .ok (e, ts.map (Token.rename ρ))) := by
  obtain ⟨hbound, hfixed⟩ := hts w List.mem_cons_self
  rw [ofWord, ofWord, hbound]
  cases hw : bound w with
  | true => exact .ok (Expr.variable w) hts.tail
  | false =>
      rw [hfixed hw]
      have hname : (Expr.variable w).rename ρ = .variable w := by rw [Expr.rename, hfixed hw]
      by_cases htrue : w = "True"
      · rw [if_pos htrue]
        exact .ok (Expr.literal (.boolean true)) hts.tail
      by_cases hfalse : w = "False"
      · rw [if_neg htrue, if_pos hfalse]
        exact .ok (Expr.literal (.boolean false)) hts.tail
      by_cases hop : w = "and" ∨ w = "or" ∨ w = "not" ∨ w = "is"
      · rw [if_neg htrue, if_neg hfalse, if_pos hop]
        exact .error (.unexpectedKeyword w)
      · rw [if_neg htrue, if_neg hfalse, if_neg hop]
        have hok := Agrees.ok (f := Expr.rename ρ) (Expr.variable w) hts.tail
        rw [hname] at hok
        exact hok

theorem agrees_primary (hts : Fits bound bound' ρ ts) :
    Agrees bound bound' ρ (Expr.rename ρ) (primary bound deeper ts)
      (primary bound' deeper' (ts.map (Token.rename ρ))) := by
  cases ts with
  | nil => exact .error .unexpectedEnd
  | cons t ts =>
      cases t with
      | integer n => exact .ok (Expr.literal (.integer n)) hts.tail
      | float x => exact .ok (Expr.literal (.float x)) hts.tail
      | text s => exact .ok (Expr.literal (.text s)) hts.tail
      | word w =>
          rw [List.map_cons, Token.rename, primary_word, primary_word]
          exact agrees_ofWord hts
      | openParen =>
          rw [List.map_cons, Token.rename, primary_openParen, primary_openParen]
          · refine .descend hd fun r r' hr => ?_
            refine (hr.expr .or hts.tail).bind fun inner mid hmid => ?_
            cases mid with
            | nil => exact .error .unclosedParen
            | cons u mid =>
                cases u with
                | closeParen => exact .ok inner hmid.tail
                | _ => exact .error .unclosedParen
          · nofun
      | _ => exact .error (.unexpectedToken _)

theorem agrees_signed (hts : Fits bound bound' ρ ts) :
    Agrees bound bound' ρ (Expr.rename ρ) (signed bound deeper ts)
      (signed bound' deeper' (ts.map (Token.rename ρ))) := by
  cases ts with
  | nil => exact agrees_primary hd hts
  | cons t ts =>
      rw [List.map_cons, signed, signed, sign?_rename]
      cases sign? t with
      | none => exact agrees_primary hd hts
      | some op =>
          refine .descend hd fun r r' hr => ?_
          exact (hr.expr .sign hts.tail).bind fun operand mid hmid =>
            .ok (Expr.unary op operand) hmid

/-- A chain level agrees if the level of its operands does. -/
theorem agrees_chained (level operand : Level) {left left' : Reader Expr}
    (hleft : ∀ {ts}, Fits bound bound' ρ ts →
      Agrees bound bound' ρ (Expr.rename ρ) (left ts) (left' (ts.map (Token.rename ρ))))
    (hts : Fits bound bound' ρ ts) :
    Agrees bound bound' ρ (Expr.rename ρ)
      (do
        let (l, mid) ← left ts
        chain bound deeper level operand l mid)
      (do
        let (l, mid) ← left' (ts.map (Token.rename ρ))
        chain bound' deeper' level operand l mid) :=
  (hleft hts).bind fun l _ hmid => agrees_chain hd level operand l hmid

theorem agrees_product (hts : Fits bound bound' ρ ts) :
    Agrees bound bound' ρ (Expr.rename ρ) (product bound deeper ts)
      (product bound' deeper' (ts.map (Token.rename ρ))) :=
  agrees_chained hd .product .sign (agrees_signed hd) hts

theorem agrees_sum (hts : Fits bound bound' ρ ts) :
    Agrees bound bound' ρ (Expr.rename ρ) (sum bound deeper ts)
      (sum bound' deeper' (ts.map (Token.rename ρ))) :=
  agrees_chained hd .sum .product (agrees_product hd) hts

theorem agrees_comparison (hts : Fits bound bound' ρ ts) :
    Agrees bound bound' ρ (Expr.rename ρ) (comparison bound deeper ts)
      (comparison bound' deeper' (ts.map (Token.rename ρ))) := by
  refine (agrees_sum hd hts).bind fun first mid hmid => ?_
  refine (agrees_links hd hmid).bind fun links rest hrest => ?_
  cases links with
  | nil => exact .ok first hrest
  | cons l links => exact .ok (Expr.compare first (l :: links)) hrest

theorem agrees_negated (hts : Fits bound bound' ρ ts) :
    Agrees bound bound' ρ (Expr.rename ρ) (negated bound deeper ts)
      (negated bound' deeper' (ts.map (Token.rename ρ))) := by
  cases ts with
  | nil => exact agrees_comparison hd hts
  | cons t ts =>
      rw [List.map_cons, negated, negated, isKeyword_rename hts]
      split
      · refine .descend hd fun r r' hr => ?_
        exact (hr.expr .not hts.tail).bind fun operand mid hmid =>
          .ok (Expr.unary .not operand) hmid
      · exact agrees_comparison hd hts

theorem agrees_conjunction (hts : Fits bound bound' ρ ts) :
    Agrees bound bound' ρ (Expr.rename ρ) (conjunction bound deeper ts)
      (conjunction bound' deeper' (ts.map (Token.rename ρ))) :=
  agrees_chained hd .and .not (agrees_negated hd) hts

theorem agrees_disjunction (hts : Fits bound bound' ρ ts) :
    Agrees bound bound' ρ (Expr.rename ρ) (disjunction bound deeper ts)
      (disjunction bound' deeper' (ts.map (Token.rename ρ))) :=
  agrees_chained hd .or .and (agrees_conjunction hd) hts

/-- One budget up from readers that agree, the readers agree. -/
theorem renames_ascend : Renames bound bound' ρ (ascend bound deeper) (ascend bound' deeper') where
  expr level _ hts :=
    match level with
    | .or => agrees_disjunction hd hts
    | .and => agrees_conjunction hd hts
    | .not => agrees_negated hd hts
    | .comparison => agrees_comparison hd hts
    | .sum => agrees_sum hd hts
    | .product => agrees_product hd hts
    | .sign => agrees_signed hd hts
    | .primary => agrees_primary hd hts
  chain level operand left _ hts := agrees_chain hd level operand left hts
  links := agrees_links hd

end

theorem renames_readers (budget : Nat) :
    Renames bound bound' ρ (readers bound budget) (readers bound' budget) := by
  induction budget with
  | zero => exact renames_ascend .none
  | succ budget ih => exact renames_ascend (.some ih)

end Parser

namespace Expr

/-! ## Expressions -/

variable {bound bound' : String → Bool} {ρ : String → String}

/-- Renamed tokens are read as the renamed expression, or fail for the same reason. -/
theorem ofTokens_rename {ts : List Token} (hts : Parser.Fits bound bound' ρ ts) :
    ofTokens bound' (ts.map (Token.rename ρ)) =
      ((ofTokens bound ts).map (rename ρ)).mapError (ParseError.rename ρ) := by
  cases ts with
  | nil => rfl
  | cons t ts =>
      have hread := (Parser.renames_readers maxDepth).expr .or hts
      rw [List.map_cons] at hread ⊢
      unfold ofTokens
      dsimp only
      generalize (Parser.readers bound maxDepth).expr .or (t :: ts) = x at hread ⊢
      generalize (Parser.readers bound' maxDepth).expr .or (_ :: _) = x' at hread ⊢
      cases hread with
      | error e => rfl
      | @ok e rest => cases rest <;> rfl

end Expr

end LineShell
