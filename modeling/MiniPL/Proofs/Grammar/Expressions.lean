import MiniPL.Grammar.Program
import MiniPL.Proofs.Grammar.Language

/-!
# Reading expressions

The language of the reading of expressions are the tokens of the derivations of
expressions (`Reading.reads_expr`), and the tokens of such a derivation are taken, unless they
nest too deeply, if no operator follows them (`Reading.completes_expr`).
-/

namespace MiniPL

/-- The tokens of the derivations that describe an operand. -/
def Derivation.Operand.Derives (o : MiniPL.Operand Unit) (w : List Token) : Prop :=
  ∃ d : Derivation.Operand, d.tree = o ∧ d.tokens = w

/-- The tokens of the derivations that describe an expression. -/
def Derivation.Expr.Derives (e : MiniPL.Expr Unit) (w : List Token) : Prop :=
  ∃ d : Derivation.Expr, d.tree = e ∧ d.tokens = w

namespace Reading

variable {inner : Reading (Expr Unit)} {depth : Nat}

theorem steady_operand : Steady Derivation.Operand.Derives := by
  rintro o w ⟨d, -, rfl⟩ n
  exact Nat.le_of_eq (d.parens_tokens n).symm

theorem steady_expr : Steady Derivation.Expr.Derives := by
  rintro e w ⟨d, -, rfl⟩ n
  exact Nat.le_of_eq (d.parens_tokens n).symm

/-! ## What is read is derived -/

theorem reads_operand (h : inner.Reads Derivation.Expr.Derives depth) :
    (operand inner).Reads Derivation.Operand.Derives (depth + 1) where
  exists_word := ⟨_, _, .var .start "", rfl, rfl⟩
  readsAt ts q := by
    have hv : ∃ o w, Derivation.Operand.Derives o w := ⟨_, _, .var .start "", rfl, rfl⟩
    refine .peek_bind ?_
    rcases ts with _ | ⟨⟨l, p⟩, rest⟩
    · exact readsAt_refuse rfl rfl hv
    · cases l with
      | int s =>
        exact .advance_bind nofun (fun _ => Nat.le_refl _)
          (readsAt_pure ⟨.literal p (.int s), rfl, rfl⟩)
      | text s =>
        exact .advance_bind nofun (fun _ => Nat.le_refl _)
          (readsAt_pure ⟨.literal p (.text s), rfl, rfl⟩)
      | name x =>
        exact .advance_bind nofun (fun _ => Nat.le_refl _)
          (readsAt_pure ⟨.var p x, rfl, rfl⟩)
      | keyword k => exact readsAt_refuse rfl rfl hv
      | symbol s =>
        cases s with
        | openParen =>
          -- Inside, one parenthesis less may be opened, as this one is open already.
          have hgroup : (do let e ← inner
                            let _ ← expect (.symbol .closeParen)
                            return Operand.group p e : Reading (Operand Unit)).Reads
              (fun o u => Derivation.Operand.Derives o (Symbol.token .openParen p :: u)) depth := by
            refine h.bind steady_expr ?_
            rintro e w ⟨d, rfl, rfl⟩
            refine (reads_symbol .closeParen nofun).map ?_
            rintro q u rfl
            exact ⟨.group p d q, rfl, rfl⟩
          exact .advance_bind nofun (fun n => Nat.le_of_eq (Nat.add_right_comm n depth 1))
            (hgroup.readsAt rest q)
        | _ => exact readsAt_refuse rfl rfl hv

/-- A negated operand is read if no operator follows it. -/
theorem reads_negated (h : inner.Reads Derivation.Expr.Derives depth) (p : Pos) :
    (negated inner p).Reads
      (fun e w => Derivation.Expr.Derives e (Symbol.token .bang p :: w)) (depth + 1) := by
  refine (reads_operand h).bind steady_operand ?_
  rintro o w ⟨d, rfl, rfl⟩
  have hd : Derivation.Expr.Derives (.negation () p d.tree)
      (Symbol.token .bang p :: (d.tokens ++ [])) :=
    ⟨.negation p d, rfl, by simp [Derivation.Expr.tokens]⟩
  refine ⟨⟨_, [], hd⟩, fun ts q => ?_⟩
  refine .peek_bind (.bind_nil (takes_peekOperator _) ?_)
  -- An operator is refused here, though what comes before it is complete.
  split
  · exact readsAt_refuse rfl rfl ⟨_, [], hd⟩
  · exact readsAt_pure hd

theorem reads_joined (h : inner.Reads Derivation.Expr.Derives depth) :
    (joined inner).Reads Derivation.Expr.Derives (depth + 1) := by
  refine (reads_operand h).bind steady_operand ?_
  rintro o w ⟨l, rfl, rfl⟩
  have hl : Derivation.Expr.Derives (.single () l.tree) (l.tokens ++ []) :=
    ⟨.single l, rfl, by simp [Derivation.Expr.tokens]⟩
  refine ⟨⟨_, [], hl⟩, fun ts q => ?_⟩
  refine .bind_nil (takes_peekOperator _) ?_
  cases hop : (Item.first ts (.eof q)).operator? with
  | none => exact readsAt_pure hl
  | some a =>
    obtain ⟨op, p⟩ := a
    obtain ⟨rest, rfl⟩ := Item.exists_cons_of_first (Item.operator?_eq_some hop)
    have hright : (operand inner >>= fun r => pure (.binary () l.tree op p r)).Reads
        (fun e u => Derivation.Expr.Derives e (l.tokens ++ op.symbol.token p :: u))
        (depth + 1) := by
      refine (reads_operand h).map ?_
      rintro o u ⟨r, rfl, rfl⟩
      exact ⟨.binary l op p r, rfl, by simp [Derivation.Expr.tokens]⟩
    refine .advance_bind ?_ (fun n => ?_) (hright.readsAt rest q)
    · cases op <;> nofun
    · exact Nat.le_of_eq (by rw [Token.parens_binOp])

/-- Expressions are read, with less than `depth` parentheses open at a time. -/
theorem reads_exprWithin (depth : Nat) :
    (exprWithin depth).Reads Derivation.Expr.Derives depth := by
  have hv : ∃ e w, Derivation.Expr.Derives e w := ⟨_, _, .single (.var .start ""), rfl, rfl⟩
  induction depth with
  | zero =>
    -- As many parentheses are open as there may be, before anything is read.
    exact ⟨hv, fun ts q => .peek_bind
      ⟨[], ts, _, rfl, takes_refuse _ _ _, nofun, .deep fun n => Nat.le_refl n⟩⟩
  | succ depth ih =>
    refine ⟨hv, fun ts q => .peek_bind ?_⟩
    split
    · next p hp =>
      obtain ⟨rest, rfl⟩ := Item.exists_cons_of_first hp
      exact .advance_bind nofun (fun _ => Nat.le_refl _) ((reads_negated ih p).readsAt rest q)
    · exact (reads_joined ih).readsAt ts q

theorem reads_expr : expr.Reads Derivation.Expr.Derives (nestingLimit + 1) :=
  reads_exprWithin _

theorem Reads.expr_bind {β : Type} {L : β → List Token → Prop} {f : Expr Unit → Reading β}
    (hf : ∀ e : Derivation.Expr,
      (f e.tree).Reads (fun b u => L b (e.tokens ++ u)) (nestingLimit + 1)) :
    (expr >>= f).Reads L (nestingLimit + 1) := by
  refine reads_expr.bind steady_expr ?_
  rintro _ w ⟨e, rfl, rfl⟩
  exact hf e

/-! ## What is derived is read -/

/-- What starts with an operand is not negated. -/
theorem Completes.exprWithin {o : Derivation.Operand} {u : List Token} {next : Item}
    {e : Expr Unit} (h : (joined (exprWithin depth)).Completes (o.tokens ++ u) next e) :
    (Reading.exprWithin (depth + 1)).Completes (o.tokens ++ u) next e := by
  refine Takes.bind_completes (takes_peek _) ?_
  rcases o with ⟨p, l | l⟩ | _ | _ <;> exact h

mutual

theorem completes_operand (depth : Nat) (next : Item) : (o : Derivation.Operand) →
    (operand (exprWithin depth)).Completes o.tokens next o.tree
  | .literal p l => by
    refine Takes.bind_completes (takes_peek _) ?_
    cases l <;> exact (takes_advance _ _).cons_completes (takes_pure _ _).completes
  | .var p x =>
    Takes.bind_completes (takes_peek _)
      ((takes_advance _ _).cons_completes (takes_pure _ _).completes)
  | .group p e q => by
    rw [Derivation.Operand.tokens, List.append_assoc, List.singleton_append]
    refine Takes.bind_completes (takes_peek _) ((takes_advance _ _).cons_completes ?_)
    -- The closing parenthesis is no operator.
    refine .bind (completes_exprWithin depth _ ?_ e) (takes_symbol .closeParen q next).map.completes
    rfl

/-- The tokens of a derivation are taken, or nest too deeply, if no operator follows. -/
theorem completes_exprWithin (depth : Nat) (next : Item) (hn : next.operator? = none)
    (e : Derivation.Expr) : (exprWithin depth).Completes e.tokens next e.tree :=
  match depth, e with
  | 0, e => by
    intro l rest p _
    have h : (exprWithin 0).Takes [] (Item.first (e.tokens ++ rest) (.eof p)) _ :=
      (takes_peek _).bind_nil (takes_refuse _ _ _)
    exact Or.inr ⟨_, _, h l _ p rfl⟩
  | depth + 1, .single o => by
    have hjoined : (joined (exprWithin depth)).Completes (o.tokens ++ []) next
        (.single () o.tree) := by
      refine .bind (completes_operand depth _ o) (Takes.bind_completes (takes_peekOperator _) ?_)
      rw [Item.first_nil, hn]
      exact (takes_pure _ _).completes
    rw [Derivation.Expr.tokens, ← List.append_nil o.tokens]
    exact hjoined.exprWithin
  | depth + 1, .negation p o => by
    rw [Derivation.Expr.tokens, List.singleton_append, ← List.append_nil o.tokens]
    refine Takes.bind_completes (takes_peek _) ((takes_advance _ _).cons_completes ?_)
    refine .bind (completes_operand depth _ o) ?_
    refine Takes.bind_completes (takes_peek _) (Takes.bind_completes (takes_peekOperator _) ?_)
    rw [Item.first_nil, hn]
    exact (takes_pure _ _).completes
  | depth + 1, .binary l op p r => by
    have hjoined : (joined (exprWithin depth)).Completes (l.tokens ++ op.symbol.token p :: r.tokens)
        next (.binary () l.tree op p r.tree) := by
      refine .bind (completes_operand depth _ l) (Takes.bind_completes (takes_peekOperator _) ?_)
      rw [Item.first_cons, Item.operator?_token]
      exact (takes_advance _ _).cons_completes (completes_operand depth next r).map
    rw [Derivation.Expr.tokens, List.append_assoc, List.singleton_append]
    exact hjoined.exprWithin

end

theorem completes_expr (e : Derivation.Expr) {next : Item} (hn : next.operator? = none) :
    expr.Completes e.tokens next e.tree :=
  completes_exprWithin _ next hn e

/-! ## Lone expressions -/

/-- Gives `e` at the end of the program. -/
def atEnd (e : Expr Unit) : Reading (Expr Unit) :=
  peek >>= fun item =>
    match item with
    | .eof _ => pure e
    | item => refuse (.unexpected item.kind [.eof]) item.pos

/-- After a lone expression there may be a semicolon before the end. -/
theorem loneExpr_eq : loneExpr = expr >>= fun e => peek >>= fun item =>
    if item.kind = .symbol .semicolon then advance >>= fun _ => atEnd e else atEnd e := rfl

end Reading

end MiniPL
