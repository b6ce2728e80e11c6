import MiniPL.Proofs.Execution.Soundness
import MiniPL.Proofs.Program.Pieces

/-!
# Division

The quotient of two integers is rounded toward zero: together with a remainder that is smaller
than the divisor, and zero or of the sign of the dividend, it makes up the dividend (`Truncates`).
There is at most one such quotient (`Truncates.unique`), and for a divisor that is not zero it is
what is computed from the absolute values and the signs (`exists_quotient?_eq_some`).

So in a program that has passed its check, a division of `a` by `b` is a fault at its operator if
`b` is zero, and otherwise it evaluates to the truncated quotient; nothing else happens
(`runText_divides`).
-/

namespace MiniPL

/-- The integer `q` is the quotient of `a` and `b`, rounded toward zero: what is left is smaller
    than `b`, and it is zero or has the sign of `a`. -/
def Truncates (a b q : Int) : Prop :=
  ∃ r, a = q * b + r ∧ r.natAbs < b.natAbs ∧ (r = 0 ∨ r.sign = a.sign)

namespace Truncates

variable {a b q q' : Int}

/-- Two remainders of one dividend differ by less than the divisor, as they have the same sign. -/
theorem natAbs_sub_lt {a b r r' : Int} (hr : r.natAbs < b.natAbs) (hr' : r'.natAbs < b.natAbs)
    (hs : r = 0 ∨ r.sign = a.sign) (hs' : r' = 0 ∨ r'.sign = a.sign) :
    (r - r').natAbs < b.natAbs := by
  rcases hs with rfl | hs
  · rwa [Int.zero_sub, Int.natAbs_neg]
  rcases hs' with rfl | hs'
  · rwa [Int.sub_zero]
  have h : r.sign = r'.sign := hs.trans hs'.symm
  rcases Int.lt_trichotomy r' 0 with hneg | rfl | hpos
  · rw [Int.sign_eq_neg_one_of_neg hneg, Int.sign_eq_neg_one_iff_neg] at h
    omega
  · rwa [Int.sub_zero]
  · rw [Int.sign_eq_one_of_pos hpos, Int.sign_eq_one_iff_pos] at h
    omega

/-- Nothing is smaller than zero. -/
theorem ne_zero (h : Truncates a b q) : b ≠ 0 := by
  rintro rfl
  obtain ⟨r, -, hr, -⟩ := h
  exact Nat.not_lt_zero _ hr

theorem unique (h : Truncates a b q) (h' : Truncates a b q') : q' = q := by
  have hb := h.ne_zero
  obtain ⟨r, ha, hr, hs⟩ := h
  obtain ⟨r', ha', hr', hs'⟩ := h'
  -- The remainders differ by a multiple of the divisor, which is smaller than the divisor.
  have hsub : r - r' = (q' - q) * b := by
    rw [Int.sub_mul]
    omega
  have hzero : r - r' = 0 :=
    Int.eq_zero_of_dvd_of_natAbs_lt_natAbs ⟨q' - q, by rw [hsub, Int.mul_comm]⟩
      (natAbs_sub_lt hr hr' hs hs')
  rw [hzero] at hsub
  rcases Int.mul_eq_zero.1 hsub.symm with h | h
  · omega
  · exact absurd h hb

/-- Negating the dividend negates the quotient. -/
theorem neg_left (h : Truncates a b q) : Truncates (-a) b (-q) := by
  obtain ⟨r, ha, hr, hs⟩ := h
  refine ⟨-r, ?_, by rwa [Int.natAbs_neg], hs.imp (fun h => by rw [h]; rfl) fun h => ?_⟩
  · rw [Int.neg_mul]
    omega
  · rw [Int.sign_neg, Int.sign_neg, h]

/-- Negating the divisor negates the quotient too. -/
theorem neg_right (h : Truncates a b q) : Truncates a (-b) (-q) := by
  obtain ⟨r, ha, hr, hs⟩ := h
  exact ⟨r, by rw [Int.neg_mul_neg, ha], by rwa [Int.natAbs_neg], hs⟩

/-- Two natural numbers are divided as usual. -/
theorem natCast (m n : Nat) (hn : n ≠ 0) : Truncates m n (m / n : Nat) := by
  refine ⟨(m % n : Nat), ?_, Nat.mod_lt m (Nat.pos_of_ne_zero hn), ?_⟩
  · exact_mod_cast (Nat.div_add_mod' m n).symm
  · by_cases h : m % n = 0
    · exact .inl (by rw [h]; rfl)
    · have hm : m ≠ 0 := by
        rintro rfl
        exact h (Nat.zero_mod n)
      right
      rw [Int.sign_natCast_of_ne_zero h, Int.sign_natCast_of_ne_zero hm]

end Truncates

/-- The quotient that is computed is rounded toward zero. -/
theorem exists_quotient?_eq_some (a : Int) {b : Int} (hb : b ≠ 0) :
    ∃ q, quotient? a b = some q ∧ Truncates a b q := by
  have habs := Truncates.natCast a.natAbs b.natAbs (Int.natAbs_ne_zero.2 hb)
  refine ⟨_, if_neg hb, ?_⟩
  -- Each of the numbers is its absolute value, or the negative of it.
  rcases Int.lt_or_le a 0 with ha | ha <;> rcases Int.lt_or_le b 0 with hb | hb
  · rw [Int.ofNat_natAbs_of_nonpos (by omega), Int.ofNat_natAbs_of_nonpos (by omega)] at habs
    rw [if_pos (iff_of_true ha hb)]
    simpa only [Int.neg_neg] using habs.neg_left.neg_right
  · rw [Int.ofNat_natAbs_of_nonpos (by omega), Int.natAbs_of_nonneg hb] at habs
    rw [if_neg fun h => by omega]
    simpa only [Int.neg_neg] using habs.neg_left
  · rw [Int.natAbs_of_nonneg ha, Int.ofNat_natAbs_of_nonpos (by omega)] at habs
    rw [if_neg fun h => by omega]
    simpa only [Int.neg_neg] using habs.neg_right
  · rw [Int.natAbs_of_nonneg ha, Int.natAbs_of_nonneg hb] at habs
    rw [if_pos (by omega)]
    exact habs

/-! ## Divisions in programs -/

variable {α : Type} {σ : Store VarType} {l r : Operand α} {a b : Int}

/-- A division by zero is a fault at the operator. -/
theorem Expr.eval_div_zero (label : α) (p : Pos) (hl : l.eval σ = .ok (.int a))
    (hr : r.eval σ = .ok (.int 0)) :
    (Expr.binary label l .div p r).eval σ = .error (.fault ⟨.divisionByZero, p⟩) := by
  rw [Expr.eval, hl, hr]
  rfl

/-- Any other division has a truncated quotient. -/
theorem Expr.exists_eval_div (label : α) (p : Pos) (hl : l.eval σ = .ok (.int a))
    (hr : r.eval σ = .ok (.int b)) (hb : b ≠ 0) :
    ∃ q, (Expr.binary label l .div p r).eval σ = .ok (.int q) ∧ Truncates a b q := by
  obtain ⟨q, hq, htruncates⟩ := exists_quotient?_eq_some a hb
  refine ⟨q, ?_, htruncates⟩
  have hdivided : Value.divided p (.int a) (.int b) = orStuck ((quotient? a b).map .int) := by
    simp only [Value.divided, Value.number?]
  rw [Expr.eval, hl, hr]
  change Value.divided p (.int a) (.int b) = _
  rw [hdivided, hq]
  rfl

/-- Whatever division has the dividend `a` and the divisor `b` has the quotient `q`. -/
theorem Expr.eval_div_of_truncates {q : Int} (label : α) (p : Pos) (hl : l.eval σ = .ok (.int a))
    (hr : r.eval σ = .ok (.int b)) (h : Truncates a b q) :
    (Expr.binary label l .div p r).eval σ = .ok (.int q) := by
  obtain ⟨q', heval, h'⟩ := exists_eval_div label p hl hr h.ne_zero
  rw [heval, h.unique h']

/-- The value of an operand of a division is an integer, if the division is typed. -/
theorem Expr.OperandsFit.exists_int {strict : Bool} {label : α} {p : Pos}
    (h : (Expr.binary label l .div p r).OperandsFit strict σ) :
    (∀ v, l.eval σ = .ok v → ∃ a, v = .int a) ∧ ∀ v, r.eval σ = .ok v → ∃ b, v = .int b := by
  obtain ⟨ty, hty, hl, hr⟩ := h
  obtain rfl : ty = .int := List.mem_singleton.1 hty
  refine ⟨fun v hv => ?_, fun v hv => ?_⟩
  · rw [hv] at hl
    exact Value.ofType_int_iff.1 hl
  · rw [hv] at hr
    exact Value.ofType_int_iff.1 hr

/-- What a division at `p` comes to, if its operands have the values `a` and `b`. -/
structure QuotientAt (p : Pos) (a b : Int) (value : Except Halt Value) : Prop where
  fault_iff : value = .error (.fault ⟨.divisionByZero, p⟩) ↔ b = 0
  truncates : b ≠ 0 → ∃ q, value = .ok (.int q) ∧ Truncates a b q ∧ ∀ q', Truncates a b q' → q' = q

theorem Expr.quotient_eval_div (label : α) (p : Pos) (hl : l.eval σ = .ok (.int a))
    (hr : r.eval σ = .ok (.int b)) : QuotientAt p a b ((Expr.binary label l .div p r).eval σ) where
  fault_iff := by
    by_cases hb : b = 0
    · subst hb
      exact iff_of_true (eval_div_zero label p hl hr) rfl
    · obtain ⟨q, heval, -⟩ := exists_eval_div label p hl hr hb
      rw [heval]
      exact iff_of_false nofun hb
  truncates hb :=
    let ⟨q, heval, h⟩ := exists_eval_div label p hl hr hb
    ⟨q, heval, h, fun _ h' => h.unique h'⟩

/-- If one of the operands is negated, so is the quotient. -/
theorem Expr.eval_div_neg {q : Int} {l' r' : Operand α} (label : α) (p : Pos)
    (hl : l.eval σ = .ok (.int a)) (hr : r.eval σ = .ok (.int b))
    (hq : (Expr.binary label l .div p r).eval σ = .ok (.int q))
    (h : l'.eval σ = .ok (.int (-a)) ∧ r'.eval σ = .ok (.int b) ∨
      l'.eval σ = .ok (.int a) ∧ r'.eval σ = .ok (.int (-b))) :
    (Expr.binary label l' .div p r').eval σ = .ok (.int (-q)) := by
  have htruncates : Truncates a b q := by
    by_cases hb : b = 0
    · subst hb
      cases hq.symm.trans (eval_div_zero label p hl hr)
    · obtain ⟨q', heval, h⟩ := exists_eval_div label p hl hr hb
      cases hq.symm.trans heval
      exact h
  rcases h with ⟨hl', hr'⟩ | ⟨hl', hr'⟩
  · exact eval_div_of_truncates label p hl' hr' htruncates.neg_left
  · exact eval_div_of_truncates label p hl' hr' htruncates.neg_right

/-- Let a program pass its check, on variables that hold values of their types. The run does not get
    stuck. In each of its states, the operands of a division have integers as their values, if they
    have values; it is a fault at its operator if and only if the divisor is zero, and else it has
    the truncated quotient as its value, which is the only one. With one operand negated, the
    quotient is negated. -/
theorem runText_divides {σ : Store VarType} {source : String} (hσ : σ.Fits false)
    (h : (checkText σ source).failure? = none) (lines : List (Option String)) :
    RuntimeFault.divisionByZero.message = "Integer division by zero" ∧
    (runText σ source lines).failure? ≠ some (.halted .stuck) ∧
    ∃ program, (parseProgram source).result = .ok program ∧
      ∀ n, (Machine.start program (.start (checkText σ source).store lines)).Reaches n →
        ∀ label l p r, Expr.binary label l .div p r ∈ Block.exprs program →
          let σ' := n.run.store
          let value := (Expr.binary label l .div p r).eval σ'
          (∀ v, l.eval σ' = .ok v → ∃ a, v = .int a) ∧
          (∀ v, r.eval σ' = .ok v → ∃ b, v = .int b) ∧
          ∀ a b, l.eval σ' = .ok (.int a) → r.eval σ' = .ok (.int b) →
            QuotientAt p a b value ∧
            ∀ q (l' r' : Operand Nat), value = .ok (.int q) →
              l'.eval σ' = .ok (.int (-a)) ∧ r'.eval σ' = .ok (.int b) ∨
                l'.eval σ' = .ok (.int a) ∧ r'.eval σ' = .ok (.int (-b)) →
              (Expr.binary label l' .div p r').eval σ' = .ok (.int (-q)) := by
  obtain ⟨program, hp, hfaults, hstore⟩ := exists_program_of_checkText h
  obtain ⟨events, hrun⟩ := runText_of_faults_eq_nil hp hfaults lines
  have htyped := Block.typed_of_faults_eq_nil hfaults (.refl _)
  have hm := Machine.sound_start (Block.fits_extend hσ program) htyped nofun lines
  refine ⟨rfl, fun hstuck => ?_, program, hp, fun n hn label l p r he => ?_⟩
  · rw [hrun] at hstuck
    obtain ⟨halt, hhalt, heq⟩ := Option.map_eq_some_iff.1 hstuck
    exact (hm.ends (Machine.ends_exec _ _)).ne_stuck (Failure.halted.inj heq ▸ hhalt)
  · rw [hstore] at hn
    have hsound := (hm.reaches hn).run
    obtain ⟨ty, hty⟩ := htyped.of_mem_exprs he
    have hfit := (hsound.ty?_eq ▸ hty : Expr.HasType n.run.store.ty? _ ty).operandsFit hsound.fits
    refine ⟨hfit.exists_int.1, hfit.exists_int.2, fun a b hl hr => ?_⟩
    exact ⟨Expr.quotient_eval_div label p hl hr, fun q l' r' hq =>
      Expr.eval_div_neg label p hl hr hq⟩

/-- The quotient of -7 and 2. -/
theorem runText_divides_of_negative :
    let source := "print (0 - 7) / 2;"
    let τ := (checkText .empty source).store
    (Store.empty : Store VarType).Fits false ∧ (checkText .empty source).failure? = none ∧
      ∃ program, (parseProgram source).result = .ok program ∧
        ∃ label l p r, Expr.binary label l .div p r ∈ Block.exprs program ∧
          l.eval τ = .ok (.int (-7)) ∧ r.eval τ = .ok (.int 2) ∧
          (Expr.binary label l .div p r).eval τ = .ok (.int (-3)) := by
  intro source τ
  have h : (checkText .empty source).failure? = none := by decide +kernel
  obtain ⟨-, -, program, hp, hdivides⟩ := runText_divides Store.fits_empty h []
  -- The program that is parsed.
  let dividend : Derivation.Expr :=
    .binary (.literal ⟨1, 8⟩ (.int "0")) .sub ⟨1, 10⟩ (.literal ⟨1, 12⟩ (.int "7"))
  let d : Derivation.Block := .cons (.print ⟨1, 1⟩ (.binary (.group ⟨1, 7⟩ dividend ⟨1, 13⟩) .div
    ⟨1, 15⟩ (.literal ⟨1, 17⟩ (.int "2")))) ⟨1, 18⟩ .nil
  have hs : Stream.ofSource source = ⟨d.tokens, .eof ⟨1, 19⟩⟩ := by decide +kernel
  have hparse : (Stream.ofSource source).parse.result = .ok d.tree := by
    rw [hs]
    exact Stream.parse_tokens d ⟨1, 19⟩ (by decide)
  obtain rfl : program = Block.number d.tree :=
    Except.ok.inj (hp.symm.trans (parseProgram_eq_ok_iff.2 ⟨_, hparse, rfl⟩))
  refine ⟨Store.fits_empty, h, _, hp, _, _, _, _, .tail _ (.head _), ?_⟩
  obtain ⟨-, -, hquotient⟩ := hdivides _ .refl _ _ _ _ (.tail _ (.head _))
  have hl : Operand.eval τ (.group ⟨1, 7⟩ (Expr.numberFrom 0 dividend.tree)) = .ok (.int (-7)) :=
    rfl
  have hr : Operand.eval τ (.literal ⟨1, 17⟩ (.int "2") : Operand Nat) = .ok (.int 2) := rfl
  obtain ⟨q, heval, -, hunique⟩ := (hquotient (-7) 2 hl hr).1.truncates (by decide)
  have hq : -3 = q := hunique (-3) ⟨-1, by decide, by decide, .inr (by decide)⟩
  exact ⟨hl, hr, by rw [hq]; exact heval⟩

end MiniPL
