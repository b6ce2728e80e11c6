import MiniPL.Proofs.Grammar.LoneExpressions
import MiniPL.Proofs.Session.Balance

/-!
# Blocks among tokens

A loop or a branch has one block, which starts at its `do` and ends at its `end`, and an
alternative is inside it. The places of these two among the tokens of a derivation are the *span*
of the block (`Derivation.Block.spans`).

At each place of an accepted program, as many blocks are open as there are more `do` than `end`
before it (`Stream.blockBalance_of_parse_eq_ok`); so the balance by which a session holds lines back
is never negative, and it is zero where no block is open and at the end.

The tokens of a statement are *bracketed* by the spans of its blocks (`Derivation.Bracketed`):
tokens without `do` and `end` are, by no spans; one row of tokens after the other is; and tokens
inside a block are, with one more span.
-/

namespace MiniPL

/-- The places of the `do` and of the `end` of a block among some tokens. -/
structure Span where
  opening : Nat
  closing : Nat
  deriving DecidableEq, Repr

namespace Span

/-- The span after `n` more tokens. -/
def shift (n : Nat) (b : Span) : Span := ⟨b.opening + n, b.closing + n⟩

/-- Whether the block is open after the first `k` tokens: its `do` is one of them, and its `end` is
    not. -/
def isOpenAt (k : Nat) (b : Span) : Bool := b.opening < k ∧ k ≤ b.closing

/-- The spans if a block of `length` tokens, with the spans `inner`, is opened after `n` tokens. -/
def enclose (n length : Nat) (inner : List Span) : List Span :=
  ⟨n, n + (length + 1)⟩ :: inner.map (shift (n + 1))

/-- The span is that of a `do` and of an `end` after it, among the tokens. -/
structure Marks (ts : List Token) (b : Span) : Prop where
  lt : b.opening < b.closing
  opening : (ts[b.opening]?).map Token.lexeme = some (.keyword .doK)
  closing : (ts[b.closing]?).map Token.lexeme = some (.keyword .endK)

theorem isOpenAt_iff {k : Nat} {b : Span} : b.isOpenAt k ↔ b.opening < k ∧ k ≤ b.closing :=
  decide_eq_true_iff

theorem isOpenAt_shift (k n : Nat) (b : Span) : (b.shift n).isOpenAt k = b.isOpenAt (k - n) := by
  rw [Bool.eq_iff_iff, isOpenAt_iff, isOpenAt_iff]
  simp only [shift]
  omega

theorem shift_shift (m n : Nat) (b : Span) : (b.shift m).shift n = b.shift (m + n) := by
  rw [shift, shift, shift, Nat.add_assoc, Nat.add_assoc]

theorem map_shift_map_shift (m n : Nat) (l : List Span) :
    (l.map (shift m)).map (shift n) = l.map (shift (m + n)) := by
  rw [List.map_map]
  exact List.map_congr_left fun b _ => shift_shift m n b

theorem map_shift_enclose (n m length : Nat) (inner : List Span) :
    (enclose n length inner).map (shift m) = enclose (n + m) length inner := by
  rw [enclose, List.map_cons, map_shift_map_shift, enclose, shift, Nat.add_right_comm n m,
    Nat.add_right_comm n m 1]

/-- Before the place where they are put, shifted spans are not open. -/
theorem countP_shift (k n : Nat) (l : List Span) :
    (l.map (shift n)).countP (·.isOpenAt k) = l.countP (·.isOpenAt (k - n)) := by
  rw [List.countP_map]
  exact List.countP_congr fun b _ => by rw [Function.comp_apply, isOpenAt_shift]

theorem Marks.opening_lt {ts : List Token} {b : Span} (h : Marks ts b) :
    b.opening < ts.length := by
  obtain ⟨t, ht, -⟩ := Option.map_eq_some_iff.1 h.opening
  exact (List.getElem?_eq_some_iff.1 ht).1

theorem Marks.closing_lt {ts : List Token} {b : Span} (h : Marks ts b) :
    b.closing < ts.length := by
  obtain ⟨t, ht, -⟩ := Option.map_eq_some_iff.1 h.closing
  exact (List.getElem?_eq_some_iff.1 ht).1

theorem lexeme_append_right {ts : List Token} {i : Nat} {l : Lexeme}
    (h : (ts[i]?).map Token.lexeme = some l) (us : List Token) :
    ((ts ++ us)[i]?).map Token.lexeme = some l := by
  obtain ⟨t, ht, rfl⟩ := Option.map_eq_some_iff.1 h
  rw [List.getElem?_append_left (List.getElem?_eq_some_iff.1 ht).1, ht]
  rfl

theorem Marks.append_right {ts : List Token} {b : Span} (h : Marks ts b) (us : List Token) :
    Marks (ts ++ us) b :=
  ⟨h.lt, lexeme_append_right h.opening us, lexeme_append_right h.closing us⟩

theorem Marks.append_left {us : List Token} {b : Span} (h : Marks us b) (ts : List Token) :
    Marks (ts ++ us) (b.shift ts.length) where
  lt := Nat.add_lt_add_right h.lt _
  opening := by
    rw [shift, List.getElem?_append_right (Nat.le_add_left _ _), Nat.add_sub_cancel, h.opening]
  closing := by
    rw [shift, List.getElem?_append_right (Nat.le_add_left _ _), Nat.add_sub_cancel, h.closing]

end Span

theorem Lexeme.balance_of_inExpr {l : Lexeme} (h : l.inExpr) : l.balance = 0 := by
  unfold Lexeme.balance
  split
  · cases h
  · cases h
  · rfl

section

variable {α : Type}

mutual

/-- How many loops and branches there are in a statement. -/
def Stmt.compounds : Stmt α → Nat
  | .declare .. => 0
  | .assign .. => 0
  | .forLoop _ _ _ _ body => 1 + Block.compounds body
  | .ifThen _ _ body => 1 + Block.compounds body
  | .ifElse _ _ body otherwise => 1 + (Block.compounds body + Block.compounds otherwise)
  | .print .. => 0
  | .read .. => 0
  | .assert .. => 0

/-- How many loops and branches there are in a block. -/
def Block.compounds : Block α → Nat
  | [] => 0
  | s :: rest => s.compounds + Block.compounds rest

end

end

namespace Derivation

open MiniPL.Span (shift enclose)

mutual

/-- The spans of the blocks in a statement. -/
def Stmt.spans : Stmt → List Span
  | .declare .. => []
  | .declareInit .. => []
  | .assign .. => []
  | .forLoop _ _ _ _ a _ b _ body _ _ =>
    enclose (3 + a.tokens.length + 1 + b.tokens.length) body.tokens.length body.spans
  | .ifThen _ c _ body _ _ => enclose (1 + c.tokens.length) body.tokens.length body.spans
  | .ifElse _ c _ body _ otherwise _ _ =>
    enclose (1 + c.tokens.length) (body.tokens.length + 1 + otherwise.tokens.length)
      (body.spans ++ otherwise.spans.map (shift (body.tokens.length + 1)))
  | .print .. => []
  | .read .. => []
  | .assert .. => []

/-- The spans of the blocks in a block. -/
def Block.spans : Block → List Span
  | .nil => []
  | .cons s _ rest => s.spans ++ rest.spans.map (shift (s.tokens.length + 1))

end

mutual

theorem Stmt.length_spans : (d : Stmt) → d.spans.length = d.tree.compounds
  | .declare .. => rfl
  | .declareInit .. => rfl
  | .assign .. => rfl
  | .forLoop _ _ _ _ _ _ _ _ body _ _ => by
    rw [Stmt.spans, enclose, List.length_cons, List.length_map, body.length_spans, Stmt.tree,
      MiniPL.Stmt.compounds, Nat.add_comm]
  | .ifThen _ _ _ body _ _ => by
    rw [Stmt.spans, enclose, List.length_cons, List.length_map, body.length_spans, Stmt.tree,
      MiniPL.Stmt.compounds, Nat.add_comm]
  | .ifElse _ _ _ body _ otherwise _ _ => by
    rw [Stmt.spans, enclose, List.length_cons, List.length_map, List.length_append, List.length_map,
      body.length_spans, otherwise.length_spans, Stmt.tree, MiniPL.Stmt.compounds, Nat.add_comm]
  | .print .. => rfl
  | .read .. => rfl
  | .assert .. => rfl

/-- There is one span for every loop and every branch. -/
theorem Block.length_spans : (d : Block) → d.spans.length = MiniPL.Block.compounds d.tree
  | .nil => rfl
  | .cons s _ rest => by
    rw [Block.spans, List.length_append, List.length_map, s.length_spans, rest.length_spans,
      Block.tree, MiniPL.Block.compounds]

end

/-! ## Tokens bracketed by spans -/

/-- The spans are those of a `do` and an `end` each, in the order of the tokens; and after any
    number of tokens, as many of them are open as there are more `do` than `end`. -/
structure Bracketed (ts : List Token) (spans : List Span) : Prop where
  balance : ∀ k, blockBalance (ts.take k) = spans.countP (·.isOpenAt k)
  marks : ∀ b ∈ spans, b.Marks ts
  sorted : spans.Pairwise (·.opening < ·.opening)

namespace Bracketed

variable {ts us : List Token} {spans more : List Span}

/-- Tokens without `do` and `end` are bracketed by no spans. -/
theorem plain (h : ∀ t ∈ ts, t.lexeme.balance = 0) : Bracketed ts [] where
  balance k := by
    induction ts generalizing k with
    | nil => cases k <;> rfl
    | cons t ts ih =>
      rw [List.forall_mem_cons] at h
      cases k with
      | zero => rfl
      | succ k =>
        change t.lexeme.balance + blockBalance (ts.take k) = _
        rw [h.1, Int.zero_add]
        exact ih h.2 k
  marks := nofun
  sorted := .nil

theorem append (h : Bracketed ts spans) (h' : Bracketed us more) :
    Bracketed (ts ++ us) (spans ++ more.map (shift ts.length)) where
  balance k := by
    rw [List.take_append, blockBalance_append, h.balance, h'.balance, List.countP_append,
      Span.countP_shift]
    exact (Int.natCast_add _ _).symm
  marks := by
    rw [List.forall_mem_append, List.forall_mem_map]
    exact ⟨fun b hb => (h.marks b hb).append_right us, fun b hb => (h'.marks b hb).append_left ts⟩
  sorted := by
    refine List.pairwise_append.2 ⟨h.sorted, List.pairwise_map.2 ?_, fun b hb b' hb' => ?_⟩
    · exact h'.sorted.imp fun h => Nat.add_lt_add_right h _
    · obtain ⟨b', -, rfl⟩ := List.mem_map.1 hb'
      exact Nat.lt_of_lt_of_le (h.marks b hb).opening_lt (Nat.le_add_left _ _)

/-- One more token between two rows adds no span. -/
theorem separated (h : Bracketed ts spans) {t : Token} (ht : t.lexeme.balance = 0)
    (h' : Bracketed us more) :
    Bracketed (ts ++ [t] ++ us) (spans ++ more.map (shift (ts.length + 1))) := by
  have hall := (h.append (plain (List.forall_mem_singleton.2 ht))).append h'
  rwa [List.map_nil, List.append_nil, List.length_append] at hall

/-- The balance of tokens between a `do` and its `end`. -/
theorem blockBalance_take_enclosed (h : Bracketed ts spans) (p q : Pos) (k : Nat) :
    blockBalance ((Keyword.token .doK p :: (ts ++ [Keyword.token .endK q])).take k) =
      (enclose 0 ts.length spans).countP (·.isOpenAt k) := by
  have hinner : (spans.map (shift (0 + 1))).countP (·.isOpenAt k) =
      spans.countP (·.isOpenAt (k - 1)) := Span.countP_shift ..
  rw [enclose, List.countP_cons, hinner]
  cases k with
  | zero =>
    have hzero := h.balance 0
    rw [List.take_zero] at hzero
    simpa [Span.isOpenAt] using hzero
  | succ k =>
    rw [List.take_succ_cons, List.take_append]
    change 1 + blockBalance (ts.take k ++ [Keyword.token .endK q].take (k - ts.length)) = _
    rw [blockBalance_append, h.balance, Nat.add_sub_cancel]
    by_cases hk : k ≤ ts.length
    · -- Inside the block, the new span is open.
      have hopen : Span.isOpenAt (k + 1) ⟨0, 0 + (ts.length + 1)⟩ :=
        Span.isOpenAt_iff.2 ⟨Nat.succ_pos k, by dsimp only; omega⟩
      rw [Nat.sub_eq_zero_of_le hk, List.take_zero, if_pos hopen]
      change (1 : Int) + (_ + 0) = _
      omega
    · -- After the `end`, it is not open any more.
      have hclosed : ¬ Span.isOpenAt (k + 1) ⟨0, 0 + (ts.length + 1)⟩ := by
        intro h
        have := (Span.isOpenAt_iff.1 h).2
        dsimp only at this
        omega
      rw [List.take_of_length_le (by simp; omega), if_neg hclosed]
      change (1 : Int) + (_ + -1) = _
      omega

/-- A block of tokens, from its `do` to its `end`, is bracketed with one more span. -/
theorem enclosed (h : Bracketed ts spans) (p q : Pos) :
    Bracketed (Keyword.token .doK p :: (ts ++ [Keyword.token .endK q]))
      (enclose 0 ts.length spans) where
  balance := h.blockBalance_take_enclosed p q
  marks := by
    rw [enclose, List.forall_mem_cons, List.forall_mem_map]
    refine ⟨⟨by simp, rfl, ?_⟩, fun b hb => ?_⟩
    · rw [Nat.zero_add, List.getElem?_cons_succ, List.getElem?_append_right (Nat.le_refl _),
        Nat.sub_self]
      rfl
    · exact ((h.marks b hb).append_right _).append_left [Keyword.token .doK p]
  sorted := by
    refine List.pairwise_cons.2 ⟨fun b' hb' => ?_, List.pairwise_map.2 ?_⟩
    · obtain ⟨b', -, rfl⟩ := List.mem_map.1 hb'
      exact Nat.succ_pos _
    · exact h.sorted.imp fun h => Nat.add_lt_add_right h _

/-- A block between tokens without `do` and `end`. -/
theorem compound {head : List Token} {n : Nat} (hhead : ∀ t ∈ head, t.lexeme.balance = 0)
    (hn : head.length = n) (h : Bracketed ts spans) (p q : Pos) {t : Token}
    (ht : t.lexeme.balance = 0) :
    Bracketed (head ++ [Keyword.token .doK p] ++ ts ++ [Keyword.token .endK q, t])
      (enclose n ts.length spans) := by
  subst hn
  have hall :=
    (plain hhead).append ((h.enclosed p q).append (plain (List.forall_mem_singleton.2 ht)))
  have hspans : enclose head.length ts.length spans =
      [] ++ (enclose 0 ts.length spans ++ []).map (shift head.length) := by
    rw [List.append_nil, Span.map_shift_enclose, List.nil_append, Nat.zero_add]
  have htokens : head ++ [Keyword.token .doK p] ++ ts ++ [Keyword.token .endK q, t] =
      head ++ (Keyword.token .doK p :: (ts ++ [Keyword.token .endK q]) ++ [t]) := by
    simp
  rw [hspans, htokens]
  exact hall

end Bracketed

/-! ## The tokens of programs -/

/-- Neither `do` nor `end` stands in an expression. -/
theorem Expr.balance_eq_zero (e : Expr) : ∀ t ∈ e.tokens, t.lexeme.balance = 0 :=
  fun t ht => Lexeme.balance_of_inExpr (e.inExpr t ht)

mutual

theorem Stmt.bracketed : (d : Stmt) → Bracketed d.tokens d.spans
  | .declare _ _ _ _ _ ty => .plain (by cases ty <;> simp [Stmt.tokens, Lexeme.balance, Ty.keyword])
  | .declareInit _ _ _ _ _ ty _ e => by
    refine .plain (List.forall_mem_append.2 ⟨?_, e.balance_eq_zero⟩)
    cases ty <;> simp [Lexeme.balance, Ty.keyword]
  | .assign _ _ _ e =>
    .plain (List.forall_mem_append.2 ⟨by simp [Lexeme.balance], e.balance_eq_zero⟩)
  | .forLoop p₁ p x p₂ a p₃ b p₄ body p₅ _ => by
    have hhead : ∀ t ∈ [Keyword.token .forK p₁, .ofName x p, Keyword.token .inK p₂] ++ a.tokens ++
        [Symbol.token .range p₃] ++ b.tokens, t.lexeme.balance = 0 := by
      simp only [List.forall_mem_append]
      exact ⟨⟨⟨by simp [Lexeme.balance], a.balance_eq_zero⟩, by simp [Lexeme.balance]⟩,
        b.balance_eq_zero⟩
    exact body.bracketed.compound hhead (by simp only [List.length_append]; rfl) p₄ p₅ rfl
  | .ifThen p c p₁ body p₂ _ => by
    have hhead : ∀ t ∈ [Keyword.token .ifK p] ++ c.tokens, t.lexeme.balance = 0 :=
      List.forall_mem_append.2 ⟨by simp [Lexeme.balance], c.balance_eq_zero⟩
    exact body.bracketed.compound hhead List.length_append p₁ p₂ rfl
  | .ifElse p c p₁ body p₂ otherwise p₃ p₄ => by
    have hhead : ∀ t ∈ [Keyword.token .ifK p] ++ c.tokens, t.lexeme.balance = 0 :=
      List.forall_mem_append.2 ⟨by simp [Lexeme.balance], c.balance_eq_zero⟩
    -- The alternative goes on in the block.
    have hinner := body.bracketed.separated (t := Keyword.token .elseK p₂) rfl otherwise.bracketed
    have htokens : (Stmt.ifElse p c p₁ body p₂ otherwise p₃ p₄).tokens =
        [Keyword.token .ifK p] ++ c.tokens ++ [Keyword.token .doK p₁] ++
          (body.tokens ++ [Keyword.token .elseK p₂] ++ otherwise.tokens) ++
          [Keyword.token .endK p₃, Keyword.token .ifK p₄] := by
      simp only [Stmt.tokens, List.append_assoc]
    have hlength : (body.tokens ++ [Keyword.token .elseK p₂] ++ otherwise.tokens).length =
        body.tokens.length + 1 + otherwise.tokens.length := by
      rw [List.length_append, List.length_append, List.length_singleton]
    rw [htokens, Stmt.spans, ← hlength]
    exact hinner.compound hhead List.length_append p₁ p₃ rfl
  | .print _ e => .plain (List.forall_mem_append.2 ⟨by simp [Lexeme.balance], e.balance_eq_zero⟩)
  | .read .. => .plain (by simp [Stmt.tokens, Lexeme.balance])
  | .assert _ _ c _ => by
    refine .plain (List.forall_mem_append.2 ⟨List.forall_mem_append.2 ⟨?_, c.balance_eq_zero⟩, ?_⟩)
    · simp [Lexeme.balance]
    · simp [Lexeme.balance]

/-- The tokens of a block are bracketed by the spans of the blocks in it. -/
theorem Block.bracketed : (d : Block) → Bracketed d.tokens d.spans
  | .nil => .plain nofun
  | .cons s p rest =>
    s.bracketed.separated (t := Symbol.token .semicolon p) rfl rest.bracketed

end

end Derivation

/-- Let a program be accepted. Each loop and each branch has a block, from a `do` to an `end` after
    it. After any number of tokens, there are as many more `do` than `end` as blocks are open, that
    is those of which the `do` is among these tokens and the `end` is not; so the balance is never
    negative, it is positive if and only if the tokens stop inside a block, and at the end it is
    zero. An `else` does not change which blocks are open. -/
theorem Stream.blockBalance_of_parse_eq_ok {s : Stream} {program : Block Unit}
    (h : s.parse.result = .ok program) :
    ∃ d : Derivation.Block, d.tokens = s.tokens ∧ d.tree = program ∧
      d.spans.length = Block.compounds program ∧ (∀ b ∈ d.spans, b.Marks s.tokens) ∧
      d.spans.Pairwise (·.opening < ·.opening) ∧
      (∀ k,
        let lexemes := (s.tokens.take k).map Token.lexeme
        let balance : Int := lexemes.count (.keyword .doK) - lexemes.count (.keyword .endK)
        blockBalance (s.tokens.take k) = balance ∧ balance = d.spans.countP (·.isOpenAt k) ∧
          0 ≤ balance ∧ (0 < balance ↔ ∃ b ∈ d.spans, b.opening < k ∧ k ≤ b.closing)) ∧
      blockBalance s.tokens = 0 ∧
      ∀ k, (s.tokens[k]?).map Token.lexeme = some (.keyword .elseK) →
        ∀ b ∈ d.spans, b.isOpenAt (k + 1) = b.isOpenAt k := by
  obtain ⟨ts, p, rfl⟩ := exists_eof_of_parse h
  obtain ⟨d, rfl, rfl⟩ := exists_block_of_parse h
  obtain ⟨hbalance, hmarks, hsorted⟩ := d.bracketed
  refine ⟨d, rfl, rfl, d.length_spans, hmarks, hsorted, ?_, ?_, ?_⟩
  · intro k lexemes balance
    have hcount : blockBalance (d.tokens.take k) = balance := blockBalance_eq_count _
    have hopen : balance = d.spans.countP (·.isOpenAt k) := hcount.symm.trans (hbalance k)
    refine ⟨hcount, hopen, ?_, ?_⟩
    · rw [hopen]
      exact Int.natCast_nonneg _
    · rw [hopen, Int.natCast_pos, List.countP_pos_iff]
      simp only [Span.isOpenAt_iff]
  · -- At the end no block is open.
    have hend := hbalance d.tokens.length
    rw [List.take_length] at hend
    rw [hend, List.countP_eq_zero.2]
    · rfl
    · intro b hb hopen
      have := (hmarks b hb).closing_lt
      have := (Span.isOpenAt_iff.1 hopen).2
      omega
  · -- Where a block starts or ends, there is no `else`.
    intro k helse b hb
    obtain ⟨hlt, hopening, hclosing⟩ := hmarks b hb
    have hk₁ : k ≠ b.opening := by
      rintro rfl
      cases hopening.symm.trans helse
    have hk₂ : k ≠ b.closing := by
      rintro rfl
      cases hclosing.symm.trans helse
    rw [Bool.eq_iff_iff, Span.isOpenAt_iff, Span.isOpenAt_iff]
    omega

/-- A branch in a loop, with an alternative. -/
theorem Stream.blockBalance_of_loop :
    let s := Stream.ofSource "for i in 1..2 do if i = 1 do print i; else print 2; end if; end for;"
    (∃ program, s.parse.result = .ok program) ∧
      ∃ d : Derivation.Block, d.tokens = s.tokens ∧ d.spans = [⟨6, 22⟩, ⟨11, 19⟩] ∧
        ∀ k, blockBalance (s.tokens.take k) = d.spans.countP (·.isOpenAt k) := by
  intro s
  let one (column : Nat) : Derivation.Operand := .literal ⟨1, column⟩ (.int "1")
  let two (column : Nat) : Derivation.Operand := .literal ⟨1, column⟩ (.int "2")
  let i (column : Nat) : Derivation.Operand := .var ⟨1, column⟩ "i"
  let branch : Derivation.Stmt := .ifElse ⟨1, 18⟩ (.binary (i 21) .eq ⟨1, 23⟩ (one 25)) ⟨1, 27⟩
    (.cons (.print ⟨1, 30⟩ (.single (i 36))) ⟨1, 37⟩ .nil) ⟨1, 39⟩
    (.cons (.print ⟨1, 44⟩ (.single (two 50))) ⟨1, 51⟩ .nil) ⟨1, 53⟩ ⟨1, 57⟩
  let d : Derivation.Block := .cons (.forLoop ⟨1, 1⟩ ⟨1, 5⟩ "i" ⟨1, 7⟩ (.single (one 10)) ⟨1, 11⟩
    (.single (two 13)) ⟨1, 15⟩ (.cons branch ⟨1, 59⟩ .nil) ⟨1, 61⟩ ⟨1, 65⟩) ⟨1, 68⟩ .nil
  have hs : s = ⟨d.tokens, .eof ⟨1, 69⟩⟩ := by decide +kernel
  have h : s.parse.result = .ok d.tree := by
    rw [hs]
    exact Stream.parse_tokens d ⟨1, 69⟩ (by decide)
  obtain ⟨d', htokens, -, -, -, -, hbalance, -⟩ := Stream.blockBalance_of_parse_eq_ok h
  have hd : d' = d := Derivation.Block.eq_of_tokens_eq (htokens.trans (by rw [hs]))
  subst hd
  refine ⟨⟨_, h⟩, _, htokens, rfl, fun k => ?_⟩
  obtain ⟨hcount, hopen, -⟩ := hbalance k
  exact hcount.trans hopen

end MiniPL
