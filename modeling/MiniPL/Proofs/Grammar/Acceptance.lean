import MiniPL.Proofs.Grammar.Complete
import MiniPL.Proofs.Grammar.FirstFault
import MiniPL.Proofs.Grammar.Unambiguous

/-!
# Which programs are accepted

If their parentheses do not nest too deeply, tokens are accepted if and only if they are those
of a program (`Stream.parse_eq_ok_iff_derivation`). There is only one derivation then, and it
describes the tree that is returned, with the positions of its tokens.
-/

namespace MiniPL

open MiniPL.Derivation (Opens)

theorem Derivation.opens_nil : Opens [] [] [] := .top .nil

/-- From between two statements of a program, tokens that are parsed to their end without a fault
    complete the program. -/
theorem ParseState.exists_block_of_run {v ts : List Token} {outer : List OpenBlock}
    {done t : List (Stmt Unit)} {l p : Pos} (h : Opens v outer done)
    (hf : (⟨⟨l, ts, .eof p⟩, outer, done⟩ : ParseState).faults = [])
    (he : (⟨⟨l, ts, .eof p⟩, outer, done⟩ : ParseState).run.2 = .complete t) :
    ∃ b : Derivation.Block, b.tokens = v ++ ts ∧ b.tree = t := by
  induction l, ts, outer, done using step_induction p generalizing v with
  | nil l outer done =>
    rcases outer with _ | ⟨o, outer⟩
    · rw [run_of_eof] at he
      obtain ⟨b, hb, ht⟩ := h.exists_block
      exact ⟨b, by rw [hb, List.append_nil], ht.trans (End.complete.inj he)⟩
    · rw [faults_of_unclosed] at hf
      cases hf
  | @semicolon l q w rest s outer done outer' done' hm ih =>
    rw [hm.leads_semicolon.faults] at hf
    rw [hm.leads_semicolon.ending] at he
    cases hm.sound v h with
    | finish ho d hw =>
      obtain ⟨b, hb, ht⟩ := ih (ho.snoc d q) hf he
      exact ⟨b, by simp [hb, hw], ht⟩
  | missing hw hs hm ih =>
    rw [(hm.leads_missing hs).faults] at hf
    cases hf
  | enter hw hm ih =>
    rw [hm.leads_enter.faults] at hf
    rw [hm.leads_enter.ending] at he
    cases hm.sound v h with
    | enter ho =>
      obtain ⟨b, hb, ht⟩ := ih ho hf he
      exact ⟨b, by rw [hb, List.append_assoc], ht⟩
  | resumed hr _ hm ih =>
    rw [(hm.leads_fault hr).faults] at hf
    cases hf
  | ended hr _ hm =>
    rw [(hm.faults_of_fault hr).1] at hf
    cases hf

/-- However deep they nest, tokens that are accepted are those of a program. -/
theorem Stream.exists_block_of_parse {ts : List Token} {p : Pos} {t : Block Unit}
    (h : (Stream.parse ⟨ts, .eof p⟩).result = .ok t) :
    ∃ b : Derivation.Block, b.tokens = ts ∧ b.tree = t :=
  have ⟨hf, he⟩ := Stream.parse_eq_ok_iff.1 h
  ParseState.exists_block_of_run Derivation.opens_nil hf he

/-- The tokens of a program are accepted if they do not nest too deeply. -/
theorem Stream.parse_tokens (d : Derivation.Block) (p : Pos)
    (h : Token.nesting d.tokens ≤ Reading.nestingLimit) :
    (Stream.parse ⟨d.tokens, .eof p⟩).result = .ok d.tree := by
  rcases ParseState.complete_or_deep d p with hd | ⟨pos, hd⟩
  · exact Stream.parse_eq_ok_iff.2 hd
  · -- The parser could only stop where parentheses nest too deeply, and there are none such.
    cases ParseState.outcome_of_opens d.tokens Derivation.opens_nil .start p with
    | program b hb hf he =>
      rw [ParseState.ofStream, Reader.ofStream, hf] at hd
      cases hd
    | @fault w rest f hts hf =>
      obtain ⟨fs, hfs⟩ := hf.exists_faults .start rfl
      rw [← hts] at hfs
      rw [ParseState.ofStream, Reader.ofStream, hfs] at hd
      exact absurd (congrArg Located.thing (Option.some.inj hd)) hf.ne_nestedTooDeeply
    | deep hdeep => exact absurd h (Nat.not_le_of_lt (hdeep 0))

end MiniPL
