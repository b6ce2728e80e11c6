import MiniPL.Main
import MiniPL.Token.Lookahead
import MiniPL.Proofs.Execution.Soundness
import MiniPL.Proofs.Grammar.Acceptance
import MiniPL.Proofs.Grammar.Earliest
import MiniPL.Proofs.Grammar.Recovery
import MiniPL.Proofs.Token.LongestMatch
import MiniPL.Proofs.Grammar.RoundTrip
import MiniPL.Proofs.Grammar.Semicolons
import MiniPL.Proofs.Typing.Decision
import MiniPL.Proofs.Session.Invariant
import MiniPL.Proofs.Command.Agreement
import MiniPL.Proofs.Program.Pieces
import MiniPL.Proofs.Diagnostic.Caret
import MiniPL.Proofs.Typing.Undeclared
import MiniPL.Proofs.Session.Balance
import MiniPL.Proofs.Program.Layout
import MiniPL.Proofs.Program.Numbers
import MiniPL.Proofs.Program.Parentheses
import MiniPL.Proofs.Typing.Naming
import MiniPL.Proofs.Program.Initialization
import MiniPL.Proofs.Program.Input
import MiniPL.Proofs.Program.Locality
import MiniPL.Proofs.Command.Files
import MiniPL.Proofs.Token.Offsets
import MiniPL.Proofs.Session.Echo
import MiniPL.Proofs.Session.FreshLine
import MiniPL.Proofs.Execution.Integers
import MiniPL.Proofs.Token.Transparency
import MiniPL.Proofs.Grammar.Order
import MiniPL.Proofs.Grammar.Blocks
import MiniPL.Proofs.Execution.Division
import MiniPL.Proofs.Grammar.Focus
import MiniPL.Proofs.Execution.Same
import MiniPL.Proofs.Token.Parentheses
import MiniPL.Proofs.Syntax.Outlines
import MiniPL.Proofs.Command.Switches
import MiniPL.Proofs.Grammar.Progress
import MiniPL.Proofs.Grammar.Progress
import MiniPL.Proofs.Grammar.Progress
