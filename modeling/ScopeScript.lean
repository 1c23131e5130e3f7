import ScopeScript.Main
import ScopeScript.Program.Source
import ScopeScript.Proofs.Text.Classes
import ScopeScript.Proofs.Token.Lexeme
import ScopeScript.Proofs.Token.Pieces
import ScopeScript.Proofs.Token.Exactness
import ScopeScript.Proofs.Token.Joining
import ScopeScript.Proofs.Token.Order
import ScopeScript.Proofs.Grammar.Derivation
import ScopeScript.Proofs.Grammar.Completeness
import ScopeScript.Proofs.Grammar.Step
import ScopeScript.Proofs.Grammar.Reach
import ScopeScript.Proofs.Reading.Errors
import ScopeScript.Proofs.Reading.Actions
import ScopeScript.Proofs.Reading.Context
import ScopeScript.Proofs.Reading.Breaks
import ScopeScript.Proofs.Reading.Completion
import ScopeScript.Proofs.Grammar.Soundness
import ScopeScript.Proofs.Grammar.Recognition
import ScopeScript.Proofs.Reading.Composition
import ScopeScript.Proofs.Reading.EarliestError
import ScopeScript.Proofs.Evaluation.Alike
import ScopeScript.Proofs.Evaluation.Frame
import ScopeScript.Proofs.Evaluation.Sequence
import ScopeScript.Proofs.Program.Names
import ScopeScript.Proofs.Program.WellFormed
import ScopeScript.Proofs.Reading.WellFormed
import ScopeScript.Proofs.Simulation.World
import ScopeScript.Proofs.Simulation.Matched
import ScopeScript.Proofs.Simulation.Renumbering
import ScopeScript.Proofs.Scoping.Planting
import ScopeScript.Proofs.Editing.Basic
import ScopeScript.Proofs.Editing.Endings
import ScopeScript.Proofs.Editing.Declarations
import ScopeScript.Proofs.Session.Replay
import ScopeScript.Proofs.Evaluation.Depth
import ScopeScript.Proofs.Program.RoundTrip
import ScopeScript.Proofs.Reading.Reports
import ScopeScript.Proofs.Reading.Layout
import ScopeScript.Proofs.Program.Listing
import ScopeScript.Proofs.Session.Aside
import ScopeScript.Proofs.Evaluation.Returning
import ScopeScript.Proofs.Store.History
import ScopeScript.Proofs.Reading.Digits
import ScopeScript.Proofs.Arithmetic.Exact
import ScopeScript.Proofs.Arithmetic.Decimal
import ScopeScript.Proofs.Token.Pulling
import ScopeScript.Proofs.Reading.Agreement
import ScopeScript.Proofs.Session.Identity
