import ErrorML.Text.Alphanumeric
import ErrorML.Text.Blank
import ErrorML.Text.Position
import ErrorML.Text.Terminal
import ErrorML.Parsing.Failure
import ErrorML.Parsing.Parser
import ErrorML.Parsing.Sequence
import ErrorML.Expr.Basic
import ErrorML.Expr.Text
import ErrorML.Value.Basic
import ErrorML.Value.Text
import ErrorML.Value.Notation
import ErrorML.Arithmetic
import ErrorML.Fault
import ErrorML.Judgment
import ErrorML.Derivation.Basic
import ErrorML.Derivation.Rule
import ErrorML.Derivation.Text
import ErrorML.Grammar.Token
import ErrorML.Grammar.Expr
import ErrorML.Grammar.Value
import ErrorML.Grammar.Judgment
import ErrorML.Grammar.Source
import ErrorML.Outcome
import ErrorML.Stuck
import ErrorML.Evaluation
import ErrorML.Inference
import ErrorML.Checking
import ErrorML.CommandLine.Arguments
import ErrorML.CommandLine.Help
import ErrorML.CommandLine.Run
import ErrorML.Main
import ErrorML.Proofs.SideConditions
import ErrorML.Proofs.Calculus
import ErrorML.Proofs.StrictRules
import ErrorML.Proofs.FaultFree
import ErrorML.Proofs.NamedRules
import ErrorML.Proofs.RootCauses
import ErrorML.Proofs.Nameless
import ErrorML.Proofs.OlderBindings
import ErrorML.Proofs.Styles
import ErrorML.Proofs.Names
import ErrorML.Proofs.Reproving
import ErrorML.Proofs.Turnstiles
import ErrorML.Proofs.Variables
import ErrorML.Proofs.Parts
import ErrorML.Proofs.Exactness
import ErrorML.Proofs.Provenance
import ErrorML.Proofs.Parsing.Progress
import ErrorML.Proofs.Parsing.Rewinding
import ErrorML.Proofs.Parsing.Recursion
import ErrorML.Proofs.Parsing.Inversion
import ErrorML.Proofs.Recognition.Token
import ErrorML.Proofs.Reading.Token
import ErrorML.Proofs.Parsing.Repetition
import ErrorML.Proofs.Parsing.Exhaustion
import ErrorML.Proofs.Parsing.Scanning
import ErrorML.Proofs.Parsing.Summary
import ErrorML.Proofs.Parsing.Grouping
import ErrorML.Proofs.Parsing.Wording
import ErrorML.Proofs.Reading.Phrase
import ErrorML.Proofs.Reading.Chain
import ErrorML.Proofs.Reading.Expr
import ErrorML.Proofs.Recognition.Expr
import ErrorML.Proofs.Recognition.Sentence
import ErrorML.Proofs.Recognition.Value
import ErrorML.Proofs.Recognition.Judgment
import ErrorML.Proofs.Recognition.Vocabulary
import ErrorML.Proofs.Recognition.WellFormed
import ErrorML.Proofs.Reading.Value
import ErrorML.Proofs.Reading.Judgment
import ErrorML.Proofs.Reading.Evalto
import ErrorML.Proofs.Requests
import ErrorML.Proofs.Spacing
import ErrorML.Proofs.Rereading
import ErrorML.Proofs.Restating
import ErrorML.Proofs.Diagnosis
import ErrorML.Proofs.Parentheses
import ErrorML.Proofs.Writing.Lines
import ErrorML.Proofs.Writing.Walk
import ErrorML.Proofs.Writing.Values
import ErrorML.Proofs.Writing.Derivations
import ErrorML.Proofs.TextSources
import ErrorML.Proofs.Parsing.Production
import ErrorML.Proofs.Leftovers
import ErrorML.Proofs.Parsing.Termination
