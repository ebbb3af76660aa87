import DocFilter.Command.Run
import DocFilter.Main
import DocFilter.Proofs.Documents
import DocFilter.Proofs.Merging
import DocFilter.Proofs.Translation
import DocFilter.Proofs.Meaning
import DocFilter.Proofs.Faithful
import DocFilter.Proofs.Policies
import DocFilter.Proofs.Parentheses
import DocFilter.Proofs.DoubleNegation
import DocFilter.Proofs.Grammar
import DocFilter.Proofs.Parsing
import DocFilter.Proofs.NormalForm
import DocFilter.Proofs.Leaves
import DocFilter.Proofs.DistinctKeys
import DocFilter.Proofs.Clauses
import DocFilter.Proofs.JoinedCode
import DocFilter.Proofs.EmbeddedCode
import DocFilter.Proofs.Choices
import DocFilter.Proofs.GeneratedCode
import DocFilter.Proofs.Lexing
import DocFilter.Proofs.Numerals
import DocFilter.Proofs.ListForm
import DocFilter.Proofs.WellFormed
import DocFilter.Proofs.Lexemes
import DocFilter.Proofs.Regular
import DocFilter.Proofs.RoundTrip
import DocFilter.Proofs.Failures
import DocFilter.Proofs.Refusals
import DocFilter.Proofs.Combining
import DocFilter.Proofs.ByKey
import DocFilter.Proofs.Collisions
import DocFilter.Proofs.Simplification
import DocFilter.Proofs.Aliases
import DocFilter.Proofs.Persistence
import DocFilter.Proofs.Paths
import DocFilter.Proofs.Sessions
import DocFilter.Proofs.Coercion
import DocFilter.Proofs.Faults
import DocFilter.Proofs.WholeNumbers
import DocFilter.Proofs.Addresses
import DocFilter.Proofs.OneLine
import DocFilter.Proofs.Shapes
import DocFilter.Proofs.Trimming
import DocFilter.Proofs.Blame
import DocFilter.Proofs.Messages
import DocFilter.Proofs.LineByLine
