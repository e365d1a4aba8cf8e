import DoubleDispatch.Main
import DoubleDispatch.Proofs.Parsing
import DoubleDispatch.Proofs.Pass.Accounting
import DoubleDispatch.Proofs.Emission.Overloads
import DoubleDispatch.Proofs.Emission.Visibility
import DoubleDispatch.Proofs.Emission.FileModifier
import DoubleDispatch.Proofs.Parsing.Strays
import DoubleDispatch.Proofs.Parsing.Sections
import DoubleDispatch.Proofs.Parsing.Delegate
import DoubleDispatch.Proofs.Binding.TypeBinding
import DoubleDispatch.Proofs.Pass.Parallel
import DoubleDispatch.Proofs.Pass.Relayout
import DoubleDispatch.Proofs.Pass.Isolation
import DoubleDispatch.Proofs.Hierarchy.FileOrder
import DoubleDispatch.Proofs.Hierarchy.Narrowing
import DoubleDispatch.Proofs.Hierarchy.Merging
import DoubleDispatch.Proofs.Parsing.SpanTree
import DoubleDispatch.Proofs.Pass.MemberBody
import DoubleDispatch.Proofs.Parsing.Concatenation
import DoubleDispatch.Proofs.Parsing.Verbatim
import DoubleDispatch.Proofs.Artifact.Requests
import DoubleDispatch.Proofs.Command.Repetition
import DoubleDispatch.Proofs.Binding.TypeArguments
import DoubleDispatch.Proofs.Emission.Accessibility
import DoubleDispatch.Proofs.Token.LiteralNesting
import DoubleDispatch.Proofs.Token.LiteralExtent
import DoubleDispatch.Proofs.Parsing.Groups
import DoubleDispatch.Proofs.Source.Location
import DoubleDispatch.Proofs.Emission.Rendering
