import DirectoryAccess.Filter.Text
import DirectoryAccess.Interceptor.Chain
import DirectoryAccess.Matching.StandardRules
import DirectoryAccess.Transaction.End
import DirectoryAccess.Proofs.Answer
import DirectoryAccess.Proofs.Ber.Checked
import DirectoryAccess.Proofs.Ber.CheckedElement
import DirectoryAccess.Proofs.Ber.Closing
import DirectoryAccess.Proofs.Ber.Confined
import DirectoryAccess.Proofs.Ber.Delimited
import DirectoryAccess.Proofs.Ber.Element
import DirectoryAccess.Proofs.Ber.Forest
import DirectoryAccess.Proofs.Ber.InOrder
import DirectoryAccess.Proofs.Ber.Minimal
import DirectoryAccess.Proofs.Ber.Reader
import DirectoryAccess.Proofs.Ber.RoundTrip
import DirectoryAccess.Proofs.Ber.Run
import DirectoryAccess.Proofs.Ber.Sequence
import DirectoryAccess.Proofs.Ber.Shortest
import DirectoryAccess.Proofs.Ber.Splitting
import DirectoryAccess.Proofs.Ber.TwosComplement
import DirectoryAccess.Proofs.Ber.Writer
import DirectoryAccess.Proofs.Checked.Filter
import DirectoryAccess.Proofs.Checked.Message
import DirectoryAccess.Proofs.Checked.Operation
import DirectoryAccess.Proofs.Checked.Parts
import DirectoryAccess.Proofs.Checked.Stream
import DirectoryAccess.Proofs.Checked.Transaction
import DirectoryAccess.Proofs.Control
import DirectoryAccess.Proofs.Control.Grammar
import DirectoryAccess.Proofs.Decoders
import DirectoryAccess.Proofs.Extended
import DirectoryAccess.Proofs.Filter.Codec
import DirectoryAccess.Proofs.Filter.Grammar
import DirectoryAccess.Proofs.Filter.Nodes
import DirectoryAccess.Proofs.Filter.Shortest
import DirectoryAccess.Proofs.Filter.Text
import DirectoryAccess.Proofs.Interceptor.Binding
import DirectoryAccess.Proofs.Interceptor.Dispatch
import DirectoryAccess.Proofs.Interceptor.Route
import DirectoryAccess.Proofs.Matching.Caseless
import DirectoryAccess.Proofs.Matching.Cuts
import DirectoryAccess.Proofs.Matching.NormalForms
import DirectoryAccess.Proofs.Matching.Order
import DirectoryAccess.Proofs.Matching.Placement
import DirectoryAccess.Proofs.Matching.Substrings
import DirectoryAccess.Proofs.Matching.Texts
import DirectoryAccess.Proofs.Message.Codec
import DirectoryAccess.Proofs.Message.Delimited
import DirectoryAccess.Proofs.Message.Framing
import DirectoryAccess.Proofs.Message.Shortest
import DirectoryAccess.Proofs.Message.Stream
import DirectoryAccess.Proofs.Message.Writing
import DirectoryAccess.Proofs.Operation.Aligned
import DirectoryAccess.Proofs.Operation.Codec
import DirectoryAccess.Proofs.Operation.Entries
import DirectoryAccess.Proofs.Operation.Grammar
import DirectoryAccess.Proofs.Operation.Mistyped
import DirectoryAccess.Proofs.Operation.PartTypes
import DirectoryAccess.Proofs.Operation.Responses
import DirectoryAccess.Proofs.Operation.Shortest
import DirectoryAccess.Proofs.Operation.Stream
import DirectoryAccess.Proofs.Transaction.ControlTable
import DirectoryAccess.Proofs.Transaction.End
import DirectoryAccess.Proofs.Transaction.Report
import DirectoryAccess.Proofs.Transaction.Requests
