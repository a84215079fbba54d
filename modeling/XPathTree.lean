import XPathTree.Double.Bits
import XPathTree.Document.Edit
import XPathTree.Library.CoreFunction
import XPathTree.Library.Description
import XPathTree.Config.Json
import XPathTree.Evaluation
import XPathTree.Failure
import XPathTree.Proofs.Document.Pushes
import XPathTree.Proofs.Document.Sorting
import XPathTree.Proofs.Value.NodeSet
import XPathTree.Proofs.Axis.Subtree
import XPathTree.Proofs.Axis.Surroundings
import XPathTree.Proofs.Axis.Direction
import XPathTree.Proofs.Evaluation.Selection
import XPathTree.Proofs.Double.Equality
import XPathTree.Proofs.Evaluation.Proximity
import XPathTree.Proofs.Evaluation.Reach
import XPathTree.Proofs.Document.Refusal
import XPathTree.Proofs.Evaluation.Typing
import XPathTree.Proofs.Mirror.Context
import XPathTree.Proofs.Evaluation.Limit
import XPathTree.Proofs.Mirror.Tree
import XPathTree.Proofs.DataBlock.RoundTrip
import XPathTree.Proofs.Value.Comparison
import XPathTree.Proofs.Evaluation.Union
import XPathTree.Proofs.Evaluation.Leniency
import XPathTree.Proofs.Evaluation.Detour
import XPathTree.Proofs.Document.Commuting
import XPathTree.Proofs.Document.Reading
import XPathTree.Proofs.Axis.Reading
import XPathTree.Proofs.Evaluation.Conversion
import XPathTree.Proofs.Document.Locality
import XPathTree.Proofs.Document.Appending
import XPathTree.Proofs.Document.Undoing
import XPathTree.Proofs.Axis.Descendants
import XPathTree.Proofs.Axis.Order
import XPathTree.Proofs.Evaluation.Position
import XPathTree.Proofs.Document.Instructions
import XPathTree.Proofs.Document.Retaining
import XPathTree.Proofs.Double.Grammar
import XPathTree.Proofs.Text.Token
import XPathTree.Proofs.Double.Whole
import XPathTree.Proofs.Double.Writing
import XPathTree.Proofs.Text.Slice
import XPathTree.Proofs.Text.Search
import XPathTree.Proofs.Text.Spacing
import XPathTree.Proofs.Library.TextFunction
import XPathTree.Proofs.Value.Converse
import XPathTree.Proofs.Name.Lexical
import XPathTree.Proofs.Document.Naming
import XPathTree.Proofs.Document.AttributeLookup
import XPathTree.Proofs.Document.ContentOrder
import XPathTree.Proofs.Name.Test
import XPathTree.Proofs.Evaluation.ChildStep
