import Quotation.Eval.Base
import Quotation.Eval.Evaluator
import Quotation.Proofs.Data.Equality
import Quotation.Proofs.Data.Pairing
import Quotation.Proofs.Data.Serialization
import Quotation.Proofs.Data.Splicing
import Quotation.Proofs.Eval.Entries
import Quotation.Proofs.Eval.Forwarding
import Quotation.Proofs.Eval.Supplied
import Quotation.Proofs.Frame.Calling
import Quotation.Proofs.Frame.Capture
import Quotation.Proofs.Frame.Nesting
import Quotation.Proofs.Number.Arithmetic
import Quotation.Proofs.Number.Order
import Quotation.Proofs.Number.Shortest
import Quotation.Proofs.Print.Atoms
import Quotation.Proofs.Print.Between
import Quotation.Proofs.Print.Condition
import Quotation.Proofs.Print.Escaping
import Quotation.Proofs.Print.Front
import Quotation.Proofs.Print.Grouping
import Quotation.Proofs.Print.Naming
import Quotation.Proofs.Print.Quoted
import Quotation.Proofs.Print.Signed
import Quotation.Proofs.Promise.Discipline
import Quotation.Proofs.Promise.Forcing
import Quotation.Proofs.Surface.Denotation
import Quotation.Proofs.Surface.Operator
import Quotation.Proofs.Template.Collapse
import Quotation.Proofs.Template.Filling
import Quotation.Proofs.Template.Limit
import Quotation.Proofs.Template.Listing
import Quotation.Proofs.Template.Misplaced
import Quotation.Proofs.Template.Rebuilding
import Quotation.Proofs.Template.WellFormed
import Quotation.Proofs.Text.Conventions
import Quotation.Surface.Code
import Quotation.Surface.Reader
