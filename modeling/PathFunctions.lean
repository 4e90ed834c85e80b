import PathFunctions.Node.TextNode
import PathFunctions.Registry.Invoke
import PathFunctions.Registry.Setup
import PathFunctions.Store.Session
import PathFunctions.Template.Description
import PathFunctions.Template.Printer
import PathFunctions.Proofs.Grammar
import PathFunctions.Proofs.Scan
import PathFunctions.Proofs.Literals
import PathFunctions.Proofs.Language
import PathFunctions.Proofs.Fault
import PathFunctions.Proofs.Rendering
import PathFunctions.Proofs.Concat
import PathFunctions.Proofs.RoundTrip
import PathFunctions.Proofs.Liveness
import PathFunctions.Proofs.Moves
import PathFunctions.Proofs.Sessions
import PathFunctions.Proofs.Parents
import PathFunctions.Proofs.Texts
import PathFunctions.Proofs.Agreement
import PathFunctions.Proofs.Histories
import PathFunctions.Proofs.Contents
import PathFunctions.Proofs.Slots
import PathFunctions.Proofs.Formatting
import PathFunctions.Proofs.Dependence
import PathFunctions.Proofs.MissingValues
import PathFunctions.Proofs.Quotation
import PathFunctions.Proofs.Messages
import PathFunctions.Proofs.ByteOrder
import PathFunctions.Proofs.Registrations
import PathFunctions.Proofs.Calls
import PathFunctions.Proofs.Delegation
import PathFunctions.Proofs.Alignment
import PathFunctions.Proofs.Ancestry
import PathFunctions.Proofs.DoubleOrder
import PathFunctions.Proofs.Rounding
import PathFunctions.Proofs.ShortestDecimals
import PathFunctions.Proofs.PlainNumerals
import PathFunctions.Proofs.WholeDoubles
import PathFunctions.Proofs.DoubleTexts
import PathFunctions.Proofs.Completion
import PathFunctions.Proofs.Deliveries
import PathFunctions.Proofs.BoundedNumbers
