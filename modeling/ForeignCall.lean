import ForeignCall.Call.Invoke
import ForeignCall.Call.Library
import ForeignCall.Json.Printer
import ForeignCall.Main
import ForeignCall.Repository.Document
import ForeignCall.Value.Debug
import ForeignCall.Proofs.Call.Arguments
import ForeignCall.Proofs.Call.Failure
import ForeignCall.Proofs.Call.Links
import ForeignCall.Proofs.Ownership.Partition
import ForeignCall.Proofs.Number.Integer
import ForeignCall.Proofs.Heap.Text
import ForeignCall.Proofs.Conversion.Reading
import ForeignCall.Proofs.Conversion.RoundTrip
import ForeignCall.Proofs.Conversion.Narrowing
import ForeignCall.Proofs.Call.Shown
import ForeignCall.Proofs.Call.Ready
import ForeignCall.Proofs.Call.Echo
import ForeignCall.Proofs.Call.Untouched
import ForeignCall.Proofs.Call.Cleanup
import ForeignCall.Proofs.Call.Swept
import ForeignCall.Proofs.Call.Exceptions
import ForeignCall.Proofs.Call.Leftovers
import ForeignCall.Proofs.Call.Nesting
import ForeignCall.Proofs.Ownership.References
import ForeignCall.Proofs.Call.FailedLift
import ForeignCall.Proofs.Call.NativeError
import ForeignCall.Proofs.Heap.Histories
import ForeignCall.Proofs.Call.Moments
import ForeignCall.Proofs.Call.Registration
import ForeignCall.Proofs.Call.Roles
import ForeignCall.Proofs.Conversion.Bounds
import ForeignCall.Proofs.Call.Identity
import ForeignCall.Proofs.Call.Convention
import ForeignCall.Proofs.Call.Transparency
import ForeignCall.Proofs.Call.Leads
import ForeignCall.Proofs.Call.Lifecycle
import ForeignCall.Proofs.Call.SingleUse
import ForeignCall.Proofs.Call.Spent
import ForeignCall.Proofs.Call.Reclaimed
import ForeignCall.Proofs.Call.Receiver
import ForeignCall.Proofs.Call.Transferred
import ForeignCall.Proofs.Call.Acceptance
import ForeignCall.Proofs.Call.Omission
import ForeignCall.Proofs.Call.Results
import ForeignCall.Proofs.Ownership.Atomicity
import ForeignCall.Proofs.Heap.Contents
import ForeignCall.Proofs.Ownership.Nodes
import ForeignCall.Proofs.Call.Refusals
import ForeignCall.Proofs.Conversion.Rings
import ForeignCall.Proofs.Heap.Copies
import ForeignCall.Proofs.Repository.Ancestry
import ForeignCall.Proofs.Repository.Classification
import ForeignCall.Proofs.Call.Binding
import ForeignCall.Proofs.CommandLine
import ForeignCall.Proofs.Metadata.Encoding
