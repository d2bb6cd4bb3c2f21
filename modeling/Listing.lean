import Listing.Endpoint
import Listing.Link
import Listing.Proofs.Utf8
import Listing.Sample.Typed
import Listing.Sample.Users
import Listing.Walk
import Listing.Proofs.Form
import Listing.Proofs.Bracket
import Listing.Proofs.Entries
import Listing.Proofs.Items
import Listing.Proofs.Success
import Listing.Proofs.Filters
import Listing.Proofs.PageNumber
import Listing.Proofs.PageRequest
import Listing.Proofs.Rereading
import Listing.Proofs.RoundTrip
import Listing.Proofs.Admission
import Listing.Proofs.PageBlock
import Listing.Proofs.Fetching
import Listing.Proofs.Refusal
import Listing.Proofs.Clauses
import Listing.Proofs.Wording
import Listing.Proofs.Walking
import Listing.Proofs.Shapes
import Listing.Proofs.Reordering
import Listing.Proofs.Placeholders
import Listing.Proofs.GoingBack
import Listing.Proofs.FilterNames
import Listing.Proofs.Nesting
import Listing.Proofs.PageBounds
import Listing.Proofs.PageNumeral
import Listing.Proofs.PageRows
import Listing.Proofs.Canonicity
import Listing.Proofs.Membership
import Listing.Proofs.Chronology
import Listing.Proofs.Partition
import Listing.Proofs.Patterns
import Listing.Proofs.WideIntegers
import Listing.Proofs.Instants
import Listing.Proofs.WrittenNumbers
import Listing.Proofs.WrittenTimes
import Listing.Proofs.WrittenIdentifiers
import Listing.Proofs.WrittenValues
import Listing.Proofs.Reports
import Listing.Proofs.Succession
