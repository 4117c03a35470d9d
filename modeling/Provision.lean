import Provision.Log.Format
import Provision.Log.Setup
import Provision.Service
import Provision.Proofs.Text
import Provision.Proofs.Combinations
import Provision.Proofs.Stages
import Provision.Proofs.Workflow
import Provision.Proofs.Gates
import Provision.Proofs.Provisioning
import Provision.Proofs.Catalogs
import Provision.Proofs.Histories
import Provision.Proofs.Selection
import Provision.Proofs.Ordering
import Provision.Proofs.Sessions
import Provision.Proofs.Encoding
import Provision.Proofs.Intervals
import Provision.Proofs.Bounds
import Provision.Proofs.Families
import Provision.Proofs.Lifetimes
import Provision.Proofs.Matching
import Provision.Proofs.Processors
import Provision.Proofs.Profiles
import Provision.Proofs.Index
import Provision.Proofs.Enumeration
import Provision.Proofs.Decommissioning
import Provision.Proofs.Indifference
import Provision.Proofs.Tracking
import Provision.Proofs.Refusals
import Provision.Proofs.Finality
import Provision.Proofs.Adoption
import Provision.Proofs.Reuse
import Provision.Proofs.Approvals
import Provision.Proofs.Templates
import Provision.Proofs.Legibility
import Provision.Proofs.Retries
import Provision.Proofs.Operations
import Provision.Proofs.Listings
import Provision.Proofs.Epochs
import Provision.Proofs.Spans
import Provision.Proofs.Verdicts
import Provision.Proofs.Timing
import Provision.Proofs.Chronicles
import Provision.Proofs.Ledgers
import Provision.Proofs.Responses
import Provision.Proofs.Disks
import Provision.Proofs.Descriptions
import Provision.Proofs.Padding
import Provision.Proofs.Settings
import Provision.Proofs.Readings
import Provision.Proofs.Filters
import Provision.Proofs.Purchases
import Provision.Proofs.Payloads
import Provision.Proofs.Inheritance
import Provision.Proofs.Registrations
import Provision.Proofs.Numerals
import Provision.Proofs.References
import Provision.Proofs.Spares
