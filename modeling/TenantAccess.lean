import TenantAccess.Audit.Sink
import TenantAccess.Proofs.Documents
import TenantAccess.Proofs.Isolation
import TenantAccess.Proofs.Precedence
import TenantAccess.Proofs.StoreReads
import TenantAccess.Service
import TenantAccess.Proofs.Entitlement
import TenantAccess.Proofs.CacheSteps
import TenantAccess.Proofs.Interleaving
import TenantAccess.Proofs.Freshness
import TenantAccess.Proofs.Courses
import TenantAccess.Proofs.Coverage
import TenantAccess.Proofs.Interference
import TenantAccess.Proofs.TrailingStar
import TenantAccess.Proofs.Validation
import TenantAccess.Proofs.Errors
import TenantAccess.Proofs.Transparency
import TenantAccess.Proofs.Deliveries
import TenantAccess.Proofs.Records
import TenantAccess.Proofs.AuditTrail
import TenantAccess.Proofs.Degradation
import TenantAccess.Proofs.Batches
import TenantAccess.Proofs.PatternLanguage
import TenantAccess.Proofs.Compilation
import TenantAccess.Proofs.Rearrangement
import TenantAccess.Proofs.WireFormat
import TenantAccess.Proofs.Collection
import TenantAccess.Proofs.Contexts
import TenantAccess.Proofs.FullScan
import TenantAccess.Proofs.Attachments
import TenantAccess.Proofs.Ancestors
import TenantAccess.Proofs.Widening
import TenantAccess.Proofs.StoreContract
import TenantAccess.Proofs.Generations
import TenantAccess.Proofs.Recency
import TenantAccess.Proofs.OperatorNames
import TenantAccess.Proofs.WrittenConditions
import TenantAccess.Proofs.Negation
import TenantAccess.Proofs.Revocation
import TenantAccess.Proofs.Verbs
import TenantAccess.Proofs.RecordTexts
