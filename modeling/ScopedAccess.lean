import ScopedAccess.Main
import ScopedAccess.Operation.Script
import ScopedAccess.Proofs.Callback.Circles
import ScopedAccess.Proofs.Callback.Replacing
import ScopedAccess.Proofs.Filter.Merging
import ScopedAccess.Proofs.Filter.Reading
import ScopedAccess.Proofs.Filter.Relations
import ScopedAccess.Proofs.Filter.Searching
import ScopedAccess.Proofs.Job.Exclusion
import ScopedAccess.Proofs.Operation.Atomicity
import ScopedAccess.Proofs.Operation.Deletion
import ScopedAccess.Proofs.Operation.Moving
import ScopedAccess.Proofs.Operation.Secrecy
import ScopedAccess.Proofs.Organization.Building
import ScopedAccess.Proofs.Resolver.Legibility
import ScopedAccess.Proofs.Resolver.Overlap
import ScopedAccess.Proofs.Resolver.Widening
import ScopedAccess.Proofs.Schema.Indexing
