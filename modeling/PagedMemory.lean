import PagedMemory.Kernel
import PagedMemory.Proofs.AreaVerification
import PagedMemory.Proofs.ArgumentPages
import PagedMemory.Proofs.AuditVerdict
import PagedMemory.Proofs.BootstrapWindow
import PagedMemory.Proofs.BoundedLog
import PagedMemory.Proofs.Eager
import PagedMemory.Proofs.FatalReturns
import PagedMemory.Proofs.FaultRuns
import PagedMemory.Proofs.FlatMemory
import PagedMemory.Proofs.Flushing
import PagedMemory.Proofs.ForkFailure
import PagedMemory.Proofs.Guarantees
import PagedMemory.Proofs.Lookup
import PagedMemory.Proofs.OccupiedBlocks
import PagedMemory.Proofs.PoolBooks
import PagedMemory.Proofs.PoolHistory
import PagedMemory.Proofs.Reading
import PagedMemory.Proofs.RoundTrip
import PagedMemory.Proofs.SharedCounts
import PagedMemory.Proofs.SharedPrefix
import PagedMemory.Proofs.SharedWindow
import PagedMemory.Proofs.Sharers
import PagedMemory.Proofs.Signals
import PagedMemory.Proofs.Startup
import PagedMemory.Proofs.Teardown
import PagedMemory.Proofs.Wraparound
import PagedMemory.Proofs.WriteAgreement
