import LoanPool.Estate
import LoanPool.Main
import LoanPool.Pending.Session
import LoanPool.Proofs.Absence
import LoanPool.Proofs.Accounting
import LoanPool.Proofs.Admission
import LoanPool.Proofs.Capacity
import LoanPool.Proofs.Closing
import LoanPool.Proofs.Containment
import LoanPool.Proofs.Custody
import LoanPool.Proofs.Delivery
import LoanPool.Proofs.Dissolution
import LoanPool.Proofs.Dues
import LoanPool.Proofs.Exclusivity
import LoanPool.Proofs.Frames
import LoanPool.Proofs.HealthGate
import LoanPool.Proofs.IdleOrder
import LoanPool.Proofs.Isolation
import LoanPool.Proofs.Ledger
import LoanPool.Proofs.Lifecycle
import LoanPool.Proofs.Notices
import LoanPool.Proofs.Overflow
import LoanPool.Proofs.Pending.Erasure
import LoanPool.Proofs.Precedence
import LoanPool.Proofs.Probes
import LoanPool.Proofs.Quiescence
import LoanPool.Proofs.Reconciliation
import LoanPool.Proofs.Refill
import LoanPool.Proofs.Registry.Balance
import LoanPool.Proofs.Registry.Clients
import LoanPool.Proofs.Registry.Slots
import LoanPool.Proofs.Rehearsal.Stage
import LoanPool.Proofs.Return
import LoanPool.Proofs.Reuse
import LoanPool.Proofs.RoundTrip
import LoanPool.Proofs.Runs
import LoanPool.Proofs.Shortcut
import LoanPool.Proofs.Shutdown
import LoanPool.Proofs.Surplus
import LoanPool.Proofs.Tcp.Closing
import LoanPool.Proofs.Timeouts
import LoanPool.Proofs.Traffic
import LoanPool.Proofs.Turns
import LoanPool.Proofs.Unfolding
import LoanPool.Proofs.Workload
import LoanPool.Registry.Session
import LoanPool.Signal
import LoanPool.Site.Run
import LoanPool.Tcp.Link
import LoanPool.Tcp.Session
