import LoanPool.Deadline
import LoanPool.Registry

/-!
# The pool: state, commands, effects and errors

A pool is one state, changed by one command at a time. What it does to its surroundings while
it handles a command (calling hooks, closing connections, answering callers, starting work) is a
list of `Effect`s in the order in which they happen; what it asks of them is answered by a value
of `Surroundings`. An answer may depend on the effects so far, so nothing is assumed about how
the world behaves while a command is handled.
-/
namespace LoanPool
open Pending (Request Queue)

/-! ### Errors -/

inductive PoolError where
  | admissionRejected (pending limit : Nat)
  | acquireTimedOut (after : Duration)
  | foreignConnection (id : ConnId)
  | connect (cause : String)
  | observer (cause : String)
  | poolClosed
  | configuration (fault : ConfigFault)
deriving DecidableEq, Repr, Inhabited

namespace PoolError

/-- A stable label, by which failures are grouped. -/
def kind : PoolError → String
  | .admissionRejected .. => "admission_rejected"
  | .acquireTimedOut _ => "acquire_timed_out"
  | .foreignConnection _ => "foreign_connection"
  | .connect _ => "connect"
  | .observer _ => "observer"
  | .poolClosed => "pool_closed"
  | .configuration _ => "configuration"

def message : PoolError → String
  | .admissionRejected pending limit =>
    "too many outstanding acquire operations (" ++ toString pending ++ "/" ++ toString limit
      ++ " pending)"
  | .acquireTimedOut after => "acquire timed out after " ++ after.text
  | .foreignConnection id => "connection " ++ id.text ++ " was not acquired from this pool"
  | .connect cause => "connection attempt failed: " ++ cause
  | .observer cause => "pool observer failed: " ++ cause
  | .poolClosed => "pool is closed"
  | .configuration fault => "invalid pool configuration: " ++ fault.text

def source : PoolError → Option String
  | .connect cause => some cause
  | .observer cause => some cause
  | _ => none

end PoolError

/-! ### Commands and effects -/

inductive Hook where
  | created
  | acquired
  | released
deriving DecidableEq, Repr, Inhabited

structure Stats where
  maxConnections : Nat := 0
  /-- Capacity in use: connections on loan and connections being opened. -/
  acquired : Nat := 0
  idle : Nat := 0
  registered : Nat := 0
  connecting : Nat := 0
  closing : Nat := 0
  pending : Nat := 0
  closed : Bool := false
  totalCreated : Nat := 0
  totalTimeouts : Nat := 0
  totalRejected : Nat := 0
deriving DecidableEq, Repr, Inhabited

def Stats.isConsistent (s : Stats) : Bool :=
  s.registered + s.connecting == s.idle + s.acquired

inductive Outcome where
  | loan (id : ConnId) (serial : Serial)
  | done
  | stats (s : Stats)
  | failed (e : PoolError)
deriving DecidableEq, Repr, Inhabited

inductive Target where
  | owned (r : Request)
  /-- A request that is still queued, and may be served before the connection is there. -/
  | queued (id : RequestId)
deriving DecidableEq, Repr, Inhabited

inductive Command where
  | acquire (ticket : Ticket)
  | release (id : ConnId) (ticket : Ticket)
  | close (ticket : Ticket)
  | stats (ticket : Ticket)
  | connected (target : Target) (result : Except String Serial)
  /-- The verdict of a health check; a loan that was dropped has nobody to answer. -/
  | checked (id : ConnId) (healthy : Bool) (reply : Option Ticket)
  | timedOut (request : RequestId)
  | closed (id : ConnId)
  | dropped (id : ConnId)
deriving Repr, Inhabited

inductive Effect where
  | connect (target : Target)
  | check (id : ConnId) (serial : Serial) (reply : Option Ticket)
  | listen (id : ConnId) (serial : Serial)
  | arm (timer : TimerId) (request : RequestId) (after : Duration)
  | disarm (timer : TimerId)
  | hook (h : Hook) (serial : Serial) (refusal : Option String)
  | close (serial : Serial)
  | answer (ticket : Ticket) (outcome : Outcome)
deriving DecidableEq, Repr, Inhabited

/-- What the surroundings answer while a command is handled, given the effects so far. -/
structure Surroundings where
  active : List Effect → Serial → Bool
  gone : List Effect → Ticket → Bool
  refusal : List Effect → Hook → Serial → Option String
  /-- Whether the close signal of a connection has fired once it was told to close. -/
  confirms : List Effect → Serial → Bool
  /-- Whether anything but the pool itself still holds on to it: a handle, or work that it
  started. -/
  reachable : List Effect → Bool

structure Counters where
  created : Nat := 0
  timeouts : Nat := 0
  rejected : Nat := 0
deriving DecidableEq, Repr, Inhabited

structure Pool where
  config : Config
  registry : Registry
  pending : Queue
  closed : Bool := false
  closeWaiters : List Ticket := []
  nextConn : Nat := 1
  nextRequest : Nat := 1
  counters : Counters := {}
deriving DecidableEq, Repr, Inhabited

structure Moment where
  effect : Effect
  pool : Pool
deriving DecidableEq, Repr, Inhabited

namespace Pool

def start (config : Config) : Pool :=
  { config
    registry := { lifo := config.lifo }
    pending := { limit := config.pendingLimit } }

def stats (p : Pool) : Stats :=
  { maxConnections := p.config.maxConnections
    acquired := p.registry.acquired
    idle := p.registry.idle.length
    registered := p.registry.size
    connecting := p.registry.connecting
    closing := p.registry.closing.length
    pending := p.pending.requests.length
    closed := p.closed
    totalCreated := p.counters.created
    totalTimeouts := p.counters.timeouts
    totalRejected := p.counters.rejected }

end Pool
end LoanPool
