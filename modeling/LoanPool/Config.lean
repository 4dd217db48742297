import LoanPool.Time

/-!
# Pool configuration

Capacity, admission limit, timeout policy and the fate of surplus connections.
`Config.validate` says which configurations a pool can honour.
-/
namespace LoanPool

/-- The largest count a configuration can name, and the limit that stands for "unbounded". -/
def countMax : Nat :=
  Nat.pow 2 64 - 1

inductive TimeoutAction where
  | none
  | fail
  /-- The waiter stays queued and a connection past capacity is opened for it. -/
  | newConnection
deriving DecidableEq, Repr, Inhabited

inductive OverflowPolicy where
  /-- A surplus connection is closed when it comes back and nobody waits for it. -/
  | shrink
  | retain
deriving DecidableEq, Repr, Inhabited

def TimeoutAction.text : TimeoutAction → String
  | .none => "none"
  | .fail => "fail"
  | .newConnection => "new_connection"

def OverflowPolicy.text : OverflowPolicy → String
  | .shrink => "shrink"
  | .retain => "retain"

def TimeoutAction.ofText? : String → Option TimeoutAction
  | "none" => some .none
  | "fail" => some .fail
  | "new_connection" => some .newConnection
  | _ => Option.none

def OverflowPolicy.ofText? : String → Option OverflowPolicy
  | "shrink" => some .shrink
  | "retain" => some .retain
  | _ => none

theorem TimeoutAction.ofText?_text (a : TimeoutAction) : ofText? a.text = some a := by
  cases a <;> rfl

theorem OverflowPolicy.ofText?_text (p : OverflowPolicy) : ofText? p.text = some p := by
  cases p <;> rfl

structure Config where
  maxConnections : Nat := 10
  /-- Cap on queued waiters; absent means unbounded. -/
  maxPending : Option Nat := none
  /-- A waiter's deadline in milliseconds; zero sets none. -/
  acquireTimeoutMs : Nat := 0
  timeoutAction : TimeoutAction := .none
  checkOnRelease : Bool := true
  /-- Whether the connection that became idle last is handed out first. -/
  lifo : Bool := true
  overflow : OverflowPolicy := .shrink
deriving DecidableEq, Repr, Inhabited

inductive ConfigFault where
  | noConnections
  | noWaiters
  | outsideRuntime
  | unreadable
  | stated (reason : String)
deriving DecidableEq, Repr, Inhabited

def ConfigFault.text : ConfigFault → String
  | .noConnections => "max_connections must be at least 1"
  | .noWaiters => "max_pending_acquires must be at least 1"
  | .outsideRuntime => "a pool must be built inside a tokio runtime"
  | .unreadable => "TOML parse error"
  | .stated reason => reason

namespace Config

def validate (c : Config) : Except ConfigFault Unit :=
  if c.maxConnections = 0 then .error .noConnections
  else if c.maxPending = some 0 then .error .noWaiters
  else .ok ()

def pendingLimit (c : Config) : Nat :=
  c.maxPending.getD countMax

def acquireTimeout (c : Config) : Option Duration :=
  if c.acquireTimeoutMs = 0 ∨ c.timeoutAction = .none then none
  else some (.ofMillis c.acquireTimeoutMs)

/-- Sets the deadline, capped at the largest number of milliseconds that can be named. -/
def withTimeout (c : Config) (timeout : Duration) (action : TimeoutAction) : Config :=
  { c with acquireTimeoutMs := min timeout.toMillis countMax, timeoutAction := action }

def admissible (c : Config) (running : Bool) : Except ConfigFault Unit := do
  c.validate
  if running then .ok () else .error .outsideRuntime

theorem validate_eq_ok_iff (c : Config) :
    c.validate = .ok () ↔ 1 ≤ c.maxConnections ∧ c.maxPending ≠ some 0 := by
  unfold validate
  by_cases none_lent : c.maxConnections = 0
  · simp [none_lent]
  · by_cases none_wait : c.maxPending = some 0
    · simp [none_lent, none_wait]
    · simp [none_lent, none_wait, Nat.one_le_iff_ne_zero]

end Config
end LoanPool
