import LoanPool.Site

/-!
# Scripts

What a rehearsal needs to know beforehand: for each pool its configuration, what becomes of each
call of its connector and its checker, and what its hooks object to; and then the steps that
callers and surroundings take.
-/
namespace LoanPool.Rehearsal

structure ConnectPlan where
  delay : Nat := 0
  -- It waits, after the delay, until its gate is opened.
  gated : Bool := false
  failure : Option String := none
  -- The connection that results if it does not fail.
  connection : Connection := {}
deriving Repr, Inhabited

inductive Verdict where
  | healthy
  | unhealthy
  | error
  -- Whatever the connection reports at that moment.
  | asReported
deriving DecidableEq, Repr, Inhabited

structure CheckPlan where
  delay : Nat := 0
  gated : Bool := false
  verdict : Verdict := .asReported
deriving Repr, Inhabited

structure PoolPlan where
  config : Config := {}
  -- By the number of the call, from one.
  connects : Nat → ConnectPlan := fun _ => {}
  -- By the number of the check, from one. Without a plan a connection is healthy while it
  -- reports itself usable.
  checks : Option (Nat → CheckPlan) := none
  -- Whether calls of hooks are recorded.
  observed : Bool := false
  objections : Hook → Nat → Option String := fun _ _ => none

inductive Happening where
  | connect
  | check
  | hook (h : Hook)
  | close
deriving DecidableEq, Repr, Inhabited

structure Event where
  what : Happening
  pool : Nat
  serial : Serial
deriving DecidableEq, Repr, Inhabited

/-- One action of a caller or of the surroundings. Pools and futures are counted from zero. -/
inductive Move where
  | acquire (pool : Nat) (unread : Bool)
  | close (pool : Nat) (unread : Bool)
  | stats (pool : Nat) (unread : Bool)
  -- Gives the loan of a future back, to its own pool unless another is named.
  | release (future : Nat) (pool : Option Nat)
  | drop (future : Nat)
  | poll (future : Nat)
  | clone (pool : Nat)
  | dropHandle (pool : Nat)
  | kill (pool : Nat) (serial : Serial)
  | fire (pool : Nat) (serial : Serial)
  | shut (pool : Nat) (serial : Serial)
  | openConnect (pool : Nat) (call : Nat)
  | openCheck (pool : Nat) (call : Nat)
  | advance (ms : Nat)
  | unknown
deriving DecidableEq, Repr, Inhabited

/-- A step: one move, or several with no progress in between. -/
inductive Step where
  | one (m : Move)
  | batch (steps : List Step)
deriving Repr, Inhabited

inductive Reply where
  -- The outcome will arrive under this number.
  | future (n : Nat)
  | droppedLoan
  | droppedFuture
  | droppedNothing
  | value (outcome : Outcome)
  | notReady
  | count (n : Nat)
  | flag (b : Bool)
  | noGate
  | noPool
  | noHandle
  | noSlot
  | noLoan
  | noConnection
  | unknownStep
  | many (replies : List Reply)
deriving Repr, Inhabited

structure PoolView where
  -- Absent once no handle is left to ask through.
  stats : Option Stats
  -- The connections that report themselves usable, in ascending order.
  live : List Serial
deriving Repr, Inhabited

structure Answer where
  reply : Reply
  -- The futures that were answered, with their outcomes.
  resolved : List (Nat × Outcome)
  pools : List PoolView
  events : List Event
deriving Repr, Inhabited

end LoanPool.Rehearsal
