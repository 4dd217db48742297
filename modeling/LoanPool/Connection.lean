/-!
# Identities and connections

The numbers by which a pool and its surroundings refer to things: each kind of number has a type of
its own, so that a request is never taken for a connection. And what a pool can see of a connection:
whether it is usable, and whether its close signal has fired. A close asked for may be confirmed at
once, later, or only by somebody else.
-/
namespace LoanPool

structure ConnId where
  number : Nat
deriving DecidableEq, Repr, Inhabited

/-- A connection as its maker numbers it: the call of the connector that produced it. -/
structure Serial where
  number : Nat
deriving DecidableEq, Repr, Inhabited

structure RequestId where
  number : Nat
deriving DecidableEq, Repr, Inhabited

structure TimerId where
  number : Nat
deriving DecidableEq, Repr, Inhabited

/-- The caller's end of one pool operation: its outcome arrives under this number. -/
structure Ticket where
  number : Nat
deriving DecidableEq, Repr, Inhabited

/-- A pool, by its place among all that are ever built, counted from one. -/
structure PoolId where
  number : Nat
deriving DecidableEq, Repr, Inhabited

structure Loan where
  id : ConnId
  pool : PoolId
deriving DecidableEq, Repr, Inhabited

def ConnId.text (id : ConnId) : String :=
  "conn-" ++ toString id.number

def ConnId.loanText (id : ConnId) (pool : Nat) : String :=
  "PooledConnection \x7b id: ConnectionId(" ++ toString id.number ++ "), pool: " ++ toString pool
    ++ ", .. \x7d"

inductive Confirmation where
  | atOnce
  | after (ms : Nat)
  /-- Only when the signal is fired from outside. -/
  | fromOutside
deriving DecidableEq, Repr, Inhabited

structure Connection where
  /-- Not closed, and not broken without notice. -/
  alive : Bool := true
  /-- The close signal has fired. It never goes back. -/
  fired : Bool := false
  confirmation : Confirmation := .atOnce
  closes : Nat := 0
deriving DecidableEq, Repr, Inhabited

namespace Connection

def isActive (c : Connection) : Bool :=
  c.alive && !c.fired

def confirms (c : Connection) : Bool :=
  c.fired || c.confirmation == .atOnce

def close (c : Connection) : Connection :=
  { c with alive := false, fired := c.confirms, closes := c.closes + 1 }

/-- Fires the signal. The answer tells whether this call did it. -/
def fire (c : Connection) : Bool × Connection :=
  (!c.fired, { c with fired := true })

def kill (c : Connection) : Connection :=
  { c with alive := false }

end Connection
end LoanPool
