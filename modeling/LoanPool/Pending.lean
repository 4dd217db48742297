import LoanPool.Connection

/-!
# Waiting requests

The queue of acquires that wait for capacity, oldest first. A caller may leave at any time;
its request stays in the queue until it is come across, and holds no place meanwhile.

Whether the caller of a request has gone is a question to the surroundings, so the
operations that depend on it take the answer, `gone`, as a parameter.
-/
namespace LoanPool.Pending

structure Request where
  id : RequestId
  ticket : Ticket
  timer : Option TimerId := none
  /-- A connection past capacity has been asked for on its behalf. -/
  overflowOpened : Bool := false
deriving DecidableEq, Repr, Inhabited

/-- Marks that a connection past capacity is opened for the request; false if one was before. -/
def Request.openOverflow (r : Request) : Bool × Request :=
  (!r.overflowOpened, { r with overflowOpened := true })

structure Queue where
  /-- Oldest first. -/
  requests : List Request := []
  limit : Nat
deriving DecidableEq, Repr, Inhabited

namespace Queue

def push (q : Queue) (r : Request) : Queue :=
  { q with requests := q.requests ++ [r] }

def find? (q : Queue) (id : RequestId) : Option Request :=
  q.requests.find? (·.id = id)

def remove? (q : Queue) (id : RequestId) : Option (Request × Queue) :=
  (q.find? id).map fun r => (r, { q with requests := q.requests.eraseP (·.id = id) })

def replace (q : Queue) (id : RequestId) (r : Request) : Queue :=
  { q with requests := q.requests.set (q.requests.findIdx (·.id = id)) r }

def stale (gone : Ticket → Bool) (q : Queue) : List Request :=
  q.requests.takeWhile fun r => gone r.ticket

/-- The oldest request whose caller still waits, and the queue behind it. Those before it go. -/
def popLive? (gone : Ticket → Bool) (q : Queue) : Option (Request × Queue) :=
  match q.requests.dropWhile fun r => gone r.ticket with
  | [] => none
  | r :: rest => some (r, { q with requests := rest })

def abandoned (gone : Ticket → Bool) (q : Queue) : List Request :=
  q.requests.filter fun r => gone r.ticket

def prune (gone : Ticket → Bool) (q : Queue) : Queue :=
  { q with requests := q.requests.filter fun r => !gone r.ticket }

/-- No place is left. To be asked of a pruned queue. -/
def isFull (q : Queue) : Bool :=
  q.limit ≤ q.requests.length

end Queue
end LoanPool.Pending
