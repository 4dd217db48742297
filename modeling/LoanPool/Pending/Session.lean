import LoanPool.Time
import LoanPool.Deadline
import LoanPool.Pool.Basic

/-!
# Working a queue by hand

A queue of waiting requests driven directly, with the callers' ends of the requests and a clock
for their deadlines. A request that has left the queue is put aside under its name, to be settled
from there. A name may be used again: the caller's end then belongs to the newest request of it,
and one that is put aside takes the place of an older one of its name.
-/
namespace LoanPool.Pending

inductive Op where
  -- A new request, its deadline timer running.
  | push (id : RequestId)
  -- The caller leaves.
  | abandon (id : RequestId)
  | isFull
  | pop
  | remove (id : RequestId)
  | drain
  | get (id : RequestId)
  | openOverflow (id : RequestId)
  | expire (id : RequestId)
  | disarm (id : RequestId)
  -- Hands a connection to a request that is put aside. If its caller has gone, the loan ends
  -- without notice or is given back.
  | fulfil (id : RequestId) (conn : ConnId) (settling : Bool)
  | timeOut (id : RequestId) (after : Duration)
  | fail (id : RequestId) (e : PoolError)
  -- The caller looks at its outcome. A loan is then dropped.
  | read (id : RequestId)
  | advance (ms : Nat)
deriving DecidableEq, Repr

inductive Answer where
  | nothing
  | flag (b : Bool)
  -- The time until the deadline of a new request.
  | within (ms : Nat)
  | request (id : RequestId)
  | requests (ids : List RequestId)
  -- A request that is queued, and whether its caller has gone.
  | queued (abandoned : Bool)
  | expiry (e : Expiry)
  | delivered
  | returned (conn : ConnId)
  | settled (conn : ConnId)
  | done
  -- No request of this name has been put aside.
  | notHeld
  | loan (conn : ConnId)
  | failed (e : PoolError)
  -- Not answered yet.
  | empty
  -- There is nothing to be had any more.
  | closed
  | elapsed (ms : Nat)
deriving DecidableEq, Repr

inductive Letter where
  | awaited
  | arrived (outcome : Except PoolError ConnId)
  -- Read already, or never to arrive.
  | closed
deriving Repr, Inhabited

structure Session where
  config : Config
  queue : Queue
  -- The requests that were put aside.
  held : List Request := []
  -- The callers that have not left, with the number of the letter each waits for.
  callers : List (RequestId × Ticket) := []
  letters : List Letter := []
  clock : Clock (TimerId × RequestId) := {}

structure Report where
  answer : Answer
  -- The requests whose deadlines passed.
  fired : List RequestId := []
  -- The loans that ended by being dropped.
  dropped : List ConnId := []
deriving DecidableEq, Repr

namespace Session

def start (config : Config) (limit : Nat) : Session :=
  { config, queue := { limit } }

def isGone (s : Session) (k : Ticket) : Bool :=
  !s.callers.any fun c => c.2 = k

def letter (s : Session) (k : Ticket) : Letter :=
  s.letters[k.number]?.getD .closed

def setLetter (s : Session) (k : Ticket) (l : Letter) : Session :=
  { s with letters := s.letters.set k.number l }

def disarm (s : Session) (r : Request) : Session :=
  { s with clock := s.clock.cancel fun t => r.timer = some t.1 }

/-- A request ceases to be, and will never be answered. Its timer runs on. -/
def forget (s : Session) (r : Request) : Session :=
  match s.letter r.ticket with
  | .awaited => s.setLetter r.ticket .closed
  | _ => s

def unread (s : Session) (k : Ticket) : List ConnId :=
  match s.letter k with
  | .arrived (.ok conn) => [conn]
  | _ => []

def leave (s : Session) (id : RequestId) : Bool × List ConnId × Session :=
  match s.callers.lookup id with
  | none => (false, [], s)
  | some k => (true, s.unread k, { s with callers := s.callers.filter fun c => c.1 ≠ id })

def putAside (s : Session) (r : Request) : Session :=
  let s := match s.held.find? (·.id = r.id) with
    | some old => s.forget old
    | none => s
  { s with held := s.held.filter (·.id ≠ r.id) ++ [r] }

def takeHeld? (s : Session) (id : RequestId) : Option (Request × Session) :=
  (s.held.find? (·.id = id)).map fun r => (r, { s with held := s.held.filter (·.id ≠ id) })

def push (s : Session) (id : RequestId) : Report × Session :=
  let (_, dropped, s) := s.leave id
  let k : Ticket := ⟨s.letters.length⟩
  let s := { s with callers := s.callers ++ [(id, k)], letters := s.letters ++ [Letter.awaited] }
  let r : Request := { id, ticket := k }
  match s.config.acquireTimeout with
  | none => ({ answer := .nothing, dropped }, { s with queue := s.queue.push r })
  | some after =>
    let timer : TimerId := ⟨k.number⟩
    ({ answer := .within after.toMillis, dropped },
      { s with
        queue := s.queue.push { r with timer := some timer }
        clock := s.clock.set (s.clock.now + after.toMillis) (timer, id) })

def prune (s : Session) : Session :=
  (s.queue.abandoned s.isGone).foldl disarm { s with queue := s.queue.prune s.isGone }

def pop (s : Session) : Report × Session :=
  let cleared := (s.queue.stale s.isGone).foldl disarm s
  match s.queue.popLive? s.isGone with
  | some (r, queue) => ({ answer := .request r.id }, { cleared with queue }.putAside r)
  | none => ({ answer := .nothing }, { cleared with queue := { s.queue with requests := [] } })

def onQueued (s : Session) (id : RequestId) (f : Request → Answer × Request) (disarming : Bool) :
    Report × Session :=
  match s.queue.find? id with
  | none => ({ answer := .nothing }, s)
  | some r =>
    let (answer, changed) := f r
    let s := if disarming then s.disarm r else s
    ({ answer }, { s with queue := s.queue.replace id changed })

def settle (s : Session) (id : RequestId) (f : Request → Session → Report × Session) :
    Report × Session :=
  match s.takeHeld? id with
  | none => ({ answer := .notHeld }, s)
  | some (r, s) => f r (s.disarm r)

/-- The alarms up to an instant, in order. Hearing one sets no other. -/
def advance (s : Session) (ms : Nat) : Report × Session :=
  let (fired, clock) := s.clock.strike (s.clock.now + ms)
  ({ answer := .elapsed ms, fired := fired.map (·.2) }, { s with clock })

def step (s : Session) : Op → Report × Session
  | .push id => s.push id
  | .abandon id =>
    let (present, dropped, s) := s.leave id
    ({ answer := .flag present, dropped }, s)
  | .isFull =>
    let s := s.prune
    ({ answer := .flag s.queue.isFull }, s)
  | .pop => s.pop
  | .remove id =>
    match s.queue.remove? id with
    | some (r, queue) => ({ answer := .flag true }, { s with queue }.putAside r)
    | none => ({ answer := .flag false }, s)
  | .drain =>
    let all := s.queue.requests
    ({ answer := .requests (all.map (·.id)) },
      all.foldl putAside { s with queue := { s.queue with requests := [] } })
  | .get id => s.onQueued id (fun r => (.queued (s.isGone r.ticket), r)) false
  | .openOverflow id =>
    s.onQueued id (fun r => (.flag r.openOverflow.1, r.openOverflow.2)) false
  | .expire id =>
    s.onQueued id (fun r => (.expiry (s.config.expire r).1, (s.config.expire r).2)) false
  | .disarm id => s.onQueued id (fun r => (.flag true, { r with timer := none })) true
  | .fulfil id conn settling =>
    s.settle id fun r s =>
      if s.isGone r.ticket then
        if settling then ({ answer := .settled conn }, s)
        else ({ answer := .returned conn, dropped := [conn] }, s)
      else ({ answer := .delivered }, s.setLetter r.ticket (.arrived (.ok conn)))
  | .timeOut id after =>
    s.settle id fun r s =>
      ({ answer := .done }, s.setLetter r.ticket (.arrived (.error (.acquireTimedOut after))))
  | .fail id e =>
    s.settle id fun r s =>
      ({ answer := .done }, s.setLetter r.ticket (.arrived (.error e)))
  | .read id =>
    match s.callers.lookup id with
    | none => ({ answer := .nothing }, s)
    | some k =>
      match s.letter k with
      | .awaited => ({ answer := .empty }, s)
      | .closed => ({ answer := .closed }, s)
      | .arrived (.ok conn) =>
        ({ answer := .loan conn, dropped := [conn] }, s.setLetter k .closed)
      | .arrived (.error e) => ({ answer := .failed e }, s.setLetter k .closed)
  | .advance ms => s.advance ms

end Session
end LoanPool.Pending
