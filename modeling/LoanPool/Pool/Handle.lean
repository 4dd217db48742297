import LoanPool.Pool.Serve

/-!
# Commands

What a pool does on each command. After every command the queue is served, and a close that has
become complete is reported.
-/
namespace LoanPool
open Pending (Request)

namespace Turn

def newRequest (t : Turn) (ticket : Ticket) : Request × Turn :=
  ({ id := ⟨t.pool.nextRequest⟩, ticket },
    { t with pool := { t.pool with nextRequest := t.pool.nextRequest + 1 } })

def count (t : Turn) (f : Counters → Counters) : Turn :=
  { t with pool := { t.pool with counters := f t.pool.counters } }

def enqueue (t : Turn) (r : Request) : Turn :=
  match t.pool.config.acquireTimeout with
  | some timeout =>
    let timer : TimerId := ⟨r.id.number⟩
    let t := t.emit (.arm timer r.id timeout)
    t.withPending (t.pool.pending.push { r with timer := some timer })
  | none => t.withPending (t.pool.pending.push r)

def lineUp (w : Surroundings) (t : Turn) (r : Request) : Turn :=
  let t := t.prune w
  if t.pool.pending.isFull then
    (t.count fun c => { c with rejected := c.rejected + 1 }).fail r
      (.admissionRejected t.pool.pending.requests.length t.pool.pending.limit)
  else t.enqueue r

/-- An idle connection, else a new one while there is capacity, else a place in the queue. -/
def acquire (w : Surroundings) (t : Turn) (ticket : Ticket) : Turn :=
  if t.pool.closed then t.answer ticket (.failed .poolClosed)
  else
    let (r, t) := t.newRequest ticket
    match t.checkout w with
    | (some id, t) => t.deliver w r id
    | (none, t) =>
      if t.pool.registry.acquired < t.pool.config.maxConnections then t.openFor w (.owned r)
      else t.lineUp w r

def register (t : Turn) (serial : Serial) : ConnId × Turn :=
  let id : ConnId := ⟨t.pool.nextConn⟩
  let t := { t with
    pool := { t.pool with
      registry := t.pool.registry.register id serial
      nextConn := t.pool.nextConn + 1 } }
  (id, (t.count fun c => { c with created := c.created + 1 }).emit (.listen id serial))

/-- Brings a new connection to whoever it was opened for. If that request has been served in the
meantime, the connection is treated as one that came back. -/
def place (w : Surroundings) (t : Turn) (target : Target) (id : ConnId) : Turn :=
  match target with
  | .owned r => t.deliver w r id
  | .queued request =>
    match t.takePending request with
    | (some r, t) => t.deliver w r id
    | (none, t) => t.recycle w id

def connected (w : Surroundings) (t : Turn) (target : Target) (result : Except String Serial) :
    Turn :=
  match result with
  | .error cause =>
    (t.withRegistry t.pool.registry.cancelReservation).failTarget target (.connect cause)
  | .ok serial =>
    let (id, t) := t.register serial
    if t.pool.closed then (t.discard w id).failTarget target .poolClosed
    else
      let called := t.call w .created serial
      match t.refusal w .created serial with
      | some reason => (called.discard w id).failTarget target (.observer reason)
      | none => called.place w target id

/-- Ends a loan, whether it was given back or dropped; a dropped one has nobody to answer. -/
def takeBack (w : Surroundings) (t : Turn) (id : ConnId) (reply : Option Ticket) : Turn :=
  if t.pool.closed then (t.discard w id).answer? reply .done
  else
    match t.pool.registry.beginCheck? id with
    | none => t.answer? reply .done
    | some (serial, r) =>
      let t := t.withRegistry r
      if !w.active t.effects serial then (t.discard w id).answer? reply .done
      else
        let called := t.call w .released serial
        match t.refusal w .released serial with
        | some reason => (called.discard w id).answer? reply (.failed (.observer reason))
        | none =>
          if !t.pool.config.checkOnRelease then (called.recycle w id).answer? reply .done
          else if w.reachable called.effects then called.emit (.check id serial reply)
          else (called.discard w id).answer? reply .done

/-- Applies a verdict, unless the connection was closed or deregistered while it was checked. -/
def checked (w : Surroundings) (t : Turn) (id : ConnId) (healthy : Bool) (reply : Option Ticket) :
    Turn :=
  if !t.pool.registry.isChecking id then t.answer? reply .done
  else (if healthy then t.recycle w id else t.discard w id).answer? reply .done

def timedOut (w : Surroundings) (t : Turn) (request : RequestId) : Turn :=
  match t.pool.pending.find? request with
  | none => t
  | some r =>
    let (expiry, r) := t.pool.config.expire r
    let t := t.withPending (t.pool.pending.replace request r)
    let timedOut : Counters → Counters := fun c => { c with timeouts := c.timeouts + 1 }
    match expiry with
    | .fail after =>
      match t.takePending request with
      | (some r, t) => (t.count timedOut).fail r (.acquireTimedOut after)
      | (none, t) => t
    | .openOverflow => (t.count timedOut).openFor w (.queued request)
    | .ignore => t

/-- Begins the close. A pool that is closed or closing already answers at once. -/
def close (w : Surroundings) (t : Turn) (ticket : Ticket) : Turn :=
  if t.pool.closed then t.answer ticket .done
  else
    let t := t.shutDown w
    { t with pool := { t.pool with closeWaiters := t.pool.closeWaiters ++ [ticket] } }

def perform (w : Surroundings) (t : Turn) : Command → Turn
  | .acquire ticket => t.acquire w ticket
  | .release id ticket => t.takeBack w id (some ticket)
  | .close ticket => t.close w ticket
  | .stats ticket => t.answer ticket (.stats t.pool.stats)
  | .connected target result => t.connected w target result
  | .checked id healthy reply => t.checked w id healthy reply
  | .timedOut request => t.timedOut w request
  | .closed id => t.withRegistry (t.pool.registry.forget id).2
  | .dropped id => t.takeBack w id none

def settleClose (t : Turn) : Turn :=
  if t.pool.closed ∧ t.pool.registry.isDrained then t.finishClose else t

end Turn

namespace Pool

def handle (w : Surroundings) (p : Pool) (c : Command) : Turn :=
  (((Turn.mk p []).perform w c).servePending w).settleClose

def finish (w : Surroundings) (p : Pool) : Turn :=
  ((Turn.mk p []).shutDown w).finishClose

def respond (w : Surroundings) (p : Pool) : Option Command → Turn
  | some c => p.handle w c
  | none => p.finish w

end Pool
end LoanPool
