import LoanPool.Proofs.Quiescence
import LoanPool.Site.Run
import Mathlib.Logic.Relation

/-!
# Turns in small steps

A turn of the pool is cut into `Move`s, each of which changes the pool once and has one effect at
most. Between two of them anything may happen at the site. What the pool has taken up and not yet
put down is in its `Hand`: a connection in use without a holder, requests that are in no queue,
and callers who are still to be answered.

A `Move` says what the pool may do, with the conditions under which it does it, so what every move
keeps is kept by every run.
-/
namespace LoanPool
open Pending (Request)

def Target.requests : Target → List Request
  | .owned r => [r]
  | .queued _ => []

/-- A request that fails is counted if it waited too long, or was not let in. -/
def PoolError.counted (cause : PoolError) (c : Counters) : Counters :=
  match cause with
  | .acquireTimedOut _ => { c with timeouts := c.timeouts + 1 }
  | .admissionRejected .. => { c with rejected := c.rejected + 1 }
  | _ => c

def Outcome.counted (outcome : Outcome) (c : Counters) : Counters :=
  match outcome with
  | .failed cause => cause.counted c
  | _ => c

/-- A deadline that asks for a connection past capacity is counted whether one is opened or not. -/
def Expiry.counted (expiry : Expiry) (c : Counters) : Counters :=
  match expiry with
  | .openOverflow => { c with timeouts := c.timeouts + 1 }
  | _ => c

namespace Command

def requests : Command → List Request
  | .connected target _ => target.requests
  | _ => []

def replies : Command → List Ticket
  | .acquire k => [k]
  | .release _ k => [k]
  | .close k => [k]
  | .stats k => [k]
  | .checked _ _ reply => reply.toList
  | _ => []

def returned? : Command → Option ConnId
  | .release id _ => some id
  | .dropped id => some id
  | _ => none

def isConnected : Command → Bool
  | .connected .. => true
  | _ => false

/-- Nothing is left to do about a command but to answer it. -/
def Moot (p : Pool) : Command → Prop
  | .close _ => p.closed = true
  | .release id _ => p.registry.beginCheck? id = none
  | .dropped id => p.registry.beginCheck? id = none
  | .checked id _ _ => p.registry.isChecking id = false
  | .timedOut request => p.pending.find? request = none
  | _ => False

end Command

/-- How far the pool has come with the connection in hand. -/
inductive Stage where
  /-- It was idle a moment ago. -/
  | spare
  | opened
  /-- Its loan has ended. -/
  | returned
  /-- Its health check has come to an end. -/
  | judged
  | told (h : Hook) (refusal : Option String)

namespace Stage

def isReady : Stage → Bool
  | .spare => true
  | .judged => true
  | .told _ none => true
  | _ => false

def calls : Stage → Hook → Bool
  | .opened, .created => true
  | .returned, .released => true
  | stage, .acquired => stage.isReady
  | _, _ => false

end Stage

/-- What the pool has in hand in the middle of a turn. -/
structure Hand where
  /-- A turn that has begun, and nothing has been done about it. -/
  task : Option (Option Command) := none
  /-- Requests in no queue, the next one to be dealt with first. -/
  requests : List Request := []
  /-- The request is new, and has neither been served nor put in line. -/
  fresh : Bool := false
  /-- A connection in use that has no holder. -/
  conn : Option ConnId := none
  stage : Stage := .spare
  /-- Callers who are to be answered, the next one first. -/
  replies : List Ticket := []
  /-- The caller whose close is under way, and not yet among those who wait for its end. -/
  closer : Option Ticket := none

/-- How a site stood at a moment of the record, and the pool before the turn that it belongs to. -/
structure View where
  before : Pool
  site : Site

structure Memory where
  command : Option Command := none
  before : Pool
  /-- One view for each entry of the record. -/
  views : List View := []

namespace Memory

def see (m : Memory) (s : Site) : Memory :=
  { m with views := m.views ++ [⟨m.before, s⟩] }

def begin (m : Memory) (c : Option Command) (s : Site) : Memory :=
  { command := c, before := s.pool, views := m.views ++ [⟨s.pool, s⟩] }

end Memory

/-- A site at any moment, also in the middle of a turn. -/
structure Scene where
  now : Nat
  site : Site
  hand : Hand := {}
  memory : Memory
  past : List Site.Record := []

namespace Scene

def start (config : Config) (observer : Hook → Nat → Option String) : Scene :=
  { now := 0, site := .start config observer, memory := { before := .start config } }

abbrev pool (sc : Scene) : Pool :=
  sc.site.pool

abbrev registry (sc : Scene) : Registry :=
  sc.site.pool.registry

abbrev command (sc : Scene) : Option Command :=
  sc.memory.command

def alter (sc : Scene) (p : Pool) (h : Hand) : Scene :=
  { sc with site := sc.site.withPool p, hand := h }

abbrev withRegistry (sc : Scene) (r : Registry) (h : Hand) : Scene :=
  sc.alter { sc.pool with registry := r } h

abbrev withPending (sc : Scene) (q : Pending.Queue) (h : Hand) : Scene :=
  sc.alter { sc.pool with pending := q } h

def emit (sc : Scene) (e : Effect) : Scene :=
  { sc with
    site := sc.site.enact sc.now e
    memory := sc.memory.see sc.site
    past := sc.past ++
      [{ now := sc.now, command := sc.command, effect := some e, pool := sc.site.pool }] }

def Spent (sc : Scene) : Prop :=
  sc.hand.conn = none ∧ sc.registry.idle = [] ∧
    sc.pool.config.maxConnections ≤ sc.registry.acquired

/-- Why a request is taken out of the middle of the queue: what a connection past capacity came to,
or its deadline while there is nothing to serve it with. -/
def Calls (sc : Scene) (id : RequestId) : Prop :=
  (∃ result, sc.command = some (.connected (.queued id) result)) ∨
    sc.command = some (.timedOut id) ∧ sc.Spent ∧
      (sc.pool.config.timeoutAction = .fail ∨
        sc.pool.config.timeoutAction = .newConnection ∧ sc.site.isReachable = false)

/-- The turn is about the deadline of a request that fails then, and nothing has come of it yet. -/
def Overdue (sc : Scene) (r : Request) (after : Duration) : Prop :=
  sc.command = some (.timedOut r.id) ∧ sc.pool.config.timeoutAction = .fail ∧
    sc.pool.config.acquireTimeout = some after ∧
    ∀ rec, sc.past.getLast? = some rec → rec.effect = none

def Armed (sc : Scene) (r : Request) (timeout : Duration) : Prop :=
  ∃ rec, sc.past.getLast? = some rec ∧ rec.command = sc.command ∧
    rec.effect = some (.arm ⟨r.id.number⟩ r.id timeout)

/-- The hook that comes before a loan was called just now, and did not refuse. The pool has not
changed since; a timer may have been stopped. -/
def Promised (sc : Scene) (serial : Serial) : Prop :=
  ∃ front rec later, sc.past = front ++ rec :: later ∧ rec.command = sc.command ∧
    rec.effect = some (.hook .acquired serial none) ∧ rec.pool = sc.pool ∧
    ∀ stop ∈ later, ∃ timer, stop.effect = some (.disarm timer)

/-- A connection that came back goes on to others when it has been found healthy, unless nobody
checks. -/
def Fit (sc : Scene) (id : ConnId) : Prop :=
  sc.registry.isChecking id = true → sc.pool.config.checkOnRelease = true →
    ∃ reply, sc.command = some (.checked id true reply)

end Scene

inductive Move (sc : Scene) : Scene → Prop where
  | event {later : Nat} {e : Site.Event} (order : sc.now ≤ later)
      (allowed : sc.site.allows later e = true) :
      Move sc { sc with now := later, site := sc.site.happen e }
  | wait {later : Nat} (order : sc.now ≤ later) : Move sc { sc with now := later }
  | begin {c : Option Command} {rest : Site} (free : sc.hand = {})
      (due : sc.site.next? = some (c, rest)) :
      Move sc
        { sc with
          site := rest
          hand := { task := some c }
          memory := sc.memory.begin c sc.site
          past := sc.past ++ [{ now := sc.now, command := c, pool := sc.pool }] }
  -- What a turn begins with.
  | dismiss {c : Command} (task : sc.hand = { task := some (some c) }) (moot : c.Moot sc.pool) :
      Move sc (sc.alter sc.pool { replies := c.replies })
  | refuse {k : Ticket} (task : sc.hand = { task := some (some (.acquire k)) })
      (closed : sc.pool.closed = true) :
      Move sc ((sc.alter sc.pool {}).emit (.answer k (.failed .poolClosed)))
  | acquire {k : Ticket} (task : sc.hand = { task := some (some (.acquire k)) })
      (opened : sc.pool.closed = false) (quiet : sc.pool.Quiet) :
      Move sc (sc.alter { sc.pool with nextRequest := sc.pool.nextRequest + 1 }
        { requests := [{ id := ⟨sc.pool.nextRequest⟩, ticket := k }], fresh := true })
  | stats {k : Ticket} (task : sc.hand = { task := some (some (.stats k)) }) :
      Move sc ((sc.alter sc.pool {}).emit (.answer k (.stats sc.pool.stats)))
  | shut {c : Option Command} {closer : Option Ticket} (task : sc.hand = { task := some c })
      (ends : c = closer.map .close) (opened : closer ≠ none → sc.pool.closed = false) :
      Move sc (sc.alter
        { sc.pool with closed := true, pending := { sc.pool.pending with requests := [] } }
        { requests := sc.pool.pending.requests, closer })
  | seize {c : Command} {id : ConnId} {serial : Serial} {confirms : Serial → Bool} {r : Registry}
      (task : sc.hand = { task := some (some c) }) (back : c.returned? = some id)
      (closed : sc.pool.closed = true)
      (honest : ∀ k, confirms k = ((sc.site.connection? k).map (·.confirms)).getD true)
      (removed : sc.registry.discard? confirms id = some (serial, r)) :
      Move sc ((sc.withRegistry r { replies := c.replies }).emit (.close serial))
  | takeBack {c : Command} {id : ConnId} {serial : Serial} {r : Registry}
      (task : sc.hand = { task := some (some c) }) (back : c.returned? = some id)
      (opened : sc.pool.closed = false) (lent : sc.registry.beginCheck? id = some (serial, r)) :
      Move sc (sc.withRegistry r { conn := some id, stage := .returned, replies := c.replies })
  | connectDone {target : Target} {serial : Serial}
      (task : sc.hand = { task := some (some (.connected target (.ok serial))) }) :
      Move sc ((sc.alter
        { sc.pool with
          registry := sc.registry.register ⟨sc.pool.nextConn⟩ serial
          nextConn := sc.pool.nextConn + 1
          counters := { sc.pool.counters with created := sc.pool.counters.created + 1 } }
        { conn := some ⟨sc.pool.nextConn⟩, stage := .opened, requests := target.requests }).emit
          (.listen ⟨sc.pool.nextConn⟩ serial))
  | connectFailed {target : Target} {cause : String}
      (task : sc.hand = { task := some (some (.connected target (.error cause))) }) :
      Move sc (sc.withRegistry sc.registry.cancelReservation { requests := target.requests })
  | verdict {id : ConnId} {healthy : Bool} {reply : Option Ticket}
      (task : sc.hand = { task := some (some (.checked id healthy reply)) })
      (checking : sc.registry.isChecking id = true) :
      Move sc (sc.alter sc.pool { conn := some id, stage := .judged, replies := reply.toList })
  | expire {id : RequestId} {r : Request}
      (task : sc.hand = { task := some (some (.timedOut id)) })
      (queued : sc.pool.pending.find? id = some r)
      (lost : (sc.pool.config.expire r).1 = .openOverflow → sc.site.isReachable = false) :
      Move sc (sc.alter
        { sc.pool with
          pending := sc.pool.pending.replace id (sc.pool.config.expire r).2
          counters := (sc.pool.config.expire r).1.counted sc.pool.counters } {})
  | overflow {id : RequestId} {r r' : Request}
      (task : sc.hand = { task := some (some (.timedOut id)) })
      (queued : sc.pool.pending.find? id = some r)
      (due : sc.pool.config.expire r = (.openOverflow, r'))
      (reachable : sc.site.isReachable = true) (drained : sc.registry.idle = []) :
      Move sc ((sc.alter
        { sc.pool with
          pending := sc.pool.pending.replace id r'
          counters := { sc.pool.counters with timeouts := sc.pool.counters.timeouts + 1 }
          registry := sc.registry.reserve } {}).emit (.connect (.queued id)))
  | forget {id : ConnId} (task : sc.hand = { task := some (some (.closed id)) }) :
      Move sc (sc.withRegistry (sc.registry.forget id).2 {})
  -- What becomes of a connection.
  | checkout {id : ConnId} {r : Registry} (free : sc.hand.task = none)
      (empty : sc.hand.conn = none) (opened : sc.pool.closed = false)
      (taken : sc.registry.checkout? = some (id, r)) :
      Move sc (sc.withRegistry r { sc.hand with conn := some id, stage := .spare })
  | lose {id : ConnId} (held : sc.hand.conn = some id)
      (unknown : sc.registry.find? id = none) :
      Move sc (sc.alter sc.pool { sc.hand with conn := none, stage := .spare })
  | discard {id : ConnId} {serial : Serial} {confirms : Serial → Bool} {r : Registry}
      (held : sc.hand.conn = some id)
      (honest : ∀ k, confirms k = ((sc.site.connection? k).map (·.confirms)).getD true)
      (removed : sc.registry.discard? confirms id = some (serial, r))
      (unwelcome : sc.hand.stage = .opened → sc.pool.closed = true) :
      Move sc ((sc.withRegistry r { sc.hand with conn := none, stage := .spare }).emit
        (.close serial))
  | evict {id : ConnId} {serial : Serial} {confirms : Serial → Bool} {r : Registry}
      (free : sc.hand.task = none) (empty : sc.hand.conn = none) (closed : sc.pool.closed = true)
      (honest : ∀ k, confirms k = ((sc.site.connection? k).map (·.confirms)).getD true)
      (removed : sc.registry.discard? confirms id = some (serial, r)) :
      Move sc ((sc.withRegistry r sc.hand).emit (.close serial))
  | handOver {id : ConnId} (held : sc.hand.conn = some id) (fit : sc.Fit id) :
      Move sc (sc.withRegistry (sc.registry.handOver id) sc.hand)
  | checkIn {id : ConnId} (held : sc.hand.conn = some id)
      (unwanted : sc.pool.pending.requests = [])
      (kept : ¬(sc.pool.config.overflow = .shrink ∧
        sc.pool.config.maxConnections < sc.registry.size)) (fit : sc.Fit id)
      (ready : sc.hand.stage.isReady = true) :
      Move sc (sc.withRegistry ((sc.registry.checkIn? id).getD sc.registry)
        { sc.hand with conn := none, stage := .spare })
  | putBack {id : ConnId} (held : sc.hand.conn = some id)
      (unwanted : sc.pool.pending.requests = []) (lent : sc.registry.slot? id = some .onLoan)
      (spare : sc.hand.stage = .spare) :
      Move sc (sc.withRegistry ((sc.registry.putBack? id).getD sc.registry)
        { sc.hand with conn := none, stage := .spare })
  | hook {id : ConnId} {serial : Serial} {h : Hook} {refusal : Option String}
      (held : sc.hand.conn = some id) (known : sc.registry.serial? id = some serial)
      (heard : refusal = sc.site.observer h (sc.site.calls.get h + 1))
      (timely : sc.hand.stage.calls h = true) (welcome : h = .created → sc.pool.closed = false) :
      Move sc ((sc.alter sc.pool { sc.hand with stage := .told h refusal }).emit
        (.hook h serial refusal))
  | check {id : ConnId} {serial : Serial} {reply : Option Ticket} (held : sc.hand.conn = some id)
      (replies : sc.hand.replies = reply.toList) (reachable : sc.site.isReachable = true)
      (known : sc.registry.serial? id = some serial)
      (checking : sc.registry.isChecking id = true)
      (back : sc.command.bind Command.returned? = some id)
      (told : sc.hand.stage = .told .released none) :
      Move sc ((sc.alter sc.pool { sc.hand with conn := none, stage := .spare, replies := [] }).emit
        (.check id serial reply))
  -- What becomes of a request.
  | pop {r : Request} {rest : List Request} (free : sc.hand.task = none)
      (bare : sc.hand.requests = []) (front : sc.pool.pending.requests = r :: rest) :
      Move sc (sc.withPending { sc.pool.pending with requests := rest }
        { sc.hand with requests := [r] })
  | sift {r : Request} {gone : Ticket → Bool} (held : sc.hand.requests = [r])
      (left : ∀ k, gone k = true → sc.site.standing k = .abandoned) :
      Move sc (sc.withPending (sc.pool.pending.prune gone)
        { sc.hand with requests := sc.pool.pending.abandoned gone ++ [r] })
  | fetch {id : RequestId} {r : Request} {q : Pending.Queue} (free : sc.hand.task = none)
      (bare : sc.hand.requests = []) (called : sc.Calls id)
      (found : sc.pool.pending.remove? id = some (r, q)) :
      Move sc (sc.withPending q { sc.hand with requests := [r] })
  | disarm {r : Request} {rs : List Request} {timer : TimerId}
      (held : sc.hand.requests = r :: rs) (armed : r.timer = some timer) :
      Move sc ((sc.alter sc.pool
        { sc.hand with requests := { r with timer := none } :: rs }).emit (.disarm timer))
  | forsake {r : Request} {rs : List Request} (held : sc.hand.requests = r :: rs)
      (unarmed : r.timer = none) (left : sc.site.standing r.ticket = .abandoned) :
      Move sc (sc.alter sc.pool { sc.hand with requests := rs })
  | fail {r : Request} {rs : List Request} {cause : PoolError}
      (held : sc.hand.requests = r :: rs) (unarmed : r.timer = none)
      (grounds : cause = .poolClosed → sc.pool.closed = true ∨ sc.site.isReachable = false)
      (overdue : ∀ after, cause = .acquireTimedOut after → sc.Overdue r after) :
      Move sc ((sc.alter
        { sc.pool with counters := (Outcome.failed cause).counted sc.pool.counters }
        { sc.hand with requests := rs }).emit (.answer r.ticket (.failed cause)))
  | lend {r : Request} {id : ConnId} {serial : Serial}
      (held : sc.hand.requests = [r]) (unarmed : r.timer = none)
      (conn : sc.hand.conn = some id) (known : sc.registry.serial? id = some serial)
      (lent : sc.registry.slot? id = some .onLoan)
      (present : sc.site.standing r.ticket ≠ .abandoned)
      (told : sc.hand.stage = .told .acquired none) (promised : sc.Promised serial) :
      Move sc
        ((sc.alter sc.pool { sc.hand with requests := [], conn := none, stage := .spare }).emit
          (.answer r.ticket (.loan id serial)))
  | connect {r : Request} (held : sc.hand.requests = [r]) (opened : sc.pool.closed = false)
      (unarmed : r.timer = none) (reachable : sc.site.isReachable = true)
      (drained : sc.registry.idle = [])
      (room : sc.registry.acquired < sc.pool.config.maxConnections) :
      Move sc ((sc.withRegistry sc.registry.reserve { sc.hand with requests := [] }).emit
        (.connect (.owned r)))
  | settle (fresh : sc.hand.fresh = true) :
      Move sc (sc.alter sc.pool { sc.hand with fresh := false })
  | arm {r : Request} {timeout : Duration} (held : sc.hand.requests = [r])
      (unarmed : r.timer = none) (limited : sc.pool.config.acquireTimeout = some timeout)
      (newest : r.id.number + 1 = sc.pool.nextRequest) (fresh : sc.hand.fresh = true) :
      Move sc ((sc.alter sc.pool
        { sc.hand with requests := [{ r with timer := some ⟨r.id.number⟩ }], fresh := false }).emit
          (.arm ⟨r.id.number⟩ r.id timeout))
  | enqueue {r : Request} (held : sc.hand.requests = [r]) (opened : sc.pool.closed = false)
      (newest : r.id.number + 1 = sc.pool.nextRequest) (room : sc.pool.pending.isFull = false)
      (asked : sc.command = some (.acquire r.ticket))
      (armed : ∀ timeout, sc.pool.config.acquireTimeout = some timeout → sc.Armed r timeout) :
      Move sc (sc.withPending (sc.pool.pending.push r)
        { sc.hand with requests := [], fresh := false })
  -- What becomes of a caller.
  | answer {k : Ticket} {ks : List Ticket} {outcome : Outcome} (owed : sc.hand.replies = k :: ks)
      (plain : outcome = .done ∨ ∃ reason, outcome = .failed (.observer reason)) :
      Move sc ((sc.alter sc.pool { sc.hand with replies := ks }).emit (.answer k outcome))
  | await {k : Ticket} (owed : sc.hand = { closer := some k }) :
      Move sc (sc.alter { sc.pool with closeWaiters := sc.pool.closeWaiters ++ [k] }
        { sc.hand with closer := none })
  | report (free : sc.hand = {}) (closed : sc.pool.closed = true)
      (complete : sc.registry.isDrained = true ∨
        sc.registry.entries = [] ∧ sc.command = none ∧ sc.site.ended = true) :
      Move sc (sc.alter { sc.pool with closeWaiters := [] } { replies := sc.pool.closeWaiters })

abbrev Path : Scene → Scene → Prop :=
  Relation.ReflTransGen Move

end LoanPool
