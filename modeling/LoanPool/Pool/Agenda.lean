import LoanPool.Pool.Handle

/-!
# The agenda of a turn

A turn as a list of chores, the first of which is done next. A chore is done in one go and may leave
others in its place. Nothing here calls itself, so nothing is taken for granted about the length of
a turn: the searches through the idle connections, the rounds of serving the queue, and the
deliveries that come back and are passed on are all chores that follow each other.
-/
namespace LoanPool
open Pending (Request)

inductive Chore where
  /-- Looks at the next idle connection, for a request that has just come or else for the oldest one
  in the queue. -/
  | look (newcomer : Option Request)
  | deliver (r : Request) (id : ConnId)
  | recycle (id : ConnId)
  | serve
  | servePending
  | answer? (reply : Option Ticket) (outcome : Outcome)
  | settleClose
deriving DecidableEq, Repr

/-- A turn, and what is left to be done in it. -/
structure Agenda where
  turn : Turn
  chores : List Chore := []
deriving DecidableEq, Repr

namespace Turn

def found (w : Surroundings) (t : Turn) (id : ConnId) : Option Request → Agenda
  | some r => ⟨t, [.deliver r id]⟩
  | none =>
    match t.popLive w with
    | (some r, t) => ⟨t, [.deliver r id, .serve]⟩
    | (none, t) => ⟨t.putBack id, []⟩

def missed (w : Surroundings) (t : Turn) : Option Request → Agenda
  | some r =>
    if t.pool.registry.acquired < t.pool.config.maxConnections then ⟨t.openFor w (.owned r), []⟩
    else ⟨t.lineUp w r, []⟩
  | none =>
    if t.pool.registry.acquired < t.pool.config.maxConnections then
      match t.popLive w with
      | (some r, t) => ⟨(t.disarm r).openFor w (.owned { r with timer := none }), [.serve]⟩
      | (none, t) => ⟨t, []⟩
    else ⟨t, []⟩

def work (w : Surroundings) (t : Turn) : Chore → Agenda
  | .look newcomer =>
    match t.pool.registry.checkout? with
    | some (id, r) =>
      if (t.withRegistry r).reportsActive w id then (t.withRegistry r).found w id newcomer
      else ⟨(t.withRegistry r).discard w id, [.look newcomer]⟩
    | none => t.missed w newcomer
  | .deliver r id =>
    let offered := t.attempt w r id
    ⟨offered.2, if offered.1 then [.recycle id] else []⟩
  | .recycle id =>
    match t.popLive w with
    | (some r, t) => ⟨t.handOver id, [.deliver r id]⟩
    | (none, t) => ⟨t.shelve w id, []⟩
  | .serve => ⟨t, if t.pool.pending.requests.isEmpty then [] else [.look none]⟩
  | .servePending => ⟨t, if t.pool.closed then [] else [.serve]⟩
  | .answer? reply outcome => ⟨t.answer? reply outcome, []⟩
  | .settleClose => ⟨t.settleClose, []⟩

/-! ### Where a turn begins -/

def takeUpReturn (w : Surroundings) (t : Turn) (id : ConnId) (reply : Option Ticket) : Agenda :=
  if t.pool.closed then ⟨(t.discard w id).answer? reply .done, []⟩
  else
    match t.pool.registry.beginCheck? id with
    | none => ⟨t.answer? reply .done, []⟩
    | some (serial, r) =>
      let t := t.withRegistry r
      if !w.active t.effects serial then ⟨(t.discard w id).answer? reply .done, []⟩
      else
        let called := t.call w .released serial
        match t.refusal w .released serial with
        | some reason => ⟨(called.discard w id).answer? reply (.failed (.observer reason)), []⟩
        | none =>
          if !t.pool.config.checkOnRelease then ⟨called, [.recycle id, .answer? reply .done]⟩
          else if w.reachable called.effects then ⟨called.emit (.check id serial reply), []⟩
          else ⟨(called.discard w id).answer? reply .done, []⟩

def takeUpPlace (t : Turn) (target : Target) (id : ConnId) : Agenda :=
  match target with
  | .owned r => ⟨t, [.deliver r id]⟩
  | .queued request =>
    match t.takePending request with
    | (some r, t) => ⟨t, [.deliver r id]⟩
    | (none, t) => ⟨t, [.recycle id]⟩

def takeUpConnection (w : Surroundings) (t : Turn) (target : Target) (serial : Serial) : Agenda :=
  let (id, t) := t.register serial
  if t.pool.closed then ⟨(t.discard w id).failTarget target .poolClosed, []⟩
  else
    let called := t.call w .created serial
    match t.refusal w .created serial with
    | some reason => ⟨(called.discard w id).failTarget target (.observer reason), []⟩
    | none => called.takeUpPlace target id

/-- Takes up a command. What is left to be done comes before the queue is served. -/
def takeUp (w : Surroundings) (t : Turn) : Command → Agenda
  | .acquire ticket =>
    if t.pool.closed then ⟨t.answer ticket (.failed .poolClosed), []⟩
    else
      let (r, t) := t.newRequest ticket
      ⟨t, [.look (some r)]⟩
  | .release id ticket => t.takeUpReturn w id (some ticket)
  | .dropped id => t.takeUpReturn w id none
  | .connected target (.ok serial) => t.takeUpConnection w target serial
  | .checked id healthy reply =>
    if !t.pool.registry.isChecking id then ⟨t.answer? reply .done, []⟩
    else if healthy then ⟨t, [.recycle id, .answer? reply .done]⟩
    else ⟨(t.discard w id).answer? reply .done, []⟩
  -- The others are done in one go.
  | c => ⟨t.perform w c, []⟩

end Turn

namespace Agenda

def followedBy (a : Agenda) (more : List Chore) : Agenda :=
  { a with chores := a.chores ++ more }

def start (w : Surroundings) (p : Pool) (c : Command) : Agenda :=
  ((Turn.mk p []).takeUp w c).followedBy [.servePending, .settleClose]

def step (w : Surroundings) (a : Agenda) : Agenda :=
  match a.chores with
  | [] => a
  | chore :: rest => (a.turn.work w chore).followedBy rest

def run (w : Surroundings) (a : Agenda) : Nat → Agenda
  | 0 => a
  | n + 1 => (a.step w).run w n

end Agenda
end LoanPool
