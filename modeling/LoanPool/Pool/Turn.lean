import LoanPool.Pool.Basic

/-!
# One turn of a pool

A `Turn` is a pool in the middle of handling a command, with the effects it has had so far.
This module has its single moves; how they are put together to serve callers follows in
`LoanPool.Pool.Serve`.
-/
namespace LoanPool
open Pending (Request Queue)

structure Turn where
  pool : Pool
  /-- The effects so far, in order, each with the pool as it was then. -/
  log : List Moment := []
deriving DecidableEq, Repr, Inhabited

namespace Turn

def effects (t : Turn) : List Effect :=
  t.log.map (·.effect)

def emit (t : Turn) (e : Effect) : Turn :=
  { t with log := t.log ++ [⟨e, t.pool⟩] }

def withRegistry (t : Turn) (r : Registry) : Turn :=
  { t with pool := { t.pool with registry := r } }

def withPending (t : Turn) (q : Queue) : Turn :=
  { t with pool := { t.pool with pending := q } }

def answer (t : Turn) (ticket : Ticket) (outcome : Outcome) : Turn :=
  t.emit (.answer ticket outcome)

def answer? (t : Turn) (ticket : Option Ticket) (outcome : Outcome) : Turn :=
  match ticket with
  | some ticket => t.answer ticket outcome
  | none => t

def disarm (t : Turn) (r : Request) : Turn :=
  match r.timer with
  | some timer => t.emit (.disarm timer)
  | none => t

def disarmAll (t : Turn) (rs : List Request) : Turn :=
  rs.foldl disarm t

def fail (t : Turn) (r : Request) (e : PoolError) : Turn :=
  (t.disarm r).answer r.ticket (.failed e)

def refusal (w : Surroundings) (t : Turn) (h : Hook) (serial : Serial) : Option String :=
  w.refusal t.effects h serial

def call (w : Surroundings) (t : Turn) (h : Hook) (serial : Serial) : Turn :=
  t.emit (.hook h serial (t.refusal w h serial))

def discard (w : Surroundings) (t : Turn) (id : ConnId) : Turn :=
  match t.pool.registry.discard? (w.confirms t.effects) id with
  | some (serial, r) => (t.withRegistry r).emit (.close serial)
  | none => t

def handOver (t : Turn) (id : ConnId) : Turn :=
  t.withRegistry (t.pool.registry.handOver id)

def checkIn (t : Turn) (id : ConnId) : Turn :=
  t.withRegistry ((t.pool.registry.checkIn? id).getD t.pool.registry)

def putBack (t : Turn) (id : ConnId) : Turn :=
  t.withRegistry ((t.pool.registry.putBack? id).getD t.pool.registry)

/-- Takes waiting requests, of which these are all, from the queue until one is found whose
caller still waits. The timers of the others are stopped. -/
def popFrom (w : Surroundings) (t : Turn) : List Request → Option Request × Turn
  | [] => (none, t)
  | r :: rest =>
    let t := t.withPending { t.pool.pending with requests := rest }
    if w.gone t.effects r.ticket then popFrom w (t.disarm r) rest else (some r, t)

/-- The oldest request whose caller still waits. Those found on the way whose callers have gone
leave the queue, their timers stopped. -/
def popLive (w : Surroundings) (t : Turn) : Option Request × Turn :=
  t.popFrom w t.pool.pending.requests

def prune (w : Surroundings) (t : Turn) : Turn :=
  let gone := w.gone t.effects
  (t.withPending (t.pool.pending.prune gone)).disarmAll (t.pool.pending.abandoned gone)

def takePending (t : Turn) (id : RequestId) : Option Request × Turn :=
  match t.pool.pending.remove? id with
  | some (r, rest) => (some r, t.withPending rest)
  | none => (none, t)

def failTarget (t : Turn) (target : Target) (e : PoolError) : Turn :=
  match target with
  | .owned r => t.fail r e
  | .queued id =>
    match t.takePending id with
    | (some r, t) => t.fail r e
    | (none, t) => t

def openFor (w : Surroundings) (t : Turn) (target : Target) : Turn :=
  if w.reachable t.effects then (t.withRegistry t.pool.registry.reserve).emit (.connect target)
  else t.failTarget target .poolClosed

def finishClose (t : Turn) : Turn :=
  let t' := { t with pool := { t.pool with closeWaiters := [] } }
  t.pool.closeWaiters.foldl (fun t ticket => t.answer ticket .done) t'

def shutDownIn (w : Surroundings) (t : Turn) (order : List ConnId) : Turn :=
  let waiting := t.pool.pending.requests
  let t := { t with
    pool := { t.pool with closed := true, pending := { t.pool.pending with requests := [] } } }
  let t := waiting.foldl (fun t r => t.fail r .poolClosed) t
  order.foldl (discard w) t

def shutDown (w : Surroundings) (t : Turn) : Turn :=
  t.shutDownIn w t.pool.registry.ids

/-! ### What the moves leave alone -/

@[simp] theorem pool_emit (t : Turn) (e : Effect) : (t.emit e).pool = t.pool := rfl

@[simp] theorem pool_answer (t : Turn) (k : Ticket) (o : Outcome) : (t.answer k o).pool = t.pool :=
  rfl

@[simp] theorem pool_disarm (t : Turn) (r : Request) : (t.disarm r).pool = t.pool := by
  unfold disarm; split <;> rfl

@[simp] theorem pool_disarmAll (t : Turn) (rs : List Request) : (t.disarmAll rs).pool = t.pool := by
  induction rs generalizing t with
  | nil => rfl
  | cons r rs ih => exact (ih (t.disarm r)).trans (pool_disarm t r)

@[simp] theorem pool_fail (t : Turn) (r : Request) (e : PoolError) : (t.fail r e).pool = t.pool := by
  simp [fail]

theorem pool_failAll (t : Turn) (rs : List Request) (e : PoolError) :
    (rs.foldl (fun t r => t.fail r e) t).pool = t.pool := by
  induction rs generalizing t with
  | nil => rfl
  | cons r rs ih => exact (ih (t.fail r e)).trans (pool_fail t r e)

@[simp] theorem pool_call (w : Surroundings) (t : Turn) (h : Hook) (s : Serial) :
    (t.call w h s).pool = t.pool := rfl

@[simp] theorem pending_withRegistry (t : Turn) (r : Registry) :
    (t.withRegistry r).pool.pending = t.pool.pending := rfl

@[simp] theorem pending_withPending (t : Turn) (q : Queue) :
    (t.withPending q).pool.pending = q := rfl

@[simp] theorem registry_withRegistry (t : Turn) (r : Registry) :
    (t.withRegistry r).pool.registry = r := rfl

@[simp] theorem registry_withPending (t : Turn) (q : Queue) :
    (t.withPending q).pool.registry = t.pool.registry := rfl

@[simp] theorem pending_discard (w : Surroundings) (t : Turn) (id : ConnId) :
    (t.discard w id).pool.pending = t.pool.pending := by
  unfold discard; split <;> rfl

@[simp] theorem pending_handOver (t : Turn) (id : ConnId) :
    (t.handOver id).pool.pending = t.pool.pending := rfl

theorem length_popFrom {w : Surroundings} {t t' : Turn} {rs : List Request} {r : Request}
    (h : t.popFrom w rs = (some r, t')) : t'.pool.pending.requests.length < rs.length := by
  induction rs generalizing t with
  | nil => cases h
  | cons first rest ih =>
    simp only [popFrom] at h
    split at h
    · exact Nat.lt_succ_of_lt (ih h)
    · cases h
      exact Nat.lt_succ_self rest.length

theorem length_popLive {w : Surroundings} {t t' : Turn} {r : Request}
    (h : t.popLive w = (some r, t')) :
    t'.pool.pending.requests.length < t.pool.pending.requests.length :=
  length_popFrom h

theorem requests_popFrom_none {w : Surroundings} {t t' : Turn} {rs : List Request}
    (all : t.pool.pending.requests = rs) (h : t.popFrom w rs = (none, t')) :
    t'.pool.pending.requests = [] := by
  induction rs generalizing t with
  | nil =>
    cases h
    exact all
  | cons first rest ih =>
    simp only [popFrom] at h
    split at h
    · exact ih (by simp) h
    · cases h

theorem requests_popLive_none {w : Surroundings} {t t' : Turn} (h : t.popLive w = (none, t')) :
    t'.pool.pending.requests = [] :=
  requests_popFrom_none rfl h

theorem pending_openFor_owned (w : Surroundings) (t : Turn) (r : Request) :
    (t.openFor w (.owned r)).pool.pending = t.pool.pending := by
  unfold openFor failTarget; split <;> simp

end Turn
end LoanPool
