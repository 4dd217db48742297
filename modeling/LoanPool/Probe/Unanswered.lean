import LoanPool.Probe.Cycle
import LoanPool.Tcp.Session

/-!
# Probing an endpoint that does not answer

The workers and the pool are tasks on one queue, and so is each attempt to connect, which fails as
soon as it is made. As nothing is ever connected, a cycle is over with the answer to its acquire,
and the worker begins its next one.
-/
namespace LoanPool.Probe

inductive Task where
  | pool
  | worker (n : Nat)
  | attempt (target : Target)
deriving DecidableEq, Repr, Inhabited

structure Worker where
  -- The cycles it has still to begin.
  left : Nat
  -- An answer it has not looked at yet.
  answer : Option Outcome := none
  -- The cycles behind it.
  courses : List Course := []
deriving Repr, Inhabited

structure Crew where
  pool : Pool
  mailbox : List Command := []
  -- The tasks to be run, the next one first.
  queue : List Task
  workers : Array Worker
  -- Why every attempt to connect fails.
  cause : String

def courseOf (outcome : Option Outcome) : Course :=
  match outcome with
  | some (.failed e) => { acquire := .error e }
  | _ => { acquire := .error .poolClosed }

namespace Crew

def start (p : Pool) (o : Options) (cause : String) : Crew :=
  { pool := p
    queue := (List.range o.workers).map .worker
    workers := ((List.range o.workers).map fun _ => { left := o.iterations }).toArray
    cause }

def enqueue (c : Crew) (t : Task) : Crew :=
  { c with queue := c.queue ++ [t] }

def send (c : Crew) (command : Command) : Crew :=
  let c := { c with mailbox := c.mailbox ++ [command] }
  if .pool ∈ c.queue then c else c.enqueue .pool

def enact (c : Crew) : Effect → Crew
  | .connect target => c.enqueue (.attempt target)
  | .answer k outcome =>
    { c with workers := c.workers.modify k.number fun w => { w with answer := some outcome } }.enqueue
      (.worker k.number)
  | _ => c

def runPool (c : Crew) : Crew :=
  c.mailbox.foldl
    (fun c command =>
      let turn := c.pool.handle .barren command
      turn.effects.foldl enact { c with pool := turn.pool })
    { c with mailbox := [] }

def runWorker (c : Crew) (n : Nat) : Crew :=
  match c.workers[n]? with
  | none => c
  | some w =>
    let courses := match w.answer with
      | some outcome => courseOf (some outcome) :: w.courses
      | none => w.courses
    let c := { c with
      workers := c.workers.modify n fun w =>
        { left := w.left - 1, answer := none, courses } }
    if w.left = 0 then c else c.send (.acquire ⟨n⟩)

def perform (c : Crew) : Task → Crew
  | .pool => c.runPool
  | .worker n => c.runWorker n
  | .attempt target => c.send (.connected target (.error c.cause))

def run : Nat → Crew → Crew
  | 0, c => c
  | n + 1, c =>
    match c.queue with
    | [] => c
    | t :: rest => run n ({ c with queue := rest }.perform t)

end Crew

/-- Probes an endpoint that does not answer. Each cycle takes its worker, one attempt to connect at
most, and the pool once for every command that these two send. -/
def unanswered (s : Settings) (o : Options) : Except ConfigFault Report := do
  s.pool.admissible true
  let cause := s.endpoint.connector.message .refused
  let tasks := 4 * (o.workers * (o.iterations + 1))
  let crew := (Crew.start (.start s.pool) o cause).run tasks
  let courses := crew.workers.map fun w => w.courses.reverse.toArray
  let course (worker iteration : Nat) : Course :=
    ((courses[worker]?.bind fun all => all[iteration]?)).getD (courseOf none)
  return o.report s.endpoint.address course { stats := crew.pool.stats }

end LoanPool.Probe
