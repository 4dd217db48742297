import LoanPool.Probe.Report

/-!
# Probe cycles

A probe is a number of workers, each of which goes through a number of cycles: it acquires a
connection, sends the payload and waits for something to come back, and gives the connection back
in any case. What the pool and the endpoint do in a cycle is its `Course`; the report counts how
the cycles ended.
-/
namespace LoanPool.Probe

structure Options where
  workers : Nat := 4
  iterations : Nat := 10
  payload : String := "ping"
deriving DecidableEq, Repr, Inhabited

/-- How everything that is done in one cycle turns out, if it is done. -/
structure Course where
  acquire : Except PoolError ConnId
  send : Except String Unit := .ok ()
  receive : Except String String := .ok ""
  release : Except PoolError Unit := .ok ()
deriving Repr, Inhabited

inductive Deed where
  | acquire
  | send (id : ConnId) (payload : String)
  | receive (id : ConnId) (most : Nat)
  | release (id : ConnId)
deriving DecidableEq, Repr, Inhabited

/-- Work whose deeds are noted down, one after another, and which a failure ends. -/
abbrev Work :=
  ExceptT String (StateM (List Deed))

def attempt {α : Type} (deed : Deed) (answer : Except String α) : Work α := do
  modify (· ++ [deed])
  MonadExcept.ofExcept answer

namespace Course

def exchange (c : Course) (id : ConnId) (payload : String) : Work Unit := do
  attempt (.send id payload) c.send
  discard (attempt (.receive id (max payload.utf8ByteSize 1)) c.receive)

/-- One cycle. A failure on the way has to wait until the connection is given back, and a failure
to give it back outweighs it. -/
def cycle (c : Course) (payload : String) : Work Unit := do
  let id ← attempt .acquire (c.acquire.mapError PoolError.kind)
  let exchanged ← ExceptT.lift (c.exchange id payload).run
  attempt (.release id) (c.release.mapError PoolError.kind)
  MonadExcept.ofExcept (exchanged.mapError fun _ => "io")

end Course

def Options.worker (o : Options) (course : Nat → Course) :
    StateM (List Deed) (List (Except String Unit)) :=
  (List.range o.iterations).mapM fun iteration => ((course iteration).cycle o.payload).run

def bump (kind : String) : List (String × Nat) → List (String × Nat)
  | [] => [(kind, 1)]
  | (k, n) :: rest =>
    if kind = k then (k, n + 1) :: rest
    else if kind < k then (kind, 1) :: (k, n) :: rest
    else (k, n) :: bump kind rest

structure Tally where
  successes : Nat := 0
  failures : List (String × Nat) := []
deriving DecidableEq, Repr, Inhabited

def Tally.add (t : Tally) : Except String Unit → Tally
  | .ok () => { t with successes := t.successes + 1 }
  | .error kind => { t with failures := bump kind t.failures }

def Options.tally (o : Options) (course : Nat → Nat → Course) : Tally :=
  (List.range o.workers).foldl
    (fun t worker => ((o.worker (course worker)).run []).1.foldl Tally.add t) {}

structure Finding where
  created : Nat := 0
  acquired : Nat := 0
  released : Nat := 0
  elapsedMs : Nat := 0
  stats : Stats
deriving DecidableEq, Repr, Inhabited

def Options.report (o : Options) (address : String) (course : Nat → Nat → Course)
    (found : Finding) : Report :=
  let tally := o.tally course
  { address
    workers := o.workers
    iterations := o.iterations
    successes := tally.successes
    failures := tally.failures
    created := found.created
    acquired := found.acquired
    released := found.released
    elapsedMs := found.elapsedMs
    stats := found.stats }

end LoanPool.Probe
