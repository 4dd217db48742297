import LoanPool.Time
import LoanPool.Connection

/-!
# Links

A link is one open stream together with its close signal. Sending, receiving and probing take the
stream in turns: one operation holds it, and the others wait in the order in which they came. What
the stream does, and which of two things that are ready an operation notices first, is up to the
surroundings: each is an `Event` of its own, so every interleaving is a list of events.

A close fires the signal, and takes the stream away if nobody holds it; else that is left to the
holder, which notices the signal while it waits for the stream. A probe does not look out for it.
-/
namespace LoanPool.Tcp

inductive Operation where
  -- Writes that many bytes.
  | send (size : Nat)
  -- Reads up to that many bytes.
  | recv (most : Nat)
  -- Looks for a byte, or the end of the stream, for a short time.
  | probe
deriving DecidableEq, Repr, Inhabited

inductive Stirring where
  -- Bytes were moved; or, for a probe, seen.
  | moved (bytes : Nat)
  -- The peer has hung up.
  | ended
  | failed
  -- The time the operation had is over.
  | elapsed
deriving DecidableEq, Repr, Inhabited

inductive TransferFault where
  -- The stream had been taken away before.
  | closed
  -- The signal fired meanwhile.
  | closedDuring (op : Operation)
  | failed (op : Operation)
  | timedOut
  | hungUp
deriving DecidableEq, Repr, Inhabited

inductive Result where
  | sent (bytes : Nat)
  | received (bytes : Nat)
  | alive (b : Bool)
  | fault (f : TransferFault)
deriving DecidableEq, Repr, Inhabited

def Operation.verb : Operation → String
  | .send _ => "send"
  | .recv _ => "recv"
  | .probe => "probe"

def TransferFault.message (peer : String) (recvTimeout : Duration) : TransferFault → String
  | .closed => "connection to " ++ peer ++ " is closed"
  | .closedDuring op => "connection to " ++ peer ++ " closed during " ++ op.verb
  | .failed (.recv _) => "tcp recv from " ++ peer
  | .failed op => "tcp " ++ op.verb ++ " to " ++ peer
  | .timedOut => "tcp recv from " ++ peer ++ " timed out after " ++ recvTimeout.text
  | .hungUp => "connection closed by " ++ peer

structure Holder where
  caller : Ticket
  op : Operation
  -- The stream was passed on to it, and it has not looked yet.
  passed : Bool := false
deriving DecidableEq, Repr, Inhabited

structure Link where
  -- The stream is still there.
  attached : Bool := true
  -- The close signal has fired.
  fired : Bool := false
  holder : Option Holder := none
  -- Those who wait for their turn, the first one first.
  waiting : List Holder := []
deriving DecidableEq, Repr, Inhabited

inductive Event where
  | start (caller : Ticket) (op : Operation)
  -- The holder looks at the stream that was passed on to it.
  | look
  -- The holder notices what the stream does.
  | stir (s : Stirring)
  -- The holder notices that the signal has fired.
  | notice
  | close
  -- The signal is fired by itself.
  | fire
deriving DecidableEq, Repr, Inhabited

namespace Link

def yield (l : Link) (r : Result) : List (Ticket × Result) × Link :=
  match l.holder with
  | none => ([], l)
  | some h =>
    ([(h.caller, r)],
      match l.waiting with
      | [] => { l with holder := none }
      | next :: rest => { l with holder := some { next with passed := true }, waiting := rest })

def shut (l : Link) : Link :=
  { l with attached := false, fired := true }

def enter (l : Link) (h : Holder) : List (Ticket × Result) × Link :=
  let l := { l with holder := some { h with passed := false } }
  if l.attached then ([], l)
  else match h.op with
    | .probe => l.yield (.alive false)
    | _ => l.yield (.fault .closed)

/-- An operation begins, or takes its place behind those that wait. A probe of a link whose signal
has fired does not wait. -/
def start (l : Link) (caller : Ticket) (op : Operation) : List (Ticket × Result) × Link :=
  if op = .probe ∧ l.fired then ([(caller, .alive false)], l)
  else match l.holder with
    | none => l.enter { caller, op }
    | some _ => ([], { l with waiting := l.waiting ++ [{ caller, op }] })

def stir (l : Link) (op : Operation) (s : Stirring) : List (Ticket × Result) × Link :=
  match op, s with
  | .send size, .moved _ => l.yield (.sent size)
  | .send _, .elapsed => ([], l)
  | .send size, _ => l.shut.yield (.fault (.failed (.send size)))
  | .recv _, .moved n => l.yield (.received n)
  | .recv _, .elapsed => l.yield (.fault .timedOut)
  | .recv most, .ended =>
    if most = 0 then l.yield (.received 0) else l.shut.yield (.fault .hungUp)
  | .recv most, .failed => l.shut.yield (.fault (.failed (.recv most)))
  | .probe, .moved _ => l.yield (.alive true)
  | .probe, .elapsed => l.yield (.alive true)
  | .probe, _ => l.shut.yield (.alive false)

def step (l : Link) : Event → List (Ticket × Result) × Link
  | .start caller op => l.start caller op
  | .look =>
    match l.holder with
    | some h => if h.passed then l.enter h else ([], l)
    | none => ([], l)
  | .stir s =>
    match l.holder with
    | some h => if h.passed then ([], l) else l.stir h.op s
    | none => ([], l)
  | .notice =>
    match l.holder with
    | some h =>
      if h.passed ∨ h.op = .probe ∨ !l.fired then ([], l)
      else { l with attached := false }.yield (.fault (.closedDuring h.op))
    | none => ([], l)
  | .close =>
    ([], { l with fired := true, attached := l.attached && l.holder.isSome })
  | .fire => ([], { l with fired := true })

/-- Whether the link reports itself usable, given whether a look at an idle stream shows that the
peer has hung up. A stream that is held counts as usable. -/
def isActive (l : Link) (hungUp : Bool) : Bool :=
  !l.fired && (l.holder.isSome || (l.attached && !hungUp))

def run (l : Link) : List Event → List (Ticket × Result) × Link
  | [] => ([], l)
  | e :: rest =>
    let (first, l) := l.step e
    let (more, l) := l.run rest
    (first ++ more, l)

end Link
end LoanPool.Tcp
