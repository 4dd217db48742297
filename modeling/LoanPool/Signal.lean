/-!
# Close signals

A close signal is shared by all its clones and fires once. A wait on it ends when the signal
fires, or when no clone is left that could fire it. A wait either only looks at the signal
or holds a clone of its own.
-/
namespace LoanPool.Signal

structure Wait where
  signal : Nat
  -- It keeps the signal alive as a clone would.
  holds : Bool
  ended : Bool := false
deriving DecidableEq, Repr

structure Board where
  -- For each signal, whether it has fired.
  fired : List Bool := []
  -- For each clone, the signal it belongs to, until the clone is dropped.
  clones : List (Option Nat) := []
  waits : List Wait := []
deriving DecidableEq, Repr

inductive Op where
  | new
  | clone (n : Nat)
  | fire (n : Nat)
  | isFired (n : Nat)
  | watch (n : Nat)
  -- A wait that holds a clone.
  | hold (n : Nat)
  | drop (n : Nat)
deriving DecidableEq, Repr

inductive Answer where
  | number (n : Nat)
  | flag (b : Bool)
  | dropped
  | noSignal
deriving DecidableEq, Repr

namespace Board

def hasFired (b : Board) (signal : Nat) : Bool :=
  b.fired[signal]?.getD false

def isHeld (b : Board) (signal : Nat) : Bool :=
  b.clones.contains (some signal) || b.waits.any fun w => w.signal == signal && w.holds && !w.ended

/-- A wait that goes on has nothing to end it. -/
def ends (b : Board) (w : Wait) : Bool :=
  !w.ended && (b.hasFired w.signal || !b.isHeld w.signal)

def settle (b : Board) : List Nat × Board :=
  ((b.waits.zipIdx.filter fun (w, _) => b.ends w).map (·.2),
    { b with waits := b.waits.map fun w => { w with ended := w.ended || b.ends w } })

def wait (b : Board) (signal : Nat) (holds : Bool) : Answer × Board :=
  (.number b.waits.length, { b with waits := b.waits ++ [{ signal, holds }] })

def perform (b : Board) (op : Op) : Answer × Board :=
  let on (n : Nat) (f : Nat → Answer × Board) : Answer × Board :=
    match b.clones[n]?.join with
    | some signal => f signal
    | none => (.noSignal, b)
  match op with
  | .new =>
    (.number b.clones.length,
      { b with fired := b.fired ++ [false], clones := b.clones ++ [some b.fired.length] })
  | .clone n => on n fun signal =>
    (.number b.clones.length, { b with clones := b.clones ++ [some signal] })
  | .fire n => on n fun signal =>
    (.flag !(b.hasFired signal), { b with fired := b.fired.set signal true })
  | .isFired n => on n fun signal => (.flag (b.hasFired signal), b)
  | .watch n => on n fun signal => b.wait signal false
  | .hold n => on n fun signal => b.wait signal true
  | .drop n => on n fun _ => (.dropped, { b with clones := b.clones.set n none })

/-- An operation, then the waits that ended with it. -/
def step (b : Board) (op : Op) : (Answer × List Nat) × Board :=
  let (answer, b) := b.perform op
  let (ready, b) := b.settle
  ((answer, ready), b)

end Board
end LoanPool.Signal
