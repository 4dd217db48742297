import LoanPool.Connection

/-!
# The registry

Every connection a pool answers for, idle or in use, with the queue of idle ones, the
connections whose close is not yet confirmed, and the two counters: `acquired` counts the
connections in use and those being opened, `connecting` the latter alone.

The idle queue is kept in the order in which it is handed out, so that taking the next one
is the same for both orders; they differ only in where a returning connection is put.

The counters never go below zero. Whether one ever would have is kept in `overdrawn`.
-/
namespace LoanPool

inductive Slot where
  | idle
  | onLoan
  /-- Given back by its holder, not yet found healthy. Still counted as in use. -/
  | checking
deriving DecidableEq, Repr, Inhabited

structure Entry where
  id : ConnId
  serial : Serial
  slot : Slot
deriving DecidableEq, Repr, Inhabited

structure Registry where
  entries : List Entry := []
  /-- The next one to be handed out stands first. -/
  idle : List ConnId := []
  /-- Closed by the pool, close not yet confirmed. -/
  closing : List ConnId := []
  acquired : Nat := 0
  connecting : Nat := 0
  lifo : Bool := true
  /-- A unit was given back to a counter that stood at zero. -/
  overdrawn : Bool := false
deriving DecidableEq, Repr, Inhabited

namespace Registry

def find? (r : Registry) (id : ConnId) : Option Entry :=
  r.entries.find? (·.id = id)

def serial? (r : Registry) (id : ConnId) : Option Serial :=
  (r.find? id).map (·.serial)

def slot? (r : Registry) (id : ConnId) : Option Slot :=
  (r.find? id).map (·.slot)

def ids (r : Registry) : List ConnId :=
  r.entries.map (·.id)

def size (r : Registry) : Nat :=
  r.entries.length

def relabel (entries : List Entry) (id : ConnId) (slot : Slot) : List Entry :=
  entries.map fun e => if e.id = id then { e with slot := slot } else e

def reserve (r : Registry) : Registry :=
  { r with acquired := r.acquired + 1, connecting := r.connecting + 1 }

def giveBack (r : Registry) : Registry :=
  { r with acquired := r.acquired - 1, overdrawn := r.overdrawn || r.acquired == 0 }

def land (r : Registry) : Registry :=
  { r with connecting := r.connecting - 1, overdrawn := r.overdrawn || r.connecting == 0 }

def cancelReservation (r : Registry) : Registry :=
  r.giveBack.land

/-- Registers a new connection against its reservation. It starts out on loan. -/
def register (r : Registry) (id : ConnId) (serial : Serial) : Registry :=
  let entry : Entry := ⟨id, serial, .onLoan⟩
  { r.land with
    entries :=
      if r.entries.any (·.id = id) then r.entries.map fun e => if e.id = id then entry else e
      else r.entries ++ [entry] }

def checkout? (r : Registry) : Option (ConnId × Registry) :=
  match r.idle with
  | [] => none
  | id :: rest =>
    some (id,
      if (r.find? id).isSome then
        { r with
          idle := rest
          entries := relabel r.entries id .onLoan
          acquired := r.acquired + 1 }
      else { r with idle := rest })

/-- Begins the return of a connection that is on loan; no other has one to end. -/
def beginCheck? (r : Registry) (id : ConnId) : Option (Serial × Registry) :=
  match r.find? id with
  | some e =>
    if e.slot = .onLoan then some (e.serial, { r with entries := relabel r.entries id .checking })
    else none
  | none => none

def isChecking (r : Registry) (id : ConnId) : Bool :=
  r.slot? id = some .checking

/-- Ends the use of a registered connection. Refused when it is unknown or idle already. -/
def park? (r : Registry) (id : ConnId) : Option Registry :=
  match r.find? id with
  | some e =>
    if e.slot = .idle then none
    else some { r.giveBack with entries := relabel r.entries id .idle }
  | none => none

def checkIn? (r : Registry) (id : ConnId) : Option Registry :=
  (r.park? id).map fun r => { r with idle := if r.lifo then id :: r.idle else r.idle ++ [id] }

/-- Undoes a `checkout?`: the connection is again the next one to be handed out. -/
def putBack? (r : Registry) (id : ConnId) : Option Registry :=
  (r.park? id).map fun r => { r with idle := id :: r.idle }

def handOver (r : Registry) (id : ConnId) : Registry :=
  if r.isChecking id then { r with entries := relabel r.entries id .onLoan } else r

def remove? (r : Registry) (id : ConnId) : Option (Serial × Registry) :=
  match r.find? id with
  | some e =>
    let rest := r.entries.filter (·.id ≠ id)
    some (e.serial,
      if e.slot = .idle then { r with entries := rest, idle := r.idle.filter (· ≠ id) }
      else { r.giveBack with entries := rest })
  | none => none

/-- Drops the registration of a connection that is being closed. Unless its close is confirmed
at once, it is remembered until then. -/
def discard? (r : Registry) (confirms : Serial → Bool) (id : ConnId) : Option (Serial × Registry) :=
  (r.remove? id).map fun (serial, r) =>
    (serial,
      if confirms serial ∨ id ∈ r.closing then r else { r with closing := r.closing ++ [id] })

/-- Whether a connection whose close was noticed was still registered, and what is left. -/
def forget (r : Registry) (id : ConnId) : Bool × Registry :=
  let r := { r with closing := r.closing.filter (· ≠ id) }
  match r.remove? id with
  | some (_, r) => (true, r)
  | none => (false, r)

def isDrained (r : Registry) : Bool :=
  r.entries.isEmpty && r.closing.isEmpty && r.connecting == 0

end Registry
end LoanPool
