import LoanPool.Registry

/-!
# Working a registry by hand

A registry driven directly, with any sequence of operations on any names, and connections
that confirm a close at once or only when their signal is fired.
-/
namespace LoanPool.Registry

inductive Op where
  | reserve
  | cancel
  /-- Registers a new connection; a lagging one does not confirm its close by itself. -/
  | register (id : ConnId) (lagging : Bool)
  | checkout
  | beginCheck (id : ConnId)
  | isChecking (id : ConnId)
  | checkIn (id : ConnId)
  | putBack (id : ConnId)
  | handOver (id : ConnId)
  | get (id : ConnId)
  | discard (id : ConnId)
  | forget (id : ConnId)
  | fire (id : ConnId)
deriving DecidableEq, Repr

inductive Answer where
  | nothing
  | flag (b : Bool)
  | named (id : ConnId)
  | count (n : Nat)
deriving DecidableEq, Repr

structure Session where
  registry : Registry
  /-- Every connection admitted so far; a serial is a place in this list. -/
  made : List (ConnId × Connection) := []

namespace Session

def start (lifo : Bool) : Session :=
  { registry := { lifo := lifo } }

def connection? (s : Session) (serial : Serial) : Option Connection :=
  s.made[serial.number]?.map (·.2)

def confirms (s : Session) (serial : Serial) : Bool :=
  ((s.connection? serial).map (·.confirms)).getD true

def modify (s : Session) (serial : Serial) (f : Connection → Connection) : Session :=
  { s with made := s.made.modify serial.number fun (id, c) => (id, f c) }

def latest? (s : Session) (id : ConnId) : Option Serial :=
  (s.made.zipIdx.reverse.find? (·.1.1 = id)).map fun e => ⟨e.2⟩

def update (s : Session) (r : Option Registry) : Answer × Session :=
  match r with
  | some r => (.flag true, { s with registry := r })
  | none => (.flag false, s)

def step (s : Session) : Op → Answer × Session
  | .reserve => (.nothing, { s with registry := s.registry.reserve })
  | .cancel => (.nothing, { s with registry := s.registry.cancelReservation })
  | .register id lagging =>
    (.nothing,
      { registry := s.registry.register id ⟨s.made.length⟩
        made := s.made ++
          [(id, { confirmation := if lagging then .fromOutside else .atOnce })] })
  | .checkout =>
    match s.registry.checkout? with
    | some (id, r) => (.named id, { s with registry := r })
    | none => (.nothing, s)
  | .beginCheck id => s.update ((s.registry.beginCheck? id).map (·.2))
  | .isChecking id => (.flag (s.registry.isChecking id), s)
  | .checkIn id => s.update (s.registry.checkIn? id)
  | .putBack id => s.update (s.registry.putBack? id)
  | .handOver id => (.nothing, { s with registry := s.registry.handOver id })
  | .get id => (.flag (s.registry.find? id).isSome, s)
  | .discard id =>
    match s.registry.discard? s.confirms id with
    | some (serial, r) =>
      let s := { s with registry := r }.modify serial Connection.close
      (.count (((s.connection? serial).map (·.closes)).getD 0), s)
    | none => (.nothing, s)
  | .forget id =>
    let (known, r) := s.registry.forget id
    (.flag known, { s with registry := r })
  | .fire id =>
    match s.latest? id with
    | some serial =>
      (.flag (((s.connection? serial).map (!·.fired)).getD false),
        s.modify serial fun c => c.fire.2)
    | none => (.nothing, s)

end Session
end LoanPool.Registry
