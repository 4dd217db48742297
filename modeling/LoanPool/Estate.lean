import LoanPool.Site.Frame

/-!
# Pools side by side

Any number of pools, each with its surroundings, and loans that are given back through the handle
of any of them. A pool gets a number of its own when it is built, which marks its handles and its
loans. Each numbers its connections by itself, so that a connection of one may have the same name as
a connection of another. What happens at different pools happens in any order, and nothing is assumed
of how their clocks compare.
-/
namespace LoanPool

namespace Estate

structure Member where
  id : PoolId
  frame : Site.Frame

def Member.loan? (m : Member) (k : Ticket) : Option Loan :=
  match m.frame.site.standing k with
  | .holding id _ => some { id, pool := m.id }
  | _ => none

end Estate

structure Estate where
  members : List Estate.Member := []
  nextPool : PoolId := ⟨1⟩
  /-- What handles answered on the spot: the pool it is a handle on, the ticket, the outcome. -/
  answers : List (PoolId × Ticket × Outcome) := []

namespace Estate

def member? (E : Estate) (p : PoolId) : Option Member :=
  E.members.find? (·.id = p)

def frame? (E : Estate) (p : PoolId) : Option Site.Frame :=
  (E.member? p).map (·.frame)

def add (E : Estate) (f : Site.Frame) : Estate :=
  { E with
    members := E.members ++ [{ id := E.nextPool, frame := f }]
    nextPool := ⟨E.nextPool.number + 1⟩ }

def withFrame (E : Estate) (p : PoolId) (f : Site.Frame) : Estate :=
  { E with members := E.members.map fun m => if m.id = p then { m with frame := f } else m }

inductive Doing where
  | build (p : PoolId) (config : Config) (observer : Hook → Nat → Option String)
  | own (p : PoolId) (d : Site.Deed)
  | giveBack (owner : PoolId) (k : Ticket) (into : PoolId) (reply : Ticket)

/-- Whether a loan that is given back has come home is told by the number on it and the number of
the handle. -/
inductive Step (E : Estate) : Doing → Estate → Prop where
  | build {config : Config} {observer : Hook → Nat → Option String} :
      Step E (.build E.nextPool config observer) (E.add { site := .start config observer })
  | own {p : PoolId} {d : Site.Deed} {f f' : Site.Frame} (here : E.frame? p = some f)
      (step : f.Step d f') : Step E (.own p d) (E.withFrame p f')
  | giveBack {owner into : PoolId} {k reply : Ticket} {m n : Member} {loan : Loan}
      {answer : Option Outcome} {s : Site} (lender : E.member? owner = some m)
      (other : E.member? into = some n) (held : n.frame.site.handles ≠ 0)
      (lent : m.loan? k = some loan) (new : n.frame.site.isNew reply = true)
      (given : m.frame.site.giveBack (loan.pool = n.id) k reply = (answer, s)) :
      Step E (.giveBack owner k into reply)
        { E.withFrame owner { m.frame with site := s } with
          answers := E.answers ++ answer.toList.map fun outcome => (into, reply, outcome) }

def Run (ds : List Doing) (E : Estate) : Prop :=
  Steps Step {} ds E

end Estate
end LoanPool
