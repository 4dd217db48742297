import LoanPool.Proofs.HealthGate
import LoanPool.Proofs.Refill
import LoanPool.Proofs.Shutdown

/-!
# Loans that are given back

A caller that gives a loan back has one answer, from the turn that takes the loan back or from the
one that takes up the verdict on its connection. Whatever has become of the connection by then, the
answer is an error only if the hook objected to the end of the loan.
-/
namespace LoanPool
open Pending (Request)

/-! ### What is told about the end of a loan -/

def Effect.objection? : Effect → Option String
  | .hook .released _ refusal => refusal
  | _ => none

def Outcome.Tells (objections : List String) : Outcome → Prop
  | .done => objections = []
  | .failed (.observer reason) => objections = [reason]
  | _ => False

namespace Turn
variable {w : Surroundings} {t t' u : Turn} {es : List Effect} {id : ConnId} {serial : Serial}
  {k : Ticket}

def objections (t : Turn) : List String :=
  t.effects.filterMap Effect.objection?

end Turn

/-! ### Whole turns -/

namespace Pool
variable {w : Surroundings} {p : Pool} {id : ConnId}

end Pool

/-! ### Where the answer to a caller is -/

namespace Command

def givesBack? : Command → Option (ConnId × Ticket)
  | .release id k => some (id, k)
  | _ => none

end Command

namespace Site

def objections (past : List Record) (id : ConnId) (k : Ticket) : List String :=
  past.filterMap fun rec =>
    if rec.command.bind Command.givesBack? = some (id, k) then rec.effect.bind Effect.objection?
    else none

end Site

namespace Site

end Site

variable {config : Config} {observer : Hook → Nat → Option String} {past past' : List Site.Record}
  {now later now' : Nat} {s s' rest : Site} {id : ConnId} {k holder : Ticket} {c : Command}

end LoanPool
