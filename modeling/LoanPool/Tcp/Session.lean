import LoanPool.Pool.Handle
import LoanPool.Settings

/-!
# Working an endpoint by hand

How connections to one endpoint are made, and a pool whose endpoint does not answer: every attempt
to connect fails at once and for the same reason, so the pool has never a connection, and each
caller has its answer as soon as the pool has worked off its commands. Links are asked for directly
or through such a pool; none is ever to be had, and an operation on one finds none.
-/
namespace LoanPool

/-! ### Connectors -/

namespace Tcp

structure Connector where
  address : String
  connectTimeout : Duration := .ofSecs 5
  recvTimeout : Duration := .ofSecs 30
  nodelay : Bool := true
deriving DecidableEq, Repr, Inhabited

inductive ConnectFault where
  /-- The address is no address, or nobody answers there. -/
  | refused
  | timedOut
deriving DecidableEq, Repr, Inhabited

def Connector.message (c : Connector) : ConnectFault → String
  | .refused => "tcp connect to " ++ c.address
  | .timedOut => "tcp connect to " ++ c.address ++ " timed out after " ++ c.connectTimeout.text

end Tcp

def Endpoint.connector (e : Endpoint) : Tcp.Connector where
  address := e.address
  connectTimeout := .ofMillis e.connectTimeoutMs
  recvTimeout := .ofMillis e.recvTimeoutMs
  nodelay := e.nodelay

/-! ### Commands without an answer from the endpoint -/

/-- Nothing ever becomes of a connection, and all callers stay. -/
def Surroundings.barren : Surroundings where
  active _ _ := false
  gone _ _ := false
  refusal _ _ _ := none
  confirms _ _ := true
  reachable _ := true

namespace Pool

def failures (cause : String) (log : List Effect) : List Command :=
  log.filterMap fun e =>
    match e with
    | .connect target => some (.connected target (.error cause))
    | _ => none

def answers (log : List Effect) : List (Ticket × Outcome) :=
  log.filterMap fun e =>
    match e with
    | .answer k outcome => some (k, outcome)
    | _ => none

/-- Handles commands in order, and behind them the failures of the connections they ask for. At
most so many commands are handled. -/
def handleUnanswered (cause : String) : Nat → List Command → Pool → List (Ticket × Outcome) × Pool
  | 0, _, p => ([], p)
  | _ + 1, [], p => ([], p)
  | n + 1, c :: rest, p =>
    let turn := p.handle .barren c
    let (later, p) := handleUnanswered cause n (rest ++ failures cause turn.effects) turn.pool
    (answers turn.effects ++ later, p)

/-- Handles commands that reach the pool together. None of them causes more than one attempt to
connect, since no deadline passes. -/
def unanswered (p : Pool) (cause : String) (commands : List Command) :
    List (Ticket × Outcome) × Pool :=
  handleUnanswered cause (2 * commands.length) commands p

end Pool

/-! ### A session -/

namespace Tcp

inductive Op where
  | connect
  | acquire
  | stats
  | closePool
  | use (link : Nat)
  | join (link : Nat)
  | sleep (ms : Nat)
deriving DecidableEq, Repr, Inhabited

inductive Answer where
  | nothing
  | fault (f : ConnectFault)
  | outcome (o : Outcome)
  | noLink
  | noTask
deriving DecidableEq, Repr, Inhabited

structure Session where
  connector : Connector
  pool : Pool

namespace Session

def start (connector : Connector) (config : Config) : Except ConfigFault Session := do
  config.admissible true
  return { connector, pool := .start config }

def ask (s : Session) (c : Ticket → Command) : Answer × Session :=
  let k : Ticket := ⟨0⟩
  let (answers, pool) := s.pool.unanswered (s.connector.message .refused) [c k]
  (((answers.lookup k).map Answer.outcome).getD .nothing, { s with pool })

def step (s : Session) : Op → Answer × Session
  | .connect => (.fault .refused, s)
  | .acquire => s.ask .acquire
  | .stats => s.ask .stats
  | .closePool => s.ask .close
  | .use _ => (.noLink, s)
  | .join _ => (.noTask, s)
  | .sleep _ => (.nothing, s)

end Session
end Tcp
end LoanPool
