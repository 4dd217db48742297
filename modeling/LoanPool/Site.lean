import LoanPool.Pool.Handle

/-!
# A pool among its surroundings

A `Site` is one pool together with everything that acts on it: the commands on their way to it,
the handles on it, the connections being opened and checked, the deadlines and close listeners
that are set, the connections themselves, and the callers with their tickets and loans. The pool
task handles the commands in order; all else happens at any time and in any order, and each such
event is one function here. `Site.surroundings` is what the pool finds when it handles a command,
read off the site as it stands after each of the pool's effects.
-/
namespace LoanPool

inductive Standing where
  | waiting
  | answered (outcome : Outcome)
  /-- A loan is in the caller's hands. -/
  | holding (id : ConnId) (serial : Serial)
  /-- The caller has had what there was to have. -/
  | spent
  | abandoned
deriving DecidableEq, Repr, Inhabited

/-- A piece of work the pool has started. -/
structure JobId where
  number : Nat
deriving DecidableEq, Repr, Inhabited

structure ConnectJob where
  job : JobId
  target : Target
deriving Repr, Inhabited

structure CheckJob where
  job : JobId
  id : ConnId
  serial : Serial
  reply : Option Ticket
deriving Repr, Inhabited

structure Deadline where
  timer : TimerId
  request : RequestId
  due : Nat
deriving Repr, Inhabited

structure Listener where
  id : ConnId
  serial : Serial
deriving Repr, Inhabited

structure HookCalls where
  created : Nat := 0
  acquired : Nat := 0
  released : Nat := 0
deriving Repr, Inhabited

namespace HookCalls

def get (n : HookCalls) : Hook → Nat
  | .created => n.created
  | .acquired => n.acquired
  | .released => n.released

def tick (n : HookCalls) : Hook → HookCalls
  | .created => { n with created := n.created + 1 }
  | .acquired => { n with acquired := n.acquired + 1 }
  | .released => { n with released := n.released + 1 }

end HookCalls

structure Site where
  pool : Pool
  /-- Commands not yet handled, oldest first. -/
  mailbox : List Command := []
  handles : Nat := 1
  ended : Bool := false
  connects : List ConnectJob := []
  checks : List CheckJob := []
  deadlines : List Deadline := []
  listeners : List Listener := []
  connections : List (Serial × Connection) := []
  tickets : List (Ticket × Standing) := []
  /-- What the observer objects to at the n-th call of a hook, counted from one. -/
  observer : Hook → Nat → Option String := fun _ _ => none
  calls : HookCalls := {}
  nextJob : Nat := 0

namespace Site

def start (config : Config) (observer : Hook → Nat → Option String) : Site :=
  { pool := .start config, observer }

def withPool (s : Site) (p : Pool) : Site :=
  { s with pool := p }

def connection? (s : Site) (serial : Serial) : Option Connection :=
  s.connections.lookup serial

def isActive (s : Site) (serial : Serial) : Bool :=
  ((s.connection? serial).map (·.isActive)).getD false

def standing (s : Site) (k : Ticket) : Standing :=
  (s.tickets.lookup k).getD .spent

/-- A handle or work under way keeps the pool alive; loans, deadlines and listeners do not. -/
def isReachable (s : Site) : Bool :=
  s.handles != 0 || !s.connects.isEmpty || !s.checks.isEmpty

/-- What the pool finds while it handles a command. `amid` tells how the site stands once some
effects have taken place. -/
def surroundings (amid : List Effect → Site) : Surroundings where
  active log serial := (amid log).isActive serial
  gone log k := (amid log).standing k = .abandoned
  refusal log h _ := (amid log).observer h ((amid log).calls.get h + 1)
  confirms log serial := (((amid log).connection? serial).map (·.confirms)).getD true
  reachable log := (amid log).isReachable

/-! ### Sending commands -/

def send (s : Site) (c : Command) : Site :=
  { s with mailbox := s.mailbox ++ [c] }

def report (s : Site) (c : Command) : Site :=
  if s.isReachable then s.send c else s

def setStanding (s : Site) (k : Ticket) (standing : Standing) : Site :=
  { s with tickets := s.tickets.map fun e => if e.1 = k then (k, standing) else e }

def ask (s : Site) (k : Ticket) (c : Command) : Site :=
  { s with tickets := s.tickets ++ [(k, Standing.waiting)] }.send c

/-! ### Callers -/

/-- The caller looks at its outcome. A loan is from then on in its hands. -/
def read (s : Site) (k : Ticket) : Option Outcome × Site :=
  match s.standing k with
  | .answered (.loan id serial) => (some (.loan id serial), s.setStanding k (.holding id serial))
  | .answered outcome => (some outcome, s.setStanding k .spent)
  | _ => (none, s)

/-- The caller leaves. A loan it has not looked at goes back to the pool. -/
def abandon (s : Site) (k : Ticket) : Site :=
  match s.standing k with
  | .waiting => s.setStanding k .abandoned
  | .answered (.loan id _) => (s.setStanding k .abandoned).report (.dropped id)
  | .answered _ => s.setStanding k .abandoned
  | _ => s

def dropLoan (s : Site) (k : Ticket) : Site :=
  match s.standing k with
  | .holding id _ => (s.setStanding k .spent).report (.dropped id)
  | _ => s

def release (s : Site) (k reply : Ticket) : Site :=
  match s.standing k with
  | .holding id _ => (s.setStanding k .spent).ask reply (.release id reply)
  | _ => s

/-- The holder gives its loan back through a handle, which answers on the spot if it is not one of
the loan's own pool. The loan is refused then, and goes back as one that is dropped. -/
def giveBack (s : Site) (home : Bool) (k reply : Ticket) : Option Outcome × Site :=
  match s.standing k with
  | .holding id _ =>
    if home then (none, s.release k reply)
    else (some (.failed (.foreignConnection id)), s.dropLoan k)
  | _ => (none, s)

def clone (s : Site) : Site :=
  { s with handles := s.handles + 1 }

def dropHandle (s : Site) : Site :=
  { s with handles := s.handles - 1 }

/-! ### Connections -/

def modify (s : Site) (serial : Serial) (f : Connection → Connection) : Site :=
  { s with connections := s.connections.map fun e => if e.1 = serial then (serial, f e.2) else e }

def kill (s : Site) (serial : Serial) : Site :=
  s.modify serial Connection.kill

def fire (s : Site) (serial : Serial) : Site :=
  s.modify serial fun c => c.fire.2

def shut (s : Site) (serial : Serial) : Site :=
  s.modify serial Connection.close

/-! ### Work under way -/

def connectJob? (s : Site) (job : JobId) : Option ConnectJob :=
  s.connects.find? (·.job = job)

def checkJob? (s : Site) (job : JobId) : Option CheckJob :=
  s.checks.find? (·.job = job)

def finishConnect (s : Site) (job : JobId) (result : Except String (Serial × Connection)) : Site :=
  match s.connectJob? job with
  | none => s
  | some j =>
    let s := { s with connects := s.connects.filter (·.job ≠ job) }
    match result with
    | .error cause => s.send (.connected j.target (.error cause))
    | .ok (serial, c) =>
      { s with connections := s.connections ++ [(serial, c)] }.send (.connected j.target (.ok serial))

/-- What a health check has found; one that fails finds nothing good. -/
def judge : Except String Bool → Bool
  | .ok healthy => healthy
  | .error _ => false

def finishCheck (s : Site) (job : JobId) (healthy : Bool) : Site :=
  match s.checkJob? job with
  | none => s
  | some j =>
    { s with checks := s.checks.filter (·.job ≠ job) }.send (.checked j.id healthy j.reply)

def passDeadline (s : Site) (timer : TimerId) : Site :=
  match s.deadlines.find? (·.timer = timer) with
  | none => s
  | some d =>
    { s with deadlines := s.deadlines.filter (·.timer ≠ timer) }.report (.timedOut d.request)

def noticeClose (s : Site) (id : ConnId) : Site :=
  { s with listeners := s.listeners.filter (·.id ≠ id) }.report (.closed id)

/-! ### The pool task -/

def enact (now : Nat) (s : Site) : Effect → Site
  | .connect target =>
    { s with connects := s.connects ++ [⟨⟨s.nextJob⟩, target⟩], nextJob := s.nextJob + 1 }
  | .check id serial reply =>
    { s with checks := s.checks ++ [⟨⟨s.nextJob⟩, id, serial, reply⟩], nextJob := s.nextJob + 1 }
  | .listen id serial => { s with listeners := s.listeners ++ [⟨id, serial⟩] }
  | .arm timer request after =>
    { s with deadlines := s.deadlines ++ [⟨timer, request, now + after.toMillis⟩] }
  | .disarm timer => { s with deadlines := s.deadlines.filter (·.timer ≠ timer) }
  | .hook h _ _ => { s with calls := s.calls.tick h }
  | .close serial => s.shut serial
  | .answer k outcome => if s.standing k = .waiting then s.setStanding k (.answered outcome) else s

def enactAll (now : Nat) (s : Site) (log : List Effect) : Site :=
  log.foldl (enact now) s

/-- What the pool task has to do next, if anything: the oldest command, or its own end; and the
site without it. -/
def next? (s : Site) : Option (Option Command × Site) :=
  match s.mailbox with
  | c :: rest => some (some c, { s with mailbox := rest })
  | [] => if s.isReachable ∨ s.ended then none else some (none, { s with ended := true })

def isDue (s : Site) : Bool :=
  s.next?.isSome

/-- The pool task does what it has to do next, while nothing else happens. The result is the pool
afterwards and the effects that are to take place. -/
def step? (now : Nat) (s : Site) : Option (List Effect × Site) :=
  s.next?.map fun (c, s) =>
    let turn := s.pool.respond (surroundings (s.enactAll now)) c
    (turn.effects, s.withPool turn.pool)

end Site
end LoanPool
