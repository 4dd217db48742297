import LoanPool.Time
import LoanPool.Rehearsal.Script

/-!
# The stage

Pools with their surroundings, run on one queue of tasks and one clock. A task is queued when it
is started or woken, tasks run in the order in which they were queued, and each runs until it has
to wait: for the clock, for a gate, for a close signal, or, in the case of a pool, for a command.
-/
namespace LoanPool.Rehearsal

inductive Task where
  | pool
  | connect (job : JobId)
  | check (job : JobId)
  | deadline (timer : TimerId)
  | listener (id : ConnId)
  -- The late confirmation of the n-th close of a connection.
  | confirmation (serial : Serial) (close : Nat)
deriving DecidableEq, Repr, Inhabited

structure Post where
  pool : Nat
  task : Task
deriving DecidableEq, Repr, Inhabited

structure Booth where
  plan : PoolPlan
  site : Site
  connectCalls : Nat := 0
  checkCalls : Nat := 0
  -- The tasks that have run before, each with the number of its call.
  begun : List (Task × Nat) := []
  -- The calls of the connector whose gates are shut.
  connectGates : List Nat := []
  checkGates : List Nat := []

structure Future where
  -- The pool it was asked of.
  pool : Nat
  -- It is looked at only when it is polled.
  unread : Bool
  -- An answer given on the spot, without the pool.
  ready : Option Outcome := none
deriving Repr, Inhabited

structure Stage where
  booths : List Booth
  clock : Clock Post := {}
  -- The tasks to be run, the next one first.
  queue : List Post := []
  -- The tasks that wait for a gate or a signal.
  parked : List Post := []
  events : List Event := []
  futures : List Future := []

namespace Stage

def start (plans : List PoolPlan) : Stage :=
  { booths := plans.map fun plan => { plan, site := .start plan.config plan.objections }
    queue := (List.range plans.length).map (⟨·, .pool⟩) }

def booth? (s : Stage) (i : Nat) : Option Booth :=
  s.booths[i]?

def modifyBooth (s : Stage) (i : Nat) (f : Booth → Booth) : Stage :=
  { s with booths := s.booths.modify i f }

def modifySite (s : Stage) (i : Nat) (f : Site → Site) : Stage :=
  s.modifyBooth i fun b => { b with site := f b.site }

def record (s : Stage) (what : Happening) (i : Nat) (serial : Serial) : Stage :=
  { s with events := s.events ++ [⟨what, i, serial⟩] }

/-! ### Queueing -/

def enqueue (s : Stage) (p : Post) : Stage :=
  if p ∈ s.queue then s else { s with queue := s.queue ++ [p] }

def park (s : Stage) (p : Post) : Stage :=
  { s with parked := s.parked ++ [p] }

def wake (s : Stage) (p : Post) : Stage :=
  if p ∈ s.parked then { s with parked := s.parked.erase p }.enqueue p else s

def rouse (s : Stage) (i : Nat) : Stage :=
  match s.booth? i with
  | some b => if b.site.isDue then s.enqueue ⟨i, .pool⟩ else s
  | none => s

def act (s : Stage) (i : Nat) (f : Site → Site) : Stage :=
  (s.modifySite i f).rouse i

/-! ### Connections -/

def wakeListeners (s : Stage) (i : Nat) (serial : Serial) : Stage :=
  match s.booth? i with
  | some b =>
    (b.site.listeners.filter (·.serial = serial)).foldl (fun s l => s.wake ⟨i, .listener l.id⟩) s
  | none => s

def connection? (s : Stage) (i : Nat) (serial : Serial) : Option Connection :=
  (s.booth? i).bind fun b => b.site.connection? serial

/-- Changes a connection, and wakes its listeners if that made its signal fire. -/
def signalling (s : Stage) (i : Nat) (serial : Serial) (f : Site → Site) : Stage :=
  let s' := s.modifySite i f
  match s.connection? i serial, s'.connection? i serial with
  | some before, some after =>
    if !before.fired && after.fired then s'.wakeListeners i serial else s'
  | _, _ => s'

def close (s : Stage) (i : Nat) (serial : Serial) : Stage :=
  let s := (s.record .close i serial).signalling i serial fun site => site.shut serial
  match s.connection? i serial with
  | some c =>
    match c.fired, c.confirmation with
    | false, .after _ => s.enqueue ⟨i, .confirmation serial c.closes⟩
    | _, _ => s
  | none => s

/-! ### Tasks -/

def enact (i : Nat) (s : Stage) (e : Effect) : Stage :=
  let apply (s : Stage) : Stage := s.modifySite i fun site => site.enact s.clock.now e
  match s.booth? i, e with
  | none, _ => s
  | some b, .connect _ => (apply s).enqueue ⟨i, .connect ⟨b.site.nextJob⟩⟩
  | some b, .check .. => (apply s).enqueue ⟨i, .check ⟨b.site.nextJob⟩⟩
  | some _, .listen id _ => (apply s).enqueue ⟨i, .listener id⟩
  | some _, .arm timer .. => (apply s).enqueue ⟨i, .deadline timer⟩
  | some _, .disarm timer =>
    let s := apply s
    { s with clock := s.clock.cancel (· = ⟨i, .deadline timer⟩) }
  | some b, .hook h serial _ =>
    let s := apply s
    if b.plan.observed then s.record (.hook h) i serial else s
  | some _, .close serial => s.close i serial
  | some _, .answer .. => apply s

/-- A pool works through its mailbox. It gets no new command while it does. -/
def runPool (i : Nat) : Nat → Stage → Stage
  | 0, s => s
  | n + 1, s =>
    match (s.booth? i).bind fun b => b.site.step? s.clock.now with
    | none => s
    | some (effects, site) => runPool i n (effects.foldl (enact i) (s.modifySite i fun _ => site))

def begin (s : Stage) (p : Post) (call : Nat) : Stage :=
  s.modifyBooth p.pool fun b => { b with begun := b.begun ++ [(p.task, call)] }

def setAlarm (s : Stage) (p : Post) (due : Nat) : Stage :=
  { s with clock := s.clock.set due p }

def leaveConnect (s : Stage) (p : Post) (b : Booth) (job : JobId) (call : Nat) : Stage :=
  if call ∈ b.connectGates then s.park p
  else
    let plan := b.plan.connects call
    s.act p.pool fun site => site.finishConnect job <|
      match plan.failure with
      | some cause => .error cause
      | none => .ok (⟨call⟩, plan.connection)

def runConnect (s : Stage) (p : Post) (b : Booth) (job : JobId) : Stage :=
  match b.begun.lookup p.task with
  | some call => s.leaveConnect p b job call
  | none =>
    let call := b.connectCalls + 1
    let plan := b.plan.connects call
    let b := { b with
      connectCalls := call
      begun := b.begun ++ [(p.task, call)]
      connectGates := if plan.gated then b.connectGates ++ [call] else b.connectGates }
    let s := (s.modifyBooth p.pool fun _ => b).record .connect p.pool ⟨call⟩
    if plan.delay = 0 then s.leaveConnect p b job call
    else s.setAlarm p (s.clock.now + plan.delay)

def leaveCheck (s : Stage) (p : Post) (b : Booth) (j : CheckJob) (call : Nat) (verdict : Verdict) :
    Stage :=
  if call ∈ b.checkGates then s.park p
  else
    s.act p.pool fun site => site.finishCheck j.job <| Site.judge <|
      match verdict with
      | .healthy => .ok true
      | .unhealthy => .ok false
      | .error => .error "check failed"
      | .asReported => .ok (site.isActive j.serial)

def runCheck (s : Stage) (p : Post) (b : Booth) (job : JobId) : Stage :=
  match b.site.checkJob? job, b.plan.checks with
  | none, _ => s
  | some j, none => s.leaveCheck p b j 0 .asReported
  | some j, some plans =>
    match b.begun.lookup p.task with
    | some call => s.leaveCheck p b j call (plans call).verdict
    | none =>
      let call := b.checkCalls + 1
      let plan := plans call
      let b := { b with
        checkCalls := call
        begun := b.begun ++ [(p.task, call)]
        checkGates := if plan.gated then b.checkGates ++ [call] else b.checkGates }
      let s := (s.modifyBooth p.pool fun _ => b).record .check p.pool j.serial
      if plan.delay = 0 then s.leaveCheck p b j call plan.verdict
      else s.setAlarm p (s.clock.now + plan.delay)

def runDeadline (s : Stage) (p : Post) (b : Booth) (timer : TimerId) : Stage :=
  match b.site.deadlines.find? (·.timer = timer), b.begun.lookup p.task with
  | none, _ => s
  | some d, none => (s.begin p 0).setAlarm p d.due
  | some d, some _ =>
    if d.due ≤ s.clock.now then s.act p.pool fun site => site.passDeadline timer
    else s.setAlarm p d.due

def runListener (s : Stage) (p : Post) (b : Booth) (id : ConnId) : Stage :=
  match b.site.listeners.find? (·.id = id) with
  | none => s
  | some l =>
    if ((b.site.connection? l.serial).map (·.fired)).getD true then
      s.act p.pool fun site => site.noticeClose id
    else s.park p

def runConfirmation (s : Stage) (p : Post) (b : Booth) (serial : Serial) : Stage :=
  match b.begun.lookup p.task, (b.site.connection? serial).map (·.confirmation) with
  | none, some (Confirmation.after ms) => (s.begin p 0).setAlarm p (s.clock.now + ms)
  | some _, _ => s.signalling p.pool serial fun site => site.fire serial
  | none, _ => s

def runTask (s : Stage) (p : Post) : Stage :=
  match s.booth? p.pool with
  | none => s
  | some b =>
    match p.task with
    | .pool => runPool p.pool (b.site.mailbox.length + 1) s
    | .connect job => s.runConnect p b job
    | .check job => s.runCheck p b job
    | .deadline timer => s.runDeadline p b timer
    | .listener id => s.runListener p b id
    | .confirmation serial _ => s.runConfirmation p b serial

def run : Nat → Stage → Stage
  | 0, s => s
  | n + 1, s =>
    match s.queue with
    | [] => s
    | p :: rest => run n ({ s with queue := rest }.runTask p)

/-- More tasks than can be queued before all is quiet: an operation is asked for once, and what it
sets off in the end (opening, checking, lending, closing a connection) takes a few tasks each. -/
def patience (s : Stage) : Nat :=
  1000 + 100 * (s.futures.length + s.events.length + s.queue.length + s.parked.length
    + s.clock.alarms.length + s.booths.foldl (fun n booth => n + booth.connectCalls) 0)

def settle (s : Stage) : Stage :=
  run s.patience s

/-- Lets the clock run up to an instant, at most so many alarms on the way. -/
def advanceWithin (target : Nat) : Nat → Stage → Stage
  | 0, s => s
  | n + 1, s =>
    match s.clock.next? with
    | none => s
    | some due =>
      if due ≤ target then
        let (posts, clock) := s.clock.strike due
        advanceWithin target n (posts.foldl enqueue { s with clock }).settle
      else s

def advance (s : Stage) (ms : Nat) : Stage :=
  let target := s.clock.now + ms
  let s := advanceWithin target s.patience s
  { s with clock := { s.clock with now := target } }

end Stage
end LoanPool.Rehearsal
