import LoanPool.Rehearsal.Stage

/-!
# Performing a script

Each move acts on the stage and is answered on the spot; then everything that can run does, and
the answers that have arrived are read.
-/
namespace LoanPool.Rehearsal
namespace Stage

def look (s : Stage) (n : Nat) : Option Outcome × Stage :=
  match s.futures[n]? with
  | none => (none, s)
  | some f =>
    match f.ready with
    | some outcome => (some outcome, { s with futures := s.futures.set n { f with ready := none } })
    | none =>
      match s.booth? f.pool with
      | none => (none, s)
      | some b =>
        let (outcome, site) := b.site.read ⟨n⟩
        (outcome, s.modifySite f.pool fun _ => site)

def standing (s : Stage) (n : Nat) : Standing :=
  match s.futures[n]? with
  | none => .spent
  | some f =>
    match f.ready with
    | some outcome => .answered outcome
    | none => ((s.booth? f.pool).map fun b => b.site.standing ⟨n⟩).getD .spent

def withHandle (s : Stage) (i : Nat) (act : Booth → Reply × Stage) : Reply × Stage :=
  match s.booth? i with
  | none => (.noPool, s)
  | some b => if b.site.handles = 0 then (.noHandle, s) else act b

def expect (s : Stage) (f : Future) : Stage :=
  { s with futures := s.futures ++ [f] }

def ask (s : Stage) (i : Nat) (unread : Bool) (c : Ticket → Command) : Reply × Stage :=
  s.withHandle i fun _ =>
    let n := s.futures.length
    (.future n,
      (s.expect { pool := i, unread }).act i fun site => site.ask ⟨n⟩ (c ⟨n⟩))

def release (s : Stage) (future : Nat) (into : Option Nat) : Reply × Stage :=
  match s.futures[future]?, s.standing future with
  | none, _ => (.noSlot, s)
  | some f, .holding .. =>
    let i := into.getD f.pool
    s.withHandle i fun _ =>
      let n := s.futures.length
      let given (site : Site) : Option Outcome × Site :=
        site.giveBack (i = f.pool) ⟨future⟩ ⟨n⟩
      let ready := (s.booth? f.pool).bind fun b => (given b.site).1
      (.future n,
        (s.expect { pool := i, unread := false, ready }).act f.pool fun site => (given site).2)
  | some _, _ => (.noLoan, s)

def drop (s : Stage) (future : Nat) : Reply × Stage :=
  match s.futures[future]? with
  | none => (.noSlot, s)
  | some f =>
    match f.ready, s.standing future with
    | some _, _ =>
      (.droppedFuture, { s with futures := s.futures.set future { f with ready := none } })
    | none, .holding .. => (.droppedLoan, s.act f.pool fun site => site.dropLoan ⟨future⟩)
    | none, .waiting => (.droppedFuture, s.act f.pool fun site => site.abandon ⟨future⟩)
    | none, .answered _ => (.droppedFuture, s.act f.pool fun site => site.abandon ⟨future⟩)
    | none, _ => (.droppedNothing, s)

def poll (s : Stage) (future : Nat) : Reply × Stage :=
  if future < s.futures.length then
    match s.look future with
    | (some outcome, s) => (.value outcome, s)
    | (none, s) => (.notReady, s)
  else (.noSlot, s)

def withConnection (s : Stage) (i : Nat) (serial : Serial) (act : Connection → Reply × Stage) :
    Reply × Stage :=
  match s.booth? i with
  | none => (.noPool, s)
  | some b =>
    match b.site.connection? serial with
    | none => (.noConnection, s)
    | some c => act c

def openGate (s : Stage) (i call : Nat) (shut : Booth → List Nat) (opened : Booth → Booth)
    (waits : Task → Bool) : Reply × Stage :=
  match s.booth? i with
  | none => (.noPool, s)
  | some b =>
    if call ∈ shut b then
      let s := s.modifyBooth i opened
      let waiting := b.begun.filter fun (task, n) => waits task && n = call
      (.flag true, waiting.foldl (fun s e => s.wake ⟨i, e.1⟩) s)
    else (.noGate, s)

def move (s : Stage) : Move → Reply × Stage
  | .acquire i unread => s.ask i unread .acquire
  | .close i unread => s.ask i unread .close
  | .stats i unread => s.ask i unread .stats
  | .release future into => s.release future into
  | .drop future => s.drop future
  | .poll future => s.poll future
  | .clone i => s.withHandle i fun b =>
    (.count (b.site.handles + 1), s.modifySite i Site.clone)
  | .dropHandle i => s.withHandle i fun b =>
    (.count (b.site.handles - 1), s.act i Site.dropHandle)
  | .kill i serial => s.withConnection i serial fun c =>
    (.flag c.alive, s.modifySite i fun site => site.kill serial)
  | .fire i serial => s.withConnection i serial fun c =>
    (.flag c.fire.1, s.signalling i serial fun site => site.fire serial)
  | .shut i serial => s.withConnection i serial fun _ =>
    let s := s.close i serial
    (.flag (((s.connection? i serial).map (·.isActive)).getD false), s)
  | .openConnect i call =>
    s.openGate i call (·.connectGates)
      (fun b => { b with connectGates := b.connectGates.erase call })
      fun task => match task with | .connect _ => true | _ => false
  | .openCheck i call =>
    s.openGate i call (·.checkGates)
      (fun b => { b with checkGates := b.checkGates.erase call })
      fun task => match task with | .check _ => true | _ => false
  | .advance ms => (.count ms, s.advance ms)
  | .unknown => (.unknownStep, s)

mutual

def step (s : Stage) : Step → Reply × Stage
  | .one m => s.move m
  | .batch steps =>
    let (replies, s) := s.steps steps
    (.many replies, s)

def steps (s : Stage) : List Step → List Reply × Stage
  | [] => ([], s)
  | first :: rest =>
    let (reply, s) := s.step first
    let (replies, s) := s.steps rest
    (reply :: replies, s)

end

/-- The futures that have been answered, in ascending order, except those that are only polled. -/
def resolve (s : Stage) : List (Nat × Outcome) × Stage :=
  (List.range s.futures.length).foldl
    (fun (found, s) n =>
      if (s.futures[n]?.map (·.unread)).getD true then (found, s)
      else match s.look n with
        | (some outcome, s) => (found ++ [(n, outcome)], s)
        | (none, s) => (found, s))
    ([], s)

def view (b : Booth) : PoolView :=
  { stats := if b.site.handles = 0 then none else some b.site.pool.stats
    live :=
      ((b.site.connections.filter (·.2.isActive)).map (·.1)).mergeSort (·.number ≤ ·.number) }

/-- The events in order, save that closes in a row are put in the order of pools and serials: those
of a shutdown have no order of their own. -/
def report (events : List Event) : List Event :=
  ((events.splitBy fun a b => a.what == .close && b.what == .close).map fun run =>
    run.mergeSort fun a b =>
      a.pool < b.pool || (a.pool == b.pool && a.serial.number ≤ b.serial.number)).flatten

def play (s : Stage) (step : Step) : Answer × Stage :=
  let (reply, s) := s.step step
  let s := s.settle
  let (resolved, s) := s.resolve
  ({ reply, resolved, pools := s.booths.map view, events := report s.events },
    { s with events := [] })

def playAll (s : Stage) : List Step → List Answer
  | [] => []
  | step :: rest =>
    let (answer, s) := s.play step
    answer :: s.playAll rest

end Stage

def rehearse (plans : List PoolPlan) (steps : List Step) : Except ConfigFault (List Answer) := do
  plans.forM fun plan => plan.config.admissible true
  return (Stage.start plans).playAll steps

end LoanPool.Rehearsal
