import LoanPool.Proofs.Capacity
import LoanPool.Proofs.Footprint
import LoanPool.Proofs.Precedence
import LoanPool.Proofs.Reconciliation
import LoanPool.Proofs.Timers

/-!
# Callers who have gone

A caller may leave while its request waits, and the request stays in the queue until it is come
across. Whoever serves the queue asks first whether a caller is still there, and has room for the
connection that it opens. A deadline asks nothing of the kind: it opens a connection past capacity
for a caller that has gone as it does for one that waits.
-/
namespace LoanPool
open Pending (Request Queue)

variable {w : Surroundings} {t t' : Turn} {p : Pool} {r : Request} {request : RequestId}

/-! ### Which commands open connections -/

/-- For whom a command may have a connection opened, before the queue is served. -/
def Command.opens? (p : Pool) : Command → Option Target
  | .acquire k => some (.owned { id := ⟨p.nextRequest⟩, ticket := k })
  | .timedOut request => some (.queued request)
  | _ => none

def Effect.Befits (c : Command) (p : Pool) (e : Effect) : Prop :=
  ∀ target, e = .connect target → c.opens? p = some target

namespace Turn

theorem befits_of_delivers {c : Command} {e : Effect} {serial : Serial}
    (delivers : e.Delivers serial) : e.Befits c p := by
  rintro target rfl
  exact delivers.elim

theorem handles_befits (c : Command) : Handles (Effect.Befits c p) :=
  ⟨fun _ _ => befits_of_delivers, fun _ _ same => by cases same⟩

variable {c : Command}

theorem befitting_answer? (all : t.All (Effect.Befits c p)) (reply : Option Ticket)
    (outcome : Outcome) : (t.answer? reply outcome).All (Effect.Befits c p) :=
  all_answer? all (fun _ _ same => by cases same) reply

theorem befitting_failTarget (all : t.All (Effect.Befits c p)) (target : Target)
    (cause : PoolError) : (t.failTarget target cause).All (Effect.Befits c p) :=
  all_failTarget all (handles_befits c).stop (fun _ _ same => by cases same) target

theorem befitting_discard (all : t.All (Effect.Befits c p)) (id : ConnId) :
    (t.discard w id).All (Effect.Befits c p) :=
  all_discard all (handles_befits c).close id

theorem befitting_openFor {target : Target} (all : t.All (Effect.Befits c p))
    (mine : c.opens? p = some target) : (t.openFor w target).All (Effect.Befits c p) := by
  refine all_openFor all ?_ (handles_befits c).stop (handles_befits c).closed
  rintro target' ⟨⟩
  exact mine

theorem befitting_lineUp (all : t.All (Effect.Befits c p)) (r : Request) :
    (t.lineUp w r).All (Effect.Befits c p) := by
  have pruned : (t.prune w).All (Effect.Befits c p) := all_prune all (handles_befits c).stop
  simp only [lineUp]
  split
  · exact all_fail (t := (t.prune w).count _) pruned (handles_befits c).stop
      fun _ same => by cases same
  · simp only [enqueue]
    split
    · exact all_emit (e := .arm _ r.id _) pruned fun _ same => by cases same
    · exact pruned

theorem befitting_acquire (k : Ticket) :
    ((Turn.mk p []).acquire w k).All (Effect.Befits (.acquire k) p) := by
  have begun : ((Turn.mk p []).newRequest k).2.All (Effect.Befits (.acquire k) p) :=
    List.forall_mem_nil _
  simp only [acquire]
  split
  · exact all_emit begun fun _ same => by cases same
  split
  · next id t' found =>
    exact all_deliver (handles_befits _) (all_checkout begun (handles_befits _).close found)
  · next t' found =>
    have left := all_checkout begun (handles_befits _).close found
    split
    · exact befitting_openFor left rfl
    · exact befitting_lineUp left _

theorem befitting_place (all : t.All (Effect.Befits c p)) (target : Target) (id : ConnId) :
    (t.place w target id).All (Effect.Befits c p) := by
  simp only [place]
  split
  · exact all_deliver (handles_befits c) all
  · split
    · next r t' fetched => exact all_deliver (handles_befits c) (all_takePending all fetched)
    · next t' fetched => exact all_recycle (handles_befits c) (all_takePending all fetched)

theorem befitting_connected (all : t.All (Effect.Befits c p)) (target : Target)
    (result : Except String Serial) : (t.connected w target result).All (Effect.Befits c p) := by
  cases result with
  | error cause =>
    exact befitting_failTarget (t := t.withRegistry t.pool.registry.cancelReservation) all target _
  | ok serial =>
    have born : (t.register serial).2.All (Effect.Befits c p) :=
      Adds.forall (adds_emit _ _) all (List.forall_mem_singleton.mpr fun _ same => by cases same)
    simp only [connected]
    generalize t.register serial = registered at born
    have called : (registered.2.call w .created serial).All (Effect.Befits c p) :=
      all_emit born fun _ same => by cases same
    split
    · exact befitting_failTarget (befitting_discard born _) target _
    split
    · exact befitting_failTarget (befitting_discard called _) target _
    · exact befitting_place called target _

theorem befitting_takeBack (all : t.All (Effect.Befits c p)) (id : ConnId)
    (reply : Option Ticket) : (t.takeBack w id reply).All (Effect.Befits c p) := by
  simp only [takeBack]
  split
  · exact befitting_answer? (befitting_discard all id) reply _
  split
  · exact befitting_answer? all reply _
  next serial reg begun =>
  have begun : (t.withRegistry reg).All (Effect.Befits c p) := all
  split
  · exact befitting_answer? (befitting_discard begun id) reply _
  have called : ((t.withRegistry reg).call w .released serial).All (Effect.Befits c p) :=
    all_emit begun fun _ same => by cases same
  split
  · exact befitting_answer? (befitting_discard called id) reply _
  split
  · exact befitting_answer? (all_recycle (handles_befits c) called) reply _
  split
  · exact all_emit called fun _ same => by cases same
  · exact befitting_answer? (befitting_discard called id) reply _

theorem befitting_timedOut (request : RequestId) :
    ((Turn.mk p []).timedOut w request).All (Effect.Befits (.timedOut request) p) := by
  have silent : (Turn.mk p []).All (Effect.Befits (.timedOut request) p) := List.forall_mem_nil _
  simp only [timedOut]
  split
  · exact silent
  next r queued =>
  have replaced : ((Turn.mk p []).withPending (p.pending.replace request (p.config.expire r).2)).All
    (Effect.Befits (.timedOut request) p) := silent
  generalize (Turn.mk p []).withPending (p.pending.replace request (p.config.expire r).2) = t
    at replaced
  split
  · split
    · next r' t' fetched =>
      have taken := all_takePending replaced fetched
      exact all_fail (t := t'.count _) taken (handles_befits _).stop fun _ same => by cases same
    · next t' fetched => exact all_takePending replaced fetched
  · exact befitting_openFor (t := t.count _) replaced rfl
  · exact replaced

/-- Before the queue is served, only a request and a deadline have a connection opened. -/
theorem befitting_perform (w : Surroundings) (p : Pool) (c : Command) :
    ((Turn.mk p []).perform w c).All (Effect.Befits c p) := by
  have silent : (Turn.mk p []).All (Effect.Befits c p) := List.forall_mem_nil _
  cases c with
  | acquire k => exact befitting_acquire k
  | release id k => exact befitting_takeBack silent id (some k)
  | close k =>
    simp only [perform, close]
    split
    · exact all_emit silent fun _ same => by cases same
    · exact all_shutDown silent (handles_befits _).stop (handles_befits _).closed
        (handles_befits _).close
  | stats k => exact all_emit silent fun _ same => by cases same
  | connected target result => exact befitting_connected silent target result
  | checked id healthy reply =>
    simp only [perform, checked]
    split
    · exact befitting_answer? silent reply _
    split
    · exact befitting_answer? (all_recycle (handles_befits _) silent) reply _
    · exact befitting_answer? (befitting_discard silent id) reply _
  | timedOut request => exact befitting_timedOut request
  | closed id => exact silent
  | dropped id => exact befitting_takeBack silent id none

/-! ### A deadline -/

theorem expire_of_newConnection {config : Config} (action : config.timeoutAction = .newConnection)
    (limited : config.acquireTimeoutMs ≠ 0) (unopened : r.overflowOpened = false) :
    (config.expire r).1 = .openOverflow := by
  simp [Config.expire, Config.acquireTimeout, action, limited, Request.openOverflow, unopened]

end Turn

namespace Pool

/-- A deadline opens a connection past capacity, and that is all it does. Nobody asks whether the
caller is still there. -/
theorem handle_of_overflow (quiet : p.Quiet) (opened : p.closed = false)
    (queued : p.pending.find? request = some r) (due : (p.config.expire r).1 = .openOverflow)
    (reachable : w.reachable [] = true) :
    (p.handle w (.timedOut request)).effects = [.connect (.queued request)] ∧
      (p.handle w (.timedOut request)).pool.registry = p.registry.reserve := by
  rw [handle_timedOut quiet opened]
  simp only [Turn.timedOut, queued, due, Turn.openFor]
  rw [if_pos (by exact reachable)]
  exact ⟨rfl, rfl⟩

theorem unopened_of_deadline (quiet : p.Quiet) (opened : p.closed = false)
    (queued : p.pending.find? request = some r)
    (kept : (p.config.expire r).1 = .openOverflow → w.reachable [] = false) (target : Target) :
    .connect target ∉ (p.handle w (.timedOut request)).effects := by
  have stop : ∀ timer, Effect.disarm timer ≠ .connect target := fun _ same => by cases same
  have told : ∀ k outcome, Effect.answer k outcome ≠ .connect target :=
    fun _ _ same => by cases same
  suffices all : (p.handle w (.timedOut request)).All (· ≠ .connect target) from
    fun connects => all _ connects rfl
  rw [handle_timedOut quiet opened]
  simp only [Turn.timedOut, queued]
  let t := (Turn.mk p []).withPending (p.pending.replace request (p.config.expire r).2)
  have silent : t.All (· ≠ .connect target) := List.forall_mem_nil _
  split
  · split
    · next r' t' fetched =>
      have taken := Turn.all_takePending silent fetched
      exact Turn.all_fail (t := t'.count _) taken stop (told _ _)
    · next t' fetched => exact Turn.all_takePending silent fetched
  · next due =>
    simp only [Turn.openFor]
    rw [if_neg (by simpa [Turn.effects, Turn.count, Turn.withPending] using kept due)]
    exact Turn.all_failTarget (t := t.count _) silent stop (fun k => told k _) _
  · exact silent

/-- A connection that is opened for a request from the queue is opened while the queue is served. -/
theorem served_of_connects {c : Command} (older : r.id.number < p.nextRequest)
    (connects : .connect (.owned { r with timer := none }) ∈ (p.handle w c).effects) :
    ((Turn.mk p []).perform w c).pool.closed = false ∧
      .connect (.owned { r with timer := none }) ∉ ((Turn.mk p []).perform w c).effects := by
  have unasked :
      .connect (.owned { r with timer := none }) ∉ ((Turn.mk p []).perform w c).effects := by
    intro asked
    have mine := Turn.befitting_perform w p c _ asked _ rfl
    cases c with
    | acquire k =>
      have same : p.nextRequest = r.id.number :=
        congrArg (·.id.number) (Target.owned.inj (Option.some.inj mine))
      omega
    | _ => cases mine
  refine ⟨?_, unasked⟩
  by_contra shut
  have closed := eq_true_of_ne_false shut
  rw [handle, Turn.servePending, if_pos closed] at connects
  have told : (((Turn.mk p []).perform w c).settleClose).All
      (· ≠ .connect (.owned { r with timer := none })) := by
    have before : ((Turn.mk p []).perform w c).All
        (· ≠ .connect (.owned { r with timer := none })) := by
      rintro e member rfl
      exact unasked member
    simp only [Turn.settleClose]
    split
    · refine (Turn.adds_finishClose _).forall before fun e member => ?_
      obtain ⟨k, -, rfl⟩ := List.mem_map.mp member
      exact fun same => by cases same
    · exact before
  exact told _ connects rfl

/-- The queue has a connection opened for nobody who has gone by the time the turn begins. -/
theorem present_of_served (lasting : w.Lasting) (quiet : p.Quiet) {c : Command}
    (older : r.id.number < p.nextRequest)
    (connects : .connect (.owned { r with timer := none }) ∈ (p.handle w c).effects) :
    w.gone [] r.ticket = false := by
  obtain ⟨going, unasked⟩ := served_of_connects older connects
  have stayed : ∀ log, w.gone log r.ticket = false → w.gone [] r.ticket = false := by
    intro log present
    by_contra left
    rw [← List.nil_append log, lasting.gone [] log _ (eq_true_of_ne_false left)] at present
    cases present
  have stopped : ∀ rs : List Request, .connect (.owned { r with timer := none }) ∉ stops rs := by
    intro rs member
    obtain ⟨timer, -, same⟩ := List.mem_map.mp member
    cases same
  have refilled := handle_refilled lasting quiet c going
  generalize p.handle w c = t' at connects refilled
  generalize (Turn.mk p []).perform w c = t at unasked refilled
  cases refilled with
  | quiet quiet => exact absurd connects unasked
  | nobody pool adds left =>
    rw [adds.effects] at connects
    exact absurd ((List.mem_append.mp connects).resolve_left unasked) (stopped _)
  | opened opened =>
    rw [opened.adds.effects] at connects
    rcases List.mem_append.mp ((List.mem_append.mp connects).resolve_left unasked) with
      stop | mine
    · exact absurd stop (stopped _)
    · have same := Target.owned.inj (Effect.connect.inj (List.mem_singleton.mp mine))
      obtain ⟨-, ticket, -⟩ := Request.mk.inj same
      exact stayed _ (ticket ▸ opened.present)
  | forsaken forsaken =>
    obtain ⟨es, adds, plain, -⟩ := forsaken.adds
    rw [adds.effects] at connects
    rcases plain _ ((List.mem_append.mp connects).resolve_left unasked) with
      ⟨timer, same⟩ | ⟨r', -, same⟩ <;> cases same

theorem unopened_of_end (target : Target) : .connect target ∉ (p.finish w).effects := by
  have silent : (Turn.mk p []).All (· ≠ .connect target) := List.forall_mem_nil _
  have closing : ((Turn.mk p []).shutDown w).All (· ≠ .connect target) :=
    Turn.all_shutDown silent (fun _ same => by cases same) (fun _ same => by cases same)
      fun _ same => by cases same
  refine fun connects => (Turn.adds_finishClose _).forall closing ?_ _ connects rfl
  intro e member
  obtain ⟨k, -, rfl⟩ := List.mem_map.mp member
  exact fun same => by cases same

end Pool

/-! ### Runs -/

variable {config : Config} {observer : Hook → Nat → Option String} {past : List Site.Record}
  {now later : Nat} {s rest : Site} {c : Option Command}

theorem capped_of_run (run : Site.Run config observer past now s) :
    ∃ m, Scene.Capped config { now, site := s, memory := m, past } := by
  obtain ⟨m, -, capped⟩ := run_invariant (fun sc => sc.Accounted ∧ sc.Capped config) run
    (fun move before => ⟨accounted_move move before.1, capped_move before.1 move before.2⟩)
    ⟨accounted_start config observer, capped_start config observer⟩
  exact ⟨m, capped⟩

/-- A request that has its chance has not had it before. -/
theorem unopened_before (run : Site.Run config observer past now s)
    (queued : r ∈ s.pool.pending.requests) (unopened : r.overflowOpened = false) :
    r.id ∉ Site.overflows past := by
  obtain ⟨_, capped⟩ := capped_of_run run
  have once := capped.once r.id
  have chance : 0 < s.pool.pending.requests.countP
      fun r' => r'.id = r.id ∧ r'.overflowOpened = false :=
    List.countP_pos_iff.mpr ⟨r, queued, by simp [unopened]⟩
  simp only [Scene.unspent, Scene.dues, Pool.dues, Scene.pool] at once
  refine List.count_eq_zero.mp ?_
  split at once <;> omega

/-- What a turn opens is on the record that it leaves. -/
theorem opens_of_connects (run : Site.Run config observer past now s) (order : now ≤ later)
    (due : s.next? = some (c, rest)) (course : Site.Course later rest) {m : Moment}
    (member : m ∈ (course.turn c).log) {target : Target} (connects : m.effect = .connect target) :
    Site.Record.Opens config
      { now := later, command := c, effect := some m.effect, pool := m.pool } target := by
  obtain ⟨_, capped⟩ := capped_of_run (run.turn order due course)
  refine capped.opened _ (List.mem_append_right _ (List.mem_cons_of_mem _ ?_)) target ?_
  · exact List.mem_map_of_mem member
  · rw [connects]

theorem turn_of_due (due : s.next? = some (c, rest)) (course : Site.Course later rest) :
    course.turn c = s.pool.respond (Site.surroundings course.amid) c := by
  rw [Site.Course.turn, Site.pool_next? due]

/-- A connection past capacity is opened when the deadline of its request passes, if there has been
none for it. -/
theorem deadline_of_connects (run : Site.Run config observer past now s) (order : now ≤ later)
    (due : s.next? = some (c, rest)) (course : Site.Course later rest)
    (queued : r ∈ s.pool.pending.requests)
    (connects : .connect (.queued r.id) ∈ (course.turn c).effects) :
    c = some (.timedOut r.id) ∧ (s.pool.config.expire r).1 = .openOverflow ∧
      (course.amid []).isReachable = true := by
  obtain ⟨m, member, connect⟩ := List.mem_map.mp connects
  cases opens_of_connects run order due course member connect with
  | past reserved drained action limited deadline waits =>
  dsimp only at deadline
  subst deadline
  refine ⟨rfl, ?_⟩
  by_contra kept
  rw [turn_of_due due course] at connects
  refine Pool.unopened_of_deadline (path_of_run run).2 (open_of_queued run queued)
    (find?_of_queued run queued) (fun past => ?_) _ connects
  exact Bool.eq_false_iff.mpr fun reachable => kept ⟨past, reachable⟩

/-- A connection is opened from the queue for a caller who had not gone when the turn began. -/
theorem present_of_connects (run : Site.Run config observer past now s)
    (due : s.next? = some (c, rest)) (course : Site.Course later rest)
    (queued : r ∈ s.pool.pending.requests)
    (connects : .connect (.owned { r with timer := none }) ∈ (course.turn c).effects) :
    (course.amid []).standing r.ticket ≠ .abandoned := by
  rw [turn_of_due due course] at connects
  cases c with
  | none => exact absurd connects (Pool.unopened_of_end _)
  | some c =>
    obtain ⟨_, orderly⟩ := orderly_of_run run
    have older := (orderly.listed.caller _ _ (bearing_of_queued queued)).1
    have present :=
      Pool.present_of_served course.lasting (path_of_run run).2 older connects
    simpa [Site.surroundings] using present

/-- A deadline opens a connection past capacity whether or not its caller still waits: if the
configuration says so, if it is the first for its request, and if anything but the pool itself
holds on to the pool. It takes one unit more than were in use, which was all there were. The queue
has connections opened only for callers who had not gone when the turn began, and only within the
capacity. -/
theorem opened_regardless (run : Site.Run config observer past now s) (order : now ≤ later)
    (due : s.next? = some (c, rest)) (course : Site.Course later rest)
    (queued : r ∈ s.pool.pending.requests) :
    (.connect (.queued r.id) ∈ (course.turn c).effects ↔
      c = some (.timedOut r.id) ∧ config.timeoutAction = .newConnection ∧
        config.acquireTimeoutMs ≠ 0 ∧ r.overflowOpened = false ∧
        (course.amid []).isReachable = true) ∧
    (.connect (.queued r.id) ∈ (course.turn c).effects →
      (course.turn c).effects = [.connect (.queued r.id)] ∧ r.id ∉ Site.overflows past ∧
        config.maxConnections ≤ s.pool.registry.acquired ∧
        (course.after c).pool.registry.acquired = s.pool.registry.acquired + 1) ∧
    ∀ m ∈ (course.turn c).log, m.effect = .connect (.owned { r with timer := none }) →
      (course.amid []).standing r.ticket ≠ .abandoned ∧
        m.pool.registry.acquired ≤ config.maxConnections := by
  have same : s.pool.config = config := config_of_run run
  have asked := deadline_of_connects run order due course queued
  rw [same] at asked
  have spent : .connect (.queued r.id) ∈ (course.turn c).effects →
      config.timeoutAction = .newConnection ∧ config.acquireTimeoutMs ≠ 0 ∧
        r.overflowOpened = false := by
    intro connects
    have due' : config.expire r = (.openOverflow, (config.expire r).2) :=
      Prod.ext (asked connects).2.1 rfl
    obtain ⟨action, limited, unopened, -, -⟩ := expire_eq_openOverflow due'
    exact ⟨action, limited, unopened⟩
  have opens : c = some (.timedOut r.id) → (config.expire r).1 = .openOverflow →
      (course.amid []).isReachable = true →
      (course.turn c).effects = [.connect (.queued r.id)] ∧
        (course.turn c).pool.registry = s.pool.registry.reserve := by
    rintro rfl past reachable
    rw [turn_of_due due course]
    exact Pool.handle_of_overflow (path_of_run run).2 (open_of_queued run queued)
      (find?_of_queued run queued) (same ▸ past) reachable
  refine ⟨⟨fun connects => ?_, ?_⟩, fun connects => ?_, fun m member connect => ⟨?_, ?_⟩⟩
  · obtain ⟨deadline, -, reachable⟩ := asked connects
    obtain ⟨action, limited, unopened⟩ := spent connects
    exact ⟨deadline, action, limited, unopened, reachable⟩
  · rintro ⟨deadline, action, limited, unopened, reachable⟩
    have past := Turn.expire_of_newConnection action limited unopened
    rw [(opens deadline past reachable).1]
    exact List.mem_singleton_self _
  · obtain ⟨deadline, past, reachable⟩ := asked connects
    obtain ⟨effects, registry⟩ := opens deadline past reachable
    obtain ⟨-, -, unopened⟩ := spent connects
    refine ⟨effects, unopened_before run queued unopened, ?_, ?_⟩
    · obtain ⟨-, busy⟩ := (path_of_run run).2.resolve_left (List.ne_nil_of_mem queued)
      rwa [same] at busy
    · exact congrArg Registry.acquired registry
  · exact present_of_connects run due course queued (List.mem_map.mpr ⟨m, member, connect⟩)
  · cases opens_of_connects run order due course member connect with
    | below reserved drained room =>
      dsimp only at reserved
      rw [reserved]
      exact room

/-- A caller leaves while its request waits, and then the deadline of the request passes. -/
def leftOverdue : List (Nat × Option Site.Event) :=
  [(0, some (.acquire ⟨1⟩)), (0, none), (1, some (.connected ⟨0⟩ (.ok (⟨1⟩, {})))), (1, none),
    (2, some (.read ⟨1⟩)), (3, some (.acquire ⟨2⟩)), (3, none), (4, some (.abandon ⟨2⟩)),
    (10000003, some (.deadline ⟨2⟩))]

theorem exists_leftOverdue :
    let config : Config :=
      { maxConnections := 1, acquireTimeoutMs := 10, timeoutAction := .newConnection }
    ∃ past now s rest, ∃ r : Request, Site.Run config (fun _ _ => none) past now s ∧
      now ≤ 10000003 ∧ s.next? = some (some (.timedOut r.id), rest) ∧ r ∈ s.pool.pending.requests ∧
      r.overflowOpened = false ∧ rest.isReachable = true ∧ s.standing r.ticket = .abandoned ∧
      s.pool.registry.acquired = 1 := by
  intro config
  obtain ⟨past, now, s, c, rest, run, order, due, seen⟩ :=
    Site.exists_due config (fun _ _ => none) leftOverdue 10000003
      (fun _ s c rest => rest.isReachable && s.pool.registry.acquired == 1 &&
        s.pool.pending.requests.any fun r => c.bind Command.expired? == some r.id &&
          r.overflowOpened == false && s.standing r.ticket == .abandoned)
      (by decide +kernel)
  simp only [Bool.and_eq_true, List.any_eq_true, beq_iff_eq] at seen
  obtain ⟨⟨reachable, one⟩, r, queued, ⟨expired, unopened⟩, gone⟩ := seen
  obtain rfl : c = some (.timedOut r.id) := by
    cases c with
    | none => cases expired
    | some c =>
      cases c <;> cases expired
      rfl
  exact ⟨past, now, s, rest, r, run, order, due, queued, unopened, reachable, gone, one⟩

theorem opened_of_leftOverdue :
    ∃ past now s rest, ∃ r : Request, Site.Run
        { maxConnections := 1, acquireTimeoutMs := 10, timeoutAction := .newConnection }
        (fun _ _ => none) past now s ∧
      s.next? = some (some (.timedOut r.id), rest) ∧ s.standing r.ticket = .abandoned ∧
      .connect (.queued r.id) ∈
        ((Site.Course.alone 10000003 rest).turn (some (.timedOut r.id))).effects ∧
      ((Site.Course.alone 10000003 rest).after
        (some (.timedOut r.id))).pool.registry.acquired = 2 := by
  obtain ⟨past, now, s, rest, r, run, order, due, queued, unopened, reachable, gone, one⟩ :=
    exists_leftOverdue
  obtain ⟨opens, once, -⟩ := opened_regardless run order due (.alone 10000003 rest) queued
  have connects := opens.mpr ⟨rfl, rfl, by decide, unopened, reachable⟩
  obtain ⟨-, -, -, more⟩ := once connects
  rw [one] at more
  exact ⟨past, now, s, rest, r, run, due, gone, connects, more⟩

/-- A connection past capacity is opened for a caller that has gone, and takes the pool past its
capacity. -/
theorem exceeded_of_leftOverdue :
    ¬∀ config observer past now s rest later (r : Request),
      Site.Run config observer past now s → now ≤ later →
      s.next? = some (some (.timedOut r.id), rest) → r ∈ s.pool.pending.requests →
      ∀ course : Site.Course later rest,
        .connect (.queued r.id) ∈ (course.turn (some (.timedOut r.id))).effects →
        s.standing r.ticket ≠ .abandoned ∨
          (course.after (some (.timedOut r.id))).pool.registry.acquired ≤
            config.maxConnections := by
  intro claim
  obtain ⟨past, now, s, rest, r, run, order, due, queued, unopened, reachable, gone, one⟩ :=
    exists_leftOverdue
  have quiet := (path_of_run run).2
  have same := config_of_run run
  have overflow : (s.pool.config.expire r).1 = .openOverflow :=
    Turn.expire_of_newConnection (by rw [same]) (by rw [same]; decide) unopened
  obtain ⟨effects, registry⟩ := Pool.handle_of_overflow
    (w := Site.surroundings (Site.Course.alone 10000003 rest).amid) quiet
    (open_of_queued run queued) (find?_of_queued run queued) overflow reachable
  have turned := turn_of_due due (Site.Course.alone 10000003 rest)
  have connects : .connect (.queued r.id) ∈
      ((Site.Course.alone 10000003 rest).turn (some (.timedOut r.id))).effects := by
    rw [turned, Pool.respond, effects]
    exact List.mem_singleton_self _
  rcases claim _ _ _ _ _ _ _ r run order due queued (.alone 10000003 rest) connects with
    stays | few
  · exact stays gone
  · rw [Site.Course.after, Site.pool_withPool, turned, Pool.respond, registry] at few
    change s.pool.registry.acquired + 1 ≤ 1 at few
    omega

end LoanPool
