import LoanPool.Proofs.Failure
import LoanPool.Proofs.HealthGate
import LoanPool.Proofs.Lifecycle
import LoanPool.Proofs.Reconciliation

/-!
# Containment

What becomes of a whole turn in which something fails. The failure has been dealt with before the
queue is served, so whoever waits is served from the unit that it gave back; and only one thing
fails in a turn, so there is one unit to serve from.
-/
namespace LoanPool
open Pending (Request)

namespace Turn
variable {w : Surroundings} {p : Pool} {c : Command}

theorem refusal?_of_serves {e : Effect} (serves : e.Serves) : e.refusal? = none := by
  cases e with
  | hook h serial refusal => exact serves.elim
  | _ => rfl

theorem refusal?_of_replies {h : Hook} {reason : String} {attached : Option Request}
    {replies : List Effect} (blamed : Blamed p c reason h attached replies) :
    ∀ e ∈ replies, e.refusal? = none := by
  have answers : ∀ (reply : Option Ticket) (outcome : Outcome),
      ∀ e ∈ reply.toList.map fun k => Effect.answer k outcome, e.refusal? = none := by
    intro reply outcome e member
    obtain ⟨k, -, rfl⟩ := List.mem_map.mp member
    rfl
  cases blamed with
  | created opened => exact List.forall_mem_nil _
  | acquired r => exact answers _ _
  | released back => exact answers _ _

/-- What is refused in a whole turn was dealt with before the queue was served. -/
theorem faulty_handle (lasting : w.Lasting) (quiet : p.Quiet) (opened : p.closed = false)
    {e : Effect} (member : e ∈ (p.handle w c).effects) (refuses : e.refusal? ≠ none) :
    Faulty w p c ((Turn.mk p []).perform w c) := by
  refine (faulty_perform lasting opened c).resolve_left fun smooth => refuses ?_
  obtain ⟨es, adds, follows⟩ := Pool.adds_handle lasting quiet c
  rw [adds.effects] at member
  rcases List.mem_append.mp member with early | late
  · exact smooth e early
  · rcases follows e late with serves | ⟨k, rfl⟩
    · exact refusal?_of_serves serves
    · rfl

end Turn

/-! ### One failure and the rest of the turn -/

/-- A connection in use fails while the pool stands as `held` with its accounts in balance. When
this has been dealt with, in `u`, the connection is deregistered, its unit is free, and nobody else
has been touched. From there the turn ends with what the queue makes of the unit. -/
structure Failed (w : Surroundings) (line : List Request) (held : Pool) (id : ConnId)
    (serial : Serial) (attached : Option Request) (u t : Turn) : Prop where
  balanced : held.registry.Balanced
  known : held.registry.serial? id = some serial
  used : held.registry.slot? id ≠ some .idle
  vacated : Registry.Vacated held.registry u.pool.registry id
  unit : held.registry.acquired = u.pool.registry.acquired + 1
  contained : Contained w line held attached u
  refilled : Turn.Refilled w u t

/-- A connection could not be opened. When this has been dealt with, in `u`, its unit is free, and
one caller at most has been told. From there the turn ends with what the queue makes of the unit. -/
structure Unconnected (w : Surroundings) (p : Pool) (target : Target) (cause : String)
    (u t : Turn) : Prop where
  registry : u.pool.registry = p.registry.cancelReservation
  unit : p.registry.acquired = u.pool.registry.acquired + 1
  opening : p.registry.connecting = u.pool.registry.connecting + 1
  told : u.effects = Turn.farewells (p.claimant? target) (.connect cause)
  contained : Contained w (p.line (.connected target (.error cause))) p (p.claimant? target) u
  refilled : Turn.Refilled w u t

theorem Failed.closes {w : Surroundings} {line : List Request} {held : Pool} {id : ConnId}
    {serial : Serial} {attached : Option Request} {u t : Turn}
    (failed : Failed w line held id serial attached u t) (told : .close serial ∈ u.effects) :
    .close serial ∈ t.effects := by
  obtain ⟨es, adds, -⟩ := failed.refilled.adds
  rw [adds.effects]
  exact List.mem_append_left _ told

section Turns
variable {w : Surroundings} {p : Pool} {c : Command} {t : Turn} {id : ConnId} {serial : Serial}

theorem Registry.Vacated.unit {r r' : Registry} (vacated : Vacated r r' id) (b : r.Balanced)
    (known : r.serial? id = some serial) (used : r.slot? id ≠ some .idle) :
    r.acquired = r'.acquired + 1 := by
  obtain ⟨e, found, -⟩ := Option.map_eq_some_iff.mp known
  have slot := slot?_of_find? found
  have positive := acquired_of_used b slot fun idle => used (idle ▸ slot)
  rw [vacated.acquired]
  omega

/-- In a turn in which a refusal was dealt with, this is the only one. -/
theorem once_refused {front mid : Turn} {h : Hook} {reason : String} {es : List Effect}
    (before : ∀ e ∈ front.effects, e.refusal? = none)
    (objected : front.Objected h serial reason id mid) (adds : mid.Adds es t)
    (unrefused : ∀ e ∈ es, e.refusal? = none) :
    ∃ back, t.log = front.log ++ ⟨.hook h serial (some reason), front.pool⟩ :: back ∧
      t.log.countP (·.effect.refusal?.isSome) ≤ 1 := by
  have none_in : ∀ log : List Moment, (∀ e ∈ log.map (·.effect), e.refusal? = none) →
      log.countP (·.effect.refusal?.isSome) = 0 := by
    intro log none_of
    refine List.countP_eq_zero.mpr fun m member => ?_
    simp [none_of m.effect (List.mem_map_of_mem member)]
  obtain ⟨q, log⟩ := objected.log
  obtain ⟨more, log', rfl⟩ := adds
  refine ⟨⟨.close serial, q⟩ :: more, ?_, ?_⟩
  · rw [log', log, List.append_assoc]
    rfl
  · rw [log', log, List.countP_append, List.countP_append, none_in _ before, none_in _ unrefused]
    simp [Effect.refusal?]

/-- The hook that refuses in a turn is the one whose refusal was dealt with. -/
theorem failed_of_refused {front back : List Moment} {m : Moment} {h : Hook} {reason : String}
    (lasting : w.Lasting) (quiet : p.Quiet) (opened : p.closed = false)
    (split : (p.handle w c).log = front ++ m :: back)
    (here : m.effect = .hook h serial (some reason)) (balanced : m.pool.registry.Balanced) :
    Prelude w p (front.map (·.effect)) ∧ ∃ id attached replies u,
      Blamed p c reason h attached replies ∧
      u.effects = front.map (·.effect) ++ [.hook h serial (some reason), .close serial] ++
        (Turn.farewells attached (.observer reason) ++ replies) ∧
      Failed w (p.line c) m.pool id serial attached u (p.handle w c) := by
  have member : m.effect ∈ (p.handle w c).effects := by
    rw [Turn.effects, split]
    simp
  have faulty := Turn.faulty_handle lasting quiet opened member (by simp [here, Effect.refusal?])
  cases faulty with
  | @intro front' mid h' serial' reason' id attached replies before going objected blamed adds
      registry contained =>
    have still : ((Turn.mk p []).perform w c).pool.closed = false := by
      rw [contained.pool]
      exact going
    have refilled := Pool.handle_refilled lasting quiet c still
    obtain ⟨es, follows, serves⟩ := refilled.adds
    obtain ⟨back', split', once⟩ := once_refused before.unrefused objected (adds.trans follows)
      (List.forall_mem_append.mpr ⟨List.forall_mem_append.mpr
        ⟨Turn.refusal?_of_farewells, Turn.refusal?_of_replies blamed⟩,
        fun e member => Turn.refusal?_of_serves (serves e member)⟩)
    rw [split'] at once
    -- There is one refusal, so the moment that was found is the one that was dealt with.
    obtain ⟨rfl, rfl, -⟩ := Keyed.split_of_countP_le_one once rfl (by simp [here, Effect.refusal?])
      (split'.symm.trans split)
    cases here
    have vacated := objected.vacated
    rw [← registry] at vacated
    refine ⟨before, id, attached, replies, _, blamed, ?_, balanced, objected.known, objected.used,
      vacated, vacated.unit balanced objected.known objected.used, contained, refilled⟩
    exact (objected.adds.trans adds).effects.trans (List.append_assoc _ _ _).symm

theorem unconnected_handle (lasting : w.Lasting) (quiet : p.Quiet) (opened : p.closed = false)
    (balanced : p.registry.Balanced) (opening : 0 < p.registry.connecting) (target : Target)
    (cause : String) :
    ∃ u, Unconnected w p target cause u (p.handle w (.connected target (.error cause))) := by
  let cancelled := (Turn.mk p []).withRegistry p.registry.cancelReservation
  obtain ⟨pool, told⟩ := Turn.failTarget_spec cancelled target (.connect cause)
  have waiting : cancelled.pool.claimant? target = p.claimant? target ∧
      cancelled.pool.others target = p.others target := by
    cases target <;> exact ⟨rfl, rfl⟩
  rw [waiting.1] at told
  rw [waiting.2] at pool
  have units := balanced.units
  refine ⟨cancelled.failTarget target (.connect cause), ?_, ?_, ?_, told.effects,
    ⟨⟨[], ?_, List.forall_mem_nil _⟩, ?_⟩, ?_⟩
  · rw [pool]
    rfl
  · rw [pool]
    change p.registry.acquired = p.registry.acquired - 1 + 1
    omega
  · rw [pool]
    exact (Nat.sub_add_cancel opening).symm
  · rw [pool]
    rfl
  · rw [pool]
    rfl
  · refine Pool.handle_refilled lasting quiet (.connected target (.error cause)) ?_
    change (cancelled.failTarget target (.connect cause)).pool.closed = false
    rw [pool]
    exact opened

theorem failed_of_bad (lasting : w.Lasting) (quiet : p.Quiet) (opened : p.closed = false)
    (checking : p.registry.isChecking id = true) (reply : Option Ticket)
    (balanced : p.registry.Balanced) :
    ∃ serial u, u.effects = .close serial :: reply.toList.map (fun k => .answer k .done) ∧
      Failed w (p.line (.checked id false reply)) p id serial none u
        (p.handle w (.checked id false reply)) := by
  obtain ⟨serial, reg, removed, pool, effects⟩ :=
    checked_of_bad (w := w) (t := ⟨p, []⟩) reply checking
  have slot : p.registry.slot? id = some .checking := by
    simpa [Registry.isChecking] using checking
  have used : p.registry.slot? id ≠ some .idle := by simp [slot]
  obtain ⟨serial', known⟩ := Turn.known_of_slot (t := ⟨p, []⟩) slot
  obtain ⟨reg', removed', -⟩ := Turn.discard_of_known (w := w) known
  cases removed.symm.trans removed'
  have vacated := Registry.vacated_discard? used removed
  refine ⟨serial, _, effects, balanced, known, used, ?_, ?_,
    ⟨⟨[], ?_, List.forall_mem_nil _⟩, ?_⟩, ?_⟩
  · rw [pool]
    exact vacated
  · rw [pool]
    exact vacated.unit balanced known used
  · rw [pool]
    rfl
  · rw [pool]
  · refine Pool.handle_refilled lasting quiet (.checked id false reply) ?_
    rw [Turn.perform, pool]
    exact opened

end Turns

/-! ### Runs -/

variable {config : Config} {observer : Hook → Nat → Option String} {past : List Site.Record}
  {now later : Nat} {s rest : Site} {c : Command} {id : ConnId} {serial : Serial}

theorem count_closed {acts : List Act} (ordered : Ordered acts) (closed : .close ∈ acts) :
    acts.count .close = 1 := by
  obtain ⟨front, rest, rfl⟩ := List.append_of_mem closed
  obtain rfl := closed_of_ordered ordered
  have first : .close ∉ front := by
    intro earlier
    obtain ⟨before, since, rfl⟩ := List.append_of_mem earlier
    rw [List.append_assoc, List.cons_append] at ordered
    have nothing := closed_of_ordered ordered
    simp at nothing
  rw [List.count_append, List.count_eq_zero.mpr first]
  rfl

/-- A connection that is closed in a turn is closed once, as far as the record goes. -/
theorem closed_once (run : Site.Run config observer past now s) (order : now ≤ later)
    (due : s.next? = some (some c, rest)) (course : Site.Course later rest)
    (closes : .close serial ∈ (course.turn (some c)).effects) :
    (Site.acts (past ++ Site.records later (some c) s.pool (course.turn (some c))) serial).count
      .close = 1 := by
  obtain ⟨m, living⟩ := run_invariant Scene.Living (.turn run order due course) living_move
    (living_start config observer)
  refine count_closed (living.ordered serial) ?_
  obtain ⟨moment, member, told⟩ := List.mem_map.mp closes
  let entry : Site.Record :=
    { now := later, command := some c, effect := some moment.effect, pool := moment.pool }
  have listed : entry ∈ past ++ Site.records later (some c) s.pool (course.turn (some c)) :=
    List.mem_append_right _ (List.mem_cons_of_mem _ (List.mem_map_of_mem member))
  have acts : entry.effect.bind Effect.act? = some (serial, .close) := by
    simp only [entry, told]
    rfl
  refine List.mem_map.mpr ⟨(serial, .close), List.mem_filter.mpr ⟨?_, by simp⟩, rfl⟩
  exact List.mem_filterMap.mpr ⟨entry, listed, acts⟩

theorem balanced_of_happens {before : Pool} {c : Option Command} {e : Effect}
    (happens : Happens Scene.Accounted past before c s e) : s.pool.registry.Balanced := by
  cases happens with
  | intro accounted move eq =>
    have balanced := (accounted_move move accounted).balanced
    simpa only [eq, Scene.registry, Scene.pool_emit, Scene.pool_alter, Site.pool_withPool] using
      balanced

/-- The accounts are in balance at every moment of a turn. -/
theorem balanced_of_logged (run : Site.Run config observer past now s) (order : now ≤ later)
    (due : s.next? = some (some c, rest)) (course : Site.Course later rest)
    {front back : List Moment} {m : Moment}
    (split : (course.turn (some c)).log = front ++ m :: back) : m.pool.registry.Balanced :=
  balanced_of_happens (happens_of_midst (.effect run order due course split) accounted_move
    (accounted_start config observer))

/-- Each failure in a turn of an open pool gives one unit back, and touches nobody whom it does not
concern. When a connection cannot be opened, the request is told that it was meant for, if that
still waits. A hook that refuses is the only one to do so in its turn; before it, nothing is closed
but idle connections that are found inactive. Its connection is closed, and whoever the hook was
called for is told. A bad verdict has the connection closed and is told to nobody; it means nothing
when the connection is not being checked any more. -/
theorem failures_contained (run : Site.Run config observer past now s) (order : now ≤ later)
    (due : s.next? = some (some c, rest)) (opened : s.pool.closed = false)
    (course : Site.Course later rest) :
    let w := Site.surroundings course.amid
    let t := course.turn (some c)
    let history := past ++ Site.records later (some c) s.pool t
    (∀ target cause, c = .connected target (.error cause) →
      ∃ u, Unconnected w s.pool target cause u t) ∧
    (∀ front m back h serial reason, t.log = front ++ m :: back →
      m.effect = .hook h serial (some reason) → Prelude w s.pool (front.map (·.effect)) ∧
        ∃ id attached replies u, Blamed s.pool c reason h attached replies ∧
          u.effects = front.map (·.effect) ++ [.hook h serial (some reason), .close serial] ++
            (Turn.farewells attached (.observer reason) ++ replies) ∧
          Failed w (s.pool.line c) m.pool id serial attached u t ∧
          (Site.acts history serial).count .close = 1) ∧
    ∀ id reply, c = .checked id false reply →
      (s.pool.registry.isChecking id = true → ∃ serial u,
        u.effects = .close serial :: reply.toList.map (fun k => .answer k .done) ∧
        Failed w (s.pool.line c) s.pool id serial none u t ∧
        (Site.acts history serial).count .close = 1) ∧
      (s.pool.registry.isChecking id = false →
        t = ⟨s.pool, reply.toList.map fun k => ⟨.answer k .done, s.pool⟩⟩) := by
  intro w t history
  have lasting : w.Lasting := course.lasting
  have quiet := (path_of_run run).2
  have handled : t = s.pool.handle w c := by
    rw [← Site.pool_next? due]
    rfl
  obtain ⟨_, a⟩ := run_invariant Scene.Accounted run accounted_move
    (accounted_start config observer)
  have balanced : s.pool.registry.Balanced := a.balanced
  refine ⟨?_, ?_, ?_⟩
  · rintro target cause rfl
    have opening : s.pool.registry.connecting = s.underWay.countP Command.isConnected := a.opening
    rw [Site.underWay_next? due] at opening
    -- The connection whose opening has failed is still counted as being opened.
    have some_opening : 0 < s.pool.registry.connecting := by
      rw [opening]
      exact List.countP_pos_iff.mpr ⟨_, List.mem_append_left _ (List.mem_singleton_self _), rfl⟩
    rw [handled]
    exact unconnected_handle lasting quiet opened balanced some_opening target cause
  · intro front m back h serial reason split here
    have even := balanced_of_logged run order due course split
    change t.log = _ at split
    rw [handled] at split
    obtain ⟨before, id, attached, replies, u, blamed, effects, failed⟩ :=
      failed_of_refused lasting quiet opened split here even
    rw [← handled] at failed
    refine ⟨before, id, attached, replies, u, blamed, effects, failed, ?_⟩
    refine closed_once run order due course (failed.closes ?_)
    simp [effects]
  · rintro id reply rfl
    rw [handled]
    constructor
    · intro checking
      obtain ⟨serial, u, effects, failed⟩ :=
        failed_of_bad lasting quiet opened checking reply balanced
      refine ⟨serial, u, effects, failed, ?_⟩
      rw [← handled] at failed
      refine closed_once run order due course (failed.closes ?_)
      simp [effects]
    · intro unchecked
      have late : (Command.checked id false reply).IsLate s.pool := by
        simpa [Command.IsLate, Registry.isChecking] using unchecked
      exact handle_of_late (settled_of_run run) late

def Command.unopened? : Command → Option Target
  | .connected target (.error _) => some target
  | _ => none

def Command.condemned? : Command → Option ConnId
  | .checked id false _ => some id
  | _ => none

theorem eq_connected_of_unopened? {target : Target} (unopened : c.unopened? = some target) :
    ∃ cause, c = .connected target (.error cause) := by
  cases c with
  | connected target' result =>
    cases result with
    | error cause =>
      cases unopened
      exact ⟨cause, rfl⟩
    | ok serial => cases unopened
  | _ => cases unopened

theorem eq_checked_of_condemned? (condemned : c.condemned? = some id) :
    ∃ reply, c = .checked id false reply := by
  cases c with
  | checked id' healthy reply =>
    cases healthy with
    | false =>
      cases condemned
      exact ⟨reply, rfl⟩
    | true => cases condemned
  | _ => cases condemned

/-- One caller has the only connection, and three others wait for it. The first of them has left
when it is given back. -/
def spurned : List (Nat × Option Site.Event) :=
  [(0, some (.acquire ⟨1⟩)), (0, none), (1, some (.connected ⟨0⟩ (.ok (⟨1⟩, {})))), (1, none),
    (2, some (.read ⟨1⟩)), (2, some (.acquire ⟨2⟩)), (2, none), (3, some (.acquire ⟨3⟩)), (3, none),
    (4, some (.acquire ⟨4⟩)), (4, none), (5, some (.abandon ⟨2⟩)), (6, some (.release ⟨1⟩ ⟨5⟩))]

/-- The only connection that there may be cannot be opened, while another caller waits. -/
def unreached : List (Nat × Option Site.Event) :=
  [(0, some (.acquire ⟨1⟩)), (0, none), (1, some (.acquire ⟨2⟩)), (1, none),
    (2, some (.connected ⟨0⟩ (.error "no route")))]

/-- The only connection is given back and checked while another caller waits. -/
def examined : List (Nat × Option Site.Event) :=
  [(0, some (.acquire ⟨1⟩)), (0, none), (1, some (.connected ⟨0⟩ (.ok (⟨1⟩, {})))), (1, none),
    (2, some (.read ⟨1⟩)), (3, some (.acquire ⟨2⟩)), (3, none), (4, some (.release ⟨1⟩ ⟨3⟩)),
    (4, none)]

/-- A hook refuses to hand the connection on, an attempt to connect comes to nothing, and a check
finds a connection bad. -/
theorem contained_of_spurned :
    (∃ past now s c rest, Site.Run { maxConnections := 1, checkOnRelease := false }
      (fun h n => if h = .acquired ∧ n = 2 then some "no" else none) past now s ∧
      s.next? = some (some c, rest) ∧ s.pool.closed = false ∧
      ∃ course : Site.Course 9 rest, ∃ m ∈ (course.turn (some c)).log,
        m.effect = .hook .acquired ⟨1⟩ (some "no") ∧ ∃ id attached u,
          Failed (Site.surroundings course.amid) (s.pool.line c) m.pool id ⟨1⟩ attached u
            (course.turn (some c))) ∧
    (∃ past now s target cause rest, Site.Run { maxConnections := 1 } (fun _ _ => none) past now s ∧
      s.next? = some (some (.connected target (.error cause)), rest) ∧ s.pool.closed = false ∧
      ∃ course : Site.Course 9 rest, ∃ u,
        Unconnected (Site.surroundings course.amid) s.pool target cause u
          (course.turn (some (.connected target (.error cause))))) ∧
    ∃ past now s id reply rest, Site.Run { maxConnections := 1 } (fun _ _ => none) past now s ∧
      s.next? = some (some (.checked id false reply), rest) ∧ s.pool.closed = false ∧
      ∃ course : Site.Course 9 rest, ∃ serial u,
        Failed (Site.surroundings course.amid) s.pool.pending.requests s.pool id serial none u
          (course.turn (some (.checked id false reply))) := by
  refine ⟨?_, ?_, ?_⟩
  · obtain ⟨past, now, s, c, rest, run, order, due, seen⟩ :=
      Site.exists_due { maxConnections := 1, checkOnRelease := false }
        (fun h n => if h = .acquired ∧ n = 2 then some "no" else none) spurned 9
        (fun _ s c rest => s.pool.closed == false && c.isSome &&
          ((Site.Course.alone 9 rest).turn c).log.any fun m =>
            m.effect == .hook .acquired ⟨1⟩ (some "no"))
        (by decide +kernel)
    simp only [Bool.and_eq_true, beq_iff_eq, List.any_eq_true] at seen
    obtain ⟨⟨opened, command⟩, m, member, here⟩ := seen
    obtain ⟨c, rfl⟩ := Option.isSome_iff_exists.mp command
    obtain ⟨front, back, split⟩ := List.append_of_mem member
    obtain ⟨-, refused, -⟩ := failures_contained run order due opened (.alone 9 rest)
    obtain ⟨-, id, attached, replies, u, -, -, failed, -⟩ :=
      refused front m back .acquired ⟨1⟩ "no" split here
    exact ⟨past, now, s, c, rest, run, due, opened, .alone 9 rest, m, member, here, id, attached, u,
      failed⟩
  · obtain ⟨past, now, s, c, rest, run, order, due, seen⟩ :=
      Site.exists_due { maxConnections := 1 } (fun _ _ => none) unreached 9
        (fun _ s c _ => s.pool.closed == false && (c.bind Command.unopened?).isSome)
        (by decide +kernel)
    simp only [Bool.and_eq_true, beq_iff_eq, Option.isSome_iff_exists] at seen
    obtain ⟨opened, target, command⟩ := seen
    obtain ⟨c, rfl, unopened⟩ := Option.bind_eq_some_iff.mp command
    obtain ⟨cause, rfl⟩ := eq_connected_of_unopened? unopened
    obtain ⟨unconnected, -, -⟩ := failures_contained run order due opened (.alone 9 rest)
    obtain ⟨u, settled⟩ := unconnected target cause rfl
    exact ⟨past, now, s, target, cause, rest, run, due, opened, .alone 9 rest, u, settled⟩
  · obtain ⟨past, now, s, c, rest, run, order, due, seen⟩ :=
      Site.exists_due { maxConnections := 1 } (fun _ _ => none)
        (examined ++ [(5, some (.checked ⟨1⟩ false))]) 9
        (fun _ s c _ => s.pool.closed == false &&
          (c.bind Command.condemned?).any s.pool.registry.isChecking)
        (by decide +kernel)
    simp only [Bool.and_eq_true, beq_iff_eq, Option.any_eq_true] at seen
    obtain ⟨opened, id, command, checking⟩ := seen
    obtain ⟨c, rfl, condemned⟩ := Option.bind_eq_some_iff.mp command
    obtain ⟨reply, rfl⟩ := eq_checked_of_condemned? condemned
    obtain ⟨-, -, judged⟩ := failures_contained run order due opened (.alone 9 rest)
    obtain ⟨serial, u, -, failed, -⟩ := (judged id reply rfl).1 checking
    exact ⟨past, now, s, id, reply, rest, run, due, opened, .alone 9 rest, serial, u, failed⟩

/-- When nothing holds on to the pool any more, a unit that comes free serves nobody: the caller
that waits is neither left in the queue nor given a connection. -/
theorem forsaken_of_examined :
    ¬∀ config observer past now s c rest later, Site.Run config observer past now s →
      now ≤ later → s.next? = some (some c, rest) → s.pool.closed = false →
      ∀ course : Site.Course later rest, ∀ id reply, c = .checked id false reply →
        s.pool.registry.isChecking id = true → ∀ r ∈ s.pool.pending.requests,
          (course.after (some c)).standing r.ticket = .abandoned ∨
            r ∈ (course.turn (some c)).pool.pending.requests ∨
            .connect (.owned { r with timer := none }) ∈ (course.turn (some c)).effects ∨
            ∃ id serial, .answer r.ticket (.loan id serial) ∈ (course.turn (some c)).effects := by
  intro claim
  obtain ⟨past, now, s, c, rest, run, order, due, seen⟩ :=
    Site.exists_due { maxConnections := 1 } (fun _ _ => none)
      (examined ++ [(5, some .dropHandle), (6, some (.checked ⟨1⟩ false))]) 9
      (fun _ s c rest =>
        let course := Site.Course.alone 9 rest
        s.pool.closed == false && (c.bind Command.condemned?).any s.pool.registry.isChecking &&
          s.pool.pending.requests.any (·.ticket == ⟨2⟩) &&
          (course.after c).standing ⟨2⟩ != .abandoned &&
          (course.turn c).pool.pending.requests == [] &&
          (course.turn c).effects == [.close ⟨1⟩, .answer ⟨3⟩ .done,
            .answer ⟨2⟩ (.failed .poolClosed)])
      (by decide +kernel)
  simp only [Bool.and_eq_true, beq_iff_eq, bne_iff_ne, List.any_eq_true, Option.any_eq_true] at seen
  obtain ⟨⟨⟨⟨⟨opened, id, command, checking⟩, r, member, ticket⟩, present⟩, emptied⟩, effects⟩ :=
    seen
  obtain ⟨c, rfl, condemned⟩ := Option.bind_eq_some_iff.mp command
  obtain ⟨reply, rfl⟩ := eq_checked_of_condemned? condemned
  rcases claim _ _ past now s _ rest 9 run order due opened (.alone 9 rest) id reply rfl checking
    r member with left | queued | opening | ⟨id', serial, lent⟩
  · exact present (ticket ▸ left)
  · rw [emptied] at queued
    cases queued
  · rw [effects] at opening
    simp at opening
  · rw [effects] at lent
    simp at lent

end LoanPool
