import Mathlib.Data.List.Nodup
import LoanPool.Proofs.Custody
import LoanPool.Proofs.Footprint
import LoanPool.Proofs.Precedence

/-!
# Admission

A caller is turned away if and only if those who still wait fill the queue, and then nothing is done
but to tell it so, and to let go of the requests whose callers have left. The queue never holds more
requests than the configuration admits.

By the time the pool looks at the queue it has tried to take an idle connection and has looked for
room. That neither of these did anything is because the pool was quiet: somebody waits only while
nothing is left.
-/
namespace LoanPool
open Pending (Request Queue)

variable {w : Surroundings} {t t' : Turn} {id : ConnId} {r : Request} {k : Ticket}

/-! ### Who is turned away -/

def Effect.rejects : Effect → Bool
  | .answer _ (.failed (.admissionRejected ..)) => true
  | _ => false

namespace Turn

def Admits (t : Turn) : Prop :=
  ∀ e ∈ t.effects, e.rejects = false

theorem rejects_of_serves {e : Effect} (serves : e.Serves) : e.rejects = false := by
  unfold Effect.rejects
  split
  · exact serves.elim
  · rfl

theorem rejects_of_delivers {e : Effect} {serial : Serial} (delivers : e.Delivers serial) :
    e.rejects = false := by
  unfold Effect.rejects
  split
  · exact delivers.elim
  · rfl

theorem admits_lineUp (admits : t.Admits) (r : Request)
    (room : (t.pool.pending.prune (w.gone t.effects)).isFull = false) : (t.lineUp w r).Admits := by
  have pruned : (t.prune w).Admits := all_prune admits fun _ => rfl
  have place : (t.prune w).pool.pending.isFull = false := by
    rw [prune, pool_disarmAll]
    exact room
  simp only [lineUp, place, Bool.false_eq_true, if_false, enqueue]
  split
  · exact all_emit pruned rfl
  · exact pruned

/-- Only a full queue turns a caller away, and it is asked only when nothing else is left. -/
theorem admits_acquire (admits : t.Admits) (k : Ticket)
    (room : ∀ t', (t.newRequest k).2.checkout w = (none, t') →
      (t'.pool.pending.prune (w.gone t'.effects)).isFull = false) :
    (t.acquire w k).Admits := by
  have begun : (t.newRequest k).2.Admits := admits
  simp only [acquire]
  split
  · exact all_emit admits rfl
  split
  · next id t' found =>
    exact all_deliver ⟨fun _ _ => rejects_of_delivers, fun _ => rfl⟩
      (all_checkout begun (fun _ => rfl) found)
  · next t' found =>
    have left : t'.Admits := all_checkout begun (fun _ => rfl) found
    split
    · exact all_openFor left rfl (fun _ => rfl) fun _ => rfl
    · exact admits_lineUp left _ (room t' found)

end Turn

/-! ### What a full queue makes of a caller -/

/-- The pool when a caller has been turned away: those who have left are out of the queue, one more
rejection is counted, and the name of the request is used up. -/
def Pool.afterRejection (p : Pool) (gone : Ticket → Bool) : Pool :=
  { p with
    pending := p.pending.prune gone
    nextRequest := p.nextRequest + 1
    counters := { p.counters with rejected := p.counters.rejected + 1 } }

namespace Turn

/-- Where nothing is left, a caller is lined up at once. -/
theorem acquire_of_spent (opened : t.pool.closed = false) (drained : t.pool.registry.idle = [])
    (busy : t.pool.config.maxConnections ≤ t.pool.registry.acquired) (k : Ticket) :
    t.acquire w k = (t.newRequest k).2.lineUp w (t.newRequest k).1 := by
  have none_left : (t.newRequest k).2.checkout w = (none, (t.newRequest k).2) :=
    checkout_of_drained drained
  have full : ¬(t.newRequest k).2.pool.registry.acquired <
      (t.newRequest k).2.pool.config.maxConnections := Nat.not_lt.mpr busy
  simp only [acquire, opened, none_left, Bool.false_eq_true, if_false, full]

/-- A full queue lets go of those who have left, and turns the caller away. -/
theorem lineUp_of_full (full : (t.pool.pending.prune (w.gone t.effects)).isFull = true)
    (unarmed : r.timer = none) :
    (t.lineUp w r).pool =
        { t.pool with
          pending := t.pool.pending.prune (w.gone t.effects)
          counters := { t.pool.counters with rejected := t.pool.counters.rejected + 1 } } ∧
      (t.lineUp w r).effects = t.effects ++
        ((t.pool.pending.abandoned (w.gone t.effects)).filterMap (·.timer)).map .disarm ++
          [.answer r.ticket (.failed (.admissionRejected
            (t.pool.pending.prune (w.gone t.effects)).requests.length t.pool.pending.limit))] := by
  have pool : (t.prune w).pool = (t.withPending (t.pool.pending.prune (w.gone t.effects))).pool :=
    pool_disarmAll _ _
  have effects : (t.prune w).effects = t.effects ++
      ((t.pool.pending.abandoned (w.gone t.effects)).filterMap (·.timer)).map .disarm :=
    (adds_disarmAll _ _).effects
  have noticed : (t.prune w).pool.pending.isFull = true := by
    rw [pool]
    exact full
  simp only [lineUp, noticed, if_true, fail, disarm, unarmed]
  constructor
  · rw [pool_answer, count, pool]
    rfl
  · rw [answer, effects_emit, pool, ← effects]
    rfl

end Turn

/-- The whole turn in which a caller is turned away. -/
theorem Pool.handle_of_full {p : Pool} (opened : p.closed = false) (drained : p.registry.idle = [])
    (busy : p.config.maxConnections ≤ p.registry.acquired) (k : Ticket)
    (full : (p.pending.prune (w.gone [])).isFull = true) :
    (p.handle w (.acquire k)).pool = p.afterRejection (w.gone []) ∧
      (p.handle w (.acquire k)).effects =
        ((p.pending.abandoned (w.gone [])).filterMap (·.timer)).map .disarm ++
          [.answer k (.failed (.admissionRejected
            (p.pending.prune (w.gone [])).requests.length p.pending.limit))] := by
  have acted : (Turn.mk p []).perform w (.acquire k) =
      ((Turn.mk p []).newRequest k).2.lineUp w ((Turn.mk p []).newRequest k).1 :=
    Turn.acquire_of_spent opened drained busy k
  obtain ⟨pool, effects⟩ : _ ∧ _ :=
    Turn.lineUp_of_full (t := ((Turn.mk p []).newRequest k).2) (w := w)
      (r := ((Turn.mk p []).newRequest k).1) full rfl
  rw [← acted] at pool effects
  -- The pool is as quiet as before, so nobody is served.
  have quiet : ((Turn.mk p []).perform w (.acquire k)).pool.Quiet := by
    rw [pool]
    exact .inr ⟨drained, busy⟩
  have still : p.handle w (.acquire k) = (Turn.mk p []).perform w (.acquire k) := by
    rw [handle, Turn.servePending_of_quiet w quiet, Turn.settleClose, pool]
    simp [Turn.newRequest, opened]
  rw [still]
  exact ⟨pool, effects⟩

/-- A turn in which the queue has a place for the caller turns nobody away. -/
theorem Pool.admits_handle {p : Pool} (lasting : w.Lasting) (quiet : p.Quiet)
    (limit : 0 < p.pending.limit) (k : Ticket)
    (room : (p.pending.prune (w.gone [])).isFull = false) :
    (p.handle w (.acquire k)).Admits := by
  have empty : (Turn.mk p []).Admits := fun e none_yet => by cases none_yet
  have acted : ((Turn.mk p []).acquire w k).Admits := by
    refine Turn.admits_acquire empty k fun t' found => ?_
    rcases quiet with nobody | ⟨drained, -⟩
    · have kept := Turn.pending_checkout w ((Turn.mk p []).newRequest k).2
      rw [found] at kept
      have none_waits : t'.pool.pending = p.pending := kept
      simp [Queue.isFull, Queue.prune, none_waits, nobody, Nat.ne_of_gt limit]
    · have none_left : ((Turn.mk p []).newRequest k).2.checkout w =
          (none, ((Turn.mk p []).newRequest k).2) := Turn.checkout_of_drained drained
      rw [none_left] at found
      cases found
      exact room
  obtain ⟨es, adds, follows⟩ := Pool.adds_handle lasting quiet (.acquire k)
  refine adds.forall acted fun e member => ?_
  rcases follows e member with serves | ⟨k', rfl⟩
  · exact Turn.rejects_of_serves serves
  · rfl

/-! ### The length of the queue -/

structure Scene.Bounded (sc : Scene) : Prop where
  now : sc.pool.pending.limit = sc.pool.config.pendingLimit ∧
    sc.pool.pending.requests.length ≤ sc.pool.config.pendingLimit
  past : ∀ rec ∈ sc.past, rec.pool.pending.requests.length ≤ sc.pool.config.pendingLimit

variable {sc sc' : Scene}

theorem limit_move (move : Move sc sc') : sc'.pool.pending.limit = sc.pool.pending.limit := by
  cases move with
  | event order allowed => simp [Scene.pool]
  | wait order => rfl
  | begin free due => simp [Scene.pool, Site.pool_next? due]
  | fetch free bare called found =>
    obtain ⟨r, queued, eq⟩ := Option.map_eq_some_iff.mp found
    cases eq
    rfl
  | _ =>
    simp only [Scene.pool_emit, Scene.pool_alter]
    try rfl

theorem length_move (move : Move sc sc')
    (short : sc.pool.pending.requests.length ≤ sc.pool.pending.limit) :
    sc'.pool.pending.requests.length ≤ sc.pool.pending.limit := by
  cases move with
  | event order allowed => simpa [Scene.pool] using short
  | wait order => exact short
  | begin free due => simpa [Scene.pool, Site.pool_next? due] using short
  | shut task ends opened => exact Nat.zero_le _
  | expire task queued => simpa [Queue.replace] using short
  | overflow task queued due reachable drained => simpa [Queue.replace] using short
  | pop free bare front =>
    rw [front] at short
    exact Nat.le_of_succ_le short
  | sift held left => exact Nat.le_trans (List.length_filter_le _ _) short
  | fetch free bare called found => exact Nat.le_trans (sublist_remove? found).length_le short
  | enqueue held opened newest room =>
    have place : sc.pool.pending.requests.length < sc.pool.pending.limit := by
      simpa [Queue.isFull] using room
    simp only [Scene.pool_alter, Queue.push, List.length_append, List.length_singleton]
    omega
  | _ =>
    simp only [Scene.pool_emit, Scene.pool_alter]
    exact short

theorem bounded_admission_move (move : Move sc sc') (bounded : sc.Bounded) : sc'.Bounded := by
  have config := config_move move
  obtain ⟨limit, short⟩ := bounded.now
  have now : sc'.pool.pending.limit = sc'.pool.config.pendingLimit ∧
      sc'.pool.pending.requests.length ≤ sc'.pool.config.pendingLimit := by
    rw [limit_move move, config, limit]
    rw [← limit] at short
    exact ⟨rfl, limit ▸ length_move move short⟩
  refine ⟨now, fun rec member => ?_⟩
  rw [config]
  rcases recorded_move move rec member with before | same | same
  · exact bounded.past rec before
  · rw [same]
    exact short
  · rw [same, ← config]
    exact now.2

/-! ### The timers in the queue -/

def Pending.Request.misnamed (r : Request) : Bool :=
  r.timer.any fun timer => timer != ⟨r.id.number⟩

theorem unmisnamed_move (a : sc.Accounted) (move : Move sc sc')
    (none_yet : (sc.dues Request.misnamed fun _ => false) = 0) :
    (sc'.dues Request.misnamed fun _ => false) = 0 := by
  refine Nat.le_zero.mp (Nat.le_trans (requests_move a.numbered move ?_ ?_ ?_ ?_)
    (Nat.le_of_eq none_yet))
  · intro r wrong
    cases wrong
  · intro r wrong
    simp [Request.misnamed] at wrong
  · exact fun _ _ => rfl
  · intro r wrong
    rw [Request.misnamed, timer_expire] at wrong
    cases wrong

structure Scene.Attending (sc : Scene) : Prop where
  orderly : sc.Orderly
  bounded : sc.Bounded
  named : (sc.dues Request.misnamed fun _ => false) = 0

theorem attending_move (move : Move sc sc') (attending : sc.Attending) : sc'.Attending where
  orderly := orderly_move move attending.orderly
  bounded := bounded_admission_move move attending.bounded
  named := unmisnamed_move attending.orderly.kept.accounted move attending.named

theorem attending_start (config : Config) (observer : Hook → Nat → Option String) :
    (Scene.start config observer).Attending where
  orderly := orderly_start config observer
  bounded := ⟨⟨rfl, Nat.zero_le _⟩, List.forall_mem_nil _⟩
  named := rfl

theorem eq_of_timer (attending : sc.Attending) {r r' : Request} {timer : TimerId}
    (queued : r ∈ sc.pool.pending.requests) (other : r' ∈ sc.pool.pending.requests)
    (running : r.timer = some timer) (same : r'.timer = some timer) : r = r' := by
  have own : ∀ r ∈ sc.pool.pending.requests, r.timer = some timer → timer = ⟨r.id.number⟩ := by
    intro r queued running
    have none_wrong : sc.pool.pending.requests.countP Request.misnamed = 0 := by
      have named := attending.named
      simp only [Scene.dues, Pool.dues] at named
      omega
    simpa [Request.misnamed, running] using List.countP_eq_zero.mp none_wrong r queued
  have distinct : (sc.pool.pending.requests.map fun r => r.id.number).Nodup := by
    have sorted := attending.orderly.listed.sorted
    rw [Queue.keys, List.pairwise_map] at sorted
    exact List.pairwise_map.mpr (sorted.imp fun less => Nat.ne_of_lt less)
  refine List.inj_on_of_nodup_map distinct queued other ?_
  have first := own r queued running
  have second := own r' other same
  rw [first] at second
  exact congrArg TimerId.number second

/-! ### Admission -/

variable {config : Config} {observer : Hook → Nat → Option String} {past : List Site.Record}
  {now : Nat} {s : Site}

theorem pendingLimit_pos (valid : config.validate = .ok ()) : 0 < config.pendingLimit := by
  have places := ((Config.validate_eq_ok_iff config).mp valid).2
  unfold Config.pendingLimit
  cases limit : config.maxPending with
  | none => decide
  | some n =>
    rw [limit] at places
    exact Nat.pos_of_ne_zero fun zero => places (congrArg some zero)

/-- The queue never holds more requests than it admits. A caller is turned away if and only if those
who still wait for their requests are as many as the queue admits, which is what it is told; and
then nothing else happens, but that those who have left are let go, and that the rejection and the
request are counted. -/
theorem admission_exact (run : Site.Run config observer past now s)
    (valid : config.validate = .ok ()) :
    s.pool.pending.requests.length ≤ config.pendingLimit ∧
    (∀ rec ∈ past, rec.pool.pending.requests.length ≤ config.pendingLimit) ∧
    ∀ {later : Nat} {rest : Site} {k : Ticket} (course : Site.Course later rest),
      s.next? = some (some (.acquire k), rest) → s.pool.closed = false →
      let t := course.turn (some (.acquire k))
      let left := fun r : Request => (course.amid []).standing r.ticket = .abandoned
      let live := s.pool.pending.requests.filter fun r => ¬left r
      ((∃ e ∈ t.effects, e.rejects = true) ↔ config.pendingLimit ≤ live.length) ∧
      (∀ k' pending limit,
        .answer k' (.failed (.admissionRejected pending limit)) ∈ t.effects →
          k' = k ∧ pending = config.pendingLimit ∧ limit = config.pendingLimit) ∧
      (config.pendingLimit ≤ live.length →
        t.pool =
          { s.pool with
            pending := { s.pool.pending with requests := live }
            nextRequest := s.pool.nextRequest + 1
            counters := { s.pool.counters with rejected := s.pool.counters.rejected + 1 } } ∧
        t.effects = ((s.pool.pending.requests.filter left).filterMap (·.timer)).map .disarm ++
          [.answer k (.failed (.admissionRejected config.pendingLimit config.pendingLimit))] ∧
        ∀ r ∈ live, ∀ timer, r.timer = some timer → .disarm timer ∉ t.effects) := by
  obtain ⟨memory, attending⟩ := run_invariant Scene.Attending run attending_move
    (attending_start config observer)
  have same : s.pool.config = config := config_of_run run
  obtain ⟨limit, short⟩ := attending.bounded.now
  have recorded := attending.bounded.past
  simp only [Scene.pool, same] at limit short recorded
  refine ⟨short, recorded, ?_⟩
  intro later rest k course due opened t left live
  let w := Site.surroundings course.amid
  have turned : t = s.pool.handle w (.acquire k) := by
    simp only [t, Site.Course.turn, Site.pool_next? due]
    rfl
  have pruned : (s.pool.pending.prune (w.gone [])).requests = live := by
    simp [Queue.prune, live, left, w, Site.surroundings]
  have gone : s.pool.pending.abandoned (w.gone []) = s.pool.pending.requests.filter left := rfl
  have isFull : (s.pool.pending.prune (w.gone [])).isFull = true ↔
      config.pendingLimit ≤ live.length := by
    rw [Queue.isFull, pruned, decide_eq_true_iff, ← limit]
    rfl
  have places := pendingLimit_pos valid
  by_cases full : config.pendingLimit ≤ live.length
  · -- Somebody waits, so nothing is left to serve anybody with.
    have exactly : live.length = config.pendingLimit :=
      Nat.le_antisymm (Nat.le_trans (List.length_filter_le _ _) short) full
    obtain ⟨drained, busy⟩ : s.pool.registry.idle = [] ∧
        s.pool.config.maxConnections ≤ s.pool.registry.acquired := by
      refine (path_of_run run).2.resolve_left fun nobody => ?_
      simp only [live, nobody, List.filter_nil, List.length_nil] at full
      omega
    obtain ⟨pool, effects⟩ := Pool.handle_of_full opened drained busy k (isFull.mpr full)
    rw [← turned] at pool effects
    rw [gone, pruned, exactly, limit] at effects
    have rejection : ∀ e ∈ t.effects, e.rejects = true →
        e = .answer k (.failed (.admissionRejected config.pendingLimit config.pendingLimit)) := by
      intro e member rejects
      rw [effects] at member
      rcases List.mem_append.mp member with stopped | told
      · obtain ⟨timer, -, rfl⟩ := List.mem_map.mp stopped
        cases rejects
      · exact List.mem_singleton.mp told
    have rejected : ∃ e ∈ t.effects, e.rejects = true := by
      refine ⟨_, effects ▸ List.mem_append_right _ (List.mem_singleton_self _), ?_⟩
      rfl
    refine ⟨⟨fun _ => full, fun _ => rejected⟩, ?_, fun _ => ⟨?_, effects, ?_⟩⟩
    · intro k' pending limit' member
      cases rejection _ member rfl
      exact ⟨rfl, rfl, rfl⟩
    · rw [pool, Pool.afterRejection, ← pruned]
      rfl
    · intro r member timer running stopped
      rw [effects] at stopped
      obtain ⟨present, staying⟩ := List.mem_filter.mp member
      rcases List.mem_append.mp stopped with disarmed | told
      · obtain ⟨timer', started, eq⟩ := List.mem_map.mp disarmed
        cases eq
        obtain ⟨r', absent, running'⟩ := List.mem_filterMap.mp started
        obtain ⟨queued, gone'⟩ := List.mem_filter.mp absent
        cases eq_of_timer attending present queued running running'
        simp_all
      · cases List.mem_singleton.mp told
  · have room : (s.pool.pending.prune (w.gone [])).isFull = false := by
      rw [← Bool.not_eq_true, isFull]
      exact full
    have admits : t.Admits := by
      rw [turned]
      exact Pool.admits_handle course.lasting (path_of_run run).2 (limit.symm ▸ places) k room
    refine ⟨⟨?_, fun filled => absurd filled full⟩, ?_, fun filled => absurd filled full⟩
    · rintro ⟨e, member, rejects⟩
      rw [admits e member] at rejects
      cases rejects
    · intro k' pending limit' member
      cases admits _ member

/-- A caller holds the only connection, another one waits in the only place, a third asks. -/
def crowded : List (Nat × Option Site.Event) :=
  [(0, some (.acquire ⟨1⟩)), (0, none), (5, some (.connected ⟨0⟩ (.ok (⟨1⟩, {})))), (5, none),
    (6, some (.read ⟨1⟩)), (7, some (.acquire ⟨2⟩)), (7, none), (8, some (.acquire ⟨3⟩))]

theorem admission_of_crowded :
    let config : Config := { maxConnections := 1, maxPending := some 1 }
    ∃ past now s rest, Site.Run config (fun _ _ => none) past now s ∧
      config.validate = .ok () ∧ s.next? = some (some (.acquire ⟨3⟩), rest) ∧
      s.pool.closed = false ∧
      let t := (Site.Course.alone 8 rest).turn (some (.acquire ⟨3⟩))
      .answer ⟨3⟩ (.failed (.admissionRejected 1 1)) ∈ t.effects ∧
        t.pool.registry = s.pool.registry ∧ t.pool.counters.rejected = 1 := by
  intro config
  obtain ⟨past, now, s, c, rest, run, order, due, seen⟩ :=
    Site.exists_due config (fun _ _ => none) crowded 8
      (fun _ s c rest => s.pool.closed == false && s.pool.counters.rejected == 0 &&
        c.bind Command.acquirer? == some ⟨3⟩ &&
        (s.pool.pending.requests.filter fun r => rest.standing r.ticket ≠ .abandoned).length == 1)
      (by decide +kernel)
  simp only [Bool.and_eq_true, beq_iff_eq] at seen
  obtain ⟨⟨⟨opened, counted⟩, asked⟩, waiting⟩ := seen
  obtain ⟨c, rfl, asks⟩ := Option.bind_eq_some_iff.mp asked
  cases c with
  | acquire k =>
    cases asks
    obtain ⟨-, -, admission⟩ := admission_exact run (show config.validate = .ok () by decide)
    obtain ⟨-, -, rejected⟩ := admission (Site.Course.alone 8 rest) due opened
    obtain ⟨pool, effects, -⟩ := rejected (Nat.le_of_eq waiting.symm)
    refine ⟨past, now, s, rest, run, by decide, due, opened, ?_, ?_, ?_⟩
    · rw [effects]
      exact List.mem_append_right _ (List.mem_singleton_self _)
    · rw [pool]
    · rw [pool]
      simp [counted]
  | _ => cases asks

end LoanPool
