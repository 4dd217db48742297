import LoanPool.Proofs.Accounting
import LoanPool.Proofs.Dues

/-!
# Capacity

A pool opens a connection only while none is idle. So the number of its connections, open or being
opened, is the number of those in use whenever one is added to it, and taking an idle one never
needs to look at the cap.
-/
namespace LoanPool
open Pending (Request Queue)

def Effect.overflowFor? : Effect → Option RequestId
  | .connect (.queued id) => some id
  | _ => none

theorem Effect.eq_of_overflowFor? {e : Effect} {id : RequestId} (asked : e.overflowFor? = some id) :
    e = .connect (.queued id) := by
  simp only [overflowFor?] at asked
  split at asked
  · cases asked
    rfl
  · cases asked

namespace Site

/-- Why a connection may be opened: the pool reserves capacity for it while no connection is idle,
either below its cap or on the deadline of a request that still waits. -/
inductive Record.Opens (config : Config) (rec : Record) : Target → Prop where
  | below {request : Request} {r : Registry} (reserved : rec.pool.registry = r.reserve)
      (drained : r.idle = []) (room : r.acquired < config.maxConnections) :
      Opens config rec (.owned request)
  | past {id : RequestId} {r : Registry} (reserved : rec.pool.registry = r.reserve)
      (drained : r.idle = []) (action : config.timeoutAction = .newConnection)
      (limited : config.acquireTimeoutMs ≠ 0) (deadline : rec.command = some (.timedOut id))
      (waits : ∃ request ∈ rec.pool.pending.requests, request.id = id) :
      Opens config rec (.queued id)

def overflows (past : List Record) : List RequestId :=
  past.filterMap fun rec => rec.effect.bind Effect.overflowFor?

end Site

namespace Scene

/-- The requests for which a connection past capacity may still be opened, by their name. -/
def unspent (sc : Scene) (id : RequestId) : Nat :=
  sc.dues (fun r => r.id = id ∧ r.overflowOpened = false) fun _ => false

structure Capped (config : Config) (sc : Scene) : Prop where
  configured : sc.pool.config = config
  tasked : ∀ c, sc.hand.task = some c → sc.command = c
  opened : ∀ rec ∈ sc.past, ∀ target, rec.effect = some (.connect target) →
    rec.Opens config target
  /-- Requests have one chance each, and none before they are named. -/
  once : ∀ id, (Site.overflows sc.past).count id + sc.unspent id ≤
    if id.number < sc.pool.nextRequest then 1 else 0
  bounded : sc.registry.size + sc.registry.connecting ≤
    config.maxConnections + (Site.overflows sc.past).length

end Scene

variable {config : Config} {sc sc' : Scene}

/-! ### The record -/

theorem overflows_concat (past : List Site.Record) (rec : Site.Record) :
    Site.overflows (past ++ [rec]) =
      Site.overflows past ++ (rec.effect.bind Effect.overflowFor?).toList :=
  Site.filterMap_concat _ past rec

theorem overflows_emit (e : Effect) :
    Site.overflows (sc.emit e).past = Site.overflows sc.past ++ e.overflowFor?.toList :=
  overflows_concat _ _

/-- Only a deadline opens a connection past capacity. -/
theorem overflows_move (move : Move sc sc') :
    Site.overflows sc'.past = Site.overflows sc.past ∨
      ∃ id r r' pool, sc.hand = { task := some (some (.timedOut id)) } ∧
        sc.pool.pending.find? id = some r ∧ sc.pool.config.expire r = (.openOverflow, r') ∧
        pool.pending = sc.pool.pending.replace id r' ∧
        sc' = (sc.alter pool {}).emit (.connect (.queued id)) := by
  cases move with
  | begin free due => exact .inl ((overflows_concat _ _).trans (List.append_nil _))
  | overflow task queued due reachable drained =>
    exact .inr ⟨_, _, _, _, task, queued, due, rfl, rfl⟩
  | _ => first | exact .inl rfl | exact .inl ((overflows_emit _).trans (List.append_nil _))

theorem overflows_length (move : Move sc sc') :
    (Site.overflows sc.past).length ≤ (Site.overflows sc'.past).length := by
  rcases overflows_move move with same | ⟨id, r, r', pool, -, -, -, -, rfl⟩
  · exact Nat.le_of_eq (congrArg List.length same).symm
  · rw [overflows_emit, List.length_append]
    exact Nat.le_add_right _ _

theorem tasked_move (move : Move sc sc')
    (tasked : ∀ c, sc.hand.task = some c → sc.command = c) :
    ∀ c, sc'.hand.task = some c → sc'.command = c := by
  intro c task
  cases move with
  | begin free due => exact Option.some.inj task
  | _ => first | exact tasked c task | cases task

theorem opened_emit {e : Effect}
    (opened : ∀ rec ∈ sc.past, ∀ target, rec.effect = some (.connect target) →
      rec.Opens config target)
    (fair : ∀ target, e = .connect target →
      Site.Record.Opens config
        { now := sc.now, command := sc.command, effect := some e, pool := sc.pool } target) :
    ∀ rec ∈ (sc.emit e).past, ∀ target, rec.effect = some (.connect target) →
      rec.Opens config target := by
  intro rec member target eq
  rcases List.mem_append.mp member with member | new
  · exact opened rec member target eq
  · rw [List.mem_singleton.mp new] at eq ⊢
    exact fair target (Option.some.inj eq)

theorem opened_move (capped : sc.Capped config) (move : Move sc sc') :
    ∀ rec ∈ sc'.past, ∀ target, rec.effect = some (.connect target) → rec.Opens config target := by
  have opened := capped.opened
  cases move with
  | begin free due =>
    intro rec member target eq
    rcases List.mem_append.mp member with member | new
    · exact opened rec member target eq
    · rw [List.mem_singleton.mp new] at eq
      cases eq
  | connect held unclosed unarmed reachable drained room =>
    refine opened_emit opened ?_
    rintro target eq
    cases eq
    exact .below rfl drained (capped.configured ▸ room)
  | overflow task queued due reachable drained =>
    refine opened_emit opened ?_
    rintro target eq
    cases eq
    -- The turn is the one that the deadline began, and the request is still in its place.
    obtain ⟨action, limited, -, -, same⟩ := expire_eq_openOverflow due
    have deadline := capped.tasked _ (congrArg Hand.task task)
    have named := (Queue.mem_of_find? queued).2
    refine .past rfl drained (capped.configured ▸ action) (capped.configured ▸ limited) deadline ?_
    exact ⟨_, Queue.mem_replace queued _, same.trans named⟩
  | _ =>
    first
    | exact opened
    | refine opened_emit opened ?_; rintro target eq; cases eq

/-! ### The chances of a request -/

/-- Only to name a request gives it a chance. -/
theorem unspent_move (a : sc.Accounted) (move : Move sc sc') (id : RequestId)
    (known : sc'.pool.nextRequest = sc.pool.nextRequest) : sc'.unspent id ≤ sc.unspent id := by
  refine requests_move a.numbered move (fun _ same => same) (fun _ same => same)
    (fun new => absurd known new) ?_
  intro r unopened
  simp only [decide_eq_true_eq, id_expire] at unopened ⊢
  refine ⟨unopened.1, ?_⟩
  by_contra opened
  have kept := overflowOpened_expire sc.pool.config (eq_true_of_ne_false opened)
  rw [unopened.2] at kept
  cases kept

/-- To open a connection past capacity for a request takes its chance away. -/
theorem unspent_overflow {id : RequestId} {r r' : Request} {pool : Pool}
    (task : sc.hand = { task := some (some (.timedOut id)) })
    (queued : sc.pool.pending.find? id = some r) (unopened : r.overflowOpened = false)
    (opened : r'.overflowOpened = true)
    (replaced : pool.pending = sc.pool.pending.replace id r') :
    ((sc.alter pool {}).emit (.connect (.queued id))).unspent id + 1 = sc.unspent id := by
  have named := (Queue.mem_of_find? queued).2
  have counted := countP_replace queued r' fun r => r.id = id ∧ r.overflowOpened = false
  simp only [named, unopened, opened] at counted
  rw [Scene.unspent, Scene.unspent, dues_of_task task, dues_emit, dues_alter]
  simp [Hand.dues, Pool.dues, Effect.starts, Command.concerns, Command.requests, Command.replies,
    Target.requests, replaced] at counted ⊢
  omega

/-- Requests are named one by one, each as it is taken up. -/
theorem named_of_acquire (move : Move sc sc')
    (named : sc'.pool.nextRequest ≠ sc.pool.nextRequest) :
    ∃ k, sc.hand = { task := some (some (.acquire k)) } ∧
      sc' = sc.alter { sc.pool with nextRequest := sc.pool.nextRequest + 1 }
        { requests := [{ id := ⟨sc.pool.nextRequest⟩, ticket := k }], fresh := true } := by
  cases move with
  | acquire task opened quiet => exact ⟨_, task, rfl⟩
  | event order allowed =>
    simp only [Scene.pool, Site.pool_happen] at named
    exact absurd rfl named
  | begin free due =>
    simp only [Scene.pool, Site.pool_next? due] at named
    exact absurd rfl named
  | wait order => exact absurd rfl named
  | _ =>
    simp only [Scene.pool_emit, Scene.pool_alter] at named
    exact absurd rfl named

theorem unspent_acquire {k : Ticket} (task : sc.hand = { task := some (some (.acquire k)) })
    (id : RequestId) :
    (sc.alter { sc.pool with nextRequest := sc.pool.nextRequest + 1 }
      { requests := [{ id := ⟨sc.pool.nextRequest⟩, ticket := k }], fresh := true }).unspent id =
        sc.unspent id + if id.number = sc.pool.nextRequest then 1 else 0 := by
  have named : (⟨sc.pool.nextRequest⟩ : RequestId) = id ↔ id.number = sc.pool.nextRequest :=
    ⟨fun same => congrArg RequestId.number same.symm, fun same => congrArg RequestId.mk same.symm⟩
  rw [Scene.unspent, Scene.unspent, dues_of_task task, dues_alter]
  simp [Hand.dues, Pool.dues, Command.requests, Command.replies, List.countP_cons, named]
  omega

theorem chance_move (a : sc.Accounted) (capped : sc.Capped config) (move : Move sc sc')
    (id : RequestId) :
    (Site.overflows sc'.past).count id + sc'.unspent id ≤
      if id.number < sc'.pool.nextRequest then 1 else 0 := by
  have once := capped.once id
  by_cases known : sc'.pool.nextRequest = sc.pool.nextRequest
  · have less := unspent_move a move id known
    rw [known]
    rcases overflows_move move with same | ⟨id', r, r', pool, task, queued, due, replaced, rfl⟩
    · rw [same]
      omega
    · obtain ⟨-, -, unopened, opened, -⟩ := expire_eq_openOverflow due
      rw [overflows_emit, List.count_append]
      change _ + List.count id [id'] + _ ≤ if id.number < sc.pool.nextRequest then 1 else 0
      -- The request that is opened for pays with its chance; the others keep theirs.
      by_cases mine : id' = id
      · subst mine
        have spent := unspent_overflow task queued unopened opened replaced
        rw [List.count_singleton_self]
        refine Nat.le_trans ?_ once
        change (Site.overflows sc.past).count id' + 1 + _ ≤ _
        omega
      · rw [List.count_singleton, beq_false_of_ne mine]
        exact Nat.le_trans (Nat.add_le_add_left less _) once
  · obtain ⟨k, task, rfl⟩ := named_of_acquire move known
    rw [unspent_acquire task]
    change (Site.overflows sc.past).count id + _ ≤
      if id.number < sc.pool.nextRequest + 1 then 1 else 0
    split at once <;> split <;> split <;> omega

/-! ### The bound -/

theorem size_reserve {r : Registry} (b : r.Balanced) (drained : r.idle = [])
    (room : r.acquired < config.maxConnections) :
    r.reserve.size + r.reserve.connecting ≤ config.maxConnections := by
  have total := Registry.size_add_connecting b
  rw [drained, List.length_nil, Nat.zero_add] at total
  change r.size + (r.connecting + 1) ≤ _
  omega

theorem bounded_move (a : sc.Accounted) (capped : sc.Capped config) (move : Move sc sc') :
    sc'.registry.size + sc'.registry.connecting ≤
      config.maxConnections + (Site.overflows sc'.past).length := by
  have bounded := capped.bounded
  -- Where nothing is opened, the number of connections does not grow.
  have kept : sc'.registry.size + sc'.registry.connecting ≤
      sc.registry.size + sc.registry.connecting → sc'.registry.size + sc'.registry.connecting ≤
        config.maxConnections + (Site.overflows sc'.past).length := by
    intro less
    have longer := overflows_length move
    omega
  cases bookkeeping_move move with
  | moved same next => exact kept (Nat.le_of_eq same.size)
  | dropped gone next => exact kept gone.size
  | @reserved target drained done next past room =>
    obtain ⟨rec, opens, past⟩ := past
    rw [done, past, overflows_concat, opens]
    cases target with
    | owned r =>
      have room := room r rfl
      rw [capped.configured] at room
      exact Nat.le_trans (size_reserve a.balanced drained room) (Nat.le_add_right _ _)
    | queued id =>
      rw [List.length_append]
      exact Nat.succ_le_succ bounded
  | cancelled task done next =>
    apply kept
    rw [done]
    exact Nat.add_le_add_left (Nat.sub_le _ _) _
  | @registered target serial task done next =>
    apply kept
    rw [done]
    -- A connection that is there now was being opened.
    have opening : 0 < sc.registry.connecting := by
      rw [a.opening, Scene.underWay_of_task task]
      simp [Command.isConnected]
    have one := Registry.size_register sc.registry ⟨sc.pool.nextConn⟩ serial
    change _ + (sc.registry.connecting - 1) ≤ _
    omega

theorem capped_move (a : sc.Accounted) (move : Move sc sc') (capped : sc.Capped config) :
    sc'.Capped config where
  configured := (config_move move).trans capped.configured
  tasked := tasked_move move capped.tasked
  opened := opened_move capped move
  once := chance_move a capped move
  bounded := bounded_move a capped move

theorem capped_start (config : Config) (observer : Hook → Nat → Option String) :
    (Scene.start config observer).Capped config where
  configured := rfl
  tasked _ none := nomatch none
  opened _ member := absurd member List.not_mem_nil
  once _ := Nat.zero_le _
  bounded := Nat.zero_le _

theorem exists_of_mem_overflows {past : List Site.Record} {id : RequestId}
    (member : id ∈ Site.overflows past) :
    ∃ rec ∈ past, rec.effect = some (.connect (.queued id)) := by
  obtain ⟨rec, member, eq⟩ := List.mem_filterMap.mp member
  obtain ⟨e, effect, asked⟩ := Option.bind_eq_some_iff.mp eq
  rw [Effect.eq_of_overflowFor? asked] at effect
  exact ⟨rec, member, effect⟩

/-- No connection past capacity is opened unless the configuration says so. -/
theorem overflows_of_opened {past : List Site.Record}
    (opened : ∀ rec ∈ past, ∀ target, rec.effect = some (.connect target) →
      rec.Opens config target)
    (never : config.timeoutAction ≠ .newConnection ∨ config.acquireTimeoutMs = 0) :
    Site.overflows past = [] := by
  rw [List.eq_nil_iff_forall_not_mem]
  intro id member
  obtain ⟨rec, member, effect⟩ := exists_of_mem_overflows member
  cases opened rec member _ effect with
  | past reserved drained action limited =>
    rcases never with never | unlimited
    · exact never action
    · exact limited unlimited

/-- A connection is only ever opened while none is idle, and either below the cap or on the
deadline of a request that still waits, which has that chance once. So the connections, open or
being opened, exceed the cap by the chances that were taken at most, and never where there are
none. -/
theorem capacity_respected {observer : Hook → Nat → Option String} {past : List Site.Record}
    {now : Nat} {s : Site} (run : Site.Run config observer past now s) :
    (∀ rec ∈ past, ∀ target, rec.effect = some (.connect target) → rec.Opens config target) ∧
      (Site.overflows past).Nodup ∧
      s.pool.registry.size + s.pool.registry.connecting ≤
        config.maxConnections + (Site.overflows past).length ∧
      (config.timeoutAction ≠ .newConnection ∨ config.acquireTimeoutMs = 0 →
        s.pool.registry.size + s.pool.registry.connecting ≤ config.maxConnections ∧
          s.pool.registry.acquired ≤ config.maxConnections ∧
          s.pool.registry.idle.length ≤ config.maxConnections) := by
  obtain ⟨c, a, capped⟩ := run_invariant (fun sc => sc.Accounted ∧ sc.Capped config) run
    (fun move before => ⟨accounted_move move before.1, capped_move before.1 move before.2⟩)
    ⟨accounted_start config observer, capped_start config observer⟩
  have opened := capped.opened
  have bounded := capped.bounded
  refine ⟨opened, ?_, bounded, ?_⟩
  · rw [List.nodup_iff_count]
    intro id
    have once := capped.once id
    dsimp only at once
    split at once <;> omega
  · intro never
    rw [overflows_of_opened opened never] at bounded
    have total := Registry.size_add_connecting a.balanced
    simp only [Scene.registry, List.length_nil] at bounded total
    omega

/-- The only connection of a pool is on loan when the deadline of a waiter passes. -/
def overdue : List (Nat × Option Site.Event) :=
  [(0, some (.acquire ⟨1⟩)), (0, none), (1, some (.connected ⟨0⟩ (.ok (⟨1⟩, {})))), (1, none),
    (2, some (.read ⟨1⟩)), (3, some (.acquire ⟨2⟩)), (3, none), (10000003, some (.deadline ⟨2⟩)),
    (10000003, none)]

theorem capacity_of_overdue :
    (∃ past now s,
      Site.Run { maxConnections := 1, acquireTimeoutMs := 10, timeoutAction := .newConnection }
        (fun _ _ => none) past now s ∧
      (∃ rec ∈ past, rec.effect = some (.connect (.queued ⟨2⟩)) ∧ rec.Opens
        { maxConnections := 1, acquireTimeoutMs := 10, timeoutAction := .newConnection }
        (.queued ⟨2⟩)) ∧
      (Site.overflows past).Nodup ∧
      s.pool.registry.size + s.pool.registry.connecting = 2 ∧
      2 ≤ 1 + (Site.overflows past).length) ∧
    ∃ past now s,
      Site.Run { maxConnections := 1, acquireTimeoutMs := 10, timeoutAction := .fail }
        (fun _ _ => none) past now s ∧
      s.pool.registry.size + s.pool.registry.connecting = 1 ∧
      s.pool.registry.acquired ≤ 1 ∧ s.pool.registry.idle.length ≤ 1 := by
  constructor
  · obtain ⟨past, now, s, run, seen⟩ := Site.exists_run
      { maxConnections := 1, acquireTimeoutMs := 10, timeoutAction := .newConnection }
      (fun _ _ => none) overdue
      (fun past s => s.pool.registry.size + s.pool.registry.connecting == 2 &&
        Site.overflows past == [⟨2⟩]) (by decide +kernel)
    obtain ⟨two, taken⟩ : s.pool.registry.size + s.pool.registry.connecting = 2 ∧
        Site.overflows past = [⟨2⟩] := by
      simpa using seen
    obtain ⟨opened, once, bounded, -⟩ := capacity_respected run
    obtain ⟨rec, member, effect⟩ := exists_of_mem_overflows (taken ▸ List.mem_singleton_self _)
    exact ⟨past, now, s, run, ⟨rec, member, effect, opened rec member _ effect⟩, once, two,
      two ▸ bounded⟩
  · obtain ⟨past, now, s, run, seen⟩ := Site.exists_run
      { maxConnections := 1, acquireTimeoutMs := 10, timeoutAction := .fail }
      (fun _ _ => none) overdue
      (fun _ s => s.pool.registry.size + s.pool.registry.connecting == 1) (by decide +kernel)
    obtain ⟨-, -, -, never⟩ := capacity_respected run
    exact ⟨past, now, s, run, by simpa using seen, (never (.inl (by decide))).2⟩

end LoanPool
