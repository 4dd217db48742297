import LoanPool.Proofs.Capacity
import LoanPool.Proofs.Moments

/-!
# Surplus connections

A pool that shrinks never keeps more connections idle than it may have in use, however many were
opened past its capacity. Whether a connection is surplus is asked when it is put away, of the
registered ones alone; what is put back without being asked was idle a moment before.
-/
namespace LoanPool

variable {sc sc' : Scene} {config : Config} {observer : Hook → Nat → Option String}
  {past : List Site.Record} {now : Nat} {s : Site}

/-- The idle connections are within the limit, and so are all when none is in use or being
opened. -/
def Pool.Trimmed (p : Pool) : Prop :=
  p.stats.idle ≤ p.stats.maxConnections ∧
    (p.stats.acquired = 0 → p.stats.registered ≤ p.stats.maxConnections)

def Hand.spared (h : Hand) : Nat :=
  match h.conn, h.stage with
  | some _, .spare => 1
  | _, _ => 0

namespace Registry

theorem length_idle_forget (r : Registry) (id : ConnId) :
    (r.forget id).2.idle.length ≤ r.idle.length := by
  unfold forget
  dsimp only
  split
  · next serial r' removed =>
    have fewer := length_idle_remove? removed
    exact fewer
  · exact Nat.le_refl _

theorem idle_beginCheck? {r r' : Registry} {id : ConnId} {serial : Serial}
    (begun : r.beginCheck? id = some (serial, r')) : r'.idle = r.idle := by
  unfold beginCheck? at begun
  split at begun
  · split at begun
    · cases begun
      rfl
    · cases begun
  · cases begun

theorem length_idle_putBack (r : Registry) (id : ConnId) :
    ((r.putBack? id).getD r).idle.length ≤ r.idle.length + 1 := by
  cases parked : r.park? id with
  | none => simp [putBack?, parked]
  | some r' => simp [putBack?, parked, idle_park? parked]

theorem size_checkIn (r : Registry) (id : ConnId) :
    ((r.checkIn? id).getD r).size = r.size := by
  have moved : r.Moved ((r.checkIn? id).getD r) := moved_checkIn?
  rw [size_eq, size_eq, moved.ids]

end Registry

def Scene.Roomy (sc : Scene) : Prop :=
  sc.registry.idle.length + sc.hand.spared ≤ sc.pool.config.maxConnections

theorem roomy_of_fewer (roomy : sc.Roomy) (config : sc'.pool.config = sc.pool.config)
    (fewer : sc'.registry.idle.length ≤ sc.registry.idle.length)
    (hand : sc'.hand.spared ≤ sc.hand.spared) : sc'.Roomy := by
  rw [Scene.Roomy, config]
  exact Nat.le_trans (Nat.add_le_add fewer hand) roomy

theorem roomy_move (a : sc.Accounted) (shrinks : sc.pool.config.overflow = .shrink)
    (move : Move sc sc') (roomy : sc.Roomy) : sc'.Roomy := by
  have kept := config_move move
  have balanced := balanced_move a move
  cases move with
  | event order allowed =>
    refine roomy_of_fewer roomy kept ?_ (Nat.le_refl _)
    simp only [Scene.registry, Site.pool_happen, Nat.le_refl]
  | begin free due =>
    refine roomy_of_fewer roomy kept ?_ (Nat.zero_le _)
    simp only [Scene.registry, Site.pool_next? due, Nat.le_refl]
  | seize task back closed honest removed =>
    refine roomy_of_fewer roomy kept ?_ (Nat.zero_le _)
    simpa only [Scene.registry, Scene.pool_emit, Scene.pool_alter] using
      Registry.length_idle_discard? removed
  | takeBack task back opened lent =>
    refine roomy_of_fewer roomy kept ?_ (Nat.zero_le _)
    exact Nat.le_of_eq (congrArg List.length (Registry.idle_beginCheck? lent))
  | forget task => exact roomy_of_fewer roomy kept (Registry.length_idle_forget _ _) (Nat.zero_le _)
  | checkout free empty opened taken =>
    -- What leaves the idle queue is in hand, where it can be put back from.
    have fewer := Registry.length_idle_checkout? taken
    have before : sc.registry.idle.length ≤ sc.pool.config.maxConnections :=
      Nat.le_trans (Nat.le_add_right _ _) roomy
    exact Nat.le_trans fewer before
  | discard held honest removed =>
    refine roomy_of_fewer roomy kept ?_ (Nat.zero_le _)
    simpa only [Scene.registry, Scene.pool_emit, Scene.pool_alter] using
      Registry.length_idle_discard? removed
  | evict free empty closed honest removed =>
    refine roomy_of_fewer roomy kept ?_ (Nat.le_refl _)
    simpa only [Scene.registry, Scene.pool_emit, Scene.pool_alter] using
      Registry.length_idle_discard? removed
  | handOver held fit =>
    refine roomy_of_fewer roomy kept ?_ (Nat.le_refl _)
    exact Nat.le_of_eq (congrArg List.length (Registry.idle_handOver _ _))
  | @checkIn id held unwanted within fit ready =>
    have within : sc.registry.size ≤ sc.pool.config.maxConnections :=
      Nat.not_lt.mp fun surplus => within ⟨shrinks, surplus⟩
    have listed := Registry.length_idle balanced
    have some_idle : ((sc.registry.checkIn? id).getD sc.registry).idle.length ≤
        ((sc.registry.checkIn? id).getD sc.registry).size := by
      exact listed ▸ List.countP_le_length
    rw [Registry.size_checkIn] at some_idle
    exact Nat.le_trans some_idle within
  | @putBack id held unwanted lent spare =>
    have back := Registry.length_idle_putBack sc.registry id
    have one : sc.hand.spared = 1 := by simp [Hand.spared, held, spare]
    simp only [Scene.Roomy, one] at roomy
    exact Nat.le_trans back roomy
  | hook held known heard timely =>
    refine roomy_of_fewer roomy kept ?_ ?_
    · simp only [Scene.registry, Scene.pool_emit, Scene.pool_alter, Nat.le_refl]
    · simp only [Hand.spared, Scene.hand_emit, Scene.hand_alter, held]
      exact Nat.zero_le _
  | _ =>
    refine roomy_of_fewer roomy kept ?_ ?_
    · simp only [Scene.registry, Scene.pool_emit, Scene.pool_alter, Registry.reserve,
        Registry.cancelReservation, Registry.register, Registry.giveBack, Registry.land,
        Nat.le_refl]
    · first
      | exact Nat.le_refl _
      | exact Nat.zero_le _

theorem trimmed_of_roomy (a : sc.Accounted) (roomy : sc.Roomy) : sc.pool.Trimmed := by
  have total := Registry.size_add_connecting a.balanced
  simp only [Scene.Roomy] at roomy
  constructor
  · exact Nat.le_trans (Nat.le_add_right _ _) roomy
  · intro unused
    change sc.registry.acquired = 0 at unused
    change sc.registry.size ≤ sc.pool.config.maxConnections
    omega

structure Scene.Slim (config : Config) (sc : Scene) : Prop where
  accounted : sc.Accounted
  config : sc.pool.config = config
  roomy : sc.Roomy
  past : ∀ rec ∈ sc.past, rec.pool.Trimmed

theorem slim_start (config : Config) (observer : Hook → Nat → Option String) :
    (Scene.start config observer).Slim config where
  accounted := accounted_start config observer
  config := rfl
  roomy := by simp [Scene.Roomy, Scene.start, Site.start, Pool.start, Hand.spared]
  past rec none_left := by cases none_left

theorem slim_move (shrinks : config.overflow = .shrink) (move : Move sc sc')
    (slim : sc.Slim config) : sc'.Slim config := by
  have accounted := accounted_move move slim.accounted
  have roomy := roomy_move slim.accounted (slim.config.symm ▸ shrinks) move slim.roomy
  refine ⟨accounted, (config_move move).trans slim.config, roomy, ?_⟩
  intro rec member
  rcases recorded_move move rec member with before | here | now
  · exact slim.past rec before
  · exact here ▸ trimmed_of_roomy slim.accounted slim.roomy
  · exact now ▸ trimmed_of_roomy accounted roomy

/-- Under the shrinking policy the pool has room for all its idle connections, so nothing is left
beyond its capacity once nothing is in use or being opened: at the end of any run, and at every
moment on the way there. -/
theorem surplus_closed (run : Site.Run config observer past now s)
    (shrinks : config.overflow = .shrink) :
    s.pool.Trimmed ∧ ∀ rec ∈ past, rec.pool.Trimmed := by
  obtain ⟨m, slim⟩ := run_invariant (Scene.Slim config) run (slim_move shrinks)
    (slim_start config observer)
  exact ⟨trimmed_of_roomy slim.accounted slim.roomy, slim.past⟩

/-- A waiter gets a connection past capacity. That one comes back when it alone is registered, the
other one before. -/
def shrunk : List (Nat × Option Site.Event) :=
  [(0, some (.acquire ⟨1⟩)), (0, none), (1, some (.connected ⟨0⟩ (.ok (⟨1⟩, {})))), (1, none),
    (2, some (.read ⟨1⟩)), (3, some (.acquire ⟨2⟩)), (3, none), (10000003, some (.deadline ⟨2⟩)),
    (10000003, none), (10000004, some (.connected ⟨1⟩ (.ok (⟨2⟩, {})))), (10000004, none),
    (10000005, some (.read ⟨2⟩)), (10000006, some (.dropLoan ⟨1⟩)), (10000006, none),
    (10000007, some (.dropLoan ⟨2⟩)), (10000007, none)]

theorem surplus_of_shrunk :
    ∃ past now s,
      Site.Run { maxConnections := 1, acquireTimeoutMs := 10, timeoutAction := .newConnection,
                 checkOnRelease := false, overflow := .shrink } (fun _ _ => none) past now s ∧
      Site.overflows past = [⟨2⟩] ∧ s.pool.counters.created = 2 ∧
      (∃ rec ∈ past, rec.pool.stats.registered = 2 ∧ rec.pool.Trimmed) ∧
      s.pool.stats.acquired = 0 ∧ s.pool.stats.idle = 1 ∧ s.pool.Trimmed := by
  obtain ⟨past, now, s, run, seen⟩ := Site.exists_run
    { maxConnections := 1, acquireTimeoutMs := 10, timeoutAction := .newConnection,
      checkOnRelease := false, overflow := .shrink } (fun _ _ => none) shrunk
    (fun past s => Site.overflows past == [⟨2⟩] && s.pool.counters.created == 2 &&
      past.any (fun rec => rec.pool.stats.registered == 2) && s.pool.stats.acquired == 0 &&
      s.pool.stats.idle == 1) (by decide +kernel)
  simp only [Bool.and_eq_true, beq_iff_eq, List.any_eq_true] at seen
  obtain ⟨⟨⟨⟨opened, created⟩, rec, member, two⟩, unused⟩, one⟩ := seen
  have trimmed := surplus_closed run rfl
  exact ⟨past, now, s, run, opened, created, ⟨rec, member, two, trimmed.2 rec member⟩, unused, one,
    trimmed.1⟩

end LoanPool
