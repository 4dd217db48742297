import LoanPool.Proofs.Delivery

/-!
# Refilling

What the queue makes of a unit of capacity that has come free. The oldest caller who still waits has
a connection opened for it; a pool that nothing holds on to any more opens none, and tells all who
wait that it is closed.
-/
namespace LoanPool
open Pending (Request)

/-- One unit is free at most, as far as anybody waits for it. -/
def Pool.Slack (p : Pool) : Prop :=
  p.pending.requests = [] ∨
    p.registry.idle = [] ∧ p.config.maxConnections ≤ p.registry.acquired + 1

theorem slack_of_quiet {p : Pool} (quiet : p.Quiet) : p.Slack :=
  quiet.imp_right fun ⟨drained, busy⟩ => ⟨drained, Nat.le_succ_of_le busy⟩

/-- What is done to serve the queue: no hook is called, and no connection is closed. -/
def Effect.Serves : Effect → Prop
  | .disarm _ => True
  | .connect _ => True
  | .answer _ (.failed .poolClosed) => True
  | _ => False

namespace Turn
variable {w : Surroundings} {t t' : Turn} {es : List Effect}

abbrev withRequests (t : Turn) (rest : List Request) : Pool :=
  { t.pool with pending := { t.pool.pending with requests := rest } }

/-- Nothing holds on to the pool any more, and everybody who waits has left or is told that it is
closed. -/
structure Forsaken (w : Surroundings) (t t' : Turn) : Prop where
  lost : w.reachable t'.effects = false
  pool : t'.pool = t.withRequests []
  adds : ∃ es, t.Adds es t' ∧
    (∀ e ∈ es, (∃ timer, e = .disarm timer) ∨
      ∃ r ∈ t.pool.pending.requests, e = .answer r.ticket (.failed .poolClosed)) ∧
    ∀ r ∈ t.pool.pending.requests,
      w.gone t'.effects r.ticket = true ∨ .answer r.ticket (.failed .poolClosed) ∈ es

structure Opened (w : Surroundings) (t : Turn) (gone : List Request) (r : Request)
    (rest : List Request) (t' : Turn) : Prop where
  split : t.pool.pending.requests = gone ++ r :: rest
  left : ∀ r ∈ gone, w.gone t'.effects r.ticket = true
  present : w.gone (t.effects ++ stops gone) r.ticket = false
  pool : t'.pool = { t.withRequests rest with registry := t.pool.registry.reserve }
  adds : t.Adds (stops (gone ++ [r]) ++ [.connect (.owned { r with timer := none })]) t'

inductive Refilled (w : Surroundings) (t : Turn) : Turn → Prop where
  | quiet (quiet : t.pool.Quiet) : Refilled w t t
  | nobody {t' : Turn} (pool : t'.pool = t.withRequests [])
      (adds : t.Adds (stops t.pool.pending.requests) t')
      (left : ∀ r ∈ t.pool.pending.requests, w.gone t'.effects r.ticket = true) : Refilled w t t'
  | opened {gone rest : List Request} {r : Request} {t' : Turn}
      (opened : Opened w t gone r rest t') : Refilled w t t'
  | forsaken {t' : Turn} (forsaken : Forsaken w t t') : Refilled w t t'

theorem Refilled.adds (refilled : Refilled w t t') :
    ∃ es, t.Adds es t' ∧ ∀ e ∈ es, e.Serves := by
  have plain : ∀ rs, ∀ e ∈ stops rs, e.Serves := by
    intro rs e member
    obtain ⟨timer, -, rfl⟩ := List.mem_map.mp member
    trivial
  cases refilled with
  | quiet quiet => exact ⟨[], adds_refl t, List.forall_mem_nil _⟩
  | nobody pool adds left => exact ⟨_, adds, plain _⟩
  | opened opened =>
    refine ⟨_, opened.adds, List.forall_mem_append.mpr ⟨plain _, ?_⟩⟩
    exact List.forall_mem_singleton.mpr trivial
  | forsaken forsaken =>
    obtain ⟨es, adds, told, -⟩ := forsaken.adds
    refine ⟨es, adds, fun e member => ?_⟩
    rcases told e member with ⟨timer, rfl⟩ | ⟨r, -, rfl⟩ <;> trivial

theorem Refilled.closed (refilled : Refilled w t t') : t'.pool.closed = t.pool.closed := by
  cases refilled with
  | quiet quiet => rfl
  | nobody pool adds left => rw [pool]
  | opened opened => rw [opened.pool]
  | forsaken forsaken => rw [forsaken.pool]

theorem lost_of_adds (lasting : w.Lasting) (adds : t.Adds es t')
    (idle : ∀ e ∈ es, e.starts = []) (lost : w.reachable t.effects = false) :
    w.reachable t'.effects = false := by
  rw [adds.effects]
  clear adds
  induction es using List.reverseRecOn with
  | nil => rwa [List.append_nil]
  | append_singleton es e ih =>
    rw [← List.append_assoc]
    obtain ⟨before, last⟩ := List.forall_mem_append.mp idle
    exact lasting.lost _ e (ih before) (last e (List.mem_singleton_self e))

theorem starts_of_stops {rs : List Request} : ∀ e ∈ stops rs, e.starts = [] := by
  intro e member
  obtain ⟨timer, -, rfl⟩ := List.mem_map.mp member
  rfl

/-- When nobody is found, all who were in the queue have left. -/
theorem emptied_of_popped {gone rest : List Request}
    (split : t.pool.pending.requests = gone ++ ((none : Option Request).toList ++ rest))
    (popped : Popped w t gone none rest t') :
    t'.pool = t.withRequests [] ∧ t.Adds (stops t.pool.pending.requests) t' ∧
      ∀ r ∈ t.pool.pending.requests, w.gone t'.effects r.ticket = true := by
  obtain rfl := popped.nobody rfl
  obtain rfl : t.pool.pending.requests = gone := by simpa using split
  exact ⟨popped.pool, popped.adds, popped.left⟩

/-- One who waits is told that the pool is closed, then the others. -/
theorem Forsaken.of_told {u : Turn} {gone rest : List Request} {r : Request}
    (lasting : w.Lasting) (split : t.pool.pending.requests = gone ++ r :: rest)
    (pool : u.pool = t.withRequests rest)
    (told : t.Adds (stops gone ++ r.farewell .poolClosed) u)
    (left : ∀ r ∈ gone, w.gone u.effects r.ticket = true) (forsaken : Forsaken w u t') :
    Forsaken w t t' := by
  obtain ⟨es, adds, plain, settled⟩ := forsaken.adds
  have queue : u.pool.pending.requests = rest := by rw [pool]
  rw [queue] at plain settled
  refine ⟨forsaken.lost, ?_, _, told.trans adds, ?_, ?_⟩
  · rw [forsaken.pool, withRequests, pool]
  · intro e member
    rw [split]
    rcases List.mem_append.mp member with first | later
    · have own : ∀ rs, e ∈ stops rs → ∃ timer, e = .disarm timer := by
        intro rs stopped
        obtain ⟨timer, -, rfl⟩ := List.mem_map.mp stopped
        exact ⟨timer, rfl⟩
      rcases List.mem_append.mp first with stopped | farewell
      · exact .inl (own gone stopped)
      rcases List.mem_append.mp farewell with stopped | answered
      · exact .inl (own [r] stopped)
      · exact .inr ⟨r, by simp, List.mem_singleton.mp answered⟩
    · refine (plain e later).imp_right fun ⟨r', waits, eq⟩ => ⟨r', ?_, eq⟩
      exact List.mem_append_right _ (List.mem_cons_of_mem r waits)
  · rw [split]
    refine List.forall_mem_append.mpr ⟨fun r' member => .inl ?_, List.forall_mem_cons.mpr ⟨?_, ?_⟩⟩
    · exact gone_of_adds lasting adds (left r' member)
    · right
      simp [Request.farewell]
    · intro r' member
      exact (settled r' member).imp_right fun answered => List.mem_append_right _ answered

/-- The request that is found fails when the pool is lost. -/
theorem told_of_popped {gone rest : List Request} {r : Request} (lasting : w.Lasting)
    (split : t.pool.pending.requests = gone ++ r :: rest)
    (taken : Popped w t gone (some r) rest t')
    (lost : w.reachable (t'.disarm r).effects = false) :
    ∃ u, (t'.disarm r).openFor w (.owned { r with timer := none }) = u ∧
      u.pool = t.withRequests rest ∧ w.reachable u.effects = false ∧
      ∀ t'', Forsaken w u t'' → Forsaken w t t'' := by
  have failed : (t'.disarm r).openFor w (.owned { r with timer := none }) =
      t'.fail r .poolClosed := by
    rw [openFor, if_neg (by simp [lost])]
    rfl
  have told := adds_fail t' r .poolClosed
  have pool : (t'.fail r .poolClosed).pool = t.withRequests rest := by
    rw [pool_fail, taken.pool]
  have still : w.reachable (t'.fail r .poolClosed).effects = false :=
    lost_of_adds lasting (adds_emit (t'.disarm r) _) (List.forall_mem_singleton.mpr rfl) lost
  refine ⟨_, failed, pool, still, fun t'' forsaken => ?_⟩
  refine forsaken.of_told lasting split pool (taken.adds.trans told) ?_
  exact fun r' member => gone_of_adds lasting told (taken.left r' member)

/-- A pool that is lost opens nothing, and tells all who wait that it is closed. -/
theorem serve_of_lost (lasting : w.Lasting) (drained : t.pool.registry.idle = [])
    (room : t.pool.registry.acquired < t.pool.config.maxConnections)
    (lost : w.reachable t.effects = false) : Forsaken w t (t.serve w) := by
  fun_induction Turn.serve w t with
  | case1 t nobody =>
    have empty : t.pool.pending.requests = [] := List.isEmpty_iff.mp nobody
    refine ⟨lost, ?_, [], adds_refl t, List.forall_mem_nil _, ?_⟩
    · rw [← empty]
    · rw [empty]
      exact List.forall_mem_nil _
  | case2 t waiting id t' found | case3 t waiting id t' found =>
    rw [checkout_of_drained drained] at found
    cases found
  | case4 t waiting t' found _ r t'' popped ih =>
    obtain rfl : t = t' := by simpa [checkout_of_drained drained] using found
    obtain ⟨gone, rest, split, taken⟩ := popLive_popped lasting popped
    have still : w.reachable (t''.disarm r).effects = false := by
      refine lost_of_adds lasting (taken.adds.trans (adds_disarm t'' r)) ?_ lost
      exact List.forall_mem_append.mpr ⟨starts_of_stops, starts_of_stops⟩
    obtain ⟨u, failed, pool, lost', told⟩ := told_of_popped lasting split taken still
    rw [failed] at ih ⊢
    rw [pool] at ih
    exact told _ (ih drained room lost')
  | case5 t waiting t' found _ t'' popped =>
    obtain rfl : t = t' := by simpa [checkout_of_drained drained] using found
    obtain ⟨gone, rest, split, taken⟩ := popLive_popped lasting popped
    obtain ⟨pool, adds, left⟩ := emptied_of_popped split taken
    have lost' := lost_of_adds lasting adds starts_of_stops lost
    refine ⟨lost', pool, _, adds, ?_, fun r member => .inl (left r member)⟩
    intro e member
    obtain ⟨timer, -, rfl⟩ := List.mem_map.mp member
    exact .inl ⟨timer, rfl⟩
  | case6 t waiting t' found full =>
    obtain rfl : t = t' := by simpa [checkout_of_drained drained] using found
    exact absurd room full

theorem serve_of_slack (lasting : w.Lasting) (slack : t.pool.Slack) :
    Refilled w t (t.serve w) := by
  by_cases quiet : t.pool.Quiet
  · rw [serve_of_quiet w quiet]
    exact .quiet quiet
  obtain ⟨waiting, busy⟩ := not_or.mp quiet
  obtain ⟨drained, full⟩ := slack.resolve_left waiting
  have room : t.pool.registry.acquired < t.pool.config.maxConnections :=
    Nat.lt_of_not_le fun still => busy ⟨drained, still⟩
  rw [serve_eq, if_neg (by simpa using waiting), checkout_of_drained drained]
  simp only [room, if_true]
  split
  · next r t' popped =>
    obtain ⟨gone, rest, split, taken⟩ := popLive_popped lasting popped
    by_cases reachable : w.reachable (t'.disarm r).effects = true
    · have pool : (t'.disarm r).pool = t.withRequests rest := by rw [pool_disarm, taken.pool]
      -- With the connection that is opened, nothing is left.
      have spent : ((t'.disarm r).openFor w (.owned { r with timer := none })).pool.Quiet := by
        rw [openFor, if_pos reachable, pool_emit, withRegistry, pool]
        exact .inr ⟨drained, full⟩
      rw [serve_of_quiet w spent, openFor, if_pos reachable]
      have connects := (adds_disarm t' r).trans (adds_emit
        ((t'.disarm r).withRegistry (t'.disarm r).pool.registry.reserve)
        (.connect (.owned { r with timer := none })))
      refine .opened ⟨split, fun r' member => ?_, ?_, ?_, ?_⟩
      · exact gone_of_adds lasting connects (taken.left r' member)
      · rw [← taken.adds.effects]
        exact taken.present r rfl
      · rw [pool_emit, withRegistry, pool]
        rfl
      · rw [stops_append, List.append_assoc]
        exact taken.adds.trans connects
    · obtain ⟨u, failed, pool, lost', told⟩ :=
        told_of_popped lasting split taken (Bool.eq_false_iff.mpr reachable)
      rw [failed]
      refine .forsaken (told _ (serve_of_lost lasting ?_ ?_ lost'))
      · rw [pool]
        exact drained
      · rw [pool]
        exact room
  · next t' popped =>
    obtain ⟨gone, rest, split, taken⟩ := popLive_popped lasting popped
    obtain ⟨pool, adds, left⟩ := emptied_of_popped split taken
    exact .nobody pool adds left

end Turn

/-! ### What a registration that is dropped leaves -/

namespace Registry
variable {r r' : Registry} {id : ConnId} {serial : Serial} {confirms : Serial → Bool}

structure Vacated (r r' : Registry) (id : ConnId) : Prop where
  entries : r'.entries = r.entries.filter (·.id ≠ id)
  idle : r'.idle = r.idle
  acquired : r'.acquired = r.acquired - 1
  connecting : r'.connecting = r.connecting

theorem vacated_discard? (used : r.slot? id ≠ some .idle)
    (removed : r.discard? confirms id = some (serial, r')) : Vacated r r' id := by
  simp only [discard?, Option.map_eq_some_iff, Prod.exists, Prod.mk.injEq] at removed
  obtain ⟨_, mid, gone, -, rfl⟩ := removed
  simp only [remove?] at gone
  split at gone
  · next e found =>
    have inUse : e.slot ≠ .idle := fun idle => used (idle ▸ slot?_of_find? found)
    rw [if_neg inUse] at gone
    cases gone
    split <;> exact ⟨rfl, rfl, rfl, rfl⟩
  · cases gone

theorem drained_remove? (removed : r.remove? id = some (serial, r')) (drained : r.idle = []) :
    r'.idle = [] ∧ r.acquired ≤ r'.acquired + 1 := by
  simp only [remove?] at removed
  split at removed
  · cases removed
    split
    · exact ⟨by simp [drained], Nat.le_succ _⟩
    · refine ⟨drained, ?_⟩
      simp only [giveBack]
      omega
  · cases removed

theorem drained_discard? (removed : r.discard? confirms id = some (serial, r'))
    (drained : r.idle = []) : r'.idle = [] ∧ r.acquired ≤ r'.acquired + 1 := by
  simp only [discard?, Option.map_eq_some_iff, Prod.exists, Prod.mk.injEq] at removed
  obtain ⟨_, mid, gone, -, rfl⟩ := removed
  have less := drained_remove? gone drained
  split <;> exact less

theorem drained_forget (drained : r.idle = []) :
    (r.forget id).2.idle = [] ∧ r.acquired ≤ (r.forget id).2.acquired + 1 := by
  simp only [forget]
  split
  · next gone =>
    exact drained_remove? (r := { r with closing := r.closing.filter (· ≠ id) }) gone drained
  · exact ⟨drained, Nat.le_succ _⟩

end Registry

/-! ### What a command leaves to be served -/

namespace Turn
variable {w : Surroundings} {t t' : Turn} {id : ConnId} {serial : Serial} {r : Request}

theorem slack_discard (quiet : t.pool.Quiet) : (t.discard w id).pool.Slack := by
  simp only [discard]
  split
  · next removed =>
    rcases quiet with nobody | ⟨drained, busy⟩
    · exact .inl nobody
    · obtain ⟨drained', less⟩ := Registry.drained_discard? removed drained
      exact .inr ⟨drained', Nat.le_trans busy less⟩
  · exact slack_of_quiet quiet

/-- Whatever becomes of a connection that is brought to requests. -/
theorem slack_of_brought {waiting : List Request} (quiet : t.pool.Quiet)
    (brought : Brought w id serial waiting t t')
    (nobody : t.pool.pending.requests = [] → t'.pool.pending.requests = []) : t'.pool.Slack := by
  rcases quiet with empty | ⟨drained, busy⟩
  · exact .inl (nobody empty)
  cases brought with
  | shelved adds passes closes nobody slot => exact .inl nobody
  | lent split adds passes pool =>
    rw [pool]
    refine .inr ⟨(Registry.idle_handOver _ _).trans drained, Nat.le_succ_of_le ?_⟩
    exact Nat.le_trans busy (Nat.le_of_eq (Registry.acquired_handOver _ _).symm)
  | @refused mid r skipped rest split passed refused =>
    obtain ⟨reason, reg, -, removed, rfl⟩ := refused.objection
    right
    rw [pool_fail, pool_emit, withRegistry, pool_call]
    rw [passed.pool] at removed ⊢
    obtain ⟨drained', less⟩ :=
      Registry.drained_discard? removed ((Registry.idle_handOver _ _).trans drained)
    refine ⟨drained', Nat.le_trans busy ?_⟩
    rwa [Pool.offering, Registry.acquired_handOver] at less

theorem slack_recycle (lasting : w.Lasting) (quiet : t.pool.Quiet)
    (known : t.pool.registry.serial? id = some serial)
    (used : t.pool.registry.slot? id ≠ some .idle) : (t.recycle w id).pool.Slack := by
  refine slack_of_brought quiet (recycle_brought lasting known used) fun empty => ?_
  have shorter := length_recycle w t id
  rw [empty] at shorter
  exact List.eq_nil_of_length_eq_zero (Nat.le_zero.mp shorter)

theorem slack_deliver (lasting : w.Lasting) (quiet : t.pool.Quiet)
    (known : t.pool.registry.serial? id = some serial)
    (lent : t.pool.registry.slot? id = some .onLoan) (r : Request) :
    (t.deliver w r id).pool.Slack := by
  refine slack_of_brought quiet (deliver_brought lasting known lent r) fun empty => ?_
  have shorter := length_deliver w t r id
  rw [empty] at shorter
  exact List.eq_nil_of_length_eq_zero (Nat.le_zero.mp shorter)

theorem known_of_slot {slot : Slot} (slotted : t.pool.registry.slot? id = some slot) :
    ∃ serial, t.pool.registry.serial? id = some serial := by
  obtain ⟨e, found, -⟩ := Registry.find?_of_slot? slotted
  exact ⟨e.serial, by rw [Registry.serial?, found, Option.map_some]⟩

/-- A queue that gets shorter, at most. -/
theorem slack_of_shorter {p p' : Pool} (slack : p.Slack) (registry : p'.registry = p.registry)
    (config : p'.config = p.config)
    (shorter : p'.pending.requests.length ≤ p.pending.requests.length) : p'.Slack := by
  rcases slack with nobody | few
  · rw [nobody] at shorter
    exact .inl (List.eq_nil_of_length_eq_zero (Nat.le_zero.mp shorter))
  · rw [Pool.Slack, registry, config]
    exact .inr few

theorem length_takePending {request : RequestId} {found : Option Request}
    (fetched : t.takePending request = (found, t')) :
    t'.pool.pending.requests.length ≤ t.pool.pending.requests.length := by
  simp only [takePending] at fetched
  split at fetched
  · next removed =>
    cases fetched
    obtain ⟨r, -, eq⟩ := Option.map_eq_some_iff.mp removed
    cases eq
    exact List.length_eraseP_le
  · cases fetched
    exact Nat.le_refl _

theorem slack_takePending {request : RequestId} {found : Option Request} (slack : t.pool.Slack)
    (fetched : t.takePending request = (found, t')) : t'.pool.Slack :=
  slack_of_shorter slack (registry_takePending fetched) (config_takePending fetched)
    (length_takePending fetched)

theorem slack_failTarget (slack : t.pool.Slack) (target : Target) (cause : PoolError) :
    (t.failTarget target cause).pool.Slack := by
  simp only [failTarget]
  split
  · rw [pool_fail]
    exact slack
  · split
    · next r t' fetched =>
      rw [pool_fail]
      exact slack_takePending slack fetched
    · next t' fetched => exact slack_takePending slack fetched

/-- A request that joins the queue finds nothing to be served with. -/
theorem slack_lineUp (drained : t.pool.registry.idle = [])
    (busy : t.pool.config.maxConnections ≤ t.pool.registry.acquired) (r : Request) :
    (t.lineUp w r).pool.Slack := by
  have still : (t.lineUp w r).pool.registry = t.pool.registry ∧
      (t.lineUp w r).pool.config = t.pool.config := by
    have pruned : (t.prune w).pool.registry = t.pool.registry ∧
        (t.prune w).pool.config = t.pool.config := by
      rw [prune, pool_disarmAll]
      exact ⟨rfl, rfl⟩
    simp only [lineUp]
    split
    · rw [pool_fail]
      exact pruned
    · rw [enqueue]
      split <;> exact pruned
  rw [Pool.Slack, still.1, still.2]
  exact .inr ⟨drained, Nat.le_succ_of_le busy⟩

theorem slack_acquire (lasting : w.Lasting) (quiet : t.pool.Quiet) (k : Ticket) :
    (t.acquire w k).pool.Slack := by
  simp only [acquire]
  split
  · exact slack_of_quiet quiet
  have named : (t.newRequest k).2.pool.Quiet := quiet
  generalize (t.newRequest k).2 = t₀ at named
  split
  · next id t' found =>
    -- Where a connection is idle, nobody waits.
    have nobody : t₀.pool.pending.requests = [] := by
      refine named.resolve_right fun spent => ?_
      rw [checkout_of_drained spent.1] at found
      cases found
    have queue := pending_checkout w t₀
    rw [found] at queue
    obtain ⟨serial, known⟩ := known_of_slot (slot_checkout found)
    refine slack_deliver lasting (.inl ?_) known (slot_checkout found) _
    rw [queue, nobody]
  · next t' found =>
    have queue := pending_checkout w t₀
    rw [found] at queue
    split
    · next room =>
      -- Where there is room, nobody waits either.
      have nobody : t₀.pool.pending.requests = [] := by
        refine named.resolve_right fun ⟨drained, busy⟩ => ?_
        rw [checkout_of_drained drained] at found
        cases found
        exact absurd room (Nat.not_lt.mpr busy)
      refine .inl ?_
      rw [pending_openFor_owned, queue, nobody]
    · next full => exact slack_lineUp (idle_checkout found) (Nat.le_of_not_lt full) _

theorem quiet_takePending {request : RequestId} {found : Option Request} (quiet : t.pool.Quiet)
    (fetched : t.takePending request = (found, t')) : t'.pool.Quiet := by
  rcases quiet with nobody | spent
  · have shorter := length_takePending fetched
    rw [nobody] at shorter
    exact .inl (List.eq_nil_of_length_eq_zero (Nat.le_zero.mp shorter))
  · rw [Pool.Quiet, registry_takePending fetched, config_takePending fetched]
    exact .inr spent

theorem quiet_failTarget (quiet : t.pool.Quiet) (target : Target) (cause : PoolError) :
    (t.failTarget target cause).pool.Quiet := by
  simp only [failTarget]
  split
  · rw [pool_fail]
    exact quiet
  · split
    · next r t' fetched =>
      rw [pool_fail]
      exact quiet_takePending quiet fetched
    · next t' fetched => exact quiet_takePending quiet fetched

/-- With one connection more that is being opened, there is no more to serve anybody with. -/
theorem quiet_openFor (quiet : t.pool.Quiet) (target : Target) :
    (t.openFor w target).pool.Quiet := by
  simp only [openFor]
  split
  · exact quiet.imp_right (And.imp_right Nat.le_succ_of_le)
  · exact quiet_failTarget quiet target _

theorem slack_place (lasting : w.Lasting) (quiet : t.pool.Quiet)
    (known : t.pool.registry.serial? id = some serial)
    (lent : t.pool.registry.slot? id = some .onLoan) (target : Target) :
    (t.place w target id).pool.Slack := by
  cases target with
  | owned r => exact slack_deliver lasting quiet known lent r
  | queued request =>
    simp only [place]
    split
    · next r t' fetched =>
      have same := registry_takePending fetched
      exact slack_deliver lasting (quiet_takePending quiet fetched) (same ▸ known) (same ▸ lent) r
    · next t' fetched =>
      have same := registry_takePending fetched
      refine slack_recycle lasting (quiet_takePending quiet fetched) (same ▸ known) ?_
      rw [same, lent]
      simp

theorem slack_connected (lasting : w.Lasting) (quiet : t.pool.Quiet) (target : Target)
    (result : Except String Serial) : (t.connected w target result).pool.Slack := by
  cases result with
  | error cause =>
    refine slack_failTarget ?_ target _
    refine quiet.imp_right fun ⟨drained, busy⟩ => ⟨drained, ?_⟩
    simp only [withRegistry, Registry.cancelReservation, Registry.giveBack, Registry.land]
    omega
  | ok serial =>
    have registered : (t.register serial).2.pool.Quiet := quiet
    have known : (t.register serial).2.pool.registry.serial? (t.register serial).1 = some serial :=
      Registry.serial?_register_self
    have lent : (t.register serial).2.pool.registry.slot? (t.register serial).1 = some .onLoan :=
      Registry.slot?_register.trans (if_pos rfl)
    simp only [connected]
    generalize t.register serial = born at registered known lent
    split
    · exact slack_failTarget (slack_discard registered) target _
    have called : (born.2.call w .created serial).pool.Quiet := registered
    split
    · exact slack_failTarget (slack_discard called) target _
    · exact slack_place lasting called known lent target

@[simp] theorem pool_answer? (t : Turn) (reply : Option Ticket) (outcome : Outcome) :
    (t.answer? reply outcome).pool = t.pool := by
  cases reply <;> rfl

theorem quiet_beginCheck? {reg : Registry} (quiet : t.pool.Quiet)
    (begun : t.pool.registry.beginCheck? id = some (serial, reg)) :
    (t.withRegistry reg).pool.Quiet := by
  refine quiet.imp_right fun spent => ?_
  simp only [Registry.beginCheck?] at begun
  split at begun
  · split at begun
    · cases begun
      exact spent
    · cases begun
  · cases begun

theorem slack_takeBack (lasting : w.Lasting) (quiet : t.pool.Quiet) (id : ConnId)
    (reply : Option Ticket) : (t.takeBack w id reply).pool.Slack := by
  simp only [takeBack]
  split
  · rw [pool_answer?]
    exact slack_discard quiet
  split
  · rw [pool_answer?]
    exact slack_of_quiet quiet
  next serial reg begun =>
  have quiet' := quiet_beginCheck? quiet begun
  have slot := (Registry.slot?_beginCheck? begun).2 id
  rw [if_pos rfl] at slot
  obtain ⟨serial', known⟩ := known_of_slot (t := t.withRegistry reg) slot
  split
  · rw [pool_answer?]
    exact slack_discard quiet'
  have called : ((t.withRegistry reg).call w .released serial).pool.Quiet := quiet'
  split
  · rw [pool_answer?]
    exact slack_discard called
  split
  · rw [pool_answer?]
    exact slack_recycle lasting called known (by simp [slot])
  split
  · exact slack_of_quiet called
  · rw [pool_answer?]
    exact slack_discard called

theorem slack_checked (lasting : w.Lasting) (quiet : t.pool.Quiet) (id : ConnId) (healthy : Bool)
    (reply : Option Ticket) : (t.checked w id healthy reply).pool.Slack := by
  simp only [checked]
  split
  · rw [pool_answer?]
    exact slack_of_quiet quiet
  next checking =>
  have slot : t.pool.registry.slot? id = some .checking := by
    simpa [Registry.isChecking] using checking
  obtain ⟨serial, known⟩ := known_of_slot slot
  rw [pool_answer?]
  split
  · exact slack_recycle lasting quiet known (by simp [slot])
  · exact slack_discard quiet

theorem quiet_timedOut (quiet : t.pool.Quiet) (request : RequestId) :
    (t.timedOut w request).pool.Quiet := by
  simp only [timedOut]
  split
  · exact quiet
  next r found =>
  have replaced : (t.withPending (t.pool.pending.replace request
      (t.pool.config.expire r).2)).pool.Quiet := by
    refine quiet.imp_left fun nobody => ?_
    simp [Pending.Queue.find?, nobody] at found
  generalize t.withPending (t.pool.pending.replace request
    (t.pool.config.expire r).2) = t' at replaced ⊢
  split
  · split
    · next r' t'' fetched =>
      have taken := quiet_takePending replaced fetched
      rw [pool_fail]
      exact taken
    · next t'' fetched => exact quiet_takePending replaced fetched
  · exact quiet_openFor (t := t'.count _) replaced _
  · exact replaced

/-- Whatever a quiet pool does on a command, one unit is free at most for those who wait. -/
theorem slack_perform (lasting : w.Lasting) (quiet : t.pool.Quiet) (c : Command)
    (opened : (t.perform w c).pool.closed = false) : (t.perform w c).pool.Slack := by
  cases c with
  | acquire k => exact slack_acquire lasting quiet k
  | release id k => exact slack_takeBack lasting quiet id (some k)
  | close k =>
    simp only [perform, close] at opened ⊢
    split
    · exact slack_of_quiet quiet
    · next going =>
      rw [if_neg going] at opened
      have closed := closed_shutDown (w := w) (t := t)
      rw [opened] at closed
      cases closed
  | stats k => exact slack_of_quiet quiet
  | connected target result => exact slack_connected lasting quiet target result
  | checked id healthy reply => exact slack_checked lasting quiet id healthy reply
  | timedOut request => exact slack_of_quiet (quiet_timedOut quiet request)
  | closed id =>
    refine quiet.imp_right fun ⟨drained, busy⟩ => ?_
    have left : (t.pool.registry.forget id).2.idle = [] ∧ _ := Registry.drained_forget drained
    exact ⟨left.1, Nat.le_trans busy left.2⟩
  | dropped id => exact slack_takeBack lasting quiet id none

end Turn

/-- What an open pool does on a command, and what the queue makes of the unit that it leaves. -/
theorem Pool.handle_refilled {w : Surroundings} {p : Pool} (lasting : w.Lasting) (quiet : p.Quiet)
    (c : Command) (opened : ((Turn.mk p []).perform w c).pool.closed = false) :
    Turn.Refilled w ((Turn.mk p []).perform w c) (p.handle w c) := by
  have slack := Turn.slack_perform (t := ⟨p, []⟩) lasting quiet c opened
  have refilled := Turn.serve_of_slack lasting slack
  have still := refilled.closed
  rw [opened] at still
  rw [handle, Turn.servePending, if_neg (by simp [opened]), Turn.settleClose,
    if_neg (by simp [still])]
  exact refilled

/-- What follows the work on a command: the queue is served, and the end of a close reported. -/
theorem Pool.adds_handle {w : Surroundings} {p : Pool} (lasting : w.Lasting) (quiet : p.Quiet)
    (c : Command) : ∃ es, ((Turn.mk p []).perform w c).Adds es (p.handle w c) ∧
      ∀ e ∈ es, e.Serves ∨ ∃ k, e = .answer k .done := by
  cases closed : ((Turn.mk p []).perform w c).pool.closed with
  | false =>
    obtain ⟨es, adds, serves⟩ := (handle_refilled lasting quiet c closed).adds
    exact ⟨es, adds, fun e member => .inl (serves e member)⟩
  | true =>
    rw [handle, Turn.servePending, if_pos closed, Turn.settleClose]
    split
    · refine ⟨_, Turn.adds_finishClose _, ?_⟩
      intro e member
      obtain ⟨k, -, rfl⟩ := List.mem_map.mp member
      exact .inr ⟨k, rfl⟩
    · exact ⟨[], Turn.adds_refl _, List.forall_mem_nil _⟩

end LoanPool
