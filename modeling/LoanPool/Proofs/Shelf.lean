import LoanPool.Proofs.Failure
import LoanPool.Proofs.Reconciliation

/-!
# The order of idle connections

The queue of idle connections is kept in the order in which they became idle. Between two entries
of the record it only loses connections, but for one at most in each turn that joins it, and that
one was not in it when the last entry was made. Whatever else became idle did so before.
-/
namespace LoanPool
open Pending (Request)

/-! ### Since when a connection is idle -/

namespace Site

/-- How much had been recorded when a connection became idle that has been idle since. -/
def idleSince (past : List Record) (id : ConnId) : Nat :=
  (past.reverse.dropWhile fun rec => id ∈ rec.pool.registry.idle).length

def Precedes (config : Config) (past : List Record) (a b : ConnId) : Prop :=
  if config.lifo then idleSince past b < idleSince past a else idleSince past a < idleSince past b

def InOrder (config : Config) (past : List Record) (p : Pool) : Prop :=
  p.registry.idle.Pairwise (Precedes config past)

variable {config : Config} {past : List Record} {rec : Record} {id : ConnId} {p p' : Pool}

theorem idleSince_of_mem (still : id ∈ rec.pool.registry.idle) :
    idleSince (past ++ [rec]) id = idleSince past id := by
  simp [idleSince, still]

theorem idleSince_of_not_mem (absent : id ∉ rec.pool.registry.idle) :
    idleSince (past ++ [rec]) id = past.length + 1 := by
  simp [idleSince, absent]

theorem idleSince_le (past : List Record) (id : ConnId) : idleSince past id ≤ past.length := by
  have shorter := (List.dropWhile_sublist (l := past.reverse)
    fun rec => id ∈ rec.pool.registry.idle).length_le
  rwa [List.length_reverse] at shorter

theorem inOrder_of_sublist (order : InOrder config past p)
    (fewer : p'.registry.idle.Sublist p.registry.idle) : InOrder config past p' :=
  order.sublist fewer

/-- An entry of the record at which all of them are idle changes nothing. -/
theorem inOrder_concat (order : InOrder config past p)
    (still : p.registry.idle ⊆ rec.pool.registry.idle) : InOrder config (past ++ [rec]) p := by
  refine order.imp_of_mem fun {a b} first second precedes => ?_
  rw [Precedes, idleSince_of_mem (still first), idleSince_of_mem (still second)]
  exact precedes

end Site

def joined (lifo : Bool) (queue : List ConnId) (id : ConnId) : List ConnId :=
  if lifo then id :: queue else queue ++ [id]

namespace Site
variable {config : Config} {past : List Record} {rec : Record} {id : ConnId} {p p' : Pool}

theorem inOrder_joined (order : InOrder config (past ++ [rec]) p)
    (still : p.registry.idle ⊆ rec.pool.registry.idle) (absent : id ∉ rec.pool.registry.idle)
    (joins : p'.registry.idle = joined config.lifo p.registry.idle id) :
    InOrder config (past ++ [rec]) p' := by
  have newest : ∀ i ∈ p.registry.idle,
      idleSince (past ++ [rec]) i < idleSince (past ++ [rec]) id := by
    intro i member
    rw [idleSince_of_mem (still member), idleSince_of_not_mem absent]
    exact Nat.lt_succ_of_le (idleSince_le past i)
  rw [InOrder, joins, joined]
  split
  · next latest =>
    refine List.pairwise_cons.mpr ⟨fun i member => ?_, order⟩
    rw [Precedes, if_pos latest]
    exact newest i member
  · next oldest =>
    refine List.pairwise_append.mpr ⟨order, List.pairwise_singleton _ _, fun i member _ new => ?_⟩
    rw [List.mem_singleton.mp new, Precedes, if_neg oldest]
    exact newest i member

structure AllInOrder (config : Config) (past : List Record) (p : Pool) : Prop where
  now : InOrder config past p
  before : ∀ front rec rest, past = front ++ rec :: rest → InOrder config front rec.pool

theorem allInOrder_concat (order : AllInOrder config past p) (same : rec.pool = p) :
    AllInOrder config (past ++ [rec]) p where
  now := inOrder_concat order.now (same ▸ List.Subset.refl _)
  before := by
    intro front entry rest split
    rcases split_concat split with ⟨rfl, rfl⟩ | ⟨back, earlier⟩
    · exact same ▸ order.now
    · exact order.before front entry back earlier

end Site

/-! ### How the queue gets shorter -/

structure Registry.Wanes (r r' : Registry) : Prop where
  idle : r'.idle.Sublist r.idle
  lifo : r'.lifo = r.lifo

namespace Registry
variable {r r' : Registry} {id : ConnId} {serial : Serial}

theorem wanes_of_same (idle : r'.idle = r.idle) (lifo : r'.lifo = r.lifo) : r.Wanes r' :=
  ⟨idle ▸ List.Sublist.refl _, lifo⟩

theorem wanes_checkout? (taken : r.checkout? = some (id, r')) : r.Wanes r' := by
  refine ⟨?_, ?_⟩
  · rw [Turn.idle_checkout? taken]
    exact List.sublist_cons_self _ _
  · simp only [checkout?] at taken
    split at taken
    · cases taken
    · cases taken
      split <;> rfl

theorem wanes_beginCheck? (begun : r.beginCheck? id = some (serial, r')) : r.Wanes r' := by
  simp only [beginCheck?] at begun
  split at begun
  · split at begun
    · cases begun
      exact wanes_of_same rfl rfl
    · cases begun
  · cases begun

theorem wanes_handOver : r.Wanes (r.handOver id) := by
  refine wanes_of_same (idle_handOver r id) ?_
  simp only [handOver]
  split <;> rfl

theorem wanes_remove? (removed : r.remove? id = some (serial, r')) : r.Wanes r' := by
  simp only [remove?] at removed
  split at removed
  · cases removed
    split
    · exact ⟨List.filter_sublist, rfl⟩
    · exact wanes_of_same rfl rfl
  · cases removed

theorem wanes_discard? {confirms : Serial → Bool}
    (removed : r.discard? confirms id = some (serial, r')) : r.Wanes r' := by
  simp only [discard?, Option.map_eq_some_iff, Prod.exists, Prod.mk.injEq] at removed
  obtain ⟨_, mid, gone, -, rfl⟩ := removed
  have wanes := wanes_remove? gone
  split <;> exact ⟨wanes.idle, wanes.lifo⟩

theorem wanes_forget : r.Wanes (r.forget id).2 := by
  simp only [forget]
  split
  · next gone =>
    have wanes := wanes_remove? gone
    exact ⟨wanes.idle, wanes.lifo⟩
  · exact wanes_of_same rfl rfl

theorem checkIn_joins (r : Registry) (id : ConnId) :
    (r.checkIn? id).getD r = r ∨
      ((r.checkIn? id).getD r).idle = joined r.lifo r.idle id ∧
        ((r.checkIn? id).getD r).lifo = r.lifo := by
  cases parked : r.park? id with
  | none =>
    left
    simp [checkIn?, parked]
  | some mid =>
    have lifo : mid.lifo = r.lifo := by
      simp only [park?] at parked
      split at parked
      · split at parked
        · cases parked
        · cases parked
          rfl
      · cases parked
    right
    simp [checkIn?, parked, joined, idle_park? parked, lifo]

end Registry

namespace Turn
variable {w : Surroundings} {p : Pool} {t u v : Turn} {id : ConnId} {serial : Serial} {r : Request}

inductive Wanes (t : Turn) : Turn → Prop where
  | refl : Wanes t t
  | emit {u : Turn} (wanes : Wanes t u) (e : Effect) : Wanes t (u.emit e)
  | pool {u : Turn} (wanes : Wanes t u) {p : Pool} (shorter : u.pool.registry.Wanes p.registry) :
      Wanes t { u with pool := p }

theorem Wanes.registry (wanes : t.Wanes u) : t.pool.registry.Wanes u.pool.registry := by
  induction wanes with
  | refl => exact Registry.wanes_of_same rfl rfl
  | emit wanes e ih => exact ih
  | pool wanes shorter ih =>
    exact ⟨shorter.idle.trans ih.idle, shorter.lifo.trans ih.lifo⟩

theorem Wanes.keep (wanes : t.Wanes u) {p : Pool} (same : p.registry = u.pool.registry) :
    t.Wanes { u with pool := p } :=
  wanes.pool (same ▸ Registry.wanes_of_same rfl rfl)

theorem wanes_withRegistry (wanes : t.Wanes u) {r : Registry} (shorter : u.pool.registry.Wanes r) :
    t.Wanes (u.withRegistry r) :=
  wanes.pool shorter

theorem wanes_answer? (wanes : t.Wanes u) (reply : Option Ticket) (outcome : Outcome) :
    t.Wanes (u.answer? reply outcome) := by
  cases reply with
  | none => exact wanes
  | some k => exact wanes.emit _

theorem wanes_disarm (wanes : t.Wanes u) (r : Request) : t.Wanes (u.disarm r) := by
  simp only [disarm]
  split
  · exact wanes.emit _
  · exact wanes

theorem wanes_fail (wanes : t.Wanes u) (r : Request) (cause : PoolError) :
    t.Wanes (u.fail r cause) :=
  (wanes_disarm wanes r).emit _

theorem wanes_prune (wanes : t.Wanes u) : t.Wanes (u.prune w) := by
  have pruned : t.Wanes (u.withPending (u.pool.pending.prune (w.gone u.effects))) := wanes.keep rfl
  exact List.foldlRecOn _ _ pruned fun _ wanes r _ => wanes_disarm wanes r

theorem wanes_takePending (wanes : t.Wanes u) {request : RequestId} {found : Option Request}
    (fetched : u.takePending request = (found, v)) : t.Wanes v := by
  simp only [takePending] at fetched
  split at fetched
  · cases fetched
    exact wanes.keep rfl
  · cases fetched
    exact wanes

theorem wanes_failTarget (wanes : t.Wanes u) (target : Target) (cause : PoolError) :
    t.Wanes (u.failTarget target cause) := by
  simp only [failTarget]
  split
  · exact wanes_fail wanes _ _
  · split
    · next r v fetched => exact wanes_fail (wanes_takePending wanes fetched) _ _
    · next v fetched => exact wanes_takePending wanes fetched

theorem wanes_openFor (wanes : t.Wanes u) (target : Target) : t.Wanes (u.openFor w target) := by
  simp only [openFor]
  split
  · have reserved : t.Wanes (u.withRegistry u.pool.registry.reserve) :=
      wanes_withRegistry wanes (Registry.wanes_of_same rfl rfl)
    exact reserved.emit _
  · exact wanes_failTarget wanes target _

theorem wanes_discard (wanes : t.Wanes u) (id : ConnId) : t.Wanes (u.discard w id) := by
  simp only [discard]
  split
  · next removed => exact (wanes_withRegistry wanes (Registry.wanes_discard? removed)).emit _
  · exact wanes

theorem wanes_checkout (wanes : t.Wanes u) {found : Option ConnId}
    (taken : u.checkout w = (found, v)) : t.Wanes v := by
  fun_induction Turn.checkout w u with
  | case1 u empty =>
    cases taken
    exact wanes
  | case2 u first r known active =>
    cases taken
    exact wanes_withRegistry wanes (Registry.wanes_checkout? known)
  | case3 u first r known inactive ih =>
    have taking := wanes_withRegistry wanes (Registry.wanes_checkout? known)
    exact ih (wanes_discard taking first) taken

theorem wanes_popLive (wanes : t.Wanes u) {found : Option Request}
    (popped : u.popLive w = (found, v)) : t.Wanes v := by
  rw [popLive] at popped
  generalize u.pool.pending.requests = waiting at popped
  induction waiting generalizing u with
  | nil =>
    cases popped
    exact wanes
  | cons first others ih =>
    have taken : t.Wanes (u.withPending { u.pool.pending with requests := others }) :=
      wanes.keep rfl
    simp only [popFrom] at popped
    split at popped
    · exact ih (wanes_disarm taken first) popped
    · cases popped
      exact taken

theorem wanes_attempt (wanes : t.Wanes u) (r : Request) (id : ConnId) :
    t.Wanes (u.attempt w r id).2 := by
  simp only [attempt]
  split
  · exact wanes_fail wanes r _
  next serial known =>
  have called : t.Wanes (u.call w .acquired serial) := wanes.emit _
  split
  · exact wanes_fail (wanes_discard called id) r _
  · split
    · exact wanes_disarm called r
    · exact (wanes_disarm called r).emit _

theorem wanes_lineUp (wanes : t.Wanes u) (r : Request) : t.Wanes (u.lineUp w r) := by
  have pruned := wanes_prune (w := w) wanes
  simp only [lineUp]
  generalize u.prune w = v at pruned
  split
  · refine wanes_fail ?_ r _
    exact pruned.keep rfl
  · simp only [enqueue]
    split
    · exact (pruned.emit _).keep rfl
    · exact pruned.keep rfl

theorem wanes_shutDown (wanes : t.Wanes u) : t.Wanes (u.shutDown w) := by
  have shut : t.Wanes { u with pool := { u.pool with
      closed := true, pending := { u.pool.pending with requests := [] } } } := wanes.keep rfl
  have failed := List.foldlRecOn u.pool.pending.requests (fun t r => t.fail r .poolClosed) shut
    fun _ wanes r _ => wanes_fail wanes r _
  exact List.foldlRecOn _ _ failed fun _ wanes id _ => wanes_discard wanes id

theorem wanes_timedOut (wanes : t.Wanes u) (request : RequestId) :
    t.Wanes (u.timedOut w request) := by
  simp only [timedOut]
  split
  · exact wanes
  next r found =>
  have replaced : t.Wanes (u.withPending (u.pool.pending.replace request
    (u.pool.config.expire r).2)) := wanes.keep rfl
  generalize u.withPending (u.pool.pending.replace request
    (u.pool.config.expire r).2) = v at replaced ⊢
  split
  · split
    · next r' t' fetched =>
      refine wanes_fail ?_ r' _
      exact (wanes_takePending replaced fetched).keep rfl
    · next t' fetched => exact wanes_takePending replaced fetched
  · refine wanes_openFor ?_ _
    exact replaced.keep rfl
  · exact replaced

/-- Where no connection is idle, none becomes so while the queue is served. -/
theorem wanes_serve (wanes : t.Wanes u) (drained : u.pool.registry.idle = []) :
    t.Wanes (u.serve w) := by
  fun_induction Turn.serve w u with
  | case1 u nobody => exact wanes
  | case2 u waiting id u' found | case3 u waiting id u' found =>
    rw [checkout_of_drained drained] at found
    cases found
  | case4 u waiting u' found room r u'' popped ih =>
    have serving : u.Wanes _ := wanes_openFor (w := w)
      (wanes_disarm (wanes_popLive (wanes_checkout .refl found) popped) r)
      (.owned { r with timer := none })
    refine ih ?_ (List.sublist_nil.mp (drained ▸ serving.registry.idle))
    exact wanes_openFor (wanes_disarm (wanes_popLive (wanes_checkout wanes found) popped) r) _
  | case5 u waiting u' found room u'' popped =>
    exact wanes_popLive (wanes_checkout wanes found) popped
  | case6 u waiting u' found full => exact wanes_checkout wanes found

/-! ### How one connection joins the queue -/

def seen (p : Pool) (u : Turn) : Pool :=
  (u.log.getLast?.map (·.pool)).getD p

theorem seen_emit (e : Effect) : (u.emit e).seen p = u.pool := by
  simp [seen, emit]

/-- The connection is not idle, and it was not when the last entry was recorded. -/
structure Lacks (p : Pool) (id : ConnId) (u : Turn) : Prop where
  now : id ∉ u.pool.registry.idle
  before : id ∉ (u.seen p).registry.idle

theorem lacks_emit (absent : id ∉ u.pool.registry.idle) (e : Effect) : (u.emit e).Lacks p id :=
  ⟨absent, by rwa [seen_emit]⟩

theorem Lacks.wanes (lacks : u.Lacks p id) (wanes : u.Wanes v) : v.Lacks p id := by
  induction wanes with
  | refl => exact lacks
  | emit wanes e ih => exact lacks_emit ih.now e
  | pool wanes shorter ih => exact ⟨fun member => ih.now (shorter.idle.subset member), ih.before⟩

theorem lacks_of_not_idle (absent : id ∉ p.registry.idle) : (Turn.mk p []).Lacks p id :=
  ⟨absent, absent⟩

inductive Shelves (p : Pool) : Turn → Prop where
  | none {u : Turn} (wanes : (Turn.mk p []).Wanes u) : Shelves p u
  | one {u : Turn} {q : Pool} {id : ConnId} (wanes : (Turn.mk p []).Wanes u)
      (lacks : u.Lacks p id)
      (joins : q.registry.idle = joined u.pool.registry.lifo u.pool.registry.idle id)
      (lifo : q.registry.lifo = u.pool.registry.lifo) : Shelves p { u with pool := q }
  | emit {u : Turn} (shelves : Shelves p u) (e : Effect) : Shelves p (u.emit e)
  | keep {u : Turn} (shelves : Shelves p u) {q : Pool} (same : q.registry = u.pool.registry) :
      Shelves p { u with pool := q }

theorem joined_ne_nil (lifo : Bool) (queue : List ConnId) (id : ConnId) :
    joined lifo queue id ≠ [] := by
  rw [joined]
  split <;> simp

theorem Shelves.wanes (shelves : Shelves p u) (drained : u.pool.registry.idle = []) :
    (Turn.mk p []).Wanes u := by
  induction shelves with
  | none wanes => exact wanes
  | one wanes lacks joins lifo => exact absurd (joins.symm.trans drained) (joined_ne_nil _ _ _)
  | emit shelves e ih => exact (ih drained).emit e
  | keep shelves same ih =>
    have before := drained
    dsimp only at before
    rw [same] at before
    exact (ih before).keep same

theorem shelves_answer? (shelves : Shelves p u) (reply : Option Ticket) (outcome : Outcome) :
    Shelves p (u.answer? reply outcome) := by
  cases reply with
  | none => exact shelves
  | some k => exact shelves.emit _

theorem shelves_shelve (wanes : (Turn.mk p []).Wanes u) (lacks : u.Lacks p id) :
    Shelves p (u.shelve w id) := by
  simp only [shelve]
  split
  · exact .none (wanes_discard wanes id)
  · rcases Registry.checkIn_joins u.pool.registry id with same | ⟨joins, lifo⟩
    · rw [checkIn, same]
      exact .none wanes
    · exact .one wanes lacks joins lifo

theorem shelves_recycle (wanes : (Turn.mk p []).Wanes u) (lacks : u.Lacks p id) :
    Shelves p (u.recycle w id) := by
  have handed : ∀ {t t' : Turn} {r : Request}, t.popLive w = (some r, t') →
      t.Wanes ((t'.handOver id).attempt w r id).2 := by
    intro t t' r popped
    refine wanes_attempt ?_ r id
    exact wanes_withRegistry (wanes_popLive .refl popped) Registry.wanes_handOver
  fun_induction Turn.recycle w u id with
  | case1 u u' popped =>
    exact shelves_shelve (wanes_popLive wanes popped) (lacks.wanes (wanes_popLive .refl popped))
  | case2 u r u' popped offered left ih =>
    refine ih (wanes_attempt ?_ r id) (lacks.wanes (handed popped))
    exact wanes_withRegistry (wanes_popLive wanes popped) Registry.wanes_handOver
  | case3 u r u' popped offered taken =>
    refine .none (wanes_attempt ?_ r id)
    exact wanes_withRegistry (wanes_popLive wanes popped) Registry.wanes_handOver

/-- Before a caller is found to have left, the hook was called, and recorded. -/
theorem lacks_attempt (absent : id ∉ u.pool.registry.idle) (left : (u.attempt w r id).1 = true) :
    (u.attempt w r id).2.Lacks p id := by
  simp only [attempt] at left ⊢
  split at left
  · cases left
  next serial known =>
  split at left
  · cases left
  next agreed =>
  split at left
  · next gone =>
    rw [if_pos gone]
    exact (lacks_emit absent _).wanes (wanes_disarm .refl r)
  · cases left

theorem shelves_deliver (wanes : (Turn.mk p []).Wanes u) (absent : id ∉ u.pool.registry.idle)
    (r : Request) : Shelves p (u.deliver w r id) := by
  simp only [deliver]
  split
  · next left => exact shelves_recycle (wanes_attempt wanes r id) (lacks_attempt absent left)
  · exact .none (wanes_attempt wanes r id)

/-- Whoever is taken from the queue is in it once. -/
theorem absent_of_checkout (once : u.pool.registry.idle.Nodup)
    (taken : u.checkout w = (some id, v)) : id ∉ v.pool.registry.idle := by
  fun_induction Turn.checkout w u with
  | case1 u empty => cases taken
  | case2 u first r known active =>
    cases taken
    rw [idle_checkout? known] at once
    exact (List.nodup_cons.mp once).1
  | case3 u first r known inactive ih =>
    refine ih (once.sublist ?_) taken
    have taking := wanes_withRegistry (u := u) .refl (Registry.wanes_checkout? known)
    exact (wanes_discard (w := w) taking first).registry.idle

theorem shelves_acquire (once : p.registry.idle.Nodup) (k : Ticket) :
    Shelves p ((Turn.mk p []).acquire w k) := by
  simp only [acquire]
  split
  · exact .none (.emit .refl _)
  have named : (Turn.mk p []).Wanes ((Turn.mk p []).newRequest k).2 := .keep .refl rfl
  split
  · next id u found =>
    exact shelves_deliver (wanes_checkout named found) (absent_of_checkout once found) _
  · next u found =>
    split
    · exact .none (wanes_openFor (wanes_checkout named found) _)
    · exact .none (wanes_lineUp (wanes_checkout named found) _)

theorem shelves_place (wanes : (Turn.mk p []).Wanes u) (lacks : u.Lacks p id) (target : Target) :
    Shelves p (u.place w target id) := by
  cases target with
  | owned r => exact shelves_deliver wanes lacks.now r
  | queued request =>
    simp only [place]
    split
    · next r v fetched =>
      have fetching := wanes_takePending .refl fetched
      exact shelves_deliver (wanes_takePending wanes fetched) (lacks.wanes fetching).now r
    · next v fetched =>
      have fetching := wanes_takePending .refl fetched
      exact shelves_recycle (wanes_takePending wanes fetched) (lacks.wanes fetching)

theorem shelves_connected (fresh : (⟨p.nextConn⟩ : ConnId) ∉ p.registry.idle) (target : Target)
    (result : Except String Serial) : Shelves p ((Turn.mk p []).connected w target result) := by
  cases result with
  | error cause =>
    refine .none (wanes_failTarget ?_ target _)
    exact wanes_withRegistry .refl (Registry.wanes_of_same rfl rfl)
  | ok serial =>
    have born : (Turn.mk p []).Wanes ((Turn.mk p []).register serial).2 := by
      simp only [register]
      refine .emit ?_ _
      exact .pool .refl (Registry.wanes_of_same rfl rfl)
    have lacks := (lacks_of_not_idle fresh).wanes born
    simp only [connected]
    split
    · exact .none (wanes_failTarget (wanes_discard born _) target _)
    split
    · exact .none (wanes_failTarget (wanes_discard (born.emit _) _) target _)
    · exact shelves_place (born.emit _) (lacks.wanes (.emit .refl _)) target

theorem shelves_takeBack (balanced : p.registry.Balanced) (id : ConnId) (reply : Option Ticket) :
    Shelves p ((Turn.mk p []).takeBack w id reply) := by
  simp only [takeBack]
  split
  · exact .none (wanes_answer? (wanes_discard .refl id) reply _)
  split
  · exact .none (wanes_answer? .refl reply _)
  next serial r begun =>
  have absent : id ∉ p.registry.idle := by
    rw [balanced.idle, (Registry.slot?_beginCheck? begun).1]
    simp
  have back : (Turn.mk p []).Wanes ((Turn.mk p []).withRegistry r) :=
    wanes_withRegistry .refl (Registry.wanes_beginCheck? begun)
  split
  · exact .none (wanes_answer? (wanes_discard back id) reply _)
  have called : (Turn.mk p []).Wanes (((Turn.mk p []).withRegistry r).call w .released serial) :=
    back.emit _
  split
  · exact .none (wanes_answer? (wanes_discard called id) reply _)
  split
  · exact shelves_answer? (shelves_recycle called ((lacks_of_not_idle absent).wanes called)) reply _
  split
  · exact .none (called.emit _)
  · exact .none (wanes_answer? (wanes_discard called id) reply _)

theorem shelves_checked (balanced : p.registry.Balanced) (id : ConnId) (healthy : Bool)
    (reply : Option Ticket) : Shelves p ((Turn.mk p []).checked w id healthy reply) := by
  simp only [checked]
  split
  · exact .none (wanes_answer? .refl reply _)
  next checking =>
  have slot : p.registry.slot? id = some .checking := by
    simpa [Registry.isChecking] using checking
  have absent : id ∉ p.registry.idle := by
    rw [balanced.idle, slot]
    simp
  split
  · exact shelves_answer? (shelves_recycle .refl (lacks_of_not_idle absent)) reply _
  · exact .none (wanes_answer? (wanes_discard .refl id) reply _)

theorem shelves_perform (balanced : p.registry.Balanced)
    (fresh : (⟨p.nextConn⟩ : ConnId) ∉ p.registry.ids) (c : Command) :
    Shelves p ((Turn.mk p []).perform w c) := by
  have unlisted : (⟨p.nextConn⟩ : ConnId) ∉ p.registry.idle := by
    rw [balanced.idle, Registry.slot?_eq_none.mpr fresh]
    simp
  cases c with
  | acquire k => exact shelves_acquire balanced.queued k
  | release id k => exact shelves_takeBack balanced id (some k)
  | dropped id => exact shelves_takeBack balanced id none
  | connected target result => exact shelves_connected unlisted target result
  | checked id healthy reply => exact shelves_checked balanced id healthy reply
  | timedOut request => exact .none (wanes_timedOut .refl request)
  | closed id => exact .none (wanes_withRegistry .refl Registry.wanes_forget)
  | stats k => exact .none (.emit .refl _)
  | close k =>
    simp only [perform, close]
    split
    · exact .none (.emit .refl _)
    · exact .none ((wanes_shutDown .refl).keep rfl)

theorem shelves_finishClose (shelves : Shelves p u) : Shelves p u.finishClose := by
  simp only [finishClose]
  have cleared : Shelves p { u with pool := { u.pool with closeWaiters := [] } } := shelves.keep rfl
  exact List.foldlRecOn _ _ cleared fun _ shelves k _ => shelves.emit _

end Turn

/-- In any turn one connection at most becomes idle. -/
theorem Pool.shelves_respond {w : Surroundings} {p : Pool} (lasting : w.Lasting) (quiet : p.Quiet)
    (balanced : p.registry.Balanced) (fresh : (⟨p.nextConn⟩ : ConnId) ∉ p.registry.ids)
    (c : Option Command) : Turn.Shelves p (p.respond w c) := by
  cases c with
  | none => exact Turn.shelves_finishClose (.none (Turn.wanes_shutDown .refl))
  | some c =>
    have performed := Turn.shelves_perform (w := w) balanced fresh c
    have served : Turn.Shelves p (((Turn.mk p []).perform w c).servePending w) := by
      simp only [Turn.servePending]
      split
      · exact performed
      next opened =>
      have slack := Turn.slack_perform (t := ⟨p, []⟩) lasting quiet c (by simpa using opened)
      rcases slack with nobody | ⟨drained, -⟩
      · rw [Turn.serve_eq, if_pos (by simp [nobody])]
        exact performed
      · exact .none (Turn.wanes_serve (performed.wanes drained) drained)
    simp only [respond, handle, Turn.settleClose]
    split
    · exact Turn.shelves_finishClose served
    · exact served

/-! ### Over a run -/

namespace Site
variable {config : Config} {observer : Hook → Nat → Option String} {past : List Record}
  {now : Nat} {s : Site} {c : Option Command} {p : Pool} {u : Turn}

theorem records_emit (e : Effect) : records now c p (u.emit e) =
    records now c p u ++ [{ now, command := c, effect := some e, pool := u.pool }] := by
  simp [records, Turn.emit]

/-- The last entry of a turn is of the pool as it was last recorded. -/
theorem records_last (now : Nat) (c : Option Command) (p : Pool) (u : Turn) :
    ∃ front rec, records now c p u = front ++ [rec] ∧ rec.pool = u.seen p := by
  rcases List.eq_nil_or_concat' u.log with empty | ⟨front, m, log⟩
  · exact ⟨[], { now, command := c, pool := p }, by simp [records, empty], by
      simp [Turn.seen, empty]⟩
  · refine ⟨{ now, command := c, pool := p } ::
      front.map fun m => { now, command := c, effect := some m.effect, pool := m.pool },
      { now, command := c, effect := some m.effect, pool := m.pool }, ?_, ?_⟩
    · simp [records, log]
    · simp [Turn.seen, log]

theorem idle_seen (wanes : (Turn.mk p []).Wanes u) :
    u.pool.registry.idle ⊆ (u.seen p).registry.idle := by
  induction wanes with
  | refl => exact List.Subset.refl _
  | emit wanes e ih =>
    rw [Turn.seen_emit]
    exact List.Subset.refl _
  | pool wanes shorter ih => exact List.Subset.trans shorter.idle.subset ih

theorem allInOrder_of_wanes (order : AllInOrder config past p)
    (wanes : (Turn.mk p []).Wanes u) :
    AllInOrder config (past ++ records now c p u) u.pool := by
  induction wanes with
  | refl => exact allInOrder_concat order rfl
  | emit wanes e ih =>
    rw [records_emit, ← List.append_assoc]
    exact allInOrder_concat ih rfl
  | pool wanes shorter ih => exact ⟨inOrder_of_sublist ih.now shorter.idle, ih.before⟩

theorem allInOrder_of_shelves (order : AllInOrder config past p)
    (lifo : p.registry.lifo = config.lifo) (shelves : Turn.Shelves p u) :
    AllInOrder config (past ++ records now c p u) u.pool := by
  induction shelves with
  | none wanes => exact allInOrder_of_wanes order wanes
  | @one u q id wanes lacks joins _ =>
    have before : AllInOrder config (past ++ Site.records now c p u) u.pool :=
      allInOrder_of_wanes order wanes
    refine ⟨?_, before.before⟩
    obtain ⟨front, rec, records, last⟩ := records_last now c p u
    have unchanged : Site.records now c p { u with pool := q } = front ++ [rec] := records
    have now' := before.now
    rw [records, ← List.append_assoc] at now'
    rw [unchanged, ← List.append_assoc]
    rw [wanes.registry.lifo.trans lifo] at joins
    refine inOrder_joined now' ?_ ?_ joins
    · rw [last]
      exact idle_seen wanes
    · rw [last]
      exact lacks.before
  | emit shelves e ih =>
    rw [records_emit, ← List.append_assoc]
    exact allInOrder_concat ih rfl
  | @keep u shelves q same ih =>
    refine ⟨?_, ih.before⟩
    exact inOrder_of_sublist ih.now (same ▸ List.Sublist.refl _)

theorem lifo_of_shelves (shelves : Turn.Shelves p u) : u.pool.registry.lifo = p.registry.lifo := by
  induction shelves with
  | none wanes => exact wanes.registry.lifo
  | one wanes lacks joins lifo => exact lifo.trans wanes.registry.lifo
  | emit shelves e ih => exact ih
  | keep shelves same ih => exact (congrArg Registry.lifo same).trans ih

theorem shelves_of_course (run : Run config observer past now s) {later : Nat} {rest : Site}
    (due : s.next? = some (c, rest)) (course : Course later rest) :
    Turn.Shelves s.pool (course.turn c) := by
  have settled := settled_of_run run
  obtain ⟨m, accounted⟩ := run_invariant Scene.Accounted run accounted_move (accounted_start _ _)
  rw [Course.turn, pool_next? due]
  exact Pool.shelves_respond course.lasting settled.quiet settled.balanced
    (unnamed_of_accounted accounted) c

/-- Whatever has happened, the idle connections stand in the order in which they became idle. -/
theorem allInOrder_of_run (run : Run config observer past now s) :
    AllInOrder config past s.pool ∧ s.pool.registry.lifo = config.lifo := by
  induction run with
  | start => exact ⟨⟨List.Pairwise.nil, fun front rec rest split => by simp at split⟩, rfl⟩
  | event before order allowed ih => rwa [pool_happen]
  | @turn past now later s rest c before order due course ih =>
    have shelves := shelves_of_course before due course
    exact ⟨allInOrder_of_shelves ih.1 ih.2 shelves, (lifo_of_shelves shelves).trans ih.2⟩

end Site
end LoanPool
