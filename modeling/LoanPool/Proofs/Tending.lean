import LoanPool.Proofs.Registry.Balance
import LoanPool.Proofs.Shutdown

/-!
# Tending a pool

Serving callers, taking loans back and judging checks changes a pool by single operations on its
registry, on its queue and on its counters, whatever the surroundings answer on the way. None of
them registers a connection, opens or closes the pool, or touches those who wait for its end; each
keeps the registry in balance, and none brings a connection into use for nobody.
-/
namespace LoanPool
open Pending (Request Queue)

namespace Registry
variable {r r' : Registry} {id i : ConnId} {serial : Serial}

/-! ### What does not bring a connection into use -/

theorem unused_handOver (unused : r.isUsed i = false) : (r.handOver id).isUsed i = false := by
  rw [isUsed_eq_false] at unused ⊢
  intro slot known
  rw [slot?_handOver] at known
  split at known
  · next checking =>
    obtain ⟨rfl, checking⟩ := checking
    cases unused _ checking
  · exact unused slot known

theorem unused_park? (parked : r.park? id = some r') (unused : r.isUsed i = false) :
    r'.isUsed i = false := by
  rw [isUsed_eq_false] at unused ⊢
  intro slot known
  rw [(slot?_park? parked).2 i] at known
  split at known
  · cases known
    rfl
  · exact unused slot known

theorem unused_parked {f : Registry → Registry} (kept : ∀ m, (f m).entries = m.entries)
    (unused : r.isUsed i = false) : (((r.park? id).map f).getD r).isUsed i = false := by
  cases parked : r.park? id with
  | none => exact unused
  | some mid =>
    have away : mid.isUsed i = false := unused_park? parked unused
    simpa only [Option.map_some, Option.getD_some, isUsed, slot?, find?, kept] using away

theorem unused_beginCheck? (unused : r.isUsed i = false)
    (begun : r.beginCheck? id = some (serial, r')) : r'.isUsed i = false := by
  obtain ⟨lent, slots⟩ := slot?_beginCheck? begun
  rw [isUsed_eq_false] at unused ⊢
  intro slot known
  rw [slots i] at known
  split at known
  · next same =>
    subst same
    cases unused _ lent
  · exact unused slot known

theorem unused_of_gone (unused : r.isUsed i = false)
    (gone : ∀ j, r'.slot? j = if j = id then none else r.slot? j) : r'.isUsed i = false := by
  rw [isUsed_eq_false] at unused ⊢
  intro slot known
  rw [gone i] at known
  split at known
  · cases known
  · exact unused slot known

end Registry

inductive Pool.Upkeep (p : Pool) : Pool → Prop where
  | queue {q : Queue} (shorter : q.requests.length ≤ p.pending.requests.length) :
      Upkeep p { p with pending := q }
  | count (c : Counters) : Upkeep p { p with counters := c }
  | reserve : Upkeep p { p with registry := p.registry.reserve }
  | handOver (id : ConnId) : Upkeep p { p with registry := p.registry.handOver id }
  | checkIn (id : ConnId) :
      Upkeep p { p with registry := (p.registry.checkIn? id).getD p.registry }
  | putBack (id : ConnId) :
      Upkeep p { p with registry := (p.registry.putBack? id).getD p.registry }
  | forget (id : ConnId) : Upkeep p { p with registry := (p.registry.forget id).2 }
  | checkout {id : ConnId} {r : Registry} (waiting : p.pending.requests ≠ [])
      (taken : p.registry.checkout? = some (id, r)) : Upkeep p { p with registry := r }
  | beginCheck {id : ConnId} {serial : Serial} {r : Registry}
      (begun : p.registry.beginCheck? id = some (serial, r)) : Upkeep p { p with registry := r }
  | discard {id : ConnId} {serial : Serial} {confirms : Serial → Bool} {r : Registry}
      (removed : p.registry.discard? confirms id = some (serial, r)) :
      Upkeep p { p with registry := r }

abbrev Pool.Tended : Pool → Pool → Prop :=
  Relation.ReflTransGen Pool.Upkeep

namespace Pool
variable {p p' : Pool} {id : ConnId}

/-! ### What tending keeps -/

/-- No connection comes into use while nobody waits. -/
theorem unused_upkeep (upkeep : p.Upkeep p') (nobody : p.pending.requests = [])
    (unused : p.registry.isUsed id = false) :
    p'.pending.requests = [] ∧ p'.registry.isUsed id = false := by
  cases upkeep with
  | queue shorter =>
    rw [nobody] at shorter
    exact ⟨List.eq_nil_of_length_eq_zero (Nat.le_zero.mp shorter), unused⟩
  | count c => exact ⟨nobody, unused⟩
  | reserve => exact ⟨nobody, unused⟩
  | handOver i => exact ⟨nobody, Registry.unused_handOver unused⟩
  | checkIn i => exact ⟨nobody, Registry.unused_parked (fun _ => rfl) unused⟩
  | putBack i => exact ⟨nobody, Registry.unused_parked (fun _ => rfl) unused⟩
  | forget i => exact ⟨nobody, Registry.unused_of_gone unused fun j => Registry.slot?_forget⟩
  | checkout waiting taken => exact absurd nobody waiting
  | beginCheck begun => exact ⟨nobody, Registry.unused_beginCheck? unused begun⟩
  | discard removed =>
    exact ⟨nobody, Registry.unused_of_gone unused fun j => Registry.slot?_discard? removed⟩

theorem balanced_upkeep (upkeep : p.Upkeep p') (b : p.registry.Balanced) :
    p'.registry.Balanced := by
  cases upkeep with
  | queue shorter => exact b
  | count c => exact b
  | reserve => exact Registry.balanced_reserve b
  | handOver id => exact Registry.balanced_handOver b
  | checkIn id => exact Registry.balanced_checkIn b
  | putBack id => exact Registry.balanced_putBack b
  | forget id => exact Registry.balanced_forget b
  | checkout waiting taken => exact Registry.balanced_checkout? b taken
  | beginCheck begun => exact Registry.balanced_beginCheck? b begun
  | discard removed => exact Registry.balanced_discard? b removed

theorem unregistered_upkeep (upkeep : p.Upkeep p') (unknown : id ∉ p.registry.ids) :
    id ∉ p'.registry.ids := by
  have dropped : ∀ {r' : Registry} {i : ConnId}, r'.names = p.registry.names.filter (·.1 ≠ i) →
      id ∉ r'.ids := by
    intro r' i names
    rw [Registry.ids_eq_names, names]
    intro member
    obtain ⟨n, listed, rfl⟩ := List.mem_map.mp member
    apply unknown
    rw [Registry.ids_eq_names]
    exact List.mem_map_of_mem (List.mem_filter.mp listed).1
  cases upkeep with
  | queue shorter => exact unknown
  | count c => exact unknown
  | reserve => exact unknown
  | handOver i => rwa [Registry.moved_handOver.ids]
  | checkIn i => rwa [Registry.moved_checkIn?.ids]
  | putBack i => rwa [Registry.moved_putBack?.ids]
  | forget i => exact dropped Registry.names_forget
  | checkout waiting taken => rwa [(Registry.moved_checkout? taken).ids]
  | beginCheck begun => rwa [(Registry.moved_beginCheck? begun).ids]
  | discard removed => exact dropped (Registry.names_discard? removed)

theorem closed_upkeep (upkeep : p.Upkeep p') : p'.closed = p.closed := by
  cases upkeep <;> rfl

theorem closeWaiters_upkeep (upkeep : p.Upkeep p') : p'.closeWaiters = p.closeWaiters := by
  cases upkeep <;> rfl

namespace Tended

theorem balanced (tended : p.Tended p') (b : p.registry.Balanced) : p'.registry.Balanced := by
  induction tended with
  | refl => exact b
  | tail _ upkeep ih => exact balanced_upkeep upkeep ih

theorem unregistered (tended : p.Tended p') (unknown : id ∉ p.registry.ids) :
    id ∉ p'.registry.ids := by
  induction tended with
  | refl => exact unknown
  | tail _ upkeep ih => exact unregistered_upkeep upkeep ih

theorem unused (tended : p.Tended p') (nobody : p.pending.requests = [])
    (unused : p.registry.isUsed id = false) :
    p'.pending.requests = [] ∧ p'.registry.isUsed id = false := by
  induction tended with
  | refl => exact ⟨nobody, unused⟩
  | tail _ upkeep ih => exact unused_upkeep upkeep ih.1 ih.2

theorem closed (tended : p.Tended p') : p'.closed = p.closed := by
  induction tended with
  | refl => rfl
  | tail _ upkeep ih => exact (closed_upkeep upkeep).trans ih

theorem closeWaiters (tended : p.Tended p') : p'.closeWaiters = p.closeWaiters := by
  induction tended with
  | refl => rfl
  | tail _ upkeep ih => exact (closeWaiters_upkeep upkeep).trans ih

end Tended
end Pool

/-! ### Turns that tend a pool -/

namespace Turn
variable {w : Surroundings} {t t' : Turn} {p : Pool} {id : ConnId}

theorem tended_discard (tended : p.Tended t.pool) : p.Tended (t.discard w id).pool := by
  unfold discard
  split
  · next removed => exact tended.tail (.discard removed)
  · exact tended

theorem tended_evictAll (tended : p.Tended t.pool) (order : List ConnId) :
    p.Tended (order.foldl (discard w) t).pool := by
  induction order generalizing t with
  | nil => exact tended
  | cons id rest ih => exact ih (tended_discard tended)

theorem tended_popFrom {rs : List Request} {found : Option Request} (tended : p.Tended t.pool)
    (all : t.pool.pending.requests = rs) (popped : t.popFrom w rs = (found, t')) :
    p.Tended t'.pool := by
  induction rs generalizing t with
  | nil =>
    cases popped
    exact tended
  | cons r rest ih =>
    simp only [popFrom] at popped
    have taken : p.Tended (t.withPending { t.pool.pending with requests := rest }).pool := by
      apply tended.tail
      apply Pool.Upkeep.queue
      rw [all]
      exact Nat.le_succ _
    split at popped
    · refine ih ?_ ?_ popped
      · rw [pool_disarm]
        exact taken
      · rw [pool_disarm]
        rfl
    · cases popped
      exact taken

theorem tended_popLive {found : Option Request} (tended : p.Tended t.pool)
    (popped : t.popLive w = (found, t')) : p.Tended t'.pool :=
  tended_popFrom tended rfl popped

theorem tended_takePending {request : RequestId} {found : Option Request}
    (tended : p.Tended t.pool) (fetched : t.takePending request = (found, t')) :
    p.Tended t'.pool := by
  simp only [takePending] at fetched
  split at fetched
  · next r rest removed =>
    cases fetched
    apply tended.tail
    apply Pool.Upkeep.queue
    simp only [Pending.Queue.remove?, Option.map_eq_some_iff, Prod.mk.injEq] at removed
    obtain ⟨found, -, -, rfl⟩ := removed
    exact List.length_eraseP_le
  · cases fetched
    exact tended

theorem tended_failTarget (tended : p.Tended t.pool) (target : Target) (cause : PoolError) :
    p.Tended (t.failTarget target cause).pool := by
  cases target with
  | owned r =>
    simp only [failTarget, pool_fail]
    exact tended
  | queued request =>
    simp only [failTarget]
    split
    · next r t' fetched =>
      rw [pool_fail]
      exact tended_takePending tended fetched
    · next t' fetched => exact tended_takePending tended fetched

theorem tended_openFor (tended : p.Tended t.pool) (target : Target) :
    p.Tended (t.openFor w target).pool := by
  simp only [openFor]
  split
  · exact tended.tail .reserve
  · exact tended_failTarget tended target .poolClosed

theorem tended_attempt (tended : p.Tended t.pool) (r : Request) :
    p.Tended (t.attempt w r id).2.pool := by
  unfold attempt
  split
  · rw [pool_fail]
    exact tended
  · dsimp only
    split
    · rw [pool_fail]
      exact tended_discard tended
    · split
      · rw [pool_disarm, pool_call]
        exact tended
      · rw [pool_answer, pool_disarm, pool_call]
        exact tended

theorem tended_shelve (tended : p.Tended t.pool) : p.Tended (t.shelve w id).pool := by
  unfold shelve
  split
  · exact tended_discard tended
  · exact tended.tail (.checkIn id)

theorem tended_offer {r : Request} (tended : p.Tended t.pool)
    (popped : t.popLive w = (some r, t')) :
    p.Tended ((t'.handOver id).attempt w r id).2.pool := by
  have taken : p.Tended (t'.handOver id).pool := (tended_popLive tended popped).tail (.handOver id)
  exact tended_attempt taken r

theorem tended_recycle (tended : p.Tended t.pool) : p.Tended (t.recycle w id).pool := by
  fun_induction Turn.recycle w t id with
  | case1 t t' popped => exact tended_shelve (tended_popLive tended popped)
  | case2 t r t' popped offered left ih => exact ih (tended_offer tended popped)
  | case3 t r t' popped offered taken => exact tended_offer tended popped

theorem tended_deliver (tended : p.Tended t.pool) (r : Request) :
    p.Tended (t.deliver w r id).pool := by
  have tried : p.Tended (t.attempt w r id).2.pool := tended_attempt tended r
  simp only [deliver]
  split
  · exact tended_recycle tried
  · exact tried

theorem tended_checkout {found : Option ConnId} (tended : p.Tended t.pool)
    (waiting : t.pool.pending.requests ≠ []) (taken : t.checkout w = (found, t')) :
    p.Tended t'.pool := by
  fun_induction Turn.checkout w t with
  | case1 t empty =>
    cases taken
    exact tended
  | case2 t id r first active =>
    cases taken
    exact tended.tail (.checkout waiting first)
  | case3 t id r first inactive ih =>
    have out : p.Tended (t.withRegistry r).pool := tended.tail (.checkout waiting first)
    exact ih (tended_discard out) (by rwa [pending_discard]) taken

theorem tended_serve (tended : p.Tended t.pool) : p.Tended (t.serve w).pool := by
  fun_induction Turn.serve w t with
  | case1 t nobody => exact tended
  | case2 t waiting id t' found r t'' popped ih =>
    have out := tended_checkout tended (by simpa using waiting) found
    exact ih (tended_deliver (tended_popLive out popped) r)
  | case3 t waiting id t' found t'' popped =>
    have out := tended_checkout tended (by simpa using waiting) found
    exact (tended_popLive out popped).tail (.putBack id)
  | case4 t waiting t' found room r t'' popped ih =>
    have out := tended_checkout tended (by simpa using waiting) found
    have taken : p.Tended (t''.disarm r).pool := by
      rw [pool_disarm]
      exact tended_popLive out popped
    exact ih (tended_openFor taken _)
  | case5 t waiting t' found room t'' popped =>
    exact tended_popLive (tended_checkout tended (by simpa using waiting) found) popped
  | case6 t waiting t' found full => exact tended_checkout tended (by simpa using waiting) found

theorem tended_servePending (tended : p.Tended t.pool) : p.Tended (t.servePending w).pool := by
  simp only [servePending]
  split
  · exact tended
  · exact tended_serve tended

theorem tended_answer? {reply : Option Ticket} {outcome : Outcome} (tended : p.Tended t.pool) :
    p.Tended (t.answer? reply outcome).pool := by
  cases reply <;> exact tended

theorem tended_takeBack (tended : p.Tended t.pool) (reply : Option Ticket) :
    p.Tended (t.takeBack w id reply).pool := by
  unfold takeBack
  split
  · exact tended_answer? (tended_discard tended)
  · split
    · exact tended_answer? tended
    · next serial r begun =>
      have ended : p.Tended (t.withRegistry r).pool := tended.tail (.beginCheck begun)
      dsimp only
      split
      · exact tended_answer? (tended_discard ended)
      · split
        · exact tended_answer? (tended_discard ended)
        · split
          · exact tended_answer? (tended_recycle ended)
          · split
            · exact ended
            · exact tended_answer? (tended_discard ended)

theorem tended_checked (tended : p.Tended t.pool) (healthy : Bool) (reply : Option Ticket) :
    p.Tended (t.checked w id healthy reply).pool := by
  unfold checked
  split
  · exact tended_answer? tended
  · apply tended_answer?
    split
    · exact tended_recycle tended
    · exact tended_discard tended

theorem tended_count (tended : p.Tended t.pool) (f : Counters → Counters) :
    p.Tended (t.count f).pool :=
  tended.tail (.count _)

theorem tended_timedOut (tended : p.Tended t.pool) (request : RequestId) :
    p.Tended (t.timedOut w request).pool := by
  unfold timedOut
  split
  · exact tended
  · next r queued =>
    have spent : p.Tended
        (t.withPending (t.pool.pending.replace request (t.pool.config.expire r).2)).pool := by
      apply tended.tail
      apply Pool.Upkeep.queue
      simp only [Pending.Queue.replace, List.length_set]
      exact Nat.le_refl _
    dsimp only
    split
    · split
      · next r' t' fetched =>
        rw [pool_fail]
        exact tended_count (tended_takePending spent fetched) _
      · next t' fetched => exact tended_takePending spent fetched
    · exact tended_openFor (tended_count spent _) _
    · exact spent

end Turn
end LoanPool
