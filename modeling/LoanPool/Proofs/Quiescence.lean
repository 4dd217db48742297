import LoanPool.Pool.Handle
import LoanPool.Proofs.Registry.Slots

/-!
# Quiescence

A pool is quiet when nobody waits, or nothing is left to serve anybody with. Serving the queue ends
in a quiet pool, whatever the surroundings answer on the way, and has nothing to do in one.
-/
namespace LoanPool
open Pending (Request)

def Pool.Quiet (p : Pool) : Prop :=
  p.pending.requests = [] ∨
    p.registry.idle = [] ∧ p.config.maxConnections ≤ p.registry.acquired

namespace Turn
variable {w : Surroundings} {t t' : Turn} {id : ConnId}

/-! ### Taking from the queue -/

theorem registry_popFrom {rs : List Request} {found : Option Request}
    (popped : t.popFrom w rs = (found, t')) :
    t'.pool.registry = t.pool.registry ∧ t'.pool.config = t.pool.config := by
  induction rs generalizing t with
  | nil =>
    cases popped
    exact ⟨rfl, rfl⟩
  | cons r rest ih =>
    simp only [popFrom] at popped
    split at popped
    · have later := ih popped
      simpa [withPending] using later
    · cases popped
      exact ⟨rfl, rfl⟩

theorem registry_popLive {found : Option Request} (popped : t.popLive w = (found, t')) :
    t'.pool.registry = t.pool.registry :=
  (registry_popFrom popped).1

theorem config_popLive {found : Option Request} (popped : t.popLive w = (found, t')) :
    t'.pool.config = t.pool.config :=
  (registry_popFrom popped).2

theorem registry_takePending {request : RequestId} {found : Option Request}
    (fetched : t.takePending request = (found, t')) : t'.pool.registry = t.pool.registry := by
  simp only [takePending] at fetched
  split at fetched <;> cases fetched <;> rfl

theorem config_takePending {request : RequestId} {found : Option Request}
    (fetched : t.takePending request = (found, t')) : t'.pool.config = t.pool.config := by
  simp only [takePending] at fetched
  split at fetched <;> cases fetched <;> rfl

theorem log_takePending {request : RequestId} {found : Option Request}
    (fetched : t.takePending request = (found, t')) : t'.log = t.log := by
  simp only [takePending] at fetched
  split at fetched <;> cases fetched <;> rfl

theorem find?_takePending {request : RequestId} {r : Request}
    (fetched : t.takePending request = (some r, t')) : t.pool.pending.find? request = some r := by
  simp only [takePending] at fetched
  split at fetched
  · next r' q removed =>
    cases fetched
    simp only [Pending.Queue.remove?, Option.map_eq_some_iff, Prod.mk.injEq] at removed
    obtain ⟨found, queued, rfl, -⟩ := removed
    exact queued
  · cases fetched

/-! ### Taking an idle connection -/

theorem slot_checkout (taken : t.checkout w = (some id, t')) :
    t'.pool.registry.slot? id = some .onLoan := by
  fun_induction Turn.checkout w t with
  | case1 t empty => cases taken
  | case2 t first r found active =>
    cases taken
    -- Only a connection that is known reports itself active.
    have known : (r.slot? id).isSome := by
      simp only [reportsActive, Registry.serial?] at active
      rw [Registry.slot?, Option.isSome_map]
      cases entry : r.find? id with
      | some e => rfl
      | none => simp [entry] at active
    have slot := Registry.slot?_checkout? (i := id) found
    rw [if_pos rfl] at slot
    simp only [registry_withRegistry]
    rw [slot] at known ⊢
    cases before : t.pool.registry.slot? id with
    | some s => rfl
    | none => simp [before] at known
  | case3 t first r found inactive ih => exact ih taken

theorem checkout_of_drained (drained : t.pool.registry.idle = []) : t.checkout w = (none, t) := by
  rw [checkout_eq, Registry.checkout?, drained]

/-- When there is none to take, none is idle. -/
theorem idle_checkout (none_left : t.checkout w = (none, t')) : t'.pool.registry.idle = [] := by
  fun_induction Turn.checkout w t with
  | case1 t empty =>
    cases none_left
    simp only [Registry.checkout?] at empty
    split at empty
    · assumption
    · cases empty
  | case2 t first r found active => cases none_left
  | case3 t first r found inactive ih => exact ih none_left

theorem closed_discard : (t.discard w id).pool.closed = t.pool.closed := by
  simp only [discard]
  split <;> rfl

theorem closed_checkout {found : Option ConnId} (taken : t.checkout w = (found, t')) :
    t'.pool.closed = t.pool.closed := by
  fun_induction Turn.checkout w t with
  | case1 t empty =>
    cases taken
    rfl
  | case2 t first r found active =>
    cases taken
    rfl
  | case3 t first r found inactive ih =>
    rw [ih taken, closed_discard]
    rfl

theorem nextRequest_discard : (t.discard w id).pool.nextRequest = t.pool.nextRequest := by
  simp only [discard]
  split <;> rfl

theorem nextRequest_checkout {found : Option ConnId} (taken : t.checkout w = (found, t')) :
    t'.pool.nextRequest = t.pool.nextRequest := by
  fun_induction Turn.checkout w t with
  | case1 t empty =>
    cases taken
    rfl
  | case2 t first r found active =>
    cases taken
    rfl
  | case3 t first r found inactive ih =>
    rw [ih taken, nextRequest_discard]
    rfl

theorem closed_evictAll (order : List ConnId) :
    (order.foldl (discard w) t).pool.closed = t.pool.closed := by
  induction order generalizing t with
  | nil => rfl
  | cons id rest ih => exact ih.trans closed_discard

theorem closed_shutDown : (t.shutDown w).pool.closed = true := by
  unfold shutDown shutDownIn
  rw [closed_evictAll, pool_failAll]

theorem entries_discard : (t.discard w id).pool.registry.entries =
    t.pool.registry.entries.filter (·.id ≠ id) := by
  simp only [discard]
  split
  · next removed => exact Registry.entries_discard? removed
  · next kept =>
    have unknown := Registry.find?_eq_none.mp (Registry.find?_of_kept kept)
    refine (List.filter_eq_self.mpr fun e member => ?_).symm
    rw [decide_eq_true_eq]
    rintro rfl
    exact unknown (List.mem_map_of_mem member)

theorem entries_evictAll (order : List ConnId) :
    (order.foldl (discard w) t).pool.registry.entries =
      t.pool.registry.entries.filter (·.id ∉ order) := by
  induction order generalizing t with
  | nil => exact (List.filter_eq_self.mpr fun _ _ => by simp).symm
  | cons id rest ih =>
    rw [List.foldl_cons, ih, entries_discard, List.filter_filter]
    congr 1
    funext e
    simp [Bool.and_comm]

theorem entries_shutDown : (t.shutDown w).pool.registry.entries = [] := by
  unfold shutDown shutDownIn
  rw [entries_evictAll, pool_failAll, List.filter_eq_nil_iff]
  intro e member
  simp only [decide_not, Bool.not_eq_true, Bool.not_eq_false', decide_eq_true_eq]
  exact List.mem_map_of_mem member

/-! ### Offering a connection -/

theorem pool_attempt {r : Request} (left : (t.attempt w r id).1 = true) :
    (t.attempt w r id).2.pool = t.pool := by
  unfold attempt at left ⊢
  split at left
  · cases left
  · dsimp only at left ⊢
    split at left
    · cases left
    · next serial known _ accepted =>
      split at left
      · next gone => simp [gone]
      · cases left

theorem slot_handOver {found : Option Request} {slot : Slot}
    (known : t.pool.registry.slot? id = some slot) (used : slot ≠ .idle)
    (popped : t.popLive w = (found, t')) :
    (t'.handOver id).pool.registry.slot? id = some .onLoan := by
  simp only [handOver, registry_withRegistry, registry_popLive popped,
    Registry.slot?_handOver, true_and]
  split
  · rfl
  · next unchecked =>
    cases slot with
    | idle => exact absurd rfl used
    | onLoan => exact known
    | checking => exact absurd known unchecked

/-! ### What serving leaves open -/

theorem closed_popFrom {rs : List Request} {found : Option Request}
    (popped : t.popFrom w rs = (found, t')) : t'.pool.closed = t.pool.closed := by
  induction rs generalizing t with
  | nil =>
    cases popped
    rfl
  | cons r rest ih =>
    simp only [popFrom] at popped
    split at popped
    · rw [ih popped, pool_disarm]
      rfl
    · cases popped
      rfl

theorem closed_popLive {found : Option Request} (popped : t.popLive w = (found, t')) :
    t'.pool.closed = t.pool.closed :=
  closed_popFrom popped

theorem closed_attempt {r : Request} : (t.attempt w r id).2.pool.closed = t.pool.closed := by
  unfold attempt
  split
  · simp
  · dsimp only
    split
    · rw [pool_fail, closed_discard, pool_call]
    · split <;> simp

theorem closed_shelve : (t.shelve w id).pool.closed = t.pool.closed := by
  unfold shelve
  split
  · exact closed_discard
  · rfl

theorem closed_recycle : (t.recycle w id).pool.closed = t.pool.closed := by
  fun_induction Turn.recycle w t id with
  | case1 t t' popped => rw [closed_shelve, closed_popLive popped]
  | case2 t r t' popped offered left ih =>
    rw [ih, closed_attempt]
    exact (closed_popLive popped :)
  | case3 t r t' popped offered taken =>
    rw [closed_attempt]
    exact (closed_popLive popped :)

theorem closed_deliver {r : Request} : (t.deliver w r id).pool.closed = t.pool.closed := by
  simp only [deliver]
  split
  · rw [closed_recycle, closed_attempt]
  · exact closed_attempt

theorem closed_openFor {r : Request} : (t.openFor w (.owned r)).pool.closed = t.pool.closed := by
  simp only [openFor]
  split
  · rfl
  · rw [failTarget, pool_fail]

/-! ### Serving the queue -/

/-- Serving ends when nobody waits or nothing is left, and not before. -/
theorem quiet_serve (w : Surroundings) (t : Turn) : (t.serve w).pool.Quiet := by
  -- The loop is left where the queue is empty, or where neither a connection nor room is found.
  fun_induction Turn.serve w t with
  | case1 t nobody => exact .inl (List.isEmpty_iff.mp nobody)
  | case2 t waiting id t' found r t'' popped ih => exact ih
  | case3 t waiting id t' found t'' popped =>
    have nobody : t''.pool.pending.requests = [] := requests_popLive_none popped
    exact .inl nobody
  | case4 t waiting t' found room r t'' popped ih => exact ih
  | case5 t waiting t' found room t'' popped => exact .inl (requests_popLive_none popped)
  | case6 t waiting t' found full => exact .inr ⟨idle_checkout found, Nat.le_of_not_lt full⟩

theorem pool_answerAll (ks : List Ticket) (outcome : Outcome) :
    (ks.foldl (fun t k => t.answer k outcome) t).pool = t.pool := by
  induction ks generalizing t with
  | nil => rfl
  | cons k rest ih => exact ih

theorem pool_finishClose : t.finishClose.pool = { t.pool with closeWaiters := [] } :=
  pool_answerAll _ _

theorem quiet_settleClose (quiet : t.pool.Quiet) : t.settleClose.pool.Quiet := by
  simp only [settleClose]
  split
  · rw [pool_finishClose]
    exact quiet
  · exact quiet

theorem closed_settleClose : t.settleClose.pool.closed = t.pool.closed := by
  simp only [settleClose]
  split
  · rw [pool_finishClose]
  · rfl

theorem pending_settleClose : t.settleClose.pool.pending = t.pool.pending := by
  simp only [settleClose]
  split
  · rw [pool_finishClose]
  · rfl

theorem serve_of_quiet (w : Surroundings) (quiet : t.pool.Quiet) : t.serve w = t := by
  rw [serve_eq]
  split
  · rfl
  · next waiting =>
    rcases quiet with nobody | ⟨drained, full⟩
    · exact absurd (List.isEmpty_iff.mpr nobody) waiting
    · simp only [checkout_of_drained drained, Nat.not_lt.mpr full, if_false]

theorem servePending_of_quiet (w : Surroundings) (quiet : t.pool.Quiet) :
    t.servePending w = t := by
  simp only [servePending]
  split
  · rfl
  · exact serve_of_quiet w quiet

end Turn

/-- A turn ends in a quiet pool if a closed pool has no waiters. -/
theorem Pool.quiet_respond {w : Surroundings} {p : Pool} {c : Option Command}
    (shut : (p.respond w c).pool.closed = true → (p.respond w c).pool.pending.requests = []) :
    (p.respond w c).pool.Quiet := by
  cases c with
  | some c =>
    -- A pool that is open has served its queue; one that is closed has none.
    simp only [respond, handle, Turn.closed_settleClose, Turn.pending_settleClose] at shut ⊢
    apply Turn.quiet_settleClose
    simp only [Turn.servePending] at shut ⊢
    split
    · next closed =>
      rw [if_pos closed] at shut
      exact .inl (shut closed)
    · exact Turn.quiet_serve w _
  | none =>
    have closed : (p.respond w none).pool.closed = true := by
      rw [respond, finish, Turn.pool_finishClose]
      exact Turn.closed_shutDown
    exact .inl (shut closed)

end LoanPool
