import LoanPool.Pool.Turn

/-!
# Serving callers

How connections find callers: taking a usable idle one, handing one to a request, finding the
next request for one whose caller has gone, and serving the queue from whatever has become free.
Each loop uses up idle connections or waiting requests, and ends for that reason.
-/
namespace LoanPool
open Pending (Request)

namespace Registry

theorem length_idle_checkout? {r r' : Registry} {id : ConnId} (h : r.checkout? = some (id, r')) :
    r'.idle.length < r.idle.length := by
  unfold checkout? at h
  split at h
  · cases h
  · next eq =>
    simp only [Option.some.injEq, Prod.mk.injEq] at h
    obtain ⟨-, rfl⟩ := h
    rw [eq]
    split <;> simp

theorem length_idle_remove? {r r' : Registry} {id : ConnId} {serial : Serial}
    (h : r.remove? id = some (serial, r')) : r'.idle.length ≤ r.idle.length := by
  unfold remove? at h
  split at h
  · simp only [Option.some.injEq, Prod.mk.injEq] at h
    obtain ⟨-, rfl⟩ := h
    split
    · exact List.length_filter_le _ _
    · exact Nat.le_refl _
  · cases h

theorem length_idle_discard? {r r' : Registry} {confirms : Serial → Bool} {id : ConnId}
    {serial : Serial} (h : r.discard? confirms id = some (serial, r')) :
    r'.idle.length ≤ r.idle.length := by
  simp only [discard?, Option.map_eq_some_iff, Prod.exists] at h
  obtain ⟨_, mid, removed, eq⟩ := h
  have shorter := length_idle_remove? removed
  simp only [Prod.mk.injEq] at eq
  obtain ⟨-, rfl⟩ := eq
  split <;> exact shorter

end Registry

namespace Turn

theorem length_idle_discard (w : Surroundings) (t : Turn) (id : ConnId) :
    (t.discard w id).pool.registry.idle.length ≤ t.pool.registry.idle.length := by
  unfold discard
  split
  · next eq => exact Registry.length_idle_discard? eq
  · exact Nat.le_refl _

def reportsActive (w : Surroundings) (t : Turn) (id : ConnId) : Bool :=
  match t.pool.registry.serial? id with
  | some serial => w.active t.effects serial
  | none => false

/-- The next idle connection that reports itself usable. Those before it are closed. -/
def checkout (w : Surroundings) (t : Turn) : Option ConnId × Turn :=
  match _taken : t.pool.registry.checkout? with
  | none => (none, t)
  | some (id, r) =>
    if (t.withRegistry r).reportsActive w id then (some id, t.withRegistry r)
    else checkout w ((t.withRegistry r).discard w id)
termination_by t.pool.registry.idle.length
decreasing_by
  exact Nat.lt_of_le_of_lt (length_idle_discard w _ id) (Registry.length_idle_checkout? _taken)

theorem checkout_eq (w : Surroundings) (t : Turn) :
    t.checkout w = match t.pool.registry.checkout? with
      | none => (none, t)
      | some (id, r) =>
        if (t.withRegistry r).reportsActive w id then (some id, t.withRegistry r)
        else ((t.withRegistry r).discard w id).checkout w := by
  rw [checkout]
  split <;> next eq => rw [eq]

/-- Hands a connection in use to a request, the hook first. The answer tells whether the caller
turned out to have gone, which leaves the connection without a holder. -/
def attempt (w : Surroundings) (t : Turn) (r : Request) (id : ConnId) : Bool × Turn :=
  match t.pool.registry.serial? id with
  | none => (false, t.fail r .poolClosed)
  | some serial =>
    let called := t.call w .acquired serial
    match t.refusal w .acquired serial with
    | some reason => (false, (called.discard w id).fail r (.observer reason))
    | none =>
      let settled := called.disarm r
      if w.gone settled.effects r.ticket then (true, settled)
      else (false, settled.answer r.ticket (.loan id serial))

@[simp] theorem pending_attempt (w : Surroundings) (t : Turn) (r : Request) (id : ConnId) :
    (t.attempt w r id).2.pool.pending = t.pool.pending := by
  unfold attempt
  split
  · simp
  · dsimp only
    split
    · simp
    · split <;> simp

/-- Where a connection goes that nobody waits for: a surplus one is closed if the pool shrinks,
any other becomes idle. -/
def shelve (w : Surroundings) (t : Turn) (id : ConnId) : Turn :=
  if t.pool.config.overflow = .shrink ∧ t.pool.config.maxConnections < t.pool.registry.size then
    t.discard w id
  else t.checkIn id

def recycle (w : Surroundings) (t : Turn) (id : ConnId) : Turn :=
  match _popped : t.popLive w with
  | (none, t') => t'.shelve w id
  | (some r, t') =>
    let offered := (t'.handOver id).attempt w r id
    if offered.1 then recycle w offered.2 id else offered.2
termination_by t.pool.pending.requests.length
decreasing_by
  simp only [pending_attempt, pending_handOver]
  exact length_popLive _popped

theorem recycle_eq (w : Surroundings) (t : Turn) (id : ConnId) :
    t.recycle w id = match t.popLive w with
      | (none, t') => t'.shelve w id
      | (some r, t') =>
        let offered := (t'.handOver id).attempt w r id
        if offered.1 then offered.2.recycle w id else offered.2 := by
  rw [recycle]
  split <;> next eq => rw [eq]

/-- Hands a connection in use to a request; if its caller has gone, to the next one. -/
def deliver (w : Surroundings) (t : Turn) (r : Request) (id : ConnId) : Turn :=
  let offered := t.attempt w r id
  if offered.1 then offered.2.recycle w id else offered.2

@[simp] theorem pending_shelve (w : Surroundings) (t : Turn) (id : ConnId) :
    (t.shelve w id).pool.pending = t.pool.pending := by
  unfold shelve
  split
  · exact pending_discard w t id
  · rfl

theorem length_recycle (w : Surroundings) (t : Turn) (id : ConnId) :
    (t.recycle w id).pool.pending.requests.length ≤ t.pool.pending.requests.length := by
  rw [recycle_eq]
  match popped : t.popLive w with
  | (none, t') => simp [requests_popLive_none popped]
  | (some r, t') =>
    have shorter := length_popLive popped
    dsimp only
    split
    · have := length_recycle w ((t'.handOver id).attempt w r id).2 id
      simp only [pending_attempt, pending_handOver] at this
      omega
    · simp only [pending_attempt, pending_handOver]
      omega
termination_by t.pool.pending.requests.length
decreasing_by
  simp only [pending_attempt, pending_handOver]
  exact length_popLive popped

theorem length_deliver (w : Surroundings) (t : Turn) (r : Request) (id : ConnId) :
    (t.deliver w r id).pool.pending.requests.length ≤ t.pool.pending.requests.length := by
  unfold deliver
  dsimp only
  split
  · exact Nat.le_trans (length_recycle w _ id) (by simp)
  · simp

@[simp] theorem pending_checkout (w : Surroundings) (t : Turn) :
    (t.checkout w).2.pool.pending = t.pool.pending := by
  rw [checkout_eq]
  match taken : t.pool.registry.checkout? with
  | none => rfl
  | some (id, r) =>
    dsimp only
    split
    · rfl
    · rw [pending_checkout w ((t.withRegistry r).discard w id)]; simp
termination_by t.pool.registry.idle.length
decreasing_by
  exact Nat.lt_of_le_of_lt (length_idle_discard w _ id) (Registry.length_idle_checkout? taken)

def serve (w : Surroundings) (t : Turn) : Turn :=
  if t.pool.pending.requests.isEmpty then t
  else
    match _found : t.checkout w with
    | (some id, t') =>
      match _popped : t'.popLive w with
      | (some r, t'') => serve w (t''.deliver w r id)
      | (none, t'') => t''.putBack id
    | (none, t') =>
      if t'.pool.registry.acquired < t'.pool.config.maxConnections then
        match _popped : t'.popLive w with
        | (some r, t'') => serve w ((t''.disarm r).openFor w (.owned { r with timer := none }))
        | (none, t'') => t''
      else t'
termination_by t.pool.pending.requests.length
decreasing_by
  all_goals
    have kept := pending_checkout w t
    rw [_found] at kept
    have shorter := length_popLive _popped
    dsimp only at kept
    rw [kept] at shorter
  · exact Nat.lt_of_le_of_lt (length_deliver w t'' r id) shorter
  · simpa only [pending_openFor_owned, pool_disarm] using shorter

theorem serve_eq (w : Surroundings) (t : Turn) :
    t.serve w =
      if t.pool.pending.requests.isEmpty then t
      else match t.checkout w with
        | (some id, t') =>
          match t'.popLive w with
          | (some r, t'') => (t''.deliver w r id).serve w
          | (none, t'') => t''.putBack id
        | (none, t') =>
          if t'.pool.registry.acquired < t'.pool.config.maxConnections then
            match t'.popLive w with
            | (some r, t'') => ((t''.disarm r).openFor w (.owned { r with timer := none })).serve w
            | (none, t'') => t''
          else t' := by
  rw [serve]
  split
  · rfl
  · split
    · next eq =>
      rw [eq]
      dsimp only
      split <;> next eq => rw [eq]
    · next eq =>
      rw [eq]
      dsimp only
      split
      · split <;> next eq => rw [eq]
      · rfl

def servePending (w : Surroundings) (t : Turn) : Turn :=
  if t.pool.closed then t else t.serve w

end Turn
end LoanPool
