import LoanPool.Proofs.Agenda
import LoanPool.Proofs.Lineup
import LoanPool.Proofs.Quiescence
import LoanPool.Proofs.Surplus

/-!
# The work of a turn

How much is done on one command. The agenda of a turn comes to its end after a number of chores that
the queue and the idle connections bound. Whoever is offered a connection has left the queue, or has
come with the command itself, and no other request is queued on the way. Nothing is supposed of what
the surroundings answer, from one question to the next.
-/
namespace LoanPool
open Pending (Request Queue)

def Effect.isOffer : Effect → Bool
  | .hook .acquired _ _ => true
  | _ => false

namespace Turn

def offers (t : Turn) : Nat :=
  t.effects.countP (·.isOffer)

end Turn

/-! ### Moves that make no work -/

theorem Registry.length_idle_checkIn (r : Registry) (id : ConnId) :
    ((r.checkIn? id).getD r).idle.length ≤ r.idle.length + 1 := by
  cases parked : r.park? id with
  | none => simp [checkIn?, parked]
  | some r' =>
    simp only [checkIn?, parked, Option.map_some, Option.getD_some, idle_park? parked]
    split <;> simp

namespace Turn

structure Eases (t t' : Turn) : Prop where
  keys : t'.pool.pending.keys.Sublist t.pool.pending.keys
  idle : t'.pool.registry.idle.length ≤ t.pool.registry.idle.length
  offers : t'.offers = t.offers

variable {w : Surroundings} {t t' t'' : Turn} {id : ConnId}

theorem Eases.waiting (eases : t.Eases t') :
    t'.pool.pending.requests.length ≤ t.pool.pending.requests.length := by
  have shorter := eases.keys.length_le
  simpa only [Queue.keys, List.length_map] using shorter

theorem eases_refl (t : Turn) : t.Eases t :=
  ⟨List.Sublist.refl _, Nat.le_refl _, rfl⟩

theorem Eases.trans (first : t.Eases t') (then_ : t'.Eases t'') : t.Eases t'' :=
  ⟨then_.keys.trans first.keys, Nat.le_trans then_.idle first.idle,
    then_.offers.trans first.offers⟩

theorem offers_emit (t : Turn) (e : Effect) : (t.emit e).offers = t.offers + e.isOffer.toNat := by
  simp only [offers, effects, emit, List.map_append, List.countP_append, List.map_singleton,
    countP_cons_toNat, List.countP_nil, Nat.add_zero]

theorem eases_emit (t : Turn) {e : Effect} (other : e.isOffer = false) : t.Eases (t.emit e) := by
  refine ⟨List.Sublist.refl _, Nat.le_refl _, ?_⟩
  rw [offers_emit, other]
  rfl

theorem eases_answer? (t : Turn) (reply : Option Ticket) (outcome : Outcome) :
    t.Eases (t.answer? reply outcome) := by
  cases reply with
  | none => exact eases_refl t
  | some ticket => exact eases_emit t rfl

theorem eases_answerAll (t : Turn) (ks : List Ticket) (outcome : Outcome) :
    t.Eases (ks.foldl (fun t k => t.answer k outcome) t) := by
  induction ks generalizing t with
  | nil => exact eases_refl t
  | cons k rest ih => exact (eases_emit t rfl).trans (ih _)

theorem eases_disarm (t : Turn) (r : Request) : t.Eases (t.disarm r) := by
  simp only [disarm]
  split
  · exact eases_emit t rfl
  · exact eases_refl t

theorem eases_disarmAll (t : Turn) (rs : List Request) : t.Eases (t.disarmAll rs) := by
  induction rs generalizing t with
  | nil => exact eases_refl t
  | cons r rest ih => exact (eases_disarm t r).trans (ih (t.disarm r))

theorem eases_fail (t : Turn) (r : Request) (cause : PoolError) : t.Eases (t.fail r cause) :=
  (eases_disarm t r).trans (eases_emit _ rfl)

theorem eases_failAll (t : Turn) (rs : List Request) (cause : PoolError) :
    t.Eases (rs.foldl (fun t r => t.fail r cause) t) := by
  induction rs generalizing t with
  | nil => exact eases_refl t
  | cons r rest ih => exact (eases_fail t r cause).trans (ih _)

theorem eases_withRegistry (t : Turn) {r : Registry}
    (fewer : r.idle.length ≤ t.pool.registry.idle.length) : t.Eases (t.withRegistry r) :=
  ⟨List.Sublist.refl _, fewer, rfl⟩

theorem eases_withPending (t : Turn) {q : Queue} (fewer : q.keys.Sublist t.pool.pending.keys) :
    t.Eases (t.withPending q) :=
  ⟨fewer, Nat.le_refl _, rfl⟩

theorem eases_count (t : Turn) (f : Counters → Counters) : t.Eases (t.count f) :=
  ⟨List.Sublist.refl _, Nat.le_refl _, rfl⟩

theorem eases_discard (w : Surroundings) (t : Turn) (id : ConnId) : t.Eases (t.discard w id) := by
  simp only [discard]
  split
  · next serial r removed =>
    have fewer := Registry.length_idle_discard? removed
    exact (eases_withRegistry t fewer).trans (eases_emit _ rfl)
  · exact eases_refl t

theorem eases_evictAll (w : Surroundings) (t : Turn) (order : List ConnId) :
    t.Eases (order.foldl (discard w) t) := by
  induction order generalizing t with
  | nil => exact eases_refl t
  | cons id rest ih => exact (eases_discard w t id).trans (ih _)

theorem eases_handOver (t : Turn) (id : ConnId) : t.Eases (t.handOver id) :=
  eases_withRegistry t (Nat.le_of_eq (congrArg List.length (Registry.idle_handOver _ _)))

theorem eases_popFrom {rs : List Request} {found : Option Request}
    (all : t.pool.pending.requests = rs) (popped : t.popFrom w rs = (found, t')) : t.Eases t' := by
  induction rs generalizing t with
  | nil =>
    cases popped
    exact eases_refl _
  | cons r rest ih =>
    have shorter : t.Eases (t.withPending { t.pool.pending with requests := rest }) := by
      apply eases_withPending
      rw [Queue.keys, Queue.keys, all]
      exact List.sublist_cons_self _ _
    simp only [popFrom] at popped
    split at popped
    · have left : t.Eases _ := shorter.trans (eases_disarm _ r)
      exact left.trans (ih (by simp) popped)
    · cases popped
      exact shorter

theorem eases_popLive {found : Option Request} (popped : t.popLive w = (found, t')) :
    t.Eases t' :=
  eases_popFrom rfl popped

theorem eases_prune (w : Surroundings) (t : Turn) : t.Eases (t.prune w) := by
  have kept : (t.pool.pending.prune (w.gone t.effects)).keys.Sublist t.pool.pending.keys :=
    List.filter_sublist.map _
  exact (eases_withPending t kept).trans (eases_disarmAll _ _)

theorem eases_takePending {request : RequestId} {found : Option Request}
    (fetched : t.takePending request = (found, t')) : t.Eases t' := by
  simp only [takePending] at fetched
  split at fetched
  · next r rest removed =>
    cases fetched
    exact eases_withPending t ((sublist_remove? removed).map _)
  · cases fetched
    exact eases_refl t

theorem length_takePending_some {request : RequestId} {r : Request}
    (fetched : t.takePending request = (some r, t')) :
    t'.pool.pending.requests.length + 1 = t.pool.pending.requests.length := by
  simp only [takePending] at fetched
  split at fetched
  · next r' rest removed =>
    cases fetched
    obtain ⟨found, queued, eq⟩ := Option.map_eq_some_iff.mp removed
    cases eq
    have named := List.find?_some queued
    exact List.length_eraseP_add_one (List.mem_of_find?_eq_some queued) named
  · cases fetched

theorem eases_failTarget (t : Turn) (target : Target) (cause : PoolError) :
    t.Eases (t.failTarget target cause) := by
  cases target with
  | owned r => exact eases_fail t r cause
  | queued request =>
    simp only [failTarget]
    split
    · next r t' fetched => exact (eases_takePending fetched).trans (eases_fail t' r cause)
    · next t' fetched => exact eases_takePending fetched

theorem eases_openFor (w : Surroundings) (t : Turn) (target : Target) :
    t.Eases (t.openFor w target) := by
  simp only [openFor]
  split
  · have reserved : t.Eases (t.withRegistry t.pool.registry.reserve) :=
      eases_withRegistry t (Nat.le_refl _)
    exact reserved.trans (eases_emit _ rfl)
  · exact eases_failTarget t target _

theorem eases_settleClose (t : Turn) : t.Eases t.settleClose := by
  simp only [settleClose]
  split
  · have unasked : t.Eases { t with pool := { t.pool with closeWaiters := [] } } :=
      ⟨List.Sublist.refl _, Nat.le_refl _, rfl⟩
    exact unasked.trans (eases_answerAll _ _ _)
  · exact eases_refl t

theorem eases_shutDown (w : Surroundings) (t : Turn) : t.Eases (t.shutDown w) := by
  have emptied : t.Eases { t with
      pool := { t.pool with closed := true, pending := { t.pool.pending with requests := [] } } } :=
    ⟨List.nil_sublist _, Nat.le_refl _, rfl⟩
  exact (emptied.trans (eases_failAll _ _ _)).trans (eases_evictAll w _ _)

theorem eases_close (w : Surroundings) (t : Turn) (ticket : Ticket) :
    t.Eases (t.close w ticket) := by
  simp only [close]
  split
  · exact eases_emit t rfl
  · have shut := eases_shutDown w t
    exact ⟨shut.keys, shut.idle, shut.offers⟩

theorem eases_timedOut (w : Surroundings) (t : Turn) (request : RequestId) :
    t.Eases (t.timedOut w request) := by
  simp only [timedOut]
  split
  · exact eases_refl t
  next r found =>
  have replaced : t.Eases (t.withPending (t.pool.pending.replace request
      (t.pool.config.expire r).2)) := by
    apply eases_withPending
    rw [keys_replace found (key_expire _ _)]
  refine replaced.trans ?_
  split
  · split
    · next r' t' fetched =>
      exact ((eases_takePending fetched).trans (eases_count t' _)).trans (eases_fail _ r' _)
    · next t' fetched => exact eases_takePending fetched
  · exact (eases_count _ _).trans (eases_openFor w _ _)
  · exact eases_refl _

theorem lineUp_joins (w : Surroundings) (t : Turn) (r : Request) :
    t.Eases (t.lineUp w r) ∨
      ∃ t' r', t.Eases t' ∧ r'.key = r.key ∧
        t.lineUp w r = t'.withPending (t'.pool.pending.push r') := by
  have pruned := eases_prune w t
  simp only [lineUp]
  split
  · exact .inl ((pruned.trans (eases_count _ _)).trans (eases_fail _ r _))
  · simp only [enqueue]
    split
    · next timeout _ =>
      exact .inr ⟨_, { r with timer := some ⟨r.id.number⟩ }, pruned.trans (eases_emit _ rfl), rfl,
        rfl⟩
    · exact .inr ⟨_, _, pruned, rfl, rfl⟩

/-- A connection is offered once, at most, when it is brought to somebody. -/
theorem eases_attempt (w : Surroundings) (t : Turn) (r : Request) (id : ConnId) :
    t.Eases (t.attempt w r id).2 ∨
      ∃ serial, (t.call w .acquired serial).Eases (t.attempt w r id).2 := by
  simp only [attempt]
  split
  · exact .inl (eases_fail t r _)
  next serial known =>
  refine .inr ⟨serial, ?_⟩
  split
  · exact (eases_discard w _ id).trans (eases_fail _ r _)
  split
  · exact eases_disarm _ r
  · exact (eases_disarm _ r).trans (eases_emit _ rfl)

end Turn

/-! ### What is left to be done -/

namespace Chore

/-- What a chore may cost. A newcomer has paid for its place in the queue beforehand. -/
def weight : Chore → Nat
  | .look none => 1
  | .look (some _) => 5
  | .deliver _ _ => 3
  | .recycle _ => 2
  | .serve => 2
  | .servePending => 3
  | .answer? _ _ => 1
  | .settleClose => 1

def load : List Chore → Nat
  | [] => 0
  | chore :: rest => chore.weight + load rest

theorem load_append (chores more : List Chore) :
    load (chores ++ more) = load chores + load more := by
  induction chores with
  | nil => exact (Nat.zero_add _).symm
  | cons chore rest ih => rw [List.cons_append, load, load, ih, Nat.add_assoc]

def newcomer? : Chore → Option Request
  | .look newcomer => newcomer
  | _ => none

def held? : Chore → Option Request
  | .look newcomer => newcomer
  | .deliver r _ => some r
  | _ => none

end Chore

namespace Agenda

/-- What is left to be done, and what can come of it. A request that is taken from the queue pays
for four chores, an idle connection that is looked at for one. -/
def remaining (a : Agenda) : Nat :=
  4 * a.turn.pool.stats.pending + a.turn.pool.stats.idle + Chore.load a.chores

def held (a : Agenda) : List Request :=
  a.chores.filterMap (·.held?)

def prospects (a : Agenda) : Nat :=
  a.turn.offers + a.held.length + a.turn.pool.stats.pending

def line (a : Agenda) : List (RequestId × Ticket) :=
  a.turn.pool.pending.keys ++ (a.chores.filterMap (·.newcomer?)).map (·.key)

structure Progress (a a' : Agenda) : Prop where
  remaining : a'.remaining < a.remaining
  prospects : a'.prospects ≤ a.prospects
  line : a'.line.Sublist a.line

theorem progress_followedBy {t : Turn} {chores : List Chore} {a : Agenda}
    (progress : Progress ⟨t, chores⟩ a) (rest : List Chore) :
    Progress ⟨t, chores ++ rest⟩ (a.followedBy rest) := by
  obtain ⟨remaining, prospects, line⟩ := progress
  simp only [Agenda.remaining, Agenda.prospects, Agenda.line, held] at remaining prospects line
  refine ⟨?_, ?_, ?_⟩
  · simp only [followedBy, Agenda.remaining, Chore.load_append]
    omega
  · simp only [followedBy, Agenda.prospects, held, List.filterMap_append, List.length_append]
    omega
  · simp only [followedBy, Agenda.line, List.filterMap_append, List.map_append,
      ← List.append_assoc]
    exact line.append_right _

/-- What makes no work may come first. -/
theorem progress_after {t t' : Turn} (eases : t.Eases t') {chores : List Chore} {a : Agenda}
    (progress : Progress ⟨t', chores⟩ a) : Progress ⟨t, chores⟩ a := by
  have waiting := eases.waiting
  have idle := eases.idle
  have offers := eases.offers
  obtain ⟨less, kept, among⟩ := progress
  refine ⟨Nat.lt_of_lt_of_le less ?_, Nat.le_trans kept ?_, among.trans ?_⟩
  · simp only [remaining, Pool.stats]
    omega
  · simp only [prospects, held, Pool.stats]
    omega
  · exact eases.keys.append_right _

/-- What is done about a chore is paid for by what has left the queue and the idle connections. -/
theorem progress_of_paid {t t' : Turn} (eases : t.Eases t') {chores left : List Chore}
    (paid : 4 * t'.pool.stats.pending + t'.pool.stats.idle + Chore.load left <
      4 * t.pool.stats.pending + t.pool.stats.idle + Chore.load chores)
    (held : (left.filterMap (·.held?)).length + t'.pool.stats.pending ≤
      (chores.filterMap (·.held?)).length + t.pool.stats.pending)
    (newcomers : (left.filterMap (·.newcomer?)).Sublist (chores.filterMap (·.newcomer?))) :
    Progress ⟨t, chores⟩ ⟨t', left⟩ := by
  refine ⟨paid, ?_, eases.keys.append (newcomers.map _)⟩
  simp only [prospects, Agenda.held, eases.offers]
  omega

theorem progress_of_lighter {t t' : Turn} (eases : t.Eases t') {chores left : List Chore}
    (lighter : Chore.load left < Chore.load chores)
    (unheld : left.filterMap (·.held?) = []) (settled : left.filterMap (·.newcomer?) = []) :
    Progress ⟨t, chores⟩ ⟨t', left⟩ := by
  have waiting : t'.pool.stats.pending ≤ t.pool.stats.pending := eases.waiting
  have idle : t'.pool.stats.idle ≤ t.pool.stats.idle := eases.idle
  refine progress_of_paid eases (by omega) ?_ ?_
  · rw [unheld, List.length_nil]
    omega
  · rw [settled]
    exact List.nil_sublist _

theorem progress_of_taken {t t' : Turn} (eases : t.Eases t') {chores left : List Chore}
    (taken : t'.pool.stats.idle < t.pool.stats.idle)
    (weight : Chore.load left ≤ Chore.load chores)
    (held : (left.filterMap (·.held?)).length ≤ (chores.filterMap (·.held?)).length)
    (newcomers : (left.filterMap (·.newcomer?)).Sublist (chores.filterMap (·.newcomer?))) :
    Progress ⟨t, chores⟩ ⟨t', left⟩ := by
  have waiting : t'.pool.stats.pending ≤ t.pool.stats.pending := eases.waiting
  exact progress_of_paid eases (by omega) (Nat.add_le_add held waiting) newcomers

/-- A request that leaves the queue pays for what is done about it. -/
theorem progress_of_popped {t t' : Turn} (eases : t.Eases t') {chores left : List Chore}
    (fewer : t'.pool.stats.pending < t.pool.stats.pending)
    (paid : t'.pool.stats.idle + Chore.load left <
      t.pool.stats.idle + (Chore.load chores + 4))
    (one : (left.filterMap (·.held?)).length ≤ 1) (settled : left.filterMap (·.newcomer?) = []) :
    Progress ⟨t, chores⟩ ⟨t', left⟩ := by
  refine progress_of_paid eases (by omega) (by omega) ?_
  rw [settled]
  exact List.nil_sublist _

end Agenda

namespace Turn
open Agenda (Progress progress_after progress_of_lighter progress_of_taken progress_of_popped)
variable {w : Surroundings} {t t' : Turn} {id : ConnId}

/-! ### Every chore makes progress -/

theorem progress_found (w : Surroundings) {r : Registry}
    (taken : r.idle.length < t.pool.registry.idle.length) (id : ConnId)
    (newcomer : Option Request) :
    Progress ⟨t, [.look newcomer]⟩ ((t.withRegistry r).found w id newcomer) := by
  have less : t.Eases (t.withRegistry r) := eases_withRegistry t (Nat.le_of_lt taken)
  cases newcomer with
  | some newcomer =>
    exact progress_of_taken less taken (Nat.le_add_right 3 2) (Nat.le_refl 1) (List.nil_sublist _)
  | none =>
    simp only [found]
    split
    · next r' t' popped =>
      have eases := less.trans (eases_popLive popped)
      have fewer := length_popLive popped
      have idle := Nat.lt_of_le_of_lt (eases_popLive popped).idle taken
      refine progress_of_popped eases fewer ?_ (Nat.le_refl 1) rfl
      exact Nat.add_lt_add_of_lt_of_le idle (show 3 + 2 ≤ 1 + 4 by decide)
    · next t' popped =>
      -- The connection was idle before, so there is room for it.
      have eases := eases_popLive popped
      have idle : t'.pool.registry.idle.length ≤ r.idle.length := eases.idle
      have back : (t'.putBack id).pool.registry.idle.length ≤ t'.pool.registry.idle.length + 1 :=
        Registry.length_idle_putBack _ id
      have undone : t.Eases (t'.putBack id) :=
        ⟨eases.keys, by omega, eases.offers.trans less.offers⟩
      exact progress_of_lighter undone Nat.zero_lt_one rfl rfl

theorem progress_lineUp (w : Surroundings) (t : Turn) (r : Request) :
    Progress ⟨t, [.look (some r)]⟩ ⟨t.lineUp w r, []⟩ := by
  rcases lineUp_joins w t r with eases | ⟨t', r', eases, same, joined⟩
  · exact progress_of_lighter eases (Nat.succ_pos 4) rfl rfl
  have longer : (t'.pool.pending.push r').requests.length =
      t'.pool.pending.requests.length + 1 := List.length_append
  have last : (t'.pool.pending.push r').keys = t'.pool.pending.keys ++ [r.key] := by
    rw [← same]
    exact List.map_append
  rw [joined]
  refine progress_after eases ⟨?_, ?_, ?_⟩
  · change 4 * (t'.pool.pending.push r').requests.length + t'.pool.registry.idle.length + 0 <
      4 * t'.pool.pending.requests.length + t'.pool.registry.idle.length + 5
    omega
  · change t'.offers + 0 + (t'.pool.pending.push r').requests.length ≤
      t'.offers + 1 + t'.pool.pending.requests.length
    omega
  · change ((t'.pool.pending.push r').keys ++ []).Sublist (t'.pool.pending.keys ++ [r.key])
    rw [last, List.append_nil]

theorem progress_missed (w : Surroundings) (t : Turn) (newcomer : Option Request) :
    Progress ⟨t, [.look newcomer]⟩ (t.missed w newcomer) := by
  cases newcomer with
  | some r =>
    simp only [missed]
    split
    · exact progress_of_lighter (eases_openFor w t _) (Nat.succ_pos 4) rfl rfl
    · exact progress_lineUp w t r
  | none =>
    simp only [missed]
    split
    · split
      · next r t' popped =>
        have opened := (eases_disarm t' r).trans
          (eases_openFor w (t'.disarm r) (.owned { r with timer := none }))
        have eases := (eases_popLive popped).trans opened
        have fewer := Nat.lt_of_le_of_lt opened.waiting (length_popLive popped)
        refine progress_of_popped eases fewer ?_ (Nat.zero_le 1) rfl
        exact Nat.add_lt_add_of_le_of_lt eases.idle (show 2 < 1 + 4 by decide)
      · next t' popped => exact progress_of_lighter (eases_popLive popped) Nat.zero_lt_one rfl rfl
    · exact progress_of_lighter (eases_refl t) Nat.zero_lt_one rfl rfl

/-- The request for which a connection is offered is used up. -/
theorem progress_attempt (w : Surroundings) (t : Turn) (r : Request) (id : ConnId)
    {left : List Chore} (lighter : Chore.load left < 3)
    (unheld : left.filterMap (·.held?) = []) (settled : left.filterMap (·.newcomer?) = []) :
    Progress ⟨t, [.deliver r id]⟩ ⟨(t.attempt w r id).2, left⟩ := by
  rcases eases_attempt w t r id with eases | ⟨serial, eases⟩
  · exact progress_of_lighter eases lighter unheld settled
  have waiting := eases.waiting
  have idle := eases.idle
  have offers := eases.offers
  simp only [call, offers_emit, Effect.isOffer, Bool.toNat_true, pool_emit] at waiting idle offers
  have heavy : Chore.load [.deliver r id] = 3 := rfl
  have held : ([Chore.deliver r id].filterMap (·.held?)).length = 1 := rfl
  refine ⟨?_, ?_, ?_⟩
  · simp only [Agenda.remaining, Pool.stats, heavy]
    omega
  · simp only [Agenda.prospects, Agenda.held, Pool.stats, unheld, held, List.length_nil]
    omega
  · simp only [Agenda.line, settled, pending_attempt]
    exact List.Sublist.refl _

theorem progress_shelve (w : Surroundings) (t : Turn) (id : ConnId) :
    Progress ⟨t, [.recycle id]⟩ ⟨t.shelve w id, []⟩ := by
  simp only [shelve]
  split
  · exact progress_of_lighter (eases_discard w t id) Nat.two_pos rfl rfl
  have put : (t.checkIn id).pool.registry.idle.length ≤ t.pool.registry.idle.length + 1 :=
    Registry.length_idle_checkIn _ id
  refine ⟨?_, Nat.le_refl _, List.Sublist.refl _⟩
  change 4 * t.pool.pending.requests.length + (t.checkIn id).pool.registry.idle.length + 0 <
    4 * t.pool.pending.requests.length + t.pool.registry.idle.length + 2
  omega

theorem progress_recycle (w : Surroundings) (t : Turn) (id : ConnId) :
    Progress ⟨t, [.recycle id]⟩ (t.work w (.recycle id)) := by
  simp only [work]
  split
  · next r t' popped =>
    have eases := (eases_popLive popped).trans (eases_handOver t' id)
    have fewer := length_popLive popped
    refine progress_of_popped eases fewer ?_ (Nat.le_refl 1) rfl
    exact Nat.add_lt_add_of_le_of_lt eases.idle (show 3 < 2 + 4 by decide)
  · next t' popped => exact progress_after (eases_popLive popped) (progress_shelve w t' id)

theorem progress_work (w : Surroundings) (t : Turn) (chore : Chore) :
    Progress ⟨t, [chore]⟩ (t.work w chore) := by
  cases chore with
  | look newcomer =>
    simp only [work]
    split
    · next id r taken =>
      have fewer := Registry.length_idle_checkout? taken
      split
      · exact progress_found w fewer id newcomer
      · have evicted := eases_discard w (t.withRegistry r) id
        have eases := (eases_withRegistry t (Nat.le_of_lt fewer)).trans evicted
        exact progress_of_taken eases (Nat.lt_of_le_of_lt evicted.idle fewer) (Nat.le_refl _)
          (Nat.le_refl _) (List.Sublist.refl _)
    · exact progress_missed w t newcomer
  | deliver r id =>
    simp only [work]
    split
    · exact progress_attempt w t r id (Nat.lt_succ_self 2) rfl rfl
    · exact progress_attempt w t r id (Nat.succ_pos 2) rfl rfl
  | recycle id => exact progress_recycle w t id
  | serve =>
    simp only [work]
    split <;> exact progress_of_lighter (eases_refl t) (by decide) rfl rfl
  | servePending =>
    simp only [work]
    split <;> exact progress_of_lighter (eases_refl t) (by decide) rfl rfl
  | answer? reply outcome =>
    exact progress_of_lighter (eases_answer? t reply outcome) Nat.zero_lt_one rfl rfl
  | settleClose => exact progress_of_lighter (eases_settleClose t) Nat.zero_lt_one rfl rfl

end Turn

/-! ### Taking up a command -/

structure Begun (t : Turn) (c : Command) (a : Agenda) : Prop where
  eases : t.Eases a.turn
  weight : Chore.load a.chores ≤ 5
  held : a.held.length + a.turn.pool.stats.pending ≤
    c.carried?.toList.length + t.pool.stats.pending
  newcomers : ((a.chores.filterMap (·.newcomer?)).map (·.key)).Sublist
    (c.acquirer?.toList.map fun k => (⟨t.pool.nextRequest⟩, k))

namespace Turn
variable {w : Surroundings} {t t' : Turn} {c : Command} {id : ConnId}

theorem begun_of_eases (eases : t.Eases t') {left : List Chore}
    (weight : Chore.load left ≤ 5) (unheld : left.filterMap (·.held?) = [])
    (settled : left.filterMap (·.newcomer?) = []) : Begun t c ⟨t', left⟩ := by
  refine ⟨eases, weight, ?_, ?_⟩
  · rw [Agenda.held, unheld, List.length_nil, Nat.zero_add]
    exact Nat.le_trans eases.waiting (Nat.le_add_left _ _)
  · rw [settled]
    exact List.nil_sublist _

theorem begun_done (eases : t.Eases t') : Begun t c ⟨t', []⟩ :=
  begun_of_eases eases (Nat.zero_le 5) rfl rfl

theorem begun_takeUpReturn (w : Surroundings) (t : Turn) (id : ConnId) (reply : Option Ticket) :
    Begun t c (t.takeUpReturn w id reply) := by
  simp only [takeUpReturn]
  split
  · exact begun_done ((eases_discard w t id).trans (eases_answer? _ _ _))
  split
  · exact begun_done (eases_answer? t _ _)
  next serial r begun =>
  have same : r.idle.length = t.pool.registry.idle.length :=
    congrArg List.length (Registry.idle_beginCheck? begun)
  have checking : t.Eases (t.withRegistry r) := eases_withRegistry t (Nat.le_of_eq same)
  have called : t.Eases ((t.withRegistry r).call w .released serial) :=
    checking.trans (eases_emit _ rfl)
  split
  · exact begun_done ((checking.trans (eases_discard w _ id)).trans (eases_answer? _ _ _))
  have closed : ∀ outcome, t.Eases
      ((((t.withRegistry r).call w .released serial).discard w id).answer? reply outcome) :=
    fun outcome => (called.trans (eases_discard w _ id)).trans (eases_answer? _ _ outcome)
  split
  · exact begun_done (closed _)
  split
  · exact begun_of_eases called (Nat.le_add_right 3 2) rfl rfl
  split
  · exact begun_done (called.trans (eases_emit _ rfl))
  · exact begun_done (closed _)

theorem begun_takeUpPlace {t₀ : Turn} (before : t₀.Eases t) (target : Target) (id : ConnId)
    (result : Except String Serial) :
    Begun t₀ (.connected target result) (t.takeUpPlace target id) := by
  cases target with
  | owned r =>
    refine ⟨before, Nat.le_add_right 3 2, ?_, List.nil_sublist _⟩
    exact Nat.add_le_add_left before.waiting 1
  | queued request =>
    simp only [takeUpPlace]
    split
    · next r t' fetched =>
      have fewer := length_takePending_some fetched
      have eases := before.trans (eases_takePending fetched)
      refine ⟨eases, Nat.le_add_right 3 2, ?_, List.nil_sublist _⟩
      change 1 + t'.pool.pending.requests.length ≤ 0 + t₀.pool.pending.requests.length
      have waiting := before.waiting
      omega
    · next t' fetched =>
      exact begun_of_eases (before.trans (eases_takePending fetched)) (Nat.le_add_right 2 3) rfl rfl

theorem begun_takeUpConnection (w : Surroundings) (t : Turn) (target : Target) (serial : Serial) :
    Begun t (.connected target (.ok serial)) (t.takeUpConnection w target serial) := by
  have registered : t.Eases (t.register serial).2 := by
    refine ⟨List.Sublist.refl _, Nat.le_refl _, ?_⟩
    simp only [register, offers_emit]
    rfl
  have called : t.Eases ((t.register serial).2.call w .created serial) :=
    registered.trans (eases_emit _ rfl)
  simp only [takeUpConnection]
  split
  · exact begun_done ((registered.trans (eases_discard w _ _)).trans (eases_failTarget _ _ _))
  split
  · exact begun_done ((called.trans (eases_discard w _ _)).trans (eases_failTarget _ _ _))
  · exact begun_takeUpPlace called target _ _

theorem begun_takeUp (w : Surroundings) (t : Turn) (c : Command) : Begun t c (t.takeUp w c) := by
  cases c with
  | acquire ticket =>
    simp only [takeUp]
    split
    · exact begun_done (eases_emit t rfl)
    · exact ⟨⟨List.Sublist.refl _, Nat.le_refl _, rfl⟩, Nat.le_refl 5, Nat.le_refl _,
        List.Sublist.refl _⟩
  | release id ticket => exact begun_takeUpReturn w t id (some ticket)
  | dropped id => exact begun_takeUpReturn w t id none
  | connected target result =>
    cases result with
    | error cause =>
      have cancelled : t.Eases (t.withRegistry t.pool.registry.cancelReservation) :=
        eases_withRegistry t (Nat.le_refl _)
      exact begun_done (cancelled.trans (eases_failTarget _ target _))
    | ok serial => exact begun_takeUpConnection w t target serial
  | checked id healthy reply =>
    simp only [takeUp]
    split
    · exact begun_done (eases_answer? t _ _)
    split
    · exact begun_of_eases (eases_refl t) (Nat.le_add_right 3 2) rfl rfl
    · exact begun_done ((eases_discard w t id).trans (eases_answer? _ _ _))
  | close ticket => exact begun_done (eases_close w t ticket)
  | stats ticket => exact begun_done (eases_emit t rfl)
  | timedOut request => exact begun_done (eases_timedOut w t request)
  | closed id => exact begun_done (eases_withRegistry t (Registry.length_idle_forget _ id))

end Turn

/-! ### The whole turn -/

namespace Agenda
variable {w : Surroundings} {p : Pool} {c : Command} {a : Agenda}

theorem progress_step (w : Surroundings) {a : Agenda} (busy : a.chores ≠ []) :
    Progress a (a.step w) := by
  obtain ⟨t, chores⟩ := a
  cases chores with
  | nil => exact absurd rfl busy
  | cons chore rest => exact progress_followedBy (Turn.progress_work w t chore) rest

theorem step_of_done (w : Surroundings) (done : a.chores = []) : a.step w = a := by
  simp only [step, done]

/-- Nothing is ever added to what can be handed out, or to those in line. -/
theorem kept_run (w : Surroundings) (a : Agenda) (n : Nat) :
    (a.run w n).prospects ≤ a.prospects ∧ (a.run w n).line.Sublist a.line := by
  induction n generalizing a with
  | zero => exact ⟨Nat.le_refl _, List.Sublist.refl _⟩
  | succ n ih =>
    obtain ⟨prospects, line⟩ := ih (a.step w)
    by_cases done : a.chores = []
    · rw [step_of_done w done] at prospects line
      rw [run, step_of_done w done]
      exact ⟨prospects, line⟩
    · have progress := progress_step w done
      exact ⟨Nat.le_trans prospects progress.prospects, line.trans progress.line⟩

theorem run_of_done (w : Surroundings) (done : a.chores = []) (n : Nat) : a.run w n = a := by
  induction n with
  | zero => rfl
  | succ n ih => rw [run, step_of_done w done, ih]

/-- No more is done than was left to be done. -/
theorem done_run (w : Surroundings) (a : Agenda) {n : Nat} (enough : a.remaining ≤ n) :
    (a.run w n).chores = [] := by
  induction n generalizing a with
  | zero =>
    by_contra busy
    have less : (a.step w).remaining < a.remaining := (progress_step w busy).remaining
    omega
  | succ n ih =>
    by_cases done : a.chores = []
    · rw [run_of_done w done]
      exact done
    · have less := (progress_step w done).remaining
      exact ih (a.step w) (by omega)

theorem run_eq (w : Surroundings) (a : Agenda) {n : Nat} (enough : a.remaining ≤ n) :
    a.run w n = ⟨a.outcome w, []⟩ := by
  have done := done_run w a enough
  have same := outcome_run w a n
  generalize a.run w n = last at done same
  obtain ⟨t, chores⟩ := last
  subst done
  rw [← same]
  rfl

theorem remaining_start (w : Surroundings) (p : Pool) (c : Command) :
    (start w p c).remaining ≤ 4 * p.stats.pending + p.stats.idle + 9 := by
  have begun := Turn.begun_takeUp w ⟨p, []⟩ c
  have waiting : (Turn.takeUp w ⟨p, []⟩ c).turn.pool.stats.pending ≤ p.stats.pending :=
    begun.eases.waiting
  have idle : (Turn.takeUp w ⟨p, []⟩ c).turn.pool.stats.idle ≤ p.stats.idle := begun.eases.idle
  have weight := begun.weight
  have after : Chore.load [.servePending, .settleClose] = 4 := rfl
  simp only [start, followedBy, remaining, Chore.load_append, after]
  omega

theorem prospects_start (w : Surroundings) (p : Pool) (c : Command) :
    (start w p c).prospects ≤ c.carried?.toList.length + p.stats.pending := by
  have begun := Turn.begun_takeUp w ⟨p, []⟩ c
  have offers : (Turn.takeUp w ⟨p, []⟩ c).turn.offers = 0 := begun.eases.offers
  have after : [Chore.servePending, .settleClose].filterMap (·.held?) = [] := rfl
  simp only [start, followedBy, prospects, Agenda.held, List.filterMap_append, after,
    List.append_nil, offers, Nat.zero_add]
  exact begun.held

theorem line_start (w : Surroundings) (p : Pool) (c : Command) :
    (start w p c).line.Sublist
      (p.pending.keys ++ c.acquirer?.toList.map fun k => (⟨p.nextRequest⟩, k)) := by
  have begun := Turn.begun_takeUp w ⟨p, []⟩ c
  have after : [Chore.servePending, .settleClose].filterMap (·.newcomer?) = [] := rfl
  simp only [start, followedBy, line, List.filterMap_append, after, List.append_nil]
  exact begun.eases.keys.append begun.newcomers

end Agenda

/-- One command is work that ends. After as many chores as the queue and the idle connections allow
for, nothing is left to be done, and what came of it is what the command does. There are no more
offers than requests that were queued before, and the one that has come with the command: whoever is
offered a connection, or is about to be, is in the queue no longer. And at no moment is anybody in
line who was not there before, except the one that asks for a connection, in the last place. -/
theorem Pool.work_bounded (w : Surroundings) (p : Pool) (c : Command) :
    (Agenda.start w p c).run w (4 * p.stats.pending + p.stats.idle + 9) = ⟨p.handle w c, []⟩ ∧
    (p.handle w c).offers ≤ 1 + p.stats.pending ∧
    ∀ n, let a := (Agenda.start w p c).run w n
      a.turn.offers + a.held.length + a.turn.pool.stats.pending ≤
        c.carried?.toList.length + p.stats.pending ∧
      a.turn.pool.pending.keys.Sublist
        (p.pending.keys ++ c.acquirer?.toList.map fun k => (⟨p.nextRequest⟩, k)) := by
  have ends : (Agenda.start w p c).run w (4 * p.stats.pending + p.stats.idle + 9) =
      ⟨p.handle w c, []⟩ := by
    rw [Agenda.run_eq w _ (Agenda.remaining_start w p c), Agenda.outcome_start]
  have kept : ∀ n, ((Agenda.start w p c).run w n).prospects ≤
        c.carried?.toList.length + p.stats.pending ∧
      ((Agenda.start w p c).run w n).line.Sublist
        (p.pending.keys ++ c.acquirer?.toList.map fun k => (⟨p.nextRequest⟩, k)) := by
    intro n
    obtain ⟨prospects, line⟩ := Agenda.kept_run w (Agenda.start w p c) n
    exact ⟨Nat.le_trans prospects (Agenda.prospects_start w p c),
      line.trans (Agenda.line_start w p c)⟩
  refine ⟨ends, ?_, fun n => ⟨(kept n).1, (List.sublist_append_left _ _).trans (kept n).2⟩⟩
  have last := (kept (4 * p.stats.pending + p.stats.idle + 9)).1
  rw [ends] at last
  have own : c.carried?.toList.length ≤ 1 := by
    cases c.carried? <;> simp
  simp only [Agenda.prospects] at last
  omega

/-- The bound is reached where everybody leaves when a connection is offered: it is offered to the
one that it was opened for and to both of those who wait. -/
example :
    let w : Surroundings :=
      { active := fun _ _ => true
        gone := fun log k => k.number ≤ log.countP (·.isOffer)
        refusal := fun _ _ _ => none
        confirms := fun _ _ => true
        reachable := fun _ => true }
    let p : Pool :=
      { Pool.start { maxConnections := 1 } with
        registry := { acquired := 1, connecting := 1 }
        pending := { requests := [{ id := ⟨2⟩, ticket := ⟨2⟩ }, { id := ⟨3⟩, ticket := ⟨3⟩ }]
                     limit := 8 }
        nextRequest := 4 }
    let own : Request := { id := ⟨1⟩, ticket := ⟨1⟩ }
    ((Agenda.start w p (.connected (.owned own) (.ok ⟨1⟩))).run w 17).turn.offers = 3 := by
  decide

end LoanPool
