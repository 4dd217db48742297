import LoanPool.Proofs.Tending

/-!
# Loans are reconciled once

The end of a loan may be heard of more than once: its holder gives it back, or it is dropped, its
health check comes to a verdict, its close is noticed, and the pool may be closed meanwhile. The
first of these gives its unit of capacity back; what comes later finds nothing left to do.
-/
namespace LoanPool
open Pending (Request)

/-- What the pool has dealt with already when it comes to a command. -/
def Command.IsLate (p : Pool) : Command → Prop
  | .release id _ => id ∉ p.registry.ids
  | .dropped id => id ∉ p.registry.ids
  | .checked id _ _ => p.registry.slot? id ≠ some .checking
  | .closed id => id ∉ p.registry.ids ∧ id ∉ p.registry.closing
  | .timedOut request => request ∉ p.pending.requests.map (·.id)
  | _ => False

def Command.isFinal : Command → Bool
  | .acquire _ => false
  | .connected .. => false
  | _ => true

abbrev Blow : Type :=
  Surroundings × Option Command

def Blow.IsFinal (b : Blow) : Prop :=
  ∀ c, b.2 = some c → c.isFinal = true

namespace Pool

def take (p : Pool) (b : Blow) : Pool :=
  (p.respond b.1 b.2).pool

def struck (p : Pool) (blows : List Blow) : Pool :=
  blows.foldl take p

def refunds (id : ConnId) : Pool → List Blow → Nat
  | _, [] => 0
  | p, b :: rest =>
    (p.registry.unit id - (p.take b).registry.unit id) + refunds id (p.take b) rest

structure Settled (p : Pool) : Prop where
  balanced : p.registry.Balanced
  quiet : p.Quiet
  emptied : p.closed = true → p.Emptied
  unawaited : p.closed = false → p.closeWaiters = []
  told : p.registry.isDrained = true → p.closeWaiters = []

end Pool

variable {p : Pool} {w : Surroundings} {c : Command} {id : ConnId}

/-! ### Nothing is left to do -/

/-- A settled pool that has only answered is as it was. -/
theorem handle_of_answered (settled : p.Settled)
    (answered : (Turn.mk p []).perform w c = ⟨p, c.replies.map fun k => ⟨.answer k .done, p⟩⟩) :
    p.handle w c = ⟨p, c.replies.map fun k => ⟨.answer k .done, p⟩⟩ := by
  rw [Pool.handle, answered, Turn.servePending_of_quiet w settled.quiet, Turn.settleClose]
  split
  · next complete =>
    have nobody : p.closeWaiters = [] := settled.told complete.2
    simp only [Turn.finishClose, nobody, List.foldl_nil]
    rw [← nobody]
  · rfl

theorem beginCheck?_of_unknown {r : Registry} (unknown : id ∉ r.ids) : r.beginCheck? id = none := by
  rw [Registry.beginCheck?, Registry.find?_eq_none.mpr unknown]

theorem forget_of_unknown {r : Registry} (unknown : id ∉ r.ids) (absent : id ∉ r.closing) :
    (r.forget id).2 = r := by
  have kept : r.closing.filter (· ≠ id) = r.closing := by
    apply List.filter_eq_self.mpr
    intro other member
    rw [decide_eq_true_eq]
    rintro rfl
    exact absent member
  simp only [Registry.forget, kept]
  rw [Registry.remove?, Registry.find?_eq_none.mpr unknown]

/-- What has no loan to end is answered, and no more. -/
theorem takeBack_of_unlent {reply : Option Ticket} (emptied : p.closed = true → p.Emptied)
    (unlent : p.registry.beginCheck? id = none) :
    (Turn.mk p []).takeBack w id reply = ⟨p, reply.toList.map fun k => ⟨.answer k .done, p⟩⟩ := by
  have answered : (Turn.mk p []).answer? reply .done =
      ⟨p, reply.toList.map fun k => ⟨.answer k .done, p⟩⟩ := by
    cases reply <;> rfl
  unfold Turn.takeBack
  split
  · next closed =>
    have unknown : id ∉ p.registry.ids := by
      rw [Registry.ids, (emptied closed).unregistered]
      exact List.not_mem_nil
    rw [Turn.discard_of_unknown (Registry.find?_eq_none.mpr unknown), answered]
  · dsimp only
    rw [unlent]
    exact answered

theorem checked_of_unchecked {healthy : Bool} {reply : Option Ticket}
    (unchecked : p.registry.isChecking id = false) :
    (Turn.mk p []).checked w id healthy reply =
      ⟨p, reply.toList.map fun k => ⟨.answer k .done, p⟩⟩ := by
  unfold Turn.checked
  rw [if_pos (by simpa using unchecked)]
  cases reply <;> rfl

/-- What comes late leaves the pool as it was. -/
theorem handle_of_late (settled : p.Settled) (late : c.IsLate p) :
    p.handle w c = ⟨p, c.replies.map fun k => ⟨.answer k .done, p⟩⟩ := by
  apply handle_of_answered settled
  cases c with
  | release id k => exact takeBack_of_unlent settled.emptied (beginCheck?_of_unknown late)
  | dropped id => exact takeBack_of_unlent settled.emptied (beginCheck?_of_unknown late)
  | checked id healthy reply =>
    have elsewhere : p.registry.slot? id ≠ some .checking := late
    apply checked_of_unchecked
    simpa [Registry.isChecking] using elsewhere
  | closed id =>
    simp only [Turn.perform, Turn.withRegistry, forget_of_unknown late.1 late.2]
    rfl
  | timedOut request =>
    have unqueued : p.pending.find? request = none := by
      apply List.find?_eq_none.mpr
      intro r member same
      exact late (List.mem_map.mpr ⟨r, member, by simpa using same⟩)
    simp only [Turn.perform, Turn.timedOut, unqueued]
    rfl
  | acquire k => cases late
  | close k => cases late
  | stats k => cases late
  | connected target result => cases late

/-! ### Turns of a settled pool -/

theorem tended_perform (ends : c.isFinal = true) (stays : c.closer? = none) :
    p.Tended ((Turn.mk p []).perform w c).pool := by
  have start : p.Tended (Turn.mk p []).pool := .refl
  cases c with
  | release id k => exact Turn.tended_takeBack start _
  | dropped id => exact Turn.tended_takeBack start _
  | checked id healthy reply => exact Turn.tended_checked start healthy reply
  | closed id => exact start.tail (.forget id)
  | timedOut request => exact Turn.tended_timedOut start request
  | stats k => exact start
  | close k => cases stays
  | acquire k => cases ends
  | connected target result => cases ends

theorem tended_served (w : Surroundings) (ends : c.isFinal = true) (stays : c.closer? = none) :
    p.Tended (((Turn.mk p []).perform w c).servePending w).pool :=
  Turn.tended_servePending (tended_perform ends stays)

theorem registry_answering {k : Ticket} (closed : p.closed = true) :
    (p.handle w (.close k)).pool.registry = p.registry := by
  simp only [Pool.handle, Turn.perform, Turn.close, closed, if_true]
  rw [Turn.registry_settleClose, Turn.servePending, if_pos (by exact closed)]
  rfl

/-- Closing a pool takes connections out of its registry, one after the other. -/
theorem tended_shutDown :
    Pool.Tended { p with closed := true, pending := { p.pending with requests := [] } }
      ((Turn.mk p []).shutDown w).pool := by
  unfold Turn.shutDown Turn.shutDownIn
  apply Turn.tended_evictAll
  rw [Turn.pool_failAll]

/-- Whatever a pool is told but by acquires and new connections, operations on its registry lead
from the one registry to the other; the queue of waiters is not longer at the first of them. -/
theorem tended_respond {b : Blow} (ends : b.IsFinal) :
    ∃ q q' : Pool, q.Tended q' ∧ q.registry = p.registry ∧ q'.registry = (p.take b).registry ∧
      (p.pending.requests = [] → q.pending.requests = []) := by
  obtain ⟨w, c⟩ := b
  cases c with
  | none =>
    refine ⟨_, _, tended_shutDown (p := p) (w := w), rfl, ?_, fun _ => rfl⟩
    rw [Pool.take, Pool.respond, Pool.finish, Turn.pool_finishClose]
  | some c =>
    cases asks : c.closer? with
    | none =>
      refine ⟨p, _, tended_served w (ends c rfl) asks, rfl, ?_, id⟩
      rw [Pool.take, Pool.respond, Pool.handle, Turn.registry_settleClose]
    | some k =>
      cases closer?_eq_some (c := some c) asks
      cases closed : p.closed with
      | true => exact ⟨p, p, .refl, rfl, (registry_answering closed).symm, id⟩
      | false =>
        refine ⟨_, _, tended_shutDown (p := p) (w := w), rfl, ?_, fun _ => rfl⟩
        rw [Pool.take, Pool.respond, Pool.handle_close closed, Turn.registry_settleClose]

theorem handle_of_open (opened : p.closed = false) (ends : c.isFinal = true)
    (stays : c.closer? = none) :
    p.handle w c = ((Turn.mk p []).perform w c).servePending w := by
  have still := (tended_served (p := p) w ends stays).closed
  rw [Pool.handle, Turn.settleClose, if_neg]
  rw [still, opened]
  simp

theorem settled_of_emptied (balanced : p.registry.Balanced) (emptied : p.Emptied)
    (told : p.registry.isDrained = true → p.closeWaiters = []) : p.Settled where
  balanced := balanced
  quiet := .inl emptied.unwanted
  emptied _ := emptied
  unawaited opened := by cases opened.symm.trans emptied.closed
  told := told

theorem settled_of_open (settled : p.Settled) (opened : p.closed = false)
    (ends : c.isFinal = true) (stays : c.closer? = none) : (p.handle w c).pool.Settled := by
  have tended : p.Tended (p.handle w c).pool := by
    rw [handle_of_open opened ends stays]
    exact tended_served w ends stays
  have still : (p.handle w c).pool.closed = false := tended.closed.trans opened
  have nobody : (p.handle w c).pool.closeWaiters = [] :=
    tended.closeWaiters.trans (settled.unawaited opened)
  constructor
  case balanced => exact tended.balanced settled.balanced
  case quiet =>
    apply Pool.quiet_respond (c := some c)
    intro shut
    cases still.symm.trans shut
  case emptied =>
    intro shut
    cases still.symm.trans shut
  case unawaited => exact fun _ => nobody
  case told => exact fun _ => nobody

/-- The end of a settled pool, or what it comes to on a command, is settled again. -/
theorem settled_take (settled : p.Settled) {b : Blow} (ends : b.IsFinal) : (p.take b).Settled := by
  have balanced : (p.take b).registry.Balanced := by
    obtain ⟨q, q', tended, before, after, -⟩ := tended_respond (p := p) ends
    rw [← after]
    apply tended.balanced
    rw [before]
    exact settled.balanced
  obtain ⟨w, c⟩ := b
  cases c with
  | none =>
    apply settled_of_emptied balanced Pool.emptied_finish
    intro drained
    rw [Pool.take, Pool.respond, Pool.finish, Turn.pool_finishClose]
  | some c =>
    have final : c.isFinal = true := ends c rfl
    cases closed : p.closed with
    | true =>
      have late : c.isConnected = false := by
        cases c <;> first | rfl | cases final
      have farewell := Pool.farewell_handle (w := w) (c := c) (settled.emptied closed)
        fun opening => by cases late.symm.trans opening
      apply settled_of_emptied balanced farewell.emptied
      intro drained
      exact farewell.waiters.trans (if_pos drained)
    | false =>
      cases asks : c.closer? with
      | some k =>
        cases closer?_eq_some (c := some c) asks
        apply settled_of_emptied balanced (Pool.emptied_handle_close closed)
        intro drained
        exact (closeWaiters_handle_close closed (settled.unawaited closed)).trans (if_pos drained)
      | none => exact settled_of_open settled closed final asks

theorem unused_take (settled : p.Settled) {b : Blow} (ends : b.IsFinal)
    (unused : p.registry.isUsed id = false) : (p.take b).registry.isUsed id = false := by
  obtain ⟨q, q', tended, before, after, emptier⟩ := tended_respond (p := p) ends
  rw [← before] at unused
  rw [← after]
  by_cases known : id ∈ p.registry.ids
  · -- It is idle, and so nobody waits.
    have idle : id ∈ p.registry.idle := by
      obtain ⟨slot, here⟩ := Registry.slot?_of_mem_ids known
      rw [settled.balanced.idle, here]
      rw [before, Registry.isUsed_eq_false] at unused
      rw [unused slot here]
    have nobody : p.pending.requests = [] := by
      rcases settled.quiet with nobody | ⟨drained, -⟩
      · exact nobody
      · rw [drained] at idle
        cases idle
    exact (tended.unused (emptier nobody) unused).2
  · have gone : id ∉ q'.registry.ids := by
      apply tended.unregistered
      rwa [before]
    rw [Registry.isUsed_eq_false]
    intro slot here
    exact absurd (Registry.mem_ids_of_slot? here) gone

theorem unregistered_take {b : Blow} (ends : b.IsFinal)
    (unknown : id ∉ p.registry.ids) : id ∉ (p.take b).registry.ids := by
  obtain ⟨q, q', tended, before, after, -⟩ := tended_respond (p := p) ends
  rw [← after]
  apply tended.unregistered
  rwa [before]

/-! ### Any number of turns -/

variable {blows : List Blow}

theorem settled_struck (settled : p.Settled) (final : ∀ b ∈ blows, b.IsFinal) :
    (p.struck blows).Settled := by
  induction blows generalizing p with
  | nil => exact settled
  | cons b rest ih =>
    obtain ⟨ends, more⟩ := List.forall_mem_cons.mp final
    exact ih (settled_take settled ends) more

theorem unregistered_struck (final : ∀ b ∈ blows, b.IsFinal)
    (unknown : id ∉ p.registry.ids) : id ∉ (p.struck blows).registry.ids := by
  induction blows generalizing p with
  | nil => exact unknown
  | cons b rest ih =>
    obtain ⟨ends, more⟩ := List.forall_mem_cons.mp final
    exact ih more (unregistered_take ends unknown)

theorem refunds_add_unit (settled : p.Settled) (final : ∀ b ∈ blows, b.IsFinal) (id : ConnId) :
    p.refunds id blows + (p.struck blows).registry.unit id = p.registry.unit id := by
  induction blows generalizing p with
  | nil => exact Nat.zero_add _
  | cons b rest ih =>
    obtain ⟨ends, more⟩ := List.forall_mem_cons.mp final
    have less : (p.take b).registry.unit id ≤ p.registry.unit id := by
      cases used : p.registry.isUsed id with
      | true => simp [Registry.unit, used, Bool.toNat_le]
      | false => simp [Registry.unit, used, unused_take settled ends used]
    have later := ih (settled_take settled ends) more
    change _ + (p.take b).refunds id rest + ((p.take b).struck rest).registry.unit id = _
    omega

/-! ### Runs -/

variable {config : Config} {observer : Hook → Nat → Option String} {past : List Site.Record}
  {now : Nat} {s : Site}

theorem unawaited_of_ended (run : Site.Run config observer past now s) (stopped : s.ended = true) :
    s.pool.closeWaiters = [] := by
  induction run with
  | start => cases stopped
  | event before order allowed ih =>
    rw [Site.ended_happen] at stopped
    rw [Site.pool_happen]
    exact ih stopped
  | @turn past now later s rest c before order due course ih =>
    cases c with
    | none =>
      change (rest.pool.finish _).pool.closeWaiters = []
      rw [Pool.finish, Turn.pool_finishClose]
    | some c =>
      obtain ⟨m, leaving⟩ := leaving_of_run before
      have going := going_of_due leaving.watched.kept.ends due
      rw [ended_after] at stopped
      cases Site.next_of_due due with
      | command oldest => cases going.symm.trans stopped

theorem settled_of_run (run : Site.Run config observer past now s) : s.pool.Settled := by
  obtain ⟨m, leaving⟩ := leaving_of_run run
  obtain ⟨-, quiet⟩ := path_of_run run
  have unawaited : s.pool.closed = false → s.pool.closeWaiters = [] :=
    fun opened => (leaving.unawaited opened).1
  have balanced : s.pool.registry.Balanced := leaving.watched.kept.accounted.balanced
  cases stage_of_run run with
  | unasked nobody going =>
    have opened : s.pool.closed = false := by
      by_contra shut
      rcases leaving.watched.closing.shut (by simpa using shut) with asked | stopped
      · rw [nobody] at asked
        cases asked
      · cases going.symm.trans stopped
    refine ⟨balanced, quiet, fun shut => ?_, unawaited, fun _ => unawaited opened⟩
    cases opened.symm.trans shut
  | asked k first emptied waiters =>
    apply settled_of_emptied balanced emptied
    intro drained
    exact waiters.trans (if_pos drained)
  | finished stopped emptied =>
    exact settled_of_emptied balanced emptied fun _ => unawaited_of_ended run stopped

def Scene.Former (id : ConnId) (sc : Scene) : Prop :=
  id.number < sc.pool.nextConn ∧ id ∉ sc.registry.ids

theorem former_move {sc sc' : Scene} (move : Move sc sc') (former : sc.Former id) :
    sc'.Former id := by
  refine ⟨Nat.lt_of_lt_of_le former.1 (nextConn_move move), ?_⟩
  cases bookkeeping_move move with
  | moved kept next => rw [kept.ids]; exact former.2
  | dropped gone next => exact fun member => former.2 (gone.ids.subset member)
  | reserved drained done next past room => rw [done]; exact former.2
  | cancelled task done next => rw [done]; exact former.2
  | registered task done next =>
    rw [done]
    intro member
    rcases Registry.mem_ids_register member with rfl | before
    · exact absurd former.1 (Nat.lt_irrefl _)
    · exact former.2 before

/-- In a pool that a run leads to, and in what becomes of it on commands that neither ask for a
connection nor bring one, in any order and any number: what comes late is answered, and changes
nothing. The unit of a connection in use is given back once at most, and not at all once it is
registered no more; and the connections that have one are what is counted. Whatever the run goes on
with, a connection that is registered no more is never registered again. -/
theorem reconciled_once (run : Site.Run config observer past now s)
    (final : ∀ b ∈ blows, b.IsFinal) :
    (∀ w c, c.IsLate (s.pool.struck blows) → (s.pool.struck blows).handle w c =
      ⟨s.pool.struck blows, c.replies.map fun k => ⟨.answer k .done, s.pool.struck blows⟩⟩) ∧
    (∀ id, s.pool.refunds id blows + (s.pool.struck blows).registry.unit id =
      s.pool.registry.unit id) ∧
    (∀ id, id ∉ s.pool.registry.ids →
      s.pool.refunds id blows = 0 ∧ id ∉ (s.pool.struck blows).registry.ids) ∧
    ((s.pool.struck blows).registry.acquired = (s.pool.struck blows).registry.connecting +
        (s.pool.struck blows).registry.ids.countP (s.pool.struck blows).registry.isUsed ∧
      (s.pool.struck blows).registry.overdrawn = false) ∧
    ∀ past' now' s', Site.Onward past now s past' now' s' → ∀ id : ConnId,
      id.number < s.pool.nextConn → id ∉ s.pool.registry.ids → id ∉ s'.pool.registry.ids := by
  have settled : s.pool.Settled := settled_of_run run
  have later : (s.pool.struck blows).Settled := settled_struck settled final
  refine ⟨?late, ?once, ?gone, ?counted, ?onward⟩
  case late => exact fun w c late => handle_of_late later late
  case once => exact refunds_add_unit settled final
  case gone =>
    intro id unknown
    have once := refunds_add_unit settled final id
    rw [Registry.unit_of_unknown unknown] at once
    exact ⟨Nat.eq_zero_of_add_eq_zero_right once, unregistered_struck final unknown⟩
  case counted =>
    have units := later.balanced.units
    rw [Registry.inUse_eq_countP later.balanced] at units
    exact ⟨units, later.balanced.solvent⟩
  case onward =>
    intro past' now' s' onward id born unknown
    obtain ⟨m, path⟩ := path_after_run run onward { before := s.pool }
    exact (path_invariant path former_move ⟨born, unknown⟩ : Scene.Former id _).2

/-- A connection breaks while it is on loan, and is gone when it comes back. Another one is lent. -/
def secondLent : List (Nat × Option Site.Event) :=
  [(0, some (.acquire ⟨1⟩)), (0, none), (1, some (.connected ⟨0⟩ (.ok (⟨1⟩, {})))), (1, none),
    (2, some (.read ⟨1⟩)), (3, some (.kill ⟨1⟩)), (3, some (.dropLoan ⟨1⟩)), (3, none),
    (4, some (.acquire ⟨2⟩)), (4, none), (5, some (.connected ⟨1⟩ (.ok (⟨2⟩, {})))), (5, none),
    (6, some (.read ⟨2⟩))]

/-- The loan is given back and dropped, its check comes to a verdict, and the connection is heard to
have closed, all of it twice; and the pool is closed. -/
def allTwice : List Blow :=
  [.dropped ⟨2⟩, .release ⟨2⟩ ⟨7⟩, .checked ⟨2⟩ true none, .dropped ⟨2⟩, .checked ⟨2⟩ false none,
    .closed ⟨2⟩, .release ⟨2⟩ ⟨8⟩, .close ⟨9⟩, .closed ⟨2⟩].map fun c =>
      ({ active := fun _ _ => true, gone := fun _ _ => false, refusal := fun _ _ _ => none
         confirms := fun _ _ => false, reachable := fun _ => true }, some c)

theorem reconciled_of_allTwice :
    ∃ past now s, Site.Run {} (fun _ _ => none) past now s ∧ (∀ b ∈ allTwice, b.IsFinal) ∧
      s.pool.registry.unit ⟨2⟩ = 1 ∧ (s.pool.struck allTwice).registry.unit ⟨2⟩ = 0 ∧
      s.pool.refunds ⟨2⟩ allTwice = 1 ∧ s.pool.refunds ⟨1⟩ allTwice = 0 ∧
      (∀ w, (s.pool.struck allTwice).handle w (.release ⟨2⟩ ⟨10⟩) =
        ⟨s.pool.struck allTwice, [⟨.answer ⟨10⟩ .done, s.pool.struck allTwice⟩]⟩) ∧
      ∀ past' now' s', Site.Onward past now s past' now' s' → ⟨1⟩ ∉ s'.pool.registry.ids := by
  have final : ∀ b ∈ allTwice, b.IsFinal := by
    have ends : allTwice.all (fun b => b.2.all Command.isFinal) = true := by decide
    intro b member c told
    have here := List.all_eq_true.mp ends b member
    rw [told] at here
    exact here
  obtain ⟨past, now, s, run, seen⟩ := Site.exists_run {} (fun _ _ => none) secondLent
    (fun _ s => s.pool.registry.unit ⟨2⟩ == 1 && (s.pool.struck allTwice).registry.unit ⟨2⟩ == 0 &&
      s.pool.nextConn == 3 && decide (⟨1⟩ ∉ s.pool.registry.ids) &&
      decide (⟨2⟩ ∉ (s.pool.struck allTwice).registry.ids)) (by decide +kernel)
  simp only [Bool.and_eq_true, beq_iff_eq, decide_eq_true_eq] at seen
  obtain ⟨⟨⟨⟨lent, back⟩, next⟩, former⟩, gone⟩ := seen
  obtain ⟨late, once, never, -, onward⟩ := reconciled_once run final
  refine ⟨past, now, s, run, final, lent, back, ?_, (never ⟨1⟩ former).1,
    fun w => late w _ gone, fun past' now' s' more => ?_⟩
  · have once := once ⟨2⟩
    omega
  · exact onward past' now' s' more ⟨1⟩ (by rw [next]; decide) former

end LoanPool
