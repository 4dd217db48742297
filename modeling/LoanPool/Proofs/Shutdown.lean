import LoanPool.Proofs.Closing
import LoanPool.Proofs.Delivery
import LoanPool.Proofs.Exclusivity

/-!
# A pool that has been closed

Work that was under way when a pool closed still comes back to it, in any order. A closed pool is an
empty one, and what it does on each command can be read off the command: nothing is opened, checked
or lent any more, and what comes back is put away.
-/
namespace LoanPool
open Pending (Request)

structure Pool.Emptied (p : Pool) : Prop where
  closed : p.closed = true
  unwanted : p.pending.requests = []
  unregistered : p.registry.entries = []

/-- What the end of a close waits for when nothing is registered: connections that have not
confirmed their close, and those being opened. -/
def Registry.awaited (r : Registry) : Nat :=
  r.closing.length + r.connecting

theorem Pool.Emptied.isDrained_iff {p : Pool} (emptied : p.Emptied) :
    p.registry.isDrained = true ↔ p.registry.awaited = 0 := by
  simp [Registry.isDrained, Registry.awaited, emptied.unregistered]

def Target.farewell : Target → PoolError → List Effect
  | .owned r, cause => r.timer.toList.map .disarm ++ [.answer r.ticket (.failed cause)]
  | .queued _, _ => []

def Pool.farewell (p : Pool) : Command → List Effect
  | .acquire k => [.answer k (.failed .poolClosed)]
  | .release _ k => [.answer k .done]
  | .close k => [.answer k .done]
  | .stats k => [.answer k (.stats p.stats)]
  | .connected target (.error cause) => target.farewell (.connect cause)
  | .connected target (.ok serial) =>
    [.listen ⟨p.nextConn⟩ serial, .close serial] ++ target.farewell .poolClosed
  | .checked _ _ reply => reply.toList.map fun k => .answer k .done
  | .timedOut _ => []
  | .closed _ => []
  | .dropped _ => []

namespace Turn

structure Parting (t t' : Turn) (said : List Effect) : Prop where
  emptied : t'.pool.Emptied
  waiters : t'.pool.closeWaiters = t.pool.closeWaiters
  connecting : t'.pool.registry.connecting ≤ t.pool.registry.connecting
  awaited : t'.pool.registry.awaited ≤ t.pool.registry.awaited
  effects : t'.effects = t.effects ++ said

variable {w : Surroundings} {t t' t'' : Turn} {said more : List Effect} {id : ConnId}

theorem Parting.refl (emptied : t.pool.Emptied) : Parting t t [] :=
  ⟨emptied, rfl, Nat.le_refl _, Nat.le_refl _, (List.append_nil _).symm⟩

theorem Parting.trans (first : Parting t t' said) (second : Parting t' t'' more) :
    Parting t t'' (said ++ more) where
  emptied := second.emptied
  waiters := second.waiters.trans first.waiters
  connecting := Nat.le_trans second.connecting first.connecting
  awaited := Nat.le_trans second.awaited first.awaited
  effects := by rw [second.effects, first.effects, List.append_assoc]

theorem parting_emit (emptied : t.pool.Emptied) (e : Effect) : Parting t (t.emit e) [e] :=
  ⟨emptied, rfl, Nat.le_refl _, Nat.le_refl _, effects_emit t e⟩

theorem parting_answer? (emptied : t.pool.Emptied) (reply : Option Ticket) :
    Parting t (t.answer? reply .done) (reply.toList.map fun k => .answer k .done) := by
  cases reply with
  | none => exact .refl emptied
  | some k => exact parting_emit emptied _

theorem parting_disarm (emptied : t.pool.Emptied) (r : Request) :
    Parting t (t.disarm r) (r.timer.toList.map .disarm) := by
  unfold disarm
  cases r.timer with
  | none => exact .refl emptied
  | some timer => exact parting_emit emptied _

theorem parting_failTarget (emptied : t.pool.Emptied) (target : Target) (cause : PoolError) :
    Parting t (t.failTarget target cause) (target.farewell cause) := by
  cases target with
  | owned r =>
    have disarmed := parting_disarm emptied r
    exact disarmed.trans (parting_emit disarmed.emptied _)
  | queued request =>
    have nobody : t.takePending request = (none, t) := by
      simp [takePending, Pending.Queue.remove?, Pending.Queue.find?, emptied.unwanted]
    simp only [failTarget, nobody]
    exact .refl emptied

theorem find?_of_emptied {r : Registry} (unregistered : r.entries = []) (id : ConnId) :
    r.find? id = none := by
  rw [Registry.find?, unregistered]
  rfl

theorem discard_of_emptied (emptied : t.pool.Emptied) (id : ConnId) : t.discard w id = t := by
  have unknown := find?_of_emptied emptied.unregistered id
  simp [discard, Registry.discard?, Registry.remove?, unknown]

theorem parting_takeBack (emptied : t.pool.Emptied) (id : ConnId) (reply : Option Ticket) :
    Parting t (t.takeBack w id reply) (reply.toList.map fun k => .answer k .done) := by
  rw [takeBack, if_pos emptied.closed, discard_of_emptied emptied]
  exact parting_answer? emptied reply

theorem parting_checked (emptied : t.pool.Emptied) (id : ConnId) (healthy : Bool)
    (reply : Option Ticket) :
    Parting t (t.checked w id healthy reply) (reply.toList.map fun k => .answer k .done) := by
  have unchecked : t.pool.registry.isChecking id = false := by
    simp [Registry.isChecking, Registry.slot?, find?_of_emptied emptied.unregistered]
  simp only [checked, unchecked, Bool.not_false, if_true]
  exact parting_answer? emptied reply

theorem timedOut_of_emptied (emptied : t.pool.Emptied) (request : RequestId) :
    t.timedOut w request = t := by
  simp [timedOut, Pending.Queue.find?, emptied.unwanted]

theorem parting_forget (emptied : t.pool.Emptied) (id : ConnId) :
    Parting t (t.withRegistry (t.pool.registry.forget id).2) [] := by
  have unknown : Registry.remove?
      { t.pool.registry with closing := t.pool.registry.closing.filter (· ≠ id) } id = none := by
    simp [Registry.remove?, Registry.find?, emptied.unregistered]
  simp only [Registry.forget, unknown]
  have fewer : (t.pool.registry.closing.filter (· ≠ id)).length ≤ t.pool.registry.closing.length :=
    List.length_filter_le _ _
  exact ⟨⟨emptied.closed, emptied.unwanted, emptied.unregistered⟩, rfl, Nat.le_refl _,
    Nat.add_le_add_right fewer _, (List.append_nil _).symm⟩

/-- A connection that arrives too late is watched and closed. -/
theorem parting_register (emptied : t.pool.Emptied) (opening : 0 < t.pool.registry.connecting)
    (serial : Serial) :
    Parting t ((t.register serial).2.discard w ⟨t.pool.nextConn⟩)
      [.listen ⟨t.pool.nextConn⟩ serial, .close serial] := by
  obtain ⟨r, removed⟩ : ∃ r, (t.pool.registry.register ⟨t.pool.nextConn⟩ serial).discard?
      (w.confirms (t.register serial).2.effects) ⟨t.pool.nextConn⟩ = some (serial, r) := by
    simp [Registry.discard?, Registry.remove?, Registry.find?_register]
  have discarded : (t.register serial).2.discard w ⟨t.pool.nextConn⟩ =
      ((t.register serial).2.withRegistry r).emit (.close serial) := by
    unfold discard
    rw [show (t.register serial).2.pool.registry =
      t.pool.registry.register ⟨t.pool.nextConn⟩ serial from rfl, removed]
  rw [discarded]
  have same : r.connecting = t.pool.registry.connecting - 1 :=
    (Registry.dropped_discard? removed).connecting
  have longer := Registry.length_closing_discard? removed
  constructor
  · refine ⟨emptied.closed, emptied.unwanted, ?_⟩
    change r.entries = []
    rw [Registry.entries_discard? removed]
    simp [Registry.register, emptied.unregistered]
  · rfl
  · change r.connecting ≤ _
    rw [same]
    exact Nat.sub_le _ _
  · -- It is one of those being opened no longer, and one of those closing at most.
    change r.closing.length ≤ t.pool.registry.closing.length + 1 at longer
    change r.closing.length + r.connecting ≤ t.pool.registry.closing.length + _
    omega
  · rw [effects_emit]
    change (t.register serial).2.effects ++ _ = _
    simp [register, effects, count, emit]

theorem parting_connected (emptied : t.pool.Emptied) (opening : 0 < t.pool.registry.connecting)
    (target : Target) (result : Except String Serial) :
    Parting t (t.connected w target result) (t.pool.farewell (.connected target result)) := by
  cases result with
  | error cause =>
    have cancelled : Parting t (t.withRegistry t.pool.registry.cancelReservation) [] :=
      ⟨⟨emptied.closed, emptied.unwanted, emptied.unregistered⟩, rfl, Nat.sub_le _ _,
        Nat.add_le_add_left (Nat.sub_le _ _) _, (List.append_nil _).symm⟩
    exact cancelled.trans (parting_failTarget cancelled.emptied target _)
  | ok serial =>
    have registered := parting_register (w := w) emptied opening serial
    have still : (t.register serial).2.pool.closed = true := emptied.closed
    simp only [connected]
    rw [if_pos still]
    exact registered.trans (parting_failTarget registered.emptied target _)

theorem parting_perform {c : Command} (emptied : t.pool.Emptied)
    (opening : c.isConnected = true → 0 < t.pool.registry.connecting) :
    Parting t (t.perform w c) (t.pool.farewell c) := by
  cases c with
  | acquire k =>
    simp only [perform, acquire, emptied.closed, if_true]
    exact parting_emit emptied _
  | release id k => exact parting_takeBack emptied id (some k)
  | close k =>
    simp only [perform, close, emptied.closed, if_true]
    exact parting_emit emptied _
  | stats k => exact parting_emit emptied _
  | connected target result => exact parting_connected emptied (opening rfl) target result
  | checked id healthy reply => exact parting_checked emptied id healthy reply
  | timedOut request =>
    simp only [perform, timedOut_of_emptied emptied]
    exact .refl emptied
  | closed id => exact parting_forget emptied id
  | dropped id => exact parting_takeBack emptied id none

theorem effects_finishClose :
    t.finishClose.effects = t.effects ++ t.pool.closeWaiters.map fun k => .answer k .done :=
  (adds_finishClose t).effects

end Turn

namespace Turn
variable {w : Surroundings} {t : Turn}

theorem registry_settleClose : t.settleClose.pool.registry = t.pool.registry := by
  simp only [settleClose]
  split
  · rw [pool_finishClose]
  · rfl

theorem pending_evictAll (order : List ConnId) :
    (order.foldl (discard w) t).pool.pending = t.pool.pending := by
  induction order generalizing t with
  | nil => rfl
  | cons id rest ih => exact ih.trans (pending_discard w t id)

theorem closeWaiters_evictAll (order : List ConnId) :
    (order.foldl (discard w) t).pool.closeWaiters = t.pool.closeWaiters := by
  induction order generalizing t with
  | nil => rfl
  | cons id rest ih =>
    rw [List.foldl_cons, ih, discard]
    split <;> rfl

theorem emptied_shutDown : (t.shutDown w).pool.Emptied where
  closed := closed_shutDown
  unwanted := by
    unfold shutDown shutDownIn
    rw [pending_evictAll, pool_failAll]
  unregistered := entries_shutDown

theorem closeWaiters_shutDown : (t.shutDown w).pool.closeWaiters = t.pool.closeWaiters := by
  unfold shutDown shutDownIn
  rw [closeWaiters_evictAll, pool_failAll]

theorem shutDown_of_emptied (emptied : t.pool.Emptied) : t.shutDown w = t := by
  obtain ⟨pool, log⟩ := t
  obtain ⟨closed, unwanted, unregistered⟩ := emptied
  obtain ⟨config, registry, pending, shut, waiters, nextConn, nextRequest, counters⟩ := pool
  obtain ⟨requests, limit⟩ := pending
  dsimp only at closed unwanted unregistered
  subst closed unwanted
  simp [shutDown, shutDownIn, Registry.ids, unregistered]

end Turn

namespace Pool
variable {w : Surroundings} {p : Pool} {c : Command} {k : Ticket}

/-! ### Turns of a closed pool -/

/-- What a closed pool does in a turn, and how it stands afterwards. The caller that waits for the
close is answered last, in the turn that leaves nothing to be waited for. -/
structure Farewell (p : Pool) (c : Command) (t : Turn) : Prop where
  emptied : t.pool.Emptied
  connecting : t.pool.registry.connecting ≤ p.registry.connecting
  awaited : t.pool.registry.awaited ≤ p.registry.awaited
  waiters : t.pool.closeWaiters = if t.pool.registry.isDrained then [] else p.closeWaiters
  effects : t.effects = p.farewell c ++
    if t.pool.registry.isDrained then p.closeWaiters.map fun k => .answer k .done else []

theorem farewell_handle (emptied : p.Emptied)
    (opening : c.isConnected = true → 0 < p.registry.connecting) :
    p.Farewell c (p.handle w c) := by
  have parting := Turn.parting_perform (w := w) (t := ⟨p, []⟩) emptied opening
  have said : ((Turn.mk p []).perform w c).effects = p.farewell c := parting.effects
  rw [handle, Turn.servePending, if_pos parting.emptied.closed]
  have registry := Turn.registry_settleClose (t := (Turn.mk p []).perform w c)
  constructor
  · constructor
    · rw [Turn.closed_settleClose]
      exact parting.emptied.closed
    · rw [Turn.pending_settleClose]
      exact parting.emptied.unwanted
    · rw [registry]
      exact parting.emptied.unregistered
  · rw [registry]
    exact parting.connecting
  · rw [registry]
    exact parting.awaited
  · rw [registry, Turn.settleClose]
    split
    · next complete => rw [if_pos complete.2, Turn.pool_finishClose]
    · next incomplete =>
      rw [if_neg fun drained => incomplete ⟨parting.emptied.closed, drained⟩, parting.waiters]
  · rw [registry, Turn.settleClose]
    split
    · next complete =>
      rw [if_pos complete.2, Turn.effects_finishClose, said, parting.waiters]
    · next incomplete =>
      rw [if_neg fun drained => incomplete ⟨parting.emptied.closed, drained⟩, said,
        List.append_nil]

theorem pool_handle_close (emptied : p.Emptied)
    (told : p.registry.isDrained = true → p.closeWaiters = []) :
    (p.handle w (.close k)).pool = p := by
  have again : (Turn.mk p []).perform w (.close k) = (Turn.mk p []).answer k .done := by
    simp only [Turn.perform, Turn.close, emptied.closed, if_true]
  rw [handle, again, Turn.servePending, if_pos (by exact emptied.closed), Turn.settleClose]
  split
  · next complete =>
    rw [Turn.pool_finishClose, ← told complete.2]
    rfl
  · rfl

theorem pool_finish (emptied : p.Emptied) :
    (p.finish w).pool = { p with closeWaiters := [] } := by
  rw [finish, Turn.shutDown_of_emptied emptied, Turn.pool_finishClose]

theorem emptied_finish : (p.finish w).pool.Emptied := by
  have emptied := Turn.emptied_shutDown (w := w) (t := ⟨p, []⟩)
  rw [finish, Turn.pool_finishClose]
  exact ⟨emptied.closed, emptied.unwanted, emptied.unregistered⟩

theorem effects_finish (emptied : p.Emptied) :
    (p.finish w).effects = p.closeWaiters.map fun k => .answer k .done := by
  rw [finish, Turn.shutDown_of_emptied emptied, Turn.effects_finishClose]
  rfl

theorem handle_close (opened : p.closed = false) :
    p.handle w (.close k) = Turn.settleClose
      { (Turn.mk p []).shutDown w with
        pool := { ((Turn.mk p []).shutDown w).pool with
          closeWaiters := ((Turn.mk p []).shutDown w).pool.closeWaiters ++ [k] } } := by
  simp only [handle, Turn.perform, Turn.close, opened, Bool.false_eq_true, if_false]
  rw [Turn.servePending, if_pos Turn.closed_shutDown]

theorem effects_handle_close (opened : p.closed = false) (nobody : p.closeWaiters = []) :
    ∃ front, (p.handle w (.close k)).effects = front ++
      if (p.handle w (.close k)).pool.registry.isDrained then [.answer k .done] else [] := by
  rw [handle_close opened, Turn.registry_settleClose, Turn.settleClose]
  refine ⟨((Turn.mk p []).shutDown w).effects, ?_⟩
  split
  · next complete =>
    rw [if_pos complete.2, Turn.effects_finishClose]
    dsimp only
    rw [Turn.closeWaiters_shutDown, nobody]
    rfl
  · next incomplete =>
    rw [if_neg fun drained => incomplete ⟨Turn.closed_shutDown, drained⟩, List.append_nil]
    rfl

theorem emptied_handle_close (opened : p.closed = false) :
    (p.handle w (.close k)).pool.Emptied := by
  have emptied := Turn.emptied_shutDown (w := w) (t := ⟨p, []⟩)
  rw [handle_close opened]
  constructor
  · rw [Turn.closed_settleClose]
    exact emptied.closed
  · rw [Turn.pending_settleClose]
    exact emptied.unwanted
  · rw [Turn.registry_settleClose]
    exact emptied.unregistered

end Pool

/-! ### Runs -/

def Scene.Unawaited (sc : Scene) : Prop :=
  sc.pool.closed = false → sc.pool.closeWaiters = [] ∧ sc.hand.closer = none

variable {sc sc' : Scene} {past past' : List Site.Record} {k : Ticket}

theorem unawaited_move (move : Move sc sc') (unawaited : sc.Unawaited) : sc'.Unawaited := by
  intro opened
  cases move with
  | event order allowed =>
    simp only [Scene.pool, Site.pool_happen] at opened ⊢
    exact unawaited opened
  | begin free due =>
    simp only [Scene.pool, Site.pool_next? due] at opened ⊢
    exact ⟨(unawaited opened).1, trivial⟩
  | wait order => exact unawaited opened
  | shut task ends opened' => cases opened
  | await owed =>
    have nobody := (unawaited opened).2
    rw [owed] at nobody
    cases nobody
  | report free closed complete => cases closed.symm.trans opened
  | _ =>
    simp only [Scene.pool_emit, Scene.pool_alter] at opened
    have nobody := unawaited opened
    refine ⟨by simpa only [Scene.pool_emit, Scene.pool_alter] using nobody.1, ?_⟩
    first | exact nobody.2 | rfl

theorem firstCloser?_records {now : Nat} {c : Option Command} {p : Pool} {t : Turn} :
    Site.firstCloser? (past ++ Site.records now c p t) =
      (Site.firstCloser? past).or (c.bind Command.closer?) := by
  rw [Site.firstCloser?, List.findSome?_append]
  congr 1
  rw [Site.records, List.findSome?_cons]
  cases asks : c.bind Command.closer? with
  | some k => rfl
  | none =>
    -- Every entry of a turn is about the command that the turn handles.
    refine List.findSome?_eq_none_iff.mpr fun rec member => ?_
    obtain ⟨m, -, rfl⟩ := List.mem_map.mp member
    exact asks

variable {config : Config} {observer : Hook → Nat → Option String} {now later now' : Nat}
  {s rest s' : Site} {c : Option Command}

theorem ended_after (course : Site.Course later rest) (c : Option Command) :
    (course.after c).ended = rest.ended :=
  course.ended_amid _

/-- How far the close of a pool has come between two turns. As long as the task of a closed pool is
not over, the caller whose close was the first one waits until nothing is left. -/
inductive Site.Stage (past : List Site.Record) (s : Site) : Prop where
  | unasked (nobody : Site.firstCloser? past = none) (going : s.ended = false)
  | asked (k : Ticket) (first : Site.firstCloser? past = some k) (emptied : s.pool.Emptied)
      (waiters : s.pool.closeWaiters = if s.pool.registry.isDrained then [] else [k])
  | finished (stopped : s.ended = true) (emptied : s.pool.Emptied)

theorem opening_of_due (a : sc.Accounted) (free : sc.hand = {}) {c : Command}
    (due : sc.site.next? = some (some c, rest)) (connected : c.isConnected = true) :
    0 < sc.registry.connecting := by
  rw [a.opening, Scene.underWay_of_free free, Site.underWay_next? due]
  simp [connected]

structure Scene.Leaving (sc : Scene) : Prop where
  watched : sc.Watched
  unawaited : sc.Unawaited

theorem leaving_move (move : Move sc sc') (leaving : sc.Leaving) : sc'.Leaving :=
  ⟨watched_move move leaving.watched, unawaited_move move leaving.unawaited⟩

theorem leaving_of_run (run : Site.Run config observer past now s) :
    ∃ m, Scene.Leaving { now, site := s, memory := m, past } :=
  run_invariant Scene.Leaving run leaving_move
    ⟨watched_start config observer, fun _ => ⟨rfl, rfl⟩⟩

/-- The task of a pool that has a command to handle is not over. -/
theorem going_of_due {m : Memory} {c : Command}
    (ends : Scene.Ends { now, site := s, memory := m, past })
    (due : s.next? = some (some c, rest)) : s.ended = false := by
  by_contra stopped
  have empty := (ends.ended (by simpa using stopped)).2
  rw [Site.mailbox_next? due] at empty
  cases empty

theorem farewell_of_due (run : Site.Run config observer past now s) (emptied : s.pool.Emptied)
    {c : Command} (due : s.next? = some (some c, rest)) (course : Site.Course later rest) :
    s.pool.Farewell c (course.turn (some c)) := by
  obtain ⟨m, leaving⟩ := leaving_of_run run
  rw [Site.Course.turn, Site.pool_next? due]
  exact Pool.farewell_handle emptied (opening_of_due leaving.watched.kept.accounted rfl due)

theorem drained_of_farewell {p : Pool} {c : Command} {t : Turn} (emptied : p.Emptied)
    (farewell : p.Farewell c t) (drained : p.registry.isDrained = true) :
    t.pool.registry.isDrained = true := by
  have before := emptied.isDrained_iff.mp drained
  have less := farewell.awaited
  exact farewell.emptied.isDrained_iff.mpr (by omega)

theorem closeWaiters_handle_close {w : Surroundings} {p : Pool} (opened : p.closed = false)
    (nobody : p.closeWaiters = []) :
    (p.handle w (.close k)).pool.closeWaiters =
      if (p.handle w (.close k)).pool.registry.isDrained then [] else [k] := by
  rw [Pool.handle_close opened, Turn.registry_settleClose, Turn.settleClose]
  split
  · next complete => rw [if_pos complete.2, Turn.pool_finishClose]
  · next incomplete =>
    rw [if_neg fun drained => incomplete ⟨Turn.closed_shutDown, drained⟩]
    dsimp only
    rw [Turn.closeWaiters_shutDown, nobody, List.nil_append]

theorem stage_turn (run : Site.Run config observer past now s) (stage : s.Stage past)
    (due : s.next? = some (c, rest)) (course : Site.Course later rest) :
    (course.after c).Stage (past ++ Site.records later c s.pool (course.turn c)) := by
  obtain ⟨m, leaving⟩ := leaving_of_run run
  have ends := leaving.watched.kept.ends
  cases c with
  | none =>
    exact .finished ((ended_after course none).trans (Site.ended_next? due)) Pool.emptied_finish
  | some c =>
    cases stage with
    | finished stopped emptied => cases stopped.symm.trans (going_of_due ends due)
    | asked k first emptied waiters =>
      have farewell := farewell_of_due run emptied due course
      refine .asked k (by rw [firstCloser?_records, first]; rfl) farewell.emptied ?_
      change (course.turn (some c)).pool.closeWaiters =
        if (course.turn (some c)).pool.registry.isDrained then [] else [k]
      rw [farewell.waiters, waiters]
      -- Once nothing is left, nothing comes back.
      cases drained : s.pool.registry.isDrained with
      | true => simp [drained_of_farewell emptied farewell drained]
      | false => rfl
    | unasked nobody going =>
      have opened : s.pool.closed = false :=
        open_of_first ends leaving.watched.closing nobody due
      cases asks : c.closer? with
      | some k =>
        cases closer?_eq_some (c := some c) asks
        have waiters := (leaving.unawaited opened).1
        rw [← Site.pool_next? due] at opened
        refine .asked k (by rw [firstCloser?_records, nobody]; rfl)
          (Pool.emptied_handle_close opened) (closeWaiters_handle_close opened ?_)
        rw [Site.pool_next? due]
        exact waiters
      | none =>
        refine .unasked ?_ ?_
        · rw [firstCloser?_records, nobody]
          exact asks
        · rw [ended_after]
          cases Site.next_of_due due with
          | command oldest => exact going

/-- Between two turns a closed pool is empty, and its first close waits for what is left. -/
theorem stage_of_run (run : Site.Run config observer past now s) : s.Stage past := by
  induction run with
  | start => exact .unasked rfl rfl
  | event before order allowed ih =>
    cases ih with
    | unasked nobody going => exact .unasked nobody ((Site.ended_happen _).trans going)
    | asked k first emptied waiters =>
      refine .asked k first ?_ ?_ <;> rw [Site.pool_happen]
      · exact emptied
      · exact waiters
    | finished stopped emptied =>
      refine .finished ((Site.ended_happen _).trans stopped) ?_
      rw [Site.pool_happen]
      exact emptied
  | turn before order due course ih => exact stage_turn before ih due course

structure Effect.Late (e : Effect) : Prop where
  starts : e.starts = []
  lends : e.lends? = none
  calls : ∀ h serial refusal, e ≠ .hook h serial refusal

theorem late_answer {outcome : Outcome} (plain : ∀ id serial, outcome ≠ .loan id serial) :
    Effect.Late (.answer k outcome) := by
  refine ⟨rfl, ?_, fun _ _ _ same => by cases same⟩
  cases outcome with
  | loan id serial => exact absurd rfl (plain id serial)
  | _ => rfl

theorem late_of_failing {target : Target} {cause : PoolError} {e : Effect}
    (member : e ∈ target.farewell cause) : e.Late := by
  cases target with
  | owned r =>
    rcases List.mem_append.mp member with stopped | told
    · obtain ⟨timer, -, rfl⟩ := List.mem_map.mp stopped
      exact ⟨rfl, rfl, fun _ _ _ same => by cases same⟩
    · rw [List.mem_singleton.mp told]
      exact late_answer fun _ _ same => by cases same
  | queued request => cases member

theorem late_of_done {ks : List Ticket} {e : Effect}
    (member : e ∈ ks.map fun k => .answer k .done) : e.Late := by
  obtain ⟨k, -, rfl⟩ := List.mem_map.mp member
  exact late_answer fun _ _ same => by cases same

theorem late_of_farewell {p : Pool} {c : Command} {e : Effect} (member : e ∈ p.farewell c) :
    e.Late := by
  cases c with
  | acquire k =>
    rw [List.mem_singleton.mp member]
    exact late_answer fun _ _ same => by cases same
  | release id k =>
    have told : e ∈ [k].map fun k => .answer k .done := member
    exact late_of_done told
  | close k =>
    have told : e ∈ [k].map fun k => .answer k .done := member
    exact late_of_done told
  | stats k =>
    rw [List.mem_singleton.mp member]
    exact late_answer fun _ _ same => by cases same
  | connected target result =>
    cases result with
    | error cause => exact late_of_failing member
    | ok serial =>
      rcases List.mem_append.mp member with closed | told
      · simp only [List.mem_cons, List.not_mem_nil, or_false] at closed
        rcases closed with rfl | rfl <;> exact ⟨rfl, rfl, fun _ _ _ same => by cases same⟩
      · exact late_of_failing told
  | checked id healthy reply => exact late_of_done member
  | _ => cases member

/-- What follows on an empty pool, as far as the record tells. -/
theorem late_onward (run : Site.Run config observer past now s) (emptied : s.pool.Emptied)
    (onward : Site.Onward past now s past' now' s') :
    s'.pool.Emptied ∧ s'.pool.registry.connecting ≤ s.pool.registry.connecting ∧
      ∃ more, past' = past ++ more ∧ ∀ rec ∈ more, ∀ e, rec.effect = some e → e.Late := by
  induction onward with
  | refl => exact ⟨emptied, Nat.le_refl _, [], (List.append_nil _).symm, fun _ none_left => by
      cases none_left⟩
  | event before order allowed ih =>
    rw [Site.pool_happen]
    exact ih
  | @turn past₁ now₁ later s₁ rest c before order due course ih =>
    obtain ⟨emptied₁, fewer, more, rfl, late⟩ := ih
    have now_emptied : (course.turn c).pool.Emptied ∧
        (course.turn c).pool.registry.connecting ≤ s₁.pool.registry.connecting ∧
          ∀ e ∈ (course.turn c).effects, e.Late := by
      cases c with
      | some c =>
        have farewell := farewell_of_due (Site.run_onward run before) emptied₁ due course
        refine ⟨farewell.emptied, farewell.connecting, fun e member => ?_⟩
        rw [farewell.effects, List.mem_append] at member
        rcases member with said | told
        · exact late_of_farewell said
        · split at told
          · exact late_of_done told
          · cases told
      | none =>
        have same := Site.pool_next? due
        rw [← same] at emptied₁ ⊢
        refine ⟨Pool.emptied_finish, ?_, fun e member => ?_⟩
        · refine Nat.le_of_eq ?_
          rw [Site.Course.turn, Pool.respond, Pool.pool_finish emptied₁]
        · rw [Site.Course.turn, Pool.respond, Pool.effects_finish emptied₁] at member
          exact late_of_done member
    refine ⟨now_emptied.1, Nat.le_trans now_emptied.2.1 fewer, more ++ _,
      List.append_assoc _ _ _, ?_⟩
    intro rec member e effect
    rcases List.mem_append.mp member with older | newer
    · exact late rec older e effect
    · rcases List.mem_cons.mp newer with rfl | logged
      · cases effect
      · obtain ⟨m, happened, rfl⟩ := List.mem_map.mp logged
        cases effect
        exact now_emptied.2.2 _ (List.mem_map_of_mem happened)

theorem drained_units {r : Registry} (b : r.Balanced) (unregistered : r.entries = []) :
    r.idle = [] ∧ r.acquired = r.connecting := by
  have units := b.units
  rw [Registry.inUse, unregistered, List.countP_nil, Nat.add_zero] at units
  refine ⟨List.eq_nil_iff_forall_not_mem.mpr fun id member => ?_, units⟩
  have known := (b.idle id).mp member
  simp [Registry.slot?, Registry.find?, unregistered] at known

/-- Between turns the caller whose close was the first one waits for its end, or has been told. -/
theorem waits_or_answered {m : Memory}
    (watched : Scene.Watched { now, site := s, memory := m, past })
    (first : Site.firstCloser? past = some k) :
    (k ∈ s.pool.closeWaiters ∨ 1 ≤ Site.answers past k) ∧
      Site.answers past k + s.pool.closeWaiters.countP (fun t => t = k) ≤ 1 := by
  constructor
  · cases watched.closing.pledged k first with
    | begun task opened => cases task
    | closing closer => cases closer
    | waiting waits => exact .inl waits
    | due owed complete => cases owed
    | done answered => exact .inr answered
  · have once : Site.answers past k + _ ≤ 1 := watched.kept.answered.once k
    rw [Scene.owed, dues_eq] at once
    simp only [Pool.dues, Scene.pool] at once
    omega

/-- The caller whose close was the first one has been answered when nothing is left, and not
before. -/
theorem answers_of_stage {m : Memory}
    (watched : Scene.Watched { now, site := s, memory := m, past })
    (first : Site.firstCloser? past = some k)
    (waiters : s.pool.closeWaiters = if s.pool.registry.isDrained then [] else [k]) :
    Site.answers past k = if s.pool.registry.isDrained then 1 else 0 := by
  obtain ⟨settled, once⟩ := waits_or_answered watched first
  rw [waiters] at settled once
  split <;> simp_all
  omega

/-- What holds of a site at which the first close has been handled, as long as the task of the pool
is not over. -/
theorem waiters_of_stage (stage : s.Stage past) (first : Site.firstCloser? past = some k)
    (going : s.ended = false) :
    s.pool.Emptied ∧ s.pool.closeWaiters = if s.pool.registry.isDrained then [] else [k] := by
  cases stage with
  | unasked nobody going => cases nobody.symm.trans first
  | finished stopped emptied => cases stopped.symm.trans going
  | asked k' first' emptied waiters =>
    cases first'.symm.trans first
    exact ⟨emptied, waiters⟩

/-- What a command comes to while the first close waits for what is left. -/
theorem turn_of_waiters (run : Site.Run config observer past now s) (emptied : s.pool.Emptied)
    (waiters : s.pool.closeWaiters = if s.pool.registry.isDrained then [] else [k]) {c : Command}
    (due : s.next? = some (some c, rest)) (course : Site.Course later rest) :
    (course.turn (some c)).effects = s.pool.farewell c ++
      (if s.pool.registry.isDrained = false ∧
          (course.turn (some c)).pool.registry.isDrained = true then [.answer k .done]
        else []) ∧
    (course.turn (some c)).pool.registry.connecting ≤ s.pool.registry.connecting ∧
    ∀ k', c = .close k' → (course.turn (some c)).pool = s.pool := by
  have farewell := farewell_of_due run emptied due course
  refine ⟨?_, farewell.connecting, ?_⟩
  · rw [farewell.effects, waiters]
    cases drained : s.pool.registry.isDrained with
    | true => simp
    | false => simp
  · rintro k' rfl
    rw [Site.Course.turn, Site.pool_next? due]
    apply Pool.pool_handle_close emptied
    intro drained
    rw [waiters, if_pos drained]

/-- What holds for good once the first close of a pool has been handled. Nothing waits, is idle or
is registered, and ever fewer connections are being opened; no hook is called, nothing is opened,
checked or lent. What the pool does on a command is its farewell to it. The first close is answered
at the end of the turn that leaves nothing, and to close again changes nothing. -/
theorem closed_for_good (run : Site.Run config observer past now s) (order : now ≤ later)
    (due : s.next? = some (some (.close k), rest)) (course : Site.Course later rest)
    (opened : s.pool.closed = false)
    (onward : Site.Onward
      (past ++ Site.records later (some (.close k)) s.pool (course.turn (some (.close k)))) later
      (course.after (some (.close k))) past' now' s') :
    (∃ front, (course.turn (some (.close k))).effects = front ++
      if (course.turn (some (.close k))).pool.registry.isDrained then [.answer k .done] else []) ∧
    (s'.pool.Emptied ∧ s'.pool.registry.idle = [] ∧
      s'.pool.registry.acquired = s'.pool.registry.connecting ∧
      s'.pool.registry.connecting ≤
        (course.turn (some (.close k))).pool.registry.connecting) ∧
    (∃ more, past' = past ++ Site.records later (some (.close k)) s.pool
        (course.turn (some (.close k))) ++ more ∧
      ∀ rec ∈ more, ∀ e, rec.effect = some e → e.Late) ∧
    (s'.handles ≠ 0 → Site.answers past' k = if s'.pool.registry.isDrained then 1 else 0) ∧
    ∀ later' rest' c (course' : Site.Course later' rest'), s'.next? = some (some c, rest') →
      (course'.turn (some c)).effects = s'.pool.farewell c ++
        (if s'.pool.registry.isDrained = false ∧
            (course'.turn (some c)).pool.registry.isDrained = true then [.answer k .done]
          else []) ∧
      (course'.turn (some c)).pool.registry.connecting ≤ s'.pool.registry.connecting ∧
      ∀ k', c = .close k' → (course'.turn (some c)).pool = s'.pool := by
  obtain ⟨m, leaving⟩ := leaving_of_run run
  have same := Site.pool_next? due
  have nobody : Site.firstCloser? past = none := by
    cases stage_of_run run with
    | unasked nobody going => exact nobody
    | asked k' first emptied waiters => cases opened.symm.trans emptied.closed
    | finished stopped emptied => cases opened.symm.trans emptied.closed
  have waiters : s.pool.closeWaiters = [] := (leaving.unawaited opened).1
  have closing : Site.Run config observer _ later (course.after (some (.close k))) :=
    .turn run order due course
  have run' := Site.run_onward closing onward
  have emptied : (course.after (some (.close k))).pool.Emptied := by
    rw [← same] at opened
    exact Pool.emptied_handle_close opened
  obtain ⟨emptied', fewer, more, record, late⟩ := late_onward closing emptied onward
  have first : Site.firstCloser? past' = some k := by
    rw [record, Site.firstCloser?, List.findSome?_append]
    change (Site.firstCloser? _).or _ = _
    rw [firstCloser?_records, nobody]
    rfl
  obtain ⟨m', leaving'⟩ := leaving_of_run run'
  have units := drained_units leaving'.watched.kept.accounted.balanced emptied'.unregistered
  refine ⟨?_, ⟨emptied', units.1, units.2, fewer⟩, ⟨more, record, late⟩, ?_, ?_⟩
  · rw [← same] at opened waiters
    exact Pool.effects_handle_close opened waiters
  · intro held
    have going : s'.ended = false := by
      by_contra stopped
      have lost := (leaving'.watched.kept.ends.ended (by simpa using stopped)).1
      exact held (Site.handles_of_lost lost)
    exact answers_of_stage leaving'.watched first
      (waiters_of_stage (stage_of_run run') first going).2
  · intro later' rest' c course' due'
    have going := going_of_due leaving'.watched.kept.ends due'
    have waiters := (waiters_of_stage (stage_of_run run') first going).2
    exact turn_of_waiters run' emptied' waiters due' course'

/-- A pool is asked to close while a connection is being opened. -/
def closedEarly : List (Nat × Option Site.Event) :=
  [(0, some (.acquire ⟨1⟩)), (0, none), (3, some (.close ⟨2⟩))]

theorem closed_of_closedEarly :
    ∃ (past : List Site.Record) (s : Site) (c : Command) (rest : Site),
      Site.answers past ⟨2⟩ = 0 ∧ s.next? = some (some c, rest) ∧
      ((Site.Course.alone 5 rest).turn (some c)).effects =
        [.listen ⟨1⟩ ⟨1⟩, .close ⟨1⟩, .answer ⟨1⟩ (.failed .poolClosed), .answer ⟨2⟩ .done] := by
  obtain ⟨past, now, s, rest, c, past', now', s', course, run, order, due, onward, seen⟩ :=
    Site.exists_turn {} (fun _ _ => none) closedEarly [(5, some (.connected ⟨0⟩ (.ok (⟨1⟩, {}))))] 3
      (fun _ s c _ _ s' => c.bind Command.closer? == some ⟨2⟩ && !s.pool.closed &&
        s'.handles == 1 && !s'.pool.registry.isDrained && s'.next?.any fun due =>
          due.1.any fun c' => s'.pool.farewell c' ==
              [.listen ⟨1⟩ ⟨1⟩, .close ⟨1⟩, .answer ⟨1⟩ (.failed .poolClosed)] &&
            ((Site.Course.alone 5 due.2).turn (some c')).pool.registry.isDrained)
      (by decide +kernel)
  simp only [Bool.and_eq_true, beq_iff_eq, Bool.not_eq_true', Option.any_eq_true,
    Prod.exists] at seen
  obtain ⟨⟨⟨⟨asks, opened⟩, held⟩, undrained⟩, _, rest', due', c', rfl, farewell, drained⟩ := seen
  cases closer?_eq_some asks
  obtain ⟨-, -, -, answered, next⟩ := closed_for_good run order due course opened onward
  obtain ⟨effects, -, -⟩ := next 5 rest' c' (.alone 5 rest') due'
  rw [farewell, if_pos ⟨undrained, drained⟩] at effects
  refine ⟨past', s', c', rest', ?_, due', effects⟩
  rw [answered (by simp [held]), if_neg (by simp [undrained])]

end LoanPool
