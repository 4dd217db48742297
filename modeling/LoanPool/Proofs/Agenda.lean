import LoanPool.Pool.Agenda

/-!
# What an agenda comes to

The chores of a turn, done one after the other, come to what the turn does in its nested loops.
Work on a chore makes no difference to that, because what it leaves in its place comes to the same;
so no induction is needed but the one on the number of chores that are done.
-/
namespace LoanPool
open Pending (Request)

namespace Turn

def complete (w : Surroundings) (t : Turn) : Chore → Turn
  | .look (some r) =>
    match t.checkout w with
    | (some id, t) => t.deliver w r id
    | (none, t) =>
      if t.pool.registry.acquired < t.pool.config.maxConnections then t.openFor w (.owned r)
      else t.lineUp w r
  | .look none =>
    match t.checkout w with
    | (some id, t) =>
      match t.popLive w with
      | (some r, t) => (t.deliver w r id).serve w
      | (none, t) => t.putBack id
    | (none, t) =>
      if t.pool.registry.acquired < t.pool.config.maxConnections then
        match t.popLive w with
        | (some r, t) => ((t.disarm r).openFor w (.owned { r with timer := none })).serve w
        | (none, t) => t
      else t
  | .deliver r id => t.deliver w r id
  | .recycle id => t.recycle w id
  | .serve => t.serve w
  | .servePending => t.servePending w
  | .answer? reply outcome => t.answer? reply outcome
  | .settleClose => t.settleClose

end Turn

/-- What has become of a turn when all that is left has been done. -/
def Agenda.outcome (w : Surroundings) (a : Agenda) : Turn :=
  a.chores.foldl (Turn.complete w) a.turn

namespace Turn

/-! ### What the chores come to -/

theorem complete_look (w : Surroundings) (t : Turn) (newcomer : Option Request) :
    t.complete w (.look newcomer) = match t.checkout w with
      | (some id, t) => (t.found w id newcomer).outcome w
      | (none, t) => (t.missed w newcomer).outcome w := by
  cases newcomer with
  | some r =>
    simp only [complete, found, missed, Agenda.outcome]
    split
    · rfl
    · split <;> rfl
  | none =>
    simp only [complete, found, missed, Agenda.outcome]
    split
    · next id t' _ =>
      cases popped : t'.popLive w with
      | mk r t'' => cases r <;> rfl
    · next t' _ =>
      cases popped : t'.popLive w with
      | mk r t'' => split <;> cases r <;> rfl

theorem complete_deliver (w : Surroundings) (t : Turn) (r : Request) (id : ConnId) :
    t.complete w (.deliver r id) =
      if (t.attempt w r id).1 then (t.attempt w r id).2.complete w (.recycle id)
      else (t.attempt w r id).2 :=
  rfl

theorem complete_recycle (w : Surroundings) (t : Turn) (id : ConnId) :
    t.complete w (.recycle id) = match t.popLive w with
      | (some r, t) => (t.handOver id).complete w (.deliver r id)
      | (none, t) => t.shelve w id := by
  simp only [complete, deliver]
  rw [recycle_eq]
  cases popped : t.popLive w with
  | mk r t' => cases r <;> rfl

theorem complete_serve (w : Surroundings) (t : Turn) :
    t.complete w .serve =
      if t.pool.pending.requests.isEmpty then t else t.complete w (.look none) :=
  serve_eq w t

/-- Work on a chore makes no difference to what it comes to. -/
theorem outcome_work (w : Surroundings) (t : Turn) (chore : Chore) :
    (t.work w chore).outcome w = t.complete w chore := by
  cases chore with
  | look newcomer =>
    rw [complete_look, checkout_eq]
    simp only [work]
    cases taken : t.pool.registry.checkout? with
    | none => rfl
    | some next =>
      obtain ⟨id, r⟩ := next
      dsimp only
      split
      · rfl
      · exact complete_look w _ newcomer
  | deliver r id =>
    rw [complete_deliver]
    simp only [work, Agenda.outcome]
    split <;> rfl
  | recycle id =>
    rw [complete_recycle]
    simp only [work, Agenda.outcome]
    cases popped : t.popLive w with
    | mk r t' => cases r <;> rfl
  | serve =>
    rw [complete_serve]
    simp only [work, Agenda.outcome]
    split <;> rfl
  | servePending =>
    simp only [work, Agenda.outcome, complete, servePending]
    split <;> rfl
  | answer? reply outcome => rfl
  | settleClose => rfl

theorem outcome_takeUpReturn (w : Surroundings) (t : Turn) (id : ConnId) (reply : Option Ticket) :
    (t.takeUpReturn w id reply).outcome w = t.takeBack w id reply := by
  simp only [takeUpReturn, takeBack]
  split
  · rfl
  cases t.pool.registry.beginCheck? id with
  | none => rfl
  | some begun =>
    obtain ⟨serial, r⟩ := begun
    dsimp only
    split
    · rfl
    cases (t.withRegistry r).refusal w .released serial with
    | some reason => rfl
    | none =>
      dsimp only
      split
      · rfl
      · split <;> rfl

theorem outcome_takeUpPlace (w : Surroundings) (t : Turn) (target : Target) (id : ConnId) :
    (t.takeUpPlace target id).outcome w = t.place w target id := by
  cases target with
  | owned r => rfl
  | queued request =>
    simp only [takeUpPlace, place]
    cases fetched : t.takePending request with
    | mk r t' => cases r <;> rfl

theorem outcome_takeUpConnection (w : Surroundings) (t : Turn) (target : Target)
    (serial : Serial) :
    (t.takeUpConnection w target serial).outcome w = t.connected w target (.ok serial) := by
  simp only [takeUpConnection, connected]
  split
  · rfl
  cases (t.register serial).2.refusal w .created serial with
  | some reason => rfl
  | none => exact outcome_takeUpPlace w _ target _

theorem outcome_takeUp (w : Surroundings) (t : Turn) (c : Command) :
    (t.takeUp w c).outcome w = t.perform w c := by
  cases c with
  | acquire ticket =>
    simp only [takeUp, perform, acquire]
    split <;> rfl
  | release id ticket => exact outcome_takeUpReturn w t id (some ticket)
  | dropped id => exact outcome_takeUpReturn w t id none
  | connected target result =>
    cases result with
    | error cause => rfl
    | ok serial => exact outcome_takeUpConnection w t target serial
  | checked id healthy reply =>
    simp only [takeUp, perform, checked]
    split
    · rfl
    · split <;> rfl
  | close ticket => rfl
  | stats ticket => rfl
  | timedOut request => rfl
  | closed id => rfl

end Turn

namespace Agenda

theorem outcome_followedBy (w : Surroundings) (a : Agenda) (more : List Chore) :
    (a.followedBy more).outcome w = more.foldl (Turn.complete w) (a.outcome w) :=
  List.foldl_append

theorem outcome_start (w : Surroundings) (p : Pool) (c : Command) :
    (start w p c).outcome w = p.handle w c := by
  rw [start, outcome_followedBy, Turn.outcome_takeUp]
  rfl

theorem outcome_step (w : Surroundings) (a : Agenda) : (a.step w).outcome w = a.outcome w := by
  obtain ⟨t, chores⟩ := a
  cases chores with
  | nil => rfl
  | cons chore rest =>
    simp only [step]
    rw [outcome_followedBy, Turn.outcome_work]
    rfl

theorem outcome_run (w : Surroundings) (a : Agenda) (n : Nat) :
    (a.run w n).outcome w = a.outcome w := by
  induction n generalizing a with
  | zero => rfl
  | succ n ih => exact (ih (a.step w)).trans (outcome_step w a)

end Agenda

end LoanPool
