import LoanPool.Proofs.Registry.Slots
import LoanPool.Proofs.Reach
import LoanPool.Proofs.Scene
import LoanPool.Proofs.Standing

/-!
# Turns unfolded

Whatever a pool does in a turn, and whatever happens at its site meanwhile, is a path of moves.
The functions that make up a turn are followed one by one; each loop follows its own recursion.
-/
namespace LoanPool
open Pending (Request)

/-! ### The site around the pool -/

namespace Site
variable (s : Site) (p : Pool)

@[simp] theorem pool_withPool : (s.withPool p).pool = p := rfl

theorem allows_withPool (now : Nat) (e : Event) :
    (s.withPool p).allows now e = s.allows now e := by
  cases e with
  | connected job result => rcases result with _ | ⟨_, _⟩ <;> rfl
  | _ => rfl

theorem report_withPool (c : Command) : (s.withPool p).report c = (s.report c).withPool p := by
  simp only [report]
  rw [show (s.withPool p).isReachable = s.isReachable from rfl]
  cases s.isReachable <;> rfl

theorem release_withPool (k reply : Ticket) :
    (s.withPool p).release k reply = (s.release k reply).withPool p := by
  simp only [release]
  rw [show (s.withPool p).standing k = s.standing k from rfl]
  cases s.standing k <;> rfl

theorem read_withPool (k : Ticket) :
    ((s.withPool p).read k).2 = (s.read k).2.withPool p := by
  simp only [read]
  rw [show (s.withPool p).standing k = s.standing k from rfl]
  split <;> rfl

theorem abandon_withPool (k : Ticket) : (s.withPool p).abandon k = (s.abandon k).withPool p := by
  simp only [abandon]
  rw [show (s.withPool p).standing k = s.standing k from rfl]
  split
  · rfl
  · exact report_withPool (s.setStanding k .abandoned) p _
  · rfl
  · rfl

theorem dropLoan_withPool (k : Ticket) :
    (s.withPool p).dropLoan k = (s.dropLoan k).withPool p := by
  simp only [dropLoan]
  rw [show (s.withPool p).standing k = s.standing k from rfl]
  split
  · exact report_withPool (s.setStanding k .spent) p _
  · rfl

theorem finishConnect_withPool (job : JobId) (result : Except String (Serial × Connection)) :
    (s.withPool p).finishConnect job result = (s.finishConnect job result).withPool p := by
  simp only [finishConnect]
  rw [show (s.withPool p).connectJob? job = s.connectJob? job from rfl]
  cases s.connectJob? job with
  | none => rfl
  | some j => cases result <;> rfl

theorem finishCheck_withPool (job : JobId) (healthy : Bool) :
    (s.withPool p).finishCheck job healthy = (s.finishCheck job healthy).withPool p := by
  simp only [finishCheck]
  rw [show (s.withPool p).checkJob? job = s.checkJob? job from rfl]
  cases s.checkJob? job <;> rfl

theorem passDeadline_withPool (timer : TimerId) :
    (s.withPool p).passDeadline timer = (s.passDeadline timer).withPool p := by
  simp only [passDeadline]
  rw [show (s.withPool p).deadlines = s.deadlines from rfl]
  cases s.deadlines.find? (·.timer = timer) with
  | none => rfl
  | some d => exact report_withPool { s with deadlines := _ } p _

theorem happen_withPool (e : Event) : (s.withPool p).happen e = (s.happen e).withPool p := by
  cases e with
  | release k reply => exact release_withPool s p k reply
  | read k => exact read_withPool s p k
  | abandon k => exact abandon_withPool s p k
  | dropLoan k => exact dropLoan_withPool s p k
  | connected job result => exact finishConnect_withPool s p job result
  | checked job healthy => exact finishCheck_withPool s p job healthy
  | deadline timer => exact passDeadline_withPool s p timer
  | notice id => exact report_withPool { s with listeners := _ } p _
  | _ => rfl

theorem enact_withPool (now : Nat) (e : Effect) :
    (s.withPool p).enact now e = (s.enact now e).withPool p := by
  cases e with
  | answer k outcome =>
    simp only [enact]
    rw [show (s.withPool p).standing k = s.standing k from rfl]
    split <;> rfl
  | _ => rfl

end Site

theorem path_drift {now : Nat} {s s' : Site} (drift : Site.Drift now s s') (p : Pool) (h : Hand)
    (m : Memory) (past : List Site.Record) :
    Path { now, site := s.withPool p, hand := h, memory := m, past }
      { now, site := s'.withPool p, hand := h, memory := m, past } := by
  induction drift with
  | refl => exact .refl
  | @next mid e _ allowed ih =>
    apply ih.tail
    rw [← Site.happen_withPool]
    exact Move.event (Nat.le_refl now) ((Site.allows_withPool mid p now e).trans allowed)

/-! ### A turn in the middle -/

def Site.Course.views {now : Nat} {s : Site} (course : Course now s) (before : Pool) :
    List Effect → List Moment → List View
  | _, [] => []
  | done, m :: rest =>
    ⟨before, (course.amid done).withPool m.pool⟩ :: course.views before (done ++ [m.effect]) rest

namespace Site.Course
variable {now : Nat} {s : Site} (course : Course now s) (before : Pool)

theorem views_append (done : List Effect) (log more : List Moment) :
    course.views before done (log ++ more) =
      course.views before done log ++ course.views before (done ++ log.map (·.effect)) more := by
  induction log generalizing done with
  | nil => simp [views]
  | cons m rest ih => simp [views, ih]

theorem length_views (done : List Effect) (log : List Moment) :
    (course.views before done log).length = log.length := by
  induction log generalizing done with
  | nil => rfl
  | cons m rest ih => simp [views, ih]

end Site.Course

/-- A turn that is under way: the site on which it began, how that goes on meanwhile, and what went
before. -/
structure Setting where
  now : Nat
  site : Site
  course : Site.Course now site
  memory : Memory
  past : List Site.Record

namespace Setting

def scene (z : Setting) (t : Turn) (h : Hand) : Scene where
  now := z.now
  site := (z.course.amid t.effects).withPool t.pool
  hand := h
  memory := { z.memory with
    views := z.memory.views ++ z.course.views z.memory.before [] t.log }
  past := z.past ++ t.log.map fun m =>
    { now := z.now, command := z.memory.command, effect := some m.effect, pool := m.pool }

def world (z : Setting) : Surroundings :=
  Site.surroundings z.course.amid

end Setting

variable {z : Setting} {t : Turn} {h : Hand}

theorem effects_emit (t : Turn) (e : Effect) : (t.emit e).effects = t.effects ++ [e] := by
  simp [Turn.effects, Turn.emit]

/-- An effect takes place, and the site goes on from there. -/
theorem path_emit (e : Effect) : Path ((z.scene t h).emit e) (z.scene (t.emit e) h) := by
  have goes := path_drift (z.course.goes t.effects e) t.pool h ((z.scene t h).emit e).memory
    ((z.scene t h).emit e).past
  rw [← effects_emit, ← Site.enact_withPool] at goes
  simpa [Setting.scene, Scene.emit, Memory.see, Turn.emit, Turn.effects, Site.Course.views_append,
    Site.Course.views] using goes

theorem path_of_emit {t' : Turn} {h' : Hand} {e : Effect}
    (move : Move (z.scene t h) ((z.scene t' h').emit e)) :
    Path (z.scene t h) (z.scene (t'.emit e) h') :=
  .head move (path_emit e)

theorem gone_iff (t : Turn) (k : Ticket) :
    z.world.gone t.effects k = true ↔ (z.scene t h).site.standing k = .abandoned := by
  simp only [Setting.world, Site.surroundings, decide_eq_true_eq]
  rfl

theorem gone_emit {k : Ticket} (left : z.world.gone t.effects k = true) (e : Effect) :
    z.world.gone (t.emit e).effects k = true := by
  simp only [Setting.world, Site.surroundings, decide_eq_true_eq] at left ⊢
  rw [effects_emit]
  exact z.course.abandoned_append left [e]

theorem gone_disarm {k : Ticket} (left : z.world.gone t.effects k = true) (r : Request) :
    z.world.gone (t.disarm r).effects k = true := by
  simp only [Turn.disarm]
  split
  · exact gone_emit left _
  · exact left

/-! ### Single moves -/

theorem path_answer {k : Ticket} {ks : List Ticket} {outcome : Outcome}
    (owed : h.replies = k :: ks)
    (plain : outcome = .done ∨ ∃ reason, outcome = .failed (.observer reason)) :
    Path (z.scene t h) (z.scene (t.answer k outcome) { h with replies := ks }) :=
  path_of_emit (.answer owed plain)

theorem path_answer? {reply : Option Ticket} {outcome : Outcome}
    (owed : h.replies = reply.toList)
    (plain : outcome = .done ∨ ∃ reason, outcome = .failed (.observer reason)) :
    Path (z.scene t h) (z.scene (t.answer? reply outcome) { h with replies := [] }) := by
  cases reply with
  | none =>
    rw [show { h with replies := [] } = h by rw [← show h.replies = [] from owed]]
    exact .refl
  | some k => exact path_answer owed plain

theorem path_disarm {r : Request} {rs : List Request} (held : h.requests = r :: rs) :
    Path (z.scene t h)
      (z.scene (t.disarm r) { h with requests := { r with timer := none } :: rs }) := by
  simp only [Turn.disarm]
  split
  · next timer armed => exact path_of_emit (.disarm held armed)
  · next unarmed =>
    have same : { r with timer := none } = r := by rw [← unarmed]
    rw [same, ← held]

/-- For what a request may fail, its failure not being counted. Only a pool that is closed, or that
nothing holds on to any more, says that it is closed. -/
def Setting.Grounds (z : Setting) (t : Turn) : PoolError → Prop
  | .poolClosed => t.pool.closed = true ∨ z.world.reachable t.effects = false
  | .acquireTimedOut _ => False
  | .admissionRejected .. => False
  | _ => True

theorem grounds_disarm {cause : PoolError} (grounds : z.Grounds t cause) (r : Request) :
    z.Grounds (t.disarm r) cause := by
  cases cause with
  | poolClosed =>
    have lost : t.pool.closed = true ∨ z.world.reachable t.effects = false := grounds
    change (t.disarm r).pool.closed = true ∨ z.world.reachable (t.disarm r).effects = false
    rw [Turn.pool_disarm]
    refine lost.imp_right fun lost => ?_
    simp only [Turn.disarm]
    split
    · rw [effects_emit]
      exact z.course.lost_append lost rfl
    · exact lost
  | _ => exact grounds

theorem counted_of_grounds {cause : PoolError} (grounds : z.Grounds t cause) (c : Counters) :
    cause.counted c = c := by
  cases cause with
  | acquireTimedOut after => cases grounds
  | admissionRejected pending limit => cases grounds
  | _ => rfl

/-- A request without a timer fails. -/
theorem path_refused {r : Request} {rs : List Request} (cause : PoolError)
    (held : h.requests = r :: rs) (unarmed : r.timer = none)
    (lost : cause = .poolClosed → t.pool.closed = true ∨ z.world.reachable t.effects = false)
    (overdue : ∀ after, cause = .acquireTimedOut after → (z.scene t h).Overdue r after) :
    Path (z.scene t h)
      (z.scene ((t.count cause.counted).fail r cause) { h with requests := rs }) := by
  simp only [Turn.fail, Turn.disarm, unarmed]
  exact path_of_emit (.fail held unarmed lost overdue)

theorem path_fail {r : Request} {rs : List Request} {cause : PoolError}
    (held : h.requests = r :: rs) (grounds : z.Grounds t cause) :
    Path (z.scene t h) (z.scene (t.fail r cause) { h with requests := rs }) := by
  have still := grounds_disarm grounds r
  have failed := path_refused (z := z) (t := t.disarm r) (r := { r with timer := none })
    (h := { h with requests := { r with timer := none } :: rs }) cause rfl rfl
    (fun eq => by subst eq; exact still) (fun after eq => by subst eq; cases still)
  have same : (t.disarm r).count cause.counted = t.disarm r := by
    simp only [Turn.count, counted_of_grounds grounds]
  rw [same] at failed
  exact (path_disarm held).trans failed

theorem path_forsake {r : Request} {rs : List Request} (held : h.requests = r :: rs)
    (left : z.world.gone t.effects r.ticket = true) :
    Path (z.scene t h) (z.scene (t.disarm r) { h with requests := rs }) := by
  apply (path_disarm held).tail
  exact .forsake rfl rfl ((gone_iff _ _).mp (gone_disarm left r))

theorem path_call {id : ConnId} {serial : Serial} (hook : Hook) (held : h.conn = some id)
    (known : t.pool.registry.serial? id = some serial) (timely : h.stage.calls hook = true)
    (welcome : hook = .created → t.pool.closed = false) :
    Path (z.scene t h)
      (z.scene (t.call z.world hook serial)
        { h with stage := .told hook (t.refusal z.world hook serial) }) :=
  path_of_emit (.hook held known rfl timely welcome)

theorem path_discard {id : ConnId} (held : h.conn = some id)
    (unwelcome : h.stage = .opened → t.pool.closed = true) :
    Path (z.scene t h)
      (z.scene (t.discard z.world id) { h with conn := none, stage := .spare }) := by
  simp only [Turn.discard]
  split
  · next serial r removed => exact path_of_emit (.discard held (fun _ => rfl) removed unwelcome)
  · next kept => exact .single (.lose held (Registry.find?_of_kept kept))

theorem path_evict {id : ConnId} (free : h.task = none) (empty : h.conn = none)
    (closed : t.pool.closed = true) :
    Path (z.scene t h) (z.scene (t.discard z.world id) h) := by
  simp only [Turn.discard]
  split
  · next serial r removed =>
    exact path_of_emit (.evict free empty closed (fun _ => rfl) removed)
  · exact .refl

theorem path_takePending {id : RequestId} {found : Option Request} {t' : Turn}
    (free : h.task = none) (bare : h.requests = []) (called : (z.scene t h).Calls id)
    (eq : t.takePending id = (found, t')) :
    Path (z.scene t h) (z.scene t' { h with requests := found.toList }) := by
  simp only [Turn.takePending] at eq
  split at eq
  · next r q removed =>
    cases eq
    exact .single (.fetch free bare called removed)
  · cases eq
    rw [Option.toList_none, ← bare]

theorem path_popFrom {rs : List Request} {found : Option Request} {t' : Turn}
    (free : h.task = none) (bare : h.requests = []) (all : t.pool.pending.requests = rs)
    (eq : t.popFrom z.world rs = (found, t')) :
    Path (z.scene t h) (z.scene t' { h with requests := found.toList }) := by
  have same : { h with requests := [] } = h := by rw [← bare]
  induction rs generalizing t with
  | nil =>
    cases eq
    rw [Option.toList_none, same]
  | cons r rest ih =>
    simp only [Turn.popFrom] at eq
    have popped : Path (z.scene t h)
        (z.scene (t.withPending { t.pool.pending with requests := rest })
          { h with requests := [r] }) := .single (.pop free bare all)
    split at eq
    · next left =>
      have forsaken := popped.trans (path_forsake (h := { h with requests := [r] }) rfl left)
      rw [show { h with requests := [] } = h from same] at forsaken
      exact forsaken.trans (ih (by simp) eq)
    · cases eq
      exact popped

theorem path_popLive {found : Option Request} {t' : Turn} (free : h.task = none)
    (bare : h.requests = []) (eq : t.popLive z.world = (found, t')) :
    Path (z.scene t h) (z.scene t' { h with requests := found.toList }) :=
  path_popFrom free bare rfl eq

theorem path_disarmAll {gone rs : List Request} (held : h.requests = gone ++ rs)
    (left : ∀ r ∈ gone, z.world.gone t.effects r.ticket = true) :
    Path (z.scene t h) (z.scene (t.disarmAll gone) { h with requests := rs }) := by
  induction gone generalizing t h with
  | nil =>
    rw [← show h.requests = rs from held]
    exact .refl
  | cons r gone ih =>
    have rest : ∀ r' ∈ gone, z.world.gone (t.disarm r).effects r'.ticket = true :=
      fun r' member => gone_disarm (left r' (List.mem_cons_of_mem r member)) r
    exact (path_forsake held (left r List.mem_cons_self)).trans
      (ih (h := { h with requests := gone ++ rs }) rfl rest)

theorem path_prune {r : Request} (held : h.requests = [r]) :
    Path (z.scene t h) (z.scene (t.prune z.world) h) := by
  have left : ∀ r ∈ t.pool.pending.abandoned (z.world.gone t.effects),
      z.world.gone t.effects r.ticket = true := by
    intro r member
    exact (List.mem_filter.mp member).2
  have same : { h with requests := [r] } = h := by rw [← held]
  have dropped := path_disarmAll (z := z)
    (t := t.withPending (t.pool.pending.prune (z.world.gone t.effects)))
    (h := { h with requests := t.pool.pending.abandoned (z.world.gone t.effects) ++ [r] }) rfl left
  rw [show { h with requests := [r] } = h from same] at dropped
  exact .head (.sift held fun k => (gone_iff t k).mp) dropped

theorem grounds_takePending {id : RequestId} {found : Option Request} {t' : Turn}
    {cause : PoolError} (eq : t.takePending id = (found, t')) (grounds : z.Grounds t cause) :
    z.Grounds t' cause := by
  simp only [Turn.takePending] at eq
  split at eq <;> (cases eq; exact grounds)

theorem path_failTarget (target : Target) {cause : PoolError} (free : h.task = none)
    (held : h.requests = target.requests)
    (called : ∀ id, target = .queued id → (z.scene t h).Calls id) (grounds : z.Grounds t cause) :
    Path (z.scene t h) (z.scene (t.failTarget target cause) { h with requests := [] }) := by
  cases target with
  | owned r => exact path_fail held grounds
  | queued id =>
    match found : t.takePending id with
    | (some r, t') =>
      simp only [Turn.failTarget, found]
      exact (path_takePending free held (called id rfl) found).trans
        (path_fail (h := { h with requests := [r] }) rfl (grounds_takePending found grounds))
    | (none, t') =>
      simp only [Turn.failTarget, found]
      exact path_takePending free held (called id rfl) found

end LoanPool
