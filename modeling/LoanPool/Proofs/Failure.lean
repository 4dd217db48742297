import LoanPool.Proofs.Confirmation
import LoanPool.Proofs.Custody
import LoanPool.Proofs.Footprint

/-!
# Failures

An attempt to connect may come to nothing, a hook may refuse, and a check may find a connection bad.
Each of these gives one unit of capacity back, tells one caller at most what has happened, and
leaves all other requests where they were, for the queue to make something of the unit.
-/
namespace LoanPool
open Pending (Request)

/-! ### Whom a turn deals with -/

def Effect.refusal? : Effect → Option String
  | .hook _ _ refusal => refusal
  | _ => none

def Command.returner? : Command → Option Ticket
  | .release _ k => some k
  | .checked _ _ reply => reply
  | _ => none

namespace Pool

def claimant? (p : Pool) : Target → Option Request
  | .owned r => some r
  | .queued id => p.pending.find? id

def others (p : Pool) : Target → List Request
  | .owned _ => p.pending.requests
  | .queued id => p.pending.requests.eraseP (·.id = id)

/-- The requests that a turn about a command may deal with, in the order in which it does. -/
def line (p : Pool) : Command → List Request
  | .acquire k => { id := ⟨p.nextRequest⟩, ticket := k } :: p.pending.requests
  | .connected target _ => (p.claimant? target).toList ++ p.others target
  | _ => p.pending.requests

end Pool

namespace Turn
variable {w : Surroundings} {t t' u : Turn} {p : Pool} {es es' : List Effect} {id : ConnId}
  {serial : Serial} {r : Request}

def farewells (attached : Option Request) (cause : PoolError) : List Effect :=
  attached.toList.flatMap (·.farewell cause)

theorem takePending_eq (t : Turn) (request : RequestId) :
    t.takePending request = (t.pool.claimant? (.queued request),
      t.withPending { t.pool.pending with requests := t.pool.others (.queued request) }) := by
  simp only [takePending, Pending.Queue.remove?, Pool.claimant?, Pool.others]
  cases found : t.pool.pending.find? request with
  | some r => rfl
  | none =>
    have absent : t.pool.pending.requests.eraseP (·.id = request) = t.pool.pending.requests := by
      refine List.eraseP_of_forall_not fun r member => ?_
      exact List.find?_eq_none.mp found r member
    simp only [Option.map_none, absent]
    rfl

theorem farewells_some (r : Request) (cause : PoolError) :
    farewells (some r) cause = r.farewell cause := by
  simp [farewells]

theorem failTarget_spec (t : Turn) (target : Target) (cause : PoolError) :
    (t.failTarget target cause).pool = t.withRequests (t.pool.others target) ∧
      t.Adds (farewells (t.pool.claimant? target) cause) (t.failTarget target cause) := by
  cases target with
  | owned r =>
    refine ⟨pool_fail _ _ _, ?_⟩
    rw [Pool.claimant?, farewells_some]
    exact adds_fail t r cause
  | queued request =>
    rw [failTarget, takePending_eq]
    cases found : t.pool.claimant? (.queued request) with
    | none => exact ⟨rfl, adds_refl t⟩
    | some r =>
      refine ⟨pool_fail _ _ _, ?_⟩
      rw [farewells_some]
      exact adds_fail (t.withPending { t.pool.pending with requests := _ }) r cause

/-! ### A hook that refuses -/

structure Objected (t : Turn) (h : Hook) (serial : Serial) (reason : String) (id : ConnId)
    (t' : Turn) : Prop where
  known : t.pool.registry.serial? id = some serial
  used : t.pool.registry.slot? id ≠ some .idle
  log : ∃ p, t'.log = t.log ++ [⟨.hook h serial (some reason), t.pool⟩, ⟨.close serial, p⟩]
  pool : t'.pool = { t.pool with registry := t'.pool.registry }
  vacated : Registry.Vacated t.pool.registry t'.pool.registry id

theorem objected_of_refusal {h : Hook} {reason : String}
    (objects : t.refusal w h serial = some reason)
    (known : t.pool.registry.serial? id = some serial)
    (used : t.pool.registry.slot? id ≠ some .idle) :
    Objected t h serial reason id ((t.call w h serial).discard w id) := by
  obtain ⟨reg, removed, eq⟩ := discard_of_known (w := w) (t := t.call w h serial) known
  rw [eq]
  refine ⟨known, used, ⟨((t.call w h serial).withRegistry reg).pool, ?_⟩, rfl,
    Registry.vacated_discard? used removed⟩
  rw [emit, withRegistry, call, emit, objects, List.append_assoc]
  rfl

theorem Objected.adds {h : Hook} {reason : String} (objected : Objected t h serial reason id t') :
    t.Adds [.hook h serial (some reason), .close serial] t' := by
  obtain ⟨p, log⟩ := objected.log
  exact ⟨_, log, rfl⟩

theorem Refused.objected (refused : Refused w t r id serial t')
    (used : t.pool.registry.slot? id ≠ some .idle) :
    ∃ reason u, Objected t .acquired serial reason id u ∧ t' = u.fail r (.observer reason) := by
  obtain ⟨reason, reg, objects, removed, rfl⟩ := refused.objection
  refine ⟨reason, _, objected_of_refusal objects refused.known used, ?_⟩
  rw [discard, pool_call, removed]

end Turn

/-! ### What comes before a failure -/

/-- Nobody is answered, nothing is closed, and no hook refuses. -/
structure Effect.Plain (e : Effect) : Prop where
  unanswered : e.answered? = none
  unrefused : e.refusal? = none
  unclosing : e.closes? = none

/-- What a turn may do before anything fails in it: no connection is closed but idle ones of the
pool that are found inactive, and nobody is answered. -/
inductive Prelude (w : Surroundings) (p : Pool) : List Effect → Prop where
  | nil : Prelude w p []
  | plain {es : List Effect} {e : Effect} (before : Prelude w p es) (plain : e.Plain) :
      Prelude w p (es ++ [e])
  | evict {es : List Effect} {id : ConnId} {serial : Serial} (before : Prelude w p es)
      (idle : id ∈ p.registry.idle) (known : (id, serial) ∈ p.registry.names)
      (inactive : w.active es serial = false) : Prelude w p (es ++ [.close serial])

section Preludes
variable {w : Surroundings} {p : Pool} {es es' : List Effect} {serial : Serial}

theorem Prelude.append (before : Prelude w p es) (plain : ∀ e ∈ es', e.Plain) :
    Prelude w p (es ++ es') := by
  induction es' using List.reverseRecOn with
  | nil => rwa [List.append_nil]
  | append_singleton es' e ih =>
    obtain ⟨first, last⟩ := List.forall_mem_append.mp plain
    rw [← List.append_assoc]
    exact .plain (ih first) (last e (List.mem_singleton_self e))

theorem Prelude.unrefused (before : Prelude w p es) : ∀ e ∈ es, e.refusal? = none := by
  induction before with
  | nil => exact List.forall_mem_nil _
  | plain before plain ih =>
    exact List.forall_mem_append.mpr ⟨ih, List.forall_mem_singleton.mpr plain.unrefused⟩
  | evict before idle known inactive ih =>
    exact List.forall_mem_append.mpr ⟨ih, List.forall_mem_singleton.mpr rfl⟩

theorem plain_of_passesBy {e : Effect} (passes : e.PassesBy serial) : e.Plain := by
  cases e with
  | disarm timer => exact ⟨rfl, rfl, rfl⟩
  | hook h serial' refusal =>
    obtain ⟨-, -, rfl⟩ := passes
    exact ⟨rfl, rfl, rfl⟩
  | _ => exact passes.elim

end Preludes

namespace Turn
variable {w : Surroundings} {t t' : Turn} {p : Pool}

theorem subset_remove? {r r' : Registry} {id : ConnId} {serial : Serial}
    (removed : r.remove? id = some (serial, r')) : r'.idle ⊆ r.idle := by
  simp only [Registry.remove?] at removed
  split at removed
  · cases removed
    split
    · exact List.filter_sublist.subset
    · exact List.Subset.refl _
  · cases removed

theorem subset_discard (w : Surroundings) (t : Turn) (id : ConnId) :
    (t.discard w id).pool.registry.idle ⊆ t.pool.registry.idle ∧
      (t.discard w id).pool.registry.names ⊆ t.pool.registry.names := by
  simp only [discard]
  split
  · next removed =>
    constructor
    · simp only [Registry.discard?, Option.map_eq_some_iff, Prod.exists, Prod.mk.injEq] at removed
      obtain ⟨_, mid, gone, -, rfl⟩ := removed
      have fewer := subset_remove? gone
      simp only [pool_emit, registry_withRegistry]
      split <;> exact fewer
    · simp only [pool_emit, registry_withRegistry]
      rw [Registry.names_discard? removed]
      exact List.filter_sublist.subset
  · exact ⟨List.Subset.refl _, List.Subset.refl _⟩

theorem idle_checkout? {r r' : Registry} {id : ConnId} (taken : r.checkout? = some (id, r')) :
    r.idle = id :: r'.idle := by
  simp only [Registry.checkout?] at taken
  split at taken
  · cases taken
  · next first rest eq =>
    cases taken
    rw [eq]
    split <;> rfl

/-- Looking for an idle connection closes those that are found inactive, and nothing else. -/
theorem prelude_checkout {found : Option ConnId} (before : Prelude w p t.effects)
    (idle : t.pool.registry.idle ⊆ p.registry.idle)
    (named : t.pool.registry.names ⊆ p.registry.names)
    (taken : t.checkout w = (found, t')) : Prelude w p t'.effects := by
  fun_induction Turn.checkout w t with
  | case1 t empty =>
    cases taken
    exact before
  | case2 t first r found active =>
    cases taken
    exact before
  | case3 t first r found inactive ih =>
    have listed := idle_checkout? found
    have names := (Registry.moved_checkout? found).names
    have subset := subset_discard w (t.withRegistry r) first
    refine ih ?_ ?_ ?_ taken
    · cases known : (t.withRegistry r).pool.registry.serial? first with
      | some serial =>
        obtain ⟨reg, -, eq⟩ := discard_of_known (w := w) known
        rw [eq, effects_emit]
        have was : first ∈ p.registry.idle := idle (listed ▸ List.mem_cons_self)
        refine .evict before was ?_ ?_
        · exact named (names ▸ Registry.mem_names_of_serial? known)
        · simp only [reportsActive, known] at inactive
          exact Bool.eq_false_iff.mpr inactive
      | none =>
        have unknown : (t.withRegistry r).pool.registry.find? first = none :=
          Option.map_eq_none_iff.mp known
        rw [discard_of_unknown unknown]
        exact before
    · exact fun i member => idle (listed ▸ List.mem_cons_of_mem _ (subset.1 member))
    · exact fun n member => named (names ▸ subset.2 member)

end Turn

/-! ### One failure -/

/-- Whose request or loan a hook was called for, and what those hear who wait for the connection to
have been taken back. -/
inductive Blamed (p : Pool) (c : Command) (reason : String) :
    Hook → Option Request → List Effect → Prop where
  | created {target : Target} {serial : Serial} (opened : c = .connected target (.ok serial)) :
      Blamed p c reason .created (p.claimant? target) []
  | acquired (r : Request) :
      Blamed p c reason .acquired (some r) (c.returner?.toList.map fun k => .answer k .done)
  | released {id : ConnId} (back : c.returned? = some id) :
      Blamed p c reason .released none
        (c.returner?.toList.map fun k => .answer k (.failed (.observer reason)))

/-- A failure has been dealt with: of the requests that the turn is about, those before the one that
is told of it have left, and those behind it wait as they did. The pool has changed in nothing else
but its registry. -/
structure Contained (w : Surroundings) (line : List Request) (held : Pool)
    (attached : Option Request) (t : Turn) : Prop where
  line : ∃ skipped, line = skipped ++ (attached.toList ++ t.pool.pending.requests) ∧
    ∀ r ∈ skipped, w.gone t.effects r.ticket = true
  pool : t.pool = { held with
    registry := t.pool.registry
    pending := { held.pending with requests := t.pool.pending.requests } }

inductive Faulty (w : Surroundings) (p : Pool) (c : Command) (t : Turn) : Prop where
  | intro {front mid : Turn} {h : Hook} {serial : Serial} {reason : String} {id : ConnId}
      {attached : Option Request} {replies : List Effect}
      (before : Prelude w p front.effects) (opened : front.pool.closed = false)
      (objected : front.Objected h serial reason id mid)
      (blamed : Blamed p c reason h attached replies)
      (adds : mid.Adds (Turn.farewells attached (.observer reason) ++ replies) t)
      (registry : t.pool.registry = mid.pool.registry)
      (contained : Contained w (p.line c) front.pool attached t)

namespace Turn
variable {w : Surroundings} {t t' : Turn} {p : Pool} {c : Command} {es : List Effect} {id : ConnId}
  {serial : Serial}

def Smooth (t : Turn) : Prop :=
  ∀ e ∈ t.effects, e.refusal? = none

theorem refusal?_of_passesBy {e : Effect} (passes : e.PassesBy serial) : e.refusal? = none :=
  (plain_of_passesBy passes).unrefused

theorem faulty_of_brought (lasting : w.Lasting) (brought : Brought w id serial (p.line c) t t')
    (used : t.pool.registry.slot? id ≠ some .idle) (before : Prelude w p t.effects)
    (opened : t.pool.closed = false) : (t'.answer? c.returner? .done).Smooth ∨
      Faulty w p c (t'.answer? c.returner? .done) := by
  have smooth : t.Smooth := before.unrefused
  cases brought with
  | shelved adds passes closes nobody slot =>
    refine .inl (all_answer? (adds.forall smooth ?_) (fun _ => rfl) _)
    refine List.forall_mem_append.mpr ⟨fun e member => refusal?_of_passesBy (passes e member), ?_⟩
    rcases closes with rfl | rfl
    · exact List.forall_mem_nil _
    · exact List.forall_mem_singleton.mpr rfl
  | lent split adds passes pool =>
    refine .inl (all_answer? (adds.forall smooth ?_) (fun _ => rfl) _)
    exact List.forall_mem_append.mpr ⟨fun e member => refusal?_of_passesBy (passes e member),
      List.forall_mem_singleton.mpr rfl⟩
  | @refused mid r skipped rest split passed refused =>
    obtain ⟨skips, adds, passes⟩ := passed.adds
    obtain ⟨reason, u, objected, rfl⟩ :=
      refused.objected (by rw [passed.pool]; exact used_offering used)
    have told := (adds_fail u r (.observer reason)).trans (adds_answer? _ c.returner? .done)
    rw [← farewells_some] at told
    refine .inr (.intro ?_ ?_ objected (.acquired r) told ?_ ⟨⟨skipped, ?_, ?_⟩, ?_⟩)
    · rw [adds.effects]
      exact before.append fun e member => plain_of_passesBy (passes e member)
    · rw [passed.pool]
      exact opened
    · rw [pool_answer?, pool_fail]
    · rw [split, pool_answer?, pool_fail, objected.pool, passed.pool]
      rfl
    · -- Whoever was passed over had left when the hook was called, and has not come back.
      exact fun r member => gone_of_adds lasting (objected.adds.trans told) (passed.left r member)
    · rw [pool_answer?, pool_fail, objected.pool]

/-! ### Turns in which no hook refuses -/

theorem refusal?_of_farewells {attached : Option Request} {cause : PoolError} :
    ∀ e ∈ farewells attached cause, e.refusal? = none := by
  intro e member
  obtain ⟨r, -, here⟩ := List.mem_flatMap.mp member
  rcases List.mem_append.mp here with stopped | told
  · exact all_stops (P := fun e => e.refusal? = none) (fun _ => rfl) [r] e stopped
  · rw [List.mem_singleton.mp told]
    rfl

theorem smooth_lineUp (smooth : t.Smooth) (r : Request) : (t.lineUp w r).Smooth := by
  have pruned : (t.prune w).Smooth := all_prune smooth fun _ => rfl
  simp only [lineUp]
  generalize t.prune w = t' at pruned ⊢
  split
  · have counted : (t'.count fun c => { c with rejected := c.rejected + 1 }).Smooth := pruned
    exact all_fail counted (fun _ => rfl) rfl
  · simp only [enqueue]
    split
    · next timeout armed =>
      exact all_emit (e := .arm ⟨r.id.number⟩ r.id timeout) pruned rfl
    · exact pruned

theorem smooth_timedOut (smooth : t.Smooth) (request : RequestId) :
    (t.timedOut w request).Smooth := by
  simp only [timedOut]
  split
  · exact smooth
  next r found =>
  have replaced : (t.withPending (t.pool.pending.replace request
      (t.pool.config.expire r).2)).Smooth := smooth
  generalize t.withPending (t.pool.pending.replace request
    (t.pool.config.expire r).2) = t' at replaced ⊢
  split
  · have taken : (t'.takePending request).2.Smooth := by
      rw [takePending_eq]
      exact replaced
    split
    · next r' t'' fetched =>
      rw [fetched] at taken
      exact all_fail (t := t''.count _) taken (fun _ => rfl) rfl
    · next t'' fetched =>
      rw [fetched] at taken
      exact taken
  · exact all_openFor (t := t'.count _) replaced rfl (fun _ => rfl) fun _ => rfl
  · exact replaced

/-! ### Every command -/

theorem faulty_acquire (lasting : w.Lasting) (opened : p.closed = false) (k : Ticket) :
    ((Turn.mk p []).acquire w k).Smooth ∨
      Faulty w p (.acquire k) ((Turn.mk p []).acquire w k) := by
  simp only [acquire, opened, Bool.false_eq_true, if_false]
  split
  · next id t' taken =>
    have queue := pending_checkout w ((Turn.mk p []).newRequest k).2
    rw [taken] at queue
    have lent := slot_checkout taken
    obtain ⟨serial, known⟩ := known_of_slot lent
    have brought := deliver_brought lasting known lent ((Turn.mk p []).newRequest k).1
    rw [queue] at brought
    refine faulty_of_brought (c := .acquire k) lasting brought (by simp [lent]) ?_ ?_
    · exact prelude_checkout .nil (List.Subset.refl _) (List.Subset.refl _) taken
    · exact (closed_checkout taken).trans opened
  · next t' taken =>
    have before : Prelude w p t'.effects :=
      prelude_checkout .nil (List.Subset.refl _) (List.Subset.refl _) taken
    have smooth : t'.Smooth := before.unrefused
    left
    split
    · exact all_openFor smooth rfl (fun _ => rfl) fun _ => rfl
    · exact smooth_lineUp smooth _

theorem faulty_place (lasting : w.Lasting) {target : Target} {result : Except String Serial}
    (queue : t.pool.pending = p.pending) (known : t.pool.registry.serial? id = some serial)
    (lent : t.pool.registry.slot? id = some .onLoan) (before : Prelude w p t.effects)
    (opened : t.pool.closed = false) : (t.place w target id).Smooth ∨
      Faulty w p (.connected target result) (t.place w target id) := by
  have used : t.pool.registry.slot? id ≠ some .idle := by simp [lent]
  cases target with
  | owned r =>
    have brought := deliver_brought lasting known lent r
    rw [queue] at brought
    exact faulty_of_brought (c := .connected (.owned r) result) lasting brought used before opened
  | queued request =>
    have line : p.line (.connected (.queued request) result) =
        (t.pool.claimant? (.queued request)).toList ++ t.pool.others (.queued request) := by
      simp only [Pool.line, Pool.claimant?, Pool.others, queue]
    let u := t.withPending { t.pool.pending with requests := t.pool.others (.queued request) }
    simp only [place, takePending_eq]
    cases found : t.pool.claimant? (.queued request) with
    | some r =>
      have brought : Brought w id serial (p.line (.connected (.queued request) result)) u
          (u.deliver w r id) := by
        rw [line, found]
        exact deliver_brought (t := u) lasting known lent r
      exact faulty_of_brought lasting brought used before opened
    | none =>
      have brought : Brought w id serial (p.line (.connected (.queued request) result)) u
          (u.recycle w id) := by
        rw [line, found]
        exact recycle_brought (t := u) lasting known used
      exact faulty_of_brought lasting brought used before opened

theorem faulty_connected (lasting : w.Lasting) (opened : p.closed = false) (target : Target)
    (serial : Serial) : ((Turn.mk p []).connected w target (.ok serial)).Smooth ∨
      Faulty w p (.connected target (.ok serial))
        ((Turn.mk p []).connected w target (.ok serial)) := by
  have known : ((Turn.mk p []).register serial).2.pool.registry.serial?
      ((Turn.mk p []).register serial).1 = some serial := Registry.serial?_register_self
  have lent : ((Turn.mk p []).register serial).2.pool.registry.slot?
      ((Turn.mk p []).register serial).1 = some .onLoan :=
    Registry.slot?_register.trans (if_pos rfl)
  have listens : Prelude w p ((Turn.mk p []).register serial).2.effects :=
    .plain .nil ⟨rfl, rfl, rfl⟩
  have going : ((Turn.mk p []).register serial).2.pool.closed = false := opened
  have queue : ((Turn.mk p []).register serial).2.pool.pending = p.pending := rfl
  simp only [connected]
  generalize (Turn.mk p []).register serial = born at known lent listens going queue
  rw [if_neg (by simp [going])]
  split
  · next reason objects =>
    have objected := objected_of_refusal objects known (by simp [lent])
    obtain ⟨pool, told⟩ := failTarget_spec ((born.2.call w .created serial).discard w born.1)
      target (.observer reason)
    have waiting : ∀ target, ((born.2.call w .created serial).discard w born.1).pool.claimant?
        target = p.claimant? target ∧
        ((born.2.call w .created serial).discard w born.1).pool.others target =
          p.others target := by
      intro target
      cases target <;> simp [Pool.claimant?, Pool.others, queue]
    -- Closing the connection has not changed the queue, so the same request is told.
    rw [(waiting target).2] at pool
    rw [(waiting target).1, ← List.append_nil (farewells _ _)] at told
    refine .inr (.intro listens going objected (.created rfl) told ?_ ⟨⟨[], ?_, ?_⟩, ?_⟩)
    · rw [pool]
    · rw [pool]
      rfl
    · exact List.forall_mem_nil _
    · rw [pool, withRequests, objected.pool]
  · next agreed =>
    refine faulty_place (t := born.2.call w .created serial) lasting queue known lent ?_ going
    rw [call, agreed, effects_emit]
    exact .plain listens ⟨rfl, rfl, rfl⟩

theorem faulty_takeBack (lasting : w.Lasting) (opened : p.closed = false)
    (back : c.returned? = some id) (queue : p.line c = p.pending.requests) :
    ((Turn.mk p []).takeBack w id c.returner?).Smooth ∨
      Faulty w p c ((Turn.mk p []).takeBack w id c.returner?) := by
  have silent : (Turn.mk p []).Smooth := List.forall_mem_nil _
  simp only [takeBack, opened, Bool.false_eq_true, if_false]
  split
  · exact .inl (all_answer? silent (fun _ => rfl) _)
  next serial reg begun =>
  let t := (Turn.mk p []).withRegistry reg
  have known : t.pool.registry.serial? id = some serial := Registry.serial?_beginCheck? begun
  have checking : t.pool.registry.slot? id = some .checking :=
    ((Registry.slot?_beginCheck? begun).2 id).trans (if_pos rfl)
  have used : t.pool.registry.slot? id ≠ some .idle := by simp [checking]
  split
  · exact .inl (all_answer? (all_discard (t := t) silent (fun _ => rfl) id) (fun _ => rfl) _)
  split
  · next reason objects =>
    have objected : t.Objected .released serial reason id
        ((t.call w .released serial).discard w id) := objected_of_refusal objects known used
    have told := adds_answer? ((t.call w .released serial).discard w id) c.returner?
      (.failed (.observer reason))
    refine .inr (.intro .nil opened objected (.released back) told ?_ ⟨⟨[], ?_, ?_⟩, ?_⟩)
    · rw [pool_answer?]
    · rw [pool_answer?, pending_discard, queue]
      rfl
    · exact List.forall_mem_nil _
    · rw [pool_answer?, objected.pool]
  next agreed =>
  have called : Prelude w p (t.call w .released serial).effects := by
    rw [call, agreed]
    exact .plain .nil ⟨rfl, rfl, rfl⟩
  have smooth : (t.call w .released serial).Smooth := called.unrefused
  split
  · have brought : Brought w id serial (p.line c) (t.call w .released serial)
        ((t.call w .released serial).recycle w id) := by
      rw [queue]
      exact recycle_brought (t := t.call w .released serial) lasting known used
    exact faulty_of_brought lasting brought used called opened
  left
  split
  · exact all_emit smooth rfl
  · exact all_answer? (all_discard smooth (fun _ => rfl) id) (fun _ => rfl) _

theorem faulty_checked (lasting : w.Lasting) (opened : p.closed = false) (id : ConnId)
    (healthy : Bool) (reply : Option Ticket) :
    ((Turn.mk p []).checked w id healthy reply).Smooth ∨
      Faulty w p (.checked id healthy reply) ((Turn.mk p []).checked w id healthy reply) := by
  have silent : (Turn.mk p []).Smooth := List.forall_mem_nil _
  simp only [checked]
  split
  · exact .inl (all_answer? silent (fun _ => rfl) _)
  next isChecking =>
  have checking : p.registry.slot? id = some .checking := by
    simpa [Registry.isChecking] using isChecking
  have used : p.registry.slot? id ≠ some .idle := by simp [checking]
  obtain ⟨serial, known⟩ := known_of_slot (t := ⟨p, []⟩) checking
  split
  · have brought := recycle_brought (t := ⟨p, []⟩) lasting known used
    exact faulty_of_brought (c := .checked id healthy reply) lasting brought used .nil opened
  · exact .inl (all_answer? (all_discard silent (fun _ => rfl) id) (fun _ => rfl) _)

/-- In a turn about a command no hook refuses, or what it refuses is dealt with. -/
theorem faulty_perform (lasting : w.Lasting) (opened : p.closed = false) (c : Command) :
    ((Turn.mk p []).perform w c).Smooth ∨ Faulty w p c ((Turn.mk p []).perform w c) := by
  have silent : (Turn.mk p []).Smooth := List.forall_mem_nil _
  cases c with
  | acquire k => exact faulty_acquire lasting opened k
  | release id k => exact faulty_takeBack (c := .release id k) lasting opened rfl rfl
  | close k =>
    left
    simp only [perform, close]
    split
    · exact all_emit silent rfl
    · exact all_shutDown silent (fun _ => rfl) (fun _ => rfl) fun _ => rfl
  | stats k => exact .inl (all_emit silent rfl)
  | connected target result =>
    cases result with
    | error cause =>
      have cancelled : ((Turn.mk p []).withRegistry p.registry.cancelReservation).Smooth := silent
      exact .inl (all_failTarget cancelled (fun _ => rfl) (fun _ => rfl) target)
    | ok serial => exact faulty_connected lasting opened target serial
  | checked id healthy reply => exact faulty_checked lasting opened id healthy reply
  | timedOut request => exact .inl (smooth_timedOut silent request)
  | closed id => exact .inl silent
  | dropped id => exact faulty_takeBack (c := .dropped id) lasting opened rfl rfl

end Turn
end LoanPool
