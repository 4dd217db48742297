import LoanPool.Proofs.Failure
import LoanPool.Proofs.Reconciliation

/-!
# The return without a check

A connection that comes back goes through a health check, or straight on. With a good verdict both
come to the same. The turn that handles the verdict goes on from where the turn that begins the
check has stopped, and nothing that is still to be done asks whether connections are checked.
-/
namespace LoanPool
open Pending (Request Queue)

/-- The surroundings as they answer once these effects have taken place. -/
def Surroundings.after (w : Surroundings) (before : List Effect) : Surroundings where
  active log := w.active (before ++ log)
  gone log := w.gone (before ++ log)
  refusal log := w.refusal (before ++ log)
  confirms log := w.confirms (before ++ log)
  reachable log := w.reachable (before ++ log)

def Pool.checking (p : Pool) (on : Bool) : Pool :=
  { p with config := { p.config with checkOnRelease := on } }

namespace Turn
variable {w : Surroundings} {before : List Effect} {on : Bool} {t t' u : Turn} {id : ConnId}

/-- One turn stands where the other would if its first effects had been those of a turn before it,
and may differ in whether connections are checked. -/
structure Resumes (before : List Effect) (on : Bool) (t u : Turn) : Prop where
  pool : u.pool = t.pool.checking on
  effects : t.effects = before ++ u.effects

namespace Resumes

/-! ### What is asked of the surroundings -/

section
variable (resumes : Resumes before on t u)
include resumes

theorem registry : u.pool.registry = t.pool.registry := by
  rw [resumes.pool]
  rfl

theorem pending : u.pool.pending = t.pool.pending := by
  rw [resumes.pool]
  rfl

theorem maxConnections : u.pool.config.maxConnections = t.pool.config.maxConnections := by
  rw [resumes.pool]
  rfl

theorem overflow : u.pool.config.overflow = t.pool.config.overflow := by
  rw [resumes.pool]
  rfl

theorem closed : u.pool.closed = t.pool.closed := by
  rw [resumes.pool]
  rfl

theorem gone (k : Ticket) : (w.after before).gone u.effects k = w.gone t.effects k := by
  rw [resumes.effects]
  rfl

theorem confirms : (w.after before).confirms u.effects = w.confirms t.effects := by
  rw [resumes.effects]
  rfl

theorem reachable : (w.after before).reachable u.effects = w.reachable t.effects := by
  rw [resumes.effects]
  rfl

theorem refusal (h : Hook) (serial : Serial) :
    u.refusal (w.after before) h serial = t.refusal w h serial := by
  simp only [Turn.refusal, resumes.effects]
  rfl

theorem reportsActive : u.reportsActive (w.after before) id = t.reportsActive w id := by
  simp only [Turn.reportsActive, resumes.registry, resumes.effects]
  rfl

/-! ### Single moves -/

theorem emit (e : Effect) : Resumes before on (t.emit e) (u.emit e) where
  pool := resumes.pool
  effects := by rw [effects_emit, effects_emit, resumes.effects, List.append_assoc]

theorem withRegistry (r : Registry) : Resumes before on (t.withRegistry r) (u.withRegistry r) where
  pool := by
    rw [Turn.withRegistry, resumes.pool]
    rfl
  effects := resumes.effects

theorem withPending (q : Queue) : Resumes before on (t.withPending q) (u.withPending q) where
  pool := by
    rw [Turn.withPending, resumes.pool]
    rfl
  effects := resumes.effects

theorem answer? (reply : Option Ticket) (outcome : Outcome) :
    Resumes before on (t.answer? reply outcome) (u.answer? reply outcome) := by
  cases reply with
  | none => exact resumes
  | some k => exact resumes.emit _

theorem disarm (r : Request) : Resumes before on (t.disarm r) (u.disarm r) := by
  simp only [Turn.disarm]
  split
  · exact resumes.emit _
  · exact resumes

theorem fail (r : Request) (cause : PoolError) :
    Resumes before on (t.fail r cause) (u.fail r cause) :=
  (resumes.disarm r).emit _

theorem call (h : Hook) (serial : Serial) :
    Resumes before on (t.call w h serial) (u.call (w.after before) h serial) := by
  rw [Turn.call, Turn.call, resumes.refusal]
  exact resumes.emit _

theorem discard (id : ConnId) :
    Resumes before on (t.discard w id) (u.discard (w.after before) id) := by
  simp only [Turn.discard, resumes.registry, resumes.confirms]
  split
  · exact (resumes.withRegistry _).emit _
  · exact resumes

theorem handOver (id : ConnId) : Resumes before on (t.handOver id) (u.handOver id) := by
  simp only [Turn.handOver, resumes.registry]
  exact resumes.withRegistry _

theorem checkIn (id : ConnId) : Resumes before on (t.checkIn id) (u.checkIn id) := by
  simp only [Turn.checkIn, resumes.registry]
  exact resumes.withRegistry _

theorem putBack (id : ConnId) : Resumes before on (t.putBack id) (u.putBack id) := by
  simp only [Turn.putBack, resumes.registry]
  exact resumes.withRegistry _

theorem shelve (id : ConnId) :
    Resumes before on (t.shelve w id) (u.shelve (w.after before) id) := by
  simp only [Turn.shelve, resumes.registry, resumes.overflow, resumes.maxConnections]
  split
  · exact resumes.discard id
  · exact resumes.checkIn id

theorem openFor (r : Request) :
    Resumes before on (t.openFor w (.owned r)) (u.openFor (w.after before) (.owned r)) := by
  simp only [Turn.openFor, resumes.reachable, resumes.registry]
  split
  · exact (resumes.withRegistry _).emit _
  · exact resumes.fail r _

end

/-! ### Serving callers -/

theorem popFrom {rs : List Request} {found : Option Request} (resumes : Resumes before on t u)
    (popped : t.popFrom w rs = (found, t')) :
    ∃ u', u.popFrom (w.after before) rs = (found, u') ∧ Resumes before on t' u' := by
  induction rs generalizing t u with
  | nil =>
    cases popped
    exact ⟨u, rfl, resumes⟩
  | cons r rest ih =>
    have taken := resumes.withPending { t.pool.pending with requests := rest }
    simp only [Turn.popFrom, resumes.pending, taken.gone] at popped ⊢
    split at popped
    · next left =>
      rw [if_pos left]
      exact ih (taken.disarm r) popped
    · next stays =>
      cases popped
      rw [if_neg stays]
      exact ⟨_, rfl, taken⟩

theorem popLive {found : Option Request} (resumes : Resumes before on t u)
    (popped : t.popLive w = (found, t')) :
    ∃ u', u.popLive (w.after before) = (found, u') ∧ Resumes before on t' u' := by
  rw [Turn.popLive, resumes.pending]
  exact resumes.popFrom popped

theorem attempt {r : Request} {taken : Bool} (resumes : Resumes before on t u)
    (tried : t.attempt w r id = (taken, t')) :
    ∃ u', u.attempt (w.after before) r id = (taken, u') ∧ Resumes before on t' u' := by
  simp only [Turn.attempt, resumes.registry] at tried ⊢
  split at tried
  · cases tried
    exact ⟨_, rfl, resumes.fail r _⟩
  next serial known =>
  have called : Resumes before on (t.call w .acquired serial)
      (u.call (w.after before) .acquired serial) := resumes.call .acquired serial
  have settled := called.disarm r
  simp only [resumes.refusal, settled.gone]
  split at tried
  · cases tried
    exact ⟨_, rfl, (called.discard id).fail r _⟩
  split at tried
  · next left =>
    cases tried
    rw [if_pos left]
    exact ⟨_, rfl, settled⟩
  · next stays =>
    cases tried
    rw [if_neg stays]
    exact ⟨_, rfl, settled.emit _⟩

theorem recycle : ∀ {u : Turn}, Resumes before on t u →
    Resumes before on (t.recycle w id) (u.recycle (w.after before) id) := by
  fun_induction Turn.recycle w t id with
  | case1 t t' popped =>
    intro u resumes
    obtain ⟨u', popped', taken⟩ := resumes.popLive popped
    rw [Turn.recycle_eq, popped']
    exact taken.shelve id
  | case2 t r t' popped =>
    rename_i left ih
    intro u resumes
    obtain ⟨u', popped', taken⟩ := resumes.popLive popped
    obtain ⟨u'', tried', tried⟩ := (taken.handOver id).attempt (Prod.ext left rfl)
    rw [Turn.recycle_eq _ u, popped']
    simp only [tried', if_true]
    exact ih tried
  | case3 t r t' popped =>
    rename_i kept
    intro u resumes
    obtain ⟨u', popped', taken⟩ := resumes.popLive popped
    obtain ⟨u'', tried', tried⟩ :=
      (taken.handOver id).attempt (Prod.ext (Bool.eq_false_iff.mpr kept) rfl)
    rw [Turn.recycle_eq _ u, popped']
    simp only [tried', Bool.false_eq_true, if_false]
    exact tried

theorem deliver (resumes : Resumes before on t u) (r : Request) :
    Resumes before on (t.deliver w r id) (u.deliver (w.after before) r id) := by
  rcases tried : t.attempt w r id with ⟨left, t'⟩
  obtain ⟨u', tried', same⟩ := resumes.attempt tried
  simp only [Turn.deliver, tried, tried']
  split
  · exact recycle same
  · exact same

theorem checkout {found : Option ConnId} (taken : t.checkout w = (found, t')) :
    ∀ {u : Turn}, Resumes before on t u →
      ∃ u', u.checkout (w.after before) = (found, u') ∧ Resumes before on t' u' := by
  fun_induction Turn.checkout w t with
  | case1 t empty =>
    intro u resumes
    cases taken
    rw [Turn.checkout_eq, resumes.registry, empty]
    exact ⟨u, rfl, resumes⟩
  | case2 t first r known active =>
    intro u resumes
    cases taken
    have next := resumes.withRegistry r
    rw [Turn.checkout_eq, resumes.registry, known]
    simp only [next.reportsActive, active, if_true]
    exact ⟨_, rfl, next⟩
  | case3 t first r known inactive ih =>
    intro u resumes
    have next := resumes.withRegistry r
    obtain ⟨u', taken', same⟩ := ih taken (next.discard first)
    rw [Turn.checkout_eq, resumes.registry, known]
    simp only [next.reportsActive, inactive, Bool.false_eq_true, if_false]
    exact ⟨u', taken', same⟩

theorem serve : ∀ {u : Turn}, Resumes before on t u →
    Resumes before on (t.serve w) (u.serve (w.after before)) := by
  fun_induction Turn.serve w t with
  | case1 t nobody =>
    intro u resumes
    rw [Turn.serve_eq, resumes.pending, if_pos nobody]
    exact resumes
  | case2 t waiting id t' found r t'' popped ih =>
    intro u resumes
    obtain ⟨v, found', taken⟩ := resumes.checkout found
    obtain ⟨v', popped', called⟩ := taken.popLive popped
    rw [Turn.serve_eq _ u, resumes.pending, if_neg waiting, found']
    simp only [popped']
    exact ih (called.deliver r)
  | case3 t waiting id t' found t'' popped =>
    intro u resumes
    obtain ⟨v, found', taken⟩ := resumes.checkout found
    obtain ⟨v', popped', called⟩ := taken.popLive popped
    rw [Turn.serve_eq _ u, resumes.pending, if_neg waiting, found']
    simp only [popped']
    exact called.putBack id
  | case4 t waiting t' found room r t'' popped ih =>
    intro u resumes
    obtain ⟨v, found', spent⟩ := resumes.checkout found
    obtain ⟨v', popped', called⟩ := spent.popLive popped
    rw [Turn.serve_eq _ u, resumes.pending, if_neg waiting, found']
    simp only [spent.registry, spent.maxConnections, room, if_true, popped']
    exact ih ((called.disarm r).openFor _)
  | case5 t waiting t' found room t'' popped =>
    intro u resumes
    obtain ⟨v, found', spent⟩ := resumes.checkout found
    obtain ⟨v', popped', called⟩ := spent.popLive popped
    rw [Turn.serve_eq _ u, resumes.pending, if_neg waiting, found']
    simp only [spent.registry, spent.maxConnections, room, if_true, popped']
    exact called
  | case6 t waiting t' found full =>
    intro u resumes
    obtain ⟨v, found', spent⟩ := resumes.checkout found
    rw [Turn.serve_eq _ u, resumes.pending, if_neg waiting, found']
    simp only [spent.registry, spent.maxConnections, full, if_false]
    exact spent

theorem servePending (resumes : Resumes before on t u) :
    Resumes before on (t.servePending w) (u.servePending (w.after before)) := by
  simp only [Turn.servePending, resumes.closed]
  split
  · exact resumes
  · exact serve resumes

end Resumes
end Turn

/-! ### One turn or two -/

structure Pool.Acceptable (w : Surroundings) (p : Pool) (id : ConnId) (serial : Serial)
    (r : Registry) : Prop where
  opened : p.closed = false
  begun : p.registry.beginCheck? id = some (serial, r)
  active : w.active [] serial = true
  agrees : w.refusal [] .released serial = none

def Pool.accepting (p : Pool) (r : Registry) (serial : Serial) : Turn :=
  ((Turn.mk p []).withRegistry r).emit (.hook .released serial none)

namespace Pool
variable {w : Surroundings} {p : Pool} {c : Command} {id : ConnId} {serial : Serial} {r : Registry}

theorem beginCheck?_of_lent (lent : p.registry.slot? id = some .onLoan)
    (known : p.registry.serial? id = some serial) :
    ∃ r, p.registry.beginCheck? id = some (serial, r) := by
  obtain ⟨e, found, same⟩ := Registry.find?_of_slot? lent
  rw [Registry.serial?, found, Option.map_some, Option.some.injEq] at known
  simp only [Registry.beginCheck?, found, same, known, if_true]
  exact ⟨_, rfl⟩

theorem Acceptable.checking (fine : Acceptable w p id serial r) (on : Bool) :
    Acceptable w (p.checking on) id serial r :=
  ⟨fine.opened, fine.begun, fine.active, fine.agrees⟩

theorem perform_of_returned (t : Turn) (back : c.returned? = some id) :
    t.perform w c = t.takeBack w id c.returner? := by
  cases c with
  | release i k =>
    cases back
    rfl
  | dropped i =>
    cases back
    rfl
  | _ => cases back

theorem handle_of_returned (opened : p.closed = false) (back : c.returned? = some id) :
    p.handle w c = ((Turn.mk p []).takeBack w id c.returner?).servePending w := by
  rw [← perform_of_returned _ back]
  cases c with
  | release i k => exact handle_of_open opened rfl rfl
  | dropped i => exact handle_of_open opened rfl rfl
  | _ => cases back

theorem takeBack_of_acceptable (fine : Acceptable w p id serial r)
    (reachable : w.reachable [.hook .released serial none] = true) (reply : Option Ticket) :
    (Turn.mk p []).takeBack w id reply =
      if p.config.checkOnRelease then (p.accepting r serial).emit (.check id serial reply)
      else ((p.accepting r serial).recycle w id).answer? reply .done := by
  have called : ((Turn.mk p []).withRegistry r).call w .released serial = p.accepting r serial :=
    congrArg (fun refusal => ((Turn.mk p []).withRegistry r).emit (.hook .released serial refusal))
      fine.agrees
  have active : w.active ((Turn.mk p []).withRegistry r).effects serial = true := fine.active
  have agrees : ((Turn.mk p []).withRegistry r).refusal w .released serial = none := fine.agrees
  have held : w.reachable (p.accepting r serial).effects = true := reachable
  simp only [Turn.takeBack, fine.opened, fine.begun, active, agrees, called, held]
  cases checks : p.config.checkOnRelease with
  | true => simp [Turn.withRegistry, checks]
  | false => simp [Turn.withRegistry, checks]

/-- With a check nothing else happens for the time being. -/
theorem handle_checking (fine : Acceptable w p id serial r) (quiet : p.Quiet)
    (back : c.returned? = some id) (checks : p.config.checkOnRelease = true)
    (reachable : w.reachable [.hook .released serial none] = true) :
    p.handle w c = (p.accepting r serial).emit (.check id serial c.returner?) := by
  have still : ((Turn.mk p []).withRegistry r).pool.Quiet :=
    Turn.quiet_beginCheck? (t := ⟨p, []⟩) quiet fine.begun
  rw [handle_of_returned fine.opened back, takeBack_of_acceptable fine reachable, if_pos checks]
  exact Turn.servePending_of_quiet w still

/-- The verdict is good, and the connection goes on. -/
theorem handle_verdict_good (opened : p.closed = false)
    (checking : p.registry.isChecking id = true) (reply : Option Ticket) :
    p.handle w (.checked id true reply) =
      (((Turn.mk p []).recycle w id).answer? reply .done).servePending w := by
  rw [handle_of_open opened rfl rfl]
  simp only [Turn.perform, Turn.checked, checking, Bool.not_true, Bool.false_eq_true, if_false,
    if_true]

/-- A check with a good verdict comes to what would have happened without it. -/
theorem handle_checked (fine : Acceptable w p id serial r) (quiet : p.Quiet)
    (back : c.returned? = some id)
    (reachable : w.reachable [.hook .released serial none] = true) :
    Turn.Resumes [.hook .released serial none] true ((p.checking false).handle w c)
      (((p.checking true).handle w c).pool.handle (w.after [.hook .released serial none])
        (.checked id true c.returner?)) := by
  have begun := handle_checking (fine.checking true) quiet back rfl reachable
  have checking : ((p.checking true).handle w c).pool.registry.isChecking id = true := by
    rw [begun, Registry.isChecking, decide_eq_true_eq]
    exact ((Registry.slot?_beginCheck? fine.begun).2 id).trans (if_pos rfl)
  have opened : ((p.checking true).handle w c).pool.closed = false := by
    rw [begun]
    exact fine.opened
  rw [handle_verdict_good opened checking, begun,
    handle_of_returned (p := p.checking false) fine.opened back,
    takeBack_of_acceptable (fine.checking false) reachable, if_neg (by simp [Pool.checking])]
  have resumes : Turn.Resumes [.hook .released serial none] true
      ((p.checking false).accepting r serial)
      ⟨(((p.checking true).accepting r serial).emit (.check id serial c.returner?)).pool, []⟩ :=
    ⟨rfl, rfl⟩
  exact ((Turn.Resumes.recycle resumes).answer? _ _).servePending

end Pool
/-! ### Sites whose surroundings are alike -/

namespace Site
variable {a b s rest : Site} {now later : Nat}

structure Alike (a b : Site) : Prop where
  tickets : a.tickets = b.tickets
  observer : a.observer = b.observer
  calls : a.calls = b.calls
  handles : a.handles = b.handles
  connections : a.connections = b.connections

theorem Alike.enact (alike : Alike a b) (e : Effect) :
    Alike (a.enact now e) (b.enact later e) := by
  obtain ⟨tickets, observer, calls, handles, connections⟩ := alike
  cases e with
  | hook h serial refusal =>
    exact ⟨tickets, observer, congrArg (·.tick h) calls, handles, connections⟩
  | close serial =>
    refine ⟨tickets, observer, calls, handles, ?_⟩
    simp only [Site.enact, shut, modify, connections]
  | answer k outcome =>
    have same : a.standing k = b.standing k := by rw [standing, standing, tickets]
    simp only [Site.enact, same]
    by_cases waiting : b.standing k = .waiting
    · rw [if_pos waiting, if_pos waiting]
      refine ⟨?_, observer, calls, handles, connections⟩
      simp only [setStanding, tickets]
    · rw [if_neg waiting, if_neg waiting]
      exact ⟨tickets, observer, calls, handles, connections⟩
  | _ => exact ⟨tickets, observer, calls, handles, connections⟩

theorem Alike.enactAll (alike : Alike a b) (log : List Effect) :
    Alike (a.enactAll now log) (b.enactAll later log) := by
  induction log generalizing a b with
  | nil => exact alike
  | cons e rest ih => exact ih (alike.enact e)

theorem Alike.withPool (alike : Alike a b) (p q : Pool) : Alike (a.withPool p) (b.withPool q) :=
  ⟨alike.tickets, alike.observer, alike.calls, alike.handles, alike.connections⟩

theorem handles_enactAll (log : List Effect) : (a.enactAll now log).handles = a.handles := by
  induction log generalizing a with
  | nil => rfl
  | cons e rest ih =>
    refine ih.trans ?_
    cases e with
    | answer k outcome =>
      simp only [Site.enact]
      split <;> rfl
    | _ => rfl

/-- Sites that are alike answer alike, as long as there is a handle. -/
theorem surroundings_of_alike (alike : Alike a b) (held : a.handles ≠ 0) :
    surroundings (a.enactAll now) = surroundings (b.enactAll later) := by
  have same : ∀ log, Alike (a.enactAll now log) (b.enactAll later log) := alike.enactAll
  have reachable : ∀ {s : Site}, s.handles ≠ 0 → s.isReachable = true := by
    intro s held
    simp [isReachable, held]
  simp only [surroundings, Surroundings.mk.injEq]
  refine ⟨?_, ?_, ?_, ?_, ?_⟩ <;> funext log
  · funext serial
    rw [isActive, isActive, connection?, connection?, (same log).connections]
  · funext k
    rw [standing, standing, (same log).tickets]
  · funext h serial
    rw [(same log).observer, (same log).calls]
  · funext serial
    rw [connection?, connection?, (same log).connections]
  · rw [reachable, reachable]
    · rwa [handles_enactAll, ← alike.handles]
    · rwa [handles_enactAll]

/-- After some effects a site goes on as it would have from there. -/
theorem surroundings_after (before : List Effect) :
    (surroundings (a.enactAll now)).after before =
      surroundings ((a.enactAll now before).enactAll now) := by
  simp only [surroundings, Surroundings.after, Site.enactAll, List.foldl_append]
  rfl

end Site

/-! ### Runs -/

namespace Site
variable {config : Config} {observer : Hook → Nat → Option String} {past : List Record}
  {now later later' : Nat} {s : Site} {c : Command} {id : ConnId} {serial : Serial}

theorem numbered_of_run (run : Run config observer past now s) : s.Numbered := by
  obtain ⟨_, numbered⟩ := run_invariant (fun sc => sc.site.Numbered) run numbered_move
    ⟨List.nodup_nil, List.nodup_nil, List.forall_mem_nil _, List.forall_mem_nil _⟩
  exact numbered

theorem play_turn {steps : List (Nat × Option Event)} {rest : Site} (order : now ≤ later)
    (due : s.next? = some (some c, rest)) :
    play past now s ((later, none) :: steps) =
      play (past ++ records later (some c) s.pool ((Course.alone later rest).turn (some c))) later
        ((Course.alone later rest).after (some c)) steps := by
  rw [play, if_pos order, advance, due]
  rfl

theorem play_from {steps : List (Nat × Option Event)} {step : Option Event} (order : now ≤ later) :
    play past now s ((later, step) :: steps) = play past later s ((later, step) :: steps) := by
  rw [play, if_pos order, play, if_pos (Nat.le_refl later)]

theorem play_event {steps : List (Nat × Option Event)} {e : Event} (order : now ≤ later)
    (allowed : s.allows later e = true) :
    play past now s ((later, some e) :: steps) = play past later (s.happen e) steps := by
  rw [play, if_pos order, advance, if_pos allowed]
  rfl

/-- A check that has begun comes to an end, and nothing else happens: the verdict is what the pool
deals with next, among the surroundings that it left. -/
theorem next_of_checking {r : Registry} {reply : Option Ticket} (later later' : Nat)
    (numbered : s.Numbered) (alone : s.mailbox = []) {t : Turn}
    (begun : t = (s.pool.accepting r serial).emit (.check id serial reply)) :
    let left := (s.enactAll later t.effects).withPool t.pool
    left.allows later' (.checked ⟨s.nextJob⟩ true) = true ∧
      ∃ rest, (left.happen (.checked ⟨s.nextJob⟩ true)).next? =
          some (some (.checked id true reply), rest) ∧ rest.pool = t.pool ∧
        rest.Alike (s.enact later (.hook .released serial none)) := by
  intro left
  have job : left.checkJob? ⟨s.nextJob⟩ = some ⟨⟨s.nextJob⟩, id, serial, reply⟩ := by
    have others : s.checks.find? (·.job = ⟨s.nextJob⟩) = none := by
      refine List.find?_eq_none.mpr fun j member same => ?_
      have used := numbered.usedChecks j member
      rw [of_decide_eq_true same] at used
      exact Nat.lt_irrefl _ used
    have checks : left.checks = s.checks ++ [⟨⟨s.nextJob⟩, id, serial, reply⟩] := by
      subst begun
      rfl
    rw [checkJob?, checks, List.find?_append, others]
    simp
  have mail : left.mailbox = [] := by
    subst begun
    exact alone
  refine ⟨by rw [allows, job, Option.isSome_some], ?_⟩
  simp only [happen, finishCheck, job, next?, send, mail, List.nil_append]
  refine ⟨_, rfl, rfl, ?_⟩
  subst begun
  exact ⟨rfl, rfl, rfl, rfl, rfl⟩

/-- A turn that nothing interrupts finds the site as its own effects leave it. -/
theorem turn_alone (s : Site) : (Course.alone now s).turn (some c) =
    s.pool.handle (surroundings (s.enactAll now)) c :=
  rfl

abbrev emptied (s : Site) : Site :=
  { s with mailbox := [] }

/-- Where nothing happens but these turns and the check, the callers and the connections are left
alike. -/
theorem play_checked {r : Registry} (run : Run config observer past now s) (mail : s.mailbox = [c])
    (held : s.handles ≠ 0) (checks : config.checkOnRelease = true) (back : c.returned? = some id)
    (fine : Pool.Acceptable (surroundings (s.emptied.enactAll later)) s.pool id serial r)
    (order : now ≤ later) (order' : later ≤ later') : ∃ twice twice' once once',
      play past now s
          [(later, none), (later', some (.checked ⟨s.nextJob⟩ true)), (later', none)] =
        some (twice, later', twice') ∧
      play past now (s.withPool (s.pool.checking false)) [(later, none)] =
        some (once, later, once') ∧
      twice'.pool = once'.pool.checking true ∧ twice'.Alike once' := by
  have quiet := (path_of_run run).2
  let w := surroundings (s.emptied.enactAll later)
  have reachable : w.reachable [.hook .released serial none] = true := by
    change isReachable _ = true
    simp [isReachable, enactAll, enact, held]
  have same : s.pool.checking true = s.pool := by
    rw [← config_of_run run] at checks
    rw [Pool.checking, ← checks]
  have due : s.next? = some (some c, s.emptied) := by rw [next?, mail]
  have begun := Pool.handle_checking fine quiet back (config_of_run run ▸ checks) reachable
  have numbered : s.emptied.Numbered := numbered_of_same (numbered_of_run run) rfl rfl rfl
  obtain ⟨allowed, rest, due', pool, alike⟩ := next_of_checking later later' numbered rfl begun
  have resumes := Pool.handle_checked fine quiet back reachable
  rw [same] at resumes
  -- The turn about the verdict finds what the turn without a check would have found.
  have goesOn : surroundings (rest.enactAll later') = w.after [.hook .released serial none] := by
    rw [surroundings_after]
    refine surroundings_of_alike alike ?_
    rw [alike.handles]
    exact held
  have finds :
      surroundings ((s.emptied.withPool (s.pool.checking false)).enactAll later) = w :=
    surroundings_of_alike ⟨rfl, rfl, rfl, rfl, rfl⟩ held
  have second : (Course.alone later' rest).turn (some (.checked id true c.returner?)) =
      (s.pool.handle w c).pool.handle (w.after [.hook .released serial none])
        (.checked id true c.returner?) := by
    rw [turn_alone, goesOn, pool]
  have only : (Course.alone later (s.emptied.withPool (s.pool.checking false))).turn (some c) =
      (s.pool.checking false).handle w c := by
    rw [turn_alone, finds]
    rfl
  rw [← second, ← only] at resumes
  have due₁ : (s.withPool (s.pool.checking false)).next? =
      some (some c, s.emptied.withPool (s.pool.checking false)) := by
    rw [next?, show (s.withPool (s.pool.checking false)).mailbox = [c] from mail]
    rfl
  obtain ⟨twice, played⟩ : ∃ twice, play past now s
      [(later, none), (later', some (.checked ⟨s.nextJob⟩ true)), (later', none)] =
        some (twice, later', (Course.alone later' rest).after
          (some (.checked id true c.returner?))) :=
    ⟨_, (play_turn order due).trans
      ((play_event order' allowed).trans (play_turn (Nat.le_refl later') due'))⟩
  refine ⟨twice, _, _, _, played, play_turn order due₁, resumes.pool, ?_⟩
  have there : rest.Alike ((s.emptied.withPool (s.pool.checking false)).enact later
      (.hook .released serial none)) :=
    ⟨alike.tickets, alike.observer, alike.calls, alike.handles, alike.connections⟩
  rw [Course.after, Course.after, resumes.effects]
  exact (there.enactAll _).withPool _ _

end Site

/-- A loan of a connection that is active ends in an open pool that something holds on to, and the
observer has no objection. Then whether the connection is checked and found healthy, or not checked
at all, comes to the same, whatever the surroundings answer: behind the call of the hook the effects
are those of the turn that handles the verdict, in the same order, and so is the pool. And where
nothing happens but these turns and the check, the same holds for the callers and the connections
when they are over. -/
theorem checked_or_not {config : Config} {observer : Hook → Nat → Option String}
    {past : List Site.Record} {now : Nat} {s : Site} {c : Command} {id : ConnId} {serial : Serial}
    (run : Site.Run config observer past now s) (opened : s.pool.closed = false)
    (back : c.returned? = some id) (lent : s.pool.registry.slot? id = some .onLoan)
    (known : s.pool.registry.serial? id = some serial) :
    (∀ w : Surroundings, w.active [] serial = true → w.refusal [] .released serial = none →
      w.reachable [.hook .released serial none] = true →
      let first := (s.pool.checking true).handle w c
      let second := first.pool.handle (w.after [.hook .released serial none])
        (.checked id true c.returner?)
      let once := (s.pool.checking false).handle w c
      first.effects = [.hook .released serial none, .check id serial c.returner?] ∧
        once.effects = .hook .released serial none :: second.effects ∧
        second.pool = once.pool.checking true) ∧
    (config.checkOnRelease = true → s.mailbox = [c] → s.handles ≠ 0 → s.isActive serial = true →
      s.observer .released (s.calls.released + 1) = none → ∀ later later', now ≤ later →
      later ≤ later' → ∃ twice twice' once once',
        Site.play past now s
            [(later, none), (later', some (.checked ⟨s.nextJob⟩ true)), (later', none)] =
          some (twice, later', twice') ∧
        Site.play past now (s.withPool (s.pool.checking false)) [(later, none)] =
          some (once, later, once') ∧
        twice'.pool = once'.pool.checking true ∧ twice'.Alike once') := by
  have quiet := (path_of_run run).2
  obtain ⟨r, begun⟩ := Pool.beginCheck?_of_lent lent known
  constructor
  · intro w active agrees reachable
    have fine : Pool.Acceptable w s.pool id serial r := ⟨opened, begun, active, agrees⟩
    have resumes := Pool.handle_checked fine quiet back reachable
    refine ⟨?_, resumes.effects, resumes.pool⟩
    rw [Pool.handle_checking (fine.checking true) quiet back rfl reachable]
    rfl
  · intro checks mail held active agrees later later' order order'
    exact Site.play_checked run mail held checks back ⟨opened, begun, active, agrees⟩ order order'

/-- The only connection is given back while another caller waits for it. -/
def soughtAfter : List (Nat × Option Site.Event) :=
  [(0, some (.acquire ⟨1⟩)), (0, none), (2, some (.connected ⟨0⟩ (.ok (⟨1⟩, {})))), (2, none),
    (3, some (.read ⟨1⟩)), (4, some (.acquire ⟨2⟩)), (4, none), (5, some (.release ⟨1⟩ ⟨3⟩))]

/-- Found healthy, it goes to the caller who waits, since it would have without a check. -/
theorem relent_of_soughtAfter :
    ∃ past now s twice twice', Site.Run { maxConnections := 1 } (fun _ _ => none) past now s ∧
      s.mailbox.map Command.returned? = [some ⟨1⟩] ∧
      Site.play past now s
          [(5, none), (7, some (.checked ⟨s.nextJob⟩ true)), (7, none)] = some (twice, 7, twice') ∧
      twice'.standing ⟨2⟩ = .answered (.loan ⟨1⟩ ⟨1⟩) ∧ twice'.standing ⟨3⟩ = .answered .done := by
  obtain ⟨past, now, s, _, _, run, order, -, seen⟩ := Site.exists_due { maxConnections := 1 }
    (fun _ _ => none) soughtAfter 5
    (fun past s _ _ => s.pool.closed == false && s.mailbox.length == 1 &&
      s.mailbox.map Command.returned? == [some ⟨1⟩] &&
      s.pool.registry.slot? ⟨1⟩ == some .onLoan && s.pool.registry.serial? ⟨1⟩ == some ⟨1⟩ &&
      s.handles != 0 && s.isActive ⟨1⟩ && s.observer .released (s.calls.released + 1) == none &&
      (Site.play past 5 (s.withPool (s.pool.checking false)) [(5, none)]).any fun e =>
        e.2.2.standing ⟨2⟩ == .answered (.loan ⟨1⟩ ⟨1⟩) && e.2.2.standing ⟨3⟩ == .answered .done)
    (by decide +kernel)
  simp only [Bool.and_eq_true, beq_iff_eq, bne_iff_ne, Option.any_eq_true, Prod.exists] at seen
  obtain ⟨⟨⟨⟨⟨⟨⟨⟨opened, one⟩, back⟩, lent⟩, known⟩, held⟩, active⟩, agrees⟩, once, _, once',
    played, lentOn, told⟩ := seen
  obtain ⟨c, mail⟩ := List.length_eq_one_iff.mp one
  have ends : c.returned? = some ⟨1⟩ := by simpa [mail] using back
  obtain ⟨-, undisturbed⟩ := checked_or_not run opened ends lent known
  obtain ⟨twice, twice', once₁, once₁', playedTwice, playedOnce, -, alike⟩ :=
    undisturbed rfl mail held active agrees 5 7 order (by decide)
  rw [Site.play_from order, played] at playedOnce
  cases playedOnce
  refine ⟨past, now, s, twice, twice', run, back, playedTwice, ?_, ?_⟩
  · rwa [Site.standing, alike.tickets]
  · rwa [Site.standing, alike.tickets]

end LoanPool
