import LoanPool.Proofs.Exclusivity

/-!
# Health checks

With health checks on, a connection that has been lent goes on to others only after a check that was
started in the turn which ended the loan, and whose verdict was good. A verdict carries no more than
the name of a connection; it belongs to the last check all the same, because a registered connection
is never checked twice at a time.
-/
namespace LoanPool

def Command.checked? : Command → Option ConnId
  | .checked id _ _ => some id
  | _ => none

def Effect.inspects? : Effect → Option ConnId
  | .check id _ _ => some id
  | _ => none

namespace Site

namespace Record

def lends? (rec : Record) : Option ConnId :=
  rec.effect.bind Effect.lends?

/-- The connection whose verdict a turn begins by taking up. -/
def judges? (rec : Record) : Option ConnId :=
  match rec.effect with
  | none => rec.command.bind Command.checked?
  | some _ => none

def Examines (rec : Record) (id : ConnId) : Prop :=
  rec.effect.bind Effect.inspects? = some id ∧ rec.command.bind Command.returned? = some id

def Approves (rec : Record) (id : ConnId) : Prop :=
  rec.effect = none ∧ (∃ reply, rec.command = some (.checked id true reply)) ∧
    rec.pool.registry.isChecking id = true

end Record

/-- For the time of these records a connection was not lent, and no verdict on it taken up. -/
def Untouched (past : List Record) (id : ConnId) : Prop :=
  ∀ rec ∈ past, rec.lends? ≠ some id ∧ rec.judges? ≠ some id

def Examined (past : List Record) (id : ConnId) : Prop :=
  ∃ front exam mid, past = front ++ exam :: mid ∧ exam.Examines id ∧ Untouched mid id

def Vetted (past : List Record) (id : ConnId) : Prop :=
  ∃ since verdict rest, past = since ++ verdict :: rest ∧ Examined since id ∧ verdict.Approves id

def Cleared (past : List Record) (id : ConnId) : Prop :=
  ∀ front rec since, past = front ++ rec :: since → rec.lends? = some id → Vetted since id

/-- Health checks that have not come to an end: those under way, and the verdicts not taken up. -/
def inspections (s : Site) (id : ConnId) : Nat :=
  s.checks.countP (·.id = id) + s.mailbox.countP fun c => c.checked? = some id

variable {past more : List Record} {rec : Record} {id : ConnId}

theorem untouched_nil (id : ConnId) : Untouched [] id :=
  List.forall_mem_nil _

theorem untouched_singleton (unlent : rec.lends? ≠ some id) (unjudged : rec.judges? ≠ some id) :
    Untouched [rec] id :=
  List.forall_mem_singleton.mpr ⟨unlent, unjudged⟩

theorem untouched_append (first : Untouched past id) (then_ : Untouched more id) :
    Untouched (past ++ more) id :=
  List.forall_mem_append.mpr ⟨first, then_⟩

theorem unlent_of_examines (exam : rec.Examines id) : rec.lends? ≠ some id := by
  intro lent
  obtain ⟨e, effect, inspects⟩ := Option.bind_eq_some_iff.mp exam.1
  obtain ⟨e', effect', lends⟩ := Option.bind_eq_some_iff.mp lent
  cases effect.symm.trans effect'
  cases e with
  | check id' serial reply => cases lends
  | _ => cases inspects

theorem examined_append (examined : Examined past id) (untouched : Untouched more id) :
    Examined (past ++ more) id := by
  obtain ⟨front, exam, mid, rfl, exams, quiet⟩ := examined
  exact ⟨front, exam, mid ++ more, by simp, exams, untouched_append quiet untouched⟩

theorem vetted_append (vetted : Vetted past id) (more : List Record) :
    Vetted (past ++ more) id := by
  obtain ⟨since, verdict, rest, rfl, examined, approves⟩ := vetted
  exact ⟨since, verdict, rest ++ more, by simp, examined, approves⟩

theorem exists_of_split {α : Type} {front back before since : List α} {a : α}
    (split : front ++ back = before ++ a :: since) (absent : a ∉ back) :
    ∃ rest, front = before ++ a :: rest ∧ since = rest ++ back := by
  rcases List.append_eq_append_iff.mp split with ⟨within, rfl, eq⟩ | ⟨within, rfl, eq⟩
  · rw [eq] at absent
    simp at absent
  · cases within with
    | nil =>
      rw [List.nil_append] at eq
      rw [← eq] at absent
      simp at absent
    | cons first rest =>
      obtain ⟨rfl, rfl⟩ : a = first ∧ since = rest ++ back := by simpa using eq
      exact ⟨rest, rfl, rfl⟩

theorem cleared_append (cleared : Cleared past id) (unlent : ∀ rec ∈ more, rec.lends? ≠ some id) :
    Cleared (past ++ more) id := by
  intro front rec since split lent
  obtain ⟨rest, before, rfl⟩ := exists_of_split split fun later => unlent rec later lent
  exact vetted_append (cleared front rec rest before lent) more

theorem cleared_of_unlent (unlent : ∀ rec ∈ past, rec.lends? ≠ some id) : Cleared past id := by
  intro front rec since split lent
  have member : rec ∈ past := by
    rw [split]
    simp
  exact absurd lent (unlent rec member)

/-- A good verdict clears a connection whose check it is on. -/
theorem cleared_of_examined (examined : Examined past id) (approves : rec.Approves id) :
    Cleared (past ++ [rec]) id := by
  obtain ⟨front, exam, mid, rfl, exams, quiet⟩ := examined
  intro before loan since split lent
  have unlent : loan ∉ exam :: (mid ++ [rec]) := by
    intro later
    rcases List.mem_cons.mp later with rfl | later
    · exact unlent_of_examines exams lent
    rcases List.mem_append.mp later with later | last
    · exact (quiet loan later).1 lent
    · rw [List.mem_singleton.mp last, Record.lends?, approves.1] at lent
      cases lent
  -- So the loan lies before the check.
  have cut : front ++ (exam :: (mid ++ [rec])) = before ++ loan :: since := by simpa using split
  obtain ⟨rest, rfl, rfl⟩ := exists_of_split cut unlent
  exact ⟨rest ++ exam :: mid, rec, [], by simp, ⟨rest, exam, mid, rfl, exams, quiet⟩, approves⟩

end Site

open Pending (Request)

variable {sc sc' : Scene} {id : ConnId} {p : Pool} {h : Hand} {e : Effect}

/-! ### Checks under way -/

namespace Scene

def inspections (sc : Scene) (id : ConnId) : Nat :=
  sc.underWay.countP fun c => c.checked? = some id

def judging (sc : Scene) : Option ConnId :=
  sc.hand.task.join.bind Command.checked?

end Scene

theorem blind_checked (id : ConnId) : Command.Blind fun c => c.checked? = some id :=
  ⟨fun _ _ => rfl, fun _ _ _ => rfl⟩

/-- Verdicts come from checks, and from nothing else. -/
theorem not_checked_of_sends {s : Site} {e : Site.Event} {healthy : Bool} {reply : Option Ticket} :
    Command.checked id healthy reply ∉ s.sends e := by
  intro sent
  cases e with
  | release k reply' =>
    simp only [Site.sends] at sent
    split at sent <;> simp at sent
  | abandon k =>
    simp only [Site.sends] at sent
    split at sent
    · split at sent <;> simp at sent
    · simp at sent
  | dropLoan k =>
    simp only [Site.sends] at sent
    split at sent
    · split at sent <;> simp at sent
    · simp at sent
  | deadline timer =>
    simp only [Site.sends] at sent
    split at sent
    · split at sent <;> simp at sent
    · simp at sent
  | notice id' =>
    simp only [Site.sends] at sent
    split at sent <;> simp at sent
  | _ => simp [Site.sends] at sent

theorem checked_of_sends (s : Site) (e : Site.Event) (id : ConnId) :
    (s.sends e).countP (fun c => c.checked? = some id) = 0 := by
  apply List.countP_eq_zero.mpr
  intro c sent checked
  cases c with
  | checked id' healthy reply => exact not_checked_of_sends sent
  | _ => simp [Command.checked?] at checked

theorem checked_of_starts (e : Effect) (id : ConnId) :
    e.starts.countP (fun c => c.checked? = some id) = (decide (e.inspects? = some id)).toNat := by
  cases e with
  | check id' serial reply =>
    by_cases same : id' = id <;> simp [Effect.starts, Effect.inspects?, Command.checked?, same]
  | _ => rfl

theorem inspections_of_task {c : Option Command} (task : sc.hand = { task := some c })
    (id : ConnId) :
    sc.inspections id = (decide (c.bind Command.checked? = some id)).toNat +
      sc.site.underWay.countP fun c => c.checked? = some id := by
  rw [Scene.inspections, Scene.underWay, List.countP_append, task]
  cases c with
  | none => rfl
  | some c => simp [countP_cons_toNat]

theorem inspections_of_judging (judging : sc.judging = some id) : 0 < sc.inspections id := by
  obtain ⟨c, task, checked⟩ := Option.bind_eq_some_iff.mp judging
  rw [Scene.inspections, Scene.underWay, task]
  exact List.countP_pos_iff.mpr ⟨c, by simp, decide_eq_true checked⟩

theorem judging_of_task {c : Option Command} (task : sc.hand = { task := some c }) :
    sc.judging = c.bind Command.checked? := by
  rw [Scene.judging, task]
  rfl

/-! ### What a move does to a connection -/

structure Steady (sc sc' : Scene) (id : ConnId) : Prop where
  inspections : sc'.inspections id = sc.inspections id
  past : ∃ more, sc'.past = sc.past ++ more ∧ Site.Untouched more id

theorem steady_alter (kept : h.task = sc.hand.task) : Steady sc (sc.alter p h) id where
  inspections := by
    rw [Scene.inspections, Scene.inspections, Scene.underWay_alter, kept]
    rfl
  past := ⟨[], (List.append_nil _).symm, Site.untouched_nil id⟩

theorem steady_act {c : Option Command} (task : sc.hand = { task := some c })
    (done : h.task = none) (other : c.bind Command.checked? ≠ some id) :
    Steady sc (sc.alter p h) id where
  inspections := by
    rw [inspections_of_task task, decide_eq_false other, Scene.inspections, Scene.underWay_alter,
      done]
    simp
  past := ⟨[], (List.append_nil _).symm, Site.untouched_nil id⟩

theorem steady_emit (steady : Steady sc (sc.alter p h) id) (unlent : e.lends? ≠ some id)
    (uninspected : e.inspects? ≠ some id) : Steady sc ((sc.alter p h).emit e) id where
  inspections := by
    rw [Scene.inspections, Scene.countP_underWay_emit, checked_of_starts,
      decide_eq_false uninspected]
    exact steady.inspections
  past := by
    refine ⟨[_], rfl, Site.untouched_singleton ?_ (by simp [Site.Record.judges?])⟩
    exact unlent

inductive Passing (sc sc' : Scene) (id : ConnId) : Prop where
  | same (steady : Steady sc sc' id) (slot : sc'.registry.slot? id = sc.registry.slot? id)
      (hand : sc'.hand.conn = some id ↔ sc.hand.conn = some id)
      (judging : sc'.judging = some id ↔ sc.judging = some id)
      (command : sc.hand.conn = some id ∨ sc.judging = some id → sc'.command = sc.command)
  | gone (steady : Steady sc sc' id) (slot : sc'.registry.slot? id = none)
      (told : sc.command = some (.closed id) ∨ ∃ serial rec, (id, serial) ∈ sc.registry.names ∧
        sc'.past = sc.past ++ [rec] ∧ rec.effect = some (.close serial))
  | registered (steady : Steady sc sc' id) (new : id = ⟨sc.pool.nextConn⟩)
      (slot : sc'.registry.slot? id = some .onLoan)
  | returned (steady : Steady sc sc' id) (lent : sc.registry.slot? id = some .onLoan)
      (unheld : sc.hand.conn ≠ some id) (slot : sc'.registry.slot? id = some .checking)
      (held : sc'.hand.conn = some id) (unjudged : sc'.judging ≠ some id)
      (back : sc'.command.bind Command.returned? = some id)
  | taken (steady : Steady sc sc' id) (idle : sc.registry.slot? id = some .idle)
      (slot : sc'.registry.slot? id = some .onLoan) (held : sc'.hand.conn = some id)
  | handed (steady : Steady sc sc' id) (held : sc.hand.conn = some id)
      (checking : sc.registry.slot? id = some .checking) (fit : sc.Fit id)
      (slot : sc'.registry.slot? id = some .onLoan)
  | shelved (steady : Steady sc sc' id) (held : sc.hand.conn = some id) (fit : sc.Fit id)
      (slot : sc'.registry.slot? id = some .idle) (past : sc'.past = sc.past)
  | begun (slot : sc'.registry.slot? id = sc.registry.slot? id)
      (count : sc'.inspections id = sc.inspections id) (free : sc.hand = {})
      (unheld : sc'.hand.conn ≠ some id) (judging : sc'.judging = some id)
      (past : sc'.past = sc.past ++ [{ now := sc.now, command := sc'.command, pool := sc.pool }])
  | judged (slot : sc'.registry.slot? id = sc.registry.slot? id)
      (checking : sc.registry.slot? id = some .checking) (judging : sc.judging = some id)
      (count : sc'.inspections id + 1 = sc.inspections id) (held : sc'.hand.conn = some id)
      (unjudged : sc'.judging ≠ some id) (command : sc'.command = sc.command)
      (past : sc'.past = sc.past)
  | dismissed (slot : sc'.registry.slot? id = sc.registry.slot? id)
      (other : sc.registry.slot? id ≠ some .checking) (unheld : sc.hand.conn ≠ some id)
      (judging : sc.judging = some id) (count : sc'.inspections id + 1 = sc.inspections id)
      (past : sc'.past = sc.past)
  | inspected {rec : Site.Record} (slot : sc'.registry.slot? id = sc.registry.slot? id)
      (checking : sc.registry.slot? id = some .checking) (held : sc.hand.conn = some id)
      (count : sc'.inspections id = sc.inspections id + 1) (unheld : sc'.hand.conn ≠ some id)
      (judging : sc'.judging = sc.judging) (past : sc'.past = sc.past ++ [rec])
      (exam : rec.Examines id)
  | lent (slot : sc'.registry.slot? id = sc.registry.slot? id)
      (onLoan : sc.registry.slot? id = some .onLoan) (held : sc.hand.conn = some id)
      (unheld : sc'.hand.conn ≠ some id) (count : sc'.inspections id = sc.inspections id)
      (loan : ∃ k serial rec, (id, serial) ∈ sc.registry.names ∧ sc'.past = sc.past ++ [rec] ∧
        rec.effect = some (.answer k (.loan id serial)))

theorem slot_emit (p : Pool) (h : Hand) (e : Effect) :
    ((sc.alter p h).emit e).registry.slot? id = p.registry.slot? id := by
  simp only [Scene.registry, Scene.pool_emit, Scene.pool_alter]

theorem passing_alter (kept : h.task = sc.hand.task)
    (slot : p.registry.slot? id = sc.registry.slot? id)
    (hand : h.conn = some id ↔ sc.hand.conn = some id) : Passing sc (sc.alter p h) id := by
  apply Passing.same (steady_alter kept) slot hand
  · rw [Scene.judging, Scene.judging, ← kept]
    rfl
  · intro _
    rfl

theorem passing_say (kept : h.task = sc.hand.task)
    (slot : p.registry.slot? id = sc.registry.slot? id)
    (hand : h.conn = some id ↔ sc.hand.conn = some id) (unlent : e.lends? ≠ some id)
    (uninspected : e.inspects? ≠ some id) : Passing sc ((sc.alter p h).emit e) id := by
  apply Passing.same (steady_emit (steady_alter kept) unlent uninspected) _ hand
  · rw [Scene.judging, Scene.judging, ← kept]
    rfl
  · intro _
    rfl
  · rw [slot_emit, slot]

theorem passing_act {c : Option Command} (task : sc.hand = { task := some c })
    (done : h.task = none) (other : c.bind Command.checked? ≠ some id)
    (slot : p.registry.slot? id = sc.registry.slot? id) (unheld : h.conn ≠ some id) :
    Passing sc (sc.alter p h) id := by
  apply Passing.same (steady_act task done other) slot
  · rw [task]
    exact iff_of_false unheld ne_of_none
  · rw [judging_of_task task, Scene.judging, Scene.hand_alter, done]
    exact iff_of_false ne_of_none other
  · intro _
    rfl

theorem passing_act_say {c : Option Command} (task : sc.hand = { task := some c })
    (done : h.task = none) (other : c.bind Command.checked? ≠ some id)
    (slot : p.registry.slot? id = sc.registry.slot? id) (unheld : h.conn ≠ some id)
    (unlent : e.lends? ≠ some id) (uninspected : e.inspects? ≠ some id) :
    Passing sc ((sc.alter p h).emit e) id := by
  apply Passing.same (steady_emit (steady_act task done other) unlent uninspected)
  · rw [slot_emit, slot]
  · rw [task]
    exact iff_of_false unheld ne_of_none
  · rw [judging_of_task task, Scene.judging, Scene.hand_emit, Scene.hand_alter, done]
    exact iff_of_false ne_of_none other
  · intro _
    rfl

theorem unchecked_of_returned {c : Command} {id' : ConnId} (back : c.returned? = some id')
    (id : ConnId) :
    (some c).bind Command.checked? ≠ some id := by
  cases c with
  | checked id'' healthy reply => cases back
  | _ => exact ne_of_none

theorem passing_put_down {id' : ConnId} {slot : Option Slot} (held : sc.hand.conn = some id')
    (slots : p.registry.slot? id = if id = id' then slot else sc.registry.slot? id)
    (here : id = id' → Passing sc (sc.alter p { sc.hand with conn := none, stage := .spare }) id) :
    Passing sc (sc.alter p { sc.hand with conn := none, stage := .spare }) id := by
  by_cases same : id = id'
  · exact here same
  · refine passing_alter rfl (slots.trans (if_neg same)) (iff_of_false ne_of_none ?_)
    rw [held]
    exact ne_of_other same

theorem passing_event {later : Nat} {e : Site.Event} (numbered : sc.site.Numbered) :
    Passing sc { sc with now := later, site := sc.site.happen e } id := by
  refine .same ⟨?_, [], (List.append_nil _).symm, Site.untouched_nil id⟩ ?_ .rfl .rfl fun _ => rfl
  · simp only [Scene.inspections, Scene.underWay, List.countP_append,
      Site.countP_underWay_happen numbered (blind_checked id), checked_of_sends, Nat.add_zero]
  · simp only [Scene.registry, Site.pool_happen]

theorem passing_begin {c : Option Command} {rest : Site} (free : sc.hand = {})
    (due : sc.site.next? = some (c, rest)) :
    Passing sc
      { sc with
        site := rest
        hand := { task := some c }
        memory := sc.memory.begin c sc.site
        past := sc.past ++ [{ now := sc.now, command := c, pool := sc.pool }] } id := by
  have slot : rest.pool.registry.slot? id = sc.registry.slot? id := by
    rw [Site.pool_next? due]
  have count : ({ sc with
      site := rest, hand := { task := some c }, memory := sc.memory.begin c sc.site
      past := sc.past ++ [{ now := sc.now, command := c, pool := sc.pool }] } :
        Scene).inspections id = sc.inspections id := by
    rw [Scene.inspections, Scene.inspections, ← Scene.underWay_begin free due]
    rfl
  by_cases checked : c.bind Command.checked? = some id
  · exact .begun slot count free ne_of_none checked rfl
  · refine .same ⟨count, [_], rfl, ?_⟩ slot ?_ ?_ ?_
    · exact Site.untouched_singleton (by simp [Site.Record.lends?]) checked
    · rw [free]
    · rw [Scene.judging, Scene.judging, free]
      exact iff_of_false checked ne_of_none
    · rw [Scene.judging, free]
      rintro (held | judging) <;> contradiction

theorem passing_dismiss {c : Command} {replies : List Ticket}
    (task : sc.hand = { task := some (some c) }) (moot : c.Moot sc.pool) :
    Passing sc (sc.alter sc.pool { replies }) id := by
  by_cases checked : c.checked? = some id
  · have other : sc.registry.isChecking id = false := by
      cases c with
      | checked id' healthy reply =>
        cases checked
        exact moot
      | _ => cases checked
    refine .dismissed rfl ?_ ?_ ((judging_of_task task).trans checked) ?_ rfl
    · simpa [Registry.isChecking] using other
    · rw [task]
      exact ne_of_none
    · rw [inspections_of_task task, Option.bind_some, decide_eq_true checked]
      exact Nat.add_comm _ _
  · exact passing_act task rfl checked rfl ne_of_none

theorem passing_takeBack {c : Command} {id' : ConnId} {serial : Serial} {r : Registry}
    {stage : Stage} {replies : List Ticket} (command : sc.command = some c)
    (task : sc.hand = { task := some (some c) }) (back : c.returned? = some id')
    (lent : sc.registry.beginCheck? id' = some (serial, r)) :
    Passing sc (sc.withRegistry r { conn := some id', stage, replies }) id := by
  have other := unchecked_of_returned back id
  obtain ⟨onLoan, slots⟩ := Registry.slot?_beginCheck? lent
  by_cases same : id = id'
  · subst same
    have unheld : sc.hand.conn ≠ some id := by
      rw [task]
      exact ne_of_none
    refine .returned (steady_act task rfl other) onLoan unheld ((slots id).trans (if_pos rfl)) rfl
      ne_of_none ?_
    exact (congrArg (·.bind Command.returned?) command).trans back
  · exact passing_act task rfl other ((slots id).trans (if_neg same)) (ne_of_other same)

theorem passing_verdict {id' : ConnId} {healthy : Bool} {reply : Option Ticket}
    {stage : Stage} {replies : List Ticket}
    (task : sc.hand = { task := some (some (.checked id' healthy reply)) })
    (checking : sc.registry.isChecking id' = true) :
    Passing sc (sc.alter sc.pool { conn := some id', stage, replies }) id := by
  by_cases same : id = id'
  · subst same
    have slot : sc.registry.slot? id = some .checking := by
      simpa [Registry.isChecking] using checking
    refine .judged rfl slot (judging_of_task task) ?_ rfl ne_of_none rfl rfl
    rw [inspections_of_task task]
    simp only [Option.bind_some, Command.checked?, decide_true, Bool.toNat_true]
    exact Nat.add_comm _ _
  · exact passing_act task rfl (ne_of_other same) rfl (ne_of_other same)

theorem passing_check {id' : ConnId} {serial : Serial} {reply : Option Ticket}
    (held : sc.hand.conn = some id') (checking : sc.registry.isChecking id' = true)
    (back : sc.command.bind Command.returned? = some id') :
    Passing sc ((sc.alter sc.pool
      { sc.hand with conn := none, stage := .spare, replies := [] }).emit
        (.check id' serial reply)) id := by
  by_cases same : id = id'
  · subst same
    have slot : sc.registry.slot? id = some .checking := by
      simpa [Registry.isChecking] using checking
    refine .inspected (slot_emit _ _ _) slot held ?_ ne_of_none rfl rfl ⟨rfl, back⟩
    rw [Scene.inspections, Scene.countP_underWay_emit, checked_of_starts]
    simp only [Effect.inspects?, decide_true, Bool.toNat_true]
    rfl
  · refine passing_say rfl rfl (iff_of_false ne_of_none ?_) ne_of_none (ne_of_other same)
    rw [held]
    exact ne_of_other same

theorem passing_lend {id' : ConnId} {serial : Serial} {k : Ticket} {rs : List Request}
    (conn : sc.hand.conn = some id') (known : sc.registry.serial? id' = some serial)
    (lent : sc.registry.slot? id' = some .onLoan) :
    Passing sc ((sc.alter sc.pool
      { sc.hand with requests := rs, conn := none, stage := .spare }).emit
        (.answer k (.loan id' serial))) id := by
  by_cases same : id = id'
  · subst same
    refine .lent (slot_emit _ _ _) lent conn ne_of_none ?_ ?_
    · rw [Scene.inspections, Scene.countP_underWay_emit]
      rfl
    · exact ⟨k, serial, _, Registry.mem_names_of_serial? known, rfl, rfl⟩
  · refine passing_say rfl rfl (iff_of_false ne_of_none ?_) (ne_of_other same) ne_of_none
    rw [conn]
    exact ne_of_other same

theorem passing_discard {id' : ConnId} {serial : Serial} {confirms : Serial → Bool} {r : Registry}
    (removed : sc.registry.discard? confirms id' = some (serial, r))
    (here : id = id' → Steady sc (sc.withRegistry r h) id)
    (other : id ≠ id' → r.slot? id = sc.registry.slot? id →
      Passing sc ((sc.withRegistry r h).emit (.close serial)) id) :
    Passing sc ((sc.withRegistry r h).emit (.close serial)) id := by
  have slots := Registry.slot?_discard? (i := id) removed
  by_cases same : id = id'
  · refine .gone (steady_emit (here same) ne_of_none ne_of_none) ?_ ?_
    · rw [slot_emit, slots, if_pos same]
    · subst same
      exact .inr ⟨serial, _, Registry.mem_names_of_discard? removed, rfl, rfl⟩
  · exact other same (slots.trans (if_neg same))

theorem passing_seize {c : Command} {id' : ConnId} {serial : Serial} {confirms : Serial → Bool}
    {r : Registry} (task : sc.hand = { task := some (some c) }) (back : c.returned? = some id')
    (removed : sc.registry.discard? confirms id' = some (serial, r)) :
    Passing sc ((sc.withRegistry r { replies := c.replies }).emit (.close serial)) id := by
  have other := unchecked_of_returned back id
  apply passing_discard removed
  · intro _
    exact steady_act task rfl other
  · intro _ slot
    exact passing_act_say task rfl other slot ne_of_none ne_of_none ne_of_none

theorem passing_let_go {id' : ConnId} {serial : Serial} {confirms : Serial → Bool} {r : Registry}
    (held : sc.hand.conn = some id')
    (removed : sc.registry.discard? confirms id' = some (serial, r)) :
    Passing sc ((sc.withRegistry r { sc.hand with conn := none, stage := .spare }).emit
      (.close serial)) id := by
  apply passing_discard removed
  · intro _
    exact steady_alter rfl
  · intro same slot
    refine passing_say rfl slot (iff_of_false ne_of_none ?_) ne_of_none ne_of_none
    rw [held]
    exact ne_of_other same

theorem passing_connectDone {target : Target} {serial : Serial} {n : Counters} {rs : List Request}
    (task : sc.hand = { task := some (some (.connected target (.ok serial))) }) :
    Passing sc ((sc.alter
      { sc.pool with
        registry := sc.registry.register ⟨sc.pool.nextConn⟩ serial
        nextConn := sc.pool.nextConn + 1
        counters := n }
      { conn := some ⟨sc.pool.nextConn⟩, stage := .opened, requests := rs }).emit
        (.listen ⟨sc.pool.nextConn⟩ serial)) id := by
  have slots : (sc.registry.register ⟨sc.pool.nextConn⟩ serial).slot? id = _ :=
    Registry.slot?_register
  by_cases same : id = ⟨sc.pool.nextConn⟩
  · refine .registered ?_ same ?_
    · exact steady_emit (steady_act task rfl ne_of_none) ne_of_none ne_of_none
    · rw [slot_emit, slots, if_pos same]
  · exact passing_act_say task rfl ne_of_none (slots.trans (if_neg same)) (ne_of_other same)
      ne_of_none ne_of_none

theorem passing_forget {id' : ConnId} (command : sc.command = some (.closed id'))
    (task : sc.hand = { task := some (some (.closed id')) }) :
    Passing sc (sc.withRegistry (sc.registry.forget id').2 {}) id := by
  have slots : (sc.registry.forget id').2.slot? id = _ := Registry.slot?_forget
  by_cases same : id = id'
  · subst same
    exact .gone (steady_act task rfl ne_of_none) (slots.trans (if_pos rfl)) (.inl command)
  · exact passing_act task rfl ne_of_none (slots.trans (if_neg same)) ne_of_none

theorem passing_checkout {id' : ConnId} {r : Registry} (a : sc.Accounted)
    (empty : sc.hand.conn = none) (taken : sc.registry.checkout? = some (id', r)) :
    Passing sc (sc.withRegistry r { sc.hand with conn := some id', stage := .spare }) id := by
  by_cases same : id = id'
  · subst same
    obtain ⟨idle, lent⟩ := Registry.slot?_checkout?_self a.balanced taken
    exact .taken (steady_alter rfl) idle lent rfl
  · refine passing_alter rfl ((Registry.slot?_checkout? taken).trans (if_neg same)) ?_
    rw [empty]
    exact iff_of_false (ne_of_other same) ne_of_none

theorem passing_handOver {id' : ConnId} (held : sc.hand.conn = some id') (fit : sc.Fit id') :
    Passing sc (sc.withRegistry (sc.registry.handOver id') sc.hand) id := by
  have slots : (sc.registry.handOver id').slot? id = _ := Registry.slot?_handOver
  by_cases here : id = id' ∧ sc.registry.slot? id' = some .checking
  · obtain ⟨rfl, checking⟩ := here
    exact .handed (steady_alter rfl) held checking fit (slots.trans (if_pos ⟨rfl, checking⟩))
  · exact passing_alter rfl (slots.trans (if_neg here)) .rfl

theorem passing_checkIn {id' : ConnId} (a : sc.Accounted) (held : sc.hand.conn = some id')
    (fit : sc.Fit id') :
    Passing sc (sc.withRegistry ((sc.registry.checkIn? id').getD sc.registry)
      { sc.hand with conn := none, stage := .spare }) id := by
  obtain ⟨slot, known, used⟩ := a.held _ held
  have slots := Registry.slot?_checkIn? (i := id) known used
  refine passing_put_down held slots ?_
  rintro rfl
  exact .shelved (steady_alter rfl) held fit (slots.trans (if_pos rfl)) rfl

theorem passing_putBack {id' : ConnId} (held : sc.hand.conn = some id')
    (lent : sc.registry.slot? id' = some .onLoan) :
    Passing sc (sc.withRegistry ((sc.registry.putBack? id').getD sc.registry)
      { sc.hand with conn := none, stage := .spare }) id := by
  have slots := Registry.slot?_putBack? (i := id) lent (by simp)
  refine passing_put_down held slots ?_
  rintro rfl
  exact .shelved (steady_alter rfl) held (fit_of_lent lent) (slots.trans (if_pos rfl)) rfl

theorem passing_move (a : sc.Accounted) (tasked : ∀ c, sc.hand.task = some c → sc.command = c)
    (move : Move sc sc') (id : ConnId) : Passing sc sc' id := by
  cases move with
  | event order allowed => exact passing_event a.numbered
  | wait order =>
    exact .same ⟨rfl, [], (List.append_nil _).symm, Site.untouched_nil id⟩ rfl .rfl .rfl
      fun _ => rfl
  | begin free due => exact passing_begin free due
  | dismiss task moot => exact passing_dismiss task moot
  | refuse task closed =>
    exact passing_act_say task rfl ne_of_none rfl ne_of_none ne_of_none ne_of_none
  | acquire task opened quiet => exact passing_act task rfl ne_of_none rfl ne_of_none
  | stats task => exact passing_act_say task rfl ne_of_none rfl ne_of_none ne_of_none ne_of_none
  | @shut c closer task ends opened =>
    refine passing_act task rfl ?_ rfl ne_of_none
    subst ends
    cases closer <;> exact ne_of_none
  | seize task back closed honest removed => exact passing_seize task back removed
  | takeBack task back opened lent =>
    exact passing_takeBack (tasked _ (congrArg Hand.task task)) task back lent
  | connectDone task => exact passing_connectDone task
  | connectFailed task => exact passing_act task rfl ne_of_none rfl ne_of_none
  | verdict task checking => exact passing_verdict task checking
  | expire task queued => exact passing_act task rfl ne_of_none rfl ne_of_none
  | overflow task queued due reachable drained =>
    exact passing_act_say task rfl ne_of_none rfl ne_of_none ne_of_none ne_of_none
  | forget task => exact passing_forget (tasked _ (congrArg Hand.task task)) task
  | checkout free empty opened taken => exact passing_checkout a empty taken
  | lose held unknown =>
    -- A connection in hand is registered.
    obtain ⟨slot, known, -⟩ := a.held _ held
    rw [Registry.slot?, unknown] at known
    cases known
  | discard held honest removed => exact passing_let_go held removed
  | evict free empty closed honest removed =>
    apply passing_discard removed
    · intro _
      exact steady_alter rfl
    · intro _ slot
      exact passing_say rfl slot .rfl ne_of_none ne_of_none
  | handOver held fit => exact passing_handOver held fit
  | checkIn held unwanted kept fit => exact passing_checkIn a held fit
  | putBack held unwanted lent => exact passing_putBack held lent
  | check held replies reachable known checking back => exact passing_check held checking back
  | lend held unarmed conn known lent present => exact passing_lend conn known lent
  | answer owed plain =>
    refine passing_say rfl rfl .rfl ?_ ne_of_none
    rw [lends_of_plain plain]
    exact ne_of_none
  | report free closed complete =>
    exact passing_alter (congrArg Hand.task free).symm rfl (by rw [free])
  | await owed => exact passing_alter rfl rfl .rfl
  | _ =>
    first
      | exact passing_alter rfl rfl .rfl
      | exact passing_say rfl rfl .rfl ne_of_none ne_of_none

/-! ### Loans and checks -/

theorem exists_of_lends (lends : e.lends? = some id) :
    ∃ k serial, e = .answer k (.loan id serial) := by
  cases e with
  | answer k outcome =>
    cases outcome with
    | loan id' serial =>
      cases lends
      exact ⟨k, serial, rfl⟩
    | _ => cases lends
  | _ => cases lends

/-- A loan is of a connection that is in hand and on loan, and for which the hook was called. -/
theorem loan_of_move {k : Ticket} {serial : Serial} (move : Move sc sc')
    (eq : sc' = (sc.alter p h).emit (.answer k (.loan id serial))) :
    sc.hand.conn = some id ∧ sc.registry.slot? id = some .onLoan ∧
      sc.registry.serial? id = some serial ∧ p = sc.pool ∧ sc.Promised serial := by
  cases move with
  | lend held unarmed conn known lent present told promised =>
    obtain ⟨rfl, -, same⟩ := emit_inj eq
    cases same
    exact ⟨conn, lent, known, rfl, promised⟩
  | answer owed plain =>
    obtain ⟨-, -, same⟩ := emit_inj eq
    cases same
    rcases plain with plain | ⟨reason, plain⟩ <;> cases plain
  | begin free due => exact absurd eq (ne_emit_begin rfl rfl)
  | _ => first | exact absurd eq (ne_emit rfl) | cases (emit_inj eq).2.2

/-- A check is started in a turn that ends a loan of the connection, while it is in hand. -/
theorem inspected_of_move {serial : Serial} {reply : Option Ticket} (move : Move sc sc')
    (eq : sc' = (sc.alter p h).emit (.check id serial reply)) :
    sc.hand.conn = some id ∧ sc.registry.slot? id = some .checking ∧
      sc.site.isReachable = true ∧ sc.command.bind Command.returned? = some id := by
  cases move with
  | check held replies reachable known checking back =>
    obtain ⟨-, -, same⟩ := emit_inj eq
    cases same
    exact ⟨held, by simpa [Registry.isChecking] using checking, reachable, back⟩
  | begin free due => exact absurd eq (ne_emit_begin rfl rfl)
  | _ => first | exact absurd eq (ne_emit rfl) | cases (emit_inj eq).2.2

end LoanPool
