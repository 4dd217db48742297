import LoanPool.Proofs.Ledger

/-!
# Exclusivity

The loans of a connection are counted wherever they are: with callers, in answers not looked at yet,
and in commands that end them. As long as anybody holds on to the pool, a connection on loan has one
loan outstanding, any other registered one has none, and one that is not registered any more has one
at most. For the time that the pool has a connection in hand, nobody else has it.
-/
namespace LoanPool
open Pending (Request)

def Standing.loan? : Standing → Option ConnId
  | .holding id _ => some id
  | .answered (.loan id _) => some id
  | _ => none

def Effect.lends? : Effect → Option ConnId
  | .answer _ (.loan id _) => some id
  | _ => none

def Site.lent (s : Site) (id : ConnId) : Nat :=
  s.tickets.countP fun e => e.2.loan? = some id

def Site.outstanding (s : Site) (id : ConnId) : Nat :=
  s.lent id + s.mailbox.countP fun c => c.returned? = some id

def Scene.outstanding (sc : Scene) (id : ConnId) : Nat :=
  sc.site.lent id + sc.underWay.countP fun c => c.returned? = some id

/-- The number of loans that a connection may have, by its slot. A loan may be lost, unless all are
kept. -/
def Fair (kept : Prop) (slot : Option Slot) (inHand : Prop) (loans : Nat) : Prop :=
  match slot with
  | some .onLoan => inHand ∧ loans = 0 ∨ ¬inHand ∧ loans ≤ 1 ∧ (kept → loans = 1)
  | some _ => loans = 0
  | none => loans ≤ 1

namespace Fair
variable {kept kept' : Prop} {slot : Option Slot} {inHand inHand' : Prop} {loans fewer : Nat}

theorem le_one (fair : Fair kept slot inHand loans) : loans ≤ 1 := by
  simp only [Fair] at fair
  split at fair <;> omega

theorem weaken (fair : Fair kept slot inHand loans) (imp : kept' → kept) :
    Fair kept' slot inHand loans := by
  simp only [Fair] at fair ⊢
  split at fair
  · exact fair.imp_right fun ⟨free, few, one⟩ => ⟨free, few, fun still => one (imp still)⟩
  · exact fair
  · exact fair

/-- Loans may get lost only where they are not all kept. -/
theorem of_le (fair : Fair kept slot inHand loans) (less : fewer ≤ loans)
    (same : kept → fewer = loans) : Fair kept slot inHand fewer := by
  simp only [Fair] at fair ⊢
  split at fair
  · refine fair.imp (fun ⟨held, nothing⟩ => ⟨held, by omega⟩) fun ⟨free, few, one⟩ => ?_
    exact ⟨free, by omega, fun still => (same still).trans (one still)⟩
  · exact Nat.le_zero.mp (fair ▸ less)
  · exact Nat.le_trans less fair

/-- The connection is not in hand before, nor is it after. -/
theorem of_free (fair : Fair kept slot inHand loans) (free : ¬inHand) (free' : ¬inHand') :
    Fair kept slot inHand' loans := by
  rwa [← propext (iff_of_false free free')]

theorem of_zero (unlent : slot ≠ some .onLoan) : Fair kept slot inHand 0 := by
  unfold Fair
  split
  · exact absurd rfl unlent
  · rfl
  · exact Nat.zero_le 1

/-- Whatever the pool has in hand, nobody else has. -/
theorem of_hand (held : inHand) (none_lent : loans = 0) : Fair kept slot inHand loans := by
  simp only [Fair]
  split
  · exact .inl ⟨held, none_lent⟩
  · exact none_lent
  · omega

theorem eq_zero_of_hand (fair : Fair kept slot inHand loans) (held : inHand) (known : slot ≠ none) :
    loans = 0 := by
  simp only [Fair] at fair
  split at fair
  · rcases fair with ⟨-, nothing⟩ | ⟨free, -⟩
    · exact nothing
    · exact absurd held free
  · exact fair
  · exact absurd rfl known

theorem eq_zero_of_slot {slot : Slot} (fair : Fair kept (some slot) inHand loans)
    (other : slot ≠ .onLoan) : loans = 0 := by
  cases slot with
  | onLoan => exact absurd rfl other
  | idle => exact fair
  | checking => exact fair

/-- A loan that ends without the pool's taking the connection back. -/
theorem of_succ (fair : Fair kept slot inHand (loans + 1)) (other : slot ≠ some .onLoan) :
    Fair kept slot inHand' loans := by
  simp only [Fair] at fair ⊢
  match slot with
  | some .onLoan => exact absurd rfl other
  | some .idle => cases fair
  | some .checking => cases fair
  | none => exact Nat.le_trans (Nat.le_succ loans) fair

theorem eq_one (fair : Fair kept (some .onLoan) inHand loans) (free : ¬inHand) (still : kept) :
    loans = 1 := by
  rcases fair with ⟨held, -⟩ | ⟨-, -, one⟩
  · exact absurd held free
  · exact one still

end Fair

def Scene.Shares (kept : Prop) (sc : Scene) : Prop :=
  ∀ id, Fair kept (sc.registry.slot? id) (sc.hand.conn = some id) (sc.outstanding id)

/-- Loans are kept as long as anybody holds on to the pool. -/
structure Scene.Exclusive (sc : Scene) : Prop where
  fair : sc.Shares (sc.site.isReachable = true)
  unborn : ∀ id, sc.pool.nextConn ≤ id.number → sc.outstanding id = 0

theorem blind_returned (id : ConnId) : Command.Blind fun c => c.returned? = some id :=
  ⟨fun _ _ => rfl, fun _ _ _ => rfl⟩

namespace Site
variable {s : Site} {k : Ticket} {id : ConnId}

theorem mem_tickets {standing : Standing} (eq : s.standing k = standing)
    (known : standing ≠ .spent) : (k, standing) ∈ s.tickets := by
  simp only [Site.standing] at eq
  cases found : s.tickets.lookup k with
  | none =>
    rw [found] at eq
    exact absurd eq.symm known
  | some other =>
    rw [found] at eq
    obtain ⟨front, back, split, -⟩ := List.lookup_eq_some_iff.mp found
    rw [split, ← show other = standing from eq]
    simp

theorem lent_setStanding (id : ConnId) (distinct : (s.tickets.map (·.1)).Nodup) {old : Standing}
    (eq : s.standing k = old) (known : old ≠ .spent) (new : Standing) :
    (s.setStanding k new).lent id + (decide (old.loan? = some id)).toNat =
      s.lent id + (decide (new.loan? = some id)).toNat :=
  Keyed.countP_change distinct (mem_tickets eq known) (fun _ => (k, new))
    fun e => e.2.loan? = some id

theorem lent_ask (c : Command) : (s.ask k c).lent id = s.lent id := by
  change (s.tickets ++ [(k, Standing.waiting)]).countP _ = _
  rw [List.countP_append]
  rfl

theorem lent_report (c : Command) : (s.report c).lent id = s.lent id := by
  rw [lent, tickets_report]
  rfl

/-- A caller parts with a loan, which is reported if anybody holds on to the pool. -/
theorem lent_part (id : ConnId) (distinct : (s.tickets.map (·.1)).Nodup) {old new : Standing}
    {id' : ConnId} (eq : s.standing k = old) (lent : old.loan? = some id')
    (bare : new.loan? = none) :
    ∃ lost, ((s.setStanding k new).report (.dropped id')).lent id +
        (if s.isReachable then [Command.dropped id'] else []).countP
          (fun c => c.returned? = some id) + lost = s.lent id ∧
      (s.isReachable = true → lost = 0) := by
  have known : old ≠ .spent := by
    rintro rfl
    cases lent
  have moved := lent_setStanding id distinct eq known new
  rw [lent, bare] at moved
  rw [lent_report]
  by_cases reachable : s.isReachable = true
  · refine ⟨0, ?_, fun _ => rfl⟩
    simp only [reachable, if_true, countP_cons_toNat, List.countP_nil]
    exact moved
  · refine ⟨(decide (some id' = some id)).toNat, ?_, fun held => absurd held reachable⟩
    rw [if_neg reachable]
    exact moved

/-- A loan that a caller parts with is on its way back. It gets lost if nothing holds on to the pool
any more. -/
theorem lent_happen (id : ConnId) (distinct : (s.tickets.map (·.1)).Nodup) (e : Event) :
    ∃ lost, (s.happen e).lent id + (s.sends e).countP (fun c => c.returned? = some id) + lost =
      s.lent id ∧ (s.isReachable = true → lost = 0) := by
  have kept : (s.happen e).lent id + (s.sends e).countP (fun c => c.returned? = some id) =
      s.lent id → ∃ lost, (s.happen e).lent id +
        (s.sends e).countP (fun c => c.returned? = some id) + lost = s.lent id ∧
        (s.isReachable = true → lost = 0) :=
    fun same => ⟨0, same, fun _ => rfl⟩
  cases e with
  | acquire k => exact kept (lent_ask _)
  | close k => exact kept (lent_ask _)
  | stats k => exact kept (lent_ask _)
  | release k reply =>
    apply kept
    simp only [happen, release, sends]
    cases holding : s.standing k with
    | holding id' serial =>
      have moved := lent_setStanding id distinct holding (by simp) .spent
      simp only [lent_ask, countP_cons_toNat, List.countP_nil]
      exact moved
    | _ => rfl
  | read k =>
    apply kept
    simp only [happen, read]
    split
    · next id' serial answered =>
      have moved := lent_setStanding id distinct answered (by simp) (.holding id' serial)
      exact Nat.add_right_cancel moved
    · next outcome unlent answered =>
      have moved := lent_setStanding id distinct answered (by simp) .spent
      have nothing : (Standing.answered outcome).loan? = none := by
        cases outcome with
        | loan id' serial => exact absurd rfl (unlent id' serial)
        | _ => rfl
      rw [nothing] at moved
      exact moved
    · rfl
  | abandon k =>
    simp only [happen, abandon, sends]
    cases eq : s.standing k with
    | waiting => exact ⟨0, lent_setStanding id distinct eq (by simp) .abandoned, fun _ => rfl⟩
    | answered outcome =>
      cases outcome with
      | loan id' serial => exact lent_part id distinct eq rfl rfl
      | _ => exact ⟨0, lent_setStanding id distinct eq (by simp) .abandoned, fun _ => rfl⟩
    | _ => exact ⟨0, rfl, fun _ => rfl⟩
  | dropLoan k =>
    simp only [happen, dropLoan, sends]
    cases eq : s.standing k with
    | holding id' serial => exact lent_part id distinct eq rfl rfl
    | _ => exact ⟨0, rfl, fun _ => rfl⟩
  | connected job result =>
    apply kept
    simp only [happen, finishConnect]
    split
    · rfl
    · split <;> rfl
  | checked job healthy =>
    apply kept
    simp only [happen, finishCheck]
    split <;> rfl
  | deadline timer =>
    apply kept
    simp only [happen, passDeadline, sends]
    cases s.deadlines.find? (·.timer = timer) with
    | none => rfl
    | some d =>
      dsimp only
      rw [lent_report]
      split <;> rfl
  | notice id' =>
    apply kept
    simp only [happen, noticeClose, sends, lent_report]
    split <;> rfl
  | _ => exact kept rfl

/-- An answer brings a loan only to a caller that waits for it. -/
theorem lent_enact_loan (distinct : (s.tickets.map (·.1)).Nodup) (waiting : s.standing k = .waiting)
    (now : Nat) (id' : ConnId) (serial : Serial) :
    (s.enact now (.answer k (.loan id' serial))).lent id =
      s.lent id + if id' = id then 1 else 0 := by
  have moved := lent_setStanding id distinct waiting (by simp) (.answered (.loan id' serial))
  simp only [enact, waiting, if_true]
  by_cases same : id' = id
  · subst same
    simpa [Standing.loan?] using moved
  · simpa [Standing.loan?, same] using moved

theorem lent_enact_other (distinct : (s.tickets.map (·.1)).Nodup) {e : Effect}
    (other : e.lends? = none) (now : Nat) :
    (s.enact now e).lent id = s.lent id := by
  cases e with
  | answer k outcome =>
    simp only [enact]
    split
    · next waiting =>
      have moved := lent_setStanding id distinct waiting (by simp) (.answered outcome)
      have nothing : (Standing.answered outcome).loan? = none := by
        cases outcome with
        | loan id' serial => cases other
        | _ => rfl
      rw [nothing] at moved
      exact moved
    · rfl
  | _ => rfl

end Site

/-! ### Moves -/

variable {sc sc' : Scene} {id : ConnId} {kept : Prop}

theorem ne_of_other {id' : ConnId} (same : ¬id = id') : (some id' : Option ConnId) ≠ some id :=
  fun eq => same (Option.some.inj eq).symm

theorem ne_of_none : (none : Option ConnId) ≠ some id :=
  (Option.some_ne_none id).symm

theorem outstanding_of_task {c : Command} (task : sc.hand = { task := some (some c) }) :
    sc.outstanding id = sc.site.lent id +
      (sc.site.underWay.countP (fun c => c.returned? = some id) +
        (decide (c.returned? = some id)).toNat) := by
  rw [Scene.outstanding, Scene.countP_of_task task]

theorem returned_of_starts (e : Effect) :
    e.starts.countP (fun c => c.returned? = some id) = 0 := by
  cases e with
  | _ => rfl

theorem lends_of_plain {k : Ticket} {outcome : Outcome}
    (plain : outcome = .done ∨ ∃ reason, outcome = .failed (.observer reason)) :
    (Effect.answer k outcome).lends? = none := by
  rcases plain with rfl | ⟨reason, rfl⟩ <;> rfl

theorem outstanding_event (a : sc.Accounted) (ledger : sc.Ledger) (id : ConnId) {later : Nat}
    {e : Site.Event} :
    ({ sc with now := later, site := sc.site.happen e } : Scene).outstanding id ≤
        sc.outstanding id ∧
      (sc.site.isReachable = true →
        ({ sc with now := later, site := sc.site.happen e } : Scene).outstanding id =
          sc.outstanding id) := by
  obtain ⟨lost, lent, kept⟩ := Site.lent_happen id ledger.distinct e
  simp only [Scene.outstanding, Scene.underWay, List.countP_append,
    Site.countP_underWay_happen a.numbered (blind_returned id)]
  constructor
  · omega
  · intro reachable
    have none_lost := kept reachable
    omega

theorem outstanding_begin {c : Option Command} {rest : Site} {past : List Site.Record}
    (free : sc.hand = {}) (due : sc.site.next? = some (c, rest)) :
    ({ sc with
        site := rest, hand := { task := some c }, memory := sc.memory.begin c sc.site
        past } : Scene).outstanding id = sc.outstanding id := by
  rw [Scene.outstanding, Scene.outstanding, ← Scene.underWay_begin free due, Site.lent, Site.lent,
    ← Site.tickets_next? due]
  rfl

theorem outstanding_emit {p : Pool} {h : Hand} {e : Effect}
    (distinct : (sc.site.tickets.map (·.1)).Nodup) (other : e.lends? = none) :
    ((sc.alter p h).emit e).outstanding id = (sc.alter p h).outstanding id := by
  have lent : ((sc.alter p h).emit e).site.lent id = (sc.alter p h).site.lent id :=
    Site.lent_enact_other (s := sc.site.withPool p) distinct other sc.now
  rw [Scene.outstanding, Scene.countP_underWay_emit, returned_of_starts, lent]
  rfl

theorem fair_emit {p : Pool} {h : Hand} {e : Effect}
    (distinct : (sc.site.tickets.map (·.1)).Nodup) (other : e.lends? = none)
    (fair : Fair kept (p.registry.slot? id) (h.conn = some id) ((sc.alter p h).outstanding id)) :
    Fair kept (((sc.alter p h).emit e).registry.slot? id)
      (((sc.alter p h).emit e).hand.conn = some id)
      (((sc.alter p h).emit e).outstanding id) := by
  rw [outstanding_emit distinct other]
  simpa only [Scene.registry, Scene.pool_emit, Scene.hand_emit, Scene.pool_alter,
    Scene.hand_alter] using fair

/-- A caller that waits finds the loan it is answered. -/
theorem outstanding_lend (id : ConnId) {k : Ticket}
    (distinct : (sc.site.tickets.map (·.1)).Nodup)
    (waiting : sc.site.standing k = .waiting) (id' : ConnId) (serial : Serial) (p : Pool)
    (h : Hand) :
    ((sc.alter p h).emit (.answer k (.loan id' serial))).outstanding id =
      (sc.alter p h).outstanding id + if id' = id then 1 else 0 := by
  have lent : ((sc.alter p h).emit (.answer k (.loan id' serial))).site.lent id =
      (sc.alter p h).site.lent id + if id' = id then 1 else 0 :=
    Site.lent_enact_loan (s := sc.site.withPool p) distinct waiting sc.now id' serial
  rw [Scene.outstanding, Scene.countP_underWay_emit, returned_of_starts, lent, Scene.outstanding]
  omega

theorem not_lent_of_moot {p : Pool} {c : Command} (moot : c.Moot p)
    (back : c.returned? = some id) : p.registry.slot? id ≠ some .onLoan := by
  have unlent : p.registry.beginCheck? id = none := by
    cases c with
    | release id' k =>
      cases back
      exact moot
    | dropped id' =>
      cases back
      exact moot
    | _ => cases back
  intro lent
  obtain ⟨e, found, slot⟩ := Registry.find?_of_slot? lent
  simp [Registry.beginCheck?, found, slot] at unlent

/-- Before a task is acted upon, nothing is in hand, and the task may end a loan. -/
theorem fair_of_task {c : Command} (x : sc.Shares kept)
    (task : sc.hand = { task := some (some c) }) (id : ConnId) :
    Fair kept (sc.registry.slot? id) False (sc.site.lent id +
      (sc.site.underWay.countP (fun c => c.returned? = some id) +
        (decide (c.returned? = some id)).toNat)) := by
  have fair := x id
  rw [outstanding_of_task task, task] at fair
  exact fair.of_free (by simp) not_false

theorem fair_of_act {c : Command} (x : sc.Shares kept)
    (task : sc.hand = { task := some (some c) }) (id : ConnId) (other : c.returned? ≠ some id) :
    Fair kept (sc.registry.slot? id) ((none : Option ConnId) = some id)
      (sc.site.lent id + sc.site.underWay.countP fun c => c.returned? = some id) := by
  have before := fair_of_task x task id
  rw [decide_eq_false other] at before
  exact before.of_free not_false (by simp)

theorem fair_put_down {id' : ConnId} {slot rest : Option Slot} (a : sc.Accounted)
    (x : sc.Shares kept) (held : sc.hand.conn = some id') (unlent : rest ≠ some .onLoan)
    (slots : slot = if id = id' then rest else sc.registry.slot? id) :
    Fair kept slot ((none : Option ConnId) = some id) (sc.outstanding id) := by
  rw [slots]
  by_cases same : id = id'
  · subst same
    obtain ⟨old, known, -⟩ := a.held id held
    rw [if_pos rfl, (x id).eq_zero_of_hand held (by rw [known]; simp)]
    exact .of_zero unlent
  · rw [if_neg same]
    have other : sc.hand.conn ≠ some id := by
      rw [held]
      exact fun eq => same (Option.some.inj eq).symm
    exact (x id).of_free other (by simp)

/-! Each kind of move keeps the shares. The invariants that a kind needs are named with it. -/

/-- A closed pool lets go of what comes back: that loan is the only one of a connection that is
registered no longer. -/
theorem shares_seize {c : Command} {id' : ConnId} {serial : Serial} {confirms : Serial → Bool}
    {r : Registry} (ledger : sc.Ledger) (x : sc.Shares kept)
    (task : sc.hand = { task := some (some c) }) (back : c.returned? = some id')
    (removed : sc.registry.discard? confirms id' = some (serial, r)) :
    ((sc.withRegistry r { replies := c.replies }).emit (.close serial)).Shares kept := by
  intro id
  apply fair_emit ledger.distinct rfl
  rw [Registry.slot?_discard? removed]
  by_cases same : id = id'
  · have few := (fair_of_task x task id).le_one
    rw [if_pos same]
    exact Nat.le_trans (Nat.add_le_add_left (Nat.le_add_right _ _) _) few
  · rw [if_neg same]
    exact fair_of_act x task id (back ▸ ne_of_other same)

theorem shares_takeBack {c : Command} {id' : ConnId} {serial : Serial} {r : Registry}
    {ks : List Ticket} (x : sc.Shares kept) (task : sc.hand = { task := some (some c) })
    (back : c.returned? = some id') (lent : sc.registry.beginCheck? id' = some (serial, r)) :
    (sc.withRegistry r { conn := some id', stage := .returned, replies := ks }).Shares kept := by
  intro id
  obtain ⟨onLoan, slots⟩ := Registry.slot?_beginCheck? lent
  by_cases same : id = id'
  · subst same
    have few := (fair_of_task x task id).le_one
    rw [decide_eq_true back] at few
    exact .of_hand rfl (Nat.le_zero.mp (Nat.le_of_succ_le_succ few))
  · have unmoved : r.slot? id = sc.registry.slot? id := (slots id).trans (if_neg same)
    have before := fair_of_act x task id (back ▸ ne_of_other same)
    rw [← unmoved] at before
    exact before.of_free ne_of_none (ne_of_other same)

/-- Nobody has a loan of a connection that has just got its name. -/
theorem shares_connectDone {target : Target} {serial : Serial} {n : Counters}
    (ledger : sc.Ledger) (exclusive : sc.Exclusive) (x : sc.Shares kept)
    (task : sc.hand = { task := some (some (.connected target (.ok serial))) }) :
    ((sc.alter
      { sc.pool with
        registry := sc.registry.register ⟨sc.pool.nextConn⟩ serial
        nextConn := sc.pool.nextConn + 1
        counters := n }
      { conn := some ⟨sc.pool.nextConn⟩, stage := .opened, requests := target.requests }).emit
        (.listen ⟨sc.pool.nextConn⟩ serial)).Shares kept := by
  intro id
  apply fair_emit ledger.distinct rfl
  by_cases same : id = ⟨sc.pool.nextConn⟩
  · have unborn := exclusive.unborn id (by simp [same])
    rw [outstanding_of_task task] at unborn
    exact .of_hand (by rw [same]) unborn
  · rw [Registry.slot?_register, if_neg same]
    exact (fair_of_act x task id ne_of_none).of_free ne_of_none (ne_of_other same)

theorem shares_verdict {id' : ConnId} {healthy : Bool} {reply : Option Ticket} {ks : List Ticket}
    (x : sc.Shares kept) (task : sc.hand = { task := some (some (.checked id' healthy reply)) })
    (checking : sc.registry.isChecking id' = true) :
    (sc.alter sc.pool { conn := some id', stage := .judged, replies := ks }).Shares kept := by
  intro id
  have before := fair_of_act x task id ne_of_none
  by_cases same : id = id'
  · subst same
    have slot : sc.registry.slot? id = some .checking := by
      simpa [Registry.isChecking] using checking
    rw [slot] at before
    exact .of_hand rfl (before.eq_zero_of_slot (by simp))
  · exact before.of_free ne_of_none (ne_of_other same)

theorem fair_removed {id' : ConnId} {inHand : Prop} {n : Nat}
    (fair : Fair kept (sc.registry.slot? id) inHand n) :
    Fair kept (if id = id' then none else sc.registry.slot? id) inHand n := by
  by_cases same : id = id'
  · rw [if_pos same]
    exact fair.le_one
  · rw [if_neg same]
    exact fair

theorem shares_checkout {id' : ConnId} {r : Registry} (a : sc.Accounted) (x : sc.Shares kept)
    (empty : sc.hand.conn = none) (taken : sc.registry.checkout? = some (id', r)) :
    (sc.withRegistry r { sc.hand with conn := some id', stage := .spare }).Shares kept := by
  intro id
  have fair := x id
  by_cases same : id = id'
  · subst same
    rw [(Registry.slot?_checkout?_self a.balanced taken).1] at fair
    exact .of_hand rfl (fair.eq_zero_of_slot (by simp))
  · have unmoved : r.slot? id = sc.registry.slot? id :=
      (Registry.slot?_checkout? taken).trans (if_neg same)
    rw [← unmoved, empty] at fair
    exact fair.of_free ne_of_none (ne_of_other same)

theorem shares_handOver {id' : ConnId} (a : sc.Accounted) (x : sc.Shares kept)
    (held : sc.hand.conn = some id') :
    (sc.withRegistry (sc.registry.handOver id') sc.hand).Shares kept := by
  intro id
  by_cases same : id = id'
  · subst same
    obtain ⟨slot, known, -⟩ := a.held id held
    exact .of_hand held ((x id).eq_zero_of_hand held (by rw [known]; simp))
  · simp only [Scene.registry, Scene.pool_alter, Registry.slot?_handOver, same, false_and,
      if_false]
    exact x id

/-- The pool had the connection in hand, so this loan is the only one. -/
theorem shares_lend {r : Request} {id' : ConnId} {serial : Serial} (ledger : sc.Ledger)
    (x : sc.Shares kept) (held : sc.hand.requests = [r]) (conn : sc.hand.conn = some id')
    (lent : sc.registry.slot? id' = some .onLoan)
    (present : sc.site.standing r.ticket ≠ .abandoned) :
    ((sc.alter sc.pool { sc.hand with requests := [], conn := none, stage := .spare }).emit
      (.answer r.ticket (.loan id' serial))).Shares kept := by
  intro id
  have fair := x id
  have waiting : sc.site.standing r.ticket = .waiting :=
    (ledger.unanswered r.ticket (owed_of_held held)).resolve_right present
  rw [outstanding_lend id ledger.distinct waiting]
  simp only [Scene.registry, Scene.pool_emit, Scene.pool_alter, Scene.hand_emit, Scene.hand_alter]
  by_cases same : id = id'
  · subst same
    have nothing : (sc.alter sc.pool
        { sc.hand with requests := [], conn := none, stage := .spare }).outstanding id = 0 :=
      fair.eq_zero_of_hand conn (by rw [lent]; simp)
    rw [nothing, if_pos rfl, lent]
    exact .inr ⟨ne_of_none, Nat.le_refl 1, fun _ => rfl⟩
  · rw [if_neg (Ne.symm same)]
    rw [conn] at fair
    exact fair.of_free (ne_of_other same) ne_of_none

theorem fair_move (a : sc.Accounted) (ledger : sc.Ledger) (exclusive : sc.Exclusive)
    (move : Move sc sc') (lasting : kept → sc'.site.isReachable = true) : sc'.Shares kept := by
  intro id
  have before : kept → sc.site.isReachable = true :=
    fun still => reachable_of_move move (lasting still)
  have x : sc.Shares kept := fun id => (exclusive.fair id).weaken before
  have fair := x id
  cases move with
  | event order allowed =>
    obtain ⟨less, same⟩ := outstanding_event a ledger id
    simp only [Scene.registry, Site.pool_happen]
    exact fair.of_le less fun still => same (before still)
  | wait order => exact fair
  | begin free due =>
    rw [outstanding_begin free due]
    simp only [Scene.registry, Site.pool_next? due]
    rw [free] at fair
    exact fair
  | @dismiss c task moot =>
    by_cases back : c.returned? = some id
    · have before := fair_of_task x task id
      rw [decide_eq_true back] at before
      exact before.of_succ (not_lent_of_moot moot back)
    · exact fair_of_act x task id back
  | acquire task opened quiet => exact fair_of_act x task id ne_of_none
  | refuse task closed => exact fair_emit ledger.distinct rfl (fair_of_act x task id ne_of_none)
  | stats task => exact fair_emit ledger.distinct rfl (fair_of_act x task id ne_of_none)
  | @shut c closer task ends opened =>
    subst ends
    cases closer with
    | none =>
      rw [Scene.outstanding, Scene.underWay_of_end task, task] at fair
      exact fair
    | some k => exact fair_of_act x task id ne_of_none
  | seize task back closed honest removed => exact shares_seize ledger x task back removed id
  | takeBack task back opened lent => exact shares_takeBack x task back lent id
  | connectDone task => exact shares_connectDone ledger exclusive x task id
  | connectFailed task => exact fair_of_act x task id ne_of_none
  | verdict task checking => exact shares_verdict x task checking id
  | expire task queued => exact fair_of_act x task id ne_of_none
  | overflow task queued due reachable drained =>
    exact fair_emit ledger.distinct rfl (fair_of_act x task id ne_of_none)
  | forget task =>
    simp only [Scene.registry, Scene.pool_alter, Registry.slot?_forget]
    exact fair_removed (fair_of_act x task id ne_of_none)
  | checkout free empty opened taken => exact shares_checkout a x empty taken id
  | lose held unknown =>
    -- A connection in hand is registered.
    obtain ⟨slot, known, -⟩ := a.held _ held
    rw [Registry.slot?, unknown] at known
    cases known
  | discard held honest removed =>
    have away := fair_put_down a x held (by simp) (Registry.slot?_discard? (i := id) removed)
    exact fair_emit ledger.distinct rfl away
  | evict free empty closed honest removed =>
    apply fair_emit ledger.distinct rfl
    rw [Registry.slot?_discard? removed]
    exact fair_removed fair
  | handOver held => exact shares_handOver a x held id
  | checkIn held unwanted kept =>
    obtain ⟨slot, known, used⟩ := a.held _ held
    have away := fair_put_down a x held (by simp) (Registry.slot?_checkIn? (i := id) known used)
    exact away
  | putBack held unwanted =>
    obtain ⟨slot, known, used⟩ := a.held _ held
    have away := fair_put_down a x held (by simp) (Registry.slot?_putBack? (i := id) known used)
    exact away
  | @check id' serial reply held replies reachable known checking =>
    have slot : sc.registry.slot? id' = some .checking := by
      simpa [Registry.isChecking] using checking
    have stays : sc.registry.slot? id =
        if id = id' then some .checking else sc.registry.slot? id := by
      split
      · next same => rw [same, slot]
      · rfl
    have away := fair_put_down a x held (by simp) stays
    exact fair_emit ledger.distinct rfl away
  | lend held unarmed conn known lent present =>
    exact shares_lend ledger x held conn lent present id
  | fail held unarmed grounds => exact fair_emit ledger.distinct rfl fair
  | answer owed plain => exact fair_emit ledger.distinct (lends_of_plain plain) fair
  | connect held opened unarmed reachable drained room => exact fair_emit ledger.distinct rfl fair
  | report free closed complete =>
    rw [free] at fair
    rw [Scene.outstanding, Scene.underWay_of_free free] at fair
    exact fair
  | _ => exact fair

/-- Only the connection in hand can be lent, so no other has more loans than before. -/
theorem outstanding_move (a : sc.Accounted) (ledger : sc.Ledger) (move : Move sc sc')
    (id : ConnId) :
    sc'.outstanding id ≤ sc.outstanding id ∨ sc.hand.conn = some id := by
  have acted : ∀ {c : Command}, sc.hand = { task := some (some c) } →
      sc.site.lent id + sc.site.underWay.countP (fun c => c.returned? = some id) ≤
        sc.outstanding id := by
    intro c task
    rw [outstanding_of_task task]
    omega
  cases move with
  | event order allowed => exact .inl (outstanding_event a ledger id).1
  | begin free due => exact .inl (Nat.le_of_eq (outstanding_begin free due))
  | dismiss task moot => exact .inl (acted task)
  | acquire task opened quiet => exact .inl (acted task)
  | refuse task closed =>
    rw [outstanding_emit ledger.distinct rfl]
    exact .inl (acted task)
  | stats task =>
    rw [outstanding_emit ledger.distinct rfl]
    exact .inl (acted task)
  | @shut c closer task ends opened =>
    subst ends
    cases closer with
    | none =>
      rw [Scene.outstanding, Scene.outstanding, Scene.underWay_of_end task]
      exact .inl (Nat.le_refl _)
    | some k => exact .inl (acted task)
  | seize task back closed honest removed =>
    rw [outstanding_emit ledger.distinct rfl]
    exact .inl (acted task)
  | takeBack task back opened lent => exact .inl (acted task)
  | connectDone task =>
    rw [outstanding_emit ledger.distinct rfl]
    exact .inl (acted task)
  | connectFailed task => exact .inl (acted task)
  | verdict task checking => exact .inl (acted task)
  | expire task queued => exact .inl (acted task)
  | overflow task queued due reachable drained =>
    rw [outstanding_emit ledger.distinct rfl]
    exact .inl (acted task)
  | forget task => exact .inl (acted task)
  | @lend r id' serial held unarmed conn known lent present =>
    have waiting : sc.site.standing r.ticket = .waiting :=
      (ledger.unanswered r.ticket (owed_of_held held)).resolve_right present
    rw [outstanding_lend id ledger.distinct waiting]
    by_cases same : id' = id
    · exact .inr (same ▸ conn)
    · rw [if_neg same]
      exact .inl (Nat.le_refl _)
  | answer owed plain =>
    rw [outstanding_emit ledger.distinct (lends_of_plain plain)]
    exact .inl (Nat.le_refl _)
  | report free closed complete =>
    rw [Scene.outstanding, Scene.outstanding, Scene.underWay_of_free free]
    exact .inl (Nat.le_refl _)
  | check held replies reachable known checking =>
    rw [outstanding_emit ledger.distinct rfl]
    exact .inl (Nat.le_refl _)
  | fail held unarmed grounds =>
    rw [outstanding_emit ledger.distinct rfl]
    exact .inl (Nat.le_refl _)
  | connect held opened unarmed reachable drained room =>
    rw [outstanding_emit ledger.distinct rfl]
    exact .inl (Nat.le_refl _)
  | _ => exact .inl (Nat.le_refl _)

theorem unborn_move (a : sc.Accounted) (ledger : sc.Ledger) (x : sc.Exclusive)
    (move : Move sc sc') (id : ConnId) (unborn : sc'.pool.nextConn ≤ id.number) :
    sc'.outstanding id = 0 := by
  -- What is lent is in hand before, so it is registered and has a name that was given out.
  have older : sc.pool.nextConn ≤ id.number := Nat.le_trans (nextConn_move move) unborn
  rcases outstanding_move a ledger move id with less | held
  · exact Nat.le_zero.mp (Nat.le_trans less (Nat.le_of_eq (x.unborn id older)))
  · obtain ⟨slot, known, -⟩ := a.held id held
    have born := a.named id (Registry.mem_ids_of_slot? known)
    omega

theorem exclusive_move (a : sc.Accounted) (ledger : sc.Ledger) (move : Move sc sc')
    (x : sc.Exclusive) : sc'.Exclusive where
  fair := fair_move a ledger x move id
  unborn := unborn_move a ledger x move

theorem exclusive_start (config : Config) (observer : Hook → Nat → Option String) :
    (Scene.start config observer).Exclusive where
  fair _ := Nat.zero_le 1
  unborn _ _ := rfl

/-- The jobs under way end no loans, so between two commands the mailbox has all that do. -/
theorem Site.outstanding_eq (s : Site) (id : ConnId) :
    s.lent id + s.underWay.countP (fun c => c.returned? = some id) = s.outstanding id := by
  have connects : s.connects.countP (fun j => j.command.returned? = some id) = 0 :=
    List.countP_eq_zero.mpr fun _ _ => by simp [ConnectJob.command, Command.returned?]
  have checks : s.checks.countP (fun j => j.command.returned? = some id) = 0 :=
    List.countP_eq_zero.mpr fun _ _ => by simp [CheckJob.command, Command.returned?]
  rw [Site.countP_underWay, connects, checks]
  rfl

/-- In every state between two commands, as long as anybody holds on to the pool: a connection on
loan has one loan outstanding, any other registered one has none, and one that is no longer
registered has one at most. So no two callers have the same connection, or will find it in their
answers, and none that is on loan is in the idle queue. -/
theorem loans_exclusive {config : Config} {observer : Hook → Nat → Option String}
    {past : List Site.Record} {now : Nat} {s : Site} (run : Site.Run config observer past now s)
    (reachable : s.isReachable = true) :
    (∀ id, s.pool.registry.slot? id = some .onLoan → s.outstanding id = 1) ∧
      (∀ id slot, s.pool.registry.slot? id = some slot → slot = .idle ∨ slot = .checking →
        s.outstanding id = 0) ∧
      (∀ id, s.pool.registry.slot? id = none → s.outstanding id ≤ 1) ∧
      (∀ id k k', (s.standing k).loan? = some id → (s.standing k').loan? = some id → k = k') ∧
      ∀ id, s.pool.registry.slot? id = some .onLoan → id ∉ s.pool.registry.idle := by
  obtain ⟨c, a, ledger, exclusive⟩ := run_invariant
    (fun sc => sc.Accounted ∧ sc.Ledger ∧ sc.Exclusive) run
    (fun move ⟨a, ledger, exclusive⟩ =>
      ⟨accounted_move move a, ledger_move a move ledger, exclusive_move a ledger move exclusive⟩)
    ⟨accounted_start config observer, ledger_start config observer,
      exclusive_start config observer⟩
  have fair : ∀ id, Fair True (s.pool.registry.slot? id) False (s.outstanding id) := by
    intro id
    have fair := (exclusive.fair id).weaken fun _ : True => reachable
    rw [← Site.outstanding_eq]
    exact fair.of_free (by simp) not_false
  refine ⟨?_, ?_, ?_, ?_, ?_⟩
  · intro id lent
    exact Fair.eq_one (lent ▸ fair id) not_false trivial
  · intro id slot known unlent
    apply Fair.eq_zero_of_slot (known ▸ fair id)
    rcases unlent with rfl | rfl <;> simp
  · intro id unknown
    exact (fair id).le_one
  · intro id k k' has has'
    -- Two callers who had it would be two entries of the same list.
    have few : s.lent id ≤ 1 := Nat.le_trans (Nat.le_add_right _ _) (fair id).le_one
    have known : ∀ {k : Ticket}, (s.standing k).loan? = some id → s.standing k ≠ .spent := by
      intro k has spent
      rw [spent] at has
      cases has
    have same := Keyed.eq_of_countP_le_one few (Site.mem_tickets rfl (known has))
      (decide_eq_true has) (Site.mem_tickets rfl (known has')) (decide_eq_true has')
    exact congrArg Prod.fst same
  · intro id lent listed
    rw [(a.balanced.idle id).mp listed] at lent
    cases lent

/-- A caller leaves without looking at its answer, and the loan it has not seen is on its way
back. -/
def unread : List (Nat × Option Site.Event) :=
  [(0, some (.acquire ⟨1⟩)), (0, none), (2, some (.connected ⟨0⟩ (.ok (⟨1⟩, {})))), (2, none),
    (3, some (.abandon ⟨1⟩))]

theorem loan_of_unread :
    ∃ past now s, Site.Run {} (fun _ _ => none) past now s ∧ s.isReachable = true ∧
      s.pool.registry.slot? ⟨1⟩ = some .onLoan ∧ s.outstanding ⟨1⟩ = 1 := by
  obtain ⟨past, now, s, run, seen⟩ := Site.exists_run {} (fun _ _ => none) unread
    (fun _ s => s.isReachable && s.pool.registry.slot? ⟨1⟩ == some .onLoan) (by decide +kernel)
  obtain ⟨reachable, lent⟩ :
      s.isReachable = true ∧ s.pool.registry.slot? ⟨1⟩ = some .onLoan := by
    simpa using seen
  exact ⟨past, now, s, run, reachable, lent, (loans_exclusive run reachable).1 _ lent⟩

end LoanPool
