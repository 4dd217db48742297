import LoanPool.Proofs.Ends
import LoanPool.Proofs.Ledger

/-!
# Custody

Every request for a connection is in one place until it is answered or its caller has left: a
command that has not been handled, the queue, or an attempt to connect. Nobody is answered twice.
-/
namespace LoanPool
open Pending (Request Queue)

def Target.owner? : Target → Option Ticket
  | .owned r => some r.ticket
  | .queued _ => none

namespace Command

def acquirer? : Command → Option Ticket
  | .acquire k => some k
  | _ => none

def opensFor? : Command → Option Ticket
  | .connected target _ => target.owner?
  | _ => none

def carried? (c : Command) : Option Ticket :=
  c.acquirer?.or c.opensFor?

end Command

def Effect.answered? : Effect → Option Ticket
  | .answer k _ => some k
  | _ => none

namespace Site

/-- The attempts to connect that a caller's request travels with, those reported and not yet handled
among them. -/
def openings (s : Site) (k : Ticket) : Nat :=
  s.connects.countP (fun j => j.target.owner? = some k) +
    s.mailbox.countP fun c => c.opensFor? = some k

def places (s : Site) (k : Ticket) : Nat :=
  s.mailbox.countP (fun c => c.acquirer? = some k) +
    s.pool.pending.requests.countP (fun r => r.ticket = k) + s.openings k

def answers (past : List Record) (k : Ticket) : Nat :=
  past.countP fun rec => rec.effect.bind Effect.answered? = some k

end Site

def Scene.places (sc : Scene) (k : Ticket) : Nat :=
  sc.underWay.countP (fun c => c.carried? = some k) +
    sc.hand.requests.countP (fun r => r.ticket = k) +
    sc.pool.pending.requests.countP fun r => r.ticket = k

variable {sc sc' : Scene} {k : Ticket}

theorem blind_carried (k : Ticket) : Command.Blind fun c => c.carried? = some k :=
  ⟨fun _ _ => rfl, fun _ _ _ => rfl⟩

/-! ### Nothing is lost -/

theorem toNat_carried_connected (target : Target) (result : Except String Serial) (k : Ticket) :
    (decide ((Command.connected target result).carried? = some k)).toNat =
      target.requests.countP fun r => r.ticket = k := by
  cases target with
  | owned r =>
    by_cases mine : r.ticket = k <;>
      simp [Command.carried?, Command.acquirer?, Command.opensFor?, Target.owner?, Target.requests,
        mine]
  | queued id => rfl

theorem toNat_carried_acquire (k' k : Ticket) :
    (decide ((Command.acquire k').carried? = some k)).toNat = (decide (k' = k)).toNat := by
  by_cases mine : k' = k <;> simp [Command.carried?, Command.acquirer?, mine]

theorem carried_of_returned {c : Command} {id : ConnId} (back : c.returned? = some id) :
    c.carried? = none := by
  cases c with
  | release id k => rfl
  | dropped id => rfl
  | _ => cases back

theorem carried_of_moot {p : Pool} {c : Command} (moot : c.Moot p) : c.carried? = none := by
  cases c with
  | acquire k => exact moot.elim
  | connected target result => exact moot.elim
  | _ => rfl

theorem places_alter (p : Pool) (h : Hand) :
    (sc.alter p h).places k = h.task.join.toList.countP (fun c => c.carried? = some k) +
      sc.site.underWay.countP (fun c => c.carried? = some k) +
      h.requests.countP (fun r => r.ticket = k) +
      p.pending.requests.countP fun r => r.ticket = k := by
  rw [Scene.places, Scene.underWay_alter, List.countP_append]
  rfl

theorem places_emit (e : Effect) :
    (sc.emit e).places k = sc.places k + e.starts.countP fun c => c.carried? = some k := by
  simp only [Scene.places, Scene.countP_underWay_emit, Scene.pool_emit, Scene.hand_emit]
  omega

theorem places_eq :
    sc.places k = sc.hand.task.join.toList.countP (fun c => c.carried? = some k) +
      sc.site.underWay.countP (fun c => c.carried? = some k) +
      sc.hand.requests.countP (fun r => r.ticket = k) +
      sc.pool.pending.requests.countP fun r => r.ticket = k :=
  places_alter sc.pool sc.hand

theorem places_of_task {c : Command} (task : sc.hand = { task := some (some c) }) :
    sc.places k = (decide (c.carried? = some k)).toNat +
      sc.site.underWay.countP (fun c => c.carried? = some k) +
      sc.pool.pending.requests.countP fun r => r.ticket = k := by
  rw [places_eq, task]
  simp only [Option.join_some, Option.toList_some, countP_cons_toNat, List.countP_nil, Nat.add_zero]

theorem places_of_plain {c : Command} (task : sc.hand = { task := some (some c) })
    (plain : c.carried? = none) :
    sc.places k = sc.site.underWay.countP (fun c => c.carried? = some k) +
      sc.pool.pending.requests.countP fun r => r.ticket = k := by
  rw [places_of_task task, plain]
  simp

theorem places_le_plain {c : Command} {p : Pool} {h : Hand}
    (task : sc.hand = { task := some (some c) }) (plain : c.carried? = none)
    (queued : sc.pool.pending.requests.countP (fun r => r.ticket = k) =
      p.pending.requests.countP fun r => r.ticket = k) :
    sc.places k ≤ (sc.alter p h).places k := by
  rw [places_of_plain task plain, places_alter]
  omega

theorem places_le_emit (e : Effect) : sc.places k ≤ (sc.emit e).places k :=
  Nat.le.intro (places_emit e).symm

theorem places_begin {c : Option Command} {rest : Site} (free : sc.hand = {})
    (due : sc.site.next? = some (c, rest)) (past : List Site.Record) :
    ({ sc with
        site := rest, hand := { task := some c }, memory := sc.memory.begin c sc.site
        past } : Scene).places k = sc.places k := by
  rw [Scene.places, Scene.places, ← Scene.underWay_begin free due, free]
  simp only [Scene.pool, Site.pool_next? due]
  rfl

theorem places_happen (numbered : sc.site.Numbered) (later : Nat) (e : Site.Event) :
    ({ sc with now := later, site := sc.site.happen e } : Scene).places k =
      sc.places k + (sc.site.sends e).countP fun c => c.carried? = some k := by
  simp only [Scene.places, Scene.underWay, List.countP_append, Scene.pool, Site.pool_happen,
    Site.countP_underWay_happen numbered (blind_carried k)]
  omega

theorem answers_concat (past : List Site.Record) (rec : Site.Record) (k : Ticket) :
    Site.answers (past ++ [rec]) k =
      Site.answers past k + (decide (rec.effect.bind Effect.answered? = some k)).toNat := by
  rw [Site.answers, List.countP_append, countP_cons_toNat, List.countP_nil]
  rfl

theorem answers_emit (p : Pool) (h : Hand) (e : Effect) (k : Ticket) :
    Site.answers ((sc.alter p h).emit e).past k =
      Site.answers sc.past k + (decide (e.answered? = some k)).toNat :=
  answers_concat _ _ _

theorem answers_move (move : Move sc sc') (k : Ticket) :
    Site.answers sc.past k ≤ Site.answers sc'.past k := by
  cases recording_move move with
  | same past memory => exact Nat.le_of_eq (congrArg (Site.answers · k) past).symm
  | begin free due =>
    rw [answers_concat]
    exact Nat.le_add_right _ _
  | effect p h e =>
    rw [answers_emit]
    exact Nat.le_add_right _ _

/-- The caller of a request is answered, or nothing is lost to the one asked about. -/
theorem places_refuse {k' : Ticket} {outcome : Outcome}
    (task : sc.hand = { task := some (some (.acquire k')) }) :
    sc.places k ≤ ((sc.alter sc.pool {}).emit (.answer k' outcome)).places k ∨
      1 ≤ Site.answers ((sc.alter sc.pool {}).emit (.answer k' outcome)).past k := by
  by_cases mine : k' = k
  · subst mine
    rw [answers_emit]
    exact .inr (by simp [Effect.answered?])
  · rw [places_of_task task, toNat_carried_acquire, places_emit, places_alter]
    left
    simp [mine]

/-- The queue is emptied into the hand. -/
theorem places_shut {closer : Option Ticket}
    (task : sc.hand = { task := some (closer.map .close) }) :
    sc.places k ≤ (sc.alter
      { sc.pool with closed := true, pending := { sc.pool.pending with requests := [] } }
      { requests := sc.pool.pending.requests, closer }).places k := by
  rw [places_eq, task, places_alter]
  cases closer with
  | none => simp
  | some k' => simp [Command.carried?, Command.acquirer?, Command.opensFor?]

/-- What an attempt to connect has brought back is taken in hand. -/
theorem places_taken {target : Target} {result : Except String Serial} {p : Pool} {h : Hand}
    (task : sc.hand = { task := some (some (.connected target result)) })
    (taken : h.requests = target.requests) (queued : p.pending = sc.pool.pending) :
    sc.places k ≤ (sc.alter p h).places k := by
  rw [places_of_task task, toNat_carried_connected, places_alter, taken, queued]
  omega

/-- A request that has expired is replaced by one of the same caller. -/
theorem places_expired {c : Command} {id : RequestId} {r r' : Request} {p : Pool} {h : Hand}
    (task : sc.hand = { task := some (some c) }) (plain : c.carried? = none)
    (found : sc.pool.pending.find? id = some r) (caller : r'.ticket = r.ticket)
    (queued : p.pending = sc.pool.pending.replace id r') :
    sc.places k ≤ (sc.alter p h).places k := by
  have replaced := countP_replace found r' fun r => r.ticket = k
  rw [caller] at replaced
  exact places_le_plain task plain (queued ▸ (Nat.add_right_cancel replaced).symm)

/-- Requests that go from the hand to the queue, or back, are in their place. -/
theorem places_kept {p : Pool} {h : Hand} (task : h.task = sc.hand.task)
    (kept : sc.hand.requests.countP (fun r => r.ticket = k) +
      sc.pool.pending.requests.countP (fun r => r.ticket = k) ≤
        h.requests.countP (fun r => r.ticket = k) +
          p.pending.requests.countP fun r => r.ticket = k) :
    sc.places k ≤ (sc.alter p h).places k := by
  rw [places_alter, places_eq, task]
  omega

theorem places_answered {r : Request} {rs : List Request} {outcome : Outcome} {p : Pool} {h : Hand}
    (held : sc.hand.requests = r :: rs) (task : h.task = sc.hand.task) (rest : h.requests = rs)
    (queued : p.pending = sc.pool.pending) :
    sc.places k ≤ ((sc.alter p h).emit (.answer r.ticket outcome)).places k ∨
      1 ≤ Site.answers ((sc.alter p h).emit (.answer r.ticket outcome)).past k := by
  by_cases mine : r.ticket = k
  · rw [answers_emit, mine]
    exact .inr (by simp [Effect.answered?])
  · rw [places_emit, places_alter, places_eq, held, task, rest, queued]
    left
    simp [mine]

/-- A request leaves its last place only when its caller is answered, or has left. -/
theorem places_move (a : sc.Accounted) (move : Move sc sc') :
    sc.places k ≤ sc'.places k ∨ 1 ≤ Site.answers sc'.past k ∨
      sc'.site.standing k = .abandoned := by
  cases move with
  | event order allowed =>
    rw [places_happen a.numbered]
    exact .inl (Nat.le_add_right _ _)
  | begin free due => exact .inl (Nat.le_of_eq (places_begin free due _).symm)
  | dismiss task moot => exact .inl (places_le_plain task (carried_of_moot moot) rfl)
  | refuse task closed => exact (places_refuse task).imp_right .inl
  | acquire task opened quiet =>
    rw [places_of_task task, toNat_carried_acquire, places_alter]
    left
    simp only [countP_cons_toNat, List.countP_nil, Option.join_none, Option.toList_none]
    omega
  | stats task => exact .inl (Nat.le_trans (places_le_plain task rfl rfl) (places_le_emit _))
  | shut task ends opened =>
    rw [ends] at task
    exact .inl (places_shut task)
  | seize task back closed honest removed =>
    refine .inl (Nat.le_trans ?_ (places_le_emit _))
    exact places_le_plain task (carried_of_returned back) rfl
  | takeBack task back opened lent =>
    exact .inl (places_le_plain task (carried_of_returned back) rfl)
  | connectDone task =>
    refine .inl (Nat.le_trans ?_ (places_le_emit _))
    exact places_taken task rfl rfl
  | connectFailed task => exact .inl (places_taken task rfl rfl)
  | verdict task checking => exact .inl (places_le_plain task rfl rfl)
  | @expire id r task queued lost =>
    have same := ticket_expire sc.pool.config r
    exact .inl (places_expired task rfl queued same rfl)
  | @overflow id r r' task queued due reachable drained =>
    have same := ticket_expire sc.pool.config r
    rw [due] at same
    refine .inl (Nat.le_trans ?_ (places_le_emit _))
    exact places_expired task rfl queued same rfl
  | forget task => exact .inl (places_le_plain task rfl rfl)
  | check held replies reachable known checking => exact .inl (places_le_emit _)
  | pop free bare front =>
    refine .inl (places_kept rfl ?_)
    simp only [bare, front, countP_cons_toNat, List.countP_nil]
    omega
  | @sift r gone held left =>
    have split := countP_prune sc.pool.pending gone fun r => r.ticket = k
    refine .inl (places_kept rfl ?_)
    simp only [held, List.countP_append]
    omega
  | fetch free bare called found =>
    have taken := countP_remove? found fun r => r.ticket = k
    refine .inl (places_kept rfl ?_)
    simp only [bare, countP_cons_toNat, List.countP_nil]
    omega
  | disarm held armed =>
    refine .inl (Nat.le_trans ?_ (places_le_emit _))
    refine places_kept rfl ?_
    rw [held]
    exact Nat.le_refl _
  | @forsake r rs held unarmed gone =>
    by_cases mine : r.ticket = k
    · exact .inr (.inr (mine ▸ gone))
    · refine .inl (places_kept rfl ?_)
      simp [held, mine]
  | fail held unarmed grounds =>
    apply Or.imp_right Or.inl
    exact places_answered held rfl rfl rfl
  | lend held unarmed conn known lent present =>
    apply Or.imp_right Or.inl
    exact places_answered held rfl rfl rfl
  | connect held opened unarmed reachable drained room =>
    rw [places_emit, places_alter, places_eq, held]
    left
    simp only [Effect.starts, countP_cons_toNat, toNat_carried_connected, Target.requests,
      List.countP_nil]
    omega
  | arm held unarmed limited =>
    refine .inl (Nat.le_trans ?_ (places_le_emit _))
    refine places_kept rfl ?_
    rw [held]
    exact Nat.le_refl _
  | enqueue held opened newest room =>
    refine .inl (places_kept rfl ?_)
    simp only [held, Queue.push, countP_cons_toNat, List.countP_append, List.countP_nil]
    omega
  | answer owed plain => exact .inl (places_le_emit _)
  | report free closed complete =>
    rw [places_eq, places_alter, free]
    exact .inl (Nat.le_refl _)
  | _ => exact .inl (Nat.le_refl _)

def Scene.Keeps (k : Ticket) (sc : Scene) : Prop :=
  1 ≤ sc.places k ∨ 1 ≤ Site.answers sc.past k ∨ sc.site.standing k = .abandoned

theorem abandoned_move (move : Move sc sc') (left : sc.site.standing k = .abandoned) :
    sc'.site.standing k = .abandoned := by
  have shift := shift_move move
  generalize sc'.site = after at shift
  cases shift with
  | event allowed => exact Site.abandoned_happen left _
  | begin due => rwa [Site.standing, Site.tickets_next? due]
  | pool p => exact left
  | @effect p h e reachable => exact Site.abandoned_enact (s := sc.site.withPool p) left sc.now e

theorem keeps_move (a : sc.Accounted) (move : Move sc sc') (keeps : sc.Keeps k) :
    sc'.Keeps k := by
  rcases keeps with placed | answered | left
  · rcases places_move (k := k) a move with more | answered
    · exact .inl (Nat.le_trans placed more)
    · exact .inr answered
  · exact .inr (.inl (Nat.le_trans answered (answers_move move k)))
  · exact .inr (.inr (abandoned_move move left))

/-! ### Nothing is doubled -/

theorem toNat_carried_le (c : Command) (k : Ticket) :
    (decide (c.carried? = some k)).toNat ≤
      (c.concerns (fun r => r.ticket = k) fun t => t = k).toNat := by
  rw [toNat_concerns]
  cases c with
  | acquire k' =>
    rw [toNat_carried_acquire, Command.replies, countP_cons_toNat]
    omega
  | connected target result =>
    rw [toNat_carried_connected]
    exact Nat.le_add_right _ _
  | _ => exact Nat.zero_le _

/-- Whoever has a request somewhere is owed an answer. -/
theorem places_le_owed : sc.places k ≤ sc.owed k := by
  have commands : sc.underWay.countP (fun c => c.carried? = some k) ≤
      sc.underWay.countP (·.concerns (fun r => r.ticket = k) fun t => t = k) := by
    refine List.countP_mono_left fun c _ carried => ?_
    have less := toNat_carried_le c k
    rw [carried, Bool.toNat_true] at less
    cases concerned : c.concerns (fun r => r.ticket = k) fun t => t = k with
    | true => rfl
    | false => simp [concerned] at less
  simp only [Scene.places, Scene.owed, Scene.dues, Hand.dues, Pool.dues]
  omega

structure Scene.Answered (sc : Scene) : Prop where
  once : ∀ k, Site.answers sc.past k + sc.owed k ≤ 1
  unknown : ∀ k, sc.site.isNew k = true → Site.answers sc.past k = 0

theorem owed_of_isNew (ledger : sc.Ledger) (new : sc.site.isNew k = true) : sc.owed k = 0 := by
  by_contra some
  have unanswered := ledger.unanswered k (Nat.pos_of_ne_zero some)
  simp [Site.standing_of_isNew new] at unanswered

theorem answered?_eq_some {e : Effect} (mine : e.answered? = some k) :
    ∃ outcome, e = .answer k outcome := by
  cases e with
  | answer k' outcome =>
    cases mine
    exact ⟨outcome, rfl⟩
  | _ => cases mine

theorem owed_of_answered {p : Pool} {h : Hand} {e : Effect}
    (move : Move sc ((sc.alter p h).emit e)) (mine : e.answered? = some k) :
    ((sc.alter p h).emit e).owed k + 1 ≤ sc.owed k := by
  obtain ⟨outcome, rfl⟩ := answered?_eq_some mine
  obtain ⟨rfl, answering⟩ := answering_move move rfl
  exact owed_answering answering fun _ _ => rfl

theorem answered_once_move (a : sc.Accounted) (ledger : sc.Ledger) (answered : sc.Answered)
    (move : Move sc sc') (k : Ticket) : Site.answers sc'.past k + sc'.owed k ≤ 1 := by
  have once := answered.once k
  rcases owed_move move k with less | ⟨later, e, allowed, rfl⟩
  · cases recording_move move with
    | same past memory =>
      rw [past]
      omega
    | begin free due =>
      rw [answers_concat]
      simp only [Option.bind_none, reduceCtorEq, decide_false, Bool.toNat_false]
      omega
    | effect p h e =>
      rw [answers_emit]
      by_cases mine : e.answered? = some k
      · -- What is answered is owed no more.
        have paid := owed_of_answered move mine
        rw [decide_eq_true mine, Bool.toNat_true]
        omega
      · rw [decide_eq_false mine, Bool.toNat_false]
        omega
  · have sent := Site.countP_sends (s := sc.site) (e := e) k
    have more : Scene.owed _ k = _ := dues_happen a.numbered later e
    split at sent
    · next asks =>
      have new := Site.isNew_of_asks allowed asks
      have unasked := owed_of_isNew ledger new
      have unheard := answered.unknown k new
      simp only [Scene.owed] at *
      omega
    · simp only [Scene.owed] at *
      omega

theorem isNew_of_move (move : Move sc sc') (new : sc'.site.isNew k = true) :
    sc.site.isNew k = true := by
  have shift := shift_move move
  generalize sc'.site = after at shift new
  cases shift with
  | event allowed => exact Site.isNew_of_happen new
  | begin due => rwa [Site.isNew, Site.tickets_next? due] at new
  | pool p => exact new
  | @effect p h e reachable =>
    exact (Site.isNew_enact (sc.site.withPool p) sc.now e k).symm.trans new

theorem unknown_move (ledger : sc.Ledger) (answered : sc.Answered) (move : Move sc sc')
    (k : Ticket) (new : sc'.site.isNew k = true) : Site.answers sc'.past k = 0 := by
  have before := isNew_of_move move new
  have unheard := answered.unknown k before
  cases recording_move move with
  | same past memory => rwa [past]
  | begin free due =>
    rw [answers_concat, unheard]
    rfl
  | effect p h e =>
    rw [answers_emit, unheard]
    -- A caller nobody knows is owed nothing, so it is not answered.
    have other : e.answered? ≠ some k := by
      intro mine
      have paid := owed_of_answered move mine
      have unasked := owed_of_isNew ledger before
      omega
    rw [decide_eq_false other]
    rfl

theorem answered_move (a : sc.Accounted) (ledger : sc.Ledger) (move : Move sc sc')
    (answered : sc.Answered) : sc'.Answered where
  once := answered_once_move a ledger answered move
  unknown := unknown_move ledger answered move

theorem answered_start (config : Config) (observer : Hook → Nat → Option String) :
    (Scene.start config observer).Answered where
  once _ := Nat.zero_le 1
  unknown _ _ := rfl

/-! ### Runs -/

structure Scene.Kept (sc : Scene) : Prop where
  accounted : sc.Accounted
  ledger : sc.Ledger
  answered : sc.Answered
  ends : sc.Ends

theorem kept_move (move : Move sc sc') (kept : sc.Kept) : sc'.Kept where
  accounted := accounted_move move kept.accounted
  ledger := ledger_move kept.accounted move kept.ledger
  answered := answered_move kept.accounted kept.ledger move kept.answered
  ends := ends_move move kept.ends

theorem kept_start (config : Config) (observer : Hook → Nat → Option String) :
    (Scene.start config observer).Kept :=
  ⟨accounted_start config observer, ledger_start config observer, answered_start config observer,
    ends_start config observer⟩

theorem carried_eq (c : Command) (k : Ticket) :
    (decide (c.carried? = some k)).toNat =
      (decide (c.acquirer? = some k)).toNat + (decide (c.opensFor? = some k)).toNat := by
  cases c with
  | acquire k' => simp [Command.carried?, Command.acquirer?, Command.opensFor?]
  | connected target result => exact (Nat.zero_add _).symm
  | _ => rfl

theorem countP_carried (cs : List Command) (k : Ticket) :
    cs.countP (fun c => c.carried? = some k) =
      cs.countP (fun c => c.acquirer? = some k) + cs.countP (fun c => c.opensFor? = some k) := by
  induction cs with
  | nil => rfl
  | cons c rest ih =>
    simp only [countP_cons_toNat, carried_eq, ih]
    omega

theorem countP_opensFor (s : Site) (k : Ticket) :
    s.underWay.countP (fun c => c.opensFor? = some k) = s.openings k := by
  have checks : s.checks.countP (fun j => j.command.opensFor? = some k) = 0 :=
    List.countP_eq_zero.mpr fun _ _ => by simp [CheckJob.command, Command.opensFor?]
  rw [Site.countP_underWay, checks, Nat.add_zero, Nat.add_comm]
  rfl

variable {config : Config} {observer : Hook → Nat → Option String} {past past' : List Site.Record}
  {now later now' : Nat} {s s' : Site}

/-- Whatever the pool has in hand at a moment of a run is registered, so an attempt to lend it never
fails for want of it. -/
theorem attempt_of_held {z : Setting} {t : Turn} {h : Hand} {id : ConnId}
    (path : Path (Scene.start config observer) (z.scene t h)) (held : h.conn = some id)
    (r : Request) :
    ∃ serial, t.pool.registry.serial? id = some serial ∧
      t.attempt z.world r id = t.offer z.world r id serial := by
  have kept := path_invariant path kept_move (kept_start config observer)
  obtain ⟨slot, used, -⟩ := kept.accounted.held id held
  exact Turn.attempt_of_slot used r

/-- A caller asks while another one holds the only connection. -/
def late : List (Nat × Option Site.Event) :=
  [(0, some (.acquire ⟨1⟩)), (0, none), (5, some (.connected ⟨0⟩ (.ok (⟨1⟩, {})))), (5, none)]

end LoanPool
