import LoanPool.Proofs.Reconciliation
import LoanPool.Proofs.Timers

/-!
# Timeouts

A request that fails at its deadline has been in line from its acquire until then, for as long as
callers may wait, and nothing was ever done for it. What is counted are the requests that fail so
or, where a deadline asks for a connection past capacity, the deadlines that do.
-/
namespace LoanPool
open Pending (Request Queue)

def Target.request : Target → RequestId
  | .owned r => r.id
  | .queued id => id

def Effect.timeout? : Effect → Option (Ticket × Duration)
  | .answer k (.failed (.acquireTimedOut after)) => some (k, after)
  | _ => none

def Pool.asks? (p : Pool) : Command → Option RequestId
  | .timedOut id =>
    if (p.pending.find? id).any fun r => (p.config.expire r).1 = .openOverflow then some id
    else none
  | _ => none

namespace Site

def timeouts (past : List Record) : List (Ticket × Duration) :=
  past.filterMap fun rec => rec.effect.bind Effect.timeout?

def Record.asks? (rec : Record) : Option RequestId :=
  match rec.effect with
  | none => rec.command.bind rec.pool.asks?
  | some _ => none

def asked (past : List Record) : List RequestId :=
  past.filterMap (·.asks?)

/-- A request has been in line since its timer was started on its acquire. -/
def InLine (past : List Record) (id : RequestId) (k : Ticket) (after : Duration) (since : Nat) :
    Prop :=
  ∃ front armed later, past = front ++ armed :: later ∧ armed.now = since ∧
    armed.command = some (.acquire k) ∧ armed.effect = some (.arm ⟨id.number⟩ id after) ∧
    ∀ rec ∈ later, (id, k) ∈ rec.pool.pending.keys

end Site

variable {sc sc' : Scene} {r : Request} {id : RequestId} {k : Ticket} {after : Duration}

/-! ### In line -/

theorem inLine_move (move : Move sc sc') (member : (id, k) ∈ sc.pool.pending.keys)
    (member' : (id, k) ∈ sc'.pool.pending.keys) {since : Nat}
    (waits : Site.InLine sc.past id k after since) : Site.InLine sc'.past id k after since := by
  obtain ⟨front, armed, later, past, now, command, effect, queued⟩ := waits
  have longer : ∀ {rec : Site.Record}, (id, k) ∈ rec.pool.pending.keys →
      Site.InLine (sc.past ++ [rec]) id k after since := by
    intro rec here
    refine ⟨front, armed, later ++ [rec], by simp [past], now, command, effect, ?_⟩
    exact List.forall_mem_append.mpr ⟨queued, List.forall_mem_singleton.mpr here⟩
  cases recording_move move with
  | same same memory => exact ⟨front, armed, later, same.trans past, now, command, effect, queued⟩
  | begin free due => exact longer member
  | effect p h e =>
    apply longer
    simpa using member'

structure Scene.Patient (sc : Scene) : Prop where
  queued : ∀ r ∈ sc.pool.pending.requests, ∀ after, sc.pool.config.acquireTimeout = some after →
    ∃ since, Site.InLine sc.past r.id r.ticket after since
  /-- The pool has taken it out of the queue on its deadline, and has done nothing else. -/
  held : ∀ r ∈ sc.hand.requests, sc.command = some (.timedOut r.id) →
    (∀ rec, sc.past.getLast? = some rec → rec.effect = none) →
      ∀ after, sc.pool.config.acquireTimeout = some after →
        ∃ since, Site.InLine sc.past r.id r.ticket after since

/-- Whoever is in line after a move has been there, or is put there now. -/
theorem queued_patient_move (patient : sc.Patient) (move : Move sc sc') (r : Request)
    (member : r ∈ sc'.pool.pending.requests) (after : Duration)
    (limited : sc'.pool.config.acquireTimeout = some after) :
    ∃ since, Site.InLine sc'.past r.id r.ticket after since := by
  rw [config_move move] at limited
  rcases newcomer_move move member with before | ⟨held, asked, same, armed⟩
  · obtain ⟨r', queued, key⟩ := List.mem_map.mp before
    obtain ⟨since, waits⟩ := patient.queued r' queued after limited
    have id : r'.id = r.id := congrArg Prod.fst key
    have ticket : r'.ticket = r.ticket := congrArg Prod.snd key
    rw [id, ticket] at waits
    exact ⟨since, inLine_move move before (List.mem_map_of_mem member) waits⟩
  · obtain ⟨rec, last, command, effect⟩ := armed after limited
    obtain ⟨front, past⟩ := List.getLast?_eq_some_iff.mp last
    exact ⟨rec.now, front, rec, [], same.trans past, rfl, command.trans asked, effect,
      List.forall_mem_nil _⟩

theorem held_patient_move (poised : sc.Poised) (patient : sc.Patient) (move : Move sc sc')
    (r : Request) (member : r ∈ sc'.hand.requests) (overdue : sc'.command = some (.timedOut r.id))
    (silent : ∀ rec, sc'.past.getLast? = some rec → rec.effect = none) (after : Duration)
    (limited : sc'.pool.config.acquireTimeout = some after) :
    ∃ since, Site.InLine sc'.past r.id r.ticket after since := by
  rw [config_move move] at limited
  -- What is taken out of the queue has been in line, and so has what was in hand before.
  have queued : ∀ r' ∈ sc.pool.pending.requests,
      ∃ since, Site.InLine sc.past r'.id r'.ticket after since :=
    fun r' waits => patient.queued r' waits after limited
  cases move with
  | event order allowed => exact patient.held r member overdue silent after limited
  | wait order => exact patient.held r member overdue silent after limited
  | begin free due => cases member
  | acquire task opened quiet => cases (poised _ (congrArg Hand.task task)).2.1.symm.trans overdue
  | connectFailed task => cases (poised _ (congrArg Hand.task task)).2.1.symm.trans overdue
  | shut task ends opened => exact queued r member
  | pop free bare front =>
    cases List.mem_singleton.mp member
    exact queued r (front ▸ List.mem_cons_self)
  | sift held left =>
    rcases List.mem_append.mp member with gone | here
    · exact queued r (List.mem_filter.mp gone).1
    · exact patient.held r (held ▸ here) overdue silent after limited
  | fetch free bare called found =>
    obtain ⟨r', waits, eq⟩ := Option.map_eq_some_iff.mp found
    cases eq
    cases List.mem_singleton.mp member
    exact queued r (Queue.mem_of_find? waits).1
  | forsake held unarmed left =>
    exact patient.held r (held ▸ List.mem_cons_of_mem _ member) overdue silent after limited
  | _ =>
    first
    | cases silent _ List.getLast?_concat
    | exact patient.held r member overdue silent after limited
    | cases member

theorem patient_move (poised : sc.Poised) (move : Move sc sc') (patient : sc.Patient) :
    sc'.Patient where
  queued := queued_patient_move patient move
  held := held_patient_move poised patient move

/-! ### Out of line -/

structure Scene.OutOfLine (id : RequestId) (sc : Scene) : Prop where
  older : id.number < sc.pool.nextRequest
  unqueued : ∀ r ∈ sc.pool.pending.requests, r.id ≠ id
  /-- It may come back with a connection that was opened for it. -/
  held : ∀ r ∈ sc.hand.requests, r.id = id →
    ∃ target result, sc.command = some (.connected target result)

theorem unqueued_move (out : sc.OutOfLine id) (move : Move sc sc') (r : Request)
    (member : r ∈ sc'.pool.pending.requests) : r.id ≠ id := by
  intro same
  rcases newcomer_move move member with before | ⟨held, asked, -, -⟩
  · obtain ⟨r', queued, key⟩ := List.mem_map.mp before
    exact out.unqueued r' queued ((congrArg Prod.fst key).trans same)
  · have here : r ∈ sc.hand.requests := by
      rw [held]
      exact List.mem_singleton_self _
    obtain ⟨target, result, command⟩ := out.held r here same
    cases command.symm.trans asked

theorem held_out_move (poised : sc.Poised) (out : sc.OutOfLine id) (move : Move sc sc')
    (r : Request) (member : r ∈ sc'.hand.requests) (same : r.id = id) :
    ∃ target result, sc'.command = some (.connected target result) := by
  have waiting : ∀ {r' : Request}, r' ∈ sc.pool.pending.requests → r'.id = id → False :=
    fun queued here => out.unqueued _ queued here
  cases move with
  | begin free due => cases member
  | acquire task opened quiet =>
    cases List.mem_singleton.mp member
    have older := out.older
    rw [← same] at older
    exact absurd older (Nat.lt_irrefl _)
  | connectDone task => exact ⟨_, _, (poised _ (congrArg Hand.task task)).2.1⟩
  | connectFailed task => exact ⟨_, _, (poised _ (congrArg Hand.task task)).2.1⟩
  | shut task ends opened => exact (waiting member same).elim
  | pop free bare front =>
    cases List.mem_singleton.mp member
    exact (waiting (front ▸ List.mem_cons_self) same).elim
  | sift held left =>
    rcases List.mem_append.mp member with gone | here
    · exact (waiting (List.mem_filter.mp gone).1 same).elim
    · exact out.held r (held ▸ here) same
  | fetch free bare called found =>
    obtain ⟨r', waits, eq⟩ := Option.map_eq_some_iff.mp found
    cases eq
    cases List.mem_singleton.mp member
    exact (waiting (Queue.mem_of_find? waits).1 same).elim
  | forsake held unarmed left => exact out.held r (held ▸ List.mem_cons_of_mem _ member) same
  | fail held unarmed grounds => exact out.held r (held ▸ List.mem_cons_of_mem _ member) same
  | @disarm r' rs timer held armed =>
    rcases List.mem_cons.mp member with rfl | behind
    · exact out.held r' (held ▸ List.mem_cons_self) same
    · exact out.held r (held ▸ List.mem_cons_of_mem _ behind) same
  | @arm r' timeout held unarmed limited =>
    cases List.mem_singleton.mp member
    exact out.held r' (held ▸ List.mem_cons_self) same
  | _ => first | exact out.held r member same | cases member

theorem outOfLine_move (poised : sc.Poised) (move : Move sc sc') (out : sc.OutOfLine id) :
    sc'.OutOfLine id where
  older := Nat.lt_of_lt_of_le out.older (nextRequest_move move)
  unqueued := unqueued_move out move
  held := held_out_move poised out move

def Scene.Started (sc : Scene) : Prop :=
  ∀ rec ∈ sc.past, ∀ r, rec.effect = some (.connect (.owned r)) → sc.OutOfLine r.id

theorem started_move (poised : sc.Poised) (listed : sc.Listed) (move : Move sc sc')
    (started : sc.Started) : sc'.Started := by
  intro rec member r effect
  rcases effect_move move member effect with before | ⟨p, h, rfl, -⟩
  · exact outOfLine_move poised move (started rec before r effect)
  · obtain ⟨rfl, rfl, held, -, -⟩ := connecting_move move rfl
    constructor
    case older =>
      have here : r ∈ sc.hand.requests := held ▸ List.mem_singleton_self _
      simp only [Scene.pool_emit, Scene.pool_alter]
      exact (listed.caller _ _ (bearing_of_held here)).1
    case unqueued =>
      intro r' queued
      simp only [Scene.pool_emit, Scene.pool_alter] at queued
      exact ne_of_held_queued listed held queued
    case held =>
      intro r' none_left
      cases none_left

/-! ### Out of time -/

structure Scene.Over (id : RequestId) (sc : Scene) : Prop where
  older : id.number < sc.pool.nextRequest
  nowhere : sc.named id = 0
  unopened : ∀ rec ∈ sc.past, ∀ r, rec.effect = some (.connect (.owned r)) → r.id ≠ id

theorem nowhere_move (a : sc.Accounted) (done : sc.Over id) (move : Move sc sc') :
    sc'.named id = 0 := by
  by_cases same : sc'.pool.nextRequest = sc.pool.nextRequest
  · have less : sc'.named id ≤ sc.named id := by
      refine requests_move a.numbered move (fun _ same => same) (fun _ same => same)
        (fun new => absurd same new) ?_
      intro r
      rw [id_expire]
      exact fun same => same
    rw [done.nowhere] at less
    exact Nat.le_zero.mp less
  · obtain ⟨k, task, rfl⟩ := named_of_acquire move same
    have newer : (⟨sc.pool.nextRequest⟩ : RequestId) ≠ id := by
      rintro rfl
      exact Nat.lt_irrefl _ done.older
    have before : sc.dues (fun r => r.id = id) (fun _ => false) = 0 := done.nowhere
    rw [Scene.named, dues_named task, before, decide_eq_false newer]
    rfl

theorem over_move (a : sc.Accounted) (move : Move sc sc') (done : sc.Over id) : sc'.Over id where
  older := Nat.lt_of_lt_of_le done.older (nextRequest_move move)
  nowhere := nowhere_move a done move
  unopened := by
    intro rec member r effect
    rcases effect_move move member effect with before | ⟨p, h, new, -⟩
    · exact done.unopened rec before r effect
    · obtain ⟨-, -, held, -, -⟩ := connecting_move move new
      rintro rfl
      have here := named_of_held (held ▸ List.mem_singleton_self r)
      rw [done.nowhere] at here
      cases here

theorem timeout_move {p : Pool} {h : Hand} (move : Move sc sc')
    (eq : sc' = (sc.alter p h).emit (.answer k (.failed (.acquireTimedOut after)))) :
    ∃ r rs, sc.hand.requests = r :: rs ∧ r.ticket = k ∧ sc.Overdue r after ∧
      h = { sc.hand with requests := rs } ∧ p.pending = sc.pool.pending ∧
      p.closeWaiters = sc.pool.closeWaiters ∧ p.nextRequest = sc.pool.nextRequest := by
  cases move with
  | @fail r rs cause held unarmed grounds overdue =>
    obtain ⟨rfl, rfl, same⟩ := emit_inj eq
    cases same
    exact ⟨r, rs, held, rfl, overdue after rfl, rfl, rfl, rfl, rfl⟩
  | answer owed plain =>
    obtain ⟨-, -, same⟩ := emit_inj eq
    cases same
    rcases plain with plain | ⟨reason, plain⟩ <;> cases plain
  | begin free due => exact absurd eq (ne_emit_begin rfl rfl)
  | _ => first | exact absurd eq (ne_emit rfl) | cases (emit_inj eq).2.2

/-- A request that is told so is over with. -/
theorem over_of_timeout (listed : sc.Listed) (started : sc.Started) {p : Pool} {h : Hand}
    {rs : List Request} (held : sc.hand.requests = r :: rs) (overdue : sc.Overdue r after)
    (hand : h = { sc.hand with requests := rs }) (pending : p.pending = sc.pool.pending)
    (waiters : p.closeWaiters = sc.pool.closeWaiters)
    (next : p.nextRequest = sc.pool.nextRequest) :
    Scene.Over r.id
      ((sc.alter p h).emit (.answer r.ticket (.failed (.acquireTimedOut after)))) := by
  have here : r ∈ sc.hand.requests := held ▸ List.mem_cons_self
  have older := (listed.caller _ _ (bearing_of_held here)).1
  constructor
  case older =>
    simp only [Scene.pool_emit, Scene.pool_alter, next]
    exact older
  case nowhere =>
    have once := listed.once r.id
    rw [if_pos older, Scene.named, dues_eq] at once
    rw [Scene.named, dues_emit, dues_alter, hand]
    simp only [Hand.dues, Pool.dues, held, pending, waiters, Effect.starts, countP_cons_toNat,
      List.countP_nil, decide_true, Bool.toNat_true] at once ⊢
    omega
  case unopened =>
    intro rec member r' effect same
    rcases List.mem_append.mp member with before | new
    · have out := started rec before r' effect
      rw [same] at out
      obtain ⟨target, result, command⟩ := out.held r here rfl
      cases command.symm.trans overdue.1
    · cases List.mem_singleton.mp new
      cases effect

def Scene.Excused (config : Config) (sc : Scene) : Prop :=
  ∀ front rec rest, sc.past = front ++ rec :: rest → ∀ k after,
    rec.effect = some (.answer k (.failed (.acquireTimedOut after))) →
      config.timeoutAction = .fail ∧ config.acquireTimeout = some after ∧
        ∃ id since, Site.InLine front id k after since ∧ since + after.toMillis ≤ rec.now ∧
          sc.Over id

structure Scene.Timed (config : Config) (sc : Scene) : Prop where
  configured : sc.pool.config = config
  recorded : ∀ rec ∈ sc.past, rec.pool.config = config
  orderly : sc.Orderly
  wound : sc.Wound
  punctual : sc.Punctual
  patient : sc.Patient
  started : sc.Started
  excused : sc.Excused config

variable {config : Config}

theorem excused_move (timed : sc.Timed config) (move : Move sc sc') : sc'.Excused config := by
  intro front rec rest split k after effect
  rcases split_move move split effect with ⟨back, past⟩ | ⟨p, h, rfl, rfl, rfl⟩
  · obtain ⟨action, limited, id, since, waits, late, done⟩ :=
      timed.excused front rec back past k after effect
    exact ⟨action, limited, id, since, waits, late,
      over_move timed.orderly.kept.accounted move done⟩
  · obtain ⟨r, rs, held, rfl, overdue, hand, pending, waiters, next⟩ := timeout_move move rfl
    have finished := over_of_timeout timed.orderly.listed timed.started held overdue hand pending
      waiters next
    obtain ⟨command, action, limited, silent⟩ := overdue
    have here : r ∈ sc.hand.requests := held ▸ List.mem_cons_self
    obtain ⟨since, waits⟩ := timed.patient.held r here command silent after limited
    refine ⟨timed.configured ▸ action, timed.configured ▸ limited, r.id, since, waits, ?_, finished⟩
    obtain ⟨front, armed, later, past, rfl, -, started, -⟩ := waits
    have member : armed ∈ sc.past := by
      rw [past]
      exact List.mem_append_right _ List.mem_cons_self
    exact (timed.punctual armed member _ _ _ started).2 (.inr command)

theorem recorded_config_move (timed : sc.Timed config) (move : Move sc sc') (rec : Site.Record)
    (member : rec ∈ sc'.past) : rec.pool.config = config := by
  rcases recorded_move move rec member with before | here | now
  · exact timed.recorded rec before
  · rw [here]
    exact timed.configured
  · rw [now, config_move move]
    exact timed.configured

theorem timed_move (move : Move sc sc') (timed : sc.Timed config) : sc'.Timed config where
  configured := (config_move move).trans timed.configured
  recorded := recorded_config_move timed move
  orderly := orderly_move move timed.orderly
  wound := wound_move timed.orderly.kept.accounted timed.orderly.poised move timed.wound
  punctual := punctual_move timed.orderly.kept.accounted timed.wound move timed.punctual
  patient := patient_move timed.orderly.poised move timed.patient
  started := started_move timed.orderly.poised timed.orderly.listed move timed.started
  excused := excused_move timed move

theorem timed_start (config : Config) (observer : Hook → Nat → Option String) :
    (Scene.start config observer).Timed config where
  configured := rfl
  recorded := List.forall_mem_nil _
  orderly := orderly_start config observer
  wound := wound_start config observer
  punctual := List.forall_mem_nil _
  patient := ⟨List.forall_mem_nil _, List.forall_mem_nil _⟩
  started := List.forall_mem_nil _
  excused front rec rest split := by simp [Scene.start] at split

/-! ### What is counted -/

def Scene.asks (sc : Scene) : Option RequestId :=
  sc.hand.task.join.bind sc.pool.asks?

theorem asks_of_free (free : sc.hand.task = none) : sc.asks = none := by
  rw [Scene.asks, free]
  rfl

theorem asks_kept (free : sc.hand.task = none) (free' : sc'.hand.task = none) :
    sc'.asks = sc.asks := by
  rw [asks_of_free free, asks_of_free free']

theorem asks_of_task {c : Command} (task : sc.hand = { task := some (some c) }) :
    sc.asks = sc.pool.asks? c := by
  rw [Scene.asks, task]
  rfl

theorem asks_of_returned {p : Pool} {c : Command} {conn : ConnId} (back : c.returned? = some conn) :
    p.asks? c = none := by
  cases c with
  | release id k => rfl
  | dropped id => rfl
  | _ => cases back

theorem asks_of_moot {p : Pool} {c : Command} (moot : c.Moot p) : p.asks? c = none := by
  cases c with
  | timedOut id =>
    have unqueued : p.pending.find? id = none := moot
    rw [Pool.asks?, unqueued]
    rfl
  | _ => rfl

theorem asks_of_expired (task : sc.hand = { task := some (some (.timedOut id)) })
    (queued : sc.pool.pending.find? id = some r) :
    sc.asks = if (sc.pool.config.expire r).1 = .openOverflow then some id else none := by
  rw [asks_of_task task, Pool.asks?, queued]
  simp

theorem asks_emit (p : Pool) (h : Hand) (e : Effect) :
    ((sc.alter p h).emit e).asks = (sc.alter p h).asks := by
  simp only [Scene.asks, Scene.hand_emit, Scene.pool_emit]

theorem asked_emit (p : Pool) (h : Hand) (e : Effect) :
    Site.asked ((sc.alter p h).emit e).past = Site.asked sc.past :=
  (Site.filterMap_concat _ _ _).trans (List.append_nil _)

theorem timeouts_emit (p : Pool) (h : Hand) (e : Effect) :
    Site.timeouts ((sc.alter p h).emit e).past = Site.timeouts sc.past ++ e.timeout?.toList :=
  Site.filterMap_concat _ _ _

inductive Tolling (sc sc' : Scene) : Prop where
  | kept (asks : sc'.asks = sc.asks) (asked : Site.asked sc'.past = Site.asked sc.past)
      (opened : Site.overflows sc'.past = Site.overflows sc.past)
      (told : Site.timeouts sc'.past = Site.timeouts sc.past)
      (count : sc'.pool.counters.timeouts = sc.pool.counters.timeouts)
  | begun (free : sc.asks = none)
      (asked : Site.asked sc'.past = Site.asked sc.past ++ sc'.asks.toList)
      (opened : Site.overflows sc'.past = Site.overflows sc.past)
      (told : Site.timeouts sc'.past = Site.timeouts sc.past)
      (count : sc'.pool.counters.timeouts = sc.pool.counters.timeouts)
  | failed (asks : sc'.asks = sc.asks) (asked : Site.asked sc'.past = Site.asked sc.past)
      (opened : Site.overflows sc'.past = Site.overflows sc.past)
      (told : (Site.timeouts sc'.past).length = (Site.timeouts sc.past).length + 1)
      (count : sc'.pool.counters.timeouts = sc.pool.counters.timeouts + 1)
  | opened {id : RequestId} (asks : sc.asks = some id) (done : sc'.asks = none)
      (asked : Site.asked sc'.past = Site.asked sc.past)
      (opened : Site.overflows sc'.past = Site.overflows sc.past ++ [id])
      (told : Site.timeouts sc'.past = Site.timeouts sc.past)
      (count : sc'.pool.counters.timeouts = sc.pool.counters.timeouts + 1)
  | lost {id : RequestId} (asks : sc.asks = some id) (done : sc'.asks = none)
      (asked : Site.asked sc'.past = Site.asked sc.past)
      (opened : Site.overflows sc'.past = Site.overflows sc.past)
      (told : Site.timeouts sc'.past = Site.timeouts sc.past)
      (count : sc'.pool.counters.timeouts = sc.pool.counters.timeouts + 1)
      (unreachable : sc.site.isReachable = false)

theorem tolling_silent {c : Command} {p : Pool} {h : Hand}
    (task : sc.hand = { task := some (some c) }) (unasked : sc.pool.asks? c = none)
    (done : h.task = none) (count : p.counters.timeouts = sc.pool.counters.timeouts) :
    Tolling sc (sc.alter p h) := by
  refine .kept ?_ rfl rfl rfl count
  rw [asks_of_task task, unasked]
  exact asks_of_free done

theorem tolling_emit {p : Pool} {h : Hand} {e : Effect} (asks : (sc.alter p h).asks = sc.asks)
    (count : p.counters.timeouts = sc.pool.counters.timeouts) (told : e.timeout? = none)
    (opened : e.overflowFor? = none) : Tolling sc ((sc.alter p h).emit e) := by
  refine .kept ((asks_emit _ _ _).trans asks) (asked_emit _ _ _) ?_ ?_ ?_
  · rw [overflows_emit, opened]
    exact List.append_nil _
  · rw [timeouts_emit, told]
    exact List.append_nil _
  · simpa using count

theorem tolling_spoken {c : Command} {p : Pool} {h : Hand} {e : Effect}
    (task : sc.hand = { task := some (some c) }) (unasked : sc.pool.asks? c = none)
    (done : h.task = none) (count : p.counters.timeouts = sc.pool.counters.timeouts)
    (told : e.timeout? = none) (opened : e.overflowFor? = none) :
    Tolling sc ((sc.alter p h).emit e) := by
  refine tolling_emit ?_ count told opened
  rw [asks_of_task task, unasked]
  exact asks_of_free done

theorem tolling_begin {c : Option Command} {rest : Site} (free : sc.hand = {})
    (due : sc.site.next? = some (c, rest)) :
    Tolling sc
      { sc with
        site := rest
        hand := { task := some c }
        memory := sc.memory.begin c sc.site
        past := sc.past ++ [{ now := sc.now, command := c, pool := sc.pool }] } := by
  refine .begun (asks_of_free (by rw [free])) ?_ ?_ ?_ ?_
  · refine (Site.filterMap_concat _ _ _).trans ?_
    simp only [Scene.asks, Scene.pool, Site.pool_next? due]
    rfl
  · exact (overflows_concat _ _).trans (List.append_nil _)
  · exact (Site.filterMap_concat _ _ _).trans (List.append_nil _)
  · simp [Scene.pool, Site.pool_next? due]

theorem tolling_expire (task : sc.hand = { task := some (some (.timedOut id)) })
    (queued : sc.pool.pending.find? id = some r)
    (lost : (sc.pool.config.expire r).1 = .openOverflow → sc.site.isReachable = false) :
    Tolling sc (sc.alter
      { sc.pool with
        pending := sc.pool.pending.replace id (sc.pool.config.expire r).2
        counters := (sc.pool.config.expire r).1.counted sc.pool.counters } {}) := by
  have asks := asks_of_expired task queued
  cases expiry : (sc.pool.config.expire r).1 with
  | openOverflow =>
    rw [if_pos expiry] at asks
    exact .lost asks (asks_of_free rfl) rfl rfl rfl rfl (lost expiry)
  | fail after =>
    rw [if_neg (by simp [expiry])] at asks
    exact .kept ((asks_of_free rfl).trans asks.symm) rfl rfl rfl rfl
  | ignore =>
    rw [if_neg (by simp [expiry])] at asks
    exact .kept ((asks_of_free rfl).trans asks.symm) rfl rfl rfl rfl

theorem tolling_overflow {r' : Request} (task : sc.hand = { task := some (some (.timedOut id)) })
    (queued : sc.pool.pending.find? id = some r)
    (due : sc.pool.config.expire r = (.openOverflow, r')) :
    Tolling sc ((sc.alter
      { sc.pool with
        pending := sc.pool.pending.replace id r'
        counters := { sc.pool.counters with timeouts := sc.pool.counters.timeouts + 1 }
        registry := sc.registry.reserve } {}).emit (.connect (.queued id))) := by
  have asks := asks_of_expired task queued
  rw [due, if_pos rfl] at asks
  refine .opened asks (asks_of_free rfl) (asked_emit _ _ _) ?_ ?_ ?_
  · exact overflows_emit _
  · exact (timeouts_emit _ _ _).trans (List.append_nil _)
  · simp

theorem tolling_fail {rs : List Request} {cause : PoolError} (free : sc.hand.task = none) :
    Tolling sc ((sc.alter
      { sc.pool with counters := (Outcome.failed cause).counted sc.pool.counters }
      { sc.hand with requests := rs }).emit (.answer r.ticket (.failed cause))) := by
  cases cause with
  | acquireTimedOut after =>
    refine .failed (asks_kept free free) (asked_emit _ _ _) ?_ ?_ ?_
    · exact (overflows_emit _).trans (List.append_nil _)
    · rw [timeouts_emit]
      exact List.length_append
    · simp [Outcome.counted, PoolError.counted]
  | _ => exact tolling_emit (asks_kept free free) rfl rfl rfl

theorem tolling_move (poised : sc.Poised) (move : Move sc sc') : Tolling sc sc' := by
  cases move with
  | event order allowed =>
    refine .kept ?_ rfl rfl rfl ?_ <;> simp [Scene.asks, Scene.pool]
  | wait order => exact .kept rfl rfl rfl rfl rfl
  | begin free due => exact tolling_begin free due
  | dismiss task moot => exact tolling_silent task (asks_of_moot moot) rfl rfl
  | refuse task closed => exact tolling_spoken task rfl rfl rfl rfl rfl
  | acquire task opened quiet => exact tolling_silent task rfl rfl rfl
  | stats task => exact tolling_spoken task rfl rfl rfl rfl rfl
  | @shut c closer task ends opened =>
    subst ends
    cases closer with
    | none =>
      refine .kept ?_ rfl rfl rfl rfl
      simp [Scene.asks, task]
    | some k => exact tolling_silent task rfl rfl rfl
  | seize task back => exact tolling_spoken task (asks_of_returned back) rfl rfl rfl rfl
  | takeBack task back => exact tolling_silent task (asks_of_returned back) rfl rfl
  | connectDone task => exact tolling_spoken task rfl rfl rfl rfl rfl
  | connectFailed task => exact tolling_silent task rfl rfl rfl
  | verdict task checking => exact tolling_silent task rfl rfl rfl
  | expire task queued lost => exact tolling_expire task queued lost
  | overflow task queued due reachable drained => exact tolling_overflow task queued due
  | forget task => exact tolling_silent task rfl rfl rfl
  | fail held unarmed grounds overdue => exact tolling_fail (free_of_held poised held)
  | answer owed plain =>
    refine tolling_emit (by simp [Scene.asks]) rfl ?_ rfl
    rcases plain with rfl | ⟨reason, rfl⟩ <;> rfl
  | report free closed complete =>
    exact .kept (asks_kept (congrArg Hand.task free) rfl) rfl rfl rfl rfl
  | _ =>
    -- The rest happens when no task is in hand.
    have free : sc.hand.task = none := by
      cases task : sc.hand.task with
      | none => rfl
      | some c =>
        have only := (poised c task).1
        simp_all
    first
    | exact .kept (asks_kept free free) rfl rfl rfl rfl
    | exact tolling_emit (asks_kept free free) rfl rfl rfl

/-- Counted are those who were told that their time was up, and the deadlines that asked for a
connection past capacity; one was opened on each of these as long as anybody held on to the pool. -/
structure Scene.Tallied (sc : Scene) : Prop where
  count : sc.pool.counters.timeouts + sc.asks.toList.length =
    (Site.asked sc.past).length + (Site.timeouts sc.past).length
  opened : (Site.overflows sc.past ++ sc.asks.toList).Sublist (Site.asked sc.past)
  reached : sc.site.isReachable = true →
    Site.overflows sc.past ++ sc.asks.toList = Site.asked sc.past

theorem tallied_move (poised : sc.Poised) (move : Move sc sc') (tallied : sc.Tallied) :
    sc'.Tallied := by
  obtain ⟨count, opened, reached⟩ := tallied
  have reached := fun reachable => reached (reachable_of_move move reachable)
  cases tolling_move poised move with
  | kept asks asked opened' told count' =>
    constructor
    · rw [asks, asked, told, count']
      exact count
    · rw [asks, asked, opened']
      exact opened
    · rw [asks, asked, opened']
      exact reached
  | begun free asked opened' told count' =>
    rw [free, Option.toList_none, List.append_nil] at opened reached
    rw [free, Option.toList_none] at count
    constructor
    · rw [asked, told, count', List.length_append]
      simp only [List.length_nil] at count
      omega
    · rw [asked, opened']
      exact opened.append (List.Sublist.refl _)
    · rw [asked, opened']
      exact fun reachable => congrArg (· ++ sc'.asks.toList) (reached reachable)
  | failed asks asked opened' told count' =>
    constructor
    · rw [asks, asked, told, count']
      omega
    · rw [asks, asked, opened']
      exact opened
    · rw [asks, asked, opened']
      exact reached
  | opened asks done asked opened' told count' =>
    rw [asks, Option.toList_some] at opened reached count
    rw [List.length_singleton] at count
    constructor
    · rw [done, asked, told, count']
      simpa using count
    · rw [done, asked, opened', Option.toList_none, List.append_nil]
      exact opened
    · rw [done, asked, opened', Option.toList_none, List.append_nil]
      exact reached
  | lost asks done asked opened' told count' unreachable =>
    rw [asks, Option.toList_some] at opened count
    rw [List.length_singleton] at count
    constructor
    · rw [done, asked, told, count']
      simpa using count
    · rw [done, asked, opened', Option.toList_none, List.append_nil]
      exact (List.sublist_append_left _ _).trans opened
    · intro reachable
      cases unreachable.symm.trans (reachable_of_move move reachable)

theorem tallied_start (config : Config) (observer : Hook → Nat → Option String) :
    (Scene.start config observer).Tallied :=
  ⟨rfl, List.Sublist.refl _, fun _ => rfl⟩

/-! ### Runs -/

/-- A turn that asks for a connection past capacity is one that a deadline begins. -/
theorem expired_of_asks {rec : Site.Record} (asks : rec.asks? = some id) :
    rec.expired? = some id ∧ rec.pool.config.timeoutAction = .newConnection := by
  obtain ⟨now, command, effect, pool⟩ := rec
  cases effect with
  | some e => cases asks
  | none =>
    obtain ⟨c, rfl, asks⟩ := Option.bind_eq_some_iff.mp asks
    cases c with
    | timedOut id' =>
      simp only [Pool.asks?] at asks
      split at asks
      · next due =>
        cases asks
        rw [Option.any_eq_true] at due
        obtain ⟨r, -, expiry⟩ := due
        have opens : pool.config.expire r = (.openOverflow, (pool.config.expire r).2) :=
          Prod.ext (by simpa using expiry) rfl
        exact ⟨rfl, (expire_eq_openOverflow opens).1⟩
      · cases asks
    | _ => cases asks

/-- A request asks for a connection once at most: the pool hears of its deadline once. -/
theorem nodup_asked (wound : sc.Wound) : (Site.asked sc.past).Nodup := by
  rw [List.nodup_iff_count]
  intro id
  have few : (Site.asked sc.past).count id ≤ Site.expiries sc.past id := by
    rw [Site.asked, List.count_filterMap]
    apply List.countP_mono_left
    intro rec _ asks
    have expired := (expired_of_asks (by simpa using asks : rec.asks? = some id)).1
    simpa using expired
  have once := wound.once id
  have single := wound.single id
  omega

theorem asked_of_fail (timed : sc.Timed config) (action : config.timeoutAction = .fail) :
    Site.asked sc.past = [] := by
  rw [List.eq_nil_iff_forall_not_mem]
  intro id member
  obtain ⟨rec, member, asks⟩ := List.mem_filterMap.mp member
  have other := (expired_of_asks asks).2
  rw [timed.recorded rec member, action] at other
  cases other

theorem timeouts_of_newConnection (timed : sc.Timed config)
    (action : config.timeoutAction = .newConnection) : Site.timeouts sc.past = [] := by
  rw [List.eq_nil_iff_forall_not_mem]
  rintro ⟨k, after⟩ member
  obtain ⟨rec, member, told⟩ := List.mem_filterMap.mp member
  obtain ⟨front, rest, past⟩ := List.append_of_mem member
  obtain ⟨e, effect, told⟩ := Option.bind_eq_some_iff.mp told
  have answer : e = .answer k (.failed (.acquireTimedOut after)) := by
    simp only [Effect.timeout?] at told
    split at told
    · cases told
      rfl
    · cases told
  subst answer
  have other := (timed.excused front rec rest past k after effect).1
  rw [action] at other
  cases other

/-- Between turns a request whose timer is running is in line. -/
theorem timers_of_wound (wound : sc.Wound) (free : sc.hand = {}) (d : Deadline)
    (set : d ∈ sc.site.deadlines) :
    ∃ r ∈ sc.pool.pending.requests, r.id = d.request ∧ r.timer = some d.timer := by
  obtain ⟨r, listed, kept⟩ := wound.kept d set
  rw [Scene.requests, free] at listed
  exact ⟨r, listed, kept⟩

variable {observer : Hook → Nat → Option String} {past : List Site.Record} {now : Nat} {s : Site}

/-- A request that has been in line, and is so no more, is never in line again. -/
theorem unqueued_onward (run : Site.Run config observer past now s)
    (older : id.number < s.pool.nextRequest)
    (unqueued : ∀ r ∈ s.pool.pending.requests, r.id ≠ id) {past' : List Site.Record} {now' : Nat}
    {s' : Site} (onward : Site.Onward past now s past' now' s') :
    ∀ r ∈ s'.pool.pending.requests, r.id ≠ id := by
  obtain ⟨m, poised⟩ := run_invariant Scene.Poised run (fun move poised => poised_move poised move)
    (fun _ idle => by cases idle)
  obtain ⟨m', path⟩ := path_after_run run onward m
  have out : Scene.OutOfLine id { now, site := s, memory := m, past } :=
    ⟨older, unqueued, List.forall_mem_nil _⟩
  have step : ∀ {a b : Scene}, Move a b → a.Poised ∧ a.OutOfLine id → b.Poised ∧ b.OutOfLine id :=
    fun move held => ⟨poised_move held.1 move, outOfLine_move held.1 move held.2⟩
  exact (path_invariant path step ⟨poised, out⟩).2.unqueued

/-- The passing of a deadline means nothing for a request that is in line no more. -/
theorem turn_of_unqueued (run : Site.Run config observer past now s)
    (unqueued : ∀ r ∈ s.pool.pending.requests, r.id ≠ id) {later : Nat} {rest : Site}
    (due : s.next? = some (some (.timedOut id), rest)) (course : Site.Course later rest) :
    course.turn (some (.timedOut id)) = ⟨s.pool, []⟩ := by
  rw [Site.Course.turn, Site.pool_next? due]
  apply handle_of_late (settled_of_run run)
  intro member
  obtain ⟨r, queued, same⟩ := List.mem_map.mp member
  exact unqueued r queued same

/-- Between two turns only requests in line have deadlines, one each at most, and no timer is
started twice. A request that has left the line has none, for good, and when the pool hears that a
deadline of it has passed nothing happens. Where requests fail at their deadlines, the counter tells
how many callers were told so; each had been in line from its acquire for as long as it might wait,
got nothing, and no connection was ever opened for it. Where a deadline asks for a connection past
capacity, the counter tells how many did, each for another request; and such a connection was opened
on each of them as long as anybody holds on to the pool. -/
theorem deadlines_kept (run : Site.Run config observer past now s) :
    ((∀ d ∈ s.deadlines,
        ∃ r ∈ s.pool.pending.requests, r.id = d.request ∧ r.timer = some d.timer) ∧
      ∀ id, s.deadlines.countP (fun d => d.request = id) ≤ 1 ∧ Site.armings past id ≤ 1) ∧
    (∀ id : RequestId, id.number < s.pool.nextRequest →
      (∀ r ∈ s.pool.pending.requests, r.id ≠ id) →
      ∀ past' now' s', Site.Onward past now s past' now' s' →
        (∀ d ∈ s'.deadlines, d.request ≠ id) ∧
        ∀ later rest (course : Site.Course later rest),
          s'.next? = some (some (.timedOut id), rest) →
            course.turn (some (.timedOut id)) = ⟨s'.pool, []⟩) ∧
    (config.timeoutAction = .fail →
      s.pool.counters.timeouts = (Site.timeouts past).length ∧
      ∀ front rec rest, past = front ++ rec :: rest → ∀ k after,
        rec.effect = some (.answer k (.failed (.acquireTimedOut after))) →
          config.acquireTimeout = some after ∧
          (∀ rec' ∈ past, ∀ conn serial, rec'.effect ≠ some (.answer k (.loan conn serial))) ∧
          ∃ id since, Site.InLine front id k after since ∧ since + after.toMillis ≤ rec.now ∧
            ∀ rec' ∈ past, ∀ target, rec'.effect = some (.connect target) →
              target.request ≠ id) ∧
    (config.timeoutAction = .newConnection →
      s.pool.counters.timeouts = (Site.asked past).length ∧ (Site.asked past).Nodup ∧
      (Site.overflows past).Sublist (Site.asked past) ∧
      (s.isReachable = true → Site.overflows past = Site.asked past)) := by
  have step : ∀ {a b : Scene}, Move a b → a.Timed config ∧ a.Tallied →
      b.Timed config ∧ b.Tallied :=
    fun move held => ⟨timed_move move held.1, tallied_move held.1.orderly.poised move held.2⟩
  obtain ⟨m, timed, tallied⟩ := run_invariant (fun sc => sc.Timed config ∧ sc.Tallied) run step
    ⟨timed_start config observer, tallied_start config observer⟩
  have count : s.pool.counters.timeouts = (Site.asked past).length + (Site.timeouts past).length :=
    tallied.count
  have opened : (Site.overflows past ++ []).Sublist (Site.asked past) := tallied.opened
  rw [List.append_nil] at opened
  refine ⟨⟨?timers, ?once⟩, ?late, ?fails, ?opens⟩
  case timers => exact timers_of_wound timed.wound rfl
  case once =>
    intro id
    have once := timed.wound.once id
    have single : Site.armings past id ≤ 1 := timed.wound.single id
    simp only [Site.alarms] at once
    exact ⟨by omega, single⟩
  case late =>
    intro id older unqueued past' now' s' onward
    have gone := unqueued_onward run older unqueued onward
    have run' := Site.run_onward run onward
    refine ⟨?_, fun later rest course due => turn_of_unqueued run' gone due course⟩
    obtain ⟨m', timed', -⟩ := run_invariant (fun sc => sc.Timed config ∧ sc.Tallied) run' step
      ⟨timed_start config observer, tallied_start config observer⟩
    intro d set
    obtain ⟨r, queued, same, -⟩ := timers_of_wound timed'.wound rfl d set
    rw [← same]
    exact gone r queued
  case fails =>
    intro action
    have asked : Site.asked past = [] := asked_of_fail timed action
    rw [asked, List.length_nil, Nat.zero_add] at count
    refine ⟨count, ?_⟩
    intro front rec rest split k after effect
    obtain ⟨-, limited, id, since, waits, late, done⟩ :=
      timed.excused front rec rest split k after effect
    refine ⟨limited, ?unserved, id, since, waits, late, ?unopened⟩
    case unserved =>
      intro rec' member conn serial loan
      have few : Site.answers past k ≤ 1 :=
        Nat.le_trans (Nat.le_add_right _ _) (timed.orderly.kept.answered.once k)
      have here : rec ∈ past := split ▸ List.mem_append_right _ List.mem_cons_self
      have same := Keyed.eq_of_countP_le_one few here (by simp [effect, Effect.answered?]) member
        (by simp [loan, Effect.answered?])
      rw [← same, effect] at loan
      cases loan
    case unopened =>
      intro rec' member target connects
      cases target with
      | owned r => exact done.unopened rec' member r connects
      | queued id' =>
        have overflow : id' ∈ Site.overflows past :=
          List.mem_filterMap.mpr ⟨rec', member, by simp [connects, Effect.overflowFor?]⟩
        have none_asked := opened.subset overflow
        rw [asked] at none_asked
        cases none_asked
  case opens =>
    intro action
    have told : Site.timeouts past = [] := timeouts_of_newConnection timed action
    rw [told, List.length_nil, Nat.add_zero] at count
    refine ⟨count, nodup_asked timed.wound, opened, fun reachable => ?_⟩
    have reached : Site.overflows past ++ [] = Site.asked past := tallied.reached reachable
    rwa [List.append_nil] at reached

/-- Three callers wait. The deadline of one passes; the next one's passes while the pool is about to
be told that the only connection, which has come back, is healthy. -/
def outwaited : List (Nat × Option Site.Event) :=
  [(0, some (.acquire ⟨1⟩)), (0, none), (1, some (.connected ⟨0⟩ (.ok (⟨1⟩, {})))), (1, none),
    (2, some (.read ⟨1⟩)), (3, some (.acquire ⟨2⟩)), (3, none), (4, some (.acquire ⟨3⟩)),
    (4, none), (5, some (.acquire ⟨4⟩)), (5, none), (13, some (.deadline ⟨2⟩)), (13, none),
    (13, some (.dropLoan ⟨1⟩)), (13, none), (14, some (.checked ⟨1⟩ true)),
    (14, some (.deadline ⟨3⟩)), (14, none)]

theorem deadlines_of_outwaited :
    (∃ past now s rest,
      Site.Run { maxConnections := 1, acquireTimeoutMs := 10, timeoutAction := .fail }
        (fun _ _ => none) past now s ∧
      s.pool.pending.keys = [(⟨4⟩, ⟨4⟩)] ∧ (∃ d ∈ s.deadlines, d.request = ⟨4⟩) ∧
      Site.armings past ⟨4⟩ ≤ 1 ∧ s.next? = some (some (.timedOut ⟨3⟩), rest) ∧
      (∀ d ∈ s.deadlines, d.request ≠ ⟨3⟩) ∧
      (Site.Course.alone 15 rest).turn (some (.timedOut ⟨3⟩)) = ⟨s.pool, []⟩ ∧
      s.pool.counters.timeouts = 1 ∧
      ∃ front rec back since, past = front ++ rec :: back ∧
        rec.effect = some (.answer ⟨2⟩ (.failed (.acquireTimedOut (.ofMillis 10)))) ∧
        (∃ id, Site.InLine front id ⟨2⟩ (.ofMillis 10) since) ∧ since + 10 ≤ rec.now) ∧
    ∃ past now s,
      Site.Run { maxConnections := 1, acquireTimeoutMs := 10, timeoutAction := .newConnection }
        (fun _ _ => none) past now s ∧
      s.pool.counters.timeouts = 1 ∧ (Site.asked past).length = 1 ∧
      Site.overflows past = Site.asked past := by
  constructor
  · obtain ⟨past, now, s, c, rest, run, -, due, seen⟩ := Site.exists_due
      { maxConnections := 1, acquireTimeoutMs := 10, timeoutAction := .fail }
      (fun _ _ => none) outwaited 15
      (fun past s c _ => c.bind Command.expired? == some ⟨3⟩ &&
        s.pool.pending.keys == [(⟨4⟩, ⟨4⟩)] && s.deadlines.any (·.request == ⟨4⟩) &&
        decide (3 < s.pool.nextRequest) &&
        s.pool.counters.timeouts == 1 && past.any fun rec =>
          rec.effect == some (.answer ⟨2⟩ (.failed (.acquireTimedOut (.ofMillis 10)))))
      (by decide +kernel)
    simp only [Bool.and_eq_true, beq_iff_eq, List.any_eq_true, decide_eq_true_eq] at seen
    obtain ⟨⟨⟨⟨⟨late, queued⟩, set⟩, older⟩, counted⟩, rec, member, effect⟩ := seen
    obtain ⟨⟨-, few⟩, gone, fails, -⟩ := deadlines_kept run
    have unqueued : ∀ r ∈ s.pool.pending.requests, r.id ≠ ⟨3⟩ := by
      intro r waits same
      have here : (r.id, r.ticket) ∈ s.pool.pending.keys := List.mem_map_of_mem waits
      rw [queued, same] at here
      cases List.mem_singleton.mp here
    obtain ⟨unset, silent⟩ := gone ⟨3⟩ older unqueued past now s .refl
    obtain ⟨front, back, split⟩ := List.append_of_mem member
    obtain ⟨-, -, id, since, waits, lapsed, -⟩ := (fails rfl).2 front rec back split _ _ effect
    obtain rfl : c = some (.timedOut ⟨3⟩) := by
      cases c with
      | none => cases late
      | some c =>
        cases c <;> cases late
        rfl
    exact ⟨past, now, s, rest, run, queued, set, (few ⟨4⟩).2, due, unset,
      silent 15 rest (.alone 15 rest) due, counted, front, rec, back, since, split, effect,
      ⟨id, waits⟩, lapsed⟩
  · obtain ⟨past, now, s, run, seen⟩ := Site.exists_run
      { maxConnections := 1, acquireTimeoutMs := 10, timeoutAction := .newConnection }
      (fun _ _ => none) overdue
      (fun _ s => s.pool.counters.timeouts == 1 && s.isReachable) (by decide +kernel)
    simp only [Bool.and_eq_true, beq_iff_eq] at seen
    obtain ⟨-, -, -, opens⟩ := deadlines_kept run
    obtain ⟨counted, -, -, opened⟩ := opens rfl
    exact ⟨past, now, s, run, seen.1, counted.symm.trans seen.1, opened seen.2⟩

end LoanPool
