import LoanPool.Proofs.Runs
import Mathlib.Data.List.Basic

/-!
# Moments of a turn

Every effect that takes place in a run is a move from a moment at which all holds that moves keep.
So whatever is to be known about the middle of a turn, with the site as it stands there, is known
from an invariant and from the moves that have that effect.
-/
namespace LoanPool
open Pending (Request)

variable {sc sc' : Scene} {p p' : Pool} {h h' : Hand} {e e' : Effect} {holds : Scene → Prop}

inductive Recording (sc : Scene) : Scene → Prop where
  | same {sc' : Scene} (past : sc'.past = sc.past) (memory : sc'.memory = sc.memory) :
      Recording sc sc'
  | begin {c : Option Command} {rest : Site} (free : sc.hand = {})
      (due : sc.site.next? = some (c, rest)) :
      Recording sc
        { sc with
          site := rest
          hand := { task := some c }
          memory := sc.memory.begin c sc.site
          past := sc.past ++ [{ now := sc.now, command := c, pool := sc.pool }] }
  | effect (p : Pool) (h : Hand) (e : Effect) : Recording sc ((sc.alter p h).emit e)

theorem recording_move (move : Move sc sc') : Recording sc sc' := by
  cases move with
  | begin free due => exact .begin free due
  | _ => first | exact .same rfl rfl | exact .effect _ _ _

theorem recorded_move (move : Move sc sc') (rec : Site.Record) (member : rec ∈ sc'.past) :
    rec ∈ sc.past ∨ rec.pool = sc.pool ∨ rec.pool = sc'.pool := by
  cases recording_move move with
  | same past memory => exact .inl (past ▸ member)
  | begin free due =>
    rcases List.mem_append.mp member with before | new
    · exact .inl before
    · cases List.mem_singleton.mp new
      exact .inr (.inl rfl)
  | effect p h e =>
    rcases List.mem_append.mp member with before | new
    · exact .inl before
    · cases List.mem_singleton.mp new
      exact .inr (.inr (Site.pool_enact _ _ _).symm)

theorem split_concat {α : Type} {l front rest : List α} {a b : α}
    (split : l ++ [b] = front ++ a :: rest) :
    front = l ∧ a = b ∨ ∃ before, l = front ++ a :: before := by
  rcases List.eq_nil_or_concat' rest with rfl | ⟨rest, last, rfl⟩
  · obtain ⟨rfl, same⟩ := List.append_inj' split rfl
    cases same
    exact .inl ⟨rfl, rfl⟩
  · have cut : l ++ [b] = (front ++ a :: rest) ++ [last] := by simpa using split
    exact .inr ⟨rest, (List.append_inj' cut rfl).1⟩

theorem emit_inj (same : (sc.alter p h).emit e = (sc.alter p' h').emit e') :
    p = p' ∧ h = h' ∧ e = e' := by
  have hands : h = h' := congrArg Scene.hand same
  have records := List.append_cancel_left (congrArg Scene.past same)
  simp only [List.cons.injEq, Site.Record.mk.injEq, Option.some.injEq, Scene.alter,
    Site.pool_withPool, and_true, true_and] at records
  exact ⟨records.2, hands, records.1⟩

theorem ne_emit (silent : sc'.past = sc.past) : sc' ≠ (sc.alter p h).emit e := by
  rintro rfl
  have longer := congrArg List.length silent
  simp [Scene.emit, Scene.alter] at longer

theorem ne_emit_begin {rec : Site.Record} (begun : sc'.past = sc.past ++ [rec])
    (silent : rec.effect = none) : sc' ≠ (sc.alter p h).emit e := by
  rintro rfl
  have records := List.append_cancel_left begun
  cases records
  cases silent

theorem split_move (move : Move sc sc') {front rest : List Site.Record} {rec : Site.Record}
    (split : sc'.past = front ++ rec :: rest) (effect : rec.effect = some e) :
    (∃ back, sc.past = front ++ rec :: back) ∨
      ∃ p h, sc' = (sc.alter p h).emit e ∧ front = sc.past ∧
        rec = { now := sc.now, command := sc.command, effect := some e, pool := p } := by
  cases recording_move move with
  | same past memory => exact .inl ⟨rest, past.symm.trans split⟩
  | begin free due =>
    rcases split_concat split with ⟨rfl, rfl⟩ | before
    · cases effect
    · exact .inl before
  | effect p h e' =>
    rcases split_concat split with ⟨rfl, rfl⟩ | before
    · cases effect
      exact .inr ⟨p, h, rfl, rfl, rfl⟩
    · exact .inl before

theorem effect_move (move : Move sc sc') {rec : Site.Record} (member : rec ∈ sc'.past)
    (effect : rec.effect = some e) :
    rec ∈ sc.past ∨ ∃ p h, sc' = (sc.alter p h).emit e ∧
      rec = { now := sc.now, command := sc.command, effect := some e, pool := p } := by
  obtain ⟨front, rest, split⟩ := List.append_of_mem member
  rcases split_move move split effect with ⟨back, past⟩ | ⟨p, h, done, -, new⟩
  · left
    rw [past]
    exact List.mem_append_right _ List.mem_cons_self
  · exact .inr ⟨p, h, done, new⟩

theorem memory_move (move : Move sc sc') (going : sc'.hand.task = none) :
    sc'.command = sc.command ∧ sc'.memory.before = sc.memory.before := by
  cases recording_move move with
  | same past memory => exact ⟨congrArg Memory.command memory, congrArg Memory.before memory⟩
  | begin free due => cases going
  | effect p h e => exact ⟨rfl, rfl⟩

/-! ### What takes place from where -/

inductive Happens (holds : Scene → Prop) :
    List Site.Record → Pool → Option Command → Site → Effect → Prop where
  | intro {sc sc' : Scene} {p : Pool} {h : Hand} {e : Effect} (held : holds sc)
      (move : Move sc sc') (eq : sc' = (sc.alter p h).emit e) :
      Happens holds sc.past sc.memory.before sc.command (sc.site.withPool p) e

structure Scene.Noted (holds : Scene → Prop) (sc : Scene) : Prop where
  held : holds sc
  aligned : sc.memory.views.length = sc.past.length
  happened : ∀ i rec view e, sc.past[i]? = some rec → sc.memory.views[i]? = some view →
    rec.effect = some e →
    Happens holds (sc.past.take i) view.before rec.command view.site e

theorem happened_append {past more : List Site.Record} {views others : List View}
    {rec : Site.Record} {view : View} (aligned : views.length = past.length)
    (happened : ∀ i rec view e, past[i]? = some rec → views[i]? = some view →
      rec.effect = some e → Happens holds (past.take i) view.before rec.command view.site e)
    (new : ∀ e, rec.effect = some e → Happens holds past view.before rec.command view.site e)
    (last : more = past ++ [rec]) (lastView : others = views ++ [view]) :
    ∀ i rec view e, more[i]? = some rec → others[i]? = some view → rec.effect = some e →
      Happens holds (more.take i) view.before rec.command view.site e := by
  subst last lastView
  intro i rec' view' e atPast atViews effect
  rcases Nat.lt_trichotomy i past.length with before | rfl | behind
  · rw [List.getElem?_append_left before] at atPast
    rw [List.getElem?_append_left (aligned ▸ before)] at atViews
    rw [List.take_append_of_le_length (Nat.le_of_lt before)]
    exact happened i rec' view' e atPast atViews effect
  · rw [List.getElem?_concat_length] at atPast
    rw [← aligned, List.getElem?_concat_length] at atViews
    cases atPast
    cases atViews
    rw [List.take_left]
    exact new e effect
  · rw [List.getElem?_eq_none (by simp only [List.length_append, List.length_singleton]; omega)]
      at atPast
    cases atPast

theorem noted_move (move : Move sc sc') (step : holds sc → holds sc')
    (noted : sc.Noted holds) : sc'.Noted holds := by
  have kept := step noted.held
  cases recording_move move with
  | same past memory =>
    refine ⟨kept, ?_, ?_⟩
    · rw [past, memory]
      exact noted.aligned
    · rw [past, memory]
      exact noted.happened
  | begin free due =>
    refine ⟨kept, by simp [Memory.begin, noted.aligned], ?_⟩
    exact happened_append noted.aligned noted.happened (fun _ effect => by cases effect) rfl rfl
  | effect p h e =>
    refine ⟨kept, by simp [Scene.emit, Memory.see, Scene.alter, noted.aligned], ?_⟩
    refine happened_append noted.aligned noted.happened ?_ rfl rfl
    intro e' same
    cases same
    exact .intro noted.held move rfl

variable {config : Config} {observer : Hook → Nat → Option String} {past : List Site.Record}
  {before : Pool} {c : Option Command} {s : Site}

theorem noted_of_run {now : Nat} (run : Site.Run config observer past now s)
    (step : ∀ {a b : Scene}, Move a b → holds a → holds b)
    (first : holds (Scene.start config observer)) :
    ∃ m, Scene.Noted holds { now, site := s, memory := m, past } := by
  have start : (Scene.start config observer).Noted holds := by
    refine ⟨first, rfl, fun i rec view e atPast => ?_⟩
    rw [show (Scene.start config observer).past = [] from rfl, List.getElem?_nil] at atPast
    cases atPast
  exact run_invariant (Scene.Noted holds) run (fun move => noted_move move (step move)) start

/-- What takes place in the middle of a turn takes place from a moment at which all holds that is
true at the start and kept by every move. -/
theorem happens_of_midst (midst : Site.Midst config observer past before c s (some e))
    (step : ∀ {a b : Scene}, Move a b → holds a → holds b)
    (first : holds (Scene.start config observer)) : Happens holds past before c s e := by
  cases midst with
  | @effect past now later s rest c front back m run order due course here =>
    obtain ⟨memory, noted⟩ := noted_of_run run step first
    have quiet := (path_of_run run).2
    have turned : Scene.Noted holds _ := path_invariant (path_turn order due course quiet)
      (fun move => noted_move move (step move)) noted
    -- The effect stands behind what went before the turn, its beginning, and the front of its log.
    have happened := turned.happened (past.length + (front.length + 1))
      { now := later, command := c, effect := some m.effect, pool := m.pool }
      ⟨s.pool, (course.amid (front.map (·.effect))).withPool m.pool⟩ m.effect ?_ ?_ rfl
    · have taken : (past ++ Site.records later c s.pool (course.turn c)).take
          (past.length + (front.length + 1)) =
            past ++ Site.records later c s.pool { pool := m.pool, log := front } := by
        rw [List.take_length_add_append, Site.records, Site.records, here]
        simp
      rwa [taken] at happened
    · rw [List.getElem?_append_right (Nat.le_add_right _ _), Nat.add_sub_cancel_left, Site.records,
        here]
      simp
    · have same : memory.views.length = past.length := noted.aligned
      rw [Memory.turn, Memory.begin, here, Site.Course.views_append, Site.Course.views]
      rw [← List.append_cons, List.getElem?_append_right (by rw [same]; exact Nat.le_add_right _ _),
        same, Nat.add_sub_cancel_left, List.getElem?_cons_succ,
        List.getElem?_append_right (Nat.le_of_eq (Site.Course.length_views _ _ _ _))]
      simp [Site.Course.length_views]

theorem holds_of_done (midst : Site.Midst config observer past before c s none)
    (step : ∀ {a b : Scene}, Move a b → holds a → holds b)
    (first : holds (Scene.start config observer)) :
    ∃ sc : Scene, holds sc ∧ sc.past = past ∧ sc.memory.before = before ∧ sc.command = c ∧
      sc.site = s ∧ sc.hand = {} := by
  cases midst with
  | @done past now later s rest c run order due course =>
    obtain ⟨memory, held⟩ := run_invariant holds run step first
    have quiet := (path_of_run run).2
    have turned := path_invariant (path_turn order due course quiet) step held
    exact ⟨_, turned, rfl, rfl, rfl, rfl, rfl⟩

/-! ### The moves that have an effect -/

inductive Answering (sc : Scene) : Ticket → Outcome → Hand → Prop where
  | stats {k : Ticket} (task : sc.hand = { task := some (some (.stats k)) }) :
      Answering sc k (.stats sc.pool.stats) {}
  | refuse {k : Ticket} (task : sc.hand = { task := some (some (.acquire k)) })
      (closed : sc.pool.closed = true) : Answering sc k (.failed .poolClosed) {}
  | fail {r : Request} {rs : List Request} {cause : PoolError}
      (held : sc.hand.requests = r :: rs)
      (grounds : cause = .poolClosed → sc.pool.closed = true ∨ sc.site.isReachable = false) :
      Answering sc r.ticket (.failed cause) { sc.hand with requests := rs }
  | lend {r : Request} {id : ConnId} {serial : Serial} (held : sc.hand.requests = [r])
      (conn : sc.hand.conn = some id) :
      Answering sc r.ticket (.loan id serial)
        { sc.hand with requests := [], conn := none, stage := .spare }
  | reply {k : Ticket} {ks : List Ticket} {outcome : Outcome} (owed : sc.hand.replies = k :: ks)
      (plain : outcome = .done ∨ ∃ reason, outcome = .failed (.observer reason)) :
      Answering sc k outcome { sc.hand with replies := ks }

theorem answering_move {k : Ticket} {outcome : Outcome} (move : Move sc sc')
    (eq : sc' = (sc.alter p h).emit (.answer k outcome)) :
    p = { sc.pool with counters := outcome.counted sc.pool.counters } ∧
      Answering sc k outcome h := by
  cases move with
  | refuse task closed =>
    obtain ⟨rfl, rfl, same⟩ := emit_inj eq
    cases same
    exact ⟨rfl, .refuse task closed⟩
  | stats task =>
    obtain ⟨rfl, rfl, same⟩ := emit_inj eq
    cases same
    exact ⟨rfl, .stats task⟩
  | fail held unarmed grounds overdue =>
    obtain ⟨rfl, rfl, same⟩ := emit_inj eq
    cases same
    exact ⟨rfl, .fail held grounds⟩
  | lend held unarmed conn known lent present told =>
    obtain ⟨rfl, rfl, same⟩ := emit_inj eq
    cases same
    exact ⟨rfl, .lend held conn⟩
  | answer owed plain =>
    obtain ⟨rfl, rfl, same⟩ := emit_inj eq
    cases same
    rcases plain with rfl | ⟨reason, rfl⟩
    · exact ⟨rfl, .reply owed (.inl rfl)⟩
    · exact ⟨rfl, .reply owed (.inr ⟨reason, rfl⟩)⟩
  | begin free due => exact absurd eq (ne_emit_begin rfl rfl)
  | _ => first | exact absurd eq (ne_emit rfl) | cases (emit_inj eq).2.2

/-- A connection is opened for a request in hand while none is idle and there is room. -/
theorem connecting_move {r : Request} (move : Move sc sc')
    (eq : sc' = (sc.alter p h).emit (.connect (.owned r))) :
    p = { sc.pool with registry := sc.registry.reserve } ∧ h = { sc.hand with requests := [] } ∧
      sc.hand.requests = [r] ∧ sc.pool.closed = false ∧
      sc.registry.acquired < sc.pool.config.maxConnections := by
  cases move with
  | connect held opened unarmed reachable drained room =>
    obtain ⟨rfl, rfl, same⟩ := emit_inj eq
    cases same
    exact ⟨rfl, rfl, held, opened, room⟩
  | begin free due => exact absurd eq (ne_emit_begin rfl rfl)
  | _ => first | exact absurd eq (ne_emit rfl) | cases (emit_inj eq).2.2

end LoanPool
