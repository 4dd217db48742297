import LoanPool.Proofs.Inspection
import LoanPool.Proofs.Notices

/-!
# What the pool does to a connection

Hooks, health checks, loans and the close of one connection, in the order in which they take place.
How far the pool has come with a connection is its stage: in hand it is what was done last, and
otherwise the one at which it is going to come to hand again, which its slot tells.
-/
namespace LoanPool
open Pending (Request)

inductive Act where
  | hook (h : Hook) (refusal : Option String)
  | check
  | lend (k : Ticket)
  | close
deriving DecidableEq, Repr

def Effect.act? : Effect → Option (Serial × Act)
  | .hook h serial refusal => some (serial, .hook h refusal)
  | .check _ serial _ => some (serial, .check)
  | .answer k (.loan _ serial) => some (serial, .lend k)
  | .close serial => some (serial, .close)
  | _ => none

def Site.acts (past : List Record) (serial : Serial) : List Act :=
  ((past.filterMap fun rec => rec.effect.bind Effect.act?).filter (·.1 = serial)).map (·.2)

def Slot.stage : Slot → Stage
  | .idle => .spare
  | .onLoan => .returned
  | .checking => .judged

inductive Stage.Admits : Stage → Act → Prop where
  | hook {stage : Stage} {h : Hook} {refusal : Option String} (timely : stage.calls h = true) :
      Admits stage (.hook h refusal)
  | lend {k : Ticket} : Admits (.told .acquired none) (.lend k)
  | check : Admits (.told .released none) .check

/-- The connection may go to a caller next, or be put away. -/
def Act.isReady : Act → Bool
  | .hook _ refusal => refusal.isNone
  | .check => true
  | _ => false

inductive Stage.Fits : Stage → Option Act → Prop where
  | spare {a : Act} (ready : a.isReady = true) : Fits .spare (some a)
  | opened : Fits .opened none
  | returned {k : Ticket} : Fits .returned (some (.lend k))
  | judged : Fits .judged (some .check)
  | told {h : Hook} {refusal : Option String} :
      Fits (.told h refusal) (some (.hook h refusal))

namespace Scene

def acts (sc : Scene) (serial : Serial) : List Act :=
  Site.acts sc.past serial

def stage (sc : Scene) (id : ConnId) : Stage :=
  if sc.hand.conn = some id then sc.hand.stage
  else ((sc.registry.slot? id).map Slot.stage).getD .spare

end Scene

variable {sc sc' : Scene} {p : Pool} {h : Hand} {e : Effect} {id : ConnId} {serial : Serial}
  {n : ConnId × Serial}

/-! ### The record -/

theorem acts_concat (past : List Site.Record) (rec : Site.Record) (serial : Serial) :
    Site.acts (past ++ [rec]) serial = Site.acts past serial ++
      ((rec.effect.bind Effect.act?).toList.filter (·.1 = serial)).map (·.2) := by
  rw [Site.acts, Site.filterMap_concat, List.filter_append, List.map_append]
  rfl

theorem acts_emit_self {a : Act} (about : e.act? = some (serial, a)) :
    ((sc.alter p h).emit e).acts serial = sc.acts serial ++ [a] := by
  have told : ((sc.alter p h).emit e).acts serial = _ := acts_concat sc.past _ serial
  rw [told]
  simp [about, Scene.acts]

theorem acts_emit_other (other : ∀ a, e.act? ≠ some (serial, a)) :
    ((sc.alter p h).emit e).acts serial = sc.acts serial := by
  have told : ((sc.alter p h).emit e).acts serial = _ := acts_concat sc.past _ serial
  rw [told]
  cases about : e.act? with
  | none => simp [about, Scene.acts]
  | some act =>
    have elsewhere : act.1 ≠ serial := by
      rintro rfl
      exact other act.2 about
    simp [about, elsewhere, Scene.acts]

theorem acts_begin (past : List Site.Record) (now : Nat) (c : Option Command) (p : Pool)
    (serial : Serial) :
    Site.acts (past ++ [{ now, command := c, pool := p }]) serial = Site.acts past serial :=
  (acts_concat _ _ _).trans (List.append_nil _)

/-! ### Stages -/

theorem stage_held (held : sc.hand.conn = some id) : sc.stage id = sc.hand.stage :=
  if_pos held

theorem stage_put {slot : Slot} (unheld : sc.hand.conn ≠ some id)
    (known : sc.registry.slot? id = some slot) : sc.stage id = slot.stage := by
  rw [Scene.stage, if_neg unheld, known]
  rfl

theorem stage_same (hand : sc'.hand.conn = some id ↔ sc.hand.conn = some id)
    (held : sc.hand.conn = some id → sc'.hand.stage = sc.hand.stage)
    (slot : sc.hand.conn ≠ some id → sc'.registry.slot? id = sc.registry.slot? id) :
    sc'.stage id = sc.stage id := by
  by_cases here : sc.hand.conn = some id
  · rw [stage_held here, stage_held (hand.mpr here), held here]
  · rw [Scene.stage, Scene.stage, if_neg here, if_neg (mt hand.mp here), slot here]

/-- Two connections of a pool have neither their names nor themselves in common. -/
theorem apart_of_opened (attended : sc.Attended) {n' : ConnId × Serial}
    (first : n ∈ Site.opened sc.past) (second : n' ∈ Site.opened sc.past) :
    n = n' ∨ n.1 ≠ n'.1 ∧ n.2 ≠ n'.2 := by
  by_cases names : n.1 = n'.1
  · exact .inl (eq_of_opened attended.watched.traced first second names)
  by_cases serials : n.2 = n'.2
  · have once := attended.upkept.arrivals n.2
    have few : (Site.opened sc.past).countP (fun m => m.2 = n.2) ≤ 1 := by
      rw [Scene.arrivals] at once
      split at once <;> omega
    exact .inl (Keyed.eq_of_countP_le_one few first (by simp) second (by simp [serials]))
  · exact .inr ⟨names, serials⟩

theorem apart_of_named (attended : sc.Attended) {n' : ConnId × Serial}
    (first : n ∈ sc.registry.names) (second : n' ∈ sc.registry.names) :
    n = n' ∨ n.1 ≠ n'.1 ∧ n.2 ≠ n'.2 :=
  apart_of_opened attended (attended.watched.traced.named n first)
    (attended.watched.traced.named n' second)

/-! ### What a move does -/

inductive Conduct (sc sc' : Scene) (n : ConnId × Serial) : Prop where
  | same (known : n ∈ sc'.registry.names) (acts : sc'.acts n.2 = sc.acts n.2)
      (stage : sc'.stage n.1 = sc.stage n.1)
  | shelved (known : n ∈ sc'.registry.names) (acts : sc'.acts n.2 = sc.acts n.2)
      (ready : (sc.stage n.1).isReady = true) (stage : sc'.stage n.1 = .spare)
  | acted {a : Act} (known : n ∈ sc'.registry.names) (acts : sc'.acts n.2 = sc.acts n.2 ++ [a])
      (admits : (sc.stage n.1).Admits a) (stage : (sc'.stage n.1).Fits (some a))
      (welcome : sc.stage n.1 = .opened → sc.pool.closed = false)
  | closed (gone : n ∉ sc'.registry.names) (acts : sc'.acts n.2 = sc.acts n.2 ++ [.close])
      (unwelcome : sc.stage n.1 = .opened → sc.pool.closed = true)
  | forgotten (gone : n ∉ sc'.registry.names) (acts : sc'.acts n.2 = sc.acts n.2)
      (unheld : sc.hand.conn ≠ some n.1)

theorem mem_names_alter (names : p.registry.names = sc.registry.names)
    (known : n ∈ sc.registry.names) : n ∈ (sc.alter p h).registry.names :=
  names ▸ known

theorem mem_names_emit (names : p.registry.names = sc.registry.names)
    (known : n ∈ sc.registry.names) : n ∈ ((sc.alter p h).emit e).registry.names := by
  simpa only [Scene.registry, Scene.pool_emit, Scene.pool_alter, names] using known

theorem conduct_alter (known : n ∈ sc.registry.names)
    (names : p.registry.names = sc.registry.names)
    (stage : (sc.alter p h).stage n.1 = sc.stage n.1) : Conduct sc (sc.alter p h) n :=
  .same (mem_names_alter names known) rfl stage

theorem conduct_aside (known : n ∈ sc.registry.names) (conn : h.conn = sc.hand.conn)
    (stage : h.stage = sc.hand.stage) (names : p.registry.names = sc.registry.names)
    (slot : p.registry.slot? n.1 = sc.registry.slot? n.1) : Conduct sc (sc.alter p h) n := by
  refine conduct_alter known names (stage_same ?_ ?_ ?_)
  · rw [← conn]
    rfl
  · exact fun _ => stage
  · exact fun _ => slot

theorem conduct_say (known : n ∈ sc.registry.names) (conn : h.conn = sc.hand.conn)
    (stage : h.stage = sc.hand.stage) (names : p.registry.names = sc.registry.names)
    (slot : p.registry.slot? n.1 = sc.registry.slot? n.1) (silent : e.act? = none) :
    Conduct sc ((sc.alter p h).emit e) n := by
  refine .same (mem_names_emit names known) (acts_emit_other fun a about => ?_)
    (stage_same ?_ ?_ ?_)
  · cases silent.symm.trans about
  · rw [Scene.hand_emit, Scene.hand_alter, ← conn]
  · exact fun _ => stage
  · exact fun _ => (slot_emit p h e).trans slot

theorem conduct_act {c : Option Command} (task : sc.hand = { task := some c })
    (known : n ∈ sc.registry.names) (unheld : h.conn ≠ some n.1)
    (names : p.registry.names = sc.registry.names)
    (slot : p.registry.slot? n.1 = sc.registry.slot? n.1) : Conduct sc (sc.alter p h) n := by
  have before : sc.hand.conn ≠ some n.1 := by
    rw [task]
    exact ne_of_none
  exact conduct_alter known names
    (stage_same (iff_of_false unheld before) (fun held => absurd held before) fun _ => slot)

theorem conduct_act_say {c : Option Command} (task : sc.hand = { task := some c })
    (known : n ∈ sc.registry.names) (unheld : h.conn ≠ some n.1)
    (names : p.registry.names = sc.registry.names)
    (slot : p.registry.slot? n.1 = sc.registry.slot? n.1) (silent : e.act? = none) :
    Conduct sc ((sc.alter p h).emit e) n := by
  have before : sc.hand.conn ≠ some n.1 := by
    rw [task]
    exact ne_of_none
  refine .same (mem_names_emit names known) (acts_emit_other fun a about => ?_)
    (stage_same (iff_of_false unheld before) (fun held => absurd held before) fun _ => ?_)
  · cases silent.symm.trans about
  · exact (slot_emit p h e).trans slot

theorem conduct_close (attended : sc.Attended) (known : n ∈ sc.registry.names)
    {confirms : Serial → Bool} {r : Registry}
    (removed : sc.registry.discard? confirms id = some (serial, r))
    (others : id ≠ n.1 → (sc.withRegistry r h).stage n.1 = sc.stage n.1)
    (unwelcome : id = n.1 → sc.stage id = .opened → sc.pool.closed = true) :
    Conduct sc ((sc.withRegistry r h).emit (.close serial)) n := by
  have names := Registry.names_discard? removed
  have here := Registry.mem_names_of_discard? removed
  rcases apart_of_named attended here known with rfl | ⟨other, elsewhere⟩
  · apply Conduct.closed ?_ (acts_emit_self rfl) (unwelcome rfl)
    simp only [Scene.registry, Scene.pool_emit, Scene.pool_alter, names, List.mem_filter]
    simp
  · apply Conduct.same ?_ (acts_emit_other ?_)
    · have kept : ((sc.withRegistry r h).emit (.close serial)).stage n.1 =
          (sc.withRegistry r h).stage n.1 := by
        simp only [Scene.stage, Scene.hand_emit, Scene.registry, Scene.pool_emit]
      exact kept.trans (others other)
    · simp only [Scene.registry, Scene.pool_emit, Scene.pool_alter, names, List.mem_filter]
      exact ⟨known, by simpa using Ne.symm other⟩
    · rintro a about
      cases about
      exact elsewhere rfl

theorem conduct_deed (attended : sc.Attended) (known : n ∈ sc.registry.names) {a : Act}
    (held : sc.hand.conn = some id) (here : sc.registry.serial? id = some serial)
    (about : e.act? = some (serial, a)) (admits : sc.hand.stage.Admits a)
    (after : h.conn = some id ∧ h.stage.Fits (some a) ∨
      h.conn = none ∧ ∃ slot, sc.registry.slot? id = some slot ∧ slot.stage.Fits (some a))
    (welcome : sc.hand.stage = .opened → sc.pool.closed = false) :
    Conduct sc ((sc.alter sc.pool h).emit e) n := by
  have named := Registry.mem_names_of_serial? here
  rcases apart_of_named attended named known with rfl | ⟨other, elsewhere⟩
  · apply Conduct.acted (mem_names_emit rfl known) (acts_emit_self about)
    · rw [stage_held held]
      exact admits
    · rcases after with ⟨kept, fits⟩ | ⟨empty, slot, put, fits⟩
      · have stage : ((sc.alter sc.pool h).emit e).stage id = h.stage := stage_held kept
        exact stage ▸ fits
      · have unheld : ((sc.alter sc.pool h).emit e).hand.conn ≠ some id := empty ▸ ne_of_none
        rw [stage_put unheld ((slot_emit sc.pool h e).trans put)]
        exact fits
    · rw [stage_held held]
      exact welcome
  · have unheld : sc.hand.conn ≠ some n.1 := by
      rw [held]
      exact fun eq => other (Option.some.inj eq)
    have gone : h.conn ≠ some n.1 := by
      rcases after with ⟨kept, -⟩ | ⟨empty, -⟩
      · rw [kept, ← held]
        exact unheld
      · rw [empty]
        exact ne_of_none
    apply Conduct.same (mem_names_emit rfl known) (acts_emit_other ?_)
    · exact stage_same (iff_of_false gone unheld) (fun held => absurd held unheld)
        fun _ => slot_emit sc.pool h e
    · intro a' about'
      cases about.symm.trans about'
      exact elsewhere rfl

theorem conduct_event {later : Nat} {e : Site.Event} (known : n ∈ sc.registry.names) :
    Conduct sc { sc with now := later, site := sc.site.happen e } n := by
  refine .same ?_ rfl (stage_same .rfl (fun _ => rfl) fun _ => ?_)
  · simpa only [Scene.registry, Site.pool_happen] using known
  · simp only [Scene.registry, Site.pool_happen]

theorem conduct_begin {c : Option Command} {rest : Site} (free : sc.hand = {})
    (due : sc.site.next? = some (c, rest)) (known : n ∈ sc.registry.names) :
    Conduct sc
      { sc with
        site := rest
        hand := { task := some c }
        memory := sc.memory.begin c sc.site
        past := sc.past ++ [{ now := sc.now, command := c, pool := sc.pool }] } n := by
  refine .same ?_ (acts_begin _ _ _ _ _) (stage_same ?_ ?_ fun _ => ?_)
  · simpa only [Scene.registry, Site.pool_next? due] using known
  · rw [free]
  · rw [free]
    nofun
  · simp only [Scene.registry, Site.pool_next? due]

theorem conduct_connectDone (a : sc.Accounted) {target : Target}
    (task : sc.hand = { task := some (some (.connected target (.ok serial))) })
    (known : n ∈ sc.registry.names) :
    Conduct sc ((sc.alter
      { sc.pool with
        registry := sc.registry.register ⟨sc.pool.nextConn⟩ serial
        nextConn := sc.pool.nextConn + 1
        counters := { sc.pool.counters with created := sc.pool.counters.created + 1 } }
      { conn := some ⟨sc.pool.nextConn⟩, stage := .opened, requests := target.requests }).emit
        (.listen ⟨sc.pool.nextConn⟩ serial)) n := by
  have older : n.1 ≠ ⟨sc.pool.nextConn⟩ := by
    intro same
    have listed : n.1 ∈ sc.registry.ids := by
      rw [Registry.ids_eq_names]
      exact List.mem_map_of_mem known
    exact unnamed_of_accounted a (same ▸ listed)
  have unheld : sc.hand.conn ≠ some n.1 := by
    rw [task]
    exact ne_of_none
  refine .same ?_ (acts_emit_other nofun) (stage_same (iff_of_false ?_ unheld)
    (fun held => absurd held unheld) fun _ => ?_)
  · simp only [Scene.registry, Scene.pool_emit, Scene.pool_alter,
      Registry.names_register (unnamed_of_accounted a)]
    exact List.mem_append_left _ known
  · exact fun held => older (Option.some.inj held).symm
  · rw [slot_emit, Registry.slot?_register, if_neg older]

theorem conduct_take (known : n ∈ sc.registry.names) (empty : sc.hand.conn = none)
    (conn : h.conn = some id) {slot : Slot} (from_slot : sc.registry.slot? id = some slot)
    (stage : h.stage = slot.stage) (names : p.registry.names = sc.registry.names)
    (others : n.1 ≠ id → p.registry.slot? n.1 = sc.registry.slot? n.1) :
    Conduct sc (sc.alter p h) n := by
  have unheld : sc.hand.conn ≠ some n.1 := by
    rw [empty]
    exact ne_of_none
  apply conduct_alter known names
  by_cases same : n.1 = id
  · subst same
    have held : (sc.alter p h).hand.conn = some n.1 := conn
    rw [stage_put unheld from_slot, stage_held held]
    exact stage
  · have after : h.conn ≠ some n.1 := by
      rw [conn]
      exact fun eq => same (Option.some.inj eq).symm
    exact stage_same (iff_of_false after unheld) (fun held => absurd held unheld)
      fun _ => others same

theorem conduct_shelve (known : n ∈ sc.registry.names) (held : sc.hand.conn = some id)
    (ready : sc.hand.stage.isReady = true) (moved : sc.registry.Moved p.registry)
    (slot : ∀ i, p.registry.slot? i = if i = id then some .idle else sc.registry.slot? i) :
    Conduct sc (sc.alter p { sc.hand with conn := none, stage := .spare }) n := by
  have after : (sc.alter p { sc.hand with conn := none, stage := .spare }).hand.conn ≠ some n.1 :=
    ne_of_none
  by_cases same : n.1 = id
  · subst same
    refine .shelved (mem_names_alter moved.names known) rfl ?_ ?_
    · rw [stage_held held]
      exact ready
    · have put : (sc.alter p { sc.hand with conn := none, stage := .spare }).registry.slot? n.1 =
          some .idle := (slot n.1).trans (if_pos rfl)
      exact stage_put after put
  · have unheld : sc.hand.conn ≠ some n.1 := by
      rw [held]
      exact fun eq => same (Option.some.inj eq).symm
    exact conduct_alter known moved.names (stage_same (iff_of_false after unheld)
      (fun held => absurd held unheld) fun _ => (slot n.1).trans (if_neg same))

theorem conduct_forget (task : sc.hand = { task := some (some (.closed id)) })
    (known : n ∈ sc.registry.names) :
    Conduct sc (sc.withRegistry (sc.registry.forget id).2 {}) n := by
  have unheld : sc.hand.conn ≠ some n.1 := by
    rw [task]
    exact ne_of_none
  by_cases same : n.1 = id
  · refine .forgotten ?_ rfl unheld
    simp only [Scene.registry, Scene.pool_alter, Registry.names_forget, List.mem_filter]
    simp [same]
  · refine .same ?_ rfl (stage_same (iff_of_false ne_of_none unheld)
      (fun held => absurd held unheld) fun _ => ?_)
    · simp only [Scene.registry, Scene.pool_alter, Registry.names_forget, List.mem_filter]
      exact ⟨known, by simpa using same⟩
    · exact Registry.slot?_forget.trans (if_neg same)

theorem conduct_move (attended : sc.Attended) (move : Move sc sc')
    (known : n ∈ sc.registry.names) : Conduct sc sc' n := by
  have a := attended.watched.kept.accounted
  cases move with
  | event order allowed => exact conduct_event known
  | wait order => exact .same known rfl rfl
  | begin free due => exact conduct_begin free due known
  | dismiss task moot => exact conduct_act task known ne_of_none rfl rfl
  | refuse task closed => exact conduct_act_say task known ne_of_none rfl rfl rfl
  | acquire task opened quiet => exact conduct_act task known ne_of_none rfl rfl
  | stats task => exact conduct_act_say task known ne_of_none rfl rfl rfl
  | shut task ends opened => exact conduct_act task known ne_of_none rfl rfl
  | seize task back closed honest removed =>
    have unheld : ∀ i, sc.hand.conn ≠ some i := by
      rw [task]
      exact fun _ => ne_of_none
    refine conduct_close attended known removed (fun other => ?_) fun _ _ => closed
    exact stage_same (iff_of_false ne_of_none (unheld _)) (fun held => absurd held (unheld _))
      fun _ => (Registry.slot?_discard? removed).trans (if_neg (Ne.symm other))
  | takeBack task back opened lent =>
    obtain ⟨onLoan, slots⟩ := Registry.slot?_beginCheck? lent
    exact conduct_take known (congrArg Hand.conn task) rfl onLoan rfl
      (Registry.moved_beginCheck? lent).names fun other => (slots n.1).trans (if_neg other)
  | connectDone task => exact conduct_connectDone a task known
  | connectFailed task => exact conduct_act task known ne_of_none rfl rfl
  | @verdict id healthy reply task checking =>
    have slot : sc.registry.slot? id = some .checking := by
      simpa [Registry.isChecking] using checking
    exact conduct_take known (congrArg Hand.conn task) rfl slot rfl rfl fun _ => rfl
  | expire task queued lost => exact conduct_act task known ne_of_none rfl rfl
  | overflow task queued due reachable drained =>
    exact conduct_act_say task known ne_of_none rfl rfl rfl
  | forget task => exact conduct_forget task known
  | checkout free empty opened taken =>
    obtain ⟨idle, -⟩ := Registry.slot?_checkout?_self a.balanced taken
    exact conduct_take known empty rfl idle rfl (Registry.moved_checkout? taken).names
      fun other => (Registry.slot?_checkout? taken).trans (if_neg other)
  | lose held unknown =>
    obtain ⟨slot, registered, -⟩ := a.held _ held
    obtain ⟨e, found, -⟩ := Registry.find?_of_slot? registered
    rw [unknown] at found
    cases found
  | discard held honest removed unwelcome =>
    refine conduct_close attended known removed (fun other => ?_) fun _ => ?_
    · have unheld : sc.hand.conn ≠ some n.1 := by
        rw [held]
        exact fun eq => other (Option.some.inj eq)
      exact stage_same (iff_of_false ne_of_none unheld) (fun held => absurd held unheld)
        fun _ => (Registry.slot?_discard? removed).trans (if_neg (Ne.symm other))
    · rw [stage_held held]
      exact unwelcome
  | evict free empty closed honest removed =>
    refine conduct_close attended known removed (fun other => ?_) fun _ _ => closed
    exact stage_same .rfl (fun _ => rfl)
      fun _ => (Registry.slot?_discard? removed).trans (if_neg (Ne.symm other))
  | @handOver id held fit =>
    refine conduct_alter known Registry.moved_handOver.names (stage_same .rfl (fun _ => rfl) ?_)
    intro unheld
    have other : ¬n.1 = id := fun same => unheld (same ▸ held)
    exact Registry.slot?_handOver.trans (if_neg fun here => other here.1)
  | checkIn held unwanted kept fit ready =>
    obtain ⟨slot, registered, used⟩ := a.held _ held
    exact conduct_shelve known held ready Registry.moved_checkIn?
      fun i => Registry.slot?_checkIn? registered used
  | putBack held unwanted lent spare =>
    obtain ⟨slot, registered, used⟩ := a.held _ held
    exact conduct_shelve known held (congrArg Stage.isReady spare) Registry.moved_putBack?
      fun i => Registry.slot?_putBack? registered used
  | @hook id serial h refusal held here heard timely welcome =>
    refine conduct_deed attended known held here rfl (.hook timely) (.inl ⟨held, .told⟩) ?_
    -- A new connection is called for the first hook only.
    intro opened
    rw [opened] at timely
    cases h with
    | created => exact welcome rfl
    | acquired => cases timely
    | released => cases timely
  | @check id serial reply held replies reachable here checking back told =>
    have slot : sc.registry.slot? id = some .checking := by
      simpa [Registry.isChecking] using checking
    refine conduct_deed attended known held here rfl (told ▸ .check)
      (.inr ⟨rfl, .checking, slot, .judged⟩) ?_
    intro opened
    cases told.symm.trans opened
  | lend held unarmed conn here lent present told promised =>
    refine conduct_deed attended known conn here rfl (told ▸ .lend)
      (.inr ⟨rfl, .onLoan, lent, .returned⟩) ?_
    intro opened
    cases told.symm.trans opened
  | answer owed plain =>
    rcases plain with rfl | ⟨reason, rfl⟩ <;> exact conduct_say known rfl rfl rfl rfl rfl
  | await owed => exact conduct_aside known (by rw [owed]) (by rw [owed]) rfl rfl
  | report free closed complete => exact conduct_aside known (by rw [free]) (by rw [free]) rfl rfl
  | _ =>
    first
    | exact conduct_aside known rfl rfl rfl rfl
    | exact conduct_say known rfl rfl rfl rfl rfl

end LoanPool
