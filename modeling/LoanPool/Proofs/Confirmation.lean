import LoanPool.Proofs.Accounting
import LoanPool.Proofs.Ends

/-!
# Connections and their close signals

A connection that the pool has had is registered, or it was told to close and is remembered until
its close is noticed, or its close signal has fired. A signal that has fired stays so.
-/
namespace LoanPool

def Effect.opened? : Effect → Option (ConnId × Serial)
  | .listen id serial => some (id, serial)
  | _ => none

def Effect.closes? : Effect → Option Serial
  | .close serial => some serial
  | _ => none

/-- One connection at two moments. A fired signal stays so, and no request to close is undone. -/
structure Connection.Onward (c c' : Connection) : Prop where
  fired : c.fired = true → c'.fired = true
  closes : c.closes ≤ c'.closes

namespace Site

def opened (past : List Record) : List (ConnId × Serial) :=
  past.filterMap fun rec => rec.effect.bind Effect.opened?

def closings (past : List Record) : List Serial :=
  past.filterMap fun rec => rec.effect.bind Effect.closes?

def Fired (s : Site) (serial : Serial) : Prop :=
  ∃ c, s.connection? serial = some c ∧ c.fired = true

def Told (s : Site) (serial : Serial) : Prop :=
  ∃ c, s.connection? serial = some c ∧ 0 < c.closes

def brings (s : Site) : Event → List Command
  | .connected job result =>
    (s.connectJob? job).toList.map fun j => .connected j.target (result.map (·.1))
  | .checked job healthy => (s.checkJob? job).toList.map fun j => .checked j.id healthy j.reply
  | _ => []

variable {s : Site} {serial k : Serial} {c : Connection} {e : Event} {now : Nat}

/-! ### Connections go on -/

theorem onward_refl (c : Connection) : c.Onward c :=
  ⟨id, Nat.le_refl _⟩

theorem onward_close (c : Connection) : c.Onward c.close := by
  refine ⟨fun fired => ?_, Nat.le_succ _⟩
  simp [Connection.close, Connection.confirms, fired]

theorem lookup_modify (s : Site) (serial k : Serial) (f : Connection → Connection) :
    (s.modify serial f).connection? k =
      if k = serial then (s.connection? k).map f else s.connection? k := by
  simp only [modify, connection?]
  induction s.connections with
  | nil => simp
  | cons first rest ih =>
    obtain ⟨key, value⟩ := first
    by_cases same : k = key
    · subst same
      by_cases hit : k = serial <;> simp [hit]
    · have skip : (k == key) = false := beq_eq_false_iff_ne.mpr same
      by_cases hit : key = serial
      · subst hit
        simp only [List.map_cons, if_true, List.lookup_cons, skip, ih]
      · simp only [List.map_cons, hit, if_false, List.lookup_cons, skip, ih]

theorem connection_modify {f : Connection → Connection}
    (onward : ∀ c : Connection, c.Onward (f c))
    (known : s.connection? k = some c) (serial : Serial) :
    ∃ c', (s.modify serial f).connection? k = some c' ∧ c.Onward c' := by
  rw [lookup_modify, known]
  split
  · exact ⟨f c, rfl, onward c⟩
  · exact ⟨c, rfl, onward_refl c⟩

theorem connections_report (c : Command) : (s.report c).connections = s.connections := by
  simp only [report]
  split <;> rfl

theorem connection_happen (known : s.connection? k = some c) (e : Event) :
    ∃ c', (s.happen e).connection? k = some c' ∧ c.Onward c' := by
  -- Only peers do anything to a connection; a new one stands behind those that were there.
  have kept : ∀ {s' : Site}, s'.connections = s.connections →
      ∃ c', s'.connection? k = some c' ∧ c.Onward c' := by
    intro s' same
    exact ⟨c, by rw [connection?, same]; exact known, onward_refl c⟩
  cases e with
  | release k' reply =>
    simp only [happen, release]
    split <;> exact kept rfl
  | read k' =>
    simp only [happen, read]
    split <;> exact kept rfl
  | abandon k' =>
    simp only [happen, abandon]
    split
    · exact kept rfl
    · exact kept (connections_report _)
    · exact kept rfl
    · exact kept rfl
  | dropLoan k' =>
    simp only [happen, dropLoan]
    split
    · exact kept (connections_report _)
    · exact kept rfl
  | kill serial =>
    exact connection_modify (f := Connection.kill) (fun _ => ⟨id, Nat.le_refl _⟩) known serial
  | fire serial =>
    exact connection_modify (f := fun c => c.fire.2) (fun _ => ⟨fun _ => rfl, Nat.le_refl _⟩)
      known serial
  | shut serial => exact connection_modify onward_close known serial
  | connected job result =>
    simp only [happen, finishConnect]
    split
    · exact kept rfl
    · cases result with
      | error cause => exact kept rfl
      | ok opened =>
        refine ⟨c, ?_, onward_refl c⟩
        simp only [connection?] at known
        simp only [connection?, send, List.lookup_append, known, Option.some_or]
  | checked job healthy =>
    simp only [happen, finishCheck]
    split <;> exact kept rfl
  | deadline timer =>
    simp only [happen, passDeadline]
    split
    · exact kept rfl
    · exact kept (connections_report _)
  | notice id => exact kept (connections_report _)
  | _ => exact kept rfl

theorem connection_enact (known : s.connection? k = some c) (now : Nat) (e : Effect) :
    ∃ c', (s.enact now e).connection? k = some c' ∧ c.Onward c' := by
  cases e with
  | close serial => exact connection_modify onward_close known serial
  | answer k' outcome =>
    simp only [enact]
    split <;> exact ⟨c, known, onward_refl c⟩
  | _ => exact ⟨c, known, onward_refl c⟩

theorem connections_next? {rest : Site} {c : Option Command}
    (due : s.next? = some (c, rest)) : rest.connections = s.connections := by
  cases next_of_due due <;> rfl

theorem listeners_next? {rest : Site} {c : Option Command}
    (due : s.next? = some (c, rest)) : rest.listeners = s.listeners := by
  cases next_of_due due <;> rfl

/-! ### What comes to the pool -/

theorem mailbox_report (c : Command) :
    (s.report c).mailbox = s.mailbox ++ if s.isReachable then [c] else [] := by
  simp only [report]
  split <;> simp [send]

theorem mailbox_happen (s : Site) (e : Event) :
    (s.happen e).mailbox = s.mailbox ++ (s.sends e ++ s.brings e) := by
  have silent : s.mailbox = s.mailbox ++ ([] ++ []) := (List.append_nil _).symm
  have reported : ∀ {s' : Site} (c : Command), s'.mailbox = s.mailbox →
      s'.isReachable = s.isReachable →
        (s'.report c).mailbox = s.mailbox ++ ((if s.isReachable then [c] else []) ++ []) := by
    intro s' c mailbox reachable
    rw [mailbox_report, mailbox, reachable, List.append_nil]
  cases e with
  | acquire k => rfl
  | close k => rfl
  | stats k => rfl
  | release k reply =>
    simp only [happen, release, sends, brings]
    cases s.standing k with
    | holding id serial => rfl
    | _ => exact silent
  | read k =>
    simp only [happen, read, sends, brings]
    split <;> exact silent
  | abandon k =>
    simp only [happen, abandon, sends, brings]
    cases s.standing k with
    | answered outcome =>
      cases outcome with
      | loan id serial => exact reported _ rfl rfl
      | _ => exact silent
    | _ => exact silent
  | dropLoan k =>
    simp only [happen, dropLoan, sends, brings]
    cases s.standing k with
    | holding id serial => exact reported _ rfl rfl
    | _ => exact silent
  | connected job result =>
    simp only [happen, finishConnect, sends, brings]
    cases s.connectJob? job with
    | none => exact silent
    | some j => cases result <;> rfl
  | checked job healthy =>
    simp only [happen, finishCheck, sends, brings]
    cases s.checkJob? job with
    | none => exact silent
    | some j => rfl
  | deadline timer =>
    simp only [happen, passDeadline, sends, brings]
    cases s.deadlines.find? (·.timer = timer) with
    | none => exact silent
    | some d => exact reported _ rfl rfl
  | notice id => exact reported _ rfl rfl
  | _ => exact silent

theorem notice_of_sends {id : ConnId} (sent : Command.closed id ∈ s.sends e) : e = .notice id := by
  cases e with
  | notice id' =>
    simp only [sends] at sent
    split at sent
    · cases List.mem_singleton.mp sent
      rfl
    · cases sent
  | release k reply =>
    simp only [sends] at sent
    split at sent <;> simp at sent
  | abandon k =>
    simp only [sends] at sent
    split at sent
    · split at sent <;> simp at sent
    · simp at sent
  | dropLoan k =>
    simp only [sends] at sent
    split at sent
    · split at sent <;> simp at sent
    · simp at sent
  | deadline timer =>
    simp only [sends] at sent
    split at sent
    · split at sent <;> simp at sent
    · simp at sent
  | _ => simp [sends] at sent

theorem not_closed_of_brings {id : ConnId} : Command.closed id ∉ s.brings e := by
  cases e with
  | connected job result => simp [brings]
  | checked job healthy => simp [brings]
  | _ => simp [brings]

theorem known_of_brings {target : Target}
    (brought : Command.connected target (.ok serial) ∈ s.brings e) :
    ((s.happen e).connection? serial).isSome := by
  cases e with
  | connected job result =>
    simp only [brings, List.mem_map, Option.mem_toList, Command.connected.injEq] at brought
    obtain ⟨j, found, -, result'⟩ := brought
    cases result with
    | error cause => cases result'
    | ok opened =>
      cases result'
      simp only [happen, finishConnect, found, connection?, send, List.lookup_append]
      simp
  | checked job healthy => simp [brings] at brought
  | _ => simp [brings] at brought

theorem listeners_report (c : Command) : (s.report c).listeners = s.listeners := by
  simp only [report]
  split <;> rfl

/-- Listeners go when they have noticed what they listen for. -/
theorem listeners_happen (s : Site) (e : Event) :
    (s.happen e).listeners = s.listeners ∨
      ∃ id, e = .notice id ∧ (s.happen e).listeners = s.listeners.filter (·.id ≠ id) := by
  cases e with
  | release k reply =>
    left
    simp only [happen, release]
    split <;> rfl
  | read k =>
    left
    simp only [happen, read]
    split <;> rfl
  | abandon k =>
    left
    simp only [happen, abandon]
    split
    · rfl
    · exact listeners_report _
    · rfl
    · rfl
  | dropLoan k =>
    left
    simp only [happen, dropLoan]
    split
    · exact listeners_report _
    · rfl
  | connected job result =>
    left
    simp only [happen, finishConnect]
    split
    · rfl
    · split <;> rfl
  | checked job healthy =>
    left
    simp only [happen, finishCheck]
    split <;> rfl
  | deadline timer =>
    left
    simp only [happen, passDeadline]
    split
    · rfl
    · exact listeners_report _
  | notice id => exact .inr ⟨id, rfl, listeners_report _⟩
  | _ => exact .inl rfl

end Site

def Scene.commands (sc : Scene) : List Command :=
  sc.hand.task.join.toList ++ sc.site.mailbox

variable {sc sc' : Scene} {past : List Site.Record} {id : ConnId} {serial : Serial}
  {c : Connection}

/-! ### What moves do -/

theorem opened_concat (past : List Site.Record) (rec : Site.Record) :
    Site.opened (past ++ [rec]) =
      Site.opened past ++ (rec.effect.bind Effect.opened?).toList :=
  Site.filterMap_concat _ past rec

theorem opened_alter_emit (p : Pool) (h : Hand) (e : Effect) :
    Site.opened ((sc.alter p h).emit e).past = Site.opened sc.past ++ e.opened?.toList :=
  opened_concat _ _

theorem closings_concat (past : List Site.Record) (rec : Site.Record) :
    Site.closings (past ++ [rec]) =
      Site.closings past ++ (rec.effect.bind Effect.closes?).toList :=
  Site.filterMap_concat _ past rec

theorem closings_alter_emit (p : Pool) (h : Hand) (e : Effect) :
    Site.closings ((sc.alter p h).emit e).past = Site.closings sc.past ++ e.closes?.toList :=
  closings_concat _ _

theorem connection_move (move : Move sc sc') (known : sc.site.connection? serial = some c) :
    ∃ c', sc'.site.connection? serial = some c' ∧ c.Onward c' := by
  have shift := shift_move move
  generalize sc'.site = after at shift
  cases shift with
  | event allowed => exact Site.connection_happen known _
  | begin due =>
    refine ⟨c, ?_, Site.onward_refl c⟩
    rw [Site.connection?, Site.connections_next? due]
    exact known
  | pool p => exact ⟨c, known, Site.onward_refl c⟩
  | @effect p h e reachable =>
    exact Site.connection_enact (s := sc.site.withPool p) known sc.now e

theorem fired_move (move : Move sc sc') (fired : sc.site.Fired serial) : sc'.site.Fired serial := by
  obtain ⟨c, known, fired⟩ := fired
  obtain ⟨c', known', onward⟩ := connection_move move known
  exact ⟨c', known', onward.fired fired⟩

theorem connection_told_move (move : Move sc sc') (told : sc.site.Told serial) :
    sc'.site.Told serial := by
  obtain ⟨c, known, told⟩ := told
  obtain ⟨c', known', onward⟩ := connection_move move known
  exact ⟨c', known', Nat.lt_of_lt_of_le told onward.closes⟩

theorem isSome_connection_move (move : Move sc sc') (known : (sc.site.connection? serial).isSome) :
    (sc'.site.connection? serial).isSome := by
  obtain ⟨c, known⟩ := Option.isSome_iff_exists.mp known
  obtain ⟨c', known', -⟩ := connection_move move known
  exact Option.isSome_iff_exists.mpr ⟨c', known'⟩

theorem Site.mailbox_next? {s rest : Site} {c : Option Command}
    (due : s.next? = some (c, rest)) : s.mailbox = c.toList ++ rest.mailbox := by
  cases next_of_due due with
  | command oldest => exact oldest
  | ending empty lost => rfl

theorem mailbox_move (move : Move sc sc') {c : Command} (member : c ∈ sc'.site.mailbox) :
    c ∈ sc.site.mailbox ∨ ∃ later e, sc.site.allows later e = true ∧ sc'.site = sc.site.happen e ∧
      (c ∈ sc.site.sends e ∨ c ∈ sc.site.brings e) := by
  have shift := shift_move move
  generalize sc'.site = after at shift member ⊢
  cases shift with
  | @event later e allowed =>
    rw [Site.mailbox_happen, List.mem_append, List.mem_append] at member
    exact member.imp_right fun new => ⟨later, e, allowed, rfl, new⟩
  | begin due =>
    rw [Site.mailbox_next? due]
    exact .inl (List.mem_append_right _ member)
  | pool p => exact .inl member
  | @effect p h e reachable =>
    exact .inl ((Site.mailbox_enact (sc.site.withPool p) sc.now e) ▸ member)

theorem commands_move (move : Move sc sc') {c : Command} (member : c ∈ sc'.commands) :
    c ∈ sc.commands ∨ ∃ later e, sc.site.allows later e = true ∧ sc'.site = sc.site.happen e ∧
      (c ∈ sc.site.sends e ∨ c ∈ sc.site.brings e) := by
  rcases List.mem_append.mp member with task | waiting
  · left
    cases tasking_move move with
    | kept same => exact List.mem_append_left _ (same ▸ task)
    | begun free due begun =>
      refine List.mem_append_right _ ?_
      rw [begun, Option.join_some] at task
      rw [Site.mailbox_next? due]
      exact List.mem_append_left _ task
    | acted before done ends =>
      rw [done] at task
      cases task
  · exact (mailbox_move move waiting).imp_left (List.mem_append_right _)

/-! ### The connections of a pool -/

inductive Tracing (sc sc' : Scene) : Prop where
  | same (opened : Site.opened sc'.past = Site.opened sc.past)
      (names : sc'.registry.names = sc.registry.names)
      (closing : sc'.registry.closing = sc.registry.closing)
      (closings : Site.closings sc'.past = Site.closings sc.past)
  | registered {target : Target} {serial : Serial}
      (task : sc.hand = { task := some (some (.connected target (.ok serial))) })
      (opened : Site.opened sc'.past = Site.opened sc.past ++ [(⟨sc.pool.nextConn⟩, serial)])
      (done : sc'.registry = sc.registry.register ⟨sc.pool.nextConn⟩ serial)
      (next : sc'.pool.nextConn = sc.pool.nextConn + 1)
      (closings : Site.closings sc'.past = Site.closings sc.past)
  | closed {id : ConnId} {serial : Serial} {confirms : Serial → Bool}
      (opened : Site.opened sc'.past = Site.opened sc.past)
      (honest : ∀ k, confirms k = ((sc.site.connection? k).map (·.confirms)).getD true)
      (removed : sc.registry.discard? confirms id = some (serial, sc'.registry))
      (told : sc'.site.connection? serial = (sc.site.connection? serial).map Connection.close)
      (closings : Site.closings sc'.past = Site.closings sc.past ++ [serial])
  | forgotten {id : ConnId} (task : sc.hand = { task := some (some (.closed id)) })
      (opened : Site.opened sc'.past = Site.opened sc.past)
      (done : sc'.registry = (sc.registry.forget id).2)
      (closings : Site.closings sc'.past = Site.closings sc.past)

theorem opened_quiet {p : Pool} {h : Hand} {e : Effect} (silent : e.opened? = none) :
    Site.opened ((sc.alter p h).emit e).past = Site.opened sc.past := by
  rw [opened_alter_emit, silent]
  exact List.append_nil _

theorem closings_quiet {p : Pool} {h : Hand} {e : Effect} (silent : e.closes? = none) :
    Site.closings ((sc.alter p h).emit e).past = Site.closings sc.past := by
  rw [closings_alter_emit, silent]
  exact List.append_nil _

theorem tracing_close {p : Pool} {h : Hand} {confirms : Serial → Bool}
    (honest : ∀ k, confirms k = ((sc.site.connection? k).map (·.confirms)).getD true)
    (removed : sc.registry.discard? confirms id = some (serial, p.registry)) :
    Tracing sc ((sc.alter p h).emit (.close serial)) := by
  have removed' : sc.registry.discard? confirms id =
      some (serial, ((sc.alter p h).emit (.close serial)).registry) := by
    simpa only [Scene.registry, Scene.pool_emit, Scene.pool_alter] using removed
  exact .closed (opened_quiet rfl) honest removed'
    ((Site.lookup_modify (sc.site.withPool p) serial serial Connection.close).trans (if_pos rfl))
    (closings_alter_emit _ _ _)

theorem tracing_quiet {p : Pool} {h : Hand} {e : Effect} (silent : e.opened? = none)
    (harmless : e.closes? = none) (names : p.registry.names = sc.registry.names)
    (closing : p.registry.closing = sc.registry.closing) :
    Tracing sc ((sc.alter p h).emit e) := by
  refine .same (opened_quiet silent) ?_ ?_ (closings_quiet harmless)
  · simpa only [Scene.registry, Scene.pool_emit, Scene.pool_alter] using names
  · simpa only [Scene.registry, Scene.pool_emit, Scene.pool_alter] using closing

theorem tracing_move (move : Move sc sc') : Tracing sc sc' := by
  have moved : sc'.past = sc.past → sc.registry.Moved sc'.registry → Tracing sc sc' :=
    fun same moved => .same (congrArg Site.opened same) moved.names moved.closing
      (congrArg Site.closings same)
  cases move with
  | @event later e order allowed =>
    have same := congrArg Pool.registry (Site.pool_happen sc.site e)
    exact .same rfl (congrArg Registry.names same) (congrArg Registry.closing same) rfl
  | begin free due =>
    have same := congrArg Pool.registry (Site.pool_next? due)
    exact .same ((opened_concat _ _).trans (List.append_nil _)) (congrArg Registry.names same)
      (congrArg Registry.closing same) ((closings_concat _ _).trans (List.append_nil _))
  | connectDone task =>
    refine .registered task (opened_alter_emit _ _ _) ?_ ?_ (closings_quiet rfl)
    · simp only [Scene.registry, Scene.pool_emit, Scene.pool_alter]
    · simp only [Scene.pool_emit, Scene.pool_alter]
  | forget task => exact .forgotten task rfl rfl rfl
  | seize task back closed honest removed => exact tracing_close honest removed
  | discard held honest removed => exact tracing_close honest removed
  | evict free empty closed honest removed => exact tracing_close honest removed
  | takeBack task back opened lent => exact moved rfl (Registry.moved_beginCheck? lent)
  | checkout free empty opened taken => exact moved rfl (Registry.moved_checkout? taken)
  | handOver held => exact moved rfl Registry.moved_handOver
  | checkIn held unwanted kept => exact moved rfl Registry.moved_checkIn?
  | putBack held unwanted => exact moved rfl Registry.moved_putBack?
  | _ => first | exact .same rfl rfl rfl rfl | exact tracing_quiet rfl rfl rfl rfl

inductive Scene.Tracked (sc : Scene) (n : ConnId × Serial) : Prop where
  | fired (fired : sc.site.Fired n.2)
  | registered (known : n ∈ sc.registry.names)
  | closing (remembered : n.1 ∈ sc.registry.closing) (told : sc.site.Told n.2)

structure Scene.Traced (sc : Scene) : Prop where
  arrived : ∀ target serial, Command.connected target (.ok serial) ∈ sc.commands →
    (sc.site.connection? serial).isSome
  known : ∀ n ∈ Site.opened sc.past, (sc.site.connection? n.2).isSome
  fresh : ∀ n ∈ Site.opened sc.past, n.1.number < sc.pool.nextConn
  distinct : ((Site.opened sc.past).map (·.1)).Nodup
  named : ∀ n ∈ sc.registry.names, n ∈ Site.opened sc.past
  listening : ∀ l ∈ sc.site.listeners, (l.id, l.serial) ∈ Site.opened sc.past
  noticed : ∀ id, Command.closed id ∈ sc.commands →
    ∃ serial, (id, serial) ∈ Site.opened sc.past ∧ sc.site.Fired serial
  tracked : ∀ n ∈ Site.opened sc.past, sc.Tracked n

theorem arrived_move (traced : sc.Traced) (move : Move sc sc') (target : Target) (serial : Serial)
    (member : Command.connected target (.ok serial) ∈ sc'.commands) :
    (sc'.site.connection? serial).isSome := by
  rcases commands_move move member with before | ⟨later, e, allowed, site, sent | brought⟩
  · exact isSome_connection_move move (traced.arrived target serial before)
  · cases (Site.plain_of_sends sent).2
  · rw [site]
    exact Site.known_of_brings brought

/-- Ids are given out once. -/
theorem eq_of_opened (traced : sc.Traced) {n n' : ConnId × Serial}
    (member : n ∈ Site.opened sc.past) (member' : n' ∈ Site.opened sc.past) (same : n.1 = n'.1) :
    n = n' := by
  have found := Keyed.find?_of_mem traced.distinct member
  rw [same, Keyed.find?_of_mem traced.distinct member'] at found
  exact (Option.some.inj found).symm

theorem arrived_of_task (traced : sc.Traced) {target : Target}
    (task : sc.hand = { task := some (some (.connected target (.ok serial))) }) :
    (sc.site.connection? serial).isSome := by
  refine traced.arrived target serial (List.mem_append_left _ ?_)
  rw [task]
  exact List.mem_singleton_self _

theorem unnamed_of_accounted (a : sc.Accounted) : (⟨sc.pool.nextConn⟩ : ConnId) ∉ sc.registry.ids :=
  fun member => Nat.lt_irrefl _ (a.named _ member)

theorem mem_opened_move (move : Move sc sc') {n : ConnId × Serial}
    (member : n ∈ Site.opened sc.past) : n ∈ Site.opened sc'.past := by
  cases tracing_move move with
  | same opened names closing => exact opened ▸ member
  | registered task opened done next => exact opened ▸ List.mem_append_left _ member
  | closed opened honest removed told => exact opened ▸ member
  | forgotten task opened done => exact opened ▸ member

/-- A connection that the pool has had was there before, or it is the one that is registered. -/
theorem opened_of_move (move : Move sc sc') {n : ConnId × Serial}
    (member : n ∈ Site.opened sc'.past) :
    n ∈ Site.opened sc.past ∨ n.1 = ⟨sc.pool.nextConn⟩ ∧ sc'.pool.nextConn = sc.pool.nextConn + 1 ∧
      ∃ target, sc.hand = { task := some (some (.connected target (.ok n.2))) } := by
  cases tracing_move move with
  | same opened names closing => exact .inl (opened ▸ member)
  | @registered target serial task opened done next =>
    rw [opened] at member
    refine (List.mem_append.mp member).imp_right fun new => ?_
    obtain rfl := List.mem_singleton.mp new
    exact ⟨rfl, next, target, task⟩
  | closed opened honest removed told => exact .inl (opened ▸ member)
  | forgotten task opened done => exact .inl (opened ▸ member)

theorem known_of_opened_move (traced : sc.Traced) (move : Move sc sc') :
    ∀ n ∈ Site.opened sc'.past, (sc'.site.connection? n.2).isSome := by
  intro n member
  apply isSome_connection_move move
  rcases opened_of_move move member with before | ⟨-, -, target, task⟩
  · exact traced.known n before
  · exact arrived_of_task traced task

theorem fresh_move (traced : sc.Traced) (move : Move sc sc') :
    ∀ n ∈ Site.opened sc'.past, n.1.number < sc'.pool.nextConn := by
  intro n member
  rcases opened_of_move move member with before | ⟨new, next, -⟩
  · exact Nat.lt_of_lt_of_le (traced.fresh n before) (nextConn_move move)
  · rw [new, next]
    exact Nat.lt_succ_self _

theorem distinct_opened_move (traced : sc.Traced) (move : Move sc sc') :
    ((Site.opened sc'.past).map (·.1)).Nodup := by
  have distinct := traced.distinct
  cases tracing_move move with
  | same opened names closing => exact opened ▸ distinct
  | registered task opened done next =>
    rw [opened, List.map_append, List.nodup_append]
    refine ⟨distinct, List.pairwise_singleton _ _, ?_⟩
    rintro id member _ new rfl
    obtain ⟨n, before, rfl⟩ := List.mem_map.mp member
    have fresh := traced.fresh n before
    rw [List.mem_singleton.mp new] at fresh
    exact Nat.lt_irrefl _ fresh
  | closed opened honest removed told => exact opened ▸ distinct
  | forgotten task opened done => exact opened ▸ distinct

theorem registered_move (a : sc.Accounted) (traced : sc.Traced) (move : Move sc sc') :
    ∀ n ∈ sc'.registry.names, n ∈ Site.opened sc'.past := by
  intro n member
  have kept : n ∈ sc.registry.names → n ∈ Site.opened sc'.past :=
    fun member => mem_opened_move move (traced.named n member)
  cases tracing_move move with
  | same opened names closing => exact kept (names ▸ member)
  | registered task opened done next =>
    rw [done, Registry.names_register (unnamed_of_accounted a)] at member
    rcases List.mem_append.mp member with before | new
    · exact kept before
    · exact opened ▸ List.mem_append_right _ new
  | closed opened honest removed told =>
    rw [Registry.names_discard? removed] at member
    exact kept (List.mem_filter.mp member).1
  | forgotten task opened done =>
    rw [done, Registry.names_forget] at member
    exact kept (List.mem_filter.mp member).1

theorem Site.listeners_enact (s : Site) (now : Nat) (e : Effect) :
    (s.enact now e).listeners = s.listeners ++ e.opened?.toList.map fun n => ⟨n.1, n.2⟩ := by
  cases e with
  | listen id serial => rfl
  | answer k outcome =>
    simp only [enact]
    split <;> exact (List.append_nil _).symm
  | _ => exact (List.append_nil _).symm

theorem listening_move (traced : sc.Traced) (move : Move sc sc') :
    ∀ l ∈ sc'.site.listeners, (l.id, l.serial) ∈ Site.opened sc'.past := by
  intro l member
  have kept : l ∈ sc.site.listeners → (l.id, l.serial) ∈ Site.opened sc'.past :=
    fun member => mem_opened_move move (traced.listening l member)
  have emitted : ∀ {p : Pool} {h : Hand} {e : Effect}, sc' = (sc.alter p h).emit e →
      (l.id, l.serial) ∈ Site.opened sc'.past := by
    rintro p h e rfl
    have listeners : ((sc.alter p h).emit e).site.listeners = _ :=
      Site.listeners_enact (sc.site.withPool p) sc.now e
    rw [listeners] at member
    rcases List.mem_append.mp member with before | new
    · exact kept before
    · obtain ⟨n, opened, rfl⟩ := List.mem_map.mp new
      rw [opened_alter_emit]
      exact List.mem_append_right _ opened
  cases move with
  | @event later e order allowed =>
    rcases Site.listeners_happen sc.site e with same | ⟨id, -, fewer⟩
    · exact kept (same ▸ member)
    · exact kept (List.mem_filter.mp (fewer ▸ member)).1
  | begin free due => exact kept (Site.listeners_next? due ▸ member)
  | _ => first | exact kept member | exact emitted rfl

theorem noticed_move (traced : sc.Traced) (move : Move sc sc') (id : ConnId)
    (member : Command.closed id ∈ sc'.commands) :
    ∃ serial, (id, serial) ∈ Site.opened sc'.past ∧ sc'.site.Fired serial := by
  rcases commands_move move member with before | ⟨later, e, allowed, site, sent | brought⟩
  · obtain ⟨serial, opened, fired⟩ := traced.noticed id before
    exact ⟨serial, mem_opened_move move opened, fired_move move fired⟩
  · -- A listener notices a close when the signal of its connection has fired.
    cases Site.notice_of_sends sent
    obtain ⟨l, listens, heard⟩ := List.any_eq_true.mp allowed
    simp only [Bool.and_eq_true, decide_eq_true_eq] at heard
    obtain ⟨rfl, fired⟩ := heard
    have opened := traced.listening l listens
    obtain ⟨c, known⟩ := Option.isSome_iff_exists.mp (traced.known _ opened)
    refine ⟨l.serial, mem_opened_move move opened, fired_move move ⟨c, known, ?_⟩⟩
    simpa [known] using fired
  · exact absurd brought Site.not_closed_of_brings

theorem tracked_keep (move : Move sc sc') {n : ConnId × Serial} (tracked : sc.Tracked n)
    (registered : n ∈ sc.registry.names → sc'.Tracked n)
    (closing : n.1 ∈ sc.registry.closing → sc'.site.Fired n.2 ∨ n.1 ∈ sc'.registry.closing) :
    sc'.Tracked n := by
  cases tracked with
  | fired fired => exact .fired (fired_move move fired)
  | registered known => exact registered known
  | closing remembered told =>
    rcases closing remembered with fired | remembered
    · exact .fired fired
    · exact .closing remembered (connection_told_move move told)

theorem tracked_close (traced : sc.Traced) (move : Move sc sc') {confirms : Serial → Bool}
    (honest : ∀ k, confirms k = ((sc.site.connection? k).map (·.confirms)).getD true)
    (removed : sc.registry.discard? confirms id = some (serial, sc'.registry))
    (told : sc'.site.connection? serial = (sc.site.connection? serial).map Connection.close)
    {n : ConnId × Serial} (member : n ∈ Site.opened sc.past) : sc'.Tracked n := by
  have here := traced.named _ (Registry.mem_names_of_discard? removed)
  obtain ⟨remembers, settled⟩ := Registry.closing_discard? removed
  refine tracked_keep move (traced.tracked n member) (fun known => ?_) fun remembered =>
    .inr (remembers _ remembered)
  by_cases same : n.1 = id
  · -- The connection that is told to close confirms it at once, or is remembered.
    obtain rfl : n = (id, serial) := eq_of_opened traced (traced.named _ known) here same
    obtain ⟨c, found⟩ := Option.isSome_iff_exists.mp (traced.known _ here)
    rw [found] at told
    rcases settled with confirmed | remembered
    · rw [honest, found] at confirmed
      exact .fired ⟨c.close, told, confirmed⟩
    · exact .closing remembered ⟨c.close, told, Nat.succ_pos _⟩
  · refine .registered ?_
    rw [Registry.names_discard? removed]
    exact List.mem_filter.mpr ⟨known, by simpa using same⟩

theorem tracked_forget (traced : sc.Traced) (move : Move sc sc')
    (task : sc.hand = { task := some (some (.closed id)) })
    (done : sc'.registry = (sc.registry.forget id).2) {n : ConnId × Serial}
    (member : n ∈ Site.opened sc.past) : sc'.Tracked n := by
  by_cases same : n.1 = id
  · -- The close that is noticed is that of the one connection with this id.
    obtain ⟨serial, noticed, fired⟩ := traced.noticed id (by simp [Scene.commands, task])
    have eq : n = (id, serial) := eq_of_opened traced member noticed same
    exact .fired (eq ▸ fired_move move fired)
  · refine tracked_keep move (traced.tracked n member) (fun known => .registered ?_)
      fun remembered => .inr ?_
    · rw [done, Registry.names_forget]
      exact List.mem_filter.mpr ⟨known, by simpa using same⟩
    · rw [done, Registry.closing_forget]
      exact List.mem_filter.mpr ⟨remembered, by simpa using same⟩

theorem tracked_move (a : sc.Accounted) (traced : sc.Traced) (move : Move sc sc') :
    ∀ n ∈ Site.opened sc'.past, sc'.Tracked n := by
  intro n member
  cases tracing_move move with
  | same opened names closing =>
    exact tracked_keep move (traced.tracked n (opened ▸ member))
      (fun known => .registered (names ▸ known)) fun remembered => .inr (closing ▸ remembered)
  | @registered target serial task opened done next =>
    have names : sc'.registry.names = sc.registry.names ++ [(⟨sc.pool.nextConn⟩, serial)] :=
      done ▸ Registry.names_register (unnamed_of_accounted a)
    rw [opened] at member
    rcases List.mem_append.mp member with before | new
    · refine tracked_keep move (traced.tracked n before) (fun known => .registered ?_)
        fun remembered => .inr (done ▸ remembered)
      exact names ▸ List.mem_append_left _ known
    · exact .registered (names ▸ List.mem_append_right _ new)
  | closed opened honest removed told =>
    exact tracked_close traced move honest removed told (opened ▸ member)
  | forgotten task opened done => exact tracked_forget traced move task done (opened ▸ member)

theorem traced_move (a : sc.Accounted) (move : Move sc sc') (traced : sc.Traced) :
    sc'.Traced where
  arrived := arrived_move traced move
  known := known_of_opened_move traced move
  fresh := fresh_move traced move
  distinct := distinct_opened_move traced move
  named := registered_move a traced move
  listening := listening_move traced move
  noticed := noticed_move traced move
  tracked := tracked_move a traced move

theorem traced_start (config : Config) (observer : Hook → Nat → Option String) :
    (Scene.start config observer).Traced where
  arrived _ _ nobody := by cases nobody
  known := List.forall_mem_nil _
  fresh := List.forall_mem_nil _
  distinct := List.nodup_nil
  named := List.forall_mem_nil _
  listening := List.forall_mem_nil _
  noticed _ nobody := by cases nobody
  tracked := List.forall_mem_nil _

end LoanPool
