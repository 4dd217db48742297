import LoanPool.Proofs.Shutdown

/-!
# Connections that are not lost

The pool takes charge of every connection that it asked for. As long as it answers for one, the
close of that connection is going to be noticed exactly once; and it never tells one to close twice.
-/
namespace LoanPool

def Command.noticed? : Command → Option ConnId
  | .closed id => some id
  | _ => none

def Command.brought? : Command → Option Serial
  | .connected _ (.ok serial) => some serial
  | _ => none

namespace Site

/-- The notices of a close that are to come: listeners that still wait, and reports on their way. -/
def notices (s : Site) (id : ConnId) : Nat :=
  s.listeners.countP (·.id = id) + s.mailbox.countP fun c => c.noticed? = some id

def Record.noticed? (rec : Record) : Option ConnId :=
  match rec.effect with
  | none => rec.command.bind Command.noticed?
  | some _ => none

def noticed (past : List Record) : List ConnId :=
  past.filterMap (·.noticed?)

end Site

namespace Scene

/-- The pool answers for a connection: it is registered, or remembered until its close is
noticed. -/
def Charged (sc : Scene) (id : ConnId) : Prop :=
  id ∈ sc.registry.ids ∨ id ∈ sc.registry.closing

def Gone (sc : Scene) (id : ConnId) : Prop :=
  id.number < sc.pool.nextConn ∧ ¬sc.Charged id

def notices (sc : Scene) (id : ConnId) : Nat :=
  sc.site.listeners.countP (·.id = id) + sc.commands.countP fun c => c.noticed? = some id

def arrivals (sc : Scene) (serial : Serial) : Nat :=
  sc.commands.countP (fun c => c.brought? = some serial) +
    (Site.opened sc.past).countP fun n => n.2 = serial

end Scene

variable {sc sc' : Scene} {past : List Site.Record} {id : ConnId} {serial : Serial}

/-! ### Commands -/

theorem commands_of_task {c : Option Command} (task : sc.hand = { task := some c }) :
    sc.commands = c.toList ++ sc.site.mailbox := by
  rw [Scene.commands, task]
  rfl

theorem commands_emit (e : Effect) : (sc.emit e).commands = sc.commands := by
  rw [Scene.commands, Scene.commands]
  exact congrArg _ (Site.mailbox_enact sc.site sc.now e)

/-! ### Arrivals -/

namespace Site
variable {s : Site} {k : Serial} {e : Event} {now : Nat}

theorem isSome_connection_modify (s : Site) (serial k : Serial) (f : Connection → Connection) :
    ((s.modify serial f).connection? k).isSome = (s.connection? k).isSome := by
  rw [lookup_modify]
  split
  · exact Option.isSome_map
  · rfl

theorem isSome_connection_enact (s : Site) (now : Nat) (e : Effect) (k : Serial) :
    ((s.enact now e).connection? k).isSome = (s.connection? k).isSome := by
  cases e with
  | close serial => exact isSome_connection_modify s serial k Connection.close
  | answer k' outcome =>
    simp only [enact]
    split <;> rfl
  | _ => rfl

theorem connections_of_quiet (quiet : s.brings e = []) (k : Serial) :
    ((s.happen e).connection? k).isSome = (s.connection? k).isSome := by
  cases e with
  | release k' reply =>
    simp only [happen, release]
    split <;> rfl
  | read k' =>
    simp only [happen, read]
    split <;> rfl
  | abandon k' =>
    simp only [happen, abandon]
    split
    · rfl
    · rw [connection?, connections_report]; rfl
    · rfl
    · rfl
  | dropLoan k' =>
    simp only [happen, dropLoan]
    split
    · rw [connection?, connections_report]; rfl
    · rfl
  | kill serial => exact isSome_connection_modify s serial k Connection.kill
  | fire serial => exact isSome_connection_modify s serial k fun c => c.fire.2
  | shut serial => exact isSome_connection_modify s serial k Connection.close
  | connected job result =>
    simp only [brings, List.map_eq_nil_iff, Option.toList_eq_nil_iff] at quiet
    simp only [happen, finishConnect, quiet]
  | checked job healthy =>
    simp only [happen, finishCheck]
    split <;> rfl
  | deadline timer =>
    simp only [happen, passDeadline]
    split
    · rfl
    · rw [connection?, connections_report]; rfl
  | notice id =>
    simp only [happen, noticeClose]
    rw [connection?, connections_report]; rfl
  | _ => rfl

theorem countP_brings (allowed : s.allows now e = true) (k : Serial) :
    (s.brings e).countP (fun c => c.brought? = some k) +
        (if (s.connection? k).isSome then 1 else 0) =
      if ((s.happen e).connection? k).isSome then 1 else 0 := by
  have plain : (s.brings e).countP (fun c => c.brought? = some k) = 0 →
      ((s.happen e).connection? k).isSome = (s.connection? k).isSome →
        (s.brings e).countP (fun c => c.brought? = some k) +
          (if (s.connection? k).isSome then 1 else 0) =
            if ((s.happen e).connection? k).isSome then 1 else 0 := by
    intro none_brought same
    rw [none_brought, same, Nat.zero_add]
  cases e with
  | connected job result =>
    cases result with
    | error cause =>
      refine plain ?_ ?_
      · simp only [brings]
        cases s.connectJob? job <;> simp [Command.brought?, Except.map]
      · simp only [happen, finishConnect]
        split <;> rfl
    | ok opened =>
      obtain ⟨serial, c⟩ := opened
      simp only [allows, Bool.and_eq_true, Option.isNone_iff_eq_none] at allowed
      obtain ⟨j, found⟩ := Option.isSome_iff_exists.mp allowed.1
      have unknown := allowed.2
      have there : (s.happen (.connected job (.ok (serial, c)))).connection? k =
          (s.connection? k).or (List.lookup k [(serial, c)]) := by
        simp only [happen, finishConnect, found, connection?, send, List.lookup_append]
      have brought : s.brings (.connected job (.ok (serial, c))) =
          [.connected j.target (.ok serial)] := by
        simp only [brings, found]
        rfl
      rw [there, brought]
      by_cases same : k = serial
      · subst same
        simp [unknown, Command.brought?]
      · have skip : (k == serial) = false := beq_eq_false_iff_ne.mpr same
        have other : List.lookup k [(serial, c)] = none := by
          rw [List.lookup_cons, skip]
          rfl
        rw [other, Option.or_none]
        simp [Command.brought?, Ne.symm same]
  | checked job healthy =>
    refine plain ?_ ?_
    · simp only [brings]
      cases s.checkJob? job <;> simp [Command.brought?]
    · simp only [happen, finishCheck]
      split <;> rfl
  | _ => exact plain rfl (connections_of_quiet rfl k)

end Site

theorem brought_of_sends (s : Site) (e : Site.Event) (k : Serial) :
    (s.sends e).countP (fun c => c.brought? = some k) = 0 := by
  refine List.countP_eq_zero.mpr fun c sent brought => ?_
  have plain := (Site.plain_of_sends sent).2
  cases c with
  | connected target result => cases plain
  | _ => simp [Command.brought?] at brought

/-- What a move does to the commands that have come to the pool. A connection that a command brings
is registered and watched, and one whose close it reports is forgotten. -/
inductive Receiving (sc sc' : Scene) : Prop where
  | event {later : Nat} {e : Site.Event} (allowed : sc.site.allows later e = true)
      (site : sc'.site = sc.site.happen e)
      (commands : sc'.commands = sc.commands ++ (sc.site.sends e ++ sc.site.brings e))
      (opened : Site.opened sc'.past = Site.opened sc.past) (hand : sc'.hand = sc.hand)
  | same (commands : sc'.commands = sc.commands)
      (opened : Site.opened sc'.past = Site.opened sc.past)
      (listeners : sc'.site.listeners = sc.site.listeners)
      (known : ∀ k, (sc'.site.connection? k).isSome = (sc.site.connection? k).isSome)
      (keeps : ∀ c, sc.hand.task = some c → sc'.hand.task = some c)
  | acted {c : Option Command} (task : sc.hand = { task := some c })
      (commands : sc.commands = c.toList ++ sc'.commands)
      (opened : Site.opened sc'.past = Site.opened sc.past ++
        (c.bind Command.brought?).toList.map fun serial => (⟨sc.pool.nextConn⟩, serial))
      (listeners : sc'.site.listeners = sc.site.listeners ++
        (c.bind Command.brought?).toList.map fun serial => ⟨⟨sc.pool.nextConn⟩, serial⟩)
      (forgets : ∀ id, c = some (.closed id) → sc'.registry = (sc.registry.forget id).2)
      (known : ∀ k, (sc'.site.connection? k).isSome = (sc.site.connection? k).isSome)

theorem listeners_emit {p : Pool} {h : Hand} {e : Effect} (silent : e.opened? = none) :
    ((sc.alter p h).emit e).site.listeners = sc.site.listeners := by
  have listeners : ((sc.alter p h).emit e).site.listeners = _ :=
    Site.listeners_enact (sc.site.withPool p) sc.now e
  rw [listeners, silent]
  exact List.append_nil _

def Command.isPlain (c : Command) : Bool :=
  c.brought?.isNone && c.noticed?.isNone

theorem plain_of_moot {p : Pool} {c : Command} (moot : c.Moot p) : c.isPlain = true := by
  cases c with
  | connected target result => cases moot
  | closed id => cases moot
  | _ => rfl

theorem plain_of_returned {c : Command} (back : c.returned? = some id) : c.isPlain = true := by
  cases c with
  | connected target result => cases back
  | closed id => cases back
  | _ => rfl

theorem receiving_plain {c : Option Command} (task : sc.hand = { task := some c })
    (plain : ∀ c' ∈ c, c'.isPlain = true) (commands : sc.commands = c.toList ++ sc'.commands)
    (opened : Site.opened sc'.past = Site.opened sc.past)
    (listeners : sc'.site.listeners = sc.site.listeners)
    (known : ∀ k, (sc'.site.connection? k).isSome = (sc.site.connection? k).isSome) :
    Receiving sc sc' := by
  have none_brought : c.bind Command.brought? = none := by
    cases c with
    | none => rfl
    | some c =>
      have plain := plain c rfl
      simp only [Command.isPlain, Bool.and_eq_true, Option.isNone_iff_eq_none] at plain
      exact plain.1
  refine .acted task commands ?_ ?_ ?_ known
  · rw [none_brought, opened]
    exact (List.append_nil _).symm
  · rw [none_brought, listeners]
    exact (List.append_nil _).symm
  · rintro id rfl
    cases plain _ rfl

theorem known_emit {p : Pool} {h : Hand} {e : Effect} (k : Serial) :
    (((sc.alter p h).emit e).site.connection? k).isSome = (sc.site.connection? k).isSome :=
  Site.isSome_connection_enact (sc.site.withPool p) sc.now e k

theorem receiving_say {p : Pool} {h : Hand} {e : Effect} (silent : e.opened? = none)
    (kept : h.task = sc.hand.task) : Receiving sc ((sc.alter p h).emit e) := by
  apply Receiving.same _ (opened_quiet silent) (listeners_emit silent) known_emit
  · intro c task
    exact kept.trans task
  · rw [commands_emit, Scene.commands, Scene.commands, ← kept]
    rfl

theorem receiving_act {c : Option Command} {p : Pool} {h : Hand}
    (task : sc.hand = { task := some c }) (done : h.task = none)
    (plain : ∀ c' ∈ c, c'.isPlain = true) : Receiving sc (sc.alter p h) := by
  refine receiving_plain task plain ?_ rfl rfl fun _ => rfl
  rw [commands_of_task task, Scene.commands]
  simp [Scene.alter, done, Site.withPool]

theorem receiving_act_say {c : Option Command} {p : Pool} {h : Hand} {e : Effect}
    (silent : e.opened? = none) (task : sc.hand = { task := some c }) (done : h.task = none)
    (plain : ∀ c' ∈ c, c'.isPlain = true) : Receiving sc ((sc.alter p h).emit e) := by
  apply receiving_plain task plain _ (opened_quiet silent) (listeners_emit silent) known_emit
  rw [commands_emit, commands_of_task task, Scene.commands]
  simp [Scene.alter, done, Site.withPool]

theorem plain_some {c : Command} (plain : c.isPlain = true) :
    ∀ c' ∈ some c, c'.isPlain = true := by
  rintro c' ⟨⟩
  exact plain

theorem receiving_move (move : Move sc sc') : Receiving sc sc' := by
  cases move with
  | event order allowed =>
    refine .event allowed rfl ?_ rfl rfl
    rw [Scene.commands, Scene.commands]
    dsimp only
    rw [Site.mailbox_happen, List.append_assoc]
  | wait order => exact .same rfl rfl rfl (fun _ => rfl) fun _ task => task
  | begin free due =>
    refine .same ?_ ((opened_concat _ _).trans (List.append_nil _)) (Site.listeners_next? due)
      (fun k => ?_) fun c task => ?_
    · rw [Scene.commands, Scene.commands, free, Site.mailbox_next? due]
      rfl
    · dsimp only
      rw [Site.connection?, Site.connections_next? due]
      rfl
    · rw [free] at task
      cases task
  | dismiss task moot => exact receiving_act task rfl (plain_some (plain_of_moot moot))
  | refuse task closed => exact receiving_act_say rfl task rfl (plain_some rfl)
  | acquire task opened quiet => exact receiving_act task rfl (plain_some rfl)
  | stats task => exact receiving_act_say rfl task rfl (plain_some rfl)
  | @shut c closer task ends opened =>
    refine receiving_act task rfl ?_
    subst ends
    cases closer with
    | none => rintro _ ⟨⟩
    | some k => exact plain_some rfl
  | seize task back closed honest removed =>
    exact receiving_act_say rfl task rfl (plain_some (plain_of_returned back))
  | takeBack task back opened lent =>
    exact receiving_act task rfl (plain_some (plain_of_returned back))
  | connectDone task =>
    refine .acted task ?_ (opened_alter_emit _ _ _) (Site.listeners_enact _ _ _) ?_ known_emit
    · rw [commands_emit, commands_of_task task]
      rfl
    · rintro id ⟨⟩
  | connectFailed task => exact receiving_act task rfl (plain_some rfl)
  | verdict task checking => exact receiving_act task rfl (plain_some rfl)
  | expire task queued => exact receiving_act task rfl (plain_some rfl)
  | overflow task queued due reachable drained =>
    exact receiving_act_say rfl task rfl (plain_some rfl)
  | forget task =>
    refine .acted task ?_ (List.append_nil _).symm (List.append_nil _).symm ?_ fun _ => rfl
    · rw [commands_of_task task]
      rfl
    · rintro id ⟨⟩
      rfl
  | report free closed complete =>
    refine .same ?_ rfl rfl (fun _ => rfl) fun c task => ?_
    · rw [Scene.commands, Scene.commands, free]
      rfl
    · rw [free] at task
      cases task
  | _ =>
    first
      | exact .same rfl rfl rfl (fun _ => rfl) fun _ task => task
      | exact receiving_say rfl rfl

theorem countP_toList_brought (c : Option Command) (k : Serial) (id : ConnId) :
    c.toList.countP (fun c => c.brought? = some k) =
      ((c.bind Command.brought?).toList.map fun serial => (id, serial)).countP
        fun n => n.2 = k := by
  cases c with
  | none => rfl
  | some c =>
    cases brought : c.brought? <;> simp [brought]

/-- Every connection comes to the pool once. -/
theorem arrivals_move (move : Move sc sc')
    (before : ∀ k, sc.arrivals k = if (sc.site.connection? k).isSome then 1 else 0) (k : Serial) :
    sc'.arrivals k = if (sc'.site.connection? k).isSome then 1 else 0 := by
  have counted := before k
  rw [Scene.arrivals] at counted ⊢
  cases receiving_move move with
  | event allowed site commands opened =>
    have brings := Site.countP_brings allowed k
    rw [commands, opened, site, ← brings, List.countP_append, List.countP_append,
      brought_of_sends, ← counted]
    omega
  | same commands opened listeners known => rw [commands, opened, known, counted]
  | acted task commands opened listeners forgets known =>
    rw [commands, List.countP_append, countP_toList_brought _ k ⟨sc.pool.nextConn⟩] at counted
    rw [opened, known, ← counted, List.countP_append]
    omega

/-! ### Notices -/

theorem noticed_of_brings (s : Site) (e : Site.Event) (id : ConnId) :
    (s.brings e).countP (fun c => c.noticed? = some id) = 0 := by
  refine List.countP_eq_zero.mpr fun c brought noticed => ?_
  cases c with
  | closed id => exact absurd brought Site.not_closed_of_brings
  | _ => simp [Command.noticed?] at noticed

theorem noticed_of_sends {s : Site} {e : Site.Event} (other : ∀ id, e ≠ .notice id) (id : ConnId) :
    (s.sends e).countP (fun c => c.noticed? = some id) = 0 := by
  refine List.countP_eq_zero.mpr fun c sent noticed => ?_
  cases c with
  | closed id => exact other id (Site.notice_of_sends sent)
  | _ => simp [Command.noticed?] at noticed

/-- A listener that notices a close reports it, if there is somebody to report to. -/
theorem notices_of_notice {later : Nat} (allowed : sc.site.allows later (.notice id) = true)
    (site : sc'.site = sc.site.happen (.notice id))
    (commands : sc'.commands =
      sc.commands ++ (sc.site.sends (.notice id) ++ sc.site.brings (.notice id))) :
    (∀ i, i ≠ id → sc'.notices i = sc.notices i) ∧ sc'.notices id ≤ sc.notices id ∧
      (sc.site.isReachable = true → 0 < sc'.notices id) := by
  have listeners : sc'.site.listeners = sc.site.listeners.filter (·.id ≠ id) := by
    rw [site]
    exact Site.listeners_report _
  have heard : 0 < sc.site.listeners.countP fun l => l.id = id := by
    obtain ⟨l, listens, here⟩ := List.any_eq_true.mp allowed
    simp only [Bool.and_eq_true] at here
    exact List.countP_pos_iff.mpr ⟨l, listens, here.1⟩
  have silent : sc'.site.listeners.countP (fun l => l.id = id) = 0 := by
    rw [listeners, List.countP_eq_zero]
    intro l member
    simpa using (List.mem_filter.mp member).2
  refine ⟨fun i other => ?_, ?_, fun reachable => ?_⟩
  · have kept : sc'.site.listeners.countP (fun l => l.id = i) =
        sc.site.listeners.countP fun l => l.id = i := by
      rw [listeners, List.countP_filter]
      refine List.countP_congr fun l _ => ?_
      simp only [Bool.and_eq_true, decide_eq_true_eq, and_iff_left_iff_imp]
      rintro rfl
      exact other
    rw [Scene.notices, Scene.notices, kept, commands]
    simp only [Site.sends, Site.brings]
    split <;> simp [Command.noticed?, Ne.symm other]
  · have few : (sc.site.sends (.notice id) ++ sc.site.brings (.notice id)).countP
        (fun c => c.noticed? = some id) ≤ 1 := by
      apply Nat.le_trans List.countP_le_length
      simp only [Site.sends, Site.brings]
      split <;> simp
    rw [Scene.notices, Scene.notices, silent, commands, List.countP_append]
    omega
  · have sent : (sc.site.sends (.notice id)).countP (fun c => c.noticed? = some id) = 1 := by
      simp [Site.sends, reachable, Command.noticed?]
    rw [Scene.notices, commands, List.countP_append, List.countP_append, sent]
    omega

/-- An event adds to no notices, and takes none from a pool that can be reached. -/
theorem notices_of_event {later : Nat} {e : Site.Event}
    (allowed : sc.site.allows later e = true) (site : sc'.site = sc.site.happen e)
    (commands : sc'.commands = sc.commands ++ (sc.site.sends e ++ sc.site.brings e))
    (id : ConnId) : sc'.notices id ≤ sc.notices id ∧
      (sc.site.isReachable = true → 0 < sc.notices id → 0 < sc'.notices id) := by
  by_cases heard : ∃ i, e = .notice i
  · obtain ⟨i, rfl⟩ := heard
    obtain ⟨others, fewer, told⟩ := notices_of_notice allowed site commands
    by_cases same : id = i
    · subst same
      exact ⟨fewer, fun reachable _ => told reachable⟩
    · rw [others id same]
      exact ⟨Nat.le_refl _, fun _ some_left => some_left⟩
  · have other : ∀ i, e ≠ .notice i := fun i same => heard ⟨i, same⟩
    have listeners : sc'.site.listeners = sc.site.listeners := by
      rw [site]
      rcases Site.listeners_happen sc.site e with same | ⟨i, rfl, -⟩
      · exact same
      · exact absurd rfl (other i)
    have same : sc'.notices id = sc.notices id := by
      rw [Scene.notices, Scene.notices, listeners, commands, List.countP_append,
        List.countP_append, noticed_of_sends other, noticed_of_brings]
      omega
    rw [same]
    exact ⟨Nat.le_refl _, fun _ some_left => some_left⟩

/-- What the pool answers for after a move, it answered for before, or it is what is registered. -/
theorem charged_move (a : sc.Accounted) (move : Move sc sc') (charged : sc'.Charged id) :
    sc.Charged id ∨ id = ⟨sc.pool.nextConn⟩ ∧ ∃ serial,
      Site.opened sc'.past = Site.opened sc.past ++ [(⟨sc.pool.nextConn⟩, serial)] := by
  rw [Scene.Charged, Registry.ids_eq_names] at charged
  rw [Scene.Charged, Registry.ids_eq_names]
  cases tracing_move move with
  | same opened names closing => exact .inl (names ▸ closing ▸ charged)
  | @registered target serial task opened done next =>
    rw [done, Registry.names_register (unnamed_of_accounted a), List.map_append,
      List.mem_append] at charged
    rcases charged with (before | new) | closing
    · exact .inl (.inl before)
    · exact .inr ⟨List.mem_singleton.mp new, serial, opened⟩
    · exact .inl (.inr closing)
  | closed opened honest removed told =>
    left
    rcases charged with registered | closing
    · rw [Registry.names_discard? removed] at registered
      obtain ⟨n, member, rfl⟩ := List.mem_map.mp registered
      exact .inl (List.mem_map_of_mem (List.mem_filter.mp member).1)
    · rcases (Registry.dropped_discard? removed).closing _ closing with before | ⟨rfl, here⟩
      · exact .inr before
      · exact .inl (Registry.ids_eq_names _ ▸ here)
  | forgotten task opened done =>
    left
    rw [done, Registry.names_forget, Registry.closing_forget] at charged
    rcases charged with registered | closing
    · obtain ⟨n, member, rfl⟩ := List.mem_map.mp registered
      exact .inl (List.mem_map_of_mem (List.mem_filter.mp member).1)
    · exact .inr (List.mem_filter.mp closing).1

theorem uncharged_forget (done : sc'.registry = (sc.registry.forget id).2) : ¬sc'.Charged id := by
  rw [Scene.Charged, Registry.ids_eq_names, done, Registry.names_forget, Registry.closing_forget]
  simp

theorem opened_of_notices (traced : sc.Traced) (some_left : 0 < sc.notices id) :
    ∃ serial, (id, serial) ∈ Site.opened sc.past := by
  rw [Scene.notices] at some_left
  by_cases listening : 0 < sc.site.listeners.countP fun l => l.id = id
  · obtain ⟨l, listens, here⟩ := List.countP_pos_iff.mp listening
    simp only [decide_eq_true_eq] at here
    exact ⟨l.serial, here ▸ traced.listening l listens⟩
  · have told : 0 < sc.commands.countP fun c => c.noticed? = some id := by omega
    obtain ⟨c, member, noticed⟩ := List.countP_pos_iff.mp told
    cases c with
    | closed id' =>
      simp only [Command.noticed?, Option.some.injEq, decide_eq_true_eq] at noticed
      subst noticed
      obtain ⟨serial, opened, -⟩ := traced.noticed _ member
      exact ⟨serial, opened⟩
    | _ => simp [Command.noticed?] at noticed

/-- No close of a connection is noticed before there is that connection. -/
theorem notices_of_next (traced : sc.Traced) : sc.notices ⟨sc.pool.nextConn⟩ = 0 := by
  by_contra some_left
  obtain ⟨serial, opened⟩ := opened_of_notices traced (Nat.pos_of_ne_zero some_left)
  exact Nat.lt_irrefl _ (traced.fresh _ opened)

/-- Acting upon a command takes the notice that it is, or adds the listener of what it brings. -/
theorem notices_of_acted {c : Option Command} (commands : sc.commands = c.toList ++ sc'.commands)
    (listeners : sc'.site.listeners = sc.site.listeners ++
      (c.bind Command.brought?).toList.map fun serial => ⟨⟨sc.pool.nextConn⟩, serial⟩)
    (id : ConnId) :
    sc'.notices id + c.toList.countP (fun c => c.noticed? = some id) =
      sc.notices id + if (⟨sc.pool.nextConn⟩ : ConnId) = id then
        (c.bind Command.brought?).toList.length else 0 := by
  rw [Scene.notices, Scene.notices, listeners, commands, List.countP_append, List.countP_append,
    List.countP_map]
  split
  · next same =>
    have all : (c.bind Command.brought?).toList.countP
        ((fun l : Listener => decide (l.id = id)) ∘ fun serial => ⟨⟨sc.pool.nextConn⟩, serial⟩) =
        (c.bind Command.brought?).toList.length :=
      List.countP_eq_length.mpr fun serial _ => by simpa using same
    omega
  · next other =>
    have none_here : (c.bind Command.brought?).toList.countP
        ((fun l : Listener => decide (l.id = id)) ∘ fun serial => ⟨⟨sc.pool.nextConn⟩, serial⟩) =
        0 := List.countP_eq_zero.mpr fun serial _ => by simpa using other
    omega

/-! ### The invariant -/

structure Scene.Upkept (sc : Scene) : Prop where
  arrivals : ∀ k, sc.arrivals k = if (sc.site.connection? k).isSome then 1 else 0
  single : ∀ id, sc.notices id ≤ 1
  awaited : sc.site.isReachable = true → ∀ id, sc.Charged id → 0 < sc.notices id
  parted : ∀ k, (Site.closings sc.past).count k + sc.registry.names.countP (·.2 = k) ≤
    (Site.opened sc.past).countP (·.2 = k)
  remembered : ∀ id ∈ sc.registry.closing,
    ∃ serial, (id, serial) ∈ Site.opened sc.past ∧ serial ∈ Site.closings sc.past
  taken : ∀ id ∈ Site.noticed sc.past, sc.hand.task = some (some (.closed id)) ∨ sc.Gone id

theorem single_move (traced : sc.Traced) (upkept : sc.Upkept) (move : Move sc sc') (id : ConnId) :
    sc'.notices id ≤ 1 := by
  have once := upkept.single id
  cases receiving_move move with
  | event allowed site commands opened =>
    exact Nat.le_trans (notices_of_event allowed site commands id).1 once
  | same commands opened listeners known =>
    rwa [Scene.notices, commands, listeners]
  | @acted c task commands opened listeners forgets known =>
    have counted := notices_of_acted commands listeners id
    split at counted
    · next same =>
      have fresh : sc.notices id = 0 := same ▸ notices_of_next traced
      have one : (c.bind Command.brought?).toList.length ≤ 1 := by
        cases c.bind Command.brought? <;> simp
      omega
    · omega

theorem awaited_move (a : sc.Accounted) (upkept : sc.Upkept) (move : Move sc sc')
    (reachable : sc'.site.isReachable = true) (id : ConnId) (charged : sc'.Charged id) :
    0 < sc'.notices id := by
  have reached := reachable_of_move move reachable
  have before := upkept.awaited reached id
  have charge := charged_move a move charged
  cases receiving_move move with
  | event allowed site commands opened =>
    rcases charge with older | ⟨-, serial, new⟩
    · exact (notices_of_event allowed site commands id).2 reached (before older)
    · rw [opened] at new
      simp at new
  | same commands opened listeners known =>
    rcases charge with older | ⟨-, serial, new⟩
    · rw [Scene.notices, commands, listeners]
      exact before older
    · rw [opened] at new
      simp at new
  | @acted c task commands opened listeners forgets known =>
    have counted := notices_of_acted commands listeners id
    -- The notice that is taken up is of a connection that the pool answers for no more.
    have other : c.toList.countP (fun c => c.noticed? = some id) = 0 := by
      refine List.countP_eq_zero.mpr fun c' member noticed => ?_
      rw [Option.mem_toList] at member
      cases c' with
      | closed id' =>
        simp only [Command.noticed?, Option.some.injEq, decide_eq_true_eq] at noticed
        subst noticed
        exact uncharged_forget (forgets _ member) charged
      | _ => simp [Command.noticed?] at noticed
    rcases charge with older | ⟨rfl, serial, new⟩
    · have some_left := before older
      omega
    · rw [opened, List.append_cancel_left_eq] at new
      have one := congrArg List.length new
      rw [List.length_map, List.length_singleton] at one
      rw [if_pos rfl] at counted
      omega

theorem parted_move (a : sc.Accounted) (upkept : sc.Upkept) (move : Move sc sc') (k : Serial) :
    (Site.closings sc'.past).count k + sc'.registry.names.countP (·.2 = k) ≤
      (Site.opened sc'.past).countP (·.2 = k) := by
  have parted := upkept.parted k
  cases tracing_move move with
  | same opened names closing closings => rwa [opened, names, closings]
  | registered task opened done next closings =>
    rw [opened, closings, done, Registry.names_register (unnamed_of_accounted a),
      List.countP_append, List.countP_append]
    omega
  | @closed id serial confirms opened honest removed told closings =>
    have distinct := a.balanced.named
    rw [Registry.ids_eq_names] at distinct
    have gone := Keyed.countP_remove distinct (Registry.mem_names_of_discard? removed)
      fun n => n.2 = k
    rw [opened, closings, Registry.names_discard? removed, List.count_append]
    by_cases same : serial = k
    · subst same
      simp only [List.count_singleton_self, decide_true, Bool.toNat_true] at *
      omega
    · simp only [List.count_singleton, beq_iff_eq, same, if_false, decide_false,
        Bool.toNat_false] at *
      omega
  | forgotten task opened done closings =>
    have fewer : sc'.registry.names.countP (·.2 = k) ≤ sc.registry.names.countP (·.2 = k) := by
      rw [done, Registry.names_forget]
      exact List.filter_sublist.countP_le
    rw [opened, closings]
    omega

theorem remembered_closing_move (traced : sc.Traced) (upkept : sc.Upkept) (move : Move sc sc') :
    ∀ id ∈ sc'.registry.closing,
      ∃ serial, (id, serial) ∈ Site.opened sc'.past ∧ serial ∈ Site.closings sc'.past := by
  intro id member
  cases tracing_move move with
  | same opened names closing closings =>
    rw [opened, closings]
    exact upkept.remembered id (closing ▸ member)
  | registered task opened done next closings =>
    rw [done] at member
    obtain ⟨serial, before, told⟩ := upkept.remembered id member
    rw [opened, closings]
    exact ⟨serial, List.mem_append_left _ before, told⟩
  | @closed id' serial confirms opened honest removed told closings =>
    rw [opened, closings]
    rcases (Registry.dropped_discard? removed).closing id member with before | ⟨rfl, -⟩
    · obtain ⟨serial', before, told⟩ := upkept.remembered id before
      exact ⟨serial', before, List.mem_append_left _ told⟩
    · exact ⟨serial, traced.named _ (Registry.mem_names_of_discard? removed),
        List.mem_append_right _ (List.mem_singleton_self _)⟩
  | forgotten task opened done closings =>
    rw [done, Registry.closing_forget] at member
    rw [opened, closings]
    exact upkept.remembered id (List.mem_filter.mp member).1

theorem gone_move (a : sc.Accounted) (move : Move sc sc') (gone : sc.Gone id) : sc'.Gone id := by
  refine ⟨Nat.lt_of_lt_of_le gone.1 (nextConn_move move), fun charged => ?_⟩
  rcases charged_move a move charged with before | ⟨rfl, -⟩
  · exact gone.2 before
  · exact Nat.lt_irrefl _ gone.1

theorem noticed_concat (past : List Site.Record) (rec : Site.Record) :
    Site.noticed (past ++ [rec]) = Site.noticed past ++ rec.noticed?.toList :=
  Site.filterMap_concat _ past rec

theorem fresh_of_noticed (traced : sc.Traced)
    (task : sc.hand = { task := some (some (.closed id)) }) : id.number < sc.pool.nextConn := by
  obtain ⟨serial, opened, -⟩ := traced.noticed id (by simp [Scene.commands, task])
  exact traced.fresh _ opened

theorem taken_move (a : sc.Accounted) (traced : sc.Traced) (upkept : sc.Upkept)
    (move : Move sc sc') (id : ConnId) (noticed : id ∈ Site.noticed sc'.past) :
    sc'.hand.task = some (some (.closed id)) ∨ sc'.Gone id := by
  have kept : id ∈ Site.noticed sc.past →
      sc'.hand.task = some (some (.closed id)) ∨ sc'.Gone id := by
    intro before
    rcases upkept.taken id before with task | gone
    · cases receiving_move move with
      | event allowed site commands opened hand => exact .inl (hand ▸ task)
      | same commands opened listeners known keeps => exact .inl (keeps _ task)
      | @acted c task' commands opened listeners forgets known =>
        rw [task'] at task
        cases task
        have fresh := fresh_of_noticed traced task'
        exact .inr ⟨Nat.lt_of_lt_of_le fresh (nextConn_move move),
          uncharged_forget (forgets _ rfl)⟩
    · exact .inr (gone_move a move gone)
  cases recording_move move with
  | same past memory => exact kept (past ▸ noticed)
  | @begin c rest free due =>
    rw [noticed_concat] at noticed
    rcases List.mem_append.mp noticed with before | new
    · exact kept before
    · left
      rw [Option.mem_toList] at new
      match c with
      | some (.closed id') =>
        cases new
        rfl
  | effect p h e =>
    have same : Site.noticed ((sc.alter p h).emit e).past = Site.noticed sc.past :=
      (noticed_concat _ _).trans (List.append_nil _)
    exact kept (same ▸ noticed)

theorem upkept_move (a : sc.Accounted) (traced : sc.Traced) (move : Move sc sc')
    (upkept : sc.Upkept) : sc'.Upkept where
  arrivals := arrivals_move move upkept.arrivals
  single := single_move traced upkept move
  awaited := awaited_move a upkept move
  parted := parted_move a upkept move
  remembered := remembered_closing_move traced upkept move
  taken := taken_move a traced upkept move

theorem upkept_start (config : Config) (observer : Hook → Nat → Option String) :
    (Scene.start config observer).Upkept where
  arrivals _ := rfl
  single _ := Nat.zero_le 1
  awaited _ _ charged := by
    rcases charged with registered | closing
    · cases registered
    · cases closing
  parted _ := Nat.le_refl 0
  remembered := List.forall_mem_nil _
  taken := List.forall_mem_nil _

/-! ### Runs -/

structure Scene.Attended (sc : Scene) : Prop where
  watched : sc.Watched
  upkept : sc.Upkept

theorem attended_move (move : Move sc sc') (attended : sc.Attended) : sc'.Attended where
  watched := watched_move move attended.watched
  upkept := upkept_move attended.watched.kept.accounted attended.watched.traced move attended.upkept

theorem attended_start (config : Config) (observer : Hook → Nat → Option String) :
    (Scene.start config observer).Attended :=
  ⟨watched_start config observer, upkept_start config observer⟩

variable {config : Config} {observer : Hook → Nat → Option String} {now : Nat} {s : Site}

theorem eq_of_serial (upkept : sc.Upkept) {n n' : ConnId × Serial}
    (member : n ∈ Site.opened sc.past) (member' : n' ∈ Site.opened sc.past) (same : n.2 = n'.2) :
    n = n' := by
  have few : sc.arrivals n.2 ≤ 1 := by
    rw [upkept.arrivals]
    split <;> decide
  exact Keyed.eq_of_countP_le_one (Nat.le_trans (Nat.le_add_left _ _) few) member (by simp) member'
    (by simp [same])

theorem arrived_or_opened (upkept : sc.Upkept) (known : (sc.site.connection? serial).isSome) :
    (∃ target, Command.connected target (.ok serial) ∈ sc.commands) ∨
      ∃ id, (id, serial) ∈ Site.opened sc.past := by
  have once := upkept.arrivals serial
  rw [if_pos known, Scene.arrivals] at once
  by_cases brought : 0 < sc.commands.countP fun c => c.brought? = some serial
  · obtain ⟨c, member, brings⟩ := List.countP_pos_iff.mp brought
    left
    match c with
    | .connected target (.ok serial') =>
      simp only [Command.brought?, Option.some.injEq, decide_eq_true_eq] at brings
      subst brings
      exact ⟨target, member⟩
  · have had : 0 < (Site.opened sc.past).countP fun n => n.2 = serial := by omega
    obtain ⟨⟨id, serial'⟩, member, here⟩ := List.countP_pos_iff.mp had
    simp only [decide_eq_true_eq] at here
    subst here
    exact .inr ⟨id, member⟩

theorem closings_once (upkept : sc.Upkept) (serial : Serial) :
    (Site.closings sc.past).count serial ≤ 1 := by
  have parted := upkept.parted serial
  have once := upkept.arrivals serial
  rw [Scene.arrivals] at once
  split at once <;> omega

/-- A listener whose connection has fired can notice it. -/
theorem told_of_notices (traced : sc.Traced) (opened : (id, serial) ∈ Site.opened sc.past)
    (fired : sc.site.Fired serial) (some_left : 0 < sc.notices id) :
    Command.closed id ∈ sc.commands ∨ ∀ later, sc.site.allows later (.notice id) = true := by
  rw [Scene.notices] at some_left
  by_cases told : 0 < sc.commands.countP fun c => c.noticed? = some id
  · obtain ⟨c, member, noticed⟩ := List.countP_pos_iff.mp told
    cases c with
    | closed id' =>
      simp only [Command.noticed?, Option.some.injEq, decide_eq_true_eq] at noticed
      subst noticed
      exact .inl member
    | _ => simp [Command.noticed?] at noticed
  · have listening : 0 < sc.site.listeners.countP fun l => l.id = id := by omega
    obtain ⟨l, listens, here⟩ := List.countP_pos_iff.mp listening
    simp only [decide_eq_true_eq] at here
    obtain ⟨c, known, fired⟩ := fired
    have same := eq_of_opened traced (traced.listening l listens) opened here
    have heard : l.serial = serial := congrArg Prod.snd same
    refine .inr fun later => List.any_eq_true.mpr ⟨l, listens, ?_⟩
    simp [here, heard, known, fired]

/-- No connection is lost. Every one that was opened for the pool is still reported to it, or was
taken up, and then it is registered, remembered as closing, or has fired its close signal. While
somebody holds on to the pool, the close of each one that it answers for is going to be noticed
exactly once, which can happen as soon as the signal has fired; and what has been noticed is not
answered for any more. No connection is told to close twice, and when the task of the pool is over,
every connection that it had was told to close or has fired. -/
theorem no_connection_lost (run : Site.Run config observer past now s) :
    (∀ serial, (s.connection? serial).isSome →
      (∃ target, Command.connected target (.ok serial) ∈ s.mailbox) ∨
        ∃ id, (id, serial) ∈ Site.opened past ∧ ((id, serial) ∈ s.pool.registry.names ∨
          id ∈ s.pool.registry.closing ∨ s.Fired serial)) ∧
      (s.isReachable = true → ∀ id, id ∈ s.pool.registry.ids ∨ id ∈ s.pool.registry.closing →
        s.notices id = 1 ∧ ∀ serial, (id, serial) ∈ Site.opened past → s.Fired serial →
          Command.closed id ∈ s.mailbox ∨ ∀ later, s.allows later (.notice id) = true) ∧
      (∀ id ∈ Site.noticed past, id ∉ s.pool.registry.ids ∧ id ∉ s.pool.registry.closing) ∧
      (∀ serial, (Site.closings past).count serial ≤ 1) ∧
      (s.ended = true → ∀ n ∈ Site.opened past, n.2 ∈ Site.closings past ∨ s.Fired n.2) := by
  obtain ⟨m, attended⟩ := run_invariant Scene.Attended run attended_move
    (attended_start config observer)
  have traced := attended.watched.traced
  have upkept := attended.upkept
  refine ⟨?_, ?_, ?_, ?_, ?_⟩
  · intro serial known
    refine (arrived_or_opened upkept known).imp_right fun ⟨id, opened⟩ => ⟨id, opened, ?_⟩
    cases traced.tracked _ opened with
    | fired fired => exact .inr (.inr fired)
    | registered known => exact .inl known
    | closing remembered told => exact .inr (.inl remembered)
  · intro reachable id charged
    have some_left := upkept.awaited reachable id charged
    refine ⟨Nat.le_antisymm (upkept.single id) some_left, fun serial opened fired => ?_⟩
    exact told_of_notices traced opened fired some_left
  · intro id noticed
    rcases upkept.taken id noticed with task | gone
    · cases task
    · exact ⟨fun registered => gone.2 (.inl registered), fun closing => gone.2 (.inr closing)⟩
  · exact fun serial => closings_once upkept serial
  · intro stopped n opened
    have emptied : s.pool.Emptied := by
      cases stage_of_run run with
      | unasked nobody going => cases going.symm.trans stopped
      | asked k first emptied waiters => exact emptied
      | finished stopped emptied => exact emptied
    cases traced.tracked n opened with
    | fired fired => exact .inr fired
    | registered known =>
      have unregistered : s.pool.registry.names = [] := by
        rw [Registry.names, emptied.unregistered]
        rfl
      rw [Scene.registry, unregistered] at known
      cases known
    | closing remembered told =>
      -- What is remembered as closing was told so by the pool itself.
      obtain ⟨serial, had, closed⟩ := upkept.remembered n.1 remembered
      have same : n = (n.1, serial) := eq_of_opened traced opened had rfl
      exact .inl (congrArg Prod.snd same ▸ closed)

/-- A pool is closed, and its connection confirms that later. -/
def confirmedLater : List (Nat × Option Site.Event) :=
  [(0, some (.acquire ⟨1⟩)), (0, none),
    (5, some (.connected ⟨0⟩ (.ok (⟨1⟩, { confirmation := .fromOutside })))), (5, none),
    (9, some (.close ⟨2⟩)), (9, none), (12, some (.fire ⟨1⟩))]

theorem notice_of_confirmedLater :
    ∃ past now s, Site.Run {} (fun _ _ => none) past now s ∧ ⟨1⟩ ∈ s.pool.registry.closing ∧
      s.notices ⟨1⟩ = 1 ∧ s.allows now (.notice ⟨1⟩) = true ∧ Site.closings past = [⟨1⟩] := by
  obtain ⟨past, now, s, run, seen⟩ :=
    Site.exists_run {} (fun _ _ => none) confirmedLater
      (fun past s => s.isReachable && s.pool.registry.closing.contains ⟨1⟩ &&
        s.mailbox.isEmpty && (Site.opened past).contains (⟨1⟩, ⟨1⟩) &&
        ((s.connection? ⟨1⟩).map (·.fired)) == some true && Site.closings past == [⟨1⟩])
      (by decide +kernel)
  simp only [Bool.and_eq_true, beq_iff_eq, List.contains_iff_mem, List.isEmpty_iff,
    Option.map_eq_some_iff] at seen
  obtain ⟨⟨⟨⟨⟨reachable, closing⟩, empty⟩, opened⟩, c, known, fired⟩, told⟩ := seen
  obtain ⟨one, heard⟩ := (no_connection_lost run).2.1 reachable ⟨1⟩ (.inr closing)
  refine ⟨past, now, s, run, closing, one, ?_, told⟩
  rcases heard ⟨1⟩ opened ⟨c, known, fired⟩ with waiting | allowed
  · rw [empty] at waiting
    cases waiting
  · exact allowed now

end LoanPool
