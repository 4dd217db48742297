import LoanPool.Proofs.Registry.Balance
import LoanPool.Proofs.Traffic

/-!
# Accounting

The registry is in balance at every moment of every run, in the middle of a turn as well, and its
count of connections being opened is the count of those that are. A connection that the pool has in
hand is in use.
-/
namespace LoanPool

structure Scene.Accounted (sc : Scene) : Prop where
  numbered : sc.site.Numbered
  balanced : sc.registry.Balanced
  opening : sc.registry.connecting = sc.underWay.countP Command.isConnected
  named : ∀ id ∈ sc.registry.ids, id.number < sc.pool.nextConn
  remembered : ∀ id ∈ sc.registry.closing, id.number < sc.pool.nextConn
  held : ∀ id, sc.hand.conn = some id →
    ∃ slot, sc.registry.slot? id = some slot ∧ slot ≠ .idle

variable {sc sc' : Scene}

theorem accounted_start (config : Config) (observer : Hook → Nat → Option String) :
    (Scene.start config observer).Accounted where
  numbered := ⟨List.nodup_nil, List.nodup_nil, nofun, nofun⟩
  balanced :=
    ⟨List.nodup_nil, List.nodup_nil, fun _ => ⟨nofun, nofun⟩, rfl, nofun, rfl⟩
  opening := rfl
  named := nofun
  remembered := nofun
  held := nofun

theorem blind_isConnected : Command.Blind Command.isConnected :=
  ⟨fun _ _ => rfl, fun _ _ _ => rfl⟩

/-! ### What a move does to the registry -/

inductive Bookkeeping (sc sc' : Scene) : Prop where
  | moved (kept : sc.registry.Moved sc'.registry) (next : sc'.pool.nextConn = sc.pool.nextConn)
  | dropped {id : ConnId} (gone : sc.registry.Dropped sc'.registry id)
      (next : sc'.pool.nextConn = sc.pool.nextConn)
  | reserved {target : Target} (drained : sc.registry.idle = [])
      (done : sc'.registry = sc.registry.reserve) (next : sc'.pool.nextConn = sc.pool.nextConn)
      (past : ∃ rec : Site.Record, rec.effect = some (.connect target) ∧
        sc'.past = sc.past ++ [rec])
      (room : ∀ r, target = .owned r → sc.registry.acquired < sc.pool.config.maxConnections)
  | cancelled {target : Target} {cause : String}
      (task : sc.hand = { task := some (some (.connected target (.error cause))) })
      (done : sc'.registry = sc.registry.cancelReservation)
      (next : sc'.pool.nextConn = sc.pool.nextConn)
  | registered {target : Target} {serial : Serial}
      (task : sc.hand = { task := some (some (.connected target (.ok serial))) })
      (done : sc'.registry = sc.registry.register ⟨sc.pool.nextConn⟩ serial)
      (next : sc'.pool.nextConn = sc.pool.nextConn + 1)

theorem Bookkeeping.same (registry : sc'.registry = sc.registry)
    (next : sc'.pool.nextConn = sc.pool.nextConn) : Bookkeeping sc sc' :=
  .moved (registry ▸ ⟨rfl, rfl, rfl⟩) next

theorem bookkeeping_move (move : Move sc sc') : Bookkeeping sc sc' := by
  cases move with
  | event order allowed =>
    have same := Site.pool_happen sc.site
    exact .same (congrArg Pool.registry (same _)) (congrArg Pool.nextConn (same _))
  | begin free due =>
    have same := Site.pool_next? due
    exact .same (congrArg Pool.registry same) (congrArg Pool.nextConn same)
  | wait order => exact .same rfl rfl
  | seize task back closed honest removed => exact .dropped (Registry.dropped_discard? removed) rfl
  | takeBack task back opened lent => exact .moved (Registry.moved_beginCheck? lent) rfl
  | connectDone task => exact .registered task rfl rfl
  | connectFailed task => exact .cancelled task rfl rfl
  | overflow task queued due reachable drained =>
    exact .reserved drained rfl rfl ⟨_, rfl, rfl⟩ nofun
  | forget task => exact .dropped Registry.dropped_forget rfl
  | checkout free empty opened taken => exact .moved (Registry.moved_checkout? taken) rfl
  | discard held honest removed => exact .dropped (Registry.dropped_discard? removed) rfl
  | evict free empty closed honest removed =>
    exact .dropped (Registry.dropped_discard? removed) rfl
  | handOver held => exact .moved Registry.moved_handOver rfl
  | checkIn held unwanted kept => exact .moved Registry.moved_checkIn? rfl
  | putBack held unwanted => exact .moved Registry.moved_putBack? rfl
  | connect held opened unarmed reachable drained room =>
    exact .reserved drained rfl rfl ⟨_, rfl, rfl⟩ fun _ _ => room
  | _ =>
    -- The rest leaves the registry alone, and some of it answers a caller.
    refine .same ?_ ?_
    · simp only [Scene.registry, Scene.pool_emit, Scene.pool_alter]
    · simp only [Scene.pool_emit, Scene.pool_alter]

theorem balanced_move (a : sc.Accounted) (move : Move sc sc') : sc'.registry.Balanced := by
  have b := a.balanced
  cases move with
  | event order allowed => simpa only [Scene.registry, Site.pool_happen] using b
  | begin free due => simpa only [Scene.registry, Site.pool_next? due] using b
  | takeBack task back opened lent => exact Registry.balanced_beginCheck? b lent
  | connectDone task =>
    simp only [Scene.registry, Scene.pool_emit, Scene.pool_alter]
    -- The attempt that is reported here was counted, and its name was never given out.
    refine Registry.balanced_register b ?_ ?_ ?_
    · rw [a.opening, Scene.underWay_of_task task]
      simp [Command.isConnected]
    · exact fun member => Nat.lt_irrefl _ (a.named _ member)
    · exact fun closing => Nat.lt_irrefl _ (a.remembered _ closing)
  | connectFailed task =>
    apply Registry.balanced_cancelReservation b
    rw [a.opening, Scene.underWay_of_task task]
    simp [Command.isConnected]
  | overflow task queued due reachable drained =>
    simp only [Scene.registry, Scene.pool_emit, Scene.pool_alter]
    exact Registry.balanced_reserve b
  | forget task => exact Registry.balanced_forget b
  | checkout free empty opened taken => exact Registry.balanced_checkout? b taken
  | seize task back closed honest removed =>
    simp only [Scene.registry, Scene.pool_emit, Scene.pool_alter]
    exact Registry.balanced_discard? b removed
  | discard held honest removed =>
    simp only [Scene.registry, Scene.pool_emit, Scene.pool_alter]
    exact Registry.balanced_discard? b removed
  | evict free empty closed honest removed =>
    simp only [Scene.registry, Scene.pool_emit, Scene.pool_alter]
    exact Registry.balanced_discard? b removed
  | handOver held => exact Registry.balanced_handOver b
  | checkIn held unwanted kept => exact Registry.balanced_checkIn b
  | putBack held unwanted => exact Registry.balanced_putBack b
  | connect held opened unarmed reachable drained room =>
    simp only [Scene.registry, Scene.pool_emit, Scene.pool_alter]
    exact Registry.balanced_reserve b
  | wait order => exact b
  | _ => simpa only [Scene.registry, Scene.pool_emit, Scene.pool_alter] using b

theorem connected_of_sends (s : Site) (e : Site.Event) :
    (s.sends e).countP Command.isConnected = 0 := by
  rw [List.countP_eq_zero]
  intro c sent
  simp [(Site.plain_of_sends sent).2]

theorem connected_of_moot {p : Pool} {c : Command} (moot : c.Moot p) : c.isConnected = false := by
  cases c with
  | connected target result => exact moot.elim
  | _ => rfl

theorem connected_of_returned {c : Command} {id : ConnId} (back : c.returned? = some id) :
    c.isConnected = false := by
  cases c with
  | connected target result => cases back
  | _ => rfl

theorem opening_move (a : sc.Accounted) (move : Move sc sc') :
    sc'.registry.connecting = sc'.underWay.countP Command.isConnected := by
  have opening := a.opening
  -- Only the report of an attempt takes one off the count.
  have acted : ∀ {c : Command}, sc.hand = { task := some (some c) } → c.isConnected = false →
      sc.registry.connecting = sc.site.underWay.countP Command.isConnected := by
    intro c task other
    rw [opening, Scene.countP_of_task task, other]
    rfl
  cases move with
  | event order allowed =>
    simp only [Scene.registry, Site.pool_happen, Scene.underWay, List.countP_append,
      Site.countP_underWay_happen a.numbered blind_isConnected, connected_of_sends] at opening ⊢
    exact opening
  | wait order => exact opening
  | begin free due =>
    rw [← Scene.underWay_begin free due] at opening
    simp only [Scene.registry, Site.pool_next? due]
    exact opening
  | dismiss task moot => exact acted task (connected_of_moot moot)
  | refuse task closed =>
    simp only [Scene.registry, Scene.pool_emit, Scene.pool_alter, Scene.countP_underWay_emit]
    exact acted task rfl
  | acquire task opened quiet => exact acted task rfl
  | stats task =>
    simp only [Scene.registry, Scene.pool_emit, Scene.pool_alter, Scene.countP_underWay_emit]
    exact acted task rfl
  | @shut c closer task ends opened =>
    subst ends
    cases closer with
    | none =>
      rw [Scene.underWay_of_end task] at opening
      exact opening
    | some k => exact acted task rfl
  | seize task back closed honest removed =>
    simp only [Scene.registry, Scene.pool_emit, Scene.pool_alter, Scene.countP_underWay_emit,
      (Registry.dropped_discard? removed).connecting]
    exact acted task (connected_of_returned back)
  | takeBack task back opened lent =>
    simp only [Scene.registry, Scene.pool_alter, (Registry.moved_beginCheck? lent).connecting]
    exact acted task (connected_of_returned back)
  | connectDone task =>
    rw [Scene.countP_of_task task] at opening
    simp only [Scene.registry, Scene.pool_emit, Scene.pool_alter, Scene.countP_underWay_emit]
    exact Nat.sub_eq_of_eq_add opening
  | connectFailed task =>
    rw [Scene.countP_of_task task] at opening
    exact Nat.sub_eq_of_eq_add opening
  | verdict task checking => exact acted task rfl
  | expire task queued => exact acted task rfl
  | overflow task queued due reachable drained =>
    simp only [Scene.registry, Scene.pool_emit, Scene.pool_alter, Scene.countP_underWay_emit]
    exact congrArg (· + 1) (acted task rfl)
  | forget task =>
    simp only [Scene.registry, Scene.pool_alter, Registry.dropped_forget.connecting]
    exact acted task rfl
  | checkout free empty opened taken =>
    simp only [Scene.registry, Scene.pool_alter, (Registry.moved_checkout? taken).connecting]
    exact opening
  | discard held honest removed =>
    simp only [Scene.registry, Scene.pool_emit, Scene.pool_alter, Scene.countP_underWay_emit,
      (Registry.dropped_discard? removed).connecting]
    exact opening
  | evict free empty closed honest removed =>
    simp only [Scene.registry, Scene.pool_emit, Scene.pool_alter, Scene.countP_underWay_emit,
      (Registry.dropped_discard? removed).connecting]
    exact opening
  | handOver held =>
    simp only [Scene.registry, Scene.pool_alter, Registry.moved_handOver.connecting]
    exact opening
  | checkIn held unwanted kept =>
    simp only [Scene.registry, Scene.pool_alter, Registry.moved_checkIn?.connecting]
    exact opening
  | putBack held unwanted =>
    simp only [Scene.registry, Scene.pool_alter, Registry.moved_putBack?.connecting]
    exact opening
  | connect held opened unarmed reachable drained room =>
    simp only [Scene.registry, Scene.pool_emit, Scene.pool_alter, Scene.countP_underWay_emit]
    exact congrArg (· + 1) opening
  | report free closed complete =>
    rw [Scene.underWay_of_free free] at opening
    exact opening
  | _ =>
    simp only [Scene.registry, Scene.pool_emit, Scene.pool_alter, Scene.countP_underWay_emit]
    exact opening

theorem named_move (a : sc.Accounted) (move : Move sc sc') :
    ∀ id ∈ sc'.registry.ids, id.number < sc'.pool.nextConn := by
  have named := a.named
  intro id member
  cases bookkeeping_move move with
  | moved kept next =>
    rw [kept.ids] at member
    exact next ▸ named id member
  | dropped gone next => exact next ▸ named id (gone.ids.subset member)
  | reserved drained done next past room =>
    rw [done] at member
    exact next ▸ named id member
  | cancelled task done next =>
    rw [done] at member
    exact next ▸ named id member
  | registered task done next =>
    rw [done] at member
    rw [next]
    rcases Registry.mem_ids_register member with rfl | member
    · exact Nat.lt_succ_self _
    · exact Nat.lt_succ_of_lt (named id member)

theorem remembered_move (a : sc.Accounted) (move : Move sc sc') :
    ∀ id ∈ sc'.registry.closing, id.number < sc'.pool.nextConn := by
  have remembered := a.remembered
  intro id member
  cases bookkeeping_move move with
  | moved kept next =>
    rw [kept.closing] at member
    exact next ▸ remembered id member
  | dropped gone next =>
    rw [next]
    -- What is closing was closing before, or has been registered until now.
    rcases gone.closing id member with member | ⟨rfl, known⟩
    · exact remembered id member
    · exact a.named id known
  | reserved drained done next past room =>
    rw [done] at member
    exact next ▸ remembered id member
  | cancelled task done next =>
    rw [done] at member
    exact next ▸ remembered id member
  | registered task done next =>
    rw [done] at member
    exact next ▸ Nat.lt_succ_of_lt (remembered id member)

theorem held_move (a : sc.Accounted) (move : Move sc sc') (id : ConnId)
    (inHand : sc'.hand.conn = some id) :
    ∃ slot, sc'.registry.slot? id = some slot ∧ slot ≠ .idle := by
  have held := a.held
  cases move with
  | event order allowed =>
    simp only [Scene.registry, Site.pool_happen]
    exact held id inHand
  | wait order => exact held id inHand
  | takeBack task back opened lent =>
    cases inHand
    exact ⟨.checking, ((Registry.slot?_beginCheck? lent).2 id).trans (if_pos rfl), by simp⟩
  | connectDone task =>
    cases inHand
    simp only [Scene.registry, Scene.pool_emit, Scene.pool_alter]
    exact ⟨.onLoan, Registry.slot?_register.trans (if_pos rfl), by simp⟩
  | connectFailed task => cases inHand
  | verdict task checking =>
    cases inHand
    have known : sc.registry.slot? id = some .checking := by
      simpa [Registry.isChecking] using checking
    exact ⟨.checking, known, by simp⟩
  | checkout free empty opened taken =>
    cases inHand
    have head := Registry.slot?_checkout?_self a.balanced taken
    exact ⟨.onLoan, head.2, by simp⟩
  | handOver inHand' =>
    obtain ⟨slot, known, used⟩ := held id inHand
    simp only [Scene.registry, Scene.pool_alter, Registry.slot?_handOver]
    split
    · exact ⟨.onLoan, rfl, by simp⟩
    · exact ⟨slot, known, used⟩
  | evict free empty closed honest removed =>
    simp only [Scene.hand_emit, Scene.hand_alter, empty] at inHand
    cases inHand
  | connect inHand' opened unarmed reachable drained room =>
    simp only [Scene.registry, Scene.pool_emit, Scene.pool_alter]
    exact held id inHand
  | _ =>
    first
    | cases inHand
    | simp only [Scene.registry, Scene.pool_emit, Scene.pool_alter]; exact held id inHand

theorem accounted_move (move : Move sc sc') (a : sc.Accounted) : sc'.Accounted where
  numbered := numbered_move move a.numbered
  balanced := balanced_move a move
  opening := opening_move a move
  named := named_move a move
  remembered := remembered_move a move
  held := held_move a move

/-! ### What callers are told -/

def Site.Record.tellsStats (rec : Site.Record) : Bool :=
  match rec.effect with
  | some (.answer _ (.stats _)) => true
  | _ => false

theorem Site.Record.exists_of_tellsStats {rec : Site.Record} (tells : rec.tellsStats = true) :
    ∃ k stats, rec.effect = some (.answer k (.stats stats)) := by
  simp only [tellsStats] at tells
  split at tells
  · next k stats eq => exact ⟨k, stats, eq⟩
  · cases tells

def Scene.Told (sc : Scene) : Prop :=
  ∀ rec ∈ sc.past, ∀ k stats, rec.effect = some (.answer k (.stats stats)) →
    stats.isConsistent = true

theorem consistent_stats {p : Pool} (b : p.registry.Balanced) : p.stats.isConsistent = true := by
  simpa [Stats.isConsistent, Pool.stats] using Registry.size_add_connecting b

theorem told_emit {e : Effect} (told : sc.Told)
    (honest : ∀ k stats, e = .answer k (.stats stats) → stats.isConsistent = true) :
    (sc.emit e).Told := by
  intro rec member k stats eq
  rcases List.mem_append.mp member with member | new
  · exact told rec member k stats eq
  · rw [List.mem_singleton.mp new] at eq
    exact honest k stats (Option.some.inj eq)

theorem told_move (a : sc.Accounted) (move : Move sc sc') (told : sc.Told) : sc'.Told := by
  cases move with
  | begin free due =>
    intro rec member k stats eq
    rcases List.mem_append.mp member with member | new
    · exact told rec member k stats eq
    · rw [List.mem_singleton.mp new] at eq
      cases eq
  | stats task =>
    have before : (sc.alter sc.pool {}).Told := told
    apply told_emit before
    rintro k stats eq
    cases eq
    exact consistent_stats a.balanced
  | @answer k ks outcome owed plain =>
    have before : (sc.alter sc.pool { sc.hand with replies := ks }).Told := told
    apply told_emit before
    rintro k stats eq
    cases eq
    rcases plain with plain | ⟨reason, plain⟩ <;> cases plain
  | _ =>
    first
    | exact told
    | refine told_emit told ?_; rintro k stats eq; cases eq

/-- In every state between two commands of every run, the counters of the registry tell the
connections that are being opened and those that are in use, the queue tells the idle ones, and no
closing connection is registered. So every accounting that was ever answered is consistent, and
nothing was ever taken from a counter that stood at zero. -/
theorem accounts_balance {config : Config} {observer : Hook → Nat → Option String}
    {past : List Site.Record} {now : Nat} {s : Site} (run : Site.Run config observer past now s) :
    s.pool.registry.connecting = s.connects.length + s.mailbox.countP Command.isConnected ∧
      s.pool.registry.acquired = s.pool.registry.connecting +
        s.pool.registry.entries.countP (fun e => e.slot = .onLoan ∨ e.slot = .checking) ∧
      (s.pool.registry.idle.Nodup ∧
        ∀ id, id ∈ s.pool.registry.idle ↔ s.pool.registry.slot? id = some .idle) ∧
      (s.pool.registry.ids.Nodup ∧ ∀ id ∈ s.pool.registry.closing, id ∉ s.pool.registry.ids) ∧
      (∀ rec ∈ past, ∀ k stats, rec.effect = some (.answer k (.stats stats)) →
        stats.registered + stats.connecting = stats.idle + stats.acquired) ∧
      s.pool.registry.overdrawn = false := by
  obtain ⟨c, a, told⟩ := run_invariant (fun sc => sc.Accounted ∧ sc.Told) run
    (fun move before => ⟨accounted_move move before.1, told_move before.1 move before.2⟩)
    ⟨accounted_start config observer, fun _ member => absurd member List.not_mem_nil⟩
  have opening : s.pool.registry.connecting = s.underWay.countP Command.isConnected := a.opening
  refine ⟨?_, a.balanced.units, ⟨a.balanced.queued, a.balanced.idle⟩,
    ⟨a.balanced.named, a.balanced.apart⟩, ?_, a.balanced.solvent⟩
  · rw [opening, Site.countP_underWay]
    simp [ConnectJob.command, CheckJob.command, Command.isConnected]
    omega
  · intro rec member k stats eq
    simpa [Stats.isConsistent] using told rec member k stats eq

/-- One connection is on loan and another one is being opened when a caller asks for the
accounting. -/
def counted : List (Nat × Option Site.Event) :=
  [(0, some (.acquire ⟨1⟩)), (0, none), (3, some (.connected ⟨0⟩ (.ok (⟨1⟩, {})))), (3, none),
    (4, some (.read ⟨1⟩)), (5, some (.acquire ⟨2⟩)), (5, none), (6, some (.stats ⟨3⟩)), (6, none)]

theorem accounts_of_counted :
    ∃ past now s, Site.Run { maxConnections := 2 } (fun _ _ => none) past now s ∧
      s.pool.registry.connecting = 1 ∧
      s.connects.length + s.mailbox.countP Command.isConnected = 1 ∧
      s.pool.registry.acquired = 1 + s.pool.registry.entries.countP
        (fun e => e.slot = .onLoan ∨ e.slot = .checking) ∧
      ∃ rec ∈ past, ∃ k stats, rec.effect = some (.answer k (.stats stats)) ∧
        stats.registered + stats.connecting = stats.idle + stats.acquired := by
  obtain ⟨past, now, s, run, seen⟩ :=
    Site.exists_run { maxConnections := 2 } (fun _ _ => none) counted
      (fun past s => s.pool.registry.connecting == 1 && past.any (·.tellsStats))
      (by decide +kernel)
  obtain ⟨one, told⟩ : s.pool.registry.connecting = 1 ∧ past.any (·.tellsStats) := by
    simpa using seen
  obtain ⟨connecting, acquired, -, -, consistent, -⟩ := accounts_balance run
  obtain ⟨rec, member, tells⟩ := List.any_eq_true.mp told
  obtain ⟨k, stats, eq⟩ := Site.Record.exists_of_tellsStats tells
  rw [one] at connecting acquired
  exact ⟨past, now, s, run, one, connecting.symm, acquired, rec, member, k, stats, eq,
    consistent rec member k stats eq⟩

end LoanPool
