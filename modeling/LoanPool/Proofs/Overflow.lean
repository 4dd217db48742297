import LoanPool.Proofs.Precedence

/-!
# Connections past capacity

A connection that was asked for when a deadline passed goes to the request whose deadline it was, as
long as that is queued. If it is not, its caller has been answered or has left, or the request has
been taken out of the queue for another connection, which is still being opened.
-/
namespace LoanPool
open Pending (Request Queue)

def Target.sought? : Target → Option RequestId
  | .owned _ => none
  | .queued id => some id

def Command.sought? : Command → Option RequestId
  | .connected target _ => target.sought?
  | _ => none

/-- A connection has come to a caller, or would have if the observer had not objected. -/
def Reached (k : Ticket) (id : ConnId) (serial : Serial) (effects : List Effect) : Prop :=
  .answer k (.loan id serial) ∈ effects ∨ ∃ reason,
    .hook .acquired serial (some reason) ∈ effects ∧
      .answer k (.failed (.observer reason)) ∈ effects

variable {sc sc' : Scene} {z : Setting} {t t' : Turn} {h h' : Hand} {id : ConnId} {serial : Serial}
  {k : Ticket} {past : List Site.Record}

/-! ### What has taken place -/

theorem past_of_path (path : Path sc sc') : sc.past <+: sc'.past := by
  induction path with
  | refl => exact List.prefix_refl _
  | tail _ move ih =>
    refine ih.trans ?_
    cases recording_move move with
    | same past memory => exact past ▸ List.prefix_refl _
    | begin free due => exact List.prefix_append _ _
    | effect p h e => exact List.prefix_append _ _

theorem effects_of_path (path : Path (z.scene t h) (z.scene t' h')) : t.effects <+: t'.effects := by
  have longer := past_of_path path
  simp only [Setting.scene, List.prefix_append_right_inj] at longer
  have effects := longer.filterMap fun rec => rec.effect
  simpa only [List.filterMap_map, Function.comp_def, List.filterMap_eq_map', Turn.effects]
    using effects

theorem gone_onward (left : z.world.gone t.effects k = true)
    (longer : t.effects <+: t'.effects) : z.world.gone t'.effects k = true := by
  obtain ⟨more, eq⟩ := longer
  simp only [Setting.world, Site.surroundings, decide_eq_true_eq] at left ⊢
  rw [← eq]
  exact z.course.abandoned_append left more

theorem reached_onward (reached : Reached k id serial t.effects)
    (longer : t.effects <+: t'.effects) : Reached k id serial t'.effects :=
  reached.imp (longer.subset ·) fun ⟨reason, refused, told⟩ =>
    ⟨reason, longer.subset refused, longer.subset told⟩

namespace Turn
variable {w : Surroundings}

theorem mem_emit (t : Turn) (e : Effect) : e ∈ (t.emit e).effects := by
  rw [effects_emit]
  exact List.mem_append_right _ (List.mem_singleton_self e)

theorem prefix_emit (t : Turn) (e : Effect) : t.effects <+: (t.emit e).effects := by
  rw [effects_emit]
  exact List.prefix_append _ _

theorem prefix_disarm (t : Turn) (r : Request) : t.effects <+: (t.disarm r).effects := by
  simp only [disarm]
  split
  · exact prefix_emit t _
  · exact List.prefix_refl _

theorem prefix_discard (t : Turn) (id : ConnId) : t.effects <+: (t.discard w id).effects := by
  simp only [discard]
  split
  · next serial r removed => exact prefix_emit (t.withRegistry r) _
  · exact List.prefix_refl _

end Turn

/-! ### Delivery -/

/-- A connection comes to the caller that it is handed to, unless that has left. -/
theorem reached_of_attempt {r : Request} (known : t.pool.registry.serial? id = some serial) :
    if (t.attempt z.world r id).1 then
      z.world.gone (t.attempt z.world r id).2.effects r.ticket = true
    else Reached r.ticket id serial (t.attempt z.world r id).2.effects := by
  generalize tried : t.attempt z.world r id = result
  unfold Turn.attempt at tried
  rw [known] at tried
  dsimp only at tried
  split at tried
  · next reason refused =>
    cases tried
    have called : Effect.hook .acquired serial (some reason) ∈
        (t.call z.world .acquired serial).effects := by
      rw [← refused]
      exact Turn.mem_emit t _
    refine .inr ⟨reason, ?_, Turn.mem_emit _ _⟩
    exact ((Turn.prefix_discard _ id).trans
      ((Turn.prefix_disarm _ r).trans (Turn.prefix_emit _ _))).subset called
  · split at tried
    · next left =>
      cases tried
      exact left
    · cases tried
      exact .inl (Turn.mem_emit _ _)

theorem reached_of_deliver {r : Request} (known : t.pool.registry.serial? id = some serial)
    (lent : t.pool.registry.slot? id = some .onLoan) :
    Reached r.ticket id serial (t.deliver z.world r id).effects ∨
      z.world.gone (t.deliver z.world r id).effects r.ticket = true := by
  have tried := reached_of_attempt (z := z) (r := r) known
  simp only [Turn.deliver]
  split
  · next left =>
    rw [if_pos left] at tried
    have still : (t.attempt z.world r id).2.pool.registry.slot? id = some .onLoan := by
      rw [Turn.pool_attempt left]
      exact lent
    -- The connection goes on to others, and the caller has left.
    exact .inr (gone_onward tried (effects_of_path
      (path_recycle [] ⟨.onLoan, still, by simp⟩ (fit_of_lent still)
        (rfl : Stage.spare.isReady = true))))
  · next taken =>
    rw [if_neg taken] at tried
    exact .inl tried

/-- The first thing about a new connection is that the observer is asked. -/
theorem prefix_connected {target : Target} (opened : t.pool.closed = false)
    (same : z.memory.command = some (.connected target (.ok serial))) :
    ((t.register serial).2.call z.world .created serial).effects <+:
      (t.connected z.world target (.ok serial)).effects := by
  have still : (t.register serial).2.pool.closed = false := opened
  have lent : (t.register serial).2.pool.registry.slot? ⟨t.pool.nextConn⟩ = some .onLoan :=
    Registry.slot?_register.trans (if_pos rfl)
  have called : ∀ {t h} id, target = .queued id → (z.scene t h).Calls id := by
    rintro t h id rfl
    exact .inl ⟨_, same⟩
  simp only [Turn.connected]
  rw [if_neg (by simp [still])]
  split
  · next reason refused =>
    have discarded : Path
        (z.scene ((t.register serial).2.call z.world .created serial)
          { conn := some ⟨t.pool.nextConn⟩, requests := target.requests })
        (z.scene ((((t.register serial).2.call z.world .created serial).discard z.world
          ⟨t.pool.nextConn⟩).failTarget target (.observer reason)) {}) :=
      (path_discard rfl fun staged => by cases staged).trans
        (path_failTarget target rfl rfl called (trivial : z.Grounds _ (.observer reason)))
    exact effects_of_path discarded
  · exact effects_of_path (path_place same lent (rfl : Stage.spare.isReady = true))

theorem reached_of_connected {request : RequestId} {r : Request} (opened : t.pool.closed = false)
    (accepted : (t.register serial).2.refusal z.world .created serial = none)
    (queued : t.pool.pending.find? request = some r) :
    let effects := (t.connected z.world (.queued request) (.ok serial)).effects
    Reached r.ticket ⟨t.pool.nextConn⟩ serial effects ∨ z.world.gone effects r.ticket = true := by
  have still : (t.register serial).2.pool.closed = false := opened
  obtain ⟨t', found⟩ : ∃ t',
      ((t.register serial).2.call z.world .created serial).takePending request =
        (some r, t') := by
    have removed : ((t.register serial).2.call z.world .created serial).pool.pending.remove? request
        = some (r, _) := congrArg (Option.map _) queued
    rw [Turn.takePending, removed]
    exact ⟨_, rfl⟩
  have lent : t'.pool.registry.slot? ⟨t.pool.nextConn⟩ = some .onLoan := by
    rw [Turn.registry_takePending found]
    exact Registry.slot?_register.trans (if_pos rfl)
  have known : t'.pool.registry.serial? ⟨t.pool.nextConn⟩ = some serial := by
    rw [Turn.registry_takePending found]
    exact Registry.serial?_register_self
  simp only [Turn.connected]
  rw [if_neg (by simp [still]), accepted]
  simp only [Turn.place, found]
  exact reached_of_deliver known lent

/-! ### On whose behalf -/

def Scene.Sought (sc : Scene) : Prop :=
  ∀ id, 0 < sc.site.underWay.countP (fun c => c.sought? = some id) →
    ∃ k, Site.caller? sc.past id = some k

theorem blind_sought (id : RequestId) : Command.Blind fun c => c.sought? = some id :=
  ⟨fun _ _ => rfl, fun _ _ _ => rfl⟩

theorem sought_of_sends (s : Site) (e : Site.Event) (id : RequestId) :
    (s.sends e).countP (fun c => c.sought? = some id) = 0 := by
  refine List.countP_eq_zero.mpr fun c sent seeks => ?_
  have plain := (Site.plain_of_sends sent).2
  cases c with
  | connected target result => cases plain
  | _ => simp [Command.sought?] at seeks

theorem sought_move (a : sc.Accounted) (listed : sc.Listed) (move : Move sc sc')
    (sought : sc.Sought) : sc'.Sought := by
  intro id some_seek
  have kept : 0 < sc.site.underWay.countP (fun c => c.sought? = some id) →
      ∃ k, Site.caller? sc'.past id = some k := by
    intro before
    obtain ⟨k, named⟩ := sought id before
    exact ⟨k, caller?_move move named⟩
  have emitted : ∀ {p : Pool} {h : Hand} {e : Effect}, sc' = (sc.alter p h).emit e →
      e.starts.countP (fun c => c.sought? = some id) = 0 →
        ∃ k, Site.caller? sc'.past id = some k := by
    intro p h e eq none_started
    apply kept
    have counted : sc'.site.underWay.countP (fun c => c.sought? = some id) =
        sc.site.underWay.countP (fun c => c.sought? = some id) +
          e.starts.countP fun c => c.sought? = some id := by
      rw [eq]
      exact Site.countP_underWay_enact (s := sc.site.withPool p) sc.now e
    omega
  cases move with
  | event order allowed =>
    apply kept
    rw [Site.countP_underWay_happen a.numbered (blind_sought id), sought_of_sends] at some_seek
    exact some_seek
  | begin free due =>
    apply kept
    rw [Site.underWay_next? due, List.countP_append]
    exact Nat.lt_of_lt_of_le some_seek (Nat.le_add_left _ _)
  | @overflow request r r' task queued due reachable drained =>
    by_cases same : request = id
    · subst same
      obtain ⟨member, named⟩ := Queue.mem_of_find? queued
      have caller := (listed.caller _ _ (bearing_of_queued member)).2
      rw [named] at caller
      exact ⟨r.ticket, caller?_append caller _⟩
    · exact emitted rfl (by simp [Effect.starts, Command.sought?, Target.sought?, same])
  | connect held opened unarmed reachable drained room =>
    exact emitted rfl (by simp [Effect.starts, Command.sought?, Target.sought?])
  | _ => first | exact kept some_seek | exact emitted rfl rfl

theorem sought_start (config : Config) (observer : Hook → Nat → Option String) :
    (Scene.start config observer).Sought :=
  fun _ some_seek => absurd some_seek (Nat.lt_irrefl 0)

theorem eq_of_caller? {id id' : RequestId} (distinct : (Site.acquires past).Nodup)
    (named : Site.caller? past id = some k) (named' : Site.caller? past id' = some k) :
    id = id' := by
  simp only [Site.caller?] at named named'
  split at named
  · cases named
  · split at named'
    · cases named'
    · obtain ⟨inside, -⟩ := List.getElem?_eq_some_iff.mp named
      have same := (List.getElem?_inj inside distinct).mp (named.trans named'.symm)
      exact congrArg RequestId.mk (by omega)

theorem attends_of_unqueued (orderly : sc.Orderly) (free : sc.hand = {}) {id : RequestId}
    (named : Site.caller? sc.past id = some k) (gone : sc.pool.pending.find? id = none) :
    sc.site.Attends sc.past k := by
  have asked : k ∈ Site.acquires sc.past := by
    simp only [Site.caller?] at named
    split at named
    · cases named
    · exact List.mem_of_getElem? named
  refine attends_of_asked (orderly.known.asked k asked) (by rw [free]) (by rw [free]; rfl) ?_
  refine List.countP_eq_zero.mpr fun r queued mine => ?_
  simp only [decide_eq_true_eq] at mine
  subst mine
  -- Its name would be the one that is not queued, as each caller has one name.
  have caller := (orderly.listed.caller _ _ (bearing_of_queued queued)).2
  have same := eq_of_caller? orderly.known.distinct caller named
  have found := List.find?_eq_none.mp gone r queued
  simp [same] at found

/-! ### Runs -/

variable {config : Config} {observer : Hook → Nat → Option String} {now later : Nat}
  {s rest : Site} {request : RequestId}

/-- A turn that begins so is one in which the observer does not object to the connection. -/
theorem unrefused_of_accepted {p : Pool} (opened : p.closed = false)
    (same : z.memory.command = some (.connected (.queued request) (.ok serial)))
    (longer : (Turn.connected z.world ⟨p, []⟩ (.queued request) (.ok serial)).effects <+: t.effects)
    (accepted : [.listen ⟨p.nextConn⟩ serial, .hook .created serial none] <+: t.effects) :
    ((Turn.mk p []).register serial).2.refusal z.world .created serial = none := by
  have begins : [.listen ⟨p.nextConn⟩ serial, .hook .created serial
      (((Turn.mk p []).register serial).2.refusal z.world .created serial)] <+: t.effects :=
    (prefix_connected (t := ⟨p, []⟩) opened same).trans longer
  have eq := (List.prefix_of_prefix_length_le begins accepted (Nat.le_refl 2)).eq_of_length rfl
  simpa using eq

/-- When a connection past capacity is there, in an open pool and without an objection of the
observer, it comes to the caller whose deadline it was opened for, unless that has left. Otherwise
the caller has been answered before, or its request travels with another attempt to connect. -/
theorem overflow_reaches_waiter (run : Site.Run config observer past now s)
    (due : s.next? = some (some (.connected (.queued request) (.ok serial)), rest))
    (course : Site.Course later rest) (opened : s.pool.closed = false)
    (accepted : [.listen ⟨s.pool.nextConn⟩ serial, .hook .created serial none] <+:
      (course.turn (some (.connected (.queued request) (.ok serial)))).effects) :
    ∃ k, Site.caller? past request = some k ∧
      (Reached k ⟨s.pool.nextConn⟩ serial
          (course.turn (some (.connected (.queued request) (.ok serial)))).effects ∨
        (course.after (some (.connected (.queued request) (.ok serial)))).standing k = .abandoned ∨
        s.Attends past k) := by
  have step : ∀ {a b : Scene}, Move a b → a.Orderly ∧ a.Sought → b.Orderly ∧ b.Sought :=
    fun move held => ⟨orderly_move move held.1,
      sought_move held.1.kept.accounted held.1.listed move held.2⟩
  obtain ⟨m, orderly, sought⟩ := run_invariant (fun sc => sc.Orderly ∧ sc.Sought) run step
    ⟨orderly_start config observer, sought_start config observer⟩
  obtain ⟨k, named⟩ : ∃ k, Site.caller? past request = some k := by
    refine sought request ?_
    rw [Site.underWay_next? due, List.countP_append]
    exact Nat.lt_of_lt_of_le (by simp [Command.sought?, Target.sought?]) (Nat.le_add_right _ _)
  refine ⟨k, named, ?_⟩
  rw [← Site.pool_next? due] at opened accepted ⊢
  let z : Setting :=
    { now := later, site := rest, course, past
      memory := m.begin (some (.connected (.queued request) (.ok serial))) s }
  have longer : (Turn.connected z.world ⟨rest.pool, []⟩ (.queued request) (.ok serial)).effects <+:
      (course.turn (some (.connected (.queued request) (.ok serial)))).effects :=
    effects_of_path (z := z) (path_servePending.trans path_settleClose)
  have unrefused := unrefused_of_accepted (z := z) opened rfl longer accepted
  cases queued : rest.pool.pending.find? request with
  | none =>
    right
    right
    rw [Site.pool_next? due] at queued
    exact attends_of_unqueued orderly rfl named queued
  | some r =>
    obtain ⟨member, same⟩ := Queue.mem_of_find? queued
    rw [Site.pool_next? due] at member
    have caller := (orderly.listed.caller _ _ (bearing_of_queued member)).2
    obtain rfl : k = r.ticket := by
      rw [same, named] at caller
      exact Option.some.inj caller
    rcases reached_of_connected (z := z) (t := ⟨rest.pool, []⟩) opened unrefused queued with
      reached | left
    · exact .inl (reached_onward reached longer)
    · have still := gone_onward left longer
      simp only [Setting.world, Site.surroundings, decide_eq_true_eq] at still
      exact .inr (.inl still)

/-- The site without its next command, if that brings this connection past capacity. -/
def Site.overflowed? (s : Site) (request : RequestId) (serial : Serial) : Option Site :=
  match s.next? with
  | some (some (.connected (.queued id) (.ok opened)), rest) =>
    if id = request ∧ opened = serial then some rest else none
  | _ => none

theorem next?_of_overflowed? {s : Site} (brought : s.overflowed? request serial = some rest) :
    s.next? = some (some (.connected (.queued request) (.ok serial)), rest) := by
  simp only [Site.overflowed?] at brought
  split at brought
  · next due =>
    split at brought
    · next same =>
      cases brought
      rw [due, same.1, same.2]
    · cases brought
  · cases brought

/-- The deadline of a waiter passes, and the connection that is opened then is there. -/
def overdueServed : List (Nat × Option Site.Event) :=
  [(0, some (.acquire ⟨1⟩)), (0, none), (0, some (.connected ⟨0⟩ (.ok (⟨1⟩, {})))), (0, none),
    (0, some (.read ⟨1⟩)), (0, some (.acquire ⟨2⟩)), (0, none), (10000003, some (.deadline ⟨2⟩)),
    (10000003, none), (10000005, some (.connected ⟨1⟩ (.ok (⟨2⟩, {}))))]

theorem waiter_of_overdueServed :
    ∃ past now s rest, Site.Run
        { maxConnections := 1, acquireTimeoutMs := 10, timeoutAction := .newConnection }
        (fun _ _ => none) past now s ∧
      s.next? = some (some (.connected (.queued ⟨2⟩) (.ok ⟨2⟩)), rest) ∧
      Reached ⟨2⟩ ⟨2⟩ ⟨2⟩ ((Site.Course.alone 10000005 rest).turn
        (some (.connected (.queued ⟨2⟩) (.ok ⟨2⟩)))).effects := by
  obtain ⟨past, now, s, run, seen⟩ := Site.exists_run
    { maxConnections := 1, acquireTimeoutMs := 10, timeoutAction := .newConnection }
    (fun _ _ => none) overdueServed
    (fun past s => (s.overflowed? ⟨2⟩ ⟨2⟩).any fun rest =>
      let course := Site.Course.alone 10000005 rest
      let c := some (.connected (.queued ⟨2⟩) (.ok ⟨2⟩))
      !s.pool.closed && s.pool.nextConn == 2 &&
        [.listen ⟨2⟩ ⟨2⟩, .hook .created ⟨2⟩ none].isPrefixOf (course.turn c).effects &&
        Site.caller? past ⟨2⟩ == some ⟨2⟩ && (course.after c).standing ⟨2⟩ != .abandoned &&
        s.openings ⟨2⟩ == 0 && Site.answers past ⟨2⟩ == 0 && s.standing ⟨2⟩ != .abandoned)
    (by decide +kernel)
  obtain ⟨rest, brought, seen⟩ := (Option.any_eq_true _ _).mp seen
  have due := next?_of_overflowed? brought
  simp only [Bool.and_eq_true, beq_iff_eq, bne_iff_ne, Bool.not_eq_true'] at seen
  obtain ⟨⟨⟨⟨⟨⟨⟨opened, next⟩, accepted⟩, named⟩, stays⟩, unopened⟩, unheard⟩, present⟩ := seen
  have begins : [.listen ⟨s.pool.nextConn⟩ ⟨2⟩, .hook .created ⟨2⟩ none] <+:
      ((Site.Course.alone 10000005 rest).turn
        (some (.connected (.queued ⟨2⟩) (.ok ⟨2⟩)))).effects := by
    rw [next]
    exact List.isPrefixOf_iff_prefix.mp accepted
  refine ⟨past, now, s, rest, run, due, ?_⟩
  obtain ⟨k, named', outcome⟩ :=
    overflow_reaches_waiter run due (.alone 10000005 rest) opened begins
  obtain rfl : ⟨2⟩ = k := Option.some.inj (named.symm.trans named')
  rcases outcome with reached | left | attended
  · rwa [next] at reached
  · exact absurd left stays
  · simp [Site.Attends, unopened, unheard, present] at attended

/-- The deadline of a waiter passes, and then the connections of two others break. There is room
again, so another connection is asked for on behalf of the waiter. -/
def overdueTwice : List (Nat × Option Site.Event) :=
  [(0, some (.acquire ⟨1⟩)), (0, none), (0, some (.connected ⟨0⟩ (.ok (⟨1⟩, {})))), (0, none),
    (0, some (.read ⟨1⟩)), (0, some (.acquire ⟨2⟩)), (0, none),
    (0, some (.connected ⟨1⟩ (.ok (⟨2⟩, {})))), (0, none), (0, some (.read ⟨2⟩)),
    (0, some (.acquire ⟨3⟩)), (0, none), (10000003, some (.deadline ⟨3⟩)), (10000003, none),
    (10000004, some (.fire ⟨1⟩)), (10000004, some (.notice ⟨1⟩)), (10000004, none),
    (10000004, some (.fire ⟨2⟩)), (10000004, some (.notice ⟨2⟩)), (10000004, none),
    (10000005, some (.connected ⟨2⟩ (.ok (⟨3⟩, {}))))]

/-- The connection that was opened for its deadline is put away while the caller still waits. -/
theorem overtaken_of_overdueTwice :
    ¬∀ config observer past now s request serial rest later,
      Site.Run config observer past now s →
      s.next? = some (some (.connected (.queued request) (.ok serial)), rest) →
      ∀ course : Site.Course later rest, s.pool.closed = false →
        [.listen ⟨s.pool.nextConn⟩ serial, .hook .created serial none] <+:
          (course.turn (some (.connected (.queued request) (.ok serial)))).effects →
        ∀ k, Site.caller? past request = some k →
          Reached k ⟨s.pool.nextConn⟩ serial
            (course.turn (some (.connected (.queued request) (.ok serial)))).effects ∨
          (course.after (some (.connected (.queued request) (.ok serial)))).standing k =
            .abandoned ∨
          1 ≤ Site.answers past k := by
  intro claim
  obtain ⟨past, now, s, run, seen⟩ := Site.exists_run
    { maxConnections := 2, acquireTimeoutMs := 10, timeoutAction := .newConnection }
    (fun _ _ => none) overdueTwice
    (fun past s => (s.overflowed? ⟨3⟩ ⟨3⟩).any fun rest =>
      let course := Site.Course.alone 10000005 rest
      let c := some (.connected (.queued ⟨3⟩) (.ok ⟨3⟩))
      !s.pool.closed &&
        (course.turn c).effects == [.listen ⟨s.pool.nextConn⟩ ⟨3⟩, .hook .created ⟨3⟩ none] &&
        Site.caller? past ⟨3⟩ == some ⟨3⟩ && (course.after c).standing ⟨3⟩ != .abandoned &&
        Site.answers past ⟨3⟩ == 0)
    (by decide +kernel)
  obtain ⟨rest, brought, seen⟩ := (Option.any_eq_true _ _).mp seen
  have due := next?_of_overflowed? brought
  simp only [Bool.and_eq_true, beq_iff_eq, bne_iff_ne, Bool.not_eq_true'] at seen
  obtain ⟨⟨⟨⟨opened, effects⟩, named⟩, present⟩, unheard⟩ := seen
  rcases claim _ _ _ _ _ _ _ _ _ run due (.alone 10000005 rest) opened
      (effects ▸ List.prefix_refl _) _ named with reached | left | answered
  · simp [effects, Reached] at reached
  · exact present left
  · omega

end LoanPool
