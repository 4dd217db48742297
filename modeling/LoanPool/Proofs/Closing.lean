import LoanPool.Proofs.Confirmation
import LoanPool.Proofs.Custody

/-!
# The end of a close

The first close of a pool is answered in one of two places: after a command that leaves nothing
registered, closing or being opened, and at the end of the task. The first of them waits until every
connection has confirmed its close, the second does not.
-/
namespace LoanPool
open Pending (Request)

def Command.closer? : Command → Option Ticket
  | .close k => some k
  | _ => none

def Site.firstCloser? (past : List Record) : Option Ticket :=
  past.findSome? fun rec => rec.command.bind Command.closer?

variable {sc sc' : Scene} {past : List Site.Record} {k : Ticket}

theorem firstCloser?_concat (past : List Site.Record) (rec : Site.Record) :
    Site.firstCloser? (past ++ [rec]) =
      (Site.firstCloser? past).or (rec.command.bind Command.closer?) := by
  rw [Site.firstCloser?, List.findSome?_append]
  cases eq : rec.command.bind Command.closer? <;> simp [Site.firstCloser?, eq]

theorem firstCloser?_of_mem {rec : Site.Record} (member : rec ∈ past)
    (command : rec.command = some (.close k)) : (Site.firstCloser? past).isSome := by
  rw [Site.firstCloser?, List.findSome?_isSome_iff]
  exact ⟨rec, member, by rw [command]; rfl⟩

theorem isSome_firstCloser_move (move : Move sc sc')
    (some_asked : (Site.firstCloser? sc.past).isSome) :
    (Site.firstCloser? sc'.past).isSome := by
  have appended : ∀ rec, (Site.firstCloser? (sc.past ++ [rec])).isSome := by
    intro rec
    rw [firstCloser?_concat]
    simp [some_asked]
  cases recording_move move with
  | same past memory => rwa [past]
  | begin free due => exact appended _
  | effect p h e => exact appended _

structure Scene.Complete (sc : Scene) : Prop where
  free : sc.hand.task = none
  closed : sc.pool.closed = true
  empty : sc.registry.entries = []
  settled : sc.registry.isDrained = true ∨ sc.command = none ∧ sc.site.ended = true

inductive Scene.Pledged (sc : Scene) (k : Ticket) : Prop where
  | begun (task : sc.hand = { task := some (some (.close k)) }) (opened : sc.pool.closed = false)
  | closing (closer : sc.hand.closer = some k)
  | waiting (waits : k ∈ sc.pool.closeWaiters)
  | due (owed : k ∈ sc.hand.replies) (complete : sc.Complete)
  | done (answered : 1 ≤ Site.answers sc.past k)

structure Scene.Closing (sc : Scene) : Prop where
  begun : ∀ k, sc.command = some (.close k) → (Site.firstCloser? sc.past).isSome
  last : sc.hand.task = some none → sc.site.ended = true
  shut : sc.pool.closed = true → (Site.firstCloser? sc.past).isSome ∨ sc.site.ended = true
  pledged : ∀ k, Site.firstCloser? sc.past = some k → sc.Pledged k

/-! ### Moves -/

theorem ended_onward_move (move : Move sc sc') (stopped : sc.site.ended = true) :
    sc'.site.ended = true := by
  have shift := shift_move move
  generalize sc'.site = after at shift
  cases shift with
  | event allowed => exact (Site.ended_happen _).trans stopped
  | begin due =>
    cases Site.next_of_due due with
    | command oldest => exact stopped
    | ending empty lost => rfl
  | pool p => exact stopped
  | @effect p h e reachable =>
    exact (Site.ended_enact (s := sc.site.withPool p) sc.now e).trans stopped

/-- A connection in hand is registered. -/
theorem registered_of_held (a : sc.Accounted) {id : ConnId} (held : sc.hand.conn = some id) :
    sc.registry.entries ≠ [] := by
  intro empty
  obtain ⟨slot, known, -⟩ := a.held id held
  simp [Registry.slot?, Registry.find?, empty] at known

theorem registered_of_discard? {confirms : Serial → Bool} {r r' : Registry} {id : ConnId}
    {serial : Serial} (removed : r.discard? confirms id = some (serial, r')) : r.entries ≠ [] := by
  intro empty
  have member := Registry.mem_names_of_discard? removed
  simp [Registry.names, empty] at member

/-- A pool that has closed and has nothing registered does nothing to its registry any more, as long
as it is in the middle of a turn. -/
theorem registry_of_complete (a : sc.Accounted) (busy : sc.hand.replies ≠ [])
    (complete : sc.Complete) (move : Move sc sc') : sc'.registry = sc.registry := by
  have unheld : ∀ {id : ConnId}, sc.hand.conn ≠ some id :=
    fun held => registered_of_held a held complete.empty
  have acted : ∀ {c : Option Command}, sc.hand ≠ { task := some c } := by
    intro c task
    rw [task] at busy
    exact busy rfl
  cases move with
  | event order allowed => simp [Scene.registry]
  | begin free due =>
    rw [free] at busy
    exact absurd rfl busy
  | checkout free empty opened taken => simp [complete.closed] at opened
  | connect held opened unarmed reachable drained room => simp [complete.closed] at opened
  | evict free empty closed honest removed =>
    exact absurd complete.empty (registered_of_discard? removed)
  | _ =>
    first
    | exact absurd ‹sc.hand.conn = some _› unheld
    | exact absurd ‹sc.hand = { task := some _ }› acted
    | simp only [Scene.registry, Scene.pool_emit, Scene.pool_alter]

theorem complete_move (a : sc.Accounted) (busy : sc.hand.replies ≠ []) (complete : sc.Complete)
    (move : Move sc sc') : sc'.Complete := by
  have registry := registry_of_complete a busy complete move
  have free : sc'.hand.task = none := by
    cases tasking_move move with
    | kept same => exact same.trans complete.free
    | begun free due task =>
      rw [free] at busy
      exact absurd rfl busy
    | acted task done ends => exact done
  constructor
  · exact free
  · rcases closed_move move with same | ⟨closed, -⟩
    · exact same.trans complete.closed
    · exact closed
  · exact registry ▸ complete.empty
  · rw [registry, (memory_move move free).1]
    exact complete.settled.imp_right (And.imp_right (ended_onward_move move))

theorem entries_of_isDrained {r : Registry} (drained : r.isDrained = true) :
    r.entries = [] ∧ r.closing = [] ∧ r.connecting = 0 := by
  simpa [Registry.isDrained, and_assoc] using drained

theorem pledged_move (a : sc.Accounted) (pledged : sc.Pledged k) (move : Move sc sc') :
    sc'.Pledged k := by
  -- Each stage stays, or goes on to the next one: asked for, closing, waiting, due, answered.
  cases pledged with
  | begun task opened =>
    cases move with
    | event order allowed => exact .begun task (by simpa [Scene.pool] using opened)
    | wait order => exact .begun task opened
    | begin free due =>
      rw [free] at task
      cases task
    | dismiss task' moot =>
      rw [task] at task'
      cases task'
      cases opened.symm.trans moot
    | shut task' ends opened' =>
      rw [task] at task'
      cases task'
      obtain ⟨k', rfl, same⟩ := Option.map_eq_some_iff.mp ends.symm
      cases same
      exact .closing rfl
    | _ => simp_all [Command.returned?]
  | closing closer =>
    cases move with
    | await owed =>
      refine .waiting ?_
      rw [owed] at closer
      cases closer
      exact List.mem_append_right _ (List.mem_singleton_self _)
    | _ => first | exact .closing closer | simp_all
  | waiting waits =>
    cases move with
    | event order allowed => exact .waiting (by simpa [Scene.pool] using waits)
    | begin free due => exact .waiting (by simpa [Scene.pool, Site.pool_next? due] using waits)
    | await owed => exact .waiting (List.mem_append_left _ waits)
    | report free closed complete =>
      refine .due waits ⟨rfl, closed, ?_, complete.imp_right (·.2)⟩
      exact complete.elim (fun drained => (entries_of_isDrained drained).1) (·.1)
    | _ => exact .waiting (by simpa only [Scene.pool_emit, Scene.pool_alter] using waits)
  | due owed complete =>
    have busy : sc.hand.replies ≠ [] := List.ne_nil_of_mem owed
    have complete' := complete_move a busy complete move
    cases move with
    | @answer k' ks outcome owed' plain =>
      rw [owed'] at owed
      rcases List.mem_cons.mp owed with rfl | owed
      · exact .done (by rw [answers_emit]; simp [Effect.answered?])
      · exact .due owed complete'
    | check held replies reachable known checking =>
      exact absurd complete.empty (registered_of_held a held)
    | _ => first | exact .due owed complete' | simp_all
  | done answered => exact .done (Nat.le_trans answered (answers_move move k))

theorem closer?_eq_some {c : Option Command} (asks : c.bind Command.closer? = some k) :
    c = some (.close k) := by
  match c with
  | some (.close k') =>
    cases asks
    rfl

theorem begun_close_move (closing : sc.Closing) (move : Move sc sc') (k : Ticket)
    (command : sc'.command = some (.close k)) : (Site.firstCloser? sc'.past).isSome := by
  cases recording_move move with
  | same past memory =>
    rw [past]
    exact closing.begun k ((congrArg Memory.command memory).symm.trans command)
  | begin free due =>
    exact firstCloser?_of_mem (List.mem_append_right _ (List.mem_singleton_self _)) command
  | effect p h e => exact isSome_firstCloser_move move (closing.begun k command)

theorem last_ended_move (closing : sc.Closing) (move : Move sc sc')
    (task : sc'.hand.task = some none) : sc'.site.ended = true := by
  have kept : sc.hand.task = some none → sc'.site.ended = true :=
    fun task => ended_onward_move move (closing.last task)
  cases move with
  | begin free due =>
    cases task
    exact Site.ended_next? due
  | _ => first | exact kept task | cases task

theorem shut_closing_move (ends : sc.Ends) (closing : sc.Closing) (move : Move sc sc')
    (closed : sc'.pool.closed = true) :
    (Site.firstCloser? sc'.past).isSome ∨ sc'.site.ended = true := by
  rcases closed_move move with same | ⟨-, closer, task⟩
  · exact (closing.shut (same ▸ closed)).imp (isSome_firstCloser_move move) (ended_onward_move move)
  · cases closer with
    | none => exact .inr (ended_onward_move move (closing.last (congrArg Hand.task task)))
    | some k =>
      obtain ⟨rec, member, command⟩ := ends.begun _ (congrArg Hand.task task)
      exact .inl (isSome_firstCloser_move move (firstCloser?_of_mem member command))

/-- Nothing has closed a pool that takes up its first close. -/
theorem open_of_first (ends : sc.Ends) (closing : sc.Closing)
    (first : Site.firstCloser? sc.past = none) {c : Command} {rest : Site}
    (due : sc.site.next? = some (some c, rest)) : sc.pool.closed = false := by
  cases closed : sc.pool.closed with
  | false => rfl
  | true =>
    rcases closing.shut closed with asked | stopped
    · simp [first] at asked
    · have waiting := Site.mailbox_next? due
      rw [(ends.ended stopped).2] at waiting
      cases waiting

theorem pledged_first_move (a : sc.Accounted) (ends : sc.Ends) (closing : sc.Closing)
    (move : Move sc sc') (k : Ticket) (first : Site.firstCloser? sc'.past = some k) :
    sc'.Pledged k := by
  cases recording_move move with
  | same past memory => exact pledged_move a (closing.pledged k (past ▸ first)) move
  | begin free due =>
    rw [firstCloser?_concat] at first
    cases before : Site.firstCloser? sc.past with
    | some k' =>
      rw [before] at first
      cases first
      exact pledged_move a (closing.pledged k before) move
    | none =>
      rw [before, Option.none_or] at first
      -- The close that is taken up is the first one, so nothing has closed the pool before.
      have task := closer?_eq_some first
      dsimp only at task
      subst task
      refine .begun rfl ?_
      simp only [Scene.pool, Site.pool_next? due]
      exact open_of_first ends closing before due
  | effect p h e =>
    refine pledged_move a (closing.pledged k ?_) move
    change Site.firstCloser? (sc.past ++ [_]) = some k at first
    rw [firstCloser?_concat] at first
    cases before : Site.firstCloser? sc.past with
    | some k' => rwa [before, Option.some_or] at first
    | none =>
      rw [before, Option.none_or] at first
      have asked := closing.begun k (closer?_eq_some first)
      simp [before] at asked

theorem closing_move (a : sc.Accounted) (ends : sc.Ends) (move : Move sc sc')
    (closing : sc.Closing) : sc'.Closing where
  begun := begun_close_move closing move
  last := last_ended_move closing move
  shut := shut_closing_move ends closing move
  pledged := pledged_first_move a ends closing move

theorem closing_start (config : Config) (observer : Hook → Nat → Option String) :
    (Scene.start config observer).Closing where
  begun _ idle := by cases idle
  last idle := by cases idle
  shut opened := by cases opened
  pledged _ nobody := by cases nobody

/-! ### Runs -/

/-- A close that was the first one is answered when there is nothing left to be waited for. -/
theorem complete_of_answering (kept : sc.Kept) (closing : sc.Closing) {h : Hand}
    (answering : Answering sc k .done h) (first : Site.firstCloser? sc.past = some k) :
    sc.Complete := by
  -- The caller is owed one answer in all, which leaves only the stage at which this one is due.
  have once := kept.answered.once k
  rw [Scene.owed, dues_eq] at once
  cases answering with
  | reply owed plain =>
    simp only [Hand.dues, Pool.dues, owed, countP_cons_toNat, decide_true, Bool.toNat_true] at once
    cases closing.pledged k first with
    | begun task opened =>
      rw [task] at owed
      cases owed
    | closing closer =>
      rw [closer] at once
      simp at once
      omega
    | waiting waits =>
      have counted : 0 < sc.pool.closeWaiters.countP fun t => t = k :=
        List.countP_pos_iff.mpr ⟨k, waits, by simp⟩
      omega
    | due owed' complete => exact complete
    | done answered => omega

structure Scene.Watched (sc : Scene) : Prop where
  kept : sc.Kept
  traced : sc.Traced
  closing : sc.Closing

theorem watched_move (move : Move sc sc') (watched : sc.Watched) : sc'.Watched where
  kept := kept_move move watched.kept
  traced := traced_move watched.kept.accounted move watched.traced
  closing := closing_move watched.kept.accounted watched.kept.ends move watched.closing

theorem watched_start (config : Config) (observer : Hook → Nat → Option String) :
    (Scene.start config observer).Watched :=
  ⟨kept_start config observer, traced_start config observer, closing_start config observer⟩

/-- Where nothing is being opened, no attempt to connect is under way or reported. -/
theorem unopened_of_connecting (a : sc.Accounted) (opening : sc.registry.connecting = 0) :
    sc.site.connects = [] ∧ ∀ c ∈ sc.site.mailbox, c.isConnected = false := by
  have none_left : ∀ c ∈ sc.underWay, c.isConnected = false := by
    have counted := a.opening
    rw [opening, eq_comm, List.countP_eq_zero] at counted
    exact fun c member => by simpa using counted c member
  constructor
  · refine List.eq_nil_iff_forall_not_mem.mpr fun j member => ?_
    have connected := none_left j.command (by
      simp only [Scene.underWay, Site.underWay, List.mem_append, List.mem_map]
      exact .inr (.inl (.inr ⟨j, member, rfl⟩)))
    cases connected
  · intro c member
    refine none_left c ?_
    simp only [Scene.underWay, Site.underWay, List.mem_append]
    exact .inr (.inl (.inl member))

theorem connecting_of_ended (a : sc.Accounted) (ends : sc.Ends) (free : sc.hand.task = none)
    (stopped : sc.site.ended = true) : sc.registry.connecting = 0 := by
  obtain ⟨lost, empty⟩ := ends.ended stopped
  simp only [Site.isReachable, Bool.or_eq_false_iff, Bool.not_eq_false', List.isEmpty_iff] at lost
  rw [a.opening, Scene.underWay, free, Site.underWay, empty, lost.1.2, lost.2]
  rfl

variable {config : Config} {observer : Hook → Nat → Option String} {before : Pool}
  {c : Option Command} {s : Site}

/-- When the first close is answered nothing is registered, and no attempt to connect is under way.
If that is after a command, every connection that the pool ever had has fired its close signal. At
the end of the task, when nothing holds on to the pool any more, it is answered although there may
be connections that were told to close and have not confirmed it. -/
theorem close_complete
    (midst : Site.Midst config observer past before c s (some (.answer k .done)))
    (first : Site.firstCloser? past = some k) :
    s.pool.registry.entries = [] ∧ s.pool.registry.connecting = 0 ∧ s.connects = [] ∧
      (∀ c ∈ s.mailbox, c.isConnected = false) ∧
      (s.pool.registry.closing = [] ∧ (∀ n ∈ Site.opened past, s.Fired n.2) ∨
        c = none ∧ s.isReachable = false ∧ ∀ n ∈ Site.opened past,
          s.Fired n.2 ∨ n.1 ∈ s.pool.registry.closing ∧ s.Told n.2) := by
  cases happens_of_midst midst watched_move (watched_start config observer) with
  | @intro sc sc' p h e watched move eq =>
    obtain ⟨rfl, answering⟩ := answering_move move eq
    have a := watched.kept.accounted
    have complete := complete_of_answering watched.kept watched.closing answering first
    have unregistered : sc.registry.names = [] := by rw [Registry.names, complete.empty]; rfl
    -- What is not registered any more has fired, or is remembered until it has.
    have traced : ∀ n ∈ Site.opened sc.past, sc.site.Fired n.2 ∨
        n.1 ∈ sc.registry.closing ∧ sc.site.Told n.2 := by
      intro n member
      cases watched.traced.tracked n member with
      | fired fired => exact .inl fired
      | registered known => simp [unregistered] at known
      | closing remembered told => exact .inr ⟨remembered, told⟩
    have opening : sc.registry.connecting = 0 := by
      rcases complete.settled with drained | ⟨-, stopped⟩
      · exact (entries_of_isDrained drained).2.2
      · exact connecting_of_ended a watched.kept.ends complete.free stopped
    obtain ⟨connects, mailbox⟩ := unopened_of_connecting a opening
    refine ⟨complete.empty, opening, connects, mailbox, ?_⟩
    rcases complete.settled with drained | ⟨last, stopped⟩
    · have closing : sc.registry.closing = [] := (entries_of_isDrained drained).2.1
      refine .inl ⟨closing, fun n member => ?_⟩
      exact (traced n member).resolve_right fun remembered => by simp [closing] at remembered
    · exact .inr ⟨last, (watched.kept.ends.ended stopped).1, traced⟩

/-- A pool with one connection is asked to close. -/
def closedAtOnce : List (Nat × Option Site.Event) :=
  [(0, some (.acquire ⟨1⟩)), (0, none), (5, some (.connected ⟨0⟩ (.ok (⟨1⟩, {})))), (5, none),
    (9, some (.close ⟨2⟩))]

theorem complete_of_closedAtOnce :
    ∃ past before c s, Site.Midst { maxConnections := 1 } (fun _ _ => none) past before c s
        (some (.answer ⟨2⟩ .done)) ∧
      Site.firstCloser? past = some ⟨2⟩ ∧ (⟨1⟩, ⟨1⟩) ∈ Site.opened past ∧ s.Fired ⟨1⟩ := by
  obtain ⟨past, before, c, s, next, midst, seen⟩ :=
    Site.exists_midst { maxConnections := 1 } (fun _ _ => none) closedAtOnce 1
      (fun past _ c _ next => next == some (.answer ⟨2⟩ .done) && c.isSome &&
        Site.firstCloser? past == some ⟨2⟩ && (Site.opened past).contains (⟨1⟩, ⟨1⟩))
      (by decide +kernel)
  simp only [Bool.and_eq_true, beq_iff_eq, List.contains_iff_mem] at seen
  obtain ⟨⟨⟨rfl, command⟩, first⟩, opened⟩ := seen
  refine ⟨past, before, c, s, midst, first, opened, ?_⟩
  rcases (close_complete midst first).2.2.2.2 with ⟨-, fired⟩ | ⟨rfl, -⟩
  · exact fired _ opened
  · cases command

/-- The connection of a pool does not confirm its close before the last handle is dropped. -/
def unconfirmed : List (Nat × Option Site.Event) :=
  [(0, some (.acquire ⟨1⟩)), (0, none),
    (5, some (.connected ⟨0⟩ (.ok (⟨1⟩, { confirmation := .fromOutside })))), (5, none),
    (9, some (.close ⟨2⟩)), (9, none), (9, some .dropHandle)]

/-- The first close is answered while a connection has not confirmed its close. -/
theorem incomplete_of_unconfirmed :
    ¬∀ config observer past before c s k, Site.Midst config observer past before c s
        (some (.answer k .done)) →
      Site.firstCloser? past = some k →
        s.pool.registry.closing = [] ∧ ∀ n ∈ Site.opened past, s.Fired n.2 := by
  intro claim
  obtain ⟨past, before, c, s, next, midst, seen⟩ :=
    Site.exists_midst { maxConnections := 1 } (fun _ _ => none) unconfirmed 0
      (fun past _ _ s next => next == some (.answer ⟨2⟩ .done) &&
        Site.firstCloser? past == some ⟨2⟩ && (Site.opened past).contains (⟨1⟩, ⟨1⟩) &&
        ((s.connection? ⟨1⟩).map (·.fired)) == some false)
      (by decide +kernel)
  simp only [Bool.and_eq_true, beq_iff_eq, List.contains_iff_mem] at seen
  obtain ⟨⟨⟨rfl, first⟩, opened⟩, silent⟩ := seen
  obtain ⟨c', known, fired⟩ := (claim _ _ _ _ _ _ _ midst first).2 _ opened
  simp [known, fired] at silent

end LoanPool
