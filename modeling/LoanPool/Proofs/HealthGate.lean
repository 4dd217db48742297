import LoanPool.Proofs.Inspection
import LoanPool.Proofs.Overflow

/-!
# The health gate

Each registered connection is at one of six stages, which say how far its last loan and the check
after it have come. From them follows that, with health checks on, nothing is idle, or lent again,
without a good verdict on a check that came after the loan.
-/
namespace LoanPool

variable {sc sc' : Scene} {id : ConnId} {p : Pool} {h : Hand} {e : Effect}

/-! ### The invariant -/

/-- With health checks on, a connection has been found healthy after each loan of it. -/
def Scene.Cleared (sc : Scene) (id : ConnId) : Prop :=
  sc.pool.config.checkOnRelease = true → Site.Cleared sc.past id

inductive Scene.Care (sc : Scene) (id : ConnId) : Prop where
  | gone (slot : sc.registry.slot? id = none)
  | idle (slot : sc.registry.slot? id = some .idle) (count : sc.inspections id = 0)
      (cleared : sc.Cleared id)
  | inUse (slot : sc.registry.slot? id = some .onLoan) (count : sc.inspections id = 0)
      (cleared : sc.hand.conn = some id → sc.Cleared id)
  | examined (slot : sc.registry.slot? id = some .checking) (count : sc.inspections id = 1)
      (unheld : sc.hand.conn ≠ some id) (unjudged : sc.judging ≠ some id)
      (examined : Site.Examined sc.past id)
  | judged (slot : sc.registry.slot? id = some .checking) (count : sc.inspections id = 1)
      (unheld : sc.hand.conn ≠ some id) (judging : sc.judging = some id)
      (cleared : ∀ reply, sc.command = some (.checked id true reply) → sc.Cleared id)
  | returned (slot : sc.registry.slot? id = some .checking) (count : sc.inspections id = 0)
      (held : sc.hand.conn = some id) (unjudged : sc.judging ≠ some id)
      (cleared : ∀ reply, sc.command = some (.checked id true reply) → sc.Cleared id)

namespace Scene.Care

/-- What is idle, or in hand and fit for the next caller, has been found healthy. -/
theorem cleared_of_idle (care : sc.Care id) (slot : sc.registry.slot? id = some .idle) :
    sc.Cleared id := by
  cases care with
  | idle _ count cleared => exact cleared
  | gone other | inUse other | examined other | judged other | returned other =>
    cases other.symm.trans slot

theorem cleared_of_lent (care : sc.Care id) (slot : sc.registry.slot? id = some .onLoan)
    (held : sc.hand.conn = some id) : sc.Cleared id := by
  cases care with
  | inUse _ count cleared => exact cleared held
  | gone other | idle other | examined other | judged other | returned other =>
    cases other.symm.trans slot

theorem cleared_of_fit (care : sc.Care id) (held : sc.hand.conn = some id) (fit : sc.Fit id)
    (used : sc.registry.slot? id ≠ none) : sc.Cleared id := by
  cases care with
  | gone slot => exact absurd slot used
  | idle slot count cleared => exact cleared
  | inUse slot count cleared => exact cleared held
  | examined slot count unheld => exact absurd held unheld
  | judged slot count unheld => exact absurd held unheld
  | returned slot count _ unjudged cleared =>
    intro checks
    obtain ⟨reply, command⟩ := fit (by simpa [Registry.isChecking] using slot) checks
    exact cleared reply command checks

theorem count_of_held (care : sc.Care id) (held : sc.hand.conn = some id)
    (used : sc.registry.slot? id ≠ none) : sc.inspections id = 0 := by
  cases care with
  | gone slot => exact absurd slot used
  | idle slot count | inUse slot count | returned slot count => exact count
  | examined slot count unheld | judged slot count unheld => exact absurd held unheld

end Scene.Care

theorem untouched_of_steady (steady : Steady sc sc' id)
    (config : sc'.pool.config = sc.pool.config) :
    (sc.Cleared id → sc'.Cleared id) ∧
      (Site.Examined sc.past id → Site.Examined sc'.past id) := by
  obtain ⟨more, past, untouched⟩ := steady.past
  rw [Scene.Cleared, Scene.Cleared, config, past]
  exact ⟨fun cleared checks =>
      Site.cleared_append (cleared checks) fun rec member => (untouched rec member).1,
    fun examined => Site.examined_append examined untouched⟩

structure Scene.Gated (sc : Scene) : Prop where
  tasked : ∀ c, sc.hand.task = some c → sc.command = c
  unborn : ∀ id, sc.pool.nextConn ≤ id.number →
    sc.inspections id = 0 ∧ ∀ rec ∈ sc.past, rec.lends? ≠ some id
  care : ∀ id, sc.Care id

theorem care_of_same (care : sc.Care id) (steady : Steady sc sc' id)
    (config : sc'.pool.config = sc.pool.config)
    (slot : sc'.registry.slot? id = sc.registry.slot? id)
    (hand : sc'.hand.conn = some id ↔ sc.hand.conn = some id)
    (judging : sc'.judging = some id ↔ sc.judging = some id)
    (command : sc.hand.conn = some id ∨ sc.judging = some id → sc'.command = sc.command) :
    sc'.Care id := by
  obtain ⟨cleared', examined'⟩ := untouched_of_steady steady config
  have count' := steady.inspections
  cases care with
  | gone unknown => exact .gone (slot.trans unknown)
  | idle known count cleared =>
    exact .idle (slot.trans known) (count'.trans count) (cleared' cleared)
  | inUse known count cleared =>
    apply Scene.Care.inUse (slot.trans known) (count'.trans count)
    intro held
    exact cleared' (cleared (hand.mp held))
  | examined known count unheld unjudged examined =>
    exact .examined (slot.trans known) (count'.trans count) (mt hand.mp unheld)
      (mt judging.mp unjudged) (examined' examined)
  | judged known count unheld here cleared =>
    apply Scene.Care.judged (slot.trans known) (count'.trans count) (mt hand.mp unheld)
      (judging.mpr here)
    rw [command (.inr here)]
    intro reply verdict
    exact cleared' (cleared reply verdict)
  | returned known count held unjudged cleared =>
    apply Scene.Care.returned (slot.trans known) (count'.trans count) (hand.mpr held)
      (mt judging.mp unjudged)
    rw [command (.inl held)]
    intro reply verdict
    exact cleared' (cleared reply verdict)

/-- When a turn takes up a verdict, the verdict is on the check that came after the last loan. -/
theorem care_of_begun (care : sc.Care id) (free : sc.hand = {})
    (slot : sc'.registry.slot? id = sc.registry.slot? id)
    (count' : sc'.inspections id = sc.inspections id) (unheld : sc'.hand.conn ≠ some id)
    (judging : sc'.judging = some id)
    (past : sc'.past = sc.past ++ [{ now := sc.now, command := sc'.command, pool := sc.pool }]) :
    sc'.Care id := by
  have some_left := inspections_of_judging judging
  cases care with
  | gone unknown => exact .gone (slot.trans unknown)
  | idle known count | inUse known count => omega
  | examined known count unheld' unjudged examined =>
    apply Scene.Care.judged (slot.trans known) (count'.trans count) unheld judging
    intro reply verdict _
    rw [past]
    refine Site.cleared_of_examined examined ⟨rfl, ⟨reply, verdict⟩, ?_⟩
    simpa [Registry.isChecking] using known
  | judged known count unheld' here =>
    rw [Scene.judging, free] at here
    cases here
  | returned known count held =>
    rw [free] at held
    cases held

theorem care_move (a : sc.Accounted) (gated : sc.Gated) (move : Move sc sc') (id : ConnId) :
    sc'.Care id := by
  have care := gated.care id
  have config := config_move move
  cases passing_move a gated.tasked move id with
  | same steady slot hand judging command =>
    exact care_of_same care steady config slot hand judging command
  | gone steady slot => exact .gone slot
  | registered steady new slot =>
    obtain ⟨count, unlent⟩ := gated.unborn id (by simp [new])
    refine .inUse slot (steady.inspections.trans count) fun _ => ?_
    exact (untouched_of_steady steady config).1 fun _ => Site.cleared_of_unlent unlent
  | returned steady lent unheld slot held unjudged back =>
    refine .returned slot ?_ held unjudged ?_
    · cases care with
      | inUse _ count => exact steady.inspections.trans count
      | gone other | idle other | examined other | judged other | returned other =>
        cases other.symm.trans lent
    · intro reply verdict
      rw [verdict] at back
      cases back
  | taken steady idle slot held =>
    have cleared := (untouched_of_steady steady config).1 (care.cleared_of_idle idle)
    refine .inUse slot ?_ fun _ => cleared
    cases care with
    | idle _ count => exact steady.inspections.trans count
    | gone other | inUse other | examined other | judged other | returned other =>
      cases other.symm.trans idle
  | handed steady held checking fit slot =>
    have known : sc.registry.slot? id ≠ none := by simp [checking]
    have cleared := (untouched_of_steady steady config).1 (care.cleared_of_fit held fit known)
    exact .inUse slot (steady.inspections.trans (care.count_of_held held known)) fun _ => cleared
  | shelved steady held fit slot =>
    obtain ⟨old, known, -⟩ := a.held id held
    have known : sc.registry.slot? id ≠ none := by simp [known]
    have cleared := (untouched_of_steady steady config).1 (care.cleared_of_fit held fit known)
    exact .idle slot (steady.inspections.trans (care.count_of_held held known)) cleared
  | begun slot count' free unheld judging past =>
    exact care_of_begun care free slot count' unheld judging past
  | judged slot checking judging count' held unjudged command past =>
    cases care with
    | judged known count unheld here cleared =>
      refine .returned (slot.trans known) (by omega) held unjudged ?_
      rw [command, Scene.Cleared, past, config]
      exact cleared
    | examined known count unheld unjudged' => exact absurd judging unjudged'
    | returned known count held' unjudged' => exact absurd judging unjudged'
    | gone other | idle other | inUse other => cases other.symm.trans checking
  | dismissed slot other unheld judging count' =>
    cases care with
    | gone unknown => exact .gone (slot.trans unknown)
    | idle known count | inUse known count => omega
    | examined known | judged known | returned known => exact absurd known other
  | inspected slot checking held count' unheld judging past exam =>
    cases care with
    | returned known count held' unjudged =>
      refine .examined (slot.trans known) (by omega) unheld (judging ▸ unjudged) ?_
      rw [past]
      exact ⟨_, _, [], rfl, exam, Site.untouched_nil id⟩
    | examined known count unheld' | judged known count unheld' => exact absurd held unheld'
    | gone other | idle other | inUse other => cases other.symm.trans checking
  | lent slot onLoan held unheld count' =>
    have count := care.count_of_held held (by simp [onLoan])
    exact .inUse (slot.trans onLoan) (count'.trans count) fun held' => absurd held' unheld

/-- Nothing is lent or checked but what is in hand. -/
theorem untouched_of_move (a : sc.Accounted)
    (tasked : ∀ c, sc.hand.task = some c → sc.command = c) (move : Move sc sc')
    (unheld : sc.hand.conn ≠ some id) :
    sc'.inspections id ≤ sc.inspections id ∧
      ∃ more, sc'.past = sc.past ++ more ∧ ∀ rec ∈ more, rec.lends? ≠ some id := by
  have quietly : sc'.past = sc.past →
      ∃ more, sc'.past = sc.past ++ more ∧ ∀ rec ∈ more, rec.lends? ≠ some id :=
    fun past => ⟨[], past.trans (List.append_nil _).symm, List.forall_mem_nil _⟩
  cases passing_move a tasked move id with
  | same steady | gone steady | registered steady | returned steady | taken steady
  | handed steady | shelved steady =>
    obtain ⟨more, past, untouched⟩ := steady.past
    exact ⟨Nat.le_of_eq steady.inspections, more, past, fun rec member => (untouched rec member).1⟩
  | begun slot count free unheld judging past =>
    exact ⟨Nat.le_of_eq count, _, past, List.forall_mem_singleton.mpr nofun⟩
  | judged slot checking judging count held unjudged command past =>
    exact ⟨by omega, quietly past⟩
  | dismissed slot other unheld judging count past => exact ⟨by omega, quietly past⟩
  | inspected slot checking held | lent slot onLoan held => exact absurd held unheld

theorem unborn_gated_move (a : sc.Accounted) (gated : sc.Gated) (move : Move sc sc')
    (id : ConnId) (unborn : sc'.pool.nextConn ≤ id.number) :
    sc'.inspections id = 0 ∧ ∀ rec ∈ sc'.past, rec.lends? ≠ some id := by
  have older : sc.pool.nextConn ≤ id.number := Nat.le_trans (nextConn_move move) unborn
  have unheld : sc.hand.conn ≠ some id := by
    intro held
    obtain ⟨slot, known, -⟩ := a.held id held
    have born := a.named id (Registry.mem_ids_of_slot? known)
    omega
  obtain ⟨count, unlent⟩ := gated.unborn id older
  obtain ⟨fewer, more, past, unlent'⟩ := untouched_of_move a gated.tasked move unheld
  refine ⟨by omega, ?_⟩
  rw [past]
  exact List.forall_mem_append.mpr ⟨unlent, unlent'⟩

theorem gated_move (a : sc.Accounted) (move : Move sc sc') (gated : sc.Gated) : sc'.Gated where
  tasked := tasked_move move gated.tasked
  unborn := unborn_gated_move a gated move
  care := care_move a gated move

theorem gated_start (config : Config) (observer : Hook → Nat → Option String) :
    (Scene.start config observer).Gated where
  tasked := nofun
  unborn _ _ := ⟨rfl, List.forall_mem_nil _⟩
  care _ := .gone rfl

/-! ### What takes place -/

theorem idle_of_move (a : sc.Accounted) (gated : sc.Gated)
    (checks : sc.pool.config.checkOnRelease = true) (move : Move sc sc')
    (eq : sc' = (sc.alter p h).emit e) (idle : sc'.registry.slot? id = some .idle) :
    Site.Cleared sc.past id := by
  have known : sc'.registry.slot? id = sc.registry.slot? id → Site.Cleared sc.past id :=
    fun slot => (gated.care id).cleared_of_idle (slot.symm.trans idle) checks
  cases passing_move a gated.tasked move id with
  | same steady slot => exact known slot
  | begun slot | judged slot | dismissed slot | inspected slot | lent slot => exact known slot
  | shelved steady held fit slot past => exact absurd eq (ne_emit past)
  | gone steady slot | registered steady new slot | returned steady lent unheld slot
  | taken steady from_idle slot | handed steady held checking fit slot =>
    cases slot.symm.trans idle

/-! ### Connections that are gone -/

/-- Whatever follows, a connection is not registered, and has not been lent since some moment. -/
def Site.GoneForGood (since past : List Record) (now : Nat) (s : Site) (id : ConnId) : Prop :=
  ∀ past' now' s', Onward past now s past' now' s' → id ∉ s'.pool.registry.ids ∧
    ∃ more, past' = since ++ more ∧ ∀ rec ∈ more, rec.lends? ≠ some id

def Scene.Departed (origin : List Site.Record) (id : ConnId) (sc : Scene) : Prop :=
  id.number < sc.pool.nextConn ∧ sc.registry.slot? id = none ∧
    ∃ since, sc.past = origin ++ since ∧ ∀ rec ∈ since, rec.lends? ≠ some id

theorem departed_move {origin : List Site.Record} (a : sc.Accounted)
    (tasked : ∀ c, sc.hand.task = some c → sc.command = c) (move : Move sc sc')
    (departed : sc.Departed origin id) : sc'.Departed origin id := by
  obtain ⟨born, unknown, since, past, unlent⟩ := departed
  refine ⟨Nat.lt_of_lt_of_le born (nextConn_move move), ?_, ?_⟩
  · cases passing_move a tasked move id with
    | same steady slot => exact slot.trans unknown
    | begun slot | judged slot | dismissed slot | inspected slot | lent slot =>
      exact slot.trans unknown
    | gone steady slot => exact slot
    | registered steady new slot =>
      rw [new] at born
      exact absurd born (Nat.lt_irrefl _)
    | returned steady known | taken steady known | handed steady held known =>
      cases known.symm.trans unknown
    | shelved steady held =>
      obtain ⟨slot, known, -⟩ := a.held id held
      cases known.symm.trans unknown
  · have unheld : sc.hand.conn ≠ some id := by
      intro held
      obtain ⟨slot, known, -⟩ := a.held id held
      cases known.symm.trans unknown
    obtain ⟨-, more, past', unlent'⟩ := untouched_of_move a tasked move unheld
    refine ⟨since ++ more, ?_, List.forall_mem_append.mpr ⟨unlent, unlent'⟩⟩
    rw [past', past, List.append_assoc]

/-! ### Runs -/

theorem Site.inspections_eq (s : Site) (id : ConnId) :
    (s.underWay.countP fun c => c.checked? = some id) = s.inspections id := by
  have connects : s.connects.countP (fun j => j.command.checked? = some id) = 0 :=
    List.countP_eq_zero.mpr fun _ _ => by simp [ConnectJob.command, Command.checked?]
  have checks : s.checks.countP (fun j => j.command.checked? = some id) =
      s.checks.countP (·.id = id) := by
    simp [CheckJob.command, Command.checked?]
  rw [Site.countP_underWay, connects, checks, Site.inspections]
  omega

structure Scene.Supervised (config : Config) (sc : Scene) : Prop where
  configured : sc.pool.config = config
  accounted : sc.Accounted
  ledger : sc.Ledger
  exclusive : sc.Exclusive
  gated : sc.Gated

variable {config : Config} {observer : Hook → Nat → Option String} {past : List Site.Record}
  {now later : Nat} {s rest : Site}

theorem supervised_move (move : Move sc sc') (held : sc.Supervised config) :
    sc'.Supervised config where
  configured := (config_move move).trans held.configured
  accounted := accounted_move move held.accounted
  ledger := ledger_move held.accounted move held.ledger
  exclusive := exclusive_move held.accounted held.ledger move held.exclusive
  gated := gated_move held.accounted move held.gated

theorem supervised_start (config : Config) (observer : Hook → Nat → Option String) :
    (Scene.start config observer).Supervised config where
  configured := rfl
  accounted := accounted_start config observer
  ledger := ledger_start config observer
  exclusive := exclusive_start config observer
  gated := gated_start config observer

/-- Between two turns a connection has a check under way while it is registered as being checked,
and one check only. -/
theorem care_of_free (care : sc.Care id) (free : sc.hand = {}) (known : id ∈ sc.registry.ids) :
    (sc.inspections id = if sc.registry.slot? id = some .checking then 1 else 0) ∧
      (sc.registry.slot? id = some .checking → Site.Examined sc.past id) := by
  cases care with
  | gone slot => exact absurd known (Registry.slot?_eq_none.mp slot)
  | idle slot count | inUse slot count => simp [slot, count]
  | examined slot count unheld unjudged examined => simp [slot, count, examined]
  | judged slot count unheld judging =>
    rw [Scene.judging, free] at judging
    cases judging
  | returned slot count held =>
    rw [free] at held
    cases held

theorem checked_of_bad {w : Surroundings} {t : Turn} (reply : Option Ticket)
    (checking : t.pool.registry.isChecking id = true) :
    ∃ serial r, t.pool.registry.discard? (w.confirms t.effects) id = some (serial, r) ∧
      (t.checked w id false reply).pool = { t.pool with registry := r } ∧
      (t.checked w id false reply).effects =
        t.effects ++ .close serial :: reply.toList.map fun k => .answer k .done := by
  have slot : t.pool.registry.slot? id = some .checking := by
    simpa [Registry.isChecking] using checking
  obtain ⟨e, found, -⟩ := Registry.find?_of_slot? slot
  cases removed : t.pool.registry.discard? (w.confirms t.effects) id with
  | none =>
    rw [Registry.find?_of_kept removed] at found
    cases found
  | some gone =>
    obtain ⟨serial, r⟩ := gone
    have done : t.checked w id false reply =
        ((t.withRegistry r).emit (.close serial)).answer? reply .done := by
      simp [Turn.checked, checking, Turn.discard, removed]
    rw [done]
    refine ⟨serial, r, rfl, ?_⟩
    cases reply with
    | none => exact ⟨rfl, effects_emit _ _⟩
    | some k =>
      refine ⟨rfl, ?_⟩
      simp only [Turn.answer?, Turn.answer]
      rw [effects_emit, effects_emit, List.append_assoc]
      rfl

theorem departed_of_bad (m : Memory) (past : List Site.Record) (reply : Option Ticket)
    (same : rest.pool = s.pool) (born : id.number < s.pool.nextConn)
    (checking : s.pool.registry.isChecking id = true) (course : Site.Course later rest) :
    let z := Setting.turn m past s (some (.checked id false reply)) course
    let t := Turn.checked z.world ⟨rest.pool, []⟩ id false reply
    (∃ serial, (id, serial) ∈ s.pool.registry.names ∧ [.close serial] <+: t.effects) ∧
      (z.scene t {}).Departed past id := by
  intro z t
  obtain ⟨serial, r, removed, pool, effects⟩ :=
    checked_of_bad (w := z.world) (t := ⟨rest.pool, []⟩) reply (same ▸ checking)
  refine ⟨⟨serial, ?_, ?_⟩, ?_, ?_, ?_⟩
  · rw [← same]
    exact Registry.mem_names_of_discard? removed
  · rw [show t.effects = _ from effects]
    exact List.prefix_append [_] _
  · change id.number < t.pool.nextConn
    rw [show t.pool = _ from pool]
    exact same ▸ born
  · change t.pool.registry.slot? id = none
    rw [show t.pool = _ from pool]
    exact (Registry.slot?_discard? removed).trans (if_pos rfl)
  · refine ⟨_, List.append_assoc _ _ _, ?_⟩
    intro rec member
    rcases List.mem_append.mp member with begins | logged
    · rw [List.mem_singleton.mp begins]
      exact nofun
    · obtain ⟨moment, here, rfl⟩ := List.mem_map.mp logged
      have told : moment.effect ∈ t.effects := List.mem_map_of_mem here
      rw [show t.effects = _ from effects] at told
      have nothing : moment.effect.lends? = none := by
        rcases List.mem_cons.mp told with closes | answers
        · rw [closes]
          rfl
        · obtain ⟨k, -, same⟩ := List.mem_map.mp answers
          rw [← same]
          rfl
      simp [Site.Record.lends?, nothing]

theorem closed_of_bad {reply : Option Ticket} (run : Site.Run config observer past now s)
    (order : now ≤ later) (due : s.next? = some (some (.checked id false reply), rest))
    (checking : s.pool.registry.isChecking id = true) (course : Site.Course later rest) :
    (∃ serial, (id, serial) ∈ s.pool.registry.names ∧
      [.close serial] <+: (course.turn (some (.checked id false reply))).effects) ∧
    Site.GoneForGood past
      (past ++ Site.records later (some (.checked id false reply)) s.pool
        (course.turn (some (.checked id false reply))))
      later (course.after (some (.checked id false reply))) id := by
  have step : ∀ {a b : Scene}, Move a b → a.Supervised config → b.Supervised config :=
    supervised_move
  obtain ⟨⟨m, path⟩, quiet⟩ := path_of_run run
  have before := path_invariant path step (supervised_start config observer)
  have same := Site.pool_next? due
  let z := Setting.turn m past s (some (.checked id false reply)) course
  have slot : s.pool.registry.slot? id = some .checking := by
    simpa [Registry.isChecking] using checking
  have born := before.accounted.named id (Registry.mem_ids_of_slot? slot)
  obtain ⟨⟨serial, known, closes⟩, departed⟩ :=
    departed_of_bad m past reply same born checking course
  -- The verdict is acted upon, the queue is served, and then whatever may follow.
  have acted := (path_begin order due course).trans
    (path_perform (z := z) (t := ⟨rest.pool, []⟩) (same ▸ quiet) rfl
      (by simp [z, Setting.scene, Setting.turn]))
  have served : Path (z.scene (Turn.checked z.world ⟨rest.pool, []⟩ id false reply) {})
      (z.scene (course.turn (some (.checked id false reply))) {}) :=
    path_servePending.trans path_settleClose
  refine ⟨⟨serial, known, closes.trans (effects_of_path served)⟩, ?_⟩
  intro past' now' s' onward
  obtain ⟨m', onwards⟩ := path_after_run (.turn run order due course) onward
    (m.turn (some (.checked id false reply)) s course)
  rw [← scene_turn] at onwards
  have after := path_invariant (acted.trans .refl) step before
  have further : ∀ {a b : Scene}, Move a b → a.Supervised config ∧ a.Departed past id →
      b.Supervised config ∧ b.Departed past id := by
    rintro a b move ⟨held, departed⟩
    exact ⟨step move held, departed_move held.accounted held.gated.tasked move departed⟩
  obtain ⟨-, -, unknown, since, past, unlent⟩ :=
    path_invariant (served.trans onwards) further ⟨after, departed⟩
  exact ⟨Registry.slot?_eq_none.mp unknown, since, past, unlent⟩

/-- In the middle of any turn: whatever is idle has been found healthy since it was last lent, and
so has whatever is lent next; and a check is started where a loan has just ended, and no other loan
of the connection is outstanding. -/
theorem gated_of_midst {before : Pool} {c : Option Command} {next : Option Effect}
    (checks : config.checkOnRelease = true)
    (midst : Site.Midst config observer past before c s next) (id : ConnId) :
    (id ∈ s.pool.registry.idle → Site.Cleared past id) ∧
      (next.bind Effect.lends? = some id → Site.Cleared past id) ∧
      (next.bind Effect.inspects? = some id →
        c.bind Command.returned? = some id ∧ s.outstanding id = 0) := by
  cases next with
  | none =>
    obtain ⟨sc, held, rfl, -, rfl, rfl, -⟩ :=
      holds_of_done midst supervised_move (supervised_start config observer)
    refine ⟨?_, nofun, nofun⟩
    intro idle
    have slot := (held.accounted.balanced.idle id).mp idle
    exact (held.gated.care id).cleared_of_idle slot (held.configured ▸ checks)
  | some e =>
    cases happens_of_midst midst supervised_move (supervised_start config observer) with
    | @intro sc sc' p h _ held move eq =>
      have checks : sc.pool.config.checkOnRelease = true := held.configured ▸ checks
      refine ⟨?_, ?_, ?_⟩
      · intro idle
        have registry : sc'.registry = p.registry := by
          rw [eq]
          exact congrArg Pool.registry (Scene.pool_emit _ _)
        have listed : id ∈ sc'.registry.idle := by
          rw [registry]
          exact idle
        have slot := ((accounted_move move held.accounted).balanced.idle id).mp listed
        exact idle_of_move held.accounted held.gated checks move eq slot
      · intro lends
        obtain ⟨k, serial, rfl⟩ := exists_of_lends lends
        obtain ⟨conn, lent, -⟩ := loan_of_move move eq
        exact (held.gated.care id).cleared_of_lent lent conn checks
      · intro inspects
        cases e with
        | check id' serial reply =>
          cases inspects
          obtain ⟨conn, slot, -, back⟩ := inspected_of_move move eq
          have fair := held.exclusive.fair id
          have nothing := fair.eq_zero_of_hand conn (by simp [slot])
          refine ⟨back, ?_⟩
          rw [Scene.outstanding, Scene.underWay, Site.underWay] at nothing
          simp only [List.countP_append] at nothing
          have lent : (sc.site.withPool p).outstanding id = sc.site.outstanding id := rfl
          rw [lent, Site.outstanding]
          omega
        | _ => cases inspects

/-- With health checks on, a connection that has been lent is idle or lent again only after a check
that was started when that loan had ended, and whose good verdict was taken up while the connection
was registered as being checked. A registered connection has one check under way while it is being
checked, and none otherwise, so that a verdict is on the loan that it was asked for after. Any other
verdict than a good one, or an error, has the connection closed, and it is never lent again. -/
theorem health_gate (checks : config.checkOnRelease = true) :
    (∀ past before c s next, Site.Midst config observer past before c s next → ∀ id,
      (id ∈ s.pool.registry.idle → Site.Cleared past id) ∧
      (next.bind Effect.lends? = some id → Site.Cleared past id) ∧
      (next.bind Effect.inspects? = some id →
        c.bind Command.returned? = some id ∧ s.outstanding id = 0)) ∧
    ∀ past now s, Site.Run config observer past now s → ∀ id ∈ s.pool.registry.ids,
      (s.inspections id = if s.pool.registry.slot? id = some .checking then 1 else 0) ∧
      ∀ later rest found reply, now ≤ later →
        s.next? = some (some (.checked id (Site.judge found) reply), rest) →
        s.pool.registry.isChecking id = true ∧ Site.Examined past id ∧
        (found ≠ .ok true → ∀ course : Site.Course later rest,
          (∃ serial, (id, serial) ∈ s.pool.registry.names ∧ [.close serial] <+:
            (course.turn (some (.checked id (Site.judge found) reply))).effects) ∧
          Site.GoneForGood past
            (past ++ Site.records later (some (.checked id (Site.judge found) reply)) s.pool
              (course.turn (some (.checked id (Site.judge found) reply))))
            later (course.after (some (.checked id (Site.judge found) reply))) id) := by
  refine ⟨fun past before c s next midst id => gated_of_midst checks midst id, ?_⟩
  intro past now s run id known
  obtain ⟨m, held⟩ := run_invariant (Scene.Supervised config) run supervised_move
    (supervised_start config observer)
  obtain ⟨count, examined⟩ := care_of_free (held.gated.care id) rfl known
  have counted : s.inspections id =
      if s.pool.registry.slot? id = some .checking then 1 else 0 := by
    rw [← Site.inspections_eq]
    exact count
  refine ⟨counted, ?_⟩
  intro later rest found reply order due
  have waiting : 0 < s.inspections id := by
    rw [← Site.inspections_eq, Site.underWay_next? due]
    exact List.countP_pos_iff.mpr
      ⟨.checked id (Site.judge found) reply, by simp, by simp [Command.checked?]⟩
  have slot : s.pool.registry.slot? id = some .checking := by
    by_contra other
    rw [if_neg other] at counted
    omega
  have checking : s.pool.registry.isChecking id = true := by
    simpa [Registry.isChecking] using slot
  refine ⟨checking, examined slot, ?_⟩
  intro bad course
  have judged : Site.judge found = false := by
    cases found with
    | error cause => rfl
    | ok healthy =>
      cases healthy with
      | true => exact absurd rfl bad
      | false => rfl
  rw [judged] at due ⊢
  exact closed_of_bad run order due checking course

def Command.rejects? : Command → Option ConnId
  | .checked id false _ => some id
  | _ => none

theorem rejects?_eq_some {c : Option Command} (rejects : c.bind Command.rejects? = some id) :
    ∃ reply, c = some (.checked id false reply) := by
  match c with
  | some (.checked id' false reply) =>
    cases rejects
    exact ⟨reply, rfl⟩

/-- A connection is lent, given back and checked. -/
def givenBack (healthy : Bool) : List (Nat × Option Site.Event) :=
  [(0, some (.acquire ⟨1⟩)), (0, none), (2, some (.connected ⟨0⟩ (.ok (⟨1⟩, {})))), (2, none),
    (3, some (.read ⟨1⟩)), (4, some (.release ⟨1⟩ ⟨2⟩)), (4, none),
    (6, some (.checked ⟨1⟩ healthy))]

theorem gate_of_givenBack :
    (∃ past before c s next, Site.Midst {} (fun _ _ => none) past before c s next ∧
      next = some (.answer ⟨3⟩ (.loan ⟨1⟩ ⟨1⟩)) ∧ (∃ rec ∈ past, rec.lends? = some ⟨1⟩) ∧
      Site.Cleared past ⟨1⟩) ∧
    ∃ past now s rest reply, Site.Run {} (fun _ _ => none) past now s ∧ ⟨1⟩ ∈ s.pool.registry.ids ∧
      s.next? = some (some (.checked ⟨1⟩ false reply), rest) ∧ Site.Examined past ⟨1⟩ ∧
      ∀ course : Site.Course now rest, Site.GoneForGood past
        (past ++ Site.records now (some (.checked ⟨1⟩ false reply)) s.pool
          (course.turn (some (.checked ⟨1⟩ false reply))))
        now (course.after (some (.checked ⟨1⟩ false reply))) ⟨1⟩ := by
  have checks : ({} : Config).checkOnRelease = true := rfl
  constructor
  · obtain ⟨past, before, c, s, next, midst, seen⟩ :=
      Site.exists_midst {} (fun _ _ => none)
        (givenBack true ++ [(6, none), (7, some (.acquire ⟨3⟩))]) 1
        (fun past _ _ _ next => next == some (.answer ⟨3⟩ (.loan ⟨1⟩ ⟨1⟩)) &&
          past.any fun rec => rec.lends? == some ⟨1⟩)
        (by decide +kernel)
    simp only [Bool.and_eq_true, beq_iff_eq, List.any_eq_true] at seen
    obtain ⟨rfl, lent⟩ := seen
    exact ⟨past, before, c, s, _, midst, rfl, lent,
      ((health_gate checks).1 _ _ _ _ _ midst ⟨1⟩).2.1 rfl⟩
  · obtain ⟨past, now, s, run, seen⟩ :=
      Site.exists_run {} (fun _ _ => none) (givenBack false)
        (fun _ s => s.pool.registry.ids.contains ⟨1⟩ &&
          s.next?.any fun due => due.1.bind Command.rejects? == some ⟨1⟩)
        (by decide +kernel)
    simp only [Bool.and_eq_true, List.contains_iff_mem, Option.any_eq_true, beq_iff_eq,
      Prod.exists] at seen
    obtain ⟨known, c, rest, due, verdict⟩ := seen
    obtain ⟨reply, rfl⟩ := rejects?_eq_some verdict
    obtain ⟨-, applies⟩ := (health_gate checks).2 past now s run ⟨1⟩ known
    obtain ⟨-, examined, bad⟩ := applies now rest (.ok false) reply (Nat.le_refl now) due
    refine ⟨past, now, s, rest, reply, run, known, due, examined, ?_⟩
    intro course
    exact (bad (by simp) course).2

end LoanPool
