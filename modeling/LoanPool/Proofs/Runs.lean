import LoanPool.Proofs.Turns

/-!
# Runs as paths

A run leads from the start to a site where nothing is in hand and the pool is quiet, by one path of
moves. What holds at the start and is kept by every move therefore holds after every turn and every
event of every run.
-/
namespace LoanPool

/-! ### What no move changes -/

namespace Site
variable (s : Site)

@[simp] theorem pool_happen (e : Event) : (s.happen e).pool = s.pool := by
  have same : s.happen e = (s.happen e).withPool s.pool := happen_withPool s s.pool e
  rw [same]
  rfl

@[simp] theorem pool_enact (now : Nat) (e : Effect) : (s.enact now e).pool = s.pool := by
  have same : s.enact now e = (s.enact now e).withPool s.pool := enact_withPool s s.pool now e
  rw [same]
  rfl

theorem pool_next? {s : Site} {c : Option Command} {rest : Site}
    (due : s.next? = some (c, rest)) : rest.pool = s.pool := by
  cases next_of_due due <;> rfl

theorem ended_next? {s rest : Site} (due : s.next? = some (none, rest)) : rest.ended = true := by
  cases next_of_due due
  rfl

/-- What is read off a record grows by what its last entry tells. -/
theorem filterMap_concat {α : Type} (tells : Record → Option α) (past : List Record)
    (rec : Record) :
    (past ++ [rec]).filterMap tells = past.filterMap tells ++ (tells rec).toList := by
  rw [List.filterMap_append]
  cases told : tells rec <;> simp [told]

end Site

namespace Scene
variable (sc : Scene)

@[simp] theorem pool_alter (p : Pool) (h : Hand) : (sc.alter p h).pool = p := rfl

@[simp] theorem hand_alter (p : Pool) (h : Hand) : (sc.alter p h).hand = h := rfl

@[simp] theorem pool_emit (e : Effect) : (sc.emit e).pool = sc.pool :=
  Site.pool_enact _ _ _

@[simp] theorem hand_emit (e : Effect) : (sc.emit e).hand = sc.hand := rfl

def Shut : Prop :=
  sc.pool.closed = true → sc.pool.pending.requests = []

end Scene

theorem shut_move {sc sc' : Scene} (move : Move sc sc') (shut : sc.Shut) : sc'.Shut := by
  intro closed
  cases move with
  | event order allowed =>
    simp only [Scene.pool, Site.pool_happen] at closed ⊢
    exact shut closed
  | wait order => exact shut closed
  | begin free due =>
    simp only [Scene.pool, Site.pool_next? due] at closed ⊢
    exact shut closed
  | shut task ends opened => rfl
  -- What takes a waiter from the queue, or finds one in it, does not happen once it is empty.
  | expire task queued =>
    have nobody := shut closed
    simp [Pending.Queue.find?, nobody] at queued
  | overflow task queued due reachable drained =>
    simp only [Scene.pool_emit, Scene.pool_alter] at closed
    have nobody := shut closed
    simp [Pending.Queue.find?, nobody] at queued
  | pop free bare front => simp [shut closed] at front
  | sift held left => simp [Pending.Queue.prune, shut closed]
  | fetch free bare called found =>
    simp [Pending.Queue.remove?, Pending.Queue.find?, shut closed] at found
  | enqueue held opened newest room => simp [opened] at closed
  | _ =>
    simp only [Scene.pool_emit, Scene.pool_alter] at closed ⊢
    exact shut closed

theorem config_move {sc sc' : Scene} (move : Move sc sc') :
    sc'.pool.config = sc.pool.config := by
  cases move with
  | event order allowed => simp [Scene.pool]
  | wait order => rfl
  | begin free due => simp [Scene.pool, Site.pool_next? due]
  | _ => simp

/-- Names are given out in order. -/
theorem nextConn_move {sc sc' : Scene} (move : Move sc sc') :
    sc.pool.nextConn ≤ sc'.pool.nextConn := by
  cases move with
  | event order allowed => simp [Scene.pool]
  | wait order => exact Nat.le_refl _
  | begin free due => simp [Scene.pool, Site.pool_next? due]
  | connectDone task =>
    simp only [Scene.pool_emit, Scene.pool_alter]
    exact Nat.le_succ _
  | _ => simp

/-! ### Paths from the start -/

theorem path_invariant {holds : Scene → Prop} {sc sc' : Scene} (path : Path sc sc')
    (step : ∀ {a b : Scene}, Move a b → holds a → holds b) (first : holds sc) : holds sc' := by
  induction path with
  | refl => exact first
  | tail _ move ih => exact step move ih

variable {config : Config} {observer : Hook → Nat → Option String} {past : List Site.Record}
  {now : Nat} {s : Site}

def Memory.turn {later : Nat} {rest : Site} (m : Memory) (c : Option Command) (s : Site)
    (course : Site.Course later rest) : Memory :=
  { m.begin c s with
    views := (m.begin c s).views ++ course.views s.pool [] (course.turn c).log }

def Setting.turn {later : Nat} {rest : Site} (m : Memory) (past : List Site.Record) (s : Site)
    (c : Option Command) (course : Site.Course later rest) : Setting :=
  { now := later, site := rest, course, memory := m.begin c s
    past := past ++ [{ now := later, command := c, pool := s.pool }] }

theorem path_begin {m : Memory} {later : Nat} {rest : Site} {c : Option Command}
    (order : now ≤ later) (due : s.next? = some (c, rest)) (course : Site.Course later rest) :
    Path { now, site := s, memory := m, past }
      ((Setting.turn m past s c course).scene ⟨rest.pool, []⟩ { task := some c }) := by
  have begun : Path { now, site := s, memory := m, past }
      { now := later, site := rest, hand := { task := some c }, memory := m.begin c s
        past := past ++ [{ now := later, command := c, pool := s.pool }] } :=
    (Relation.ReflTransGen.single (Move.wait order)).tail (.begin rfl due)
  have first : (Setting.turn m past s c course).scene ⟨rest.pool, []⟩ { task := some c } =
      { now := later, site := (course.amid []).withPool rest.pool, hand := { task := some c }
        memory := m.begin c s
        past := past ++ [{ now := later, command := c, pool := s.pool }] } := by
    simp [Setting.scene, Setting.turn, Turn.effects, Site.Course.views]
  rw [first]
  exact begun.trans (path_drift course.begins rest.pool { task := some c } _ _)

theorem scene_turn (m : Memory) (past : List Site.Record) (s : Site) {later : Nat} {rest : Site}
    (c : Option Command) (course : Site.Course later rest) :
    (Setting.turn m past s c course).scene (course.turn c) {} =
      { now := later, site := course.after c, memory := m.turn c s course
        past := past ++ Site.records later c s.pool (course.turn c) } := by
  simp [Setting.scene, Setting.turn, Memory.turn, Memory.begin, Site.records, Site.Course.after]

theorem path_act {m : Memory} {later : Nat} {rest : Site} {c : Option Command}
    (due : s.next? = some (c, rest)) (course : Site.Course later rest) (quiet : s.pool.Quiet) :
    Path ((Setting.turn m past s c course).scene ⟨rest.pool, []⟩ { task := some c })
      ((Setting.turn m past s c course).scene (course.turn c) {}) := by
  have same : rest.pool = s.pool := Site.pool_next? due
  apply path_respond (z := Setting.turn m past s c course) (same ▸ quiet) rfl
  · rintro rfl
    exact Site.ended_next? due
  · simp [Setting.turn]

/-- The turn that is due is a path from the moment at which it begins. -/
theorem path_turn {m : Memory} {later : Nat} {rest : Site} {c : Option Command}
    (order : now ≤ later) (due : s.next? = some (c, rest)) (course : Site.Course later rest)
    (quiet : s.pool.Quiet) :
    Path { now, site := s, memory := m, past }
      { now := later, site := course.after c, memory := m.turn c s course
        past := past ++ Site.records later c s.pool (course.turn c) } := by
  rw [← scene_turn]
  exact (path_begin order due course).trans (path_act due course quiet)

/-- What follows on a site whose pool is quiet is a path, and after each turn and event of it the
pool is quiet. -/
theorem path_of_onward {past' : List Site.Record} {now' : Nat} {s' : Site} {m : Memory}
    (onward : Site.Onward past now s past' now' s') (quiet : s.pool.Quiet)
    (shut : Scene.Shut { now, site := s, memory := m, past }) :
    (∃ m', Path { now, site := s, memory := m, past }
      { now := now', site := s', memory := m', past := past' }) ∧ s'.pool.Quiet := by
  -- A turn is a path because the pool was quiet before it, and the pool is quiet after a turn
  -- because the path keeps a closed pool without waiters: both are shown together.
  induction onward with
  | refl => exact ⟨⟨m, .refl⟩, quiet⟩
  | event before order allowed ih =>
    obtain ⟨⟨m', path⟩, quiet⟩ := ih
    refine ⟨⟨m', path.tail (.event order allowed)⟩, ?_⟩
    rwa [Site.pool_happen]
  | turn before order due course ih =>
    obtain ⟨⟨m', path⟩, quiet⟩ := ih
    have turned := path.trans (path_turn order due course quiet)
    have shut : Scene.Shut _ := path_invariant turned shut_move shut
    exact ⟨⟨_, turned⟩, Pool.quiet_respond shut⟩

/-- A run is a path, and after each turn and event of it the pool is quiet. -/
theorem path_of_run (run : Site.Run config observer past now s) :
    (∃ m, Path (Scene.start config observer) { now, site := s, memory := m, past }) ∧
      s.pool.Quiet :=
  path_of_onward (Site.onward_of_run run) (.inl rfl) fun _ => rfl

/-- What follows on a run is a path, whatever is remembered of it. -/
theorem path_after_run {past' : List Site.Record} {now' : Nat} {s' : Site}
    (run : Site.Run config observer past now s)
    (onward : Site.Onward past now s past' now' s') (m : Memory) :
    ∃ m', Path { now, site := s, memory := m, past }
      { now := now', site := s', memory := m', past := past' } := by
  obtain ⟨⟨_, path⟩, quiet⟩ := path_of_run run
  have closed : Scene.Shut _ := path_invariant path shut_move fun _ => rfl
  have shut : Scene.Shut { now, site := s, memory := m, past } := closed
  exact (path_of_onward onward quiet shut).1

/-- What holds at the start and is kept by every move holds after every turn and event. -/
theorem run_invariant (holds : Scene → Prop) (run : Site.Run config observer past now s)
    (step : ∀ {a b : Scene}, Move a b → holds a → holds b)
    (first : holds (Scene.start config observer)) :
    ∃ m, holds { now, site := s, memory := m, past } := by
  obtain ⟨⟨m, path⟩, -⟩ := path_of_run run
  exact ⟨m, path_invariant path step first⟩

theorem config_of_run (run : Site.Run config observer past now s) : s.pool.config = config := by
  obtain ⟨c, same⟩ := run_invariant (fun sc => sc.pool.config = config) run
    (fun move same => (config_move move).trans same) rfl
  exact same

/-! ### Who waits between two commands

Whatever frees a connection or capacity, the waiters it could serve have been served before the
turn is over. -/

/-- Between two commands a request waits only while no connection is idle and no capacity is left;
and then serving the queue changes nothing, whatever the surroundings would answer. -/
theorem waiters_only_at_capacity (run : Site.Run config observer past now s) :
    (s.pool.pending.requests = [] ∨
      s.pool.registry.idle = [] ∧ config.maxConnections ≤ s.pool.registry.acquired) ∧
      ∀ (w : Surroundings) (t : Turn), t.pool = s.pool → t.servePending w = t := by
  have quiet := (path_of_run run).2
  constructor
  · rcases quiet with nobody | ⟨drained, full⟩
    · exact .inl nobody
    · rw [config_of_run run] at full
      exact .inr ⟨drained, full⟩
  · intro w t same
    rw [← same] at quiet
    exact Turn.servePending_of_quiet w quiet

/-- A caller holds the only connection of a pool, and another one waits. -/
def contended : List (Nat × Option Site.Event) :=
  [(0, some (.acquire ⟨1⟩)), (0, none), (5, some (.connected ⟨0⟩ (.ok (⟨1⟩, {})))), (5, none),
    (6, some (.read ⟨1⟩)), (7, some (.acquire ⟨2⟩)), (7, none)]

theorem waiter_of_contended :
    ∃ past now s, Site.Run { maxConnections := 1 } (fun _ _ => none) past now s ∧
      s.pool.pending.requests.length = 1 ∧
      s.pool.registry.idle = [] ∧ 1 ≤ s.pool.registry.acquired := by
  obtain ⟨past, now, s, run, waiting⟩ :=
    Site.exists_run { maxConnections := 1 } (fun _ _ => none) contended
      (fun _ s => s.pool.pending.requests.length == 1) (by decide +kernel)
  have one : s.pool.pending.requests.length = 1 := by simpa using waiting
  refine ⟨past, now, s, run, one, ?_⟩
  rcases (waiters_only_at_capacity run).1 with nobody | full
  · simp [nobody] at one
  · exact full

end LoanPool
