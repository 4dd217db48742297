import LoanPool.Proofs.Conduct

/-!
# The life of a connection

What the pool does to a connection follows an order. It is greeted once, offered before each loan,
spoken to when the loan ends, then checked perhaps, and closed as the last thing that is done to it;
and it is closed at once when a hook has refused. At every moment the stage of a registered
connection tells what was done to it last, so what may be done next is what may follow that.
-/
namespace LoanPool

inductive Act.Follows : Option Act → Act → Prop where
  | greeting {refusal : Option String} : Follows none (.hook .created refusal)
  | offer {a : Act} {refusal : Option String} (ready : a.isReady = true) :
      Follows (some a) (.hook .acquired refusal)
  | lend {k : Ticket} : Follows (some (.hook .acquired none)) (.lend k)
  | giveBack {k : Ticket} {refusal : Option String} :
      Follows (some (.lend k)) (.hook .released refusal)
  | check : Follows (some (.hook .released none)) .check
  | close {last : Option Act} (going : last ≠ some .close) : Follows last .close

def Ordered (acts : List Act) : Prop :=
  ∀ front a rest, acts = front ++ a :: rest → Act.Follows front.getLast? a

structure Lifecycle (acts : List Act) : Prop where
  /-- Nothing comes before the hook of a new connection, so there is one at most. -/
  created : ∀ front refusal rest, acts = front ++ .hook .created refusal :: rest → front = []
  begun : ∀ a rest, acts = a :: rest → a = .close ∨ ∃ refusal, a = .hook .created refusal
  lent : ∀ front k rest, acts = front ++ .lend k :: rest →
    ∃ before, front = before ++ [.hook .acquired none]
  released : ∀ front refusal rest, acts = front ++ .hook .released refusal :: rest →
    ∃ before k, front = before ++ [.hook .acquired none, .lend k]
  alternate : ∀ front since refusal rest,
    acts = front ++ .hook .released none :: (since ++ .hook .released refusal :: rest) →
      .hook .acquired none ∈ since
  checked : ∀ front rest, acts = front ++ .check :: rest →
    ∃ before, front = before ++ [.hook .released none]
  refused : ∀ front h reason rest, acts = front ++ .hook h (some reason) :: rest → rest = [.close]
  closed : ∀ front rest, acts = front ++ .close :: rest → rest = []

/-! ### Orders -/

section Orders
variable {acts front rest : List Act} {a b : Act} {last : Option Act} {stage : Stage}

theorem ordered_nil : Ordered [] := by
  intro front a rest split
  simp at split

theorem ordered_concat (ordered : Ordered acts) (next : Act.Follows acts.getLast? a) :
    Ordered (acts ++ [a]) := by
  intro front b rest split
  rcases split_concat split with ⟨rfl, rfl⟩ | ⟨before, rfl⟩
  · exact next
  · exact ordered front b before rfl

theorem follows_of_two (ordered : Ordered (front ++ a :: b :: rest)) : Act.Follows (some a) b := by
  have next := ordered (front ++ [a]) b rest (by simp)
  rwa [List.getLast?_concat] at next

theorem getLast_of_returned {refusal : Option String}
    (next : Act.Follows front.getLast? (.hook .released refusal)) :
    ∃ before k, front = before ++ [.lend k] := by
  generalize here : front.getLast? = last at next
  cases next with
  | @giveBack k =>
    obtain ⟨before, rfl⟩ := List.getLast?_eq_some_iff.mp here
    exact ⟨before, k, rfl⟩

theorem getLast_of_lent {k : Ticket} (next : Act.Follows front.getLast? (.lend k)) :
    ∃ before, front = before ++ [.hook .acquired none] := by
  generalize here : front.getLast? = last at next
  cases next with
  | lend => exact List.getLast?_eq_some_iff.mp here

theorem getLast_of_checked (next : Act.Follows front.getLast? .check) :
    ∃ before, front = before ++ [.hook .released none] := by
  generalize here : front.getLast? = last at next
  cases next with
  | check => exact List.getLast?_eq_some_iff.mp here

theorem released_of_ordered {refusal : Option String}
    (ordered : Ordered (front ++ .hook .released refusal :: rest)) :
    ∃ before k, front = before ++ [.hook .acquired none, .lend k] := by
  obtain ⟨before, k, rfl⟩ := getLast_of_returned (ordered front _ rest rfl)
  obtain ⟨earlier, rfl⟩ := getLast_of_lent (ordered before (.lend k) _ (List.append_assoc _ _ _))
  exact ⟨earlier, k, by simp⟩

/-- Between two ends of a loan there is the hook that allowed the second. -/
theorem alternate_of_ordered {refusal : Option String} {since : List Act}
    (ordered :
      Ordered (front ++ .hook .released none :: (since ++ .hook .released refusal :: rest))) :
    .hook .acquired none ∈ since := by
  have again := ordered (front ++ .hook .released none :: since) (.hook .released refusal) rest
    (by simp)
  obtain ⟨before, k, split⟩ := getLast_of_returned again
  rcases List.eq_nil_or_concat' since with rfl | ⟨since, last, rfl⟩
  · cases (List.append_inj' split rfl).2
  · have cut : (front ++ .hook .released none :: since) ++ [last] = before ++ [.lend k] := by
      simpa using split
    obtain ⟨-, same⟩ := List.append_inj' cut rfl
    cases same
    have lent := ordered (front ++ .hook .released none :: since) (.lend k)
      (.hook .released refusal :: rest) (by simp)
    obtain ⟨earlier, split⟩ := getLast_of_lent lent
    rcases List.eq_nil_or_concat' since with rfl | ⟨since, last, rfl⟩
    · cases (List.append_inj' split rfl).2
    · have cut : (front ++ .hook .released none :: since) ++ [last] =
          earlier ++ [.hook .acquired none] := by simpa using split
      obtain ⟨-, same⟩ := List.append_inj' cut rfl
      cases same
      simp

theorem closed_of_ordered (ordered : Ordered (front ++ .close :: rest)) : rest = [] := by
  cases rest with
  | nil => rfl
  | cons b rest =>
    cases follows_of_two ordered with
    | offer ready => cases ready
    | close going => exact absurd rfl going

/-- A refusal is followed by nothing but the close. -/
theorem refused_of_ordered {h : Hook} {reason : String}
    (ordered : Ordered (front ++ .hook h (some reason) :: rest)) : rest = [] ∨ rest = [.close] := by
  cases rest with
  | nil => exact .inl rfl
  | cons b rest =>
    cases follows_of_two ordered with
    | offer ready => cases ready
    | close going =>
      have cut : Ordered ((front ++ [.hook h (some reason)]) ++ .close :: rest) := by
        rwa [List.append_assoc]
      have last := closed_of_ordered cut
      exact .inr (congrArg _ last)

theorem lifecycle_of_ordered (ordered : Ordered acts)
    (settled : ∀ h reason, acts.getLast? ≠ some (.hook h (some reason))) : Lifecycle acts where
  created := by
    intro front refusal rest split
    have next := ordered front _ rest split
    generalize here : front.getLast? = last at next
    cases next with
    | greeting => exact List.getLast?_eq_none_iff.mp here
  begun := by
    intro a rest split
    cases ordered [] a rest split with
    | greeting => exact .inr ⟨_, rfl⟩
    | close going => exact .inl rfl
  lent := by
    intro front k rest split
    exact getLast_of_lent (ordered front _ rest split)
  released := by
    rintro front refusal rest rfl
    exact released_of_ordered ordered
  alternate := by
    rintro front since refusal rest rfl
    exact alternate_of_ordered ordered
  checked := by
    intro front rest split
    exact getLast_of_checked (ordered front _ rest split)
  refused := by
    rintro front h reason rest rfl
    rcases refused_of_ordered ordered with rfl | closed
    · exact absurd List.getLast?_concat (settled h reason)
    · exact closed
  closed := by
    rintro front rest rfl
    exact closed_of_ordered ordered

theorem going_of_fits (fits : stage.Fits last) : last ≠ some .close := by
  rintro rfl
  cases fits with
  | spare ready => cases ready

theorem ready_of_fits (fits : stage.Fits last) (ready : stage.isReady = true) :
    Stage.Fits .spare last := by
  cases fits with
  | spare fit => exact .spare fit
  | judged => exact .spare rfl
  | @told h refusal =>
    cases refusal with
    | none => exact .spare rfl
    | some reason => cases ready
  | opened => cases ready
  | returned => cases ready

theorem follows_of_calls {h : Hook} {refusal : Option String} (fits : stage.Fits last)
    (timely : stage.calls h = true) : Act.Follows last (.hook h refusal) := by
  cases h with
  | created =>
    cases fits with
    | opened => exact .greeting
    | _ => cases timely
  | acquired =>
    have same : stage.calls .acquired = stage.isReady := by cases stage <;> rfl
    cases ready_of_fits fits (same.symm.trans timely) with
    | spare ready => exact .offer ready
  | released =>
    cases fits with
    | returned => exact .giveBack
    | _ => cases timely

/-- What the stage of a connection admits may follow what was done to it last. -/
theorem follows_of_admits (fits : stage.Fits last) (admits : stage.Admits a) :
    Act.Follows last a := by
  cases admits with
  | hook timely => exact follows_of_calls fits timely
  | lend =>
    cases fits with
    | told => exact .lend
  | check =>
    cases fits with
    | told => exact .check

theorem opened_of_fits (fits : stage.Fits none) : stage = .opened := by
  cases fits with
  | opened => rfl

end Orders

/-! ### The invariant -/

def Act.isRefusal : Act → Bool
  | .hook _ refusal => refusal.isSome
  | _ => false

structure Scene.Living (sc : Scene) : Prop where
  attended : sc.Attended
  ordered : ∀ serial, Ordered (sc.acts serial)
  unheard : ∀ serial, (∀ id, (id, serial) ∉ Site.opened sc.past) → sc.acts serial = []
  standing : ∀ n ∈ sc.registry.names, (sc.stage n.1).Fits (sc.acts n.2).getLast?
  /-- What is registered no more was closed by the pool, or went by itself while not in hand. -/
  departed : ∀ n ∈ Site.opened sc.past, n ∉ sc.registry.names →
    ∃ a, (sc.acts n.2).getLast? = some a ∧ a.isRefusal = false
  greeted : ∀ rec ∈ sc.past, ∀ id serial, rec.effect = some (.listen id serial) →
    (sc.acts serial = [] → rec.pool.closed = sc.pool.closed) ∧
      ∀ a, (sc.acts serial).head? = some a → (a = .close ↔ rec.pool.closed = true)

variable {sc sc' : Scene} {serial : Serial} {n : ConnId × Serial}

theorem named_of_act {p : Pool} {h : Hand} {e : Effect} {a : Act} (move : Move sc sc')
    (eq : sc' = (sc.alter p h).emit e) (about : e.act? = some (serial, a)) :
    ∃ id, (id, serial) ∈ sc.registry.names := by
  cases move with
  | begin free due => exact absurd eq (ne_emit_begin rfl rfl)
  | seize task back closed honest removed =>
    obtain ⟨-, -, rfl⟩ := emit_inj eq
    cases about
    exact ⟨_, Registry.mem_names_of_discard? removed⟩
  | discard held honest removed unwelcome =>
    obtain ⟨-, -, rfl⟩ := emit_inj eq
    cases about
    exact ⟨_, Registry.mem_names_of_discard? removed⟩
  | evict free empty closed honest removed =>
    obtain ⟨-, -, rfl⟩ := emit_inj eq
    cases about
    exact ⟨_, Registry.mem_names_of_discard? removed⟩
  | hook held known heard timely welcome =>
    obtain ⟨-, -, rfl⟩ := emit_inj eq
    cases about
    exact ⟨_, Registry.mem_names_of_serial? known⟩
  | check held replies reachable known checking back told =>
    obtain ⟨-, -, rfl⟩ := emit_inj eq
    cases about
    exact ⟨_, Registry.mem_names_of_serial? known⟩
  | lend held unarmed conn known lent present told promised =>
    obtain ⟨-, -, rfl⟩ := emit_inj eq
    cases about
    exact ⟨_, Registry.mem_names_of_serial? known⟩
  | answer owed plain =>
    obtain ⟨-, -, rfl⟩ := emit_inj eq
    rcases plain with rfl | ⟨reason, rfl⟩ <;> cases about
  | _ =>
    first
    | exact absurd eq (ne_emit rfl)
    | (obtain ⟨-, -, rfl⟩ := emit_inj eq
       cases about)

theorem acts_unnamed (move : Move sc sc') (unnamed : ∀ id, (id, serial) ∉ sc.registry.names) :
    sc'.acts serial = sc.acts serial := by
  cases recording_move move with
  | same past memory => rw [Scene.acts, Scene.acts, past]
  | begin free due => exact acts_begin _ _ _ _ _
  | effect p h e =>
    apply acts_emit_other
    intro a about
    obtain ⟨id, named⟩ := named_of_act move rfl about
    exact unnamed id named

theorem acts_departed (attended : sc.Attended) (move : Move sc sc')
    (opened : n ∈ Site.opened sc.past) (gone : n ∉ sc.registry.names) :
    sc'.acts n.2 = sc.acts n.2 := by
  apply acts_unnamed move
  intro id named
  rcases apart_of_opened attended opened (attended.watched.traced.named _ named) with
    same | ⟨-, other⟩
  · exact gone (same ▸ named)
  · exact other rfl

theorem ordered_move (living : sc.Living) (move : Move sc sc') (serial : Serial) :
    Ordered (sc'.acts serial) := by
  have ordered := living.ordered serial
  by_cases named : ∃ id, (id, serial) ∈ sc.registry.names
  · obtain ⟨id, known⟩ := named
    have fits := living.standing _ known
    cases conduct_move living.attended move known with
    | same known' acts => exact acts ▸ ordered
    | shelved known' acts => exact acts ▸ ordered
    | acted known' acts admits =>
      exact acts ▸ ordered_concat ordered (follows_of_admits fits admits)
    | closed gone acts => exact acts ▸ ordered_concat ordered (.close (going_of_fits fits))
    | forgotten gone acts => exact acts ▸ ordered
  · have same := acts_unnamed move (not_exists.mp named)
    exact same ▸ ordered

theorem unheard_move (living : sc.Living) (move : Move sc sc') (serial : Serial)
    (unknown : ∀ id, (id, serial) ∉ Site.opened sc'.past) : sc'.acts serial = [] := by
  have before : ∀ id, (id, serial) ∉ Site.opened sc.past :=
    fun id member => unknown id (mem_opened_move move member)
  have unnamed : ∀ id, (id, serial) ∉ sc.registry.names :=
    fun id known => before id (living.attended.watched.traced.named _ known)
  exact (acts_unnamed move unnamed).trans (living.unheard serial before)

theorem unheard_of_task (living : sc.Living) {target : Target}
    (task : sc.hand = { task := some (some (.connected target (.ok serial))) }) :
    sc.acts serial = [] := by
  apply living.unheard
  intro id opened
  have once := living.attended.upkept.arrivals serial
  rw [Scene.arrivals, commands_of_task task] at once
  have had : 0 < (Site.opened sc.past).countP fun n => n.2 = serial :=
    List.countP_pos_iff.mpr ⟨_, opened, by simp⟩
  simp only [Option.toList_some, List.singleton_append, countP_cons_toNat, Command.brought?,
    decide_true, Bool.toNat_true] at once
  split at once <;> omega

structure Newcomer (sc sc' : Scene) (n : ConnId × Serial) : Prop where
  task : ∃ target, sc.hand = { task := some (some (.connected target (.ok n.2))) }
  named : n ∈ sc'.registry.names
  held : sc'.hand.conn = some n.1
  stage : sc'.hand.stage = .opened
  recorded : ∃ rec, sc'.past = sc.past ++ [rec] ∧ rec.effect = some (.listen n.1 n.2) ∧
    rec.pool.closed = sc'.pool.closed

theorem newcomer_of_task (a : sc.Accounted) {target : Target} (move : Move sc sc')
    (task : sc.hand = { task := some (some (.connected target (.ok serial))) })
    (next : sc'.pool.nextConn = sc.pool.nextConn + 1) :
    Newcomer sc sc' (⟨sc.pool.nextConn⟩, serial) := by
  cases move with
  | @connectDone target' serial' task' =>
    rw [task] at task'
    cases task'
    refine ⟨⟨target, task⟩, ?_, rfl, rfl, _, rfl, rfl, ?_⟩
    · simp only [Scene.registry, Scene.pool_emit, Scene.pool_alter,
        Registry.names_register (unnamed_of_accounted a)]
      exact List.mem_append_right _ (List.mem_singleton_self _)
    · simp only [Scene.pool_emit]
  | event order allowed =>
    simp only [Scene.pool, Site.pool_happen] at next
    omega
  | begin free due =>
    rw [free] at task
    cases task
  | wait order =>
    simp only [Scene.pool] at next
    omega
  | _ =>
    simp only [Scene.pool_emit, Scene.pool_alter] at next
    omega

theorem newcomer_of_named (a : sc.Accounted) (move : Move sc sc')
    (named : n ∈ sc'.registry.names) : n ∈ sc.registry.names ∨ Newcomer sc sc' n := by
  cases tracing_move move with
  | same opened names => exact .inl (names ▸ named)
  | registered task opened done next =>
    rw [done, Registry.names_register (unnamed_of_accounted a)] at named
    rcases List.mem_append.mp named with before | new
    · exact .inl before
    · cases List.mem_singleton.mp new
      exact .inr (newcomer_of_task a move task next)
  | closed opened honest removed =>
    rw [Registry.names_discard? removed] at named
    exact .inl (List.mem_filter.mp named).1
  | forgotten task opened done =>
    rw [done, Registry.names_forget] at named
    exact .inl (List.mem_filter.mp named).1

theorem newcomer_of_grown (a : sc.Accounted) (move : Move sc sc')
    (grown : Site.opened sc'.past = Site.opened sc.past ++ [n]) : Newcomer sc sc' n := by
  cases tracing_move move with
  | same opened => simp [opened] at grown
  | registered task opened done next =>
    cases List.append_cancel_left (opened.symm.trans grown)
    exact newcomer_of_task a move task next
  | closed opened => simp [opened] at grown
  | forgotten task opened => simp [opened] at grown

/-- What comes to the pool was not its own before, and is what it has in hand. -/
theorem newcomer_of_opened (a : sc.Accounted) (move : Move sc sc')
    (opened : n ∈ Site.opened sc'.past) : n ∈ Site.opened sc.past ∨ Newcomer sc sc' n := by
  refine (opened_of_move move opened).imp_right ?_
  rintro ⟨new, next, target, task⟩
  have same : n = (⟨sc.pool.nextConn⟩, n.2) := Prod.ext new rfl
  exact same ▸ newcomer_of_task a move task next

theorem acts_newcomer (living : sc.Living) (newcomer : Newcomer sc sc' n) :
    sc'.acts n.2 = [] := by
  obtain ⟨target, task⟩ := newcomer.task
  obtain ⟨rec, past, effect, -⟩ := newcomer.recorded
  have told : sc'.acts n.2 = _ := (congrArg (Site.acts · n.2) past).trans (acts_concat _ _ _)
  rw [told, effect]
  exact (List.append_nil _).trans (unheard_of_task living task)

theorem standing_living_move (living : sc.Living) (move : Move sc sc') :
    ∀ n ∈ sc'.registry.names, (sc'.stage n.1).Fits (sc'.acts n.2).getLast? := by
  intro n named
  rcases newcomer_of_named living.attended.watched.kept.accounted move named with
    known | newcomer
  · have fits := living.standing n known
    cases conduct_move living.attended move known with
    | same known' acts stage =>
      rw [acts, stage]
      exact fits
    | shelved known' acts ready stage =>
      rw [acts, stage]
      exact ready_of_fits fits ready
    | acted known' acts admits stage =>
      rw [acts, List.getLast?_concat]
      exact stage
    | closed gone => exact absurd named gone
    | forgotten gone => exact absurd named gone
  · rw [acts_newcomer living newcomer, stage_held newcomer.held, newcomer.stage]
    exact .opened

/-- A connection that is not in hand has come through what was done to it last. -/
theorem settled_of_unheld (living : sc.Living) (known : n ∈ sc.registry.names)
    (unheld : sc.hand.conn ≠ some n.1) :
    ∃ a, (sc.acts n.2).getLast? = some a ∧ a.isRefusal = false := by
  have fits := living.standing n known
  have listed : n.1 ∈ sc.registry.ids := by
    rw [Registry.ids_eq_names]
    exact List.mem_map_of_mem known
  obtain ⟨slot, put⟩ := Registry.slot?_of_mem_ids listed
  rw [stage_put unheld put] at fits
  generalize here : (sc.acts n.2).getLast? = last at fits
  cases slot with
  | idle =>
    cases fits with
    | @spare a ready =>
      refine ⟨a, rfl, ?_⟩
      cases a with
      | hook h refusal =>
        have agreed : refusal = none := Option.isNone_iff_eq_none.mp ready
        rw [agreed]
        rfl
      | _ => rfl
  | onLoan =>
    cases fits with
    | returned => exact ⟨_, rfl, rfl⟩
  | checking =>
    cases fits with
    | judged => exact ⟨_, rfl, rfl⟩

theorem departed_living_move (living : sc.Living) (move : Move sc sc') :
    ∀ n ∈ Site.opened sc'.past, n ∉ sc'.registry.names →
      ∃ a, (sc'.acts n.2).getLast? = some a ∧ a.isRefusal = false := by
  intro n opened gone
  rcases newcomer_of_opened living.attended.watched.kept.accounted move opened with
    before | newcomer
  · by_cases known : n ∈ sc.registry.names
    · cases conduct_move living.attended move known with
      | same known' => exact absurd known' gone
      | shelved known' => exact absurd known' gone
      | acted known' => exact absurd known' gone
      | closed gone' acts =>
        rw [acts, List.getLast?_concat]
        exact ⟨_, rfl, rfl⟩
      | forgotten gone' acts unheld =>
        rw [acts]
        exact settled_of_unheld living known unheld
    · rw [acts_departed living.attended move before known]
      exact living.departed n before known
  · exact absurd newcomer.named gone

/-- Before anything is done to it, a connection is in hand since it came to the pool. -/
theorem opened_of_unheard (living : sc.Living) (opened : n ∈ Site.opened sc.past)
    (nothing : sc.acts n.2 = []) : n ∈ sc.registry.names ∧ sc.hand.conn = some n.1 := by
  have known : n ∈ sc.registry.names := by
    by_contra gone
    obtain ⟨a, last, -⟩ := living.departed n opened gone
    rw [nothing] at last
    cases last
  refine ⟨known, ?_⟩
  by_contra unheld
  obtain ⟨a, last, -⟩ := settled_of_unheld living known unheld
  rw [nothing] at last
  cases last

/-- The hand is not empty when a pool is closed. -/
theorem closed_of_held (move : Move sc sc') {id : ConnId} (held : sc.hand.conn = some id) :
    sc'.pool.closed = sc.pool.closed := by
  rcases closed_move move with same | ⟨-, closer, task⟩
  · exact same
  · rw [task] at held
    cases held

theorem mem_opened_of_listen {past : List Site.Record} {rec : Site.Record} {id : ConnId}
    (member : rec ∈ past) (effect : rec.effect = some (.listen id serial)) :
    (id, serial) ∈ Site.opened past := by
  apply List.mem_filterMap.mpr
  exact ⟨rec, member, by rw [effect]; rfl⟩

theorem acts_grow (move : Move sc sc') (serial : Serial) :
    ∃ more, sc'.acts serial = sc.acts serial ++ more := by
  cases recording_move move with
  | same past memory =>
    refine ⟨[], ?_⟩
    rw [Scene.acts, Scene.acts, past, List.append_nil]
  | begin free due => exact ⟨[], (acts_begin _ _ _ _ _).trans (List.append_nil _).symm⟩
  | effect p h e => exact ⟨_, acts_concat sc.past _ serial⟩

theorem head_acts_move (move : Move sc sc') {a : Act} (first : (sc.acts serial).head? = some a) :
    (sc'.acts serial).head? = some a := by
  obtain ⟨more, acts⟩ := acts_grow move serial
  rw [acts, List.head?_append, first]
  rfl

/-- The first thing that is done to a connection depends on whether the pool is closed. -/
theorem greeted_first (living : sc.Living) (move : Move sc sc') {rec : Site.Record} {id : ConnId}
    (opened : (id, serial) ∈ Site.opened sc.past) (nothing : sc.acts serial = [])
    (agrees : rec.pool.closed = sc.pool.closed) :
    (sc'.acts serial = [] → rec.pool.closed = sc'.pool.closed) ∧
      ∀ a, (sc'.acts serial).head? = some a → (a = .close ↔ rec.pool.closed = true) := by
  obtain ⟨known, held⟩ := opened_of_unheard living opened nothing
  have fits := living.standing _ known
  rw [nothing] at fits
  have stage := opened_of_fits fits
  cases conduct_move living.attended move known with
  | same known' acts =>
    rw [acts, nothing]
    exact ⟨fun _ => agrees.trans (closed_of_held move held).symm, nofun⟩
  | shelved known' acts ready =>
    rw [stage] at ready
    cases ready
  | acted known' acts admits stage' welcome =>
    rw [acts, nothing]
    refine ⟨nofun, ?_⟩
    rintro a ⟨⟩
    rw [agrees, welcome stage]
    rw [stage] at admits
    cases admits with
    | hook timely => exact iff_of_false nofun nofun
  | closed gone acts unwelcome =>
    rw [acts, nothing]
    refine ⟨nofun, ?_⟩
    rintro a ⟨⟩
    rw [agrees, unwelcome stage]
    exact iff_of_true rfl rfl
  | forgotten gone acts unheld => exact absurd held unheld

theorem greeted_move (living : sc.Living) (move : Move sc sc') (rec : Site.Record)
    (member : rec ∈ sc'.past) (id : ConnId) (serial : Serial)
    (effect : rec.effect = some (.listen id serial)) :
    (sc'.acts serial = [] → rec.pool.closed = sc'.pool.closed) ∧
      ∀ a, (sc'.acts serial).head? = some a → (a = .close ↔ rec.pool.closed = true) := by
  rcases effect_move move member effect with here | ⟨p, h, rfl, rfl⟩
  · obtain ⟨unheard, heard⟩ := living.greeted rec here id serial effect
    cases before : sc.acts serial with
    | nil =>
      exact greeted_first living move (mem_opened_of_listen here effect) before (unheard before)
    | cons first rest =>
      have head : (sc.acts serial).head? = some first := congrArg List.head? before
      have head' := head_acts_move move head
      constructor
      · intro nothing
        rw [nothing] at head'
        cases head'
      · intro a heads
        cases head'.symm.trans heads
        exact heard first head
  · have newcomer := newcomer_of_grown living.attended.watched.kept.accounted move
      (opened_alter_emit p h (.listen id serial))
    have nothing := acts_newcomer living newcomer
    constructor
    · intro unheard
      rw [Scene.pool_emit, Scene.pool_alter]
    · intro a heads
      rw [nothing] at heads
      cases heads

theorem living_move (move : Move sc sc') (living : sc.Living) : sc'.Living where
  attended := attended_move move living.attended
  ordered := ordered_move living move
  unheard := unheard_move living move
  standing := standing_living_move living move
  departed := departed_living_move living move
  greeted := greeted_move living move

theorem living_start (config : Config) (observer : Hook → Nat → Option String) :
    (Scene.start config observer).Living where
  attended := attended_start config observer
  ordered _ := ordered_nil
  unheard _ _ := rfl
  standing := List.forall_mem_nil _
  departed := List.forall_mem_nil _
  greeted := List.forall_mem_nil _

/-! ### Runs -/

/-- A loan is given with the hook for it called just before, in the same turn and with the pool in
the same state; a timer may have been stopped in between. -/
def Site.Allowed (past : List Record) (loan : Record) (serial : Serial) : Prop :=
  ∃ front told later, past = front ++ told :: later ∧ told.command = loan.command ∧
    told.effect = some (.hook .acquired serial none) ∧ told.pool = loan.pool ∧
    ∀ stop ∈ later, ∃ timer, stop.effect = some (.disarm timer)

/-- Whatever else it is, the first that is done to a connection is to greet it, or to close it if
the pool is closed by then. -/
def Site.Greeted (past : List Record) (rec : Record) (serial : Serial) : Prop :=
  if rec.pool.closed then Site.acts past serial = [.close]
  else ∃ refusal rest, Site.acts past serial = .hook .created refusal :: rest

def Scene.Allows (sc : Scene) : Prop :=
  ∀ front rec rest, sc.past = front ++ rec :: rest → ∀ k id serial,
    rec.effect = some (.answer k (.loan id serial)) → Site.Allowed front rec serial

theorem allows_move (move : Move sc sc') (allows : sc.Allows) : sc'.Allows := by
  intro front rec rest split k id serial effect
  rcases split_move move split effect with ⟨back, past⟩ | ⟨p, h, done, rfl, rfl⟩
  · exact allows front rec back past k id serial effect
  · obtain ⟨-, -, -, rfl, promised⟩ := loan_of_move move done
    exact promised

theorem greeted_of_living (living : sc.Living) (free : sc.hand = {}) {rec : Site.Record}
    {id : ConnId} (member : rec ∈ sc.past) (effect : rec.effect = some (.listen id serial))
    (course : Lifecycle (sc.acts serial)) : Site.Greeted sc.past rec serial := by
  have opened := mem_opened_of_listen member effect
  obtain ⟨-, heard⟩ := living.greeted rec member id serial effect
  cases first : sc.acts serial with
  | nil =>
    obtain ⟨-, held⟩ := opened_of_unheard living opened first
    rw [free] at held
    cases held
  | cons a rest =>
    have agrees := heard a (congrArg List.head? first)
    rw [Site.Greeted]
    change if rec.pool.closed then sc.acts serial = _ else ∃ refusal rest, sc.acts serial = _
    rw [first]
    split
    · next closed =>
      obtain rfl := agrees.mpr closed
      rw [course.closed [] rest first]
    · next going =>
      rcases course.begun a rest first with rfl | ⟨refusal, rfl⟩
      · exact absurd (agrees.mp rfl) going
      · exact ⟨refusal, rest, rfl⟩

/-- Between turns nothing is left to be said about a connection that a hook refused. -/
theorem lifecycle_of_living (living : sc.Living) (free : sc.hand = {}) (serial : Serial) :
    Lifecycle (sc.acts serial) := by
  apply lifecycle_of_ordered (living.ordered serial)
  intro h reason last
  have opened : ∃ id, (id, serial) ∈ Site.opened sc.past := by
    by_contra unknown
    rw [living.unheard serial (not_exists.mp unknown)] at last
    cases last
  obtain ⟨id, opened⟩ := opened
  have settled : ∃ a, (sc.acts serial).getLast? = some a ∧ a.isRefusal = false := by
    by_cases known : (id, serial) ∈ sc.registry.names
    · apply settled_of_unheld living known
      rw [free]
      exact ne_of_none
    · exact living.departed _ opened known
  obtain ⟨a, here, agreed⟩ := settled
  cases last.symm.trans here
  cases agreed

variable {config : Config} {observer : Hook → Nat → Option String} {past : List Site.Record}
  {now : Nat} {s : Site}

/-- The life of each connection takes its course. A connection that comes to an open pool is greeted
first, and one that comes to a closed pool is closed; the pool does nothing to what did not come to
it. And no loan is given unless the hook for it was called for that very loan, and agreed. -/
theorem life_in_order (run : Site.Run config observer past now s) :
    (∀ serial, Lifecycle (Site.acts past serial)) ∧
      (∀ rec ∈ past, ∀ id serial, rec.effect = some (.listen id serial) →
        Site.Greeted past rec serial) ∧
      (∀ serial, (∀ id, (id, serial) ∉ Site.opened past) → Site.acts past serial = []) ∧
      ∀ front rec rest, past = front ++ rec :: rest → ∀ k id serial,
        rec.effect = some (.answer k (.loan id serial)) → Site.Allowed front rec serial := by
  obtain ⟨m, living, allows⟩ := run_invariant (fun sc => sc.Living ∧ sc.Allows) run
    (fun move held => ⟨living_move move held.1, allows_move move held.2⟩)
    ⟨living_start config observer, fun front rec rest split => by simp [Scene.start] at split⟩
  have course := lifecycle_of_living living rfl
  refine ⟨course, ?_, living.unheard, allows⟩
  intro rec member id serial effect
  exact greeted_of_living living rfl member effect (course serial)

/-- A connection is lent and checked twice, given back once and dropped once. Then the observer does
not let it go out again. -/
def lentTwice : List (Nat × Option Site.Event) :=
  [(0, some (.acquire ⟨1⟩)), (0, none), (1, some (.connected ⟨0⟩ (.ok (⟨1⟩, {})))), (1, none),
    (2, some (.read ⟨1⟩)), (2, some (.release ⟨1⟩ ⟨2⟩)), (2, none), (3, some (.checked ⟨1⟩ true)),
    (3, none), (4, some (.acquire ⟨3⟩)), (4, none), (5, some (.read ⟨3⟩)),
    (5, some (.dropLoan ⟨3⟩)), (5, none), (6, some (.checked ⟨2⟩ true)), (6, none),
    (7, some (.acquire ⟨4⟩)), (7, none)]

theorem life_of_lentTwice :
    ∃ past now s,
      Site.Run {} (fun h n => if h = .acquired ∧ n = 3 then some "no" else none) past now s ∧
      Site.acts past ⟨1⟩ =
        [.hook .created none, .hook .acquired none, .lend ⟨1⟩, .hook .released none, .check,
          .hook .acquired none, .lend ⟨3⟩, .hook .released none, .check,
          .hook .acquired (some "no"), .close] ∧
      Lifecycle (Site.acts past ⟨1⟩) ∧
      (∃ rec ∈ past, rec.pool.closed = false ∧ Site.Greeted past rec ⟨1⟩) ∧
      (∃ front rec rest, past = front ++ rec :: rest ∧
        rec.effect = some (.answer ⟨3⟩ (.loan ⟨1⟩ ⟨1⟩)) ∧ Site.Allowed front rec ⟨1⟩) ∧
      Site.acts past ⟨2⟩ = [] := by
  obtain ⟨past, now, s, run, seen⟩ := Site.exists_run {}
    (fun h n => if h = .acquired ∧ n = 3 then some "no" else none) lentTwice
    (fun past _ => Site.acts past ⟨1⟩ ==
        [.hook .created none, .hook .acquired none, .lend ⟨1⟩, .hook .released none, .check,
          .hook .acquired none, .lend ⟨3⟩, .hook .released none, .check,
          .hook .acquired (some "no"), .close] &&
      past.any (fun rec => rec.effect == some (.listen ⟨1⟩ ⟨1⟩) && !rec.pool.closed) &&
      past.any (fun rec => rec.effect == some (.answer ⟨3⟩ (.loan ⟨1⟩ ⟨1⟩))) &&
      Site.opened past == [(⟨1⟩, ⟨1⟩)]) (by decide +kernel)
  simp only [Bool.and_eq_true, beq_iff_eq, List.any_eq_true, Bool.not_eq_true'] at seen
  obtain ⟨⟨⟨acts, arrived, listed, listens, opened⟩, loan, member, lends⟩, known⟩ := seen
  obtain ⟨course, greeted, unheard, allowed⟩ := life_in_order run
  obtain ⟨front, rest, split⟩ := List.append_of_mem member
  refine ⟨past, now, s, run, acts, course ⟨1⟩, ⟨arrived, listed, opened, ?_⟩, ?_, ?_⟩
  · exact greeted arrived listed ⟨1⟩ ⟨1⟩ listens
  · exact ⟨front, loan, rest, split, lends, allowed front loan rest split ⟨3⟩ ⟨1⟩ ⟨1⟩ lends⟩
  · apply unheard
    intro id
    rw [known]
    simp

end LoanPool
