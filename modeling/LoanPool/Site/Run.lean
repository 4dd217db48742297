import LoanPool.Site

/-!
# Runs of a site

Everything that can happen at a site is either a turn of its pool task or an `Event` from outside.
`allows` tells when an event is possible. Events happen at any time, also while the pool is in the
middle of a turn: `Course` says how the site goes on between the effects of a turn. `Run` holds of
the sites that some order of turns and events leads to, with a record of what the pool did.
-/
namespace LoanPool.Site

inductive Event where
  | acquire (k : Ticket)
  | close (k : Ticket)
  | stats (k : Ticket)
  | release (k reply : Ticket)
  | read (k : Ticket)
  | abandon (k : Ticket)
  /-- The holder of a loan drops it, or offers it to another pool, which refuses it. -/
  | dropLoan (k : Ticket)
  | clone
  | dropHandle
  | kill (serial : Serial)
  | fire (serial : Serial)
  | shut (serial : Serial)
  | connected (job : JobId) (result : Except String (Serial × Connection))
  | checked (job : JobId) (healthy : Bool)
  | deadline (timer : TimerId)
  | notice (id : ConnId)
deriving Repr

def isNew (s : Site) (k : Ticket) : Bool :=
  (s.tickets.lookup k).isNone

def isLent (s : Site) (k : Ticket) : Bool :=
  match s.standing k with
  | .holding .. => true
  | _ => false

def allows (now : Nat) (s : Site) : Event → Bool
  | .acquire k => s.handles != 0 && s.isNew k
  | .close k => s.handles != 0 && s.isNew k
  | .stats k => s.handles != 0 && s.isNew k
  | .release k reply => s.handles != 0 && s.isLent k && s.isNew reply
  | .read k => !s.isNew k
  | .abandon k => !s.isNew k
  | .dropLoan k => s.isLent k
  | .clone => s.handles != 0
  | .dropHandle => s.handles != 0
  | .kill serial => (s.connection? serial).isSome
  | .fire serial => (s.connection? serial).isSome
  | .shut serial => (s.connection? serial).isSome
  | .connected job (.ok (serial, _)) =>
    (s.connectJob? job).isSome && (s.connection? serial).isNone
  | .connected job (.error _) => (s.connectJob? job).isSome
  | .checked job _ => (s.checkJob? job).isSome
  | .deadline timer => s.deadlines.any fun d => d.timer = timer && d.due ≤ now
  | .notice id => s.listeners.any fun l =>
    l.id = id && ((s.connection? l.serial).map (·.fired)).getD true

def happen (s : Site) : Event → Site
  | .acquire k => s.ask k (.acquire k)
  | .close k => s.ask k (.close k)
  | .stats k => s.ask k (.stats k)
  | .release k reply => s.release k reply
  | .read k => (s.read k).2
  | .abandon k => s.abandon k
  | .dropLoan k => s.dropLoan k
  | .clone => s.clone
  | .dropHandle => s.dropHandle
  | .kill serial => s.kill serial
  | .fire serial => s.fire serial
  | .shut serial => s.shut serial
  | .connected job result => s.finishConnect job result
  | .checked job healthy => s.finishCheck job healthy
  | .deadline timer => s.passDeadline timer
  | .notice id => s.noticeClose id

inductive Drift (now : Nat) (s : Site) : Site → Prop where
  | refl : Drift now s s
  | next {mid : Site} {e : Event} (before : Drift now s mid) (allowed : mid.allows now e = true) :
      Drift now s (mid.happen e)

/-- How a site goes on while its pool is in the middle of a turn: after each series of effects that
the pool may have had, the site as it stands then. -/
structure Course (now : Nat) (s : Site) where
  amid : List Effect → Site
  begins : Drift now s (amid [])
  goes : ∀ log e, Drift now ((amid log).enact now e) (amid (log ++ [e]))

def Course.alone (now : Nat) (s : Site) : Course now s where
  amid := s.enactAll now
  begins := .refl
  goes log e := by
    rw [enactAll, enactAll, List.foldl_append]
    exact .refl

def Course.turn {now : Nat} {s : Site} (course : Course now s) (c : Option Command) : Turn :=
  s.pool.respond (surroundings course.amid) c

def Course.after {now : Nat} {s : Site} (course : Course now s) (c : Option Command) : Site :=
  (course.amid (course.turn c).effects).withPool (course.turn c).pool

/-- What is remembered of a run: that a turn began, or an effect of a turn. -/
structure Record where
  now : Nat
  /-- The command that the turn handles; none for the end of the pool. -/
  command : Option Command
  effect : Option Effect := none
  pool : Pool
deriving Repr

def records (now : Nat) (c : Option Command) (before : Pool) (t : Turn) : List Record :=
  { now, command := c, pool := before } ::
    t.log.map fun m => { now, command := c, effect := some m.effect, pool := m.pool }

inductive Run (config : Config) (observer : Hook → Nat → Option String) :
    List Record → Nat → Site → Prop where
  | start : Run config observer [] 0 (.start config observer)
  | event {past : List Record} {now later : Nat} {s : Site} {e : Event}
      (before : Run config observer past now s) (order : now ≤ later)
      (allowed : s.allows later e = true) : Run config observer past later (s.happen e)
  | turn {past : List Record} {now later : Nat} {s rest : Site} {c : Option Command}
      (before : Run config observer past now s) (order : now ≤ later)
      (due : s.next? = some (c, rest)) (course : Course later rest) :
      Run config observer (past ++ records later c s.pool (course.turn c)) later (course.after c)

inductive Onward (past : List Record) (now : Nat) (s : Site) : List Record → Nat → Site → Prop where
  | refl : Onward past now s past now s
  | event {past' : List Record} {now' later : Nat} {s' : Site} {e : Event}
      (before : Onward past now s past' now' s') (order : now' ≤ later)
      (allowed : s'.allows later e = true) : Onward past now s past' later (s'.happen e)
  | turn {past' : List Record} {now' later : Nat} {s' rest : Site} {c : Option Command}
      (before : Onward past now s past' now' s') (order : now' ≤ later)
      (due : s'.next? = some (c, rest)) (course : Course later rest) :
      Onward past now s (past' ++ records later c s'.pool (course.turn c)) later (course.after c)

/-- A run in the middle of a turn: what is recorded so far, the pool before the turn, the command
that it handles, the site as it stands, and the effect that takes place next; none at the end of the
turn. -/
inductive Midst (config : Config) (observer : Hook → Nat → Option String) :
    List Record → Pool → Option Command → Site → Option Effect → Prop where
  | effect {past : List Record} {now later : Nat} {s rest : Site} {c : Option Command}
      {front back : List Moment} {m : Moment} (before : Run config observer past now s)
      (order : now ≤ later) (due : s.next? = some (c, rest)) (course : Course later rest)
      (here : (course.turn c).log = front ++ m :: back) :
      Midst config observer (past ++ records later c s.pool { pool := m.pool, log := front })
        s.pool c ((course.amid (front.map (·.effect))).withPool m.pool) (some m.effect)
  | done {past : List Record} {now later : Nat} {s rest : Site} {c : Option Command}
      (before : Run config observer past now s) (order : now ≤ later)
      (due : s.next? = some (c, rest)) (course : Course later rest) :
      Midst config observer (past ++ records later c s.pool (course.turn c)) s.pool c
        (course.after c) none

/-- What comes next in a run: an event from outside or, without one, the turn that is due, which
nothing interrupts. -/
def advance (past : List Record) (now : Nat) (s : Site) : Option Event → Option (List Record × Site)
  | some e => if s.allows now e then some (past, s.happen e) else none
  | none => s.next?.map fun (c, rest) =>
    let course := Course.alone now rest
    (past ++ records now c s.pool (course.turn c), course.after c)

def play (past : List Record) (now : Nat) (s : Site) :
    List (Nat × Option Event) → Option (List Record × Nat × Site)
  | [] => some (past, now, s)
  | (later, step) :: rest =>
    if now ≤ later then (advance past later s step).bind fun (past, s) => play past later s rest
    else none

def moment (past : List Record) (now : Nat) (s : Site) (n : Nat) :
    Option (List Record × Pool × Option Command × Site × Option Effect) :=
  s.next?.map fun (c, rest) =>
    let course := Course.alone now rest
    let t := course.turn c
    match t.log.drop n with
    | m :: _ =>
      (past ++ records now c s.pool { pool := m.pool, log := t.log.take n }, s.pool, c,
        (course.amid ((t.log.take n).map (·.effect))).withPool m.pool, some m.effect)
    | [] => (past ++ records now c s.pool t, s.pool, c, course.after c, none)

variable {config : Config} {observer : Hook → Nat → Option String} {past past' : List Record}
  {now now' : Nat} {s s' : Site}

theorem onward_of_run (run : Run config observer past now s) :
    Onward [] 0 (.start config observer) past now s := by
  induction run with
  | start => exact .refl
  | event before order allowed ih => exact .event ih order allowed
  | turn before order due course ih => exact .turn ih order due course

theorem run_onward (run : Run config observer past now s)
    (onward : Onward past now s past' now' s') : Run config observer past' now' s' := by
  induction onward with
  | refl => exact run
  | event before order allowed ih => exact .event ih order allowed
  | turn before order due course ih => exact .turn ih order due course

theorem onward_advance {first : List Record} {start later : Nat} {origin : Site}
    {step : Option Event} (before : Onward first start origin past now s) (order : now ≤ later)
    (next : advance past later s step = some (past', s')) :
    Onward first start origin past' later s' := by
  cases step with
  | some e =>
    simp only [advance, Option.ite_none_right_eq_some, Option.some.injEq, Prod.mk.injEq] at next
    obtain ⟨allowed, rfl, rfl⟩ := next
    exact .event before order allowed
  | none =>
    simp only [advance, Option.map_eq_some_iff, Prod.exists, Prod.mk.injEq] at next
    obtain ⟨c, rest, due, rfl, rfl⟩ := next
    exact .turn before order due (.alone later rest)

theorem onward_play {first : List Record} {start : Nat} {origin : Site}
    {steps : List (Nat × Option Event)} (before : Onward first start origin past now s)
    (played : play past now s steps = some (past', now', s')) :
    Onward first start origin past' now' s' := by
  induction steps generalizing past now s with
  | nil =>
    cases played
    exact before
  | cons step rest ih =>
    obtain ⟨later, step⟩ := step
    simp only [play, Option.ite_none_right_eq_some, Option.bind_eq_some_iff, Prod.exists] at played
    obtain ⟨order, past, s, next, played⟩ := played
    exact ih (onward_advance before order next) played

/-- Whatever can be played is a run. -/
theorem run_play {steps : List (Nat × Option Event)} (before : Run config observer past now s)
    (played : play past now s steps = some (past', now', s')) :
    Run config observer past' now' s' :=
  run_onward before (onward_play .refl played)

theorem midst_moment {n : Nat} {before : Pool} {c : Option Command} {next : Option Effect}
    (run : Run config observer past now s)
    (here : moment past now s n = some (past', before, c, s', next)) :
    Midst config observer past' before c s' next := by
  simp only [moment, Option.map_eq_some_iff, Prod.exists] at here
  obtain ⟨c, rest, due, here⟩ := here
  split at here
  · next m back split =>
    cases here
    have parted := (List.take_append_drop n ((Course.alone now rest).turn c).log).symm
    rw [split] at parted
    exact .effect run (Nat.le_refl now) due (.alone now rest) parted
  · cases here
    exact .done run (Nat.le_refl now) due (.alone now rest)

theorem exists_midst (config : Config) (observer : Hook → Nat → Option String)
    (steps : List (Nat × Option Event)) (n : Nat)
    (seen : List Record → Pool → Option Command → Site → Option Effect → Bool)
    (played : (play [] 0 (.start config observer) steps).any fun (past, now, s) =>
      (moment past now s n).any fun (past, before, c, s, next) => seen past before c s next) :
    ∃ past before c s next, Midst config observer past before c s next ∧
      seen past before c s next := by
  match done : play [] 0 (.start config observer) steps with
  | none => simp [done] at played
  | some (past, now, s) =>
    simp only [done, Option.any_some] at played
    match here : moment past now s n with
    | none => simp [here] at played
    | some (past', before, c, s', next) =>
      exact ⟨past', before, c, s', next, midst_moment (run_play .start done) here,
        by simpa [here] using played⟩

theorem exists_run (config : Config) (observer : Hook → Nat → Option String)
    (steps : List (Nat × Option Event)) (seen : List Record → Site → Bool)
    (played : (play [] 0 (.start config observer) steps).any (fun (past, _, s) => seen past s)) :
    ∃ past now s, Run config observer past now s ∧ seen past s := by
  match done : play [] 0 (.start config observer) steps with
  | none => simp [done] at played
  | some (past, now, s) => exact ⟨past, now, s, run_play .start done, by simpa [done] using played⟩

theorem exists_due (config : Config) (observer : Hook → Nat → Option String)
    (steps : List (Nat × Option Event)) (later : Nat)
    (seen : List Record → Site → Option Command → Site → Bool)
    (played : (play [] 0 (.start config observer) steps).any fun (past, now, s) =>
      decide (now ≤ later) && s.next?.any fun (c, rest) => seen past s c rest) :
    ∃ past now s c rest, Run config observer past now s ∧ now ≤ later ∧
      s.next? = some (c, rest) ∧ seen past s c rest := by
  match done : play [] 0 (.start config observer) steps with
  | none => simp [done] at played
  | some (past, now, s) =>
    simp only [done, Option.any_some, Bool.and_eq_true, decide_eq_true_eq, Option.any_eq_true,
      Prod.exists] at played
    obtain ⟨order, c, rest, due, here⟩ := played
    exact ⟨past, now, s, c, rest, run_play .start done, order, due, here⟩

theorem exists_turn (config : Config) (observer : Hook → Nat → Option String)
    (steps more : List (Nat × Option Event)) (later : Nat)
    (seen : List Record → Site → Option Command → Turn → List Record → Site → Bool)
    (played : (play [] 0 (.start config observer) steps).any fun (past, now, s) =>
      decide (now ≤ later) && s.next?.any fun (c, rest) =>
        let course := Course.alone later rest
        (play (past ++ records later c s.pool (course.turn c)) later (course.after c) more).any
          fun (past', _, s') => seen past s c (course.turn c) past' s') :
    ∃ past now s rest c past' now' s', ∃ course : Course later rest,
      Run config observer past now s ∧ now ≤ later ∧ s.next? = some (c, rest) ∧
      Onward (past ++ records later c s.pool (course.turn c)) later (course.after c)
        past' now' s' ∧
      seen past s c (course.turn c) past' s' := by
  obtain ⟨past, now, s, c, rest, run, order, due, here⟩ := exists_due config observer steps later
    (fun past s c rest =>
      let course := Course.alone later rest
      (play (past ++ records later c s.pool (course.turn c)) later (course.after c) more).any
        fun (past', _, s') => seen past s c (course.turn c) past' s') played
  let course := Course.alone later rest
  match further :
      play (past ++ records later c s.pool (course.turn c)) later (course.after c) more with
  | none => simp [course, further] at here
  | some (past', now', s') =>
    exact ⟨past, now, s, rest, c, past', now', s', course, run, order, due,
      onward_play .refl further, by simpa [course, further] using here⟩

end LoanPool.Site
