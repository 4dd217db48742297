import LoanPool.Proofs.Isolation
import LoanPool.Proofs.Notices
import LoanPool.Proofs.Shortcut
import LoanPool.Rehearsal.Perform

/-!
# A pool on the stage

The task of a pool takes turns that nothing interrupts, and all else that is done to its site is an
event that the site allows. This comes down to what the stage keeps account of: tickets are the
numbers of futures and are used once, connections are the numbers of calls, and each call ends once.
-/
namespace LoanPool

namespace Site
variable {s s' : Site} {now : Nat}

/-! ### Turns that nothing interrupts -/

theorem enactAll_withPool (s : Site) (p : Pool) (now : Nat) (log : List Effect) :
    (s.withPool p).enactAll now log = (s.enactAll now log).withPool p := by
  induction log generalizing s with
  | nil => rfl
  | cons e rest ih =>
    simp only [enactAll, List.foldl_cons, enact_withPool] at ih ⊢
    exact ih _

/-- What the task of a pool does by itself is a turn that nothing interrupts. -/
theorem turn_of_step? {effects : List Effect} (stepped : s.step? now = some (effects, s')) :
    ∃ c rest, s.next? = some (c, rest) ∧ effects = ((Course.alone now rest).turn c).effects ∧
      s'.enactAll now effects = (Course.alone now rest).after c := by
  simp only [step?, Option.map_eq_some_iff, Prod.mk.injEq, Prod.exists] at stepped
  obtain ⟨c, rest, due, rfl, rfl⟩ := stepped
  exact ⟨c, rest, due, rfl, enactAll_withPool rest _ now _⟩

/-! ### Connections that are there, and attempts that are over -/

/-- No connection has come since, and no attempt to connect that was over goes on. -/
structure Calls (s s' : Site) : Prop where
  nextJob : s.nextJob ≤ s'.nextJob
  known : ∀ k, (s'.connection? k).isSome → (s.connection? k).isSome
  ended : ∀ job, job.number < s.nextJob → s.connectJob? job = none → s'.connectJob? job = none

theorem Calls.trans {s'' : Site} (first : s.Calls s') (then_ : s'.Calls s'') : s.Calls s'' where
  nextJob := Nat.le_trans first.nextJob then_.nextJob
  known k there := first.known k (then_.known k there)
  ended job used gone :=
    then_.ended job (Nat.lt_of_lt_of_le used first.nextJob) (first.ended job used gone)

theorem connectJob?_of_sublist {job : JobId} (less : s'.connects.Sublist s.connects)
    (gone : s.connectJob? job = none) : s'.connectJob? job = none := by
  rw [connectJob?, List.find?_eq_none] at gone ⊢
  exact fun j member => gone j (less.subset member)

theorem calls_happen {e : Event}
    (known : ∀ k, ((s.happen e).connection? k).isSome → (s.connection? k).isSome) :
    s.Calls (s.happen e) where
  nextJob := Nat.le_of_eq (sheds_happen s e).nextJob.symm
  known := known
  ended _ _ gone := connectJob?_of_sublist (sheds_happen s e).connects gone

theorem calls_next? {c : Option Command} {rest : Site} (due : s.next? = some (c, rest)) :
    s.Calls rest := by
  cases next_of_due due <;> exact ⟨Nat.le_refl _, fun _ there => there, fun _ _ gone => gone⟩

theorem calls_enact (s : Site) (now : Nat) (e : Effect) : s.Calls (s.enact now e) where
  nextJob := by
    cases e with
    | connect target => exact Nat.le_succ _
    | check id serial reply => exact Nat.le_succ _
    | answer k outcome =>
      simp only [enact]
      split <;> exact Nat.le_refl _
    | _ => exact Nat.le_refl _
  known k there := isSome_connection_enact s now e k ▸ there
  ended job used gone := by
    cases e with
    | connect target =>
      have other : (⟨s.nextJob⟩ : JobId) ≠ job := by
        rintro rfl
        exact Nat.lt_irrefl _ used
      rw [connectJob?] at gone ⊢
      simp only [enact, List.find?_append, gone, Option.none_or]
      exact List.find?_eq_none.mpr (by simpa using other)
    | answer k outcome =>
      simp only [enact]
      split <;> exact gone
    | _ => exact gone

theorem calls_enactAll (s : Site) (now : Nat) (log : List Effect) :
    s.Calls (s.enactAll now log) := by
  induction log generalizing s with
  | nil => exact ⟨Nat.le_refl _, fun _ there => there, fun _ _ gone => gone⟩
  | cons e rest ih => exact (calls_enact s now e).trans (ih _)

theorem isNew_enactAll (s : Site) (now : Nat) (log : List Effect) (k : Ticket) :
    (s.enactAll now log).isNew k = s.isNew k := by
  induction log generalizing s with
  | nil => rfl
  | cons e rest ih => exact (ih _).trans (isNew_enact s now e k)

theorem connection?_finishConnect {job : JobId} {j : ConnectJob} {serial : Serial}
    {c : Connection} (found : s.connectJob? job = some j) (k : Serial) :
    (s.finishConnect job (.ok (serial, c))).connection? k =
      (s.connection? k).or ([(serial, c)].lookup k) := by
  rw [finishConnect, found]
  exact List.lookup_append

theorem connectJob?_finishConnect {job : JobId} {j : ConnectJob}
    (found : s.connectJob? job = some j) (result : Except String (Serial × Connection)) :
    (s.finishConnect job result).connectJob? job = none := by
  rw [finishConnect, found]
  cases result <;>
    exact List.find?_eq_none.mpr fun j member => by simpa using (List.mem_filter.mp member).2

theorem modify_of_unknown {serial : Serial} {f : Connection → Connection}
    (unknown : s.connection? serial = none) : s.modify serial f = s := by
  have absent : ∀ e ∈ s.connections, e.1 ≠ serial := by
    intro e member same
    have other := List.lookup_eq_none_iff.mp unknown e member
    simp [same] at other
  rw [modify, Keyed.map_of_absent absent]

/-! ### Events that are due -/

theorem allows_deadline {timer : TimerId} {d : Deadline}
    (found : s.deadlines.find? (·.timer = timer) = some d) (due : d.due ≤ now) :
    s.allows now (.deadline timer) = true := by
  have same : d.timer = timer := of_decide_eq_true (List.find?_some found :)
  rw [allows, List.any_eq_true]
  exact ⟨d, List.mem_of_find?_eq_some found, by simpa using ⟨same, due⟩⟩

theorem allows_notice {id : ConnId} {l : Listener}
    (found : s.listeners.find? (·.id = id) = some l)
    (fired : ((s.connection? l.serial).map (·.fired)).getD true = true) :
    s.allows now (.notice id) = true := by
  have same : l.id = id := of_decide_eq_true (List.find?_some found :)
  rw [allows, List.any_eq_true]
  exact ⟨l, List.mem_of_find?_eq_some found, by simpa using ⟨same, fired⟩⟩

end Site

namespace Rehearsal

/-- A pool on the stage stands where a run of it leads. The tickets at it are numbers of futures,
its calls have numbers of their own, and its connections come from calls that are over. -/
structure Booth.Sound (plan : PoolPlan) (now futures : Nat) (b : Booth) : Prop where
  planned : b.plan = plan
  run : ∃ past before, before ≤ now ∧ Site.Run plan.config plan.objections past before b.site
  asked : ∀ k, b.site.isNew k = false → k.number < futures
  called : ∀ {job call}, b.begun.lookup (.connect job) = some call → call ≤ b.connectCalls
  apart : ∀ {job job' call}, b.begun.lookup (.connect job) = some call →
    b.begun.lookup (.connect job') = some call → job = job'
  opened : ∀ {serial}, (b.site.connection? serial).isSome → ∃ job, job.number < b.site.nextJob ∧
    b.begun.lookup (.connect job) = some serial.number ∧ b.site.connectJob? job = none

namespace Booth.Sound
variable {plan : PoolPlan} {now now' n n' : Nat} {b : Booth} {s : Site} {e : Site.Event}

theorem mono (sound : b.Sound plan now n) (later : now ≤ now') (more : n ≤ n') :
    b.Sound plan now' n' where
  planned := sound.planned
  run := by
    obtain ⟨past, before, order, run⟩ := sound.run
    exact ⟨past, before, Nat.le_trans order later, run⟩
  asked k known := Nat.lt_of_lt_of_le (sound.asked k known) more
  called := sound.called
  apart := sound.apart
  opened := sound.opened

theorem withSite (sound : b.Sound plan now n)
    (run : ∃ past before, before ≤ now ∧ Site.Run plan.config plan.objections past before s)
    (asked : ∀ k, s.isNew k = false → k.number < n') (calls : b.site.Calls s) :
    { b with site := s }.Sound plan now n' where
  planned := sound.planned
  run := run
  asked := asked
  called := sound.called
  apart := sound.apart
  opened there := by
    obtain ⟨job, used, begun, ended⟩ := sound.opened (calls.known _ there)
    exact ⟨job, Nat.lt_of_lt_of_le used calls.nextJob, begun, calls.ended job used ended⟩

/-- A ticket that has been used was used before, or is the one under which is asked. -/
theorem asked_happen (sound : b.Sound plan now n) (more : n ≤ n')
    (fresh : ∀ k, e.asks = some k → k.number < n') (k : Ticket)
    (known : (b.site.happen e).isNew k = false) : k.number < n' := by
  rw [← Bool.not_eq_true, Site.isNew_iff, not_not] at known
  rcases Site.keys_happen b.site e with same | ⟨k', asks, longer⟩
  · rw [same, ← not_not (a := k ∈ _), ← Site.isNew_iff, Bool.not_eq_true] at known
    exact Nat.lt_of_lt_of_le (sound.asked k known) more
  · rw [longer] at known
    rcases List.mem_append.mp known with older | new
    · rw [← not_not (a := k ∈ _), ← Site.isNew_iff, Bool.not_eq_true] at older
      exact Nat.lt_of_lt_of_le (sound.asked k older) more
    · rw [List.mem_singleton.mp new]
      exact fresh k' asks

theorem happen (sound : b.Sound plan now n) (allowed : b.site.allows now e = true)
    (quiet : b.site.brings e = []) (more : n ≤ n')
    (fresh : ∀ k, e.asks = some k → k.number < n') :
    { b with site := b.site.happen e }.Sound plan now n' := by
  obtain ⟨past, before, order, run⟩ := sound.run
  refine sound.withSite ⟨past, now, Nat.le_refl _, .event run order allowed⟩
    (sound.asked_happen more fresh) (Site.calls_happen fun k there => ?_)
  exact Site.connections_of_quiet quiet k ▸ there

theorem quiet (sound : b.Sound plan now n) (allowed : b.site.allows now e = true)
    (quiet : b.site.brings e = []) (unasked : e.asks = none) :
    { b with site := b.site.happen e }.Sound plan now n :=
  sound.happen allowed quiet (Nat.le_refl n) fun k asks => by simp [unasked] at asks

theorem step {effects : List Effect} (sound : b.Sound plan now n)
    (stepped : b.site.step? now = some (effects, s)) :
    { b with site := s.enactAll now effects }.Sound plan now n := by
  obtain ⟨c, rest, due, rfl, after⟩ := Site.turn_of_step? stepped
  obtain ⟨past, before, order, run⟩ := sound.run
  rw [after]
  refine sound.withSite ⟨_, now, Nat.le_refl _, .turn run order due (.alone now rest)⟩ ?_ ?_
  · intro k known
    have same : ((Site.Course.alone now rest).after c).isNew k = b.site.isNew k := by
      refine (Site.isNew_enactAll rest now _ k).trans ?_
      rw [Site.isNew, Site.isNew, Site.tickets_next? due]
    exact sound.asked k (same ▸ known)
  · have calls := Site.calls_enactAll rest now ((Site.Course.alone now rest).turn c).effects
    exact (Site.calls_next? due).trans ⟨calls.nextJob, calls.known, calls.ended⟩

theorem finishCheck (sound : b.Sound plan now n) (job : JobId) (healthy : Bool) :
    { b with site := b.site.finishCheck job healthy }.Sound plan now n := by
  cases found : b.site.checkJob? job with
  | none =>
    rw [Site.finishCheck, found]
    exact sound
  | some j =>
    have allowed : b.site.allows now (.checked job healthy) = true := by
      rw [Site.allows, found, Option.isSome_some]
    obtain ⟨past, before, order, run⟩ := sound.run
    have asked := sound.asked_happen (e := .checked job healthy) (Nat.le_refl n)
      fun k asks => by cases asks
    refine sound.withSite ⟨past, now, Nat.le_refl _, .event run order allowed⟩ asked
      (Site.calls_happen (e := .checked job healthy) fun k there => ?_)
    simpa [Site.happen, Site.finishCheck, found, Site.send, Site.connection?] using there

theorem numbered (sound : b.Sound plan now n) : b.site.Numbered := by
  obtain ⟨past, before, order, run⟩ := sound.run
  exact Site.numbered_of_run run

/-- A call ends once, so its connection is new. -/
theorem new_of_called (sound : b.Sound plan now n) {job : JobId} {j : ConnectJob} {call : Nat}
    (begun : b.begun.lookup (.connect job) = some call)
    (found : b.site.connectJob? job = some j) : b.site.connection? ⟨call⟩ = none := by
  cases there : b.site.connection? ⟨call⟩ with
  | none => rfl
  | some c =>
    obtain ⟨job', used, begun', ended⟩ := sound.opened (Option.isSome_iff_exists.mpr ⟨c, there⟩)
    rw [sound.apart begun begun', ended] at found
    cases found

theorem opened_finishConnect (sound : b.Sound plan now n) {job : JobId} {j : ConnectJob}
    {call : Nat} {c : Connection} {serial : Serial}
    (begun : b.begun.lookup (.connect job) = some call)
    (found : b.site.connectJob? job = some j)
    (there : ((b.site.finishConnect job (.ok (⟨call⟩, c))).connection? serial).isSome) :
    ∃ job', job'.number < (b.site.finishConnect job (.ok (⟨call⟩, c))).nextJob ∧
      b.begun.lookup (.connect job') = some serial.number ∧
        (b.site.finishConnect job (.ok (⟨call⟩, c))).connectJob? job' = none := by
  have sheds := Site.sheds_happen b.site (.connected job (.ok (⟨call⟩, c)))
  by_cases known : (b.site.connection? serial).isSome
  · obtain ⟨job', used, begun', ended⟩ := sound.opened known
    exact ⟨job', sheds.nextJob.symm ▸ used, begun',
      Site.connectJob?_of_sublist sheds.connects ended⟩
  · rw [Option.not_isSome_iff_eq_none] at known
    rw [Site.connection?_finishConnect found, known, Option.none_or] at there
    obtain rfl : serial = ⟨call⟩ := by simpa using there
    have member := List.mem_of_find?_eq_some found
    have same : j.job = job := by simpa using List.find?_some found
    exact ⟨job, sheds.nextJob.symm ▸ same ▸ sound.numbered.usedConnects j member, begun,
      Site.connectJob?_finishConnect found _⟩

theorem finishConnect (sound : b.Sound plan now n) {job : JobId} {call : Nat}
    (begun : b.begun.lookup (.connect job) = some call)
    {result : Except String (Serial × Connection)}
    (named : ∀ serial c, result = .ok (serial, c) → serial = ⟨call⟩) :
    { b with site := b.site.finishConnect job result }.Sound plan now n := by
  cases found : b.site.connectJob? job with
  | none =>
    rw [Site.finishConnect, found]
    exact sound
  | some j =>
    obtain ⟨past, before, order, run⟩ := sound.run
    have asked := sound.asked_happen (e := .connected job result) (Nat.le_refl n)
      fun k asks => by cases asks
    cases result with
    | error cause =>
      have allowed : b.site.allows now (.connected job (.error cause)) = true := by
        rw [Site.allows, found, Option.isSome_some]
      refine sound.withSite ⟨past, now, Nat.le_refl _, .event run order allowed⟩ asked
        (Site.calls_happen (e := .connected job (.error cause)) fun k there => ?_)
      simpa [Site.happen, Site.finishConnect, found, Site.send, Site.connection?] using there
    | ok made =>
      obtain ⟨serial, c⟩ := made
      cases named serial c rfl
      have allowed : b.site.allows now (.connected job (.ok (⟨call⟩, c))) = true := by
        rw [Site.allows, found, sound.new_of_called begun found]
        rfl
      exact ⟨sound.planned, ⟨past, now, Nat.le_refl _, .event run order allowed⟩, asked,
        sound.called, sound.apart, fun there => sound.opened_finishConnect begun found there⟩

theorem read (sound : b.Sound plan now n) (k : Ticket) :
    { b with site := (b.site.read k).2 }.Sound plan now n := by
  cases known : b.site.isNew k with
  | true =>
    rw [Site.read, Site.standing_of_isNew known]
    exact sound
  | false => exact sound.quiet (e := .read k) (by simp [Site.allows, known]) rfl rfl

theorem abandon (sound : b.Sound plan now n) (k : Ticket) :
    { b with site := b.site.abandon k }.Sound plan now n := by
  cases known : b.site.isNew k with
  | true =>
    rw [Site.abandon, Site.standing_of_isNew known]
    exact sound
  | false => exact sound.quiet (e := .abandon k) (by simp [Site.allows, known]) rfl rfl

theorem dropLoan (sound : b.Sound plan now n) (k : Ticket) :
    { b with site := b.site.dropLoan k }.Sound plan now n := by
  cases lent : b.site.isLent k with
  | true => exact sound.quiet (e := .dropLoan k) lent rfl rfl
  | false =>
    rw [Site.dropLoan]
    split
    · next holding => simp [Site.isLent, holding] at lent
    · exact sound

/-- A connection is broken, fired or closed from outside, if it is there. -/
theorem peer (sound : b.Sound plan now n) (serial : Serial) {f : Connection → Connection}
    (happens : b.site.happen e = b.site.modify serial f)
    (allows : b.site.allows now e = (b.site.connection? serial).isSome)
    (quiet : b.site.brings e = []) (unasked : e.asks = none) :
    { b with site := b.site.modify serial f }.Sound plan now n := by
  cases known : b.site.connection? serial with
  | none =>
    rw [Site.modify_of_unknown known]
    exact sound
  | some c =>
    rw [← happens]
    exact sound.quiet (by rw [allows, known, Option.isSome_some]) quiet unasked

theorem isNew_next (sound : b.Sound plan now n) : b.site.isNew ⟨n⟩ = true := by
  rw [← Bool.not_eq_false]
  exact fun known => Nat.lt_irrefl n (sound.asked ⟨n⟩ known)

/-- A loan is given back through a handle on this pool or another. -/
theorem giveBack (sound : b.Sound plan now n) {home : Bool} {k reply : Ticket} {id : ConnId}
    {serial : Serial} (holding : b.site.standing k = .holding id serial)
    (held : home = true → b.site.handles ≠ 0) (new : reply = ⟨n⟩) :
    { b with site := (b.site.giveBack home k reply).2 }.Sound plan now (n + 1) := by
  subst new
  cases home with
  | false =>
    rw [Site.giveBack_abroad holding]
    exact (sound.dropLoan k).mono (Nat.le_refl _) (Nat.le_succ n)
  | true =>
    have fresh := sound.isNew_next
    have allowed : b.site.allows now (.release k ⟨n⟩) = true := by
      simp [Site.allows, held rfl, Site.isLent, holding, fresh]
    have quiet : b.site.brings (.release k ⟨n⟩) = [] := rfl
    rw [Site.giveBack_home holding]
    refine sound.happen allowed quiet (Nat.le_succ n) fun k' asks => ?_
    cases asks
    exact Nat.lt_succ_self n

theorem ask (sound : b.Sound plan now n) (held : b.site.handles ≠ 0)
    (allows : b.site.allows now e = (b.site.handles != 0 && b.site.isNew ⟨n⟩))
    (quiet : b.site.brings e = []) (asks : e.asks = some ⟨n⟩) :
    { b with site := b.site.happen e }.Sound plan now (n + 1) := by
  have fresh := sound.isNew_next
  refine sound.happen (by simp [allows, held, fresh]) quiet (Nat.le_succ n) fun k asked => ?_
  cases asks.symm.trans asked
  exact Nat.lt_succ_self n

/-- A call begins, under the next number. -/
theorem call (sound : b.Sound plan now n) (job : JobId) (gates : List Nat) :
    { b with
      connectCalls := b.connectCalls + 1
      begun := b.begun ++ [(Task.connect job, b.connectCalls + 1)]
      connectGates := gates }.Sound plan now n := by
  have begun : ∀ {job' call},
      (b.begun ++ [(Task.connect job, b.connectCalls + 1)]).lookup (.connect job') = some call →
        b.begun.lookup (.connect job') = some call ∨ job' = job ∧ call = b.connectCalls + 1 := by
    intro job' call found
    rw [List.lookup_append, Option.or_eq_some_iff] at found
    rcases found with older | ⟨-, later⟩
    · exact .inl older
    · simp only [List.lookup_cons, List.lookup_nil] at later
      split at later
      · next same =>
        cases eq_of_beq same
        exact .inr ⟨rfl, (Option.some.inj later).symm⟩
      · cases later
  refine ⟨sound.planned, sound.run, sound.asked, fun found => ?_, fun found found' => ?_,
    fun there => ?_⟩
  · rcases begun found with older | ⟨-, rfl⟩
    · exact Nat.le_succ_of_le (sound.called older)
    · exact Nat.le_refl _
  · rcases begun found with older | ⟨rfl, rfl⟩
    · rcases begun found' with older' | ⟨rfl, rfl⟩
      · exact sound.apart older older'
      · exact absurd (sound.called older) (Nat.not_succ_le_self _)
    · rcases begun found' with older' | ⟨rfl, -⟩
      · exact absurd (sound.called older') (Nat.not_succ_le_self _)
      · rfl
  · obtain ⟨job', used, older, ended⟩ := sound.opened there
    refine ⟨job', used, ?_, ended⟩
    rw [List.lookup_append, older, Option.some_or]

/-- Of the other tasks it is only noted that they have begun. -/
theorem begin (sound : b.Sound plan now n) {task : Task} {call calls : Nat} {gates : List Nat}
    (other : ∀ job, task ≠ .connect job) :
    { b with
      checkCalls := calls
      begun := b.begun ++ [(task, call)]
      checkGates := gates }.Sound plan now n := by
  have same : ∀ job, (b.begun ++ [(task, call)]).lookup (.connect job) =
      b.begun.lookup (.connect job) := by
    intro job
    have apart : (Task.connect job == task) = false := beq_false_of_ne (other job).symm
    rw [List.lookup_append, List.lookup_cons, apart]
    exact Option.or_none
  refine ⟨sound.planned, sound.run, sound.asked, fun found => ?_, fun found found' => ?_,
    fun there => ?_⟩
  · exact sound.called ((same _).symm.trans found)
  · exact sound.apart ((same _).symm.trans found) ((same _).symm.trans found')
  · obtain ⟨job, used, begun, ended⟩ := sound.opened there
    exact ⟨job, used, (same job).trans begun, ended⟩

end Booth.Sound

end Rehearsal
end LoanPool
