import LoanPool.Proofs.Rehearsal.Booth

/-!
# Rehearsals are runs

Whatever is rehearsed, each pool on the stage stands where a run of it leads. Queues and the clock
decide when a task goes on; what it then does to a site is one turn, one event, or nothing.
-/
namespace LoanPool
namespace Rehearsal
namespace Stage
variable {plans : List PoolPlan} {plan : PoolPlan} {s s' s'' : Stage} {now : Nat} {i : Nat}
  {b : Booth}

structure Sound (plans : List PoolPlan) (now : Nat) (s : Stage) : Prop where
  clock : s.clock.now = now
  booths : ∀ {i b}, s.booth? i = some b →
    ∃ plan, plans[i]? = some plan ∧ b.Sound plan now s.futures.length

/-- Nothing has happened but to the queues and to what is noted. -/
structure Still (s s' : Stage) : Prop where
  booths : s'.booths = s.booths
  now : s'.clock.now = s.clock.now
  futures : s'.futures = s.futures

namespace Still

theorem refl (s : Stage) : s.Still s :=
  ⟨rfl, rfl, rfl⟩

theorem trans (first : s.Still s') (then_ : s'.Still s'') : s.Still s'' :=
  ⟨then_.booths.trans first.booths, then_.now.trans first.now, then_.futures.trans first.futures⟩

theorem foldl {α : Type} {step : Stage → α → Stage} (each : ∀ s a, Still s (step s a))
    (l : List α) (s : Stage) : s.Still (l.foldl step s) := by
  induction l generalizing s with
  | nil => exact refl s
  | cons a rest ih => exact (each s a).trans (ih _)

theorem modifySite (still : s.Still s') (i : Nat) (f : Site → Site) :
    (s.modifySite i f).Still (s'.modifySite i f) where
  booths := congrArg (List.modify · i _) still.booths
  now := still.now
  futures := still.futures

end Still

theorem still_enqueue (s : Stage) (p : Post) : s.Still (s.enqueue p) := by
  rw [enqueue]
  split <;> exact ⟨rfl, rfl, rfl⟩

theorem still_wake (s : Stage) (p : Post) : s.Still (s.wake p) := by
  rw [wake]
  split
  · have queued := still_enqueue { s with parked := s.parked.erase p } p
    exact ⟨queued.booths, queued.now, queued.futures⟩
  · exact .refl s

theorem still_rouse (s : Stage) (i : Nat) : s.Still (s.rouse i) := by
  rw [rouse]
  split
  · split
    · exact still_enqueue s _
    · exact .refl s
  · exact .refl s

theorem still_signalling (s : Stage) (i : Nat) (serial : Serial) (f : Site → Site) :
    (s.modifySite i f).Still (s.signalling i serial f) := by
  have wakes : ∀ s : Stage, s.Still (s.wakeListeners i serial) := by
    intro s
    rw [wakeListeners]
    split
    · exact Still.foldl (fun s l => still_wake s _) _ s
    · exact .refl s
  simp only [signalling]
  split
  · split
    · exact wakes _
    · exact .refl _
  · exact .refl _

theorem still_close (s : Stage) (i : Nat) (serial : Serial) :
    (s.modifySite i (·.shut serial)).Still (s.close i serial) := by
  have told := still_signalling (s.record .close i serial) i serial (·.shut serial)
  have first : (s.modifySite i (·.shut serial)).Still
      ((s.record .close i serial).signalling i serial (·.shut serial)) :=
    ⟨told.booths, told.now, told.futures⟩
  simp only [close]
  split
  · split
    · exact first.trans (still_enqueue _ _)
    · exact first
  · exact first

theorem booth?_modifyBooth (s : Stage) (i j : Nat) (f : Booth → Booth) :
    (s.modifyBooth i f).booth? j = (s.booth? j).map fun b => if i = j then f b else b :=
  List.getElem?_modify f i s.booths j

theorem modifySite_of_absent (absent : s.booth? i = none) (f : Site → Site) :
    s.Still (s.modifySite i f) where
  booths := List.modify_eq_self (List.getElem?_eq_none_iff.mp absent)
  now := rfl
  futures := rfl

theorem modifySite_modifySite (s : Stage) (i : Nat) (f g : Site → Site) :
    (s.modifySite i f).modifySite i g = s.modifySite i fun site => g (f site) := by
  simp only [modifySite, modifyBooth, List.modify_modify_eq]
  rfl

/-- An effect takes place at the site, and what else it sets off is queued. -/
theorem still_enact (s : Stage) (i : Nat) (e : Effect) :
    (s.modifySite i fun site => site.enact s.clock.now e).Still (enact i s e) := by
  simp only [enact]
  split
  · next absent =>
    exact ⟨(modifySite_of_absent absent _).booths.symm, rfl, rfl⟩
  · exact still_enqueue _ _
  · exact still_enqueue _ _
  · exact still_enqueue _ _
  · exact still_enqueue _ _
  · exact ⟨rfl, rfl, rfl⟩
  · split <;> exact ⟨rfl, rfl, rfl⟩
  · exact still_close s i _
  · exact .refl _

theorem still_effects (effects : List Effect) (s : Stage) (i : Nat) :
    (s.modifySite i fun site => site.enactAll s.clock.now effects).Still
      (effects.foldl (enact i) s) := by
  induction effects generalizing s with
  | nil =>
    refine ⟨?_, rfl, rfl⟩
    exact (List.modify_id i s.booths).symm
  | cons e rest ih =>
    have first := still_enact s i e
    have others := ih (enact i s e)
    have both := first.modifySite i fun site => site.enactAll s.clock.now rest
    rw [modifySite_modifySite] at both
    rw [first.now] at others
    exact both.trans others

namespace Sound

theorem still (sound : s.Sound plans now) (still : s.Still s') : s'.Sound plans now where
  clock := still.now.trans sound.clock
  booths here := by
    rw [booth?, still.booths] at here
    rw [still.futures]
    exact sound.booths here

theorem change {f : Booth → Booth} {fs : List Future} (sound : s.Sound plans now)
    (more : s.futures.length ≤ fs.length)
    (kept : ∀ {b plan}, s.booth? i = some b → b.Sound plan now s.futures.length →
      (f b).Sound plan now fs.length) :
    ({ s with futures := fs }.modifyBooth i f).Sound plans now where
  clock := sound.clock
  booths {j b'} here := by
    rw [booth?_modifyBooth, Option.map_eq_some_iff] at here
    obtain ⟨b, known, rfl⟩ := here
    obtain ⟨plan, planned, fine⟩ := sound.booths known
    refine ⟨plan, planned, ?_⟩
    by_cases same : i = j
    · subst same
      rw [if_pos rfl]
      exact kept known fine
    · rw [if_neg same]
      exact fine.mono (Nat.le_refl now) more

theorem modify {f : Booth → Booth} (sound : s.Sound plans now)
    (kept : ∀ {b plan}, s.booth? i = some b → b.Sound plan now s.futures.length →
      (f b).Sound plan now s.futures.length) : (s.modifyBooth i f).Sound plans now :=
  sound.change (Nat.le_refl _) kept

theorem withFutures {fs : List Future} (sound : s.Sound plans now)
    (same : fs.length = s.futures.length) : { s with futures := fs }.Sound plans now where
  clock := sound.clock
  booths here := same ▸ sound.booths here

theorem withClock {clock : Clock Post} {later : Nat} (sound : s.Sound plans now)
    (set : clock.now = later) (order : now ≤ later) : { s with clock }.Sound plans later where
  clock := set
  booths here := by
    obtain ⟨plan, planned, fine⟩ := sound.booths here
    exact ⟨plan, planned, fine.mono order (Nat.le_refl _)⟩

theorem act {f : Site → Site} (sound : s.Sound plans now)
    (kept : ∀ {b plan}, s.booth? i = some b → b.Sound plan now s.futures.length →
      { b with site := f b.site }.Sound plan now s.futures.length) :
    (s.act i f).Sound plans now :=
  (sound.modify kept).still (still_rouse _ i)

theorem modify_here {f : Booth → Booth} (sound : s.Sound plans now) (here : s.booth? i = some b)
    (kept : ∀ {plan}, b.Sound plan now s.futures.length →
      (f b).Sound plan now s.futures.length) : (s.modifyBooth i f).Sound plans now := by
  refine sound.modify fun there fine => ?_
  cases here.symm.trans there
  exact kept fine

theorem act_here {f : Site → Site} (sound : s.Sound plans now) (here : s.booth? i = some b)
    (kept : ∀ {plan}, b.Sound plan now s.futures.length →
      { b with site := f b.site }.Sound plan now s.futures.length) :
    (s.act i f).Sound plans now :=
  (sound.modify_here here kept).still (still_rouse _ i)

/-- Something is done at a pool, to be answered in one more future. -/
theorem expect_act {f : Site → Site} (sound : s.Sound plans now) (here : s.booth? i = some b)
    (kept : ∀ {plan}, b.Sound plan now s.futures.length →
      { b with site := f b.site }.Sound plan now (s.futures.length + 1))
    (future : Future) : ((s.expect future).act i f).Sound plans now := by
  refine Sound.still (sound.change ?_ fun there fine => ?_) (still_rouse _ i)
  · rw [List.length_append]
    exact Nat.le_add_right _ _
  · cases here.symm.trans there
    rw [List.length_append]
    exact kept fine

/-! ### Tasks -/

theorem runPool (sound : s.Sound plans now) (i n : Nat) : (runPool i n s).Sound plans now := by
  induction n generalizing s with
  | zero => exact sound
  | succ n ih =>
    rw [Stage.runPool]
    split
    · exact sound
    · next effects site stepped =>
      obtain ⟨b, here, stepped⟩ := Option.bind_eq_some_iff.mp stepped
      rw [sound.clock] at stepped
      have still := still_effects effects (s.modifySite i fun _ => site) i
      rw [modifySite_modifySite] at still
      refine ih (Sound.still (sound.modify_here here fun fine => ?_) still)
      exact sound.clock.symm ▸ fine.step stepped

theorem setAlarm (sound : s.Sound plans now) (p : Post) (due : Nat) :
    (s.setAlarm p due).Sound plans now :=
  sound.still ⟨rfl, rfl, rfl⟩

theorem park (sound : s.Sound plans now) (p : Post) : (s.park p).Sound plans now :=
  sound.still ⟨rfl, rfl, rfl⟩

theorem begin (sound : s.Sound plans now) {p : Post} {call : Nat}
    (other : ∀ job, p.task ≠ .connect job) : (s.begin p call).Sound plans now :=
  sound.modify fun _ fine => fine.begin other

theorem leaveConnect (sound : s.Sound plans now) {p : Post} {job : JobId} {call : Nat}
    (here : s.booth? p.pool = some b) (begun : b.begun.lookup (.connect job) = some call) :
    (s.leaveConnect p b job call).Sound plans now := by
  rw [Stage.leaveConnect]
  split
  · exact sound.park p
  · refine sound.act_here here fun fine => ?_
    refine fine.finishConnect begun fun serial c made => ?_
    split at made
    · cases made
    · cases made
      rfl

theorem replace {b' : Booth} (sound : s.Sound plans now) (here : s.booth? i = some b)
    (fine : ∀ {plan}, b.Sound plan now s.futures.length → b'.Sound plan now s.futures.length)
    (what : Happening) (serial : Serial) :
    ((s.modifyBooth i fun _ => b').record what i serial).Sound plans now ∧
      ((s.modifyBooth i fun _ => b').record what i serial).booth? i = some b' := by
  constructor
  · exact Sound.still (sound.modify_here here fine) ⟨rfl, rfl, rfl⟩
  · refine (booth?_modifyBooth s i i fun _ => b').trans ?_
    rw [here, Option.map_some, if_pos rfl]

theorem runConnect (sound : s.Sound plans now) {p : Post} {job : JobId}
    (here : s.booth? p.pool = some b) (task : p.task = .connect job) :
    (s.runConnect p b job).Sound plans now := by
  rw [Stage.runConnect, task]
  split
  · next call begun => exact sound.leaveConnect here begun
  · next new =>
    obtain ⟨noted, there⟩ := sound.replace here (fun fine => fine.call job _) .connect
      ⟨b.connectCalls + 1⟩
    dsimp only
    split
    · refine noted.leaveConnect there ?_
      rw [List.lookup_append, new, Option.none_or, List.lookup_cons, beq_self_eq_true]
    · exact noted.setAlarm p _

theorem leaveCheck (sound : s.Sound plans now) {p : Post} {j : CheckJob} {call : Nat}
    {verdict : Verdict} : (s.leaveCheck p b j call verdict).Sound plans now := by
  rw [Stage.leaveCheck]
  split
  · exact sound.park p
  · exact sound.act fun _ fine => fine.finishCheck j.job _

theorem runCheck (sound : s.Sound plans now) {p : Post} {job : JobId}
    (here : s.booth? p.pool = some b) (task : p.task = .check job) :
    (s.runCheck p b job).Sound plans now := by
  have other : ∀ job', p.task ≠ .connect job' := by simp [task]
  rw [Stage.runCheck]
  split
  · exact sound
  · exact sound.leaveCheck
  · next j plans' found checked =>
    split
    · exact sound.leaveCheck
    · obtain ⟨noted, -⟩ := sound.replace here (fun fine => fine.begin other) .check j.serial
      dsimp only
      split
      · exact noted.leaveCheck
      · exact noted.setAlarm p _

theorem runDeadline (sound : s.Sound plans now) {p : Post} {timer : TimerId}
    (here : s.booth? p.pool = some b) (task : p.task = .deadline timer) :
    (s.runDeadline p b timer).Sound plans now := by
  rw [Stage.runDeadline]
  split
  · exact sound
  · refine setAlarm (sound.begin fun job => ?_) p _
    simp [task]
  · next d call found begun =>
    split
    · next due =>
      refine sound.act_here here fun fine => ?_
      have allowed := Site.allows_deadline found (sound.clock ▸ due)
      exact fine.quiet (e := .deadline timer) allowed rfl rfl
    · exact sound.setAlarm p _

theorem runListener (sound : s.Sound plans now) {p : Post} {id : ConnId}
    (here : s.booth? p.pool = some b) : (s.runListener p b id).Sound plans now := by
  rw [Stage.runListener]
  split
  · exact sound
  · next l found =>
    split
    · next fired =>
      refine sound.act_here here fun fine => ?_
      exact fine.quiet (e := .notice id) (Site.allows_notice found fired) rfl rfl
    · exact sound.park p

theorem runConfirmation (sound : s.Sound plans now) {p : Post} {serial : Serial} {close : Nat}
    (task : p.task = .confirmation serial close) :
    (s.runConfirmation p b serial).Sound plans now := by
  rw [Stage.runConfirmation]
  split
  · refine setAlarm (sound.begin fun job => ?_) p _
    simp [task]
  · refine Sound.still (sound.modify fun _ fine => ?_) (still_signalling s p.pool serial _)
    exact fine.peer serial (e := .fire serial) rfl rfl rfl rfl
  · exact sound

theorem runTask (sound : s.Sound plans now) (p : Post) : (s.runTask p).Sound plans now := by
  rw [Stage.runTask]
  split
  · exact sound
  · next b here =>
    split
    · exact sound.runPool _ _
    · next task => exact sound.runConnect here task
    · next task => exact sound.runCheck here task
    · next task => exact sound.runDeadline here task
    · exact sound.runListener here
    · next task => exact sound.runConfirmation task

theorem run (sound : s.Sound plans now) (n : Nat) : (run n s).Sound plans now := by
  induction n generalizing s with
  | zero => exact sound
  | succ n ih =>
    rw [Stage.run]
    split
    · exact sound
    · refine ih (runTask ?_ _)
      exact sound.still ⟨rfl, rfl, rfl⟩

theorem settle (sound : s.Sound plans now) : s.settle.Sound plans now :=
  sound.run _

/-! ### Moves -/

theorem look (sound : s.Sound plans now) (n : Nat) : (s.look n).2.Sound plans now := by
  rw [Stage.look]
  split
  · exact sound
  · next f known =>
    split
    · exact sound.withFutures List.length_set
    · split
      · exact sound
      · next b here => exact sound.modify_here here fun fine => fine.read ⟨n⟩

/-- What is done through a handle, if one is left. -/
theorem withHandle {act : Booth → Reply × Stage} (sound : s.Sound plans now)
    (kept : ∀ b, s.booth? i = some b → b.site.handles ≠ 0 → (act b).2.Sound plans now) :
    (s.withHandle i act).2.Sound plans now := by
  rw [Stage.withHandle]
  split
  · exact sound
  · next b here =>
    split
    · exact sound
    · next held => exact kept b here held

theorem ask (sound : s.Sound plans now) {unread : Bool} {c : Ticket → Command} {e : Site.Event}
    (happens : ∀ site : Site, site.happen e = site.ask ⟨s.futures.length⟩ (c ⟨s.futures.length⟩))
    (allows : ∀ site : Site, site.allows now e =
      (site.handles != 0 && site.isNew ⟨s.futures.length⟩))
    (quiet : ∀ site : Site, site.brings e = []) (asks : e.asks = some ⟨s.futures.length⟩) :
    (s.ask i unread c).2.Sound plans now := by
  refine sound.withHandle fun b here held => sound.expect_act here (fun fine => ?_) _
  rw [← happens]
  exact fine.ask held (allows _) (quiet _) asks

theorem holding_of_standing {n : Nat} {f : Future} {id : ConnId} {serial : Serial}
    (known : s.futures[n]? = some f) (holding : s.standing n = .holding id serial) :
    ∃ b, s.booth? f.pool = some b ∧ b.site.standing ⟨n⟩ = .holding id serial := by
  rw [Stage.standing, known] at holding
  dsimp only at holding
  split at holding
  · cases holding
  · cases here : s.booth? f.pool with
    | none =>
      rw [here] at holding
      cases holding
    | some b =>
      rw [here] at holding
      exact ⟨b, rfl, holding⟩

theorem release (sound : s.Sound plans now) (future : Nat) (into : Option Nat) :
    (s.release future into).2.Sound plans now := by
  rw [Stage.release]
  split
  · exact sound
  · next f id serial known holding =>
    refine sound.withHandle fun b here held => ?_
    obtain ⟨b', here', holding⟩ := holding_of_standing known holding
    refine sound.expect_act here' (fun fine => fine.giveBack holding (fun home => ?_) rfl) _
    rw [of_decide_eq_true home] at here
    cases here.symm.trans here'
    exact held
  · exact sound

theorem drop (sound : s.Sound plans now) (future : Nat) : (s.drop future).2.Sound plans now := by
  rw [Stage.drop]
  split
  · exact sound
  · split
    · exact sound.withFutures List.length_set
    · exact sound.act fun _ fine => fine.dropLoan _
    · exact sound.act fun _ fine => fine.abandon _
    · exact sound.act fun _ fine => fine.abandon _
    · exact sound

theorem poll (sound : s.Sound plans now) (future : Nat) : (s.poll future).2.Sound plans now := by
  have looked := sound.look future
  rw [Stage.poll]
  split
  · split
    · next seen =>
      rw [seen] at looked
      exact looked
    · next seen =>
      rw [seen] at looked
      exact looked
  · exact sound

theorem close (sound : s.Sound plans now) (serial : Serial) :
    (s.close i serial).Sound plans now := by
  refine Sound.still (sound.modify fun _ fine => ?_) (still_close s i serial)
  exact fine.peer serial (e := .shut serial) rfl rfl rfl rfl

theorem clone (sound : s.Sound plans now) : (s.move (.clone i)).2.Sound plans now := by
  refine sound.withHandle fun b here held => sound.modify_here here fun fine => ?_
  exact fine.quiet (e := .clone) (bne_iff_ne.mpr held) rfl rfl

theorem dropHandle (sound : s.Sound plans now) : (s.move (.dropHandle i)).2.Sound plans now := by
  refine sound.withHandle fun b here held => sound.act_here here fun fine => ?_
  exact fine.quiet (e := .dropHandle) (bne_iff_ne.mpr held) rfl rfl

theorem withConnection {serial : Serial} {act : Connection → Reply × Stage}
    (sound : s.Sound plans now) (kept : ∀ c, (act c).2.Sound plans now) :
    (s.withConnection i serial act).2.Sound plans now := by
  rw [Stage.withConnection]
  split
  · exact sound
  · split
    · exact sound
    · exact kept _

theorem kill (sound : s.Sound plans now) (serial : Serial) :
    (s.move (.kill i serial)).2.Sound plans now := by
  refine sound.withConnection fun c => sound.modify fun _ fine => ?_
  exact fine.peer serial (e := .kill serial) rfl rfl rfl rfl

theorem fire (sound : s.Sound plans now) (serial : Serial) :
    (s.move (.fire i serial)).2.Sound plans now := by
  refine sound.withConnection fun c => ?_
  refine Sound.still (sound.modify fun _ fine => ?_) (still_signalling s i serial _)
  exact fine.peer serial (e := .fire serial) rfl rfl rfl rfl

theorem shut (sound : s.Sound plans now) (serial : Serial) :
    (s.move (.shut i serial)).2.Sound plans now :=
  sound.withConnection fun _ => sound.close serial

theorem openGate (sound : s.Sound plans now) {call : Nat} {shut : Booth → List Nat}
    {opened : Booth → Booth} {waits : Task → Bool}
    (kept : ∀ {b plan n}, Booth.Sound plan now n b → Booth.Sound plan now n (opened b)) :
    (s.openGate i call shut opened waits).2.Sound plans now := by
  rw [Stage.openGate]
  split
  · exact sound
  · split
    · exact Sound.still (sound.modify fun _ fine => kept fine)
        (Still.foldl (fun s _ => still_wake s _) _ _)
    · exact sound

theorem advanceWithin (sound : s.Sound plans now) {target : Nat} (order : now ≤ target) (n : Nat) :
    ∃ later, later ≤ target ∧ (Stage.advanceWithin target n s).Sound plans later := by
  induction n generalizing s now with
  | zero => exact ⟨now, order, sound⟩
  | succ n ih =>
    rw [Stage.advanceWithin]
    split
    · exact ⟨now, order, sound⟩
    · next due found =>
      split
      · next reached =>
        have kept : now ≤ (s.clock.strike due).2.now := sound.clock ▸ Nat.le_max_left _ _
        have struck : Sound plans _ { s with clock := (s.clock.strike due).2 } :=
          sound.withClock rfl kept
        have struck := struck.still (Still.foldl still_enqueue (s.clock.strike due).1 _)
        exact ih struck.settle (Nat.max_le.mpr ⟨sound.clock.symm ▸ order, reached⟩)
      · exact ⟨now, order, sound⟩

theorem advance (sound : s.Sound plans now) (ms : Nat) :
    (s.advance ms).Sound plans (s.clock.now + ms) := by
  have order : now ≤ s.clock.now + ms := sound.clock ▸ Nat.le_add_right _ _
  obtain ⟨later, before, advanced⟩ := sound.advanceWithin order s.patience
  exact advanced.withClock rfl before

end Sound

def Lawful (plans : List PoolPlan) (s : Stage) : Prop :=
  ∃ now, s.Sound plans now

theorem lawful_start (plans : List PoolPlan) : (start plans).Lawful plans := by
  refine ⟨0, rfl, fun {i b} here => ?_⟩
  have mapped := here
  simp only [booth?, start, List.getElem?_map, Option.map_eq_some_iff] at mapped
  obtain ⟨plan, planned, rfl⟩ := mapped
  refine ⟨plan, planned, rfl, ⟨[], 0, Nat.le_refl 0, .start⟩, ?_, ?_, ?_, ?_⟩
  · exact fun k known => by cases known
  · exact fun begun => by cases begun
  · exact fun begun => by cases begun
  · exact fun there => by cases there

theorem lawful_move (lawful : s.Lawful plans) (m : Move) : (s.move m).2.Lawful plans := by
  obtain ⟨now, sound⟩ := lawful
  cases m with
  | acquire i unread =>
    exact ⟨now, sound.ask (e := .acquire _) (fun _ => rfl) (fun _ => rfl) (fun _ => rfl) rfl⟩
  | close i unread =>
    exact ⟨now, sound.ask (e := .close _) (fun _ => rfl) (fun _ => rfl) (fun _ => rfl) rfl⟩
  | stats i unread =>
    exact ⟨now, sound.ask (e := .stats _) (fun _ => rfl) (fun _ => rfl) (fun _ => rfl) rfl⟩
  | release future into => exact ⟨now, sound.release future into⟩
  | drop future => exact ⟨now, sound.drop future⟩
  | poll future => exact ⟨now, sound.poll future⟩
  | clone i => exact ⟨now, sound.clone⟩
  | dropHandle i => exact ⟨now, sound.dropHandle⟩
  | kill i serial => exact ⟨now, sound.kill serial⟩
  | fire i serial => exact ⟨now, sound.fire serial⟩
  | shut i serial => exact ⟨now, sound.shut serial⟩
  | openConnect i call =>
    refine ⟨now, sound.openGate fun fine => ?_⟩
    exact ⟨fine.planned, fine.run, fine.asked, fine.called, fine.apart, fine.opened⟩
  | openCheck i call =>
    refine ⟨now, sound.openGate fun fine => ?_⟩
    exact ⟨fine.planned, fine.run, fine.asked, fine.called, fine.apart, fine.opened⟩
  | advance ms => exact ⟨_, sound.advance ms⟩
  | unknown => exact ⟨now, sound⟩

mutual

theorem lawful_step {s : Stage} (lawful : s.Lawful plans) (step : Step) :
    (s.step step).2.Lawful plans := by
  match step with
  | .one m => exact lawful_move lawful m
  | .batch steps => exact lawful_steps lawful steps

theorem lawful_steps {s : Stage} (lawful : s.Lawful plans) (steps : List Step) :
    (s.steps steps).2.Lawful plans := by
  match steps with
  | [] => exact lawful
  | first :: rest => exact lawful_steps (lawful_step lawful first) rest

end

theorem lawful_resolve (lawful : s.Lawful plans) : s.resolve.2.Lawful plans := by
  obtain ⟨now, sound⟩ := lawful
  refine ⟨now, ?_⟩
  rw [resolve]
  refine List.foldlRecOn
    (motive := fun seen : List (Nat × Outcome) × Stage => seen.2.Sound plans now)
    _ _ sound fun seen fine n _ => ?_
  dsimp only
  split
  · exact fine
  · have looked := fine.look n
    split
    · next read =>
      rw [read] at looked
      exact looked
    · next read =>
      rw [read] at looked
      exact looked

theorem lawful_settle (lawful : s.Lawful plans) : s.settle.Lawful plans := by
  obtain ⟨now, sound⟩ := lawful
  exact ⟨now, sound.settle⟩

theorem lawful_play (lawful : s.Lawful plans) (step : Step) : (s.play step).2.Lawful plans := by
  obtain ⟨now, sound⟩ := lawful_resolve (lawful_settle (lawful_step lawful step))
  exact ⟨now, sound.still ⟨rfl, rfl, rfl⟩⟩

theorem run_of_lawful (lawful : s.Lawful plans) (here : s.booth? i = some b) :
    plans[i]? = some b.plan ∧
      ∃ past now, Site.Run b.plan.config b.plan.objections past now b.site := by
  obtain ⟨now, sound⟩ := lawful
  obtain ⟨plan, planned, fine⟩ := sound.booths here
  obtain ⟨past, before, -, run⟩ := fine.run
  rw [fine.planned]
  exact ⟨planned, past, before, run⟩

theorem seen_in_playAll (lawful : s.Lawful plans) {steps : List Step} {answer : Answer}
    (given : answer ∈ s.playAll steps) {seen : PoolView} (here : answer.pools[i]? = some seen) :
    ∃ b, seen = view b ∧ plans[i]? = some b.plan ∧
      ∃ past now, Site.Run b.plan.config b.plan.objections past now b.site := by
  induction steps generalizing s with
  | nil => cases given
  | cons step rest ih =>
    rcases List.mem_cons.mp given with rfl | later
    · have after := lawful_play lawful step
      simp only [List.getElem?_map, Option.map_eq_some_iff] at here
      obtain ⟨b, here, rfl⟩ := here
      exact ⟨b, rfl, run_of_lawful after here⟩
    · exact ih (lawful_play lawful step) later

end Stage

/-- What is seen of a pool in a rehearsal is seen at some point of a run of that pool. -/
theorem seen_in_run {plans : List PoolPlan} {steps : List Step} {answers : List Answer}
    (rehearsed : rehearse plans steps = .ok answers) {answer : Answer} (given : answer ∈ answers)
    {i : Nat} {seen : PoolView} (here : answer.pools[i]? = some seen) :
    ∃ b, seen = Stage.view b ∧ plans[i]? = some b.plan ∧
      ∃ past now, Site.Run b.plan.config b.plan.objections past now b.site := by
  rw [rehearse] at rehearsed
  cases built : plans.forM fun plan => plan.config.admissible true with
  | error fault =>
    rw [built] at rehearsed
    cases rehearsed
  | ok _ =>
    rw [built] at rehearsed
    cases rehearsed
    exact Stage.seen_in_playAll (Stage.lawful_start plans) given here

end Rehearsal
end LoanPool
