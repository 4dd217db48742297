import LoanPool.Proofs.Keyed
import LoanPool.Proofs.Runs

/-!
# Traffic

The commands that are under way to a pool: those in its mailbox, and those that the work it has
started will come back with. Work that is done turns into its command, so nothing is lost or doubled
on the way, and only callers, deadlines and listeners add to what is under way.
-/
namespace LoanPool

def ConnectJob.command (j : ConnectJob) : Command :=
  .connected j.target (.error "")

def CheckJob.command (j : CheckJob) : Command :=
  .checked j.id false j.reply

/-- A question about a command that does not look at the outcome of the work it reports. -/
structure Command.Blind (g : Command → Bool) : Prop where
  connected : ∀ target result, g (.connected target result) = g (.connected target (.error ""))
  checked : ∀ id healthy reply, g (.checked id healthy reply) = g (.checked id false reply)

namespace Site

def underWay (s : Site) : List Command :=
  s.mailbox ++ s.connects.map (·.command) ++ s.checks.map (·.command)

structure Numbered (s : Site) : Prop where
  connects : (s.connects.map (·.job)).Nodup
  checks : (s.checks.map (·.job)).Nodup
  usedConnects : ∀ j ∈ s.connects, j.job.number < s.nextJob
  usedChecks : ∀ j ∈ s.checks, j.job.number < s.nextJob

/-- What an event sends to the pool, work that is done apart. -/
def sends (s : Site) : Event → List Command
  | .acquire k => [.acquire k]
  | .close k => [.close k]
  | .stats k => [.stats k]
  | .release k reply =>
    match s.standing k with
    | .holding id _ => [.release id reply]
    | _ => []
  | .abandon k =>
    match s.standing k with
    | .answered (.loan id _) => if s.isReachable then [.dropped id] else []
    | _ => []
  | .dropLoan k =>
    match s.standing k with
    | .holding id _ => if s.isReachable then [.dropped id] else []
    | _ => []
  | .deadline timer =>
    match s.deadlines.find? (·.timer = timer) with
    | some d => if s.isReachable then [.timedOut d.request] else []
    | none => []
  | .notice id => if s.isReachable then [.closed id] else []
  | _ => []

variable {s : Site} {g : Command → Bool}

/-- What is sent from outside brings neither requests nor connections. -/
theorem plain_of_sends {e : Event} {c : Command} (sent : c ∈ s.sends e) :
    c.requests = [] ∧ c.isConnected = false := by
  have lone : ∀ {only : Command}, c ∈ [only] → only.requests = [] → only.isConnected = false →
      c.requests = [] ∧ c.isConnected = false := by
    intro only sent requests connected
    rw [List.mem_singleton.mp sent]
    exact ⟨requests, connected⟩
  cases e with
  | acquire k => exact lone sent rfl rfl
  | close k => exact lone sent rfl rfl
  | stats k => exact lone sent rfl rfl
  | release k reply =>
    simp only [sends] at sent
    split at sent
    · exact lone sent rfl rfl
    · cases sent
  | abandon k =>
    simp only [sends] at sent
    split at sent
    · split at sent
      · exact lone sent rfl rfl
      · cases sent
    · cases sent
  | dropLoan k =>
    simp only [sends] at sent
    split at sent
    · split at sent
      · exact lone sent rfl rfl
      · cases sent
    · cases sent
  | deadline timer =>
    simp only [sends] at sent
    split at sent
    · split at sent
      · exact lone sent rfl rfl
      · cases sent
    · cases sent
  | notice id =>
    simp only [sends] at sent
    split at sent
    · exact lone sent rfl rfl
    · cases sent
  | _ => cases sent

theorem countP_underWay (s : Site) (g : Command → Bool) :
    s.underWay.countP g = s.mailbox.countP g + s.connects.countP (fun j => g j.command) +
      s.checks.countP (fun j => g j.command) := by
  simp only [underWay, List.countP_append, List.countP_map]
  rfl

theorem countP_underWay_send (c : Command) :
    (s.send c).underWay.countP g = s.underWay.countP g + [c].countP g := by
  simp only [countP_underWay, send, List.countP_append]
  omega

theorem countP_underWay_report (c : Command) :
    (s.report c).underWay.countP g =
      s.underWay.countP g + (if s.isReachable then [c] else []).countP g := by
  simp only [report]
  split
  · exact countP_underWay_send c
  · simp

theorem countP_underWay_finishConnect (numbered : s.Numbered) (blind : Command.Blind g)
    (job : JobId) (result : Except String (Serial × Connection)) :
    (s.finishConnect job result).underWay.countP g = s.underWay.countP g := by
  simp only [finishConnect]
  split
  · rfl
  · next j found =>
    have here : j.job = job := by simpa using List.find?_some found
    have member := List.mem_of_find?_eq_some found
    subst here
    -- The attempt leaves the list, and its command enters the mailbox.
    have rest := Keyed.countP_remove numbered.connects member fun j => g j.command
    have counted : ∀ result, [Command.connected j.target result].countP g =
        (g j.command).toNat := by
      intro result
      rw [List.countP_singleton, blind.connected, ConnectJob.command]
      cases g (.connected j.target (.error "")) <;> rfl
    cases result with
    | error cause =>
      rw [countP_underWay_send, counted, countP_underWay, countP_underWay]
      dsimp only
      omega
    | ok opened =>
      rw [countP_underWay_send, counted, countP_underWay, countP_underWay]
      dsimp only
      omega

theorem countP_underWay_finishCheck (numbered : s.Numbered) (blind : Command.Blind g)
    (job : JobId) (healthy : Bool) :
    (s.finishCheck job healthy).underWay.countP g = s.underWay.countP g := by
  simp only [finishCheck]
  split
  · rfl
  · next j found =>
    have here : j.job = job := by simpa using List.find?_some found
    have member := List.mem_of_find?_eq_some found
    subst here
    have rest := Keyed.countP_remove numbered.checks member fun j => g j.command
    have counted : [Command.checked j.id healthy j.reply].countP g = (g j.command).toNat := by
      rw [List.countP_singleton, blind.checked, CheckJob.command]
      cases g (.checked j.id false j.reply) <;> rfl
    rw [countP_underWay_send, counted, countP_underWay, countP_underWay]
    dsimp only
    omega

theorem countP_underWay_happen (numbered : s.Numbered) (blind : Command.Blind g) (e : Event) :
    (s.happen e).underWay.countP g = s.underWay.countP g + (s.sends e).countP g := by
  cases e with
  | acquire k => exact countP_underWay_send _
  | close k => exact countP_underWay_send _
  | stats k => exact countP_underWay_send _
  | release k reply =>
    simp only [happen, release, sends]
    cases s.standing k with
    | holding id serial => exact countP_underWay_send _
    | _ => rfl
  | read k =>
    simp only [happen, read]
    split <;> rfl
  | abandon k =>
    simp only [happen, abandon, sends]
    cases s.standing k with
    | answered outcome =>
      cases outcome with
      | loan id serial => exact countP_underWay_report (s := s.setStanding k .abandoned) _
      | _ => rfl
    | _ => rfl
  | dropLoan k =>
    simp only [happen, dropLoan, sends]
    cases s.standing k with
    | holding id serial => exact countP_underWay_report (s := s.setStanding k .spent) _
    | _ => rfl
  | connected job result => exact countP_underWay_finishConnect numbered blind job result
  | checked job healthy => exact countP_underWay_finishCheck numbered blind job healthy
  | deadline timer =>
    simp only [happen, passDeadline, sends]
    cases s.deadlines.find? (·.timer = timer) with
    | none => rfl
    | some d => exact countP_underWay_report (s := { s with deadlines := _ }) _
  | notice id => exact countP_underWay_report (s := { s with listeners := _ }) _
  | _ => rfl

theorem countP_underWay_enact (now : Nat) (e : Effect) :
    (s.enact now e).underWay.countP g = s.underWay.countP g + e.starts.countP g := by
  cases e with
  | connect target =>
    simp only [countP_underWay, enact, Effect.starts, List.countP_append, List.countP_singleton,
      ConnectJob.command]
    omega
  | check id serial reply =>
    simp only [countP_underWay, enact, Effect.starts, List.countP_append, List.countP_singleton,
      CheckJob.command]
    omega
  | answer k outcome =>
    simp only [enact]
    split <;> rfl
  | _ => rfl

theorem underWay_next? {c : Option Command} {rest : Site} (due : s.next? = some (c, rest)) :
    s.underWay = c.toList ++ rest.underWay := by
  cases next_of_due due with
  | command oldest => simp [underWay, oldest]
  | ending empty lost => rfl

/-! ### The numbers of pieces of work -/

theorem numbered_of_same {s' : Site} (numbered : s.Numbered) (connects : s'.connects = s.connects)
    (checks : s'.checks = s.checks) (next : s'.nextJob = s.nextJob) : s'.Numbered := by
  constructor
  · exact connects ▸ numbered.connects
  · exact checks ▸ numbered.checks
  · rw [connects, next]
    exact numbered.usedConnects
  · rw [checks, next]
    exact numbered.usedChecks

/-- No work has begun, and no number has been given to any. -/
structure Sheds (s s' : Site) : Prop where
  connects : s'.connects.Sublist s.connects
  checks : s'.checks.Sublist s.checks
  nextJob : s'.nextJob = s.nextJob

theorem Sheds.report {s' : Site} (sheds : s.Sheds s') (c : Command) : s.Sheds (s'.report c) := by
  simp only [Site.report]
  split
  · exact ⟨sheds.connects, sheds.checks, sheds.nextJob⟩
  · exact sheds

/-- Events end work, and begin none. -/
theorem sheds_happen (s : Site) (e : Event) : s.Sheds (s.happen e) := by
  have same : ∀ {s' : Site}, s'.connects = s.connects → s'.checks = s.checks →
      s'.nextJob = s.nextJob → s.Sheds s' := by
    intro s' connects checks next
    exact ⟨connects ▸ .refl _, checks ▸ .refl _, next⟩
  cases e with
  | release k reply =>
    simp only [happen, release]
    split <;> exact same rfl rfl rfl
  | read k =>
    simp only [happen, read]
    split <;> exact same rfl rfl rfl
  | abandon k =>
    simp only [happen, abandon]
    split
    · exact same rfl rfl rfl
    · refine Sheds.report ?_ _
      exact same rfl rfl rfl
    · exact same rfl rfl rfl
    · exact same rfl rfl rfl
  | dropLoan k =>
    simp only [happen, dropLoan]
    split
    · refine Sheds.report ?_ _
      exact same rfl rfl rfl
    · exact same rfl rfl rfl
  | connected job result =>
    simp only [happen, finishConnect]
    split
    · exact same rfl rfl rfl
    · split <;> exact ⟨List.filter_sublist, .refl _, rfl⟩
  | checked job healthy =>
    simp only [happen, finishCheck]
    split
    · exact same rfl rfl rfl
    · exact ⟨.refl _, List.filter_sublist, rfl⟩
  | deadline timer =>
    simp only [happen, passDeadline]
    split
    · exact same rfl rfl rfl
    · refine Sheds.report ?_ _
      exact same rfl rfl rfl
  | notice id =>
    refine Sheds.report ?_ _
    exact same rfl rfl rfl
  | _ => exact same rfl rfl rfl

theorem Sheds.numbered {s' : Site} (sheds : s.Sheds s') (numbered : s.Numbered) : s'.Numbered where
  connects := numbered.connects.sublist (sheds.connects.map _)
  checks := numbered.checks.sublist (sheds.checks.map _)
  usedConnects j member := sheds.nextJob ▸ numbered.usedConnects j (sheds.connects.subset member)
  usedChecks j member := sheds.nextJob ▸ numbered.usedChecks j (sheds.checks.subset member)

theorem numbered_happen (numbered : s.Numbered) (e : Event) : (s.happen e).Numbered :=
  (sheds_happen s e).numbered numbered

theorem nodup_concat_job {n : Nat} {jobs : List JobId} (distinct : jobs.Nodup)
    (used : ∀ j ∈ jobs, j.number < n) : (jobs ++ [(⟨n⟩ : JobId)]).Nodup := by
  rw [List.nodup_append]
  refine ⟨distinct, by simp, ?_⟩
  rintro j member _ new rfl
  rw [List.mem_singleton.mp new] at member
  exact Nat.lt_irrefl _ (used _ member)

theorem numbered_enact (numbered : s.Numbered) (now : Nat) (e : Effect) :
    (s.enact now e).Numbered := by
  have older : ∀ job : JobId, job.number < s.nextJob → job.number < s.nextJob + 1 :=
    fun _ used => Nat.lt_succ_of_lt used
  cases e with
  | connect target =>
    constructor
    case connects =>
      simp only [enact, List.map_append, List.map_singleton]
      exact nodup_concat_job numbered.connects (by simpa using numbered.usedConnects)
    case checks => exact numbered.checks
    case usedConnects =>
      intro j member
      rcases List.mem_append.mp member with member | new
      · exact older _ (numbered.usedConnects j member)
      · rw [List.mem_singleton.mp new]
        exact Nat.lt_succ_self s.nextJob
    case usedChecks => exact fun j member => older _ (numbered.usedChecks j member)
  | check id serial reply =>
    constructor
    case connects => exact numbered.connects
    case checks =>
      simp only [enact, List.map_append, List.map_singleton]
      exact nodup_concat_job numbered.checks (by simpa using numbered.usedChecks)
    case usedConnects => exact fun j member => older _ (numbered.usedConnects j member)
    case usedChecks =>
      intro j member
      rcases List.mem_append.mp member with member | new
      · exact older _ (numbered.usedChecks j member)
      · rw [List.mem_singleton.mp new]
        exact Nat.lt_succ_self s.nextJob
  | answer k outcome =>
    simp only [enact]
    split
    · exact numbered_of_same numbered rfl rfl rfl
    · exact numbered
  | _ => exact numbered_of_same numbered rfl rfl rfl

theorem numbered_next? {c : Option Command} {rest : Site} (numbered : s.Numbered)
    (due : s.next? = some (c, rest)) : rest.Numbered := by
  cases next_of_due due <;> exact numbered_of_same numbered rfl rfl rfl

end Site

/-! ### Moves -/

inductive Shift (sc : Scene) : Site → Prop where
  | event {later : Nat} {e : Site.Event} (allowed : sc.site.allows later e = true) :
      Shift sc (sc.site.happen e)
  | begin {c : Option Command} {rest : Site} (due : sc.site.next? = some (c, rest)) : Shift sc rest
  | pool (p : Pool) : Shift sc (sc.site.withPool p)
  | effect {p : Pool} {h : Hand} {e : Effect}
      (reachable : e.starts ≠ [] → sc.site.isReachable = true) :
      Shift sc ((sc.alter p h).emit e).site

theorem shift_move {sc sc' : Scene} (move : Move sc sc') : Shift sc sc'.site := by
  cases move with
  | event order allowed => exact .event allowed
  | wait order => exact .pool sc.site.pool
  | begin free due => exact .begin due
  | overflow task queued due reachable drained => exact .effect fun _ => reachable
  | connect held opened unarmed reachable drained room => exact .effect fun _ => reachable
  | check held replies reachable known checking => exact .effect fun _ => reachable
  | _ => first | exact .pool _ | exact .effect fun works => absurd rfl works

variable {sc sc' : Scene}

theorem numbered_move (move : Move sc sc') (numbered : sc.site.Numbered) :
    sc'.site.Numbered := by
  have shift := shift_move move
  generalize sc'.site = after at shift
  cases shift with
  | event allowed => exact Site.numbered_happen numbered _
  | begin due => exact Site.numbered_next? numbered due
  | pool p => exact Site.numbered_of_same numbered rfl rfl rfl
  | @effect p h e reachable =>
    have same : (sc.site.withPool p).Numbered := Site.numbered_of_same numbered rfl rfl rfl
    exact Site.numbered_enact same sc.now e

/-- Whoever holds on to the pool after a move, somebody did before. -/
theorem reachable_of_move (move : Move sc sc') (reachable : sc'.site.isReachable = true) :
    sc.site.isReachable = true := by
  have shift := shift_move move
  generalize sc'.site = after at shift reachable
  cases shift with
  | event allowed => exact Site.reachable_of_happen allowed reachable
  | begin due => exact (Site.reachable_next? due).symm.trans reachable
  | pool p => exact reachable
  | @effect p h e guarded =>
    by_cases idle : e.starts = []
    · exact Site.reachable_of_enact (s := sc.site.withPool p) idle reachable
    · exact guarded idle

def Scene.underWay (sc : Scene) : List Command :=
  sc.hand.task.join.toList ++ sc.site.underWay

namespace Scene

theorem underWay_alter (p : Pool) (h : Hand) :
    (sc.alter p h).underWay = h.task.join.toList ++ sc.site.underWay := rfl

theorem underWay_of_task {c : Command} (task : sc.hand = { task := some (some c) }) :
    sc.underWay = c :: sc.site.underWay := by
  rw [underWay, task]
  rfl

theorem countP_of_task {g : Command → Bool} {c : Command}
    (task : sc.hand = { task := some (some c) }) :
    sc.underWay.countP g = sc.site.underWay.countP g + (g c).toNat := by
  rw [underWay_of_task task, List.countP_cons]
  cases g c <;> rfl

theorem underWay_of_free (free : sc.hand = {}) : sc.underWay = sc.site.underWay := by
  rw [underWay, free]
  rfl

theorem underWay_of_end (task : sc.hand = { task := some none }) :
    sc.underWay = sc.site.underWay := by
  rw [underWay, task]
  rfl

theorem countP_underWay_emit (g : Command → Bool) (e : Effect) :
    (sc.emit e).underWay.countP g = sc.underWay.countP g + e.starts.countP g := by
  simp only [underWay, List.countP_append]
  rw [show (sc.emit e).site.underWay.countP g = _ from Site.countP_underWay_enact sc.now e]
  simp only [hand_emit]
  omega

theorem underWay_begin {c : Option Command} {rest : Site} (free : sc.hand = {})
    (due : sc.site.next? = some (c, rest)) : c.toList ++ rest.underWay = sc.underWay := by
  rw [underWay_of_free free, Site.underWay_next? due]

end Scene

end LoanPool
