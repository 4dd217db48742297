import LoanPool.Estate
import LoanPool.Proofs.Frames
import LoanPool.Proofs.Keyed

/-!
# Pools do not disturb each other

Whatever happens at other pools, a pool goes the way that it goes alone. To be given back into
another pool is, for a loan and its own pool, to be dropped; for the other pool it is nothing, as
its handle has answered on the spot.
-/
namespace LoanPool

/-! ### What giving back through a handle comes to -/

namespace Site
variable {s : Site} {k reply : Ticket} {id : ConnId} {serial : Serial}

theorem giveBack_home (holding : s.standing k = .holding id serial) :
    s.giveBack true k reply = (none, s.happen (.release k reply)) := by
  simp only [giveBack, holding, if_true, happen]

theorem giveBack_abroad (holding : s.standing k = .holding id serial) :
    s.giveBack false k reply =
      (some (.failed (.foreignConnection id)), s.happen (.dropLoan k)) := by
  simp only [giveBack, holding, Bool.false_eq_true, if_false, happen]

/-- A loan that is dropped is gone, and the pool is told so once if it is still there. -/
theorem dropLoan_of_holding (holding : s.standing k = .holding id serial) :
    (s.happen (.dropLoan k)).tickets.lookup k = some .spent ∧
      (s.happen (.dropLoan k)).mailbox =
        s.mailbox ++ if s.isReachable then [.dropped id] else [] := by
  have known : ∃ standing, s.tickets.lookup k = some standing := by
    cases found : s.tickets.lookup k with
    | none => simp [Site.standing, found] at holding
    | some standing => exact ⟨standing, rfl⟩
  obtain ⟨standing, known⟩ := known
  constructor
  · simp only [happen, dropLoan, holding]
    rw [tickets_report, lookup_setStanding, if_pos rfl, known, Option.map_some]
  · simp only [happen, dropLoan, holding, report]
    have same : (s.setStanding k .spent).isReachable = s.isReachable := rfl
    rw [same]
    split
    · rfl
    · exact (List.append_nil _).symm

theorem spent_step {f f' : Frame} {d : Deed} (step : f.Step d f')
    (spent : f.site.tickets.lookup k = some .spent) :
    f'.site.tickets.lookup k = some .spent := by
  cases step with
  | event order instant allowed => exact spent_happen spent _
  | begin free order due course =>
    cases next_of_due due <;> exact spent
  | effect going along next => exact spent_enact spent _ _
  | finish going along complete => exact spent

end Site

namespace Estate
variable {E E' : Estate} {p q : PoolId} {f f' : Site.Frame}

/-! ### Finding a pool by its number -/

theorem Member.holding_of_loan {m : Member} {k : Ticket} {loan : Loan}
    (lent : m.loan? k = some loan) : ∃ id serial, m.frame.site.standing k = .holding id serial := by
  simp only [loan?] at lent
  split at lent
  · next id serial holding => exact ⟨id, serial, holding⟩
  · cases lent

theorem id_of_member {m : Member} (here : E.member? p = some m) : m.id = p := by
  simpa using List.find?_some here

theorem frame_of_member {m : Member} (here : E.member? p = some m) :
    E.frame? p = some m.frame := by
  rw [frame?, here, Option.map_some]

theorem member?_withFrame : (E.withFrame p f).member? q =
    (E.member? q).map fun m => if m.id = p then { m with frame := f } else m := by
  simp only [member?, withFrame, List.find?_map]
  congr 2
  funext m
  simp only [Function.comp]
  split <;> rfl

theorem frame?_withFrame_self {g : Site.Frame} (here : E.frame? p = some f) :
    (E.withFrame p g).frame? p = some g := by
  obtain ⟨m, found, -⟩ := Option.map_eq_some_iff.mp here
  rw [frame?, member?_withFrame, found, Option.map_some, if_pos (id_of_member found),
    Option.map_some]

theorem frame?_withFrame_ne (other : q ≠ p) : (E.withFrame p f).frame? q = E.frame? q := by
  rw [frame?, member?_withFrame]
  cases found : E.member? q with
  | none => rw [frame?, found, Option.map_none]
  | some m =>
    have elsewhere : m.id ≠ p := id_of_member found ▸ other
    rw [Option.map_some, if_neg elsewhere, frame?, found]

/-! ### Numbers are given out once -/

structure Numbered (E : Estate) : Prop where
  distinct : (E.members.map (·.id)).Nodup
  given : ∀ m ∈ E.members, m.id.number < E.nextPool.number

theorem numbered_of_ids (numbered : E.Numbered)
    (ids : E'.members.map (·.id) = E.members.map (·.id)) (next : E'.nextPool = E.nextPool) :
    E'.Numbered where
  distinct := ids ▸ numbered.distinct
  given := by
    intro m member
    have known : m.id ∈ E.members.map (·.id) := ids ▸ List.mem_map_of_mem member
    obtain ⟨m', member', same⟩ := List.mem_map.mp known
    rw [next, ← same]
    exact numbered.given m' member'

theorem numbered_add (numbered : E.Numbered) (f : Site.Frame) : (E.add f).Numbered where
  distinct := by
    simp only [add, List.map_append, List.map_singleton]
    refine List.nodup_append.mpr ⟨numbered.distinct, List.pairwise_singleton _ _, ?_⟩
    intro id known id' new same
    obtain ⟨m, member, rfl⟩ := List.mem_map.mp known
    rw [List.mem_singleton] at new
    exact absurd (congrArg PoolId.number (same.trans new)) (Nat.ne_of_lt (numbered.given m member))
  given := by
    intro m member
    rcases List.mem_append.mp member with older | new
    · exact Nat.lt_succ_of_lt (numbered.given m older)
    · rw [List.mem_singleton] at new
      rw [new]
      exact Nat.lt_succ_self _

theorem ids_withFrame : (E.withFrame p f).members.map (·.id) = E.members.map (·.id) := by
  simp only [withFrame, List.map_map]
  refine List.map_congr_left fun m _ => ?_
  simp only [Function.comp]
  split <;> rfl

theorem unused_of_numbered (numbered : E.Numbered) : E.member? E.nextPool = none := by
  refine List.find?_eq_none.mpr fun m member => ?_
  simp only [decide_eq_true_eq]
  exact fun same => absurd (congrArg PoolId.number same) (Nat.ne_of_lt (numbered.given m member))

theorem frame?_add_new (numbered : E.Numbered) : (E.add f).frame? E.nextPool = some f := by
  have none_yet := unused_of_numbered numbered
  simp only [member?] at none_yet
  simp [frame?, member?, add, List.find?_append, none_yet]

theorem withFrame_add (numbered : E.Numbered) :
    (E.add f).withFrame E.nextPool f' = E.add f' := by
  have apart : ∀ m ∈ E.members, m.id ≠ E.nextPool := fun m member same =>
    absurd (congrArg PoolId.number same) (Nat.ne_of_lt (numbered.given m member))
  have others := Keyed.map_of_absent apart fun m => { m with frame := f' }
  simp only [withFrame, add, List.map_append, others, List.map_singleton, if_true]

theorem frame?_add_ne (other : q ≠ E.nextPool) : (E.add f).frame? q = E.frame? q := by
  have apart : ¬E.nextPool = q := fun same => other same.symm
  simp [frame?, member?, add, List.find?_append, apart]

/-! ### What a doing is for one pool -/

/-- What a doing is for the pool of this number: its own deeds, and the end of its own loans. A loan
that is given back into another pool is dropped. -/
def Doing.seenAt (p : PoolId) : Doing → List Site.Deed
  | .build .. => []
  | .own q d => if q = p then [d] else []
  | .giveBack owner k into reply =>
    if owner = p then [.event (if into = owner then .release k reply else .dropLoan k)] else []

def Doing.built? : Doing → Option (PoolId × Config × (Hook → Nat → Option String))
  | .build p config observer => some (p, config, observer)
  | _ => none

def seenAt (p : PoolId) (ds : List Doing) : List Site.Deed :=
  ds.flatMap (·.seenAt p)

def built (ds : List Doing) : List (PoolId × Config × (Hook → Nat → Option String)) :=
  ds.filterMap Doing.built?

variable {d : Doing} {ds : List Doing}

theorem seenAt_concat (p : PoolId) (ds : List Doing) (d : Doing) :
    seenAt p (ds ++ [d]) = seenAt p ds ++ d.seenAt p := by
  simp [seenAt]

theorem built_concat (ds : List Doing) (d : Doing) :
    built (ds ++ [d]) = built ds ++ d.built?.toList := by
  rw [built, List.filterMap_append]
  cases d <;> rfl

inductive Touches (E : Estate) (d : Doing) (E' : Estate) (p : PoolId) : Prop where
  | aside (same : E'.frame? p = E.frame? p) (seen : d.seenAt p = [])
      (unbuilt : d.built?.toList.lookup p = none)
  | deed {f f' : Site.Frame} {deed : Site.Deed} (before : E.frame? p = some f)
      (after : E'.frame? p = some f') (step : f.Step deed f') (seen : d.seenAt p = [deed])
  | built {config : Config} {observer : Hook → Nat → Option String} (new : E.frame? p = none)
      (here : E'.frame? p = some { site := .start config observer })
      (builds : d = .build p config observer)

theorem touches_withFrame (before : E.frame? p = some f) {deed : Site.Deed}
    (step : f.Step deed f') (frames : ∀ q, E'.frame? q = (E.withFrame p f').frame? q)
    (unbuilt : d.built? = none) (own : d.seenAt p = [deed])
    (others : ∀ q, p ≠ q → d.seenAt q = []) (q : PoolId) : Touches E d E' q := by
  by_cases same : p = q
  · subst same
    exact .deed before ((frames p).trans (frame?_withFrame_self before)) step own
  · refine .aside ?_ (others q same) (by rw [unbuilt]; rfl)
    rw [frames, frame?_withFrame_ne (Ne.symm same)]

/-- The number on a loan is that of the handle just if the loan has come home. -/
theorem home_iff {owner into : PoolId} {k : Ticket} {m n : Member} {loan : Loan}
    (lender : E.member? owner = some m) (other : E.member? into = some n)
    (lent : m.loan? k = some loan) : loan.pool = n.id ↔ into = owner := by
  obtain ⟨id, serial, holding⟩ := Member.holding_of_loan lent
  rw [Member.loan?, holding, Option.some.injEq] at lent
  rw [← lent, id_of_member lender, id_of_member other]
  exact eq_comm

/-- A loan that is given back is released or dropped, and that is an event of its own pool. -/
theorem giveBack_event {owner into : PoolId} {k reply : Ticket} {m n : Member} {loan : Loan}
    {answer : Option Outcome} {s : Site} (lender : E.member? owner = some m)
    (other : E.member? into = some n) (held : n.frame.site.handles ≠ 0)
    (lent : m.loan? k = some loan) (new : n.frame.site.isNew reply = true)
    (given : m.frame.site.giveBack (loan.pool = n.id) k reply = (answer, s)) :
    m.frame.Step (.event (if into = owner then .release k reply else .dropLoan k))
      { m.frame with site := s } := by
  obtain ⟨id, serial, holding⟩ := Member.holding_of_loan lent
  have inHand : m.frame.site.isLent k = true := by
    rw [Site.isLent, holding]
  by_cases home : into = owner
  · rw [decide_eq_true ((home_iff lender other lent).mpr home), Site.giveBack_home holding] at given
    cases given
    subst home
    cases lender.symm.trans other
    rw [if_pos rfl]
    have allowed : m.frame.site.allows m.frame.now (.release k reply) = true := by
      simp [Site.allows, held, inHand, new]
    exact .event (Nat.le_refl _) (fun _ => rfl) allowed
  · rw [decide_eq_false (mt (home_iff lender other lent).mp home), Site.giveBack_abroad holding]
      at given
    cases given
    rw [if_neg home]
    exact .event (Nat.le_refl _) (fun _ => rfl) inHand

theorem touches_step (numbered : E.Numbered) (step : E.Step d E') (p : PoolId) :
    Touches E d E' p := by
  cases step with
  | @build config observer =>
    by_cases new : p = E.nextPool
    · subst new
      refine .built ?_ (frame?_add_new numbered) rfl
      rw [frame?, unused_of_numbered numbered, Option.map_none]
    · refine .aside (frame?_add_ne new) rfl ?_
      have apart : (p == E.nextPool) = false := beq_false_of_ne new
      simp only [Doing.built?, Option.toList_some, List.lookup_cons, apart, List.lookup_nil]
  | @own q deed f f' here step =>
    refine touches_withFrame here step (fun _ => rfl) rfl ?_ (fun p other => ?_) p
    · exact if_pos rfl
    · exact if_neg other
  | @giveBack owner into k reply m n loan answer s lender other held lent new given =>
    have goesBack := giveBack_event lender other held lent new given
    refine touches_withFrame (frame_of_member lender) goesBack ?_ ?_ ?_ (fun p elsewhere => ?_) p
    · exact fun _ => rfl
    · rfl
    · exact if_pos rfl
    · exact if_neg elsewhere

theorem numbered_step (numbered : E.Numbered) (step : E.Step d E') : E'.Numbered := by
  cases step with
  | build => exact numbered_add numbered _
  | own => exact numbered_of_ids numbered ids_withFrame rfl
  | giveBack => exact numbered_of_ids numbered ids_withFrame rfl

/-- A pool among others is where the deeds that were seen at it lead. -/
structure Projects (ds : List Doing) (E : Estate) : Prop where
  numbered : E.Numbered
  unbuilt : ∀ p, E.frame? p = none → seenAt p ds = [] ∧ (built ds).lookup p = none
  frames : ∀ p f, E.frame? p = some f → ∃ config observer,
    (built ds).lookup p = some (config, observer) ∧
      Site.Frame.Run config observer (seenAt p ds) f

theorem projects_step (step : E.Step d E') (projects : Projects ds E) :
    Projects (ds ++ [d]) E' where
  numbered := numbered_step projects.numbered step
  unbuilt := by
    intro p absent
    rw [seenAt_concat, built_concat, List.lookup_append]
    cases touches_step projects.numbered step p with
    | aside same seen unbuilt =>
      obtain ⟨nothing, unknown⟩ := projects.unbuilt p (same ▸ absent)
      rw [nothing, seen, unknown, unbuilt]
      exact ⟨rfl, rfl⟩
    | deed before after => cases absent.symm.trans after
    | built new here => cases absent.symm.trans here
  frames := by
    intro p f here
    rw [seenAt_concat, built_concat, List.lookup_append]
    cases touches_step projects.numbered step p with
    | aside same seen =>
      obtain ⟨config, observer, built, run⟩ := projects.frames p f (same ▸ here)
      refine ⟨config, observer, by rw [built, Option.some_or], ?_⟩
      rw [seen, List.append_nil]
      exact run
    | deed before after step seen =>
      cases here.symm.trans after
      obtain ⟨config, observer, built, run⟩ := projects.frames p _ before
      refine ⟨config, observer, by rw [built, Option.some_or], ?_⟩
      rw [seen]
      exact run.tail step
    | @built config observer new start builds =>
      cases here.symm.trans start
      obtain ⟨nothing, unknown⟩ := projects.unbuilt p new
      refine ⟨config, observer, ?_, ?_⟩
      · rw [unknown, builds, Option.none_or]
        simp [Doing.built?]
      · rw [nothing, builds]
        exact .refl

theorem projects_of_run (run : Run ds E) : Projects ds E := by
  induction run with
  | refl =>
    exact ⟨⟨List.nodup_nil, fun m member => by cases member⟩, fun p absent => ⟨rfl, rfl⟩,
      fun p f here => by cases here⟩
  | tail before last ih => exact projects_step last ih

/-! ### Loans given back into other pools -/

/-- A loan that is gone never comes back to its holder. -/
theorem spent_onward {k : Ticket} (onward : Steps Step E ds E') (numbered : E.Numbered)
    (here : E.frame? p = some f) (spent : f.site.tickets.lookup k = some .spent) :
    E'.Numbered ∧ ∃ f, E'.frame? p = some f ∧ f.site.tickets.lookup k = some .spent := by
  induction onward with
  | refl => exact ⟨numbered, f, here, spent⟩
  | tail before last ih =>
    obtain ⟨numbered, f, here, spent⟩ := ih
    refine ⟨numbered_step numbered last, ?_⟩
    cases touches_step numbered last p with
    | aside same => exact ⟨f, same.trans here, spent⟩
    | deed known after step =>
      cases here.symm.trans known
      exact ⟨_, after, Site.spent_step step spent⟩
    | built new => cases here.symm.trans new

structure TurnedAway (E : Estate) (owner : PoolId) (k : Ticket) (into : PoolId) (reply : Ticket)
    (E' : Estate) (f : Site.Frame) (id : ConnId) : Prop where
  lender : E.frame? owner = some f
  lent : ∃ serial, f.site.standing k = .holding id serial
  answered : E'.answers = E.answers ++ [(into, reply, .failed (.foreignConnection id))]
  /-- Neither the pool that it is given into nor any other is changed, but for its own. -/
  others : ∀ p, p ≠ owner → E'.frame? p = E.frame? p
  /-- Its own pool is as it would be if the loan had been dropped. -/
  dropped : E'.frame? owner = some { f with site := f.site.happen (.dropLoan k) }
  /-- That is told to the pool, unless it is over, and it is not told again. -/
  told : (f.site.happen (.dropLoan k)).mailbox =
    f.site.mailbox ++ if f.site.isReachable then [.dropped id] else []
  gone : ∀ {more : List Doing} {E'' : Estate}, Steps Step E' more E'' →
    ∃ f, E''.frame? owner = some f ∧ f.site.tickets.lookup k = some .spent

theorem turnedAway_of_step {owner into : PoolId} {k reply : Ticket} (numbered : E.Numbered)
    (abroad : into ≠ owner) (step : E.Step (.giveBack owner k into reply) E') :
    ∃ f id, TurnedAway E owner k into reply E' f id := by
  have after := numbered_step numbered step
  cases step with
  | @giveBack _ _ _ _ m n loan answer s lender other held lent new given =>
    obtain ⟨id, serial, holding⟩ := Member.holding_of_loan lent
    rw [decide_eq_false (mt (home_iff lender other lent).mp abroad), Site.giveBack_abroad holding]
      at given
    cases given
    obtain ⟨spent, told⟩ := Site.dropLoan_of_holding holding
    have here := frame?_withFrame_self (frame_of_member lender)
      (g := { m.frame with site := m.frame.site.happen (.dropLoan k) })
    refine ⟨m.frame, id, frame_of_member lender, ⟨serial, holding⟩, rfl, fun p elsewhere => ?_,
      here, told, ?_⟩
    · exact frame?_withFrame_ne elsewhere
    · exact fun onward => (spent_onward onward after here spent).2

/-- A pool that could be alone can be beside others. -/
theorem run_beside {config : Config} {observer : Hook → Nat → Option String}
    {deeds : List Site.Deed} (run : Run ds E) (alone : Site.Frame.Run config observer deeds f) :
    Run (ds ++ .build E.nextPool config observer :: deeds.map (.own E.nextPool)) (E.add f) := by
  have numbered := (projects_of_run run).numbered
  induction alone with
  | refl => exact run.tail .build
  | @tail deeds deed f f' before last ih =>
    have acts : Step (E.add f) (.own E.nextPool deed) ((E.add f).withFrame E.nextPool f') :=
      .own (frame?_add_new numbered) last
    rw [withFrame_add numbered] at acts
    rw [List.map_append, ← List.cons_append, ← List.append_assoc]
    exact ih.tail acts

end Estate

/-- No two pools have one number; every pool among others has gone the way that it goes alone, if
loans of its own that were given back into others had been dropped; and a loan that is given back
into another pool is answered on the spot, is dropped, and changes nothing else. -/
theorem pools_isolated {ds : List Estate.Doing} {E : Estate} (run : Estate.Run ds E) :
    (E.members.map (·.id)).Nodup ∧
    (∀ p f, E.frame? p = some f → ∃ config observer,
      (Estate.built ds).lookup p = some (config, observer) ∧
        Site.Frame.Run config observer (Estate.seenAt p ds) f ∧ f.Reached config observer) ∧
    ∀ {owner into : PoolId} {k reply : Ticket} {E' : Estate}, into ≠ owner →
      E.Step (.giveBack owner k into reply) E' →
      ∃ f id, E.TurnedAway owner k into reply E' f id := by
  have projects := Estate.projects_of_run run
  refine ⟨projects.numbered.distinct, fun p f here => ?_, fun abroad step => ?_⟩
  · obtain ⟨config, observer, built, alone⟩ := projects.frames p f here
    exact ⟨config, observer, built, alone, Site.reached_of_run alone⟩
  · exact Estate.turnedAway_of_step projects.numbered abroad step

/-- The only connection of a pool is lent, and its caller has it in hand. -/
def lentOut : List (Nat × Option Site.Event) :=
  [(0, some (.acquire ⟨1⟩)), (0, none), (2, some (.connected ⟨0⟩ (.ok (⟨1⟩, {})))), (2, none),
    (3, some (.read ⟨1⟩))]

/-- Two pools have lent connections of the same name. The loan of the one is given back into the
other, which is left as it was with its own loan. -/
theorem isolated_of_lentOut : ∃ ds E E' f g, Estate.Run ds E ∧
    E.frame? ⟨1⟩ = some f ∧ E.frame? ⟨2⟩ = some g ∧
    f.site.standing ⟨1⟩ = .holding ⟨1⟩ ⟨1⟩ ∧ g.site.standing ⟨1⟩ = .holding ⟨1⟩ ⟨1⟩ ∧
    E.Step (.giveBack ⟨1⟩ ⟨1⟩ ⟨2⟩ ⟨7⟩) E' ∧ E'.frame? ⟨2⟩ = some g ∧
    E'.answers = [(⟨2⟩, ⟨7⟩, .failed (.foreignConnection ⟨1⟩))] ∧
    ∃ f' deeds, E'.frame? ⟨1⟩ = some f' ∧
      Estate.seenAt ⟨1⟩ (ds ++ [.giveBack ⟨1⟩ ⟨1⟩ ⟨2⟩ ⟨7⟩]) = deeds ++ [.event (.dropLoan ⟨1⟩)] ∧
      f'.site.mailbox.length = 1 ∧ f'.Reached { maxConnections := 1 } fun _ _ => none := by
  obtain ⟨past, now, s, run, seen⟩ := Site.exists_run { maxConnections := 1 } (fun _ _ => none)
    lentOut
    (fun _ s => s.standing ⟨1⟩ == .holding ⟨1⟩ ⟨1⟩ && s.handles != 0 && s.isNew ⟨7⟩ &&
      s.mailbox.isEmpty)
    (by decide +kernel)
  simp only [Bool.and_eq_true, beq_iff_eq, bne_iff_ne, List.isEmpty_iff] at seen
  obtain ⟨⟨⟨holding, held⟩, new⟩, empty⟩ := seen
  obtain ⟨deeds, alone⟩ := Site.frame_of_run run
  have two := Estate.run_beside (Estate.run_beside (Steps.refl : Estate.Run [] {}) alone) alone
  have lent : Estate.Member.loan? ⟨⟨1⟩, ⟨now, s, past, none⟩⟩ ⟨1⟩ = some ⟨⟨1⟩, ⟨1⟩⟩ := by
    rw [Estate.Member.loan?, holding]
  have step : Estate.Step _ (.giveBack ⟨1⟩ ⟨1⟩ ⟨2⟩ ⟨7⟩) _ :=
    .giveBack (E := (Estate.add {} ⟨now, s, past, none⟩).add ⟨now, s, past, none⟩)
      rfl rfl held lent new (Site.giveBack_abroad holding)
  obtain ⟨f, id, away⟩ := (pools_isolated two).2.2 (by decide) step
  cases away.lender
  obtain ⟨serial, known⟩ := away.lent
  cases holding.symm.trans known
  obtain ⟨config, observer, built, alone', reached⟩ :=
    (pools_isolated (two.tail step)).2.1 ⟨1⟩ _ away.dropped
  cases built
  refine ⟨_, _, _, _, _, two, rfl, rfl, holding, holding, step, away.others ⟨2⟩ (by decide),
    away.answered, _, _, away.dropped, Estate.seenAt_concat ⟨1⟩ _ _, ?_, reached⟩
  have here : s.isReachable = true := by
    simp [Site.isReachable, held]
  have told := away.told
  rw [here, empty] at told
  rw [told]
  rfl

end LoanPool
