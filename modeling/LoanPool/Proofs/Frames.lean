import LoanPool.Proofs.Runs
import LoanPool.Site.Frame

/-!
# Small steps and whole turns

A site that is alone goes the same way whether its turns are taken as a whole or step by step:
between two turns the small steps have led to where a run leads, and every run can be gone in small
steps.
-/
namespace LoanPool

namespace Steps
variable {σ δ : Type} {step : σ → δ → σ → Prop} {a b c : σ} {ds ds' : List δ}

theorem trans (first : Steps step a ds b) (then_ : Steps step b ds' c) :
    Steps step a (ds ++ ds') c := by
  induction then_ with
  | refl => rwa [List.append_nil]
  | tail before last ih =>
    rw [← List.append_assoc]
    exact ih.tail last

/-- What every step keeps is kept all the way. -/
theorem invariant {holds : σ → Prop} (steps : Steps step a ds b)
    (kept : ∀ {x d y}, step x d y → holds x → holds y) (first : holds a) : holds b := by
  induction steps with
  | refl => exact first
  | tail before last ih => exact kept last ih

end Steps

namespace Site
variable {config : Config} {observer : Hook → Nat → Option String} {past : List Record}
  {now : Nat} {s : Site} {f f' : Frame} {ds : List Deed} {d : Deed} {u : Underway}

/-- A run of one site led here, or to where the turn under way began. -/
inductive Frame.Reached (config : Config) (observer : Hook → Nat → Option String) (f : Frame) :
    Prop where
  | between (free : f.underway = none) (run : Site.Run config observer f.past f.now f.site)
  | amid {u : Underway} {past : List Record} {now : Nat} {s : Site} {back : List Moment}
      (going : f.underway = some u) (run : Site.Run config observer past now s)
      (order : now ≤ u.now) (due : s.next? = some (u.command, u.rest)) (instant : f.now = u.now)
      (recorded : f.past =
        past ++ records u.now u.command s.pool { pool := s.pool, log := u.done })
      (far : u.turn.log = u.done ++ back)

theorem reached_step (step : f.Step d f') (reached : f.Reached config observer) :
    f'.Reached config observer := by
  cases step with
  | event order instant allowed =>
    cases reached with
    | between free run => exact .between free (.event run order allowed)
    | amid going run since due now' recorded far =>
      have same := instant (by rw [going]; rfl)
      exact .amid going run since due (same.trans now') recorded far
  | begin free order due course =>
    cases reached with
    | between _ run => exact .amid rfl run order due rfl rfl rfl
    | amid going => cases free.symm.trans going
  | @effect u m back going along next =>
    cases reached with
    | between free => cases free.symm.trans going
    | amid going' run order due instant recorded far =>
      cases going.symm.trans going'
      refine .amid rfl run order due instant ?_ (next.trans (List.append_cons _ _ _))
      simp only [recorded, records, Underway.next, List.map_append, List.append_assoc,
        List.cons_append]
      rfl
  | @finish u going along complete =>
    cases reached with
    | between free => cases free.symm.trans going
    | @amid _ past now s back going' run order due instant recorded far =>
      cases going.symm.trans going'
      refine .between rfl ?_
      have record : f.past = past ++ records u.now u.command s.pool u.turn := by
        simp only [recorded, records, complete]
      have site : f.site.withPool u.turn.pool = u.course.after u.command := by
        rw [along, Underway.site, ← complete]
        rfl
      dsimp only
      rw [record, site, instant]
      exact .turn run order due u.course

/-- Small steps lead where runs lead. -/
theorem reached_of_run (run : Frame.Run config observer ds f) : f.Reached config observer :=
  run.invariant reached_step (.between rfl .start)

/-! ### Every run in small steps -/

theorem steps_drift {now : Nat} {s' : Site} (instant : f.now = now) (drift : Drift now f.site s') :
    ∃ ds, Steps Frame.Step f ds { f with site := s' } := by
  induction drift with
  | refl => exact ⟨[], .refl⟩
  | @next mid e before allowed ih =>
    obtain ⟨ds, steps⟩ := ih
    refine ⟨ds ++ [.event e], steps.tail ?_⟩
    have happens : Frame.Step { f with site := mid } (.event e)
        { f with now := f.now, site := mid.happen e } :=
      .event (Nat.le_refl _) (fun _ => rfl) (instant ▸ allowed)
    exact happens

theorem steps_effect {m : Moment} {back : List Moment} (going : f.underway = some u)
    (instant : f.now = u.now) (along : f.site = u.site) (next : u.turn.log = u.done ++ m :: back) :
    ∃ ds, Steps Frame.Step f ds
      { f with
        site := (u.next m).site
        past := f.past ++ [u.record m]
        underway := some (u.next m) } := by
  have drift := u.course.goes (u.done.map (·.effect)) m.effect
  have reaches : u.course.amid (u.done.map (·.effect) ++ [m.effect]) = (u.next m).site := by
    simp only [Underway.site, Underway.next, List.map_append, List.map_singleton]
  rw [reaches, show u.course.amid (u.done.map (·.effect)) = f.site from along.symm] at drift
  have first := (Steps.refl (a := f)).tail (Frame.Step.effect going along next)
  obtain ⟨ds, others⟩ := steps_drift (f := { f with
    site := f.site.enact u.now m.effect
    past := f.past ++ [u.record m]
    underway := some (u.next m) }) instant drift
  exact ⟨_, first.trans others⟩

theorem steps_effects {todo : List Moment} (going : f.underway = some u) (instant : f.now = u.now)
    (along : f.site = u.site) (rest : u.turn.log = u.done ++ todo) :
    ∃ ds, Steps Frame.Step f ds
      { f with
        site := u.course.amid u.turn.effects
        past := f.past ++ todo.map u.record
        underway := some { u with done := u.turn.log } } := by
  induction todo generalizing f u with
  | nil =>
    have complete : u.turn.log = u.done := by simpa using rest
    have site : u.course.amid u.turn.effects = f.site := by
      rw [along, Underway.site, Turn.effects, complete]
    refine ⟨[], ?_⟩
    rw [site, complete, List.map_nil, List.append_nil, ← going]
    exact .refl
  | cons m todo ih =>
    obtain ⟨ds, first⟩ := steps_effect going instant along rest
    obtain ⟨ds', others⟩ := ih (u := u.next m) (f := { f with
      site := (u.next m).site
      past := f.past ++ [u.record m]
      underway := some (u.next m) }) rfl instant rfl (rest.trans (List.append_cons _ _ _))
    rw [List.map_cons, List.append_cons]
    exact ⟨ds ++ ds', first.trans others⟩

theorem steps_turn {later : Nat} {rest : Site} {c : Option Command} (order : now ≤ later)
    (due : s.next? = some (c, rest)) (course : Course later rest) :
    ∃ ds, Steps Frame.Step { now, site := s, past } ds
      { now := later
        site := course.after c
        past := past ++ records later c s.pool (course.turn c) } := by
  let u : Underway := { now := later, command := c, rest, course }
  let begun : Frame :=
    { now := later
      site := rest
      past := past ++ [{ now := later, command := c, pool := s.pool }]
      underway := some u }
  have begins : Frame.Step { now, site := s, past } (.begin c) begun := .begin rfl order due course
  obtain ⟨ds, before⟩ := steps_drift (f := begun) rfl course.begins
  obtain ⟨ds', effects⟩ := steps_effects (f := { begun with site := course.amid [] }) (u := u)
    rfl rfl rfl rfl
  have begun' := (Steps.refl.tail begins).trans before
  have ends := (begun'.trans effects).tail (.finish rfl rfl rfl)
  rw [records, List.append_cons]
  exact ⟨_, ends⟩

/-- Whatever a run leads to can be reached in small steps. -/
theorem frame_of_run (run : Run config observer past now s) :
    ∃ ds, Frame.Run config observer ds { now, site := s, past } := by
  induction run with
  | start => exact ⟨[], .refl⟩
  | event before order allowed ih =>
    obtain ⟨ds, steps⟩ := ih
    exact ⟨_, steps.tail (.event order (fun going => by cases going) allowed)⟩
  | turn before order due course ih =>
    obtain ⟨ds, steps⟩ := ih
    obtain ⟨ds', turn⟩ := steps_turn order due course
    exact ⟨_, steps.trans turn⟩

end Site
end LoanPool
