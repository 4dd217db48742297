import LoanPool.Site.Run

/-!
# Runs in small steps

A run takes each turn of the pool as a whole. A `Frame` is a site at any moment, also in the middle
of a turn, and a `Deed` leads from one frame to the next: an event, the beginning of a turn, one of
its effects, or its end. So what happens at several sites can be put in any order.
-/
namespace LoanPool

inductive Steps {σ δ : Type} (step : σ → δ → σ → Prop) (a : σ) : List δ → σ → Prop where
  | refl : Steps step a [] a
  | tail {ds : List δ} {d : δ} {b c : σ} (before : Steps step a ds b) (last : step b d c) :
      Steps step a (ds ++ [d]) c

namespace Site

/-- A turn under way. The course that the site takes is laid down when the turn begins, and only
what leads along it happens. As any course may be laid down, nothing is excluded by that. -/
structure Underway where
  now : Nat
  command : Option Command
  rest : Site
  course : Course now rest
  done : List Moment := []

namespace Underway

def turn (u : Underway) : Turn :=
  u.course.turn u.command

def site (u : Underway) : Site :=
  u.course.amid (u.done.map (·.effect))

def next (u : Underway) (m : Moment) : Underway :=
  { u with done := u.done ++ [m] }

def record (u : Underway) (m : Moment) : Record :=
  { now := u.now, command := u.command, effect := some m.effect, pool := m.pool }

end Underway

structure Frame where
  now : Nat := 0
  site : Site
  past : List Record := []
  underway : Option Underway := none

inductive Deed where
  | event (e : Event)
  | begin (c : Option Command)
  | effect (e : Effect)
  | finish

namespace Frame

/-- What leads from one frame to the next. A turn takes no time. -/
inductive Step (f : Frame) : Deed → Frame → Prop where
  | event {later : Nat} {e : Event} (order : f.now ≤ later)
      (instant : f.underway.isSome = true → later = f.now)
      (allowed : f.site.allows later e = true) :
      Step f (.event e) { f with now := later, site := f.site.happen e }
  | begin {later : Nat} {c : Option Command} {rest : Site} (free : f.underway = none)
      (order : f.now ≤ later) (due : f.site.next? = some (c, rest)) (course : Course later rest) :
      Step f (.begin c)
        { now := later
          site := rest
          past := f.past ++ [{ now := later, command := c, pool := f.site.pool }]
          underway := some { now := later, command := c, rest, course } }
  | effect {u : Underway} {m : Moment} {back : List Moment} (going : f.underway = some u)
      (along : f.site = u.site) (next : u.turn.log = u.done ++ m :: back) :
      Step f (.effect m.effect)
        { f with
          site := f.site.enact u.now m.effect
          past := f.past ++ [u.record m]
          underway := some (u.next m) }
  | finish {u : Underway} (going : f.underway = some u) (along : f.site = u.site)
      (complete : u.turn.log = u.done) :
      Step f .finish { f with site := f.site.withPool u.turn.pool, underway := none }

def Run (config : Config) (observer : Hook → Nat → Option String) (ds : List Deed) (f : Frame) :
    Prop :=
  Steps Step { site := .start config observer } ds f

end Frame
end Site
end LoanPool
