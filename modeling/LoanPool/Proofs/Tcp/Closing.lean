import LoanPool.Tcp.Link

/-!
# Closing a link

A stream is taken away for good, and only when the signal has fired: whatever is asked of the link
from then on fails. A close takes it away if nobody holds it, and so does whoever holds it and notices
the signal. A holder that is done before it notices leaves the stream where it is.
-/
namespace LoanPool.Tcp

def Result.failed : Result → Bool
  | .fault _ => true
  | .alive b => !b
  | _ => false

namespace Link
variable {l : Link} {r : Result} {h : Holder} {e : Event} {op : Operation} {caller : Ticket}
  {answer : Ticket × Result}

/-! ### The next one's turn -/

@[simp] theorem attached_yield : (l.yield r).2.attached = l.attached := by
  rw [yield]
  cases l.holder with
  | none => rfl
  | some h => cases l.waiting <;> rfl

@[simp] theorem fired_yield : (l.yield r).2.fired = l.fired := by
  rw [yield]
  cases l.holder with
  | none => rfl
  | some h => cases l.waiting <;> rfl

theorem passed_yield (next : (l.yield r).2.holder = some h) : h.passed = true := by
  rw [yield] at next
  cases holder : l.holder with
  | none =>
    rw [holder] at next
    cases holder.symm.trans next
  | some first =>
    rw [holder] at next
    cases waiting : l.waiting with
    | nil =>
      rw [waiting] at next
      cases next
    | cons second rest =>
      rw [waiting] at next
      cases next
      rfl

theorem answer_yield (told : answer ∈ (l.yield r).1) : answer.2 = r := by
  rw [yield] at told
  cases holder : l.holder with
  | none =>
    rw [holder] at told
    cases told
  | some first =>
    rw [holder] at told
    rw [List.mem_singleton.mp told]

/-! ### What a stream that is gone tells -/

structure Sound (l : Link) : Prop where
  fired : l.attached = false → l.fired = true
  idle : l.attached = false → ∀ h, l.holder = some h → h.passed = true

theorem sound_new : Sound {} where
  fired := nofun
  idle := nofun

theorem sound_yield (fired : l.attached = false → l.fired = true) : (l.yield r).2.Sound where
  fired detached := by
    rw [attached_yield] at detached
    rw [fired_yield]
    exact fired detached
  idle _ _ := passed_yield

theorem sound_of_attached (attached : l.attached = true) : l.Sound where
  fired detached := absurd attached (by rw [detached]; decide)
  idle detached := absurd attached (by rw [detached]; decide)

theorem sound_enter (s : l.Sound) (h : Holder) : (l.enter h).2.Sound := by
  rw [enter]
  by_cases attached : l.attached = true
  · rw [if_pos attached]
    exact sound_of_attached attached
  · rw [if_neg attached]
    cases h.op <;> exact sound_yield s.fired

theorem sound_start (s : l.Sound) (caller : Ticket) (op : Operation) :
    (l.start caller op).2.Sound := by
  rw [start]
  split
  · exact s
  · split
    · exact sound_enter s _
    · exact ⟨s.fired, s.idle⟩

theorem sound_stir (s : l.Sound) (op : Operation) (stirring : Stirring) :
    (l.stir op stirring).2.Sound := by
  have shut {r : Result} : (l.shut.yield r).2.Sound := sound_yield fun _ => rfl
  have done {r : Result} : (l.yield r).2.Sound := sound_yield s.fired
  cases op with
  | send size => cases stirring <;> first | exact done | exact shut | exact s
  | probe => cases stirring <;> first | exact done | exact shut
  | recv most =>
    cases stirring with
    | moved n => exact done
    | failed => exact shut
    | elapsed => exact done
    | ended =>
      simp only [stir]
      split
      · exact done
      · exact shut

theorem sound_step (s : l.Sound) (e : Event) : (l.step e).2.Sound := by
  cases e with
  | start caller op => exact sound_start s caller op
  | look =>
    simp only [step]
    split
    · split
      · exact sound_enter s _
      · exact s
    · exact s
  | stir stirring =>
    simp only [step]
    split
    · split
      · exact s
      · exact sound_stir s _ stirring
    · exact s
  | notice =>
    simp only [step]
    split
    · split
      · exact s
      · next noticed =>
        refine sound_yield fun _ => ?_
        simp only [not_or, Bool.not_eq_true', Bool.not_eq_false] at noticed
        exact noticed.2.2
    · exact s
  | close =>
    refine ⟨fun _ => rfl, fun detached h held => ?_⟩
    have held : l.holder = some h := held
    simp only [step, held, Option.isSome_some, Bool.and_true] at detached
    exact s.idle detached h held
  | fire => exact ⟨fun _ => rfl, s.idle⟩

theorem sound_run (s : l.Sound) (events : List Event) : (l.run events).2.Sound := by
  induction events generalizing l with
  | nil => exact s
  | cons e rest ih => exact ih (sound_step s e)

/-! ### Once the stream is gone -/

theorem failed_enter (detached : l.attached = false) (told : answer ∈ (l.enter h).1) :
    answer.2.failed = true := by
  rw [enter, if_neg (by simp [detached])] at told
  split at told <;> rw [answer_yield told] <;> rfl

theorem attached_enter (detached : l.attached = false) : (l.enter h).2.attached = false := by
  rw [enter, if_neg (by simp [detached])]
  split <;> simpa using detached

theorem detached_step (s : l.Sound) (detached : l.attached = false) (e : Event) :
    (l.step e).2.attached = false ∧ ∀ answer ∈ (l.step e).1, answer.2.failed = true := by
  cases e with
  | start caller op =>
    simp only [step, start]
    split
    · refine ⟨detached, fun answer told => ?_⟩
      rw [List.mem_singleton.mp told]
      rfl
    · split
      · exact ⟨attached_enter detached, fun answer told => failed_enter detached told⟩
      · exact ⟨detached, nofun⟩
  | look =>
    simp only [step]
    split
    · split
      · exact ⟨attached_enter detached, fun answer told => failed_enter detached told⟩
      · exact ⟨detached, nofun⟩
    · exact ⟨detached, nofun⟩
  | stir stirring =>
    -- Nobody is at work on it.
    simp only [step]
    split
    · next held =>
      rw [if_pos (s.idle detached _ held)]
      exact ⟨detached, nofun⟩
    · exact ⟨detached, nofun⟩
  | notice =>
    simp only [step]
    split
    · next held =>
      rw [if_pos (.inl (s.idle detached _ held))]
      exact ⟨detached, nofun⟩
    · exact ⟨detached, nofun⟩
  | close => exact ⟨by simp [step, detached], nofun⟩
  | fire => exact ⟨detached, nofun⟩

theorem detached_run (s : l.Sound) (detached : l.attached = false) (events : List Event) :
    (l.run events).2.attached = false ∧ ∀ answer ∈ (l.run events).1, answer.2.failed = true := by
  induction events generalizing l with
  | nil => exact ⟨detached, nofun⟩
  | cons e rest ih =>
    obtain ⟨gone, failed⟩ := detached_step s detached e
    obtain ⟨still, fails⟩ := ih (sound_step s e) gone
    refine ⟨still, fun answer told => ?_⟩
    rcases List.mem_append.mp told with told | told
    · exact failed answer told
    · exact fails answer told

/-! ### Closing -/

/-- A close that finds the stream free takes it away, and everything fails from then on. -/
theorem fails_after_free_close (before after : List Event)
    (free : (run {} before).2.holder = none) :
    let closed := ((run {} before).2.step .close).2
    (closed.run after).2.attached = false ∧
      ∀ answer ∈ (closed.run after).1, answer.2.failed = true := by
  have s := sound_run sound_new before
  refine detached_run (sound_step s .close) ?_ after
  simp [step, free]

/-- Whoever notices the signal takes the stream with it, and everything fails from then on. -/
theorem fails_after_notice (before after : List Event) (held : (run {} before).2.holder = some h)
    (looking : h.passed = false) (transfer : h.op ≠ .probe) (fired : (run {} before).2.fired = true) :
    let noticed := ((run {} before).2.step .notice).2
    (noticed.run after).2.attached = false ∧
      ∀ answer ∈ (noticed.run after).1, answer.2.failed = true := by
  have s := sound_run sound_new before
  refine detached_run (sound_step s .notice) ?_ after
  simp [step, held, looking, transfer, fired]

/-- A probe that is under way does not notice: it finds the link alive, and the stream stays. -/
example : (run {} [.start ⟨0⟩ .probe, .close, .stir .elapsed, .start ⟨1⟩ (.send 4),
    .stir (.moved 4)]).1 = [(⟨0⟩, .alive true), (⟨1⟩, .sent 4)] := by
  decide

end Link
end LoanPool.Tcp
