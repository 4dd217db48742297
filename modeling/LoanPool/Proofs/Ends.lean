import LoanPool.Proofs.Moments
import LoanPool.Proofs.Traffic

/-!
# How a pool ends

A pool closes when it is asked to, or when nothing holds on to it any more. Once its task is over
nothing is sent to it, and it is closed.
-/
namespace LoanPool

variable {sc sc' : Scene}

/-! ### What moves do about the task -/

inductive Tasking (sc sc' : Scene) : Prop where
  | kept (same : sc'.hand.task = sc.hand.task)
  | begun {c : Option Command} {rest : Site} (free : sc.hand = {})
      (due : sc.site.next? = some (c, rest)) (task : sc'.hand.task = some c)
  | acted {c : Option Command} (task : sc.hand = { task := some c }) (done : sc'.hand.task = none)
      (ends : c = none → sc'.pool.closed = true)

theorem tasking_move (move : Move sc sc') : Tasking sc sc' := by
  cases move with
  | begin free due => exact .begun free due rfl
  | shut task ends opened => exact .acted task rfl fun _ => rfl
  | report free closed complete => exact .kept (congrArg Hand.task free).symm
  | _ =>
    first
    | exact .kept rfl
    | exact .acted (by assumption) rfl (fun none_left => by cases none_left)

theorem closed_move (move : Move sc sc') :
    sc'.pool.closed = sc.pool.closed ∨
      sc'.pool.closed = true ∧
        ∃ closer : Option Ticket, sc.hand = { task := some (closer.map .close) } := by
  cases move with
  | event order allowed => simp [Scene.pool]
  | wait order => exact .inl rfl
  | begin free due => simp [Scene.pool, Site.pool_next? due]
  | @shut c closer task ends opened =>
    subst ends
    exact .inr ⟨rfl, closer, task⟩
  | _ =>
    left
    simp only [Scene.pool_emit, Scene.pool_alter]

theorem mem_past_move {rec : Site.Record} (move : Move sc sc') (member : rec ∈ sc.past) :
    rec ∈ sc'.past := by
  cases recording_move move with
  | same past memory => rwa [past]
  | begin free due => exact List.mem_append_left _ member
  | effect p h e => exact List.mem_append_left _ member

theorem lost_move (move : Move sc sc') (lost : sc.site.isReachable = false) :
    sc'.site.isReachable = false := by
  rw [Bool.eq_false_iff] at lost ⊢
  exact fun reachable => lost (reachable_of_move move reachable)

/-! ### The invariant -/

structure Scene.Ends (sc : Scene) : Prop where
  begun : ∀ c, sc.hand.task = some c → ∃ rec ∈ sc.past, rec.command = c
  last : sc.hand.task = some none → sc.site.isReachable = false
  shut : sc.pool.closed = true →
    (∃ rec ∈ sc.past, ∃ k, rec.command = some (.close k)) ∨ sc.site.isReachable = false
  ended : sc.site.ended = true → sc.site.isReachable = false ∧ sc.site.mailbox = []
  stopped : sc.site.ended = true → sc.hand.task = some none ∨ sc.pool.closed = true

theorem begun_move (ends : sc.Ends) (move : Move sc sc') (c : Option Command)
    (task : sc'.hand.task = some c) : ∃ rec ∈ sc'.past, rec.command = c := by
  cases move with
  | begin free due =>
    cases task
    exact ⟨_, List.mem_append_right _ (List.mem_singleton_self _), rfl⟩
  | event order allowed => exact ends.begun c task
  | wait order => exact ends.begun c task
  | _ =>
    first
    | cases task
    | exact ends.begun c task
    | (obtain ⟨rec, member, same⟩ := ends.begun c task
       exact ⟨rec, List.mem_append_left _ member, same⟩)

theorem last_move (ends : sc.Ends) (move : Move sc sc') (task : sc'.hand.task = some none) :
    sc'.site.isReachable = false := by
  apply lost_move move
  cases tasking_move move with
  | kept same => exact ends.last (same ▸ task)
  | begun free due task' =>
    rw [task] at task'
    cases task'
    cases Site.next_of_due due with
    | ending empty lost => exact lost
  | acted task' done stopped =>
    rw [done] at task
    cases task

theorem shut_by_move (ends : sc.Ends) (move : Move sc sc') (closed : sc'.pool.closed = true) :
    (∃ rec ∈ sc'.past, ∃ k, rec.command = some (.close k)) ∨ sc'.site.isReachable = false := by
  rcases closed_move move with same | ⟨-, closer, task⟩
  · rcases ends.shut (same ▸ closed) with ⟨rec, member, asked⟩ | lost
    · exact .inl ⟨rec, mem_past_move move member, asked⟩
    · exact .inr (lost_move move lost)
  · cases closer with
    | none => exact .inr (lost_move move (ends.last (congrArg Hand.task task)))
    | some k =>
      obtain ⟨rec, member, asked⟩ := ends.begun _ (congrArg Hand.task task)
      exact .inl ⟨rec, mem_past_move move member, k, asked⟩

theorem Site.mailbox_enact (s : Site) (now : Nat) (e : Effect) :
    (s.enact now e).mailbox = s.mailbox := by
  cases e with
  | answer k outcome =>
    simp only [enact]
    split <;> rfl
  | _ => rfl

theorem ended_move (ends : sc.Ends) (move : Move sc sc') (stopped : sc'.site.ended = true) :
    sc'.site.isReachable = false ∧ sc'.site.mailbox = [] := by
  have shift := shift_move move
  have lost := lost_move move
  generalize sc'.site = after at shift stopped lost ⊢
  cases shift with
  | event allowed =>
    rw [Site.ended_happen] at stopped
    obtain ⟨before, empty⟩ := ends.ended stopped
    exact ⟨lost before, (Site.mailbox_of_lost before allowed).trans empty⟩
  | begin due =>
    cases Site.next_of_due due with
    | command oldest =>
      rw [(ends.ended stopped).2] at oldest
      cases oldest
    | ending empty alone => exact ⟨alone, empty⟩
  | pool p => exact ends.ended stopped
  | @effect p h e reachable =>
    have before : sc.site.ended = true :=
      Site.ended_enact (s := sc.site.withPool p) sc.now e ▸ stopped
    exact ⟨lost (ends.ended before).1,
      (Site.mailbox_enact (sc.site.withPool p) sc.now e).trans (ends.ended before).2⟩

theorem ended_of_move (move : Move sc sc') (stopped : sc'.site.ended = true) :
    sc.site.ended = true ∨ sc'.hand.task = some none := by
  cases move with
  | event order allowed => exact .inl ((Site.ended_happen _).symm.trans stopped)
  | begin free due =>
    cases Site.next_of_due due with
    | command oldest => exact .inl stopped
    | ending empty lost => exact .inr rfl
  | wait order => exact .inl stopped
  | _ =>
    left
    first
    | exact stopped
    | rw [Scene.emit, Site.ended_enact] at stopped
      exact stopped

theorem stopped_move (ends : sc.Ends) (move : Move sc sc') (stopped : sc'.site.ended = true) :
    sc'.hand.task = some none ∨ sc'.pool.closed = true := by
  rcases ended_of_move move stopped with before | task
  · rcases ends.stopped before with task | closed
    · cases tasking_move move with
      | kept same => exact .inl (same.trans task)
      | begun free due task' =>
        rw [free] at task
        cases task
      | acted task' done closes =>
        rw [task'] at task
        exact .inr (closes (Option.some.inj task))
    · rcases closed_move move with same | ⟨closed', -⟩
      · exact .inr (same.trans closed)
      · exact .inr closed'
  · exact .inl task

theorem ends_move (move : Move sc sc') (ends : sc.Ends) : sc'.Ends where
  begun := begun_move ends move
  last := last_move ends move
  shut := shut_by_move ends move
  ended := ended_move ends move
  stopped := stopped_move ends move

theorem ends_start (config : Config) (observer : Hook → Nat → Option String) :
    (Scene.start config observer).Ends where
  begun _ none_left := by cases none_left
  last none_left := by cases none_left
  shut opened := by cases opened
  ended going := by cases going
  stopped going := by cases going

end LoanPool
